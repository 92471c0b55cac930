import ReplayShell.Proofs.InputCuts
import ReplayShell.Proofs.StoreRecords

/-!
# Input that is a text

Input comes as bytes, and its lines are cut at bytes. In the UTF-8 form of a text these are the
lines of the text.

* `Pieces` says that every piece but the last ends with the separator, and has no other.
* `cutAfter_flatMap`: a text whose characters are encoded is cut where the separator's code stands,
  if no other character has that code in it.
* `ofBytes_toUTF8`: the input in the bytes of a text is the text's input.
-/
namespace ReplayShell.Input

/-! ## Pieces -/

/-- Each piece ends with the separator, which stands nowhere else; the last may lack it. -/
inductive Pieces {α : Type} (last : α) : List (List α) → Prop
  | nothing : Pieces last []
  | unended {piece : List α} (hne : piece ≠ []) (h : last ∉ piece) : Pieces last [piece]
  | ended {body : List α} {more : List (List α)} (h : last ∉ body) (hm : Pieces last more) :
      Pieces last ((body ++ [last]) :: more)

/-- Pieces with something in front of the first one. -/
def extendFirst {α : Type} (front : List α) : List (List α) → List (List α)
  | [] => [front]
  | piece :: pieces => (front ++ piece) :: pieces

variable {α β : Type}

theorem Pieces.extendFirst {last a : α} {pieces : List (List α)} (ha : last ≠ a)
    (h : Pieces last pieces) : Pieces last (extendFirst [a] pieces) := by
  cases h with
  | nothing =>
    apply Pieces.unended (List.cons_ne_nil _ _)
    simpa using ha
  | unended hne h =>
    apply Pieces.unended (List.cons_ne_nil _ _)
    simp [ha, h]
  | @ended body more h hm =>
    have hbody : last ∉ a :: body := by simp [ha, h]
    exact .ended hbody hm

variable [DecidableEq α] [DecidableEq β]

theorem cutAfter_cons_of_ne {last a : α} (h : a ≠ last) (rest : List α) :
    cutAfter last (a :: rest) = extendFirst [a] (cutAfter last rest) := by
  rw [cutAfter, if_neg h]
  cases cutAfter last rest <;> rfl

theorem pieces_cutAfter (last : α) (text : List α) : Pieces last (cutAfter last text) := by
  induction text with
  | nil => exact .nothing
  | cons a rest ih =>
    by_cases ha : a = last
    · subst ha
      rw [cutAfter, if_pos rfl]
      exact .ended List.not_mem_nil ih
    · rw [cutAfter_cons_of_ne ha]
      exact ih.extendFirst (Ne.symm ha)

/-! ## Pieces of an encoded text -/

/-- What has no separator in it is the beginning of the piece that comes next. -/
theorem cutAfter_append_of_not_mem {last : α} {front : List α} (hne : front ≠ [])
    (h : last ∉ front) (rest : List α) :
    cutAfter last (front ++ rest) = extendFirst front (cutAfter last rest) := by
  induction front with
  | nil => exact absurd rfl hne
  | cons a front ih =>
    obtain ⟨ha, hfront⟩ := not_or.1 (mt List.mem_cons.2 h)
    rw [List.cons_append, cutAfter_cons_of_ne (Ne.symm ha)]
    cases front with
    | nil => rfl
    | cons b front =>
      rw [ih (List.cons_ne_nil _ _) hfront]
      cases cutAfter last rest <;> rfl

/-- Encoding the characters of a text does not change where it is cut. -/
theorem cutAfter_flatMap {last : α} {code : α → List β} {byte : β} (hlast : code last = [byte])
    (hne : ∀ a, code a ≠ []) (hother : ∀ a, byte ∈ code a → a = last) (text : List α) :
    cutAfter byte (text.flatMap code) = (cutAfter last text).map (·.flatMap code) := by
  induction text with
  | nil => rfl
  | cons a rest ih =>
    rw [List.flatMap_cons]
    by_cases ha : a = last
    · subst ha
      rw [hlast, List.singleton_append, cutAfter, if_pos rfl, ih, cutAfter, if_pos rfl]
      simp [hlast]
    · have hcode : byte ∉ code a := fun h => ha (hother a h)
      rw [cutAfter_append_of_not_mem (hne a) hcode, ih, cutAfter_cons_of_ne ha]
      cases cutAfter last rest <;> simp [extendFirst]

/-! ## UTF-8 -/

/-- The byte of a line feed is in no other character: what is not a character by itself has bytes
from 128 on. -/
theorem eq_lineFeed_of_mem_utf8EncodeChar {c : Char} (h : 10 ∈ String.utf8EncodeChar c) :
    c = '\n' := by
  have hbyte : ∀ n : Nat, n < 256 → 10 = UInt8.ofNat n → n = 10 := by
    intro n hlt he
    have hn := congrArg UInt8.toNat he
    rw [UInt8.toNat_ofNat', Nat.mod_eq_of_lt hlt] at hn
    exact hn.symm
  have hmax : c.val.toNat ≤ 0x10ffff := by
    have hvalid := c.valid
    simp only [UInt32.isValidChar, Nat.isValidChar] at hvalid
    omega
  have hgreat : ∀ n : Nat, 128 ≤ n → n < 256 → 10 ≠ UInt8.ofNat n := by
    intro n hle hlt he
    have hn := hbyte n hlt he
    omega
  have hnat : c.val.toNat = 10 := by
    unfold String.utf8EncodeChar at h
    dsimp only at h
    split at h
    · exact hbyte _ (by omega) (List.mem_singleton.1 h)
    · exfalso
      split at h
      · simp only [List.mem_cons, List.not_mem_nil, or_false] at h
        rcases h with h | h <;> exact hgreat _ (by omega) (by omega) h
      split at h
      · simp only [List.mem_cons, List.not_mem_nil, or_false] at h
        rcases h with h | h | h <;> exact hgreat _ (by omega) (by omega) h
      · simp only [List.mem_cons, List.not_mem_nil, or_false] at h
        rcases h with h | h | h | h <;> exact hgreat _ (by omega) (by omega) h
  exact Char.ext (UInt32.toNat_inj.1 hnat)

theorem toList_toByteArray (bytes : List UInt8) : bytes.toByteArray.toList = bytes := by
  rw [ByteArray.toList, toList_loop, List.data_toByteArray]
  simp

theorem toList_toUTF8 (text : String) :
    text.toUTF8.toList = text.toList.flatMap String.utf8EncodeChar := by
  rw [String.toUTF8_eq_toByteArray, ← String.utf8Encode_toList]
  exact toList_toByteArray _

/-- Lines that are texts are all read. -/
theorem ofByteLines_encoded (lines : List (List Char)) :
    ofByteLines (lines.map (·.flatMap String.utf8EncodeChar)) = { lines := lines } := by
  induction lines with
  | nil => rfl
  | cons line lines ih =>
    have hline : String.fromUTF8? (line.flatMap String.utf8EncodeChar).toByteArray =
        some (String.ofList line) := Store.fromUTF8?_toUTF8 (String.ofList line)
    rw [List.map_cons, ofByteLines, hline]
    simp only [ih, String.toList_ofList]

/-- The input in the bytes of a text is the text's input. -/
theorem ofBytes_toUTF8 (text : String) : ofBytes text.toUTF8 = ofText text.toList := by
  have hcut := cutAfter_flatMap (by decide) (fun _ => String.utf8EncodeChar_ne_nil)
    (fun _ => eq_lineFeed_of_mem_utf8EncodeChar) text.toList
  rw [ofBytes, toList_toUTF8, hcut, ofByteLines_encoded, ofText]

end ReplayShell.Input
