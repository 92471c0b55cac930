import ReplayShell.Input

/-!
# Two inputs, one after the other

An input that ends with a line end and leaves nothing pending can be followed by another: the
entries of both come one after the other.

* `cutAfter_append`, `ofByteLines_append`, `entriesFrom_append` say so for each of the stages,
  `entries_ofBytes_append` for all of them.
-/
namespace ReplayShell.Input

/-- Where every piece has its end, what follows begins a new one. -/
theorem cutAfter_append {α : Type} [DecidableEq α] {last : α} {a : List α}
    (h : ∀ c ∈ a.getLast?, c = last) (b : List α) :
    cutAfter last (a ++ b) = cutAfter last a ++ cutAfter last b := by
  induction a with
  | nil => rfl
  | cons c a ih =>
    rw [List.cons_append, cutAfter, cutAfter]
    cases a with
    | nil =>
      obtain rfl : c = last := h c rfl
      rw [if_pos rfl, if_pos rfl]
      rfl
    | cons d a =>
      rw [List.getLast?_cons_cons] at h
      rw [ih h]
      by_cases hc : c = last
      · rw [if_pos hc, if_pos hc, List.cons_append]
      · rw [if_neg hc, if_neg hc]
        cases hcut : cutAfter last (d :: a) with
        | nil =>
          have hflat := flatten_cutAfter last (d :: a)
          rw [hcut] at hflat
          cases hflat
        | cons piece pieces => rfl

theorem ofByteLines_append {a : List (List UInt8)} (h : (ofByteLines a).broken = false)
    (b : List (List UInt8)) :
    ofByteLines (a ++ b) =
      ⟨(ofByteLines a).lines ++ (ofByteLines b).lines, (ofByteLines b).broken⟩ := by
  induction a with
  | nil => rfl
  | cons bytes a ih =>
    rw [List.cons_append, ofByteLines, ofByteLines]
    rw [ofByteLines] at h
    cases hline : String.fromUTF8? bytes.toByteArray with
    | none =>
      rw [hline] at h
      cases h
    | some line =>
      rw [hline] at h
      dsimp only at h ⊢
      rw [ih h, List.cons_append]

/-- Lines that leave no part of an entry behind. -/
theorem entriesFrom_append {reader : LineReader} {pending : List Char} {a : List (List Char)}
    {text : List Char} (h : (entriesFrom reader pending a).2 = .pending text)
    (b : List (List Char)) :
    entriesFrom reader pending (a ++ b) =
      ((entriesFrom reader pending a).1 ++ (entriesFrom reader text b).1,
        (entriesFrom reader text b).2) := by
  induction a generalizing pending with
  | nil =>
    obtain rfl : pending = text := by simpa [entriesFrom] using h
    rfl
  | cons line a ih =>
    rw [List.cons_append, entriesFrom, entriesFrom]
    rw [entriesFrom] at h
    cases hp : reader isReady pending line with
    | ready entry =>
      rw [hp] at h
      dsimp only at h ⊢
      rw [ih h, List.cons_append]
    | unready remainder =>
      rw [hp] at h
      cases remainder with
      | pending more => exact ih h
      | torn => cases h

/-! ## Bytes -/

theorem toList_loop (bytes : ByteArray) (i : Nat) (before : List UInt8) :
    ByteArray.toList.loop bytes i before = before.reverse ++ bytes.data.toList.drop i := by
  fun_induction ByteArray.toList.loop bytes i before with
  | case1 i before hlt ih =>
    have hlen : i < bytes.data.toList.length := by simpa using hlt
    have hget : bytes.get! i = bytes.data.toList[i] := by
      have h : bytes.get! i = bytes.data[i]! := by cases bytes; rfl
      rw [h, getElem!_pos bytes.data i hlt, Array.getElem_toList]
    rw [ih, List.drop_eq_getElem_cons hlen, hget, List.reverse_cons, List.append_assoc]
    rfl
  | case2 i before hlt =>
    rw [List.drop_eq_nil_of_le (by simpa using Nat.le_of_not_lt hlt), List.append_nil]

theorem toList_append (a b : ByteArray) : (a ++ b).toList = a.toList ++ b.toList := by
  simp only [ByteArray.toList, toList_loop, List.reverse_nil, List.nil_append, List.drop_zero,
    ByteArray.data_append, Array.toList_append]

/-- Input after input that has come to the end of a line and of an entry. -/
theorem entries_ofBytes_append {reader : LineReader} {a : ByteArray}
    (hlast : ∀ byte ∈ a.toList.getLast?, byte = 10) (hbroken : (ofBytes a).broken = false)
    (hpending : ((ofBytes a).entries reader).2 = .pending []) (b : ByteArray) :
    (ofBytes (a ++ b)).entries reader =
        (((ofBytes a).entries reader).1 ++ ((ofBytes b).entries reader).1,
          ((ofBytes b).entries reader).2) ∧
      (ofBytes (a ++ b)).broken = (ofBytes b).broken := by
  have hboth : ofBytes (a ++ b) =
      ⟨(ofBytes a).lines ++ (ofBytes b).lines, (ofBytes b).broken⟩ := by
    rw [ofBytes, toList_append, cutAfter_append hlast, ofByteLines_append hbroken]
    rfl
  rw [hboth]
  exact ⟨entriesFrom_append hpending _, rfl⟩

end ReplayShell.Input
