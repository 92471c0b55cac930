import Mathlib.Data.Nat.Digits.Defs
import ReplayShell.Proofs.Places
import ReplayShell.Store

/-!
# The names of records

A record is found again under its number: `sequenceOf?_recordName`. The name under which it is first
written is no record's (`sequenceOf?_temporary`), and all of them are names of single entries
(`isName_of_sequenceOf?`, `isName_recordName`, `isName_temporary`), none of them too long
(`byteSize_temporaryName_le`).
-/
namespace ReplayShell.Store

/-- The name under which a record is first written. -/
abbrev temporaryName (sequence : Nat) : String := recordName sequence ++ ".tmp"

/-- The digits of a number, at least four of them. -/
def paddedDigits (sequence : Nat) : List Char :=
  List.replicate (4 - (Nat.toDigits 10 sequence).length) '0' ++ Nat.toDigits 10 sequence

theorem toList_recordName (sequence : Nat) :
    (recordName sequence).toList = namePrefix ++ paddedDigits sequence := by
  simp only [recordName, paddedDigits, String.toList_ofList, List.append_assoc,
    Nat.toString_eq_repr, Nat.toList_repr]

theorem four_le_length_paddedDigits (sequence : Nat) : 4 ≤ (paddedDigits sequence).length := by
  simp only [paddedDigits, List.length_append, List.length_replicate]
  omega

theorem isDigit_of_mem_paddedDigits {sequence : Nat} {c : Char} (h : c ∈ paddedDigits sequence) :
    Text.isDigit c = true := by
  rcases List.mem_append.1 h with h | h
  · obtain ⟨-, rfl⟩ := List.mem_replicate.1 h
    decide
  · have hd : c.isDigit = true := Nat.isDigit_of_mem_toDigits (by omega) (by omega) h
    simpa [Text.isDigit, Char.isDigit, Char.le_def] using hd

/-- Leading zeros do not count. -/
theorem value_paddedDigits (sequence : Nat) :
    (paddedDigits sequence).foldl (fun value digit => 10 * value + (digit.toNat - '0'.toNat)) 0 =
      sequence := by
  rw [← Nat.ofDigitChars_eq_foldl, paddedDigits, Nat.ofDigitChars_append,
    Nat.ofDigitChars_replicate_zero, Nat.mul_zero]
  exact Nat.ofDigitChars_toDigits (by omega) (by omega)

theorem sequenceOf?_recordName {sequence : Nat} (h : sequence ≤ maxSequence) :
    sequenceOf? (recordName sequence) = some sequence := by
  have hprefix : namePrefix.isPrefixOf (namePrefix ++ paddedDigits sequence) = true :=
    List.isPrefixOf_iff_prefix.2 (List.prefix_append _ _)
  have hdigits : (paddedDigits sequence).all Text.isDigit = true :=
    List.all_eq_true.2 fun c hc => isDigit_of_mem_paddedDigits hc
  simp only [sequenceOf?, toList_recordName, if_pos hprefix, List.drop_left]
  rw [if_pos ⟨four_le_length_paddedDigits sequence, hdigits⟩, value_paddedDigits, if_pos h]

/-- What the name of a record is made of. -/
theorem of_sequenceOf? {name : String} {sequence : Nat} (h : sequenceOf? name = some sequence) :
    ∃ digits, name.toList = namePrefix ++ digits ∧ ∀ c ∈ digits, Text.isDigit c = true := by
  unfold sequenceOf? at h
  dsimp only at h
  split at h
  · rename_i hp
    obtain ⟨digits, hd⟩ := List.isPrefixOf_iff_prefix.1 hp
    rw [← hd, List.drop_left] at h
    split at h
    · rename_i ha
      exact ⟨digits, hd.symm, List.all_eq_true.1 ha.2⟩
    · cases h
  · cases h

theorem sequenceOf?_temporary (sequence : Nat) : sequenceOf? (temporaryName sequence) = none := by
  cases h : sequenceOf? (temporaryName sequence) with
  | none => rfl
  | some other =>
    obtain ⟨digits, hd, hall⟩ := of_sequenceOf? h
    rw [String.toList_append, toList_recordName, List.append_assoc] at hd
    have hdot : '.' ∈ digits := by
      rw [← List.append_cancel_left hd]
      exact List.mem_append_right _ (by decide)
    exact absurd (hall '.' hdot) (by decide)

/-- A text that begins as the names of records do, and has no slash, names one entry. -/
theorem isName_of_toList {name : String} {rest : List Char} (h : name.toList = namePrefix ++ rest)
    (hs : '/' ∉ rest) : Path.IsName name := by
  have hne : ∀ other : String, other.toList.head? ≠ some 's' → name ≠ other := by
    rintro _ ho rfl
    exact ho (by rw [h]; rfl)
  refine ⟨hne "" (by decide), fun hm => ?_, hne "." (by decide), hne ".." (by decide)⟩
  rw [h, List.mem_append] at hm
  exact hm.elim (by decide) hs

theorem isName_of_sequenceOf? {name : String} {sequence : Nat}
    (h : sequenceOf? name = some sequence) : Path.IsName name := by
  obtain ⟨digits, hd, hall⟩ := of_sequenceOf? h
  exact isName_of_toList hd fun hs => absurd (hall _ hs) (by decide)

theorem slash_not_mem_paddedDigits (sequence : Nat) : '/' ∉ paddedDigits sequence :=
  fun hs => absurd (isDigit_of_mem_paddedDigits hs) (by decide)

theorem isName_recordName (sequence : Nat) : Path.IsName (recordName sequence) :=
  isName_of_toList (toList_recordName sequence) (slash_not_mem_paddedDigits sequence)

theorem isName_temporary (sequence : Nat) : Path.IsName (temporaryName sequence) := by
  have hl : (temporaryName sequence).toList =
      namePrefix ++ (paddedDigits sequence ++ ".tmp".toList) := by
    rw [String.toList_append, toList_recordName, List.append_assoc]
  refine isName_of_toList hl fun hs => ?_
  rcases List.mem_append.1 hs with hs | hs
  · exact slash_not_mem_paddedDigits sequence hs
  · exact absurd hs (by decide)

theorem recordName_ne_temporary {sequence : Nat} : recordName sequence ≠ temporaryName sequence := by
  intro h
  have hl := congrArg String.length h
  simp at hl

/-! ## How long the names are -/

theorem byteSize_of_digits {digits : List Char} (h : ∀ c ∈ digits, Text.isDigit c = true) :
    Text.byteSize digits = digits.length := by
  induction digits with
  | nil => rfl
  | cons c digits ih =>
    have hc := h c List.mem_cons_self
    simp only [Text.isDigit, Bool.and_eq_true, decide_eq_true_eq, Char.le_def] at hc
    have hone : c.utf8Size = 1 := if_pos (UInt32.le_trans hc.2 (by decide))
    rw [Text.byteSize, hone, ih fun d hd => h d (List.mem_cons_of_mem _ hd), List.length_cons,
      Nat.add_comm]

theorem length_paddedDigits_le {sequence : Nat} (h : sequence ≤ maxSequence) :
    (paddedDigits sequence).length ≤ 10 := by
  have hdigits : (Nat.toDigits 10 sequence).length ≤ 10 :=
    Nat.toDigits_length 10 sequence 10 (by omega) (by rw [maxSequence] at h; omega)
  simp only [paddedDigits, List.length_append, List.length_replicate]
  omega

theorem byteSize_recordName {sequence : Nat} :
    Text.byteSize (recordName sequence).toList = 10 + (paddedDigits sequence).length := by
  rw [toList_recordName, Text.byteSize_append, show Text.byteSize namePrefix = 10 by decide +kernel,
    byteSize_of_digits fun c hc => isDigit_of_mem_paddedDigits hc]

/-- No record has a longer name than the last; the temporary names are longer. -/
theorem byteSize_temporaryName_le {sequence : Nat} (h : sequence ≤ maxSequence) :
    Text.byteSize (recordName sequence).toList ≤ Text.byteSize (temporaryName sequence).toList ∧
      Text.byteSize (temporaryName sequence).toList ≤
        Text.byteSize (temporaryName maxSequence).toList ∧
      Text.byteSize (temporaryName sequence).toList ≤ FileSystem.maxNameSize := by
  have hmax : Text.byteSize (temporaryName maxSequence).toList = 24 := by decide +kernel
  have hsuffix : Text.byteSize ".tmp".toList = 4 := by decide +kernel
  have hlen := length_paddedDigits_le h
  rw [hmax, String.toList_append, Text.byteSize_append, hsuffix, byteSize_recordName,
    FileSystem.maxNameSize]
  omega

/-- The names can stand in any path. -/
theorem nul_not_mem_temporaryName (sequence : Nat) :
    '\x00' ∉ (recordName sequence).toList ∧ '\x00' ∉ (temporaryName sequence).toList := by
  have hrecord : '\x00' ∉ (recordName sequence).toList := by
    rw [toList_recordName, List.mem_append]
    rintro (hm | hm)
    · exact absurd hm (by decide)
    · exact absurd (isDigit_of_mem_paddedDigits hm) (by decide)
  refine ⟨hrecord, ?_⟩
  rw [String.toList_append, List.mem_append]
  rintro (hm | hm)
  · exact hrecord hm
  · exact absurd hm (by decide)

end ReplayShell.Store
