import Mathlib.Order.Bounds.Basic
import ReplayShell.Text.Bytes

/-!
# Boundaries between characters

* `IsBoundary` says that no character goes on over an offset.
* `boundaryFrom` rounds an offset up; `isLeast_boundaryFrom`: to the least boundary that is not
  before it, or to the end of the text.
* `slice?` takes the bytes between two offsets and refuses to cut a character; `slice?_append`: at
  the ends of a part of the text it gives the part.
-/
namespace ReplayShell.Text

/-- The offset lies between two characters, or at an end of the text. -/
def IsBoundary (text : List Char) (offset : Nat) : Prop :=
  ∃ before after, text = before ++ after ∧ byteSize before = offset

/-- The offset rounded up to a boundary of the text. -/
def boundaryFrom (text : List Char) (offset : Nat) : Nat := byteSize (splitCeil offset text).1

/-- The bytes from one offset up to another, if that cuts no character. -/
def slice? (text : List Char) (start stop : Nat) : Option (List Char) := do
  let (_, rest) ← splitExact? start text
  if start ≤ stop then
    let (between, _) ← splitExact? (stop - start) rest
    some between
  else none

/-! ## Cuts -/

theorem splitFloor_byteSize (text rest : List Char) :
    splitFloor (byteSize text) (text ++ rest) = (text, (splitFloor 0 rest).2) := by
  induction text with
  | nil =>
    cases rest with
    | nil => rfl
    | cons c rest =>
      have hc : ¬c.utf8Size ≤ 0 := Nat.not_le.2 c.utf8Size_pos
      simp [byteSize, splitFloor, hc]
  | cons c text ih =>
    rw [List.cons_append, splitFloor, byteSize, if_pos (Nat.le_add_right _ _),
      Nat.add_sub_cancel_left, ih]

theorem splitExact?_byteSize (text rest : List Char) :
    splitExact? (byteSize text) (text ++ rest) = some (text, rest) := by
  have hparts := splitFloor_append (byteSize text) (text ++ rest)
  have hfront : (splitFloor (byteSize text) (text ++ rest)).1 = text := by
    rw [splitFloor_byteSize]
  rw [hfront, List.append_cancel_left_eq] at hparts
  rw [splitExact?, if_pos (by rw [hfront])]
  exact congrArg some (Prod.ext hfront hparts)

/-- A part of a text is cut out at its ends. -/
theorem slice?_append (before between after : List Char) :
    slice? (before ++ (between ++ after)) (byteSize before)
      (byteSize before + byteSize between) = some between := by
  simp [slice?, splitExact?_byteSize]

/-! ## Rounding up -/

variable (text : List Char) (offset : Nat)

theorem isBoundary_boundaryFrom : IsBoundary text (boundaryFrom text offset) :=
  ⟨_, _, (splitCeil_append offset text).symm, rfl⟩

theorem le_boundaryFrom : min offset (byteSize text) ≤ boundaryFrom text offset := by
  unfold boundaryFrom
  induction text generalizing offset with
  | nil => exact Nat.min_le_right _ _
  | cons c rest ih =>
    unfold splitCeil
    split
    · omega
    · have := ih (offset - c.utf8Size)
      simp only [byteSize]
      omega

variable {text offset}

theorem boundaryFrom_le {boundary : Nat} (hb : IsBoundary text boundary)
    (hle : min offset (byteSize text) ≤ boundary) : boundaryFrom text offset ≤ boundary := by
  obtain ⟨before, after, rfl, rfl⟩ := hb
  unfold boundaryFrom
  induction before generalizing offset with
  | nil =>
    cases after with
    | nil => exact Nat.le_refl 0
    | cons c rest =>
      have hc := c.utf8Size_pos
      simp only [List.nil_append, byteSize] at hle ⊢
      rw [splitCeil, if_pos (by omega)]
      exact Nat.le_refl 0
  | cons c before ih =>
    rw [List.cons_append, splitCeil]
    split
    · exact Nat.zero_le _
    · simp only [List.cons_append, byteSize] at hle ⊢
      have := @ih (offset - c.utf8Size) (by omega)
      omega

/-- The offset is rounded up to the least boundary that is not before it. -/
theorem isLeast_boundaryFrom (text : List Char) (offset : Nat) :
    IsLeast {boundary | IsBoundary text boundary ∧ min offset (byteSize text) ≤ boundary}
      (boundaryFrom text offset) :=
  ⟨⟨isBoundary_boundaryFrom text offset, le_boundaryFrom text offset⟩,
    fun _ h => boundaryFrom_le h.1 h.2⟩

theorem boundaryFrom_mono {other : Nat} (h : offset ≤ other) :
    boundaryFrom text offset ≤ boundaryFrom text other :=
  boundaryFrom_le (isBoundary_boundaryFrom text other) (by
    have := le_boundaryFrom text other
    omega)

theorem boundaryFrom_append {before : List Char} (after : List Char) {offset : Nat}
    (h : byteSize before < offset) : boundaryFrom (before ++ after) offset =
      byteSize before + byteSize (splitCeil (offset - byteSize before) after).1 := by
  unfold boundaryFrom
  induction before generalizing offset with
  | nil => simp [byteSize]
  | cons c before ih =>
    simp only [byteSize] at h ⊢
    rw [List.cons_append, splitCeil, if_neg (by omega)]
    simp only [byteSize]
    rw [ih (by omega), ← Nat.sub_sub, Nat.add_assoc]

/-- Behind a boundary an offset is rounded up as from the start, unless it lies before it. -/
theorem add_byteSize_splitCeil (before after : List Char) (offset : Nat) :
    byteSize before + byteSize (splitCeil (offset - byteSize before) after).1 =
      max (byteSize before) (boundaryFrom (before ++ after) offset) := by
  by_cases hle : offset ≤ byteSize before
  · have hnone : (splitCeil 0 after).1 = [] := by cases after <;> rfl
    have hb : boundaryFrom (before ++ after) offset ≤ byteSize before :=
      boundaryFrom_le ⟨before, after, rfl, rfl⟩ ((Nat.min_le_left _ _).trans hle)
    rw [Nat.sub_eq_zero_of_le hle, hnone, Nat.max_eq_left hb]
    rfl
  · rw [boundaryFrom_append after (Nat.lt_of_not_le hle)]
    omega

end ReplayShell.Text
