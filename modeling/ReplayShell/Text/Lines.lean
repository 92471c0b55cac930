/-!
# Lines

* `cut` takes a text apart at every occurrence of a separator, so a text with `n` of them has
  `n + 1` pieces; `intercalate_cut` puts it together again.
* `splitLines` cuts at line feeds. A carriage return before a line feed belongs to the line end, and
  `dropReturn` removes it. `dropReturn_cases`: it removes exactly one, and from no other line.
* `indentedLine` writes a line.
-/
namespace ReplayShell.Text

/-- The pieces of the text between the separators. -/
def cut (separator : Char) : List Char → List (List Char)
  | [] => [[]]
  | c :: rest =>
    if c = separator then [] :: cut separator rest
    else match cut separator rest with
      | [] => [[c]]
      | piece :: pieces => (c :: piece) :: pieces

/-- The lines of the text. -/
def splitLines (text : List Char) : List (List Char) := cut '\n' text

/-- A line of its own, that far from the margin. -/
def indentedLine (indent : Nat) (text : String) : String :=
  String.ofList (List.replicate indent ' ') ++ text ++ "\n"

/-- The line without one carriage return at its end. -/
def dropReturn (line : List Char) : List Char :=
  if line.getLast? = some '\r' then line.dropLast else line

theorem dropReturn_return (front : List Char) : dropReturn (front ++ ['\r']) = front := by
  rw [dropReturn, if_pos List.getLast?_concat, List.dropLast_concat]

theorem dropReturn_of_ne {line : List Char} (h : line.getLast? ≠ some '\r') :
    dropReturn line = line :=
  if_neg h

/-- A line that ends in a carriage return loses that one, even if another one stands before it, and
any other line loses nothing. -/
theorem dropReturn_cases (line : List Char) :
    (∃ front, line = front ++ ['\r'] ∧ dropReturn line = front) ∨
      line.getLast? ≠ some '\r' ∧ dropReturn line = line := by
  by_cases h : line.getLast? = some '\r'
  · obtain ⟨front, rfl⟩ := List.getLast?_eq_some_iff.1 h
    exact .inl ⟨front, rfl, dropReturn_return front⟩
  · exact .inr ⟨h, dropReturn_of_ne h⟩

theorem dropReturn_eq_nil_iff {line : List Char} :
    dropReturn line = [] ↔ line = [] ∨ line = ['\r'] := by
  constructor
  · intro h
    rcases dropReturn_cases line with ⟨front, rfl, hfront⟩ | ⟨-, hline⟩
    · rw [← hfront, h]
      exact .inr rfl
    · exact .inl (hline.symm.trans h)
  · rintro (rfl | rfl) <;> rfl

theorem cut_ne_nil (separator : Char) (text : List Char) : cut separator text ≠ [] := by
  cases text with
  | nil => simp [cut]
  | cons c rest =>
    unfold cut
    split
    · simp
    · split <;> simp

theorem intercalate_cut (separator : Char) (text : List Char) :
    [separator].intercalate (cut separator text) = text := by
  induction text with
  | nil => rfl
  | cons c rest ih =>
    unfold cut
    split
    · rename_i h
      subst h
      cases hl : cut c rest with
      | nil => exact absurd hl (cut_ne_nil c rest)
      | cons piece pieces => rw [List.intercalate_cons_cons, ← hl, ih]; rfl
    · cases hl : cut separator rest with
      | nil => exact absurd hl (cut_ne_nil separator rest)
      | cons piece pieces =>
        rw [hl] at ih
        cases pieces with
        | nil => simpa using ih
        | cons piece' pieces => simpa using ih

end ReplayShell.Text
