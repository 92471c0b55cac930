/-!
# Tables of code point ranges

A Unicode property is kept as a list of inclusive ranges of code points.

* `Ranges.covers` says whether a character lies in one of the ranges.
* `Ranges.covers_iff` reads the answer back as membership in a range of the table.
-/
namespace ReplayShell.Text

/-- Inclusive ranges of code points. -/
abbrev Ranges := List (Nat × Nat)

/-- Whether the character lies in one of the ranges. -/
def Ranges.covers (table : Ranges) (c : Char) : Bool :=
  table.any fun range => range.1 ≤ c.toNat && c.toNat ≤ range.2

theorem Ranges.covers_iff {table : Ranges} {c : Char} :
    table.covers c = true ↔ ∃ range ∈ table, range.1 ≤ c.toNat ∧ c.toNat ≤ range.2 := by
  simp [Ranges.covers]

end ReplayShell.Text
