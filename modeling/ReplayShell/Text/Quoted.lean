import ReplayShell.Text.Printable

/-!
# Quoted text

A text is shown between double quotes with escapes for what would not show.

* `escapeChar` writes one character: five short escapes, itself when printable, else its code
  point in hexadecimal.
* `quote` writes a whole text.
-/
namespace ReplayShell.Text

/-- The shown form of one character inside quotes. -/
def escapeChar (c : Char) : List Char :=
  if c = '\x00' then ['\\', '0']
  else if c = '\t' then ['\\', 't']
  else if c = '\r' then ['\\', 'r']
  else if c = '\n' then ['\\', 'n']
  else if c = '\\' ∨ c = '"' then ['\\', c]
  else if isPrintable c then [c]
  else ['\\', 'u', '{'] ++ Nat.toDigits 16 c.toNat ++ ['}']

/-- The text between double quotes, escaped. -/
def quote (text : String) : String :=
  String.ofList ('"' :: text.toList.flatMap escapeChar ++ ['"'])

end ReplayShell.Text
