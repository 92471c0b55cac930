import ReplayShell.Text.Letter
import ReplayShell.Toml.Basic

/-!
# Keys and simple values of TOML

Readers take the text from a point on, and give what they have read with the rest, or nothing if the
text does not fit. A wrong character after a value is found by whoever reads on.

* `string` reads a string in double or in single quotes, on one line or over several.
* `key` reads keys with dots between them.
* `number` reads an integer, a float, a date or a time.
-/
namespace ReplayShell.Toml

/-- Reads from the front of a text. -/
abbrev Reader (α : Type) := List Char → Option (α × List Char)

/-- A blank within a line. -/
def isSpace (c : Char) : Bool := c == ' ' || c == '\t'

/-- The text without the blanks at its front. -/
def skipSpace (text : List Char) : List Char := text.dropWhile isSpace

/-- Whether a character may stand in a comment. -/
def isPlain (c : Char) : Bool := c == '\t' || (' ' ≤ c && c ≤ '~') || 128 ≤ c.toNat

/-- Passes over blanks and a comment up to the end of the line, and over the line end. -/
def endLine (text : List Char) : Option (List Char) :=
  let rest := skipSpace text
  let rest := if rest.head? = some '#' then rest.dropWhile isPlain else rest
  match rest with
  | [] => some []
  | '\n' :: rest => some rest
  | '\r' :: '\n' :: rest => some rest
  | _ => none

/-! ## Strings -/

/-- The value of a hexadecimal digit. -/
def hexDigit? (c : Char) : Option Nat :=
  if Text.isDigit c then some (c.toNat - '0'.toNat)
  else if 'a' ≤ c && c ≤ 'f' then some (c.toNat - 'a'.toNat + 10)
  else if 'A' ≤ c && c ≤ 'F' then some (c.toNat - 'A'.toNat + 10)
  else none

/-- The character with a code point in hexadecimal. -/
def hexCharacter? (digits : List Char) : Option Char :=
  match digits.mapM hexDigit? with
  | none => none
  | some values =>
    let code := values.foldl (fun code digit => 16 * code + digit) 0
    if code.isValidChar then some (Char.ofNat code) else none

/-- The character that a letter after a backslash stands for. -/
def escaped? (c : Char) : Option Char :=
  match c with
  | 'b' => some '\x08'
  | 't' => some '\t'
  | 'n' => some '\n'
  | 'f' => some '\x0c'
  | 'r' => some '\r'
  | '"' => some '"'
  | '\\' => some '\\'
  | _ => none

/-- A character put before what is read after it. -/
def before (c : Option Char) (read : Option (List Char × List Char)) :
    Option (List Char × List Char) :=
  match c, read with
  | some c, some (text, rest) => some (c :: text, rest)
  | _, _ => none

/-- The rest of a string in double quotes. -/
def basicBody : Reader (List Char)
  | '"' :: rest => some ([], rest)
  | '\\' :: 'u' :: a :: b :: c :: d :: rest =>
    before (hexCharacter? [a, b, c, d]) (basicBody rest)
  | '\\' :: 'U' :: a :: b :: c :: d :: e :: f :: g :: h :: rest =>
    before (hexCharacter? [a, b, c, d, e, f, g, h]) (basicBody rest)
  | '\\' :: c :: rest => before (escaped? c) (basicBody rest)
  | c :: rest => if isPlain c && c != '\\' then before (some c) (basicBody rest) else none
  | [] => none

/-- The rest of a string in single quotes. -/
def literalBody : Reader (List Char)
  | '\'' :: rest => some ([], rest)
  | c :: rest => if isPlain c then before (some c) (literalBody rest) else none
  | [] => none

/-- Whether only blanks stand before the end of the line. -/
def atLineEnd (text : List Char) : Bool :=
  match skipSpace text with
  | '\n' :: _ => true
  | '\r' :: '\n' :: _ => true
  | _ => false

/-- The rest of a string in three double quotes. One or two quotes may stand anywhere in it, also
before the closing three. `joining` is set after a backslash at the end of a line: white space up to
the next character does not count. -/
def longBasicBody (joining : Bool) : Reader (List Char)
  | '"' :: '"' :: '"' :: '"' :: '"' :: rest => some (['"', '"'], rest)
  | '"' :: '"' :: '"' :: '"' :: rest => some (['"'], rest)
  | '"' :: '"' :: '"' :: rest => some ([], rest)
  | '\\' :: 'u' :: a :: b :: c :: d :: rest =>
    before (hexCharacter? [a, b, c, d]) (longBasicBody false rest)
  | '\\' :: 'U' :: a :: b :: c :: d :: e :: f :: g :: h :: rest =>
    before (hexCharacter? [a, b, c, d, e, f, g, h]) (longBasicBody false rest)
  | '\\' :: c :: rest =>
    if atLineEnd (c :: rest) then longBasicBody true (c :: rest)
    else before (escaped? c) (longBasicBody false rest)
  | '\r' :: '\n' :: rest =>
    if joining then longBasicBody true rest else before (some '\n') (longBasicBody false rest)
  | '\n' :: rest =>
    if joining then longBasicBody true rest else before (some '\n') (longBasicBody false rest)
  | c :: rest =>
    if joining && isSpace c then longBasicBody true rest
    else if isPlain c && c != '\\' then before (some c) (longBasicBody false rest)
    else none
  | [] => none

/-- The rest of a string in three single quotes. -/
def longLiteralBody : Reader (List Char)
  | '\'' :: '\'' :: '\'' :: '\'' :: '\'' :: rest => some (['\'', '\''], rest)
  | '\'' :: '\'' :: '\'' :: '\'' :: rest => some (['\''], rest)
  | '\'' :: '\'' :: '\'' :: rest => some ([], rest)
  | '\r' :: '\n' :: rest => before (some '\n') (longLiteralBody rest)
  | '\n' :: rest => before (some '\n') (longLiteralBody rest)
  | c :: rest => if isPlain c then before (some c) (longLiteralBody rest) else none
  | [] => none

/-- The text without a line end at its front. -/
def skipNewline : List Char → List Char
  | '\n' :: rest => rest
  | '\r' :: '\n' :: rest => rest
  | rest => rest

/-- A string of any form. -/
def string (text : List Char) : Option (String × List Char) :=
  let read := match text with
    | '"' :: '"' :: '"' :: rest => longBasicBody false (skipNewline rest)
    | '"' :: rest => basicBody rest
    | '\'' :: '\'' :: '\'' :: rest => longLiteralBody (skipNewline rest)
    | '\'' :: rest => literalBody rest
    | _ => none
  read.map fun (body, rest) => (String.ofList body, rest)

/-! ## Keys -/

/-- A character of a key without quotes. -/
def isBare (c : Char) : Bool :=
  Text.isDigit c || ('a' ≤ c && c ≤ 'z') || ('A' ≤ c && c ≤ 'Z') || c == '_' || c == '-'

/-- One key. -/
def simpleKey (text : List Char) : Option (String × List Char) :=
  match text with
  | '"' :: rest => (basicBody rest).map fun (body, rest) => (String.ofList body, rest)
  | '\'' :: rest => (literalBody rest).map fun (body, rest) => (String.ofList body, rest)
  | _ =>
    let name := text.takeWhile isBare
    if name.isEmpty then none else some (String.ofList name, text.dropWhile isBare)

/-- The deepest nesting: of keys with dots between them, and of arrays and inline tables. -/
def maxDepth : Nat := 80

/-- Keys with dots and blanks between them, after the keys already read in reverse. -/
def keysFrom (read : List String) (text : List Char) : Option (List String × List Char) :=
  match simpleKey (skipSpace text) with
  | none => none
  | some (name, rest) =>
    match skipSpace rest with
    | '.' :: after =>
      if _h : after.length < text.length then keysFrom (name :: read) after else none
    | after => some (name :: read, after)
termination_by text.length

/-- A key with dots: the keys before the last dot, and the last one. -/
def key (text : List Char) : Option ((KeyPath × String) × List Char) :=
  match keysFrom [] text with
  | some (last :: earlier, rest) =>
    if (last :: earlier).length < maxDepth then some ((earlier.reverse, last), rest) else none
  | _ => none

/-! ## Numbers, dates and times -/

/-- Digits with single underscores between them, given the test for a digit. -/
def digitsFrom (isDigit : Char → Bool) : List Char → List Char × List Char
  | '_' :: c :: rest =>
    if isDigit c then
      let (digits, after) := digitsFrom isDigit rest
      (c :: digits, after)
    else ([], '_' :: c :: rest)
  | c :: rest =>
    if isDigit c then
      let (digits, after) := digitsFrom isDigit rest
      (c :: digits, after)
    else ([], c :: rest)
  | [] => ([], [])

/-- At least one digit, then more with single underscores between them. -/
def digits (isDigit : Char → Bool) : Reader (List Char)
  | c :: rest =>
    if isDigit c then
      let (more, after) := digitsFrom isDigit rest
      some (c :: more, after)
    else none
  | [] => none

/-- A sign, if there is one. -/
def sign : List Char → List Char × List Char
  | '+' :: rest => (['+'], rest)
  | '-' :: rest => (['-'], rest)
  | rest => ([], rest)

/-- An integer in decimal: no zero stands before other digits. -/
def decimal (text : List Char) : Option ((List Char × List Char) × List Char) :=
  let (sign, rest) := sign text
  match rest with
  | '0' :: rest => some ((sign, ['0']), rest)
  | rest => (digits Text.isDigit rest).map fun (digits, after) => ((sign, digits), after)

/-- The number that digits denote in a base. -/
def digitValue (base : Nat) (digits : List Char) : Nat :=
  digits.foldl (fun value digit => base * value + (hexDigit? digit).getD 0) 0

/-- Whether the number is a signed one of 64 bits. -/
def fits (value : Int) : Bool := -9223372036854775808 ≤ value && value ≤ 9223372036854775807

/-- An integer of 64 bits as a value. -/
def integerValue (value : Int) (rest : List Char) : Option (Value × List Char) :=
  if fits value then some (.integer value, rest) else none

/-- An integer in decimal, or after a letter in base 16, 8 or 2. -/
def integer (text : List Char) : Option (Value × List Char) :=
  let based (base : Nat) (isDigit : Char → Bool) (rest : List Char) :=
    (digits isDigit rest).bind fun (digits, after) => integerValue (digitValue base digits) after
  match text with
  | '0' :: 'x' :: rest => based 16 (fun c => (hexDigit? c).isSome) rest
  | '0' :: 'o' :: rest => based 8 (fun c => '0' ≤ c && c ≤ '7') rest
  | '0' :: 'b' :: rest => based 2 (fun c => c == '0' || c == '1') rest
  | _ =>
    (decimal text).bind fun ((sign, digits), after) =>
      let value : Int := digitValue 10 digits
      integerValue (if sign = ['-'] then -value else value) after

/-- Whether `digits · 10 ^ exponent` is too large for a double: it is nearer to `2 ^ 1024` than to
the greatest double, or as near. -/
def tooLarge (digits : List Char) (exponent : Int) : Bool :=
  let significant := digits.dropWhile (· == '0')
  let size := (significant.length : Int) + exponent
  if significant.isEmpty || size < 300 then false
  else if 400 < size then true
  else
    let limit := Nat.pow 2 1024 - Nat.pow 2 970
    let value := digitValue 10 significant
    if 0 ≤ exponent then limit ≤ value * Nat.pow 10 exponent.toNat
    else limit * Nat.pow 10 (-exponent).toNat ≤ value

/-- The fraction of a float, if there is one. -/
def fraction (text : List Char) : Option (List Char) × List Char :=
  match text with
  | '.' :: rest =>
    match digits Text.isDigit rest with
    | some (digits, after) => (some digits, after)
    | none => (none, text)
  | _ => (none, text)

/-- The exponent of a float, if there is one. -/
def exponent (text : List Char) : Option (List Char × List Char) × List Char :=
  match text with
  | c :: rest =>
    if c == 'e' || c == 'E' then
      let (sign, rest) := sign rest
      match digits Text.isDigit rest with
      | some (digits, after) => (some (sign, digits), after)
      | none => (none, text)
    else (none, text)
  | [] => (none, text)

/-- A float with a fraction, an exponent or both; not one that is too large and positive. -/
def plainFloat (text : List Char) : Option (Value × List Char) :=
  (decimal text).bind fun ((sign, whole), rest) =>
    let (fractionDigits, rest) := fraction rest
    let (power, rest) := exponent rest
    if fractionDigits.isNone && power.isNone then none
    else
      let places := fractionDigits.getD []
      let (powerSign, powerDigits) := power.getD ([], [])
      let magnitude : Int := digitValue 10 powerDigits
      let shift : Int := (if powerSign = ['-'] then -magnitude else magnitude) - places.length
      if sign ≠ ['-'] && tooLarge (whole ++ places) shift then none
      else
        let mark := if power.isSome then ['e'] else []
        let point := if fractionDigits.isSome then ['.'] else []
        some (.float (String.ofList
          (sign ++ whole ++ point ++ places ++ mark ++ powerSign ++ powerDigits)), rest)

/-- A float, infinity or not a number. -/
def float (text : List Char) : Option (Value × List Char) :=
  match plainFloat text with
  | some read => some read
  | none =>
    let (sign, rest) := sign text
    match rest with
    | 'i' :: 'n' :: 'f' :: rest => some (.float (String.ofList (sign ++ ['i', 'n', 'f'])), rest)
    | 'n' :: 'a' :: 'n' :: rest => some (.float (String.ofList (sign ++ ['n', 'a', 'n'])), rest)
    | _ => none

/-- Two digits with a value in a range. -/
def twoDigits (low high : Nat) : Reader Nat
  | a :: b :: rest =>
    if Text.isDigit a && Text.isDigit b then
      let value := digitValue 10 [a, b]
      if low ≤ value && value ≤ high then some (value, rest) else none
    else none
  | _ => none

/-- The given character. -/
def exactly (c : Char) : List Char → Option (List Char)
  | d :: rest => if d = c then some rest else none
  | [] => none

/-- The days of a month. -/
def daysOf (year month : Nat) : Nat :=
  if month = 2 then
    if year % 4 = 0 ∧ (year % 100 ≠ 0 ∨ year % 400 = 0) then 29 else 28
  else if month = 4 ∨ month = 6 ∨ month = 9 ∨ month = 11 then 30
  else 31

/-- A date; the rest after it. -/
def date (text : List Char) : Option (List Char) := do
  let (century, rest) ← twoDigits 0 99 text
  let (year, rest) ← twoDigits 0 99 rest
  let rest ← exactly '-' rest
  let (month, rest) ← twoDigits 1 12 rest
  let rest ← exactly '-' rest
  let (_, rest) ← twoDigits 1 (daysOf (100 * century + year) month) rest
  return rest

/-- A time with seconds, and perhaps a fraction of them; the rest after it. -/
def time (text : List Char) : Option (List Char) := do
  let (_, rest) ← twoDigits 0 23 text
  let rest ← exactly ':' rest
  let (_, rest) ← twoDigits 0 59 rest
  let rest ← exactly ':' rest
  let (_, rest) ← twoDigits 0 60 rest
  match rest with
  | '.' :: after =>
    let fraction := after.takeWhile Text.isDigit
    if fraction.isEmpty then none else some (after.dropWhile Text.isDigit)
  | _ => some rest

/-- A distance from universal time, if there is one; the rest after it. -/
def offset (text : List Char) : Option (List Char) :=
  match text with
  | 'Z' :: rest => some rest
  | 'z' :: rest => some rest
  | c :: rest =>
    if c == '+' || c == '-' then do
      let (_, rest) ← twoDigits 0 23 rest
      let rest ← exactly ':' rest
      let (_, rest) ← twoDigits 0 59 rest
      return rest
    else some text
  | [] => some []

/-- The time after a date, with what separates them; the rest after it. -/
def timeOfDay (text : List Char) : Option (List Char) :=
  match text with
  | c :: rest => if c == 'T' || c == 't' || c == ' ' then time rest else none
  | [] => none

/-- A date, a time or both; the rest after it. -/
def dateTimeEnd (text : List Char) : Option (List Char) :=
  match date text with
  | some rest =>
    match timeOfDay rest with
    | some rest => offset rest
    | none => some rest
  | none => time text

/-- An integer, a float, a date or a time. -/
def number (text : List Char) : Option (Value × List Char) :=
  match dateTimeEnd text with
  | some rest =>
    some (.dateTime (String.ofList (text.take (text.length - rest.length))), rest)
  | none =>
    match float text with
    | some read => some read
    | none => integer text

end ReplayShell.Toml
