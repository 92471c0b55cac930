import ReplayShell.Diagnostic
import ReplayShell.Text.Blank
import ReplayShell.Text.Bytes
import ReplayShell.Text.Letter

/-!
# Tokens

A text is first cut into lexemes, which know nothing of their place, and the lexemes are then laid
out at byte offsets.

* `Lexeme.first` is the lexeme at the front of a non-empty text.
* `lexemes` cuts a whole text; `flatten_lexemes`: the lexemes put together are the text.
* `layOut` gives each lexeme its span; `tokenize` is the whole: the tokens of a text, an end-of-file
  token after them, and the diagnostics of the lexemes in order.
-/
namespace ReplayShell.Syntax

/-- A piece of a submission. A missing token is one that the grammar wants and the text lacks. -/
structure Token where
  kind : Kind
  text : String
  span : Span
  missing : Bool := false
  deriving DecidableEq, Repr

/-- The token that stands in for an absent one; it has no text. -/
def Token.absent (kind : Kind) (position : Nat) : Token := ⟨kind, "", Span.at position, true⟩

/-- A token without its place, and what is wrong with it. -/
structure Lexeme where
  kind : Kind
  text : List Char
  fault : Option Problem := none
  deriving DecidableEq, Repr

/-- The number that decimal digits denote. -/
def decimalValue (digits : List Char) : Nat :=
  digits.foldl (fun value digit => 10 * value + (digit.toNat - '0'.toNat)) 0

/-- The rest of a string literal after its opening quote, up to and including the closing one, and
whether there is one. A backslash takes the next character with it, except a line feed. -/
def stringBody : List Char → List Char × Bool
  | [] => ([], false)
  | '"' :: _ => (['"'], true)
  | '\n' :: _ => ([], false)
  | '\r' :: _ => ([], false)
  | '\\' :: [] => (['\\'], false)
  | '\\' :: '\n' :: _ => (['\\'], false)
  | '\\' :: c :: rest =>
    let (body, closed) := stringBody rest
    ('\\' :: c :: body, closed)
  | c :: rest =>
    let (body, closed) := stringBody rest
    (c :: body, closed)

namespace Lexeme

/-- A run of characters of a class, after the first one. -/
def run (c : Char) (rest : List Char) (inClass : Char → Bool) : List Char :=
  c :: rest.takeWhile inClass

/-- A number; too large a one is a fault. -/
def number (digits : List Char) : Lexeme :=
  { kind := .number, text := digits,
    fault := if (decimalValue digits : Int) ≤ maxInteger then none
      else some (.numberTooLarge (String.ofList digits)) }

/-- A reserved word or a name. -/
def word (letters : List Char) : Lexeme :=
  { kind := (Kind.keyword? (String.ofList letters)).getD .identifier, text := letters }

/-- A string literal, given what follows the opening quote. -/
def string (rest : List Char) : Lexeme :=
  let (body, closed) := stringBody rest
  { kind := .string, text := '"' :: body,
    fault := if closed then none else some .unterminatedString }

/-- Punctuation of one or two characters; any other character is bad. -/
def punctuation (c : Char) (rest : List Char) : Lexeme :=
  match c, rest.head? with
  | '=', some '=' => { kind := .equalsEquals, text := ['=', '='] }
  | '!', some '=' => { kind := .bangEquals, text := ['!', '='] }
  | '<', some '=' => { kind := .lessEquals, text := ['<', '='] }
  | '>', some '=' => { kind := .greaterEquals, text := ['>', '='] }
  | '&', some '&' => { kind := .ampersandAmpersand, text := ['&', '&'] }
  | '|', some '|' => { kind := .pipePipe, text := ['|', '|'] }
  | '+', _ => { kind := .plus, text := ['+'] }
  | '-', _ => { kind := .minus, text := ['-'] }
  | '*', _ => { kind := .star, text := ['*'] }
  | '/', _ => { kind := .slash, text := ['/'] }
  | '%', _ => { kind := .percent, text := ['%'] }
  | '!', _ => { kind := .bang, text := ['!'] }
  | '=', _ => { kind := .equals, text := ['='] }
  | '<', _ => { kind := .less, text := ['<'] }
  | '>', _ => { kind := .greater, text := ['>'] }
  | '(', _ => { kind := .openParen, text := ['('] }
  | ')', _ => { kind := .closeParen, text := [')'] }
  | '{', _ => { kind := .openBrace, text := ['{'] }
  | '}', _ => { kind := .closeBrace, text := ['}'] }
  | ',', _ => { kind := .comma, text := [','] }
  | c, _ => { kind := .bad, text := [c], fault := some (.badCharacter c) }

/-- The lexeme at the front of the text `c :: rest`. -/
def first (c : Char) (rest : List Char) : Lexeme :=
  if Text.isBlank c then { kind := .whitespace, text := run c rest Text.isBlank }
  else if Text.isDigit c then number (run c rest Text.isDigit)
  else if Text.isLetter c || c == '_' then
    word (run c rest fun d => Text.isAlphanumeric d || d == '_')
  else if c = '"' then string rest
  else if c = '/' ∧ rest.head? = some '/' then
    { kind := .comment, text := run c rest (· != '\n') }
  else punctuation c rest

/-- Where the fault of a lexeme that starts at `position` is reported: at the opening quote for a
string without its end, else at the whole lexeme. -/
def faultSpan (lexeme : Lexeme) (position : Nat) : Span :=
  if lexeme.kind = .string then ⟨position, position + 1⟩
  else ⟨position, position + Text.byteSize lexeme.text⟩

theorem stringBody_isPrefix (rest : List Char) : (stringBody rest).1 <+: rest := by
  fun_induction stringBody rest with
  | case1 => exact List.prefix_rfl
  | case2 => simp
  | case3 => exact List.nil_prefix
  | case4 => exact List.nil_prefix
  | case5 => exact List.prefix_rfl
  | case6 => simp
  | case7 => simp_all
  | case8 => simp_all

theorem first_text_isPrefix (c : Char) (rest : List Char) :
    (first c rest).text <+: c :: rest := by
  unfold first
  split
  · exact List.cons_prefix_cons.2 ⟨rfl, List.takeWhile_prefix _⟩
  split
  · exact List.cons_prefix_cons.2 ⟨rfl, List.takeWhile_prefix _⟩
  split
  · exact List.cons_prefix_cons.2 ⟨rfl, List.takeWhile_prefix _⟩
  split
  · rename_i h
    exact List.cons_prefix_cons.2 ⟨h.symm, stringBody_isPrefix rest⟩
  split
  · exact List.cons_prefix_cons.2 ⟨rfl, List.takeWhile_prefix _⟩
  · unfold punctuation
    cases rest with
    | nil => split <;> simp_all
    | cons d rest => split <;> simp_all

theorem first_text_ne_nil (c : Char) (rest : List Char) : (first c rest).text ≠ [] := by
  unfold first
  repeat' split
  all_goals first
    | exact List.cons_ne_nil _ _
    | (unfold punctuation; split <;> exact List.cons_ne_nil _ _)

end Lexeme

/-- The lexemes of a text in order. -/
def lexemes : List Char → List Lexeme
  | [] => []
  | c :: rest =>
    let lexeme := Lexeme.first c rest
    lexeme :: lexemes (rest.drop (lexeme.text.length - 1))
termination_by text => text.length
decreasing_by
  simp only [List.length_drop, List.length_cons]
  omega

theorem flatten_lexemes (text : List Char) :
    ((lexemes text).map Lexeme.text).flatten = text := by
  fun_induction lexemes text with
  | case1 => rfl
  | case2 c rest lexeme ih =>
    obtain ⟨tail, htail⟩ := Lexeme.first_text_isPrefix c rest
    have hne := Lexeme.first_text_ne_nil c rest
    change lexeme.text ++ tail = _ at htail
    change lexeme.text ≠ [] at hne
    cases hl : lexeme.text with
    | nil => exact absurd hl hne
    | cons d ds =>
      rw [hl] at htail ih
      obtain ⟨hd, hds⟩ := List.cons.inj (List.cons_append ▸ htail)
      simp only [List.map_cons, List.flatten_cons, hl, ih]
      rw [hd, ← hds]
      simp

/-- The tokens of lexemes that start at a byte offset. -/
def layOut : Nat → List Lexeme → List Token
  | _, [] => []
  | position, lexeme :: rest =>
    let stop := position + Text.byteSize lexeme.text
    { kind := lexeme.kind, text := String.ofList lexeme.text, span := ⟨position, stop⟩ } ::
      layOut stop rest

/-- The diagnostics of lexemes that start at a byte offset. -/
def faults : Nat → List Lexeme → List Diagnostic
  | _, [] => []
  | position, lexeme :: rest =>
    let later := faults (position + Text.byteSize lexeme.text) rest
    match lexeme.fault with
    | some problem => ⟨lexeme.faultSpan position, problem⟩ :: later
    | none => later

/-- A text cut into tokens. -/
structure Tokens where
  /-- The tokens of the text itself, trivia included. -/
  tokens : List Token
  /-- The token after the last one. -/
  endOfFile : Token
  diagnostics : List Diagnostic

/-- Every token, the end-of-file token included. -/
def Tokens.all (tokens : Tokens) : List Token := tokens.tokens ++ [tokens.endOfFile]

/-- The tokens that the grammar is about. -/
def Tokens.significant (tokens : Tokens) : List Token :=
  tokens.tokens.filter fun token => !token.kind.isTrivia

/-- Cuts a text into tokens. -/
def tokenize (text : String) : Tokens :=
  let pieces := lexemes text.toList
  { tokens := layOut 0 pieces
    endOfFile := { kind := .endOfFile, text := "", span := Span.at (Text.byteSize text.toList) }
    diagnostics := faults 0 pieces }

end ReplayShell.Syntax
