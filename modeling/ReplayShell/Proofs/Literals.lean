import ReplayShell.Proofs.Printing

/-!
# Literals

Every text and every integer that is not negative can be written as a literal, and what is written
so has just that value.

* `tokenize_lexeme`: a text that is one lexeme is one token. `parse_literal`: if that token is a
  number or a string, the tree of the text is just that literal (`onlyLiteral`).
* `escapeLiteral` writes one character between the quotes; `unescape_escapeLiteral` reads it back.
* `Writes` says which digits are a decimal writing of a number, leading zeros included.
* `literals_denote` puts strings and numbers together.
-/
namespace ReplayShell.Syntax

/-! ## One lexeme, one token -/

/-- The token of a text that is one lexeme. -/
def wholeToken (kind : Kind) (text : List Char) : Token :=
  { kind := kind, text := String.ofList text, span := ⟨0, Text.byteSize text⟩ }

theorem tokenize_lexeme {c : Char} {rest : List Char}
    (h : (Lexeme.first c rest).text = c :: rest) :
    (tokenize (String.ofList (c :: rest))).tokens =
        [wholeToken (Lexeme.first c rest).kind (c :: rest)] ∧
      (tokenize (String.ofList (c :: rest))).diagnostics = faults 0 [Lexeme.first c rest] := by
  have hone : lexemes (c :: rest) = [Lexeme.first c rest] := by
    rw [lexemes_cons, h]
    simp [lexemes]
  unfold tokenize
  rw [String.toList_ofList, hone]
  constructor
  · simp [layOut, wholeToken, h]
  · rfl

/-- The tree of a text that is one literal. -/
def onlyLiteral (text : String) (token : Token) (value : Value) : Submission where
  members := [.statement (.expression (.literal token value))]
  lastToken := some token
  endOfFile := (tokenize text).endOfFile

/-- The text of one literal is an expression that is the literal. -/
theorem parse_literal {text : String} {token : Token} (ht : (tokenize text).significant = [token])
    (hk : token.kind = .number ∨ token.kind = .string) :
    parse text = (onlyLiteral text token (literalValue token), (tokenize text).diagnostics) := by
  have hwritten : Written
      (.members [.statement (.expression (.literal token (literalValue token)))]) [token] :=
    .members (.statementMember (.expression (.literal (.inr (.inr hk))))) .noMembers
  have hshallow : (Member.statement (.expression
      (.literal token (literalValue token)))).nesting ≤ maxNestingDepth := by
    simp [Member.nesting, Statement.nesting, Expression.nesting, maxNestingDepth]
  have hread := parseMembers_written hwritten
    ⟨trivial, fun _ h => (Option.not_mem_none _ h).elim, trivial⟩ (by simp)
    (List.forall_mem_singleton.2 hshallow) (tokenize text).endOfFile none
    { rest := (tokenize text).significant } ht
  unfold parse
  dsimp only
  rw [hread, State.reported_beyond]
  simp [onlyLiteral]

/-! ## Strings -/

/-- How a character is written in a string literal. -/
def escapeLiteral (c : Char) : List Char :=
  if c = '\n' then ['\\', 'n']
  else if c = '\t' then ['\\', 't']
  else if c = '\\' ∨ c = '"' ∨ c = '\r' then ['\\', c]
  else [c]

/-- The literal of a text. -/
def stringLiteral (text : String) : List Char :=
  '"' :: (text.toList.flatMap escapeLiteral ++ ['"'])

theorem escapeLiteral_cases (c : Char) :
    (c = '\n' ∧ escapeLiteral c = ['\\', 'n']) ∨ (c = '\t' ∧ escapeLiteral c = ['\\', 't']) ∨
      ((c = '\\' ∨ c = '"' ∨ c = '\r') ∧ escapeLiteral c = ['\\', c]) ∨
      ((c ≠ '"' ∧ c ≠ '\\' ∧ c ≠ '\n' ∧ c ≠ '\r') ∧ escapeLiteral c = [c]) := by
  unfold escapeLiteral
  by_cases hn : c = '\n'
  · exact .inl ⟨hn, if_pos hn⟩
  by_cases ht : c = '\t'
  · exact .inr (.inl ⟨ht, by rw [if_neg hn, if_pos ht]⟩)
  by_cases hs : c = '\\' ∨ c = '"' ∨ c = '\r'
  · exact .inr (.inr (.inl ⟨hs, by rw [if_neg hn, if_neg ht, if_pos hs]⟩))
  · have hother : c ≠ '\\' ∧ c ≠ '"' ∧ c ≠ '\r' := by simpa [not_or] using hs
    refine .inr (.inr (.inr ⟨⟨hother.2.1, hother.1, hn, hother.2.2⟩, ?_⟩))
    rw [if_neg hn, if_neg ht, if_neg hs]

/-- Nothing that is written for a text ends the literal. -/
theorem unbroken_escapeLiteral (text : List Char) : Unbroken (text.flatMap escapeLiteral) := by
  induction text with
  | nil => exact .nil
  | cons c rest ih =>
    rw [List.flatMap_cons]
    rcases escapeLiteral_cases c with ⟨-, he⟩ | ⟨-, he⟩ | ⟨hc, he⟩ | ⟨⟨hq, hb, hn, hr⟩, he⟩
    · rw [he]
      exact .escape (by decide) ih
    · rw [he]
      exact .escape (by decide) ih
    · rw [he]
      refine .escape ?_ ih
      rcases hc with rfl | rfl | rfl <;> decide
    · rw [he]
      exact .ordinary hq hb hn hr ih

/-- Resolving the escapes undoes the writing. -/
theorem unescape_escapeLiteral (text : List Char) :
    unescape (text.flatMap escapeLiteral) = text := by
  induction text with
  | nil => rfl
  | cons c rest ih =>
    have hc : unescape (escapeLiteral c ++ rest.flatMap escapeLiteral) =
        c :: unescape (rest.flatMap escapeLiteral) := by
      rcases escapeLiteral_cases c with ⟨rfl, he⟩ | ⟨rfl, he⟩ | ⟨hc, he⟩ | ⟨⟨-, hb, -, -⟩, he⟩
      · rw [he]
        rfl
      · rw [he]
        rfl
      · rw [he]
        rcases hc with rfl | rfl | rfl <;> rfl
      · rw [he, List.singleton_append, unescape]
        all_goals simp [hb]
    rw [List.flatMap_cons, hc, ih]

theorem stringValue_stringLiteral (text : String) : stringValue (stringLiteral text) = text := by
  rw [stringLiteral, stringValue]
  simp only [List.getLast?_concat, if_true, List.dropLast_concat]
  rw [unescape_escapeLiteral, String.ofList_toList]

theorem first_stringLiteral (text : String) :
    Lexeme.first '"' (text.toList.flatMap escapeLiteral ++ ['"']) =
      { kind := .string, text := stringLiteral text } := by
  have hfirst := Lexeme.first_of_string (unbroken_escapeLiteral text.toList) []
  rwa [List.append_nil] at hfirst

/-- The literal of a text is read as the text. -/
theorem parse_stringLiteral (text : String) :
    parse (String.ofList (stringLiteral text)) =
      (onlyLiteral (String.ofList (stringLiteral text)) (wholeToken .string (stringLiteral text))
        (.string text), []) := by
  have hfirst := first_stringLiteral text
  obtain ⟨htokens, hdiagnostics⟩ := tokenize_lexeme (congrArg Lexeme.text hfirst)
  rw [hfirst] at htokens hdiagnostics
  have hsignificant : (tokenize (String.ofList (stringLiteral text))).significant =
      [wholeToken .string (stringLiteral text)] := by
    rw [Tokens.significant, stringLiteral, htokens]
    rfl
  have hvalue : literalValue (wholeToken .string (stringLiteral text)) = .string text := by
    rw [literalValue, wholeToken]
    simp [stringValue_stringLiteral]
  rw [parse_literal hsignificant (.inr rfl), hvalue]
  exact congrArg _ hdiagnostics

/-! ## Numbers -/

/-- The digits are a decimal writing of the number. -/
structure Writes (digits : List Char) (n : Nat) : Prop where
  nonempty : digits ≠ []
  decimal : ∀ d ∈ digits, d.isDigit = true
  value : Nat.ofDigitChars 10 digits 0 = n

/-- Every number can be written with any number of leading zeros. -/
theorem writes_toDigits (zeros n : Nat) :
    Writes (List.replicate zeros '0' ++ Nat.toDigits 10 n) n where
  nonempty := by simp
  decimal := by
    intro d hd
    rcases List.mem_append.1 hd with hzero | hdigit
    · rw [List.eq_of_mem_replicate hzero]
      rfl
    · exact Nat.isDigit_of_mem_toDigits (by omega) (by omega) hdigit
  value := by
    rw [Nat.ofDigitChars_append, Nat.ofDigitChars_replicate_zero, Nat.mul_zero]
    exact Nat.ofDigitChars_toDigits (by omega) (by omega)

variable {digits : List Char} {n : Nat}

theorem Writes.decimalValue (h : Writes digits n) : decimalValue digits = n := by
  rw [Syntax.decimalValue, ← Nat.ofDigitChars_eq_foldl]
  exact h.value

/-- A writing of a number is one number token, whether it is too large or not. -/
theorem Writes.tokenize (h : Writes digits n) :
    (tokenize (String.ofList digits)).tokens = [wholeToken .number digits] ∧
      (tokenize (String.ofList digits)).diagnostics = faults 0 [Lexeme.number digits] := by
  obtain ⟨c, rest, rfl⟩ := List.exists_cons_of_ne_nil h.nonempty
  have hdigits : ∀ d ∈ c :: rest, Text.isDigit d = true := h.decimal
  have hfirst := Lexeme.first_of_digits hdigits (stops_nil _)
  rw [List.append_nil] at hfirst
  have hone := tokenize_lexeme (congrArg Lexeme.text hfirst)
  rwa [hfirst] at hone

theorem Writes.significant (h : Writes digits n) :
    (Syntax.tokenize (String.ofList digits)).significant = [wholeToken .number digits] := by
  rw [Tokens.significant, h.tokenize.1]
  rfl

/-- A number that is not too large is the value of its writing. -/
theorem Writes.parse (h : Writes digits n) (hn : n ≤ 9223372036854775807) :
    parse (String.ofList digits) =
      (onlyLiteral (String.ofList digits) (wholeToken .number digits) (.integer n), []) := by
  have hrange : (Syntax.decimalValue digits : Int) ≤ maxInteger := by
    rw [h.decimalValue, maxInteger]
    omega
  have hvalue : literalValue (wholeToken .number digits) = .integer n := by
    simp only [literalValue, wholeToken, String.toList_ofList]
    rw [if_pos hrange, h.decimalValue]
  have hdiagnostics : (Syntax.tokenize (String.ofList digits)).diagnostics = [] := by
    rw [h.tokenize.2, Lexeme.number, if_pos hrange]
    rfl
  rw [parse_literal h.significant (.inl rfl), hvalue, hdiagnostics]

/-- A number that is too large is reported with the tokens. -/
theorem Writes.tooLarge (h : Writes digits n) (hn : 9223372036854775807 < n) :
    (Syntax.tokenize (String.ofList digits)).diagnostics =
      [⟨⟨0, Text.byteSize digits⟩, .numberTooLarge (String.ofList digits)⟩] := by
  have hrange : ¬(Syntax.decimalValue digits : Int) ≤ maxInteger := by
    rw [h.decimalValue, maxInteger]
    omega
  rw [h.tokenize.2, Lexeme.number, if_neg hrange]
  simp [faults, Lexeme.faultSpan]

/-- **Literals denote every value.** The literal of any text is read as the text, and any decimal
writing of a number is one number token, which is read as the number, or reported if the number is
larger than 2^63 - 1. -/
theorem literals_denote :
    (∀ text : String, parse (String.ofList (stringLiteral text)) =
      (onlyLiteral (String.ofList (stringLiteral text)) (wholeToken .string (stringLiteral text))
        (.string text), [])) ∧
    ∀ digits n, Writes digits n →
      (tokenize (String.ofList digits)).tokens = [wholeToken .number digits] ∧
      (n ≤ 9223372036854775807 → parse (String.ofList digits) =
        (onlyLiteral (String.ofList digits) (wholeToken .number digits) (.integer n), [])) ∧
      (9223372036854775807 < n → (tokenize (String.ofList digits)).diagnostics =
        [⟨⟨0, Text.byteSize digits⟩, .numberTooLarge (String.ofList digits)⟩]) := by
  refine ⟨parse_stringLiteral, fun digits n h => ⟨h.tokenize.1, ?_, ?_⟩⟩
  · intro hn
    exact h.parse hn
  · intro hn
    exact h.tooLarge hn

theorem literals_denote_leadingZeros :
    Writes ['0', '0', '7'] 7 ∧
      parse "007" = (onlyLiteral "007" (wholeToken .number ['0', '0', '7']) (.integer 7), []) := by
  have hwrites : Writes ['0', '0', '7'] 7 := writes_toDigits 2 7
  exact ⟨hwrites, (literals_denote.2 _ 7 hwrites).2.1 (by decide)⟩

/-- The text `a"\` with a line feed after it. -/
example : stringLiteral "a\"\\\n" = ['"', 'a', '\\', '"', '\\', '\\', '\\', 'n', '"'] := by decide

end ReplayShell.Syntax
