import Mathlib.Data.List.TakeWhile
import ReplayShell.Proofs.LineCuts
import ReplayShell.Proofs.Unplaced

/-!
# Spelled tokens

A token can be spelled in just one way, unless it is a name or a literal. Tokens that are spelled
right and stand apart from each other are cut out of the text again.

* `Kind.spelling` is the text of a kind that has only one; `Unbroken` says what may stand between
  the quotes of a string, `Kind.Spells` what a token of a kind may look like.
* `Ranges.covers_eq_false`: letters, digits and white space have no character in common.
* `cutOut_of_spells`: a spelled token before a space or the end is one lexeme.
* `spaced` writes tokens with a space between them; `scan_spaced`: they are read back, without a
  fault.
-/
namespace ReplayShell

namespace Text

/-- No range of the one table meets a range of the other. -/
def Ranges.apart (table other : Ranges) : Bool :=
  table.all fun range => other.all fun otherRange =>
    range.2 < otherRange.1 || otherRange.2 < range.1

theorem Ranges.covers_eq_false {table other : Ranges} {c : Char} (h : table.apart other = true)
    (hc : table.covers c = true) : other.covers c = false := by
  obtain ⟨range, hr, hle⟩ := Ranges.covers_iff.1 hc
  refine Bool.eq_false_iff.2 fun ho => ?_
  obtain ⟨otherRange, ho, hle'⟩ := Ranges.covers_iff.1 ho
  have hapart := List.all_eq_true.1 (List.all_eq_true.1 h _ hr) _ ho
  rw [Bool.or_eq_true, decide_eq_true_eq, decide_eq_true_eq] at hapart
  omega

/-- The digits as a table. -/
theorem isDigit_eq_covers (c : Char) : isDigit c = Ranges.covers [(0x30, 0x39)] c := by
  have hle : ∀ a b : Char, decide (a ≤ b) = decide (a.toNat ≤ b.toNat) := fun _ _ => rfl
  simp [isDigit, Ranges.covers, hle]

/-- A letter is neither a digit nor white space. -/
theorem not_blank_of_isLetter {c : Char} (h : isLetter c = true) :
    isBlank c = false ∧ isDigit c = false := by
  rw [isDigit_eq_covers]
  exact ⟨Ranges.covers_eq_false (by decide +kernel) h, Ranges.covers_eq_false (by decide +kernel) h⟩

/-- A digit is no white space. -/
theorem not_blank_of_isDigit {c : Char} (h : isDigit c = true) : isBlank c = false := by
  rw [isDigit_eq_covers] at h
  exact Ranges.covers_eq_false (by decide +kernel) h

end Text

namespace Syntax

open Text (isBlank isDigit isLetter isAlphanumeric)

/-- The text of a token of the kind, if there is only one; else nothing. -/
def Kind.spelling : Kind → String
  | .plus => "+"
  | .minus => "-"
  | .star => "*"
  | .slash => "/"
  | .percent => "%"
  | .bang => "!"
  | .equals => "="
  | .equalsEquals => "=="
  | .bangEquals => "!="
  | .less => "<"
  | .lessEquals => "<="
  | .greater => ">"
  | .greaterEquals => ">="
  | .ampersandAmpersand => "&&"
  | .pipePipe => "||"
  | .openParen => "("
  | .closeParen => ")"
  -- A brace that stands alone in a text is written by its code.
  | .openBrace => "\x7b"
  | .closeBrace => "\x7d"
  | .comma => ","
  | .varKeyword => "var"
  | .letKeyword => "let"
  | .functionKeyword => "function"
  | .returnKeyword => "return"
  | .ifKeyword => "if"
  | .elseKeyword => "else"
  | .whileKeyword => "while"
  | .trueKeyword => "true"
  | .falseKeyword => "false"
  | .endOfFile | .bad | .whitespace | .comment | .number | .string | .identifier => ""

/-- What may stand between the quotes of a string: no quote and no line break, unless a backslash
stands before it, which may not stand before a line feed. -/
inductive Unbroken : List Char → Prop
  | nil : Unbroken []
  | ordinary {c : Char} {rest : List Char} (hq : c ≠ '"') (hb : c ≠ '\\') (hn : c ≠ '\n')
      (hr : c ≠ '\r') (h : Unbroken rest) : Unbroken (c :: rest)
  | escape {c : Char} {rest : List Char} (hn : c ≠ '\n') (h : Unbroken rest) :
      Unbroken ('\\' :: c :: rest)

/-- Whether the characters are letters, digits and underscores, with no digit in front. -/
def isWord : List Char → Bool
  | [] => false
  | c :: rest => (isLetter c || c == '_') && rest.all fun d => isAlphanumeric d || d == '_'

/-- Whether a token of the kind may look so. -/
def Kind.Spells : Kind → List Char → Prop
  | .identifier, text => isWord text = true ∧ Kind.keyword? (String.ofList text) = none
  | .number, text =>
    text ≠ [] ∧ (∀ d ∈ text, isDigit d = true) ∧ (decimalValue text : Int) ≤ maxInteger
  | .string, text => ∃ body, text = '"' :: (body ++ ['"']) ∧ Unbroken body
  | kind, text => kind.spelling ≠ "" ∧ text = kind.spelling.toList

/-- The token is in the text, and looks as its kind may look. -/
def Token.Spelled (token : Token) : Prop :=
  token.missing = false ∧ token.kind.Spells token.text.toList

/-! ## One lexeme -/

/-- The text ends here, or a space comes next. -/
def Apart (later : List Char) : Prop := later = [] ∨ ∃ more, later = ' ' :: more

/-- The text ends here, or what comes next is not of the class. -/
def Stops (p : Char → Bool) (later : List Char) : Prop := ∀ c ∈ later.head?, p c = false

theorem stops_nil (p : Char → Bool) : Stops p [] := fun _ h => (Option.not_mem_none _ h).elim

theorem stops_cons {p : Char → Bool} {c : Char} (h : p c = false) (later : List Char) :
    Stops p (c :: later) := by
  intro d hd
  cases hd
  exact h

/-- A class without the space stops where the text is apart. -/
theorem Apart.stops {p : Char → Bool} {later : List Char} (h : Apart later) (hp : p ' ' = false) :
    Stops p later := by
  rcases h with rfl | ⟨more, rfl⟩
  · exact stops_nil p
  · exact stops_cons hp more

/-- A run of a class ends where the class stops. -/
theorem Lexeme.run_append {p : Char → Bool} {rest later : List Char} (c : Char)
    (hr : ∀ d ∈ rest, p d = true) (hl : Stops p later) :
    Lexeme.run c (rest ++ later) p = c :: rest := by
  rw [Lexeme.run, List.takeWhile_append_of_pos hr]
  cases later with
  | nil => simp
  | cons d more => simp [hl d rfl]

theorem stringBody_of_unbroken {body : List Char} (h : Unbroken body) (later : List Char) :
    stringBody (body ++ '"' :: later) = (body ++ ['"'], true) := by
  induction h with
  | nil => rfl
  | @ordinary c rest hq hb hn hr _ ih =>
    rw [List.cons_append, stringBody, ih]
    · rfl
    · exact hq
    · exact hn
    · exact hr
    · exact fun hc => absurd hc hb
    · exact fun _ hc => absurd hc hb
    · exact fun _ _ hc => absurd hc hb
  | @escape c rest hn _ ih =>
    rw [List.cons_append, List.cons_append, stringBody, ih]
    · rfl
    · exact hn

namespace Lexeme

theorem first_of_word {c : Char} {rest later : List Char} (h : isWord (c :: rest) = true)
    (hl : Stops (fun d => isAlphanumeric d || d == '_') later) :
    isBlank c = false ∧ first c (rest ++ later) = word (c :: rest) := by
  obtain ⟨hstart, hrest⟩ := (Bool.and_eq_true _ _).mp h
  have hc : isBlank c = false ∧ isDigit c = false := by
    rcases (Bool.or_eq_true _ _).mp hstart with hl | hu
    · exact Text.not_blank_of_isLetter hl
    · rw [beq_iff_eq.1 hu]
      decide
  refine ⟨hc.1, ?_⟩
  rw [first, if_neg (by simp [hc.1]), if_neg (by simp [hc.2]), if_pos hstart,
    run_append c (List.all_eq_true.1 hrest) hl]

theorem first_of_digits {c : Char} {rest later : List Char} (h : ∀ d ∈ c :: rest, isDigit d = true)
    (hl : Stops isDigit later) : first c (rest ++ later) = number (c :: rest) := by
  obtain ⟨hc, hr⟩ := List.forall_mem_cons.1 h
  rw [first, if_neg (by simp [Text.not_blank_of_isDigit hc]), if_pos hc,
    run_append c hr hl]

theorem first_of_string {body : List Char} (h : Unbroken body) (later : List Char) :
    first '"' ((body ++ ['"']) ++ later) = { kind := .string, text := '"' :: (body ++ ['"']) } := by
  have hletter : isLetter '"' = false := by decide +kernel
  have hblank : isBlank '"' = false := by decide
  have hb := stringBody_of_unbroken h later
  rw [List.append_assoc]
  change first '"' (body ++ '"' :: later) = _
  simp [first, string, hb, hletter, hblank, isDigit]

/-- Punctuation is told by the next character. -/
theorem punctuation_congr (c : Char) {rest later : List Char} (h : rest.head? = later.head?) :
    punctuation c rest = punctuation c later := by
  unfold punctuation
  rw [h]

/-- A mark is punctuation, whatever is apart from it: no comment starts with it, and it does not go
on. -/
def isMark (kind : Kind) : List Char → Bool
  | [] => false
  | c :: rest =>
    !(isBlank c || isDigit c || isLetter c || c == '_' || c == '"') && (c != '/' || rest.isEmpty) &&
      punctuation c rest == { kind := kind, text := c :: rest } &&
      punctuation c (rest ++ [' ']) == { kind := kind, text := c :: rest }

theorem first_of_mark {kind : Kind} {c : Char} {rest later : List Char}
    (h : isMark kind (c :: rest) = true) (ha : Apart later) :
    isBlank c = false ∧ first c (rest ++ later) = { kind := kind, text := c :: rest } := by
  simp only [isMark, Bool.and_eq_true, Bool.or_eq_true, Bool.not_eq_true', Bool.or_eq_false_iff,
    bne_iff_ne, List.isEmpty_iff, beq_iff_eq, beq_eq_false_iff_ne] at h
  obtain ⟨⟨⟨⟨⟨⟨⟨hb, hd⟩, hl⟩, hu⟩, hq⟩, hs⟩, hend⟩, hspace⟩ := h
  have hslash : ¬(c = '/' ∧ (rest ++ later).head? = some '/') := by
    rintro ⟨hc, hh⟩
    rw [hs.resolve_left (not_not_intro hc)] at hh
    rcases ha with rfl | ⟨more, rfl⟩ <;> cases hh
  have hpunctuation : first c (rest ++ later) = punctuation c (rest ++ later) := by
    rw [first, if_neg (by simp [hb]), if_neg (by simp [hd]), if_neg (by simp [hl, hu]), if_neg hq,
      if_neg hslash]
  refine ⟨hb, hpunctuation.trans ?_⟩
  rcases ha with rfl | ⟨more, rfl⟩
  · rw [List.append_nil, hend]
  · rw [← hspace]
    exact punctuation_congr c (by cases rest <;> rfl)

end Lexeme

/-- The text is one lexeme of the kind, whatever is apart from it. -/
def CutOut (kind : Kind) (text : List Char) : Prop :=
  ∃ c rest, text = c :: rest ∧ isBlank c = false ∧
    ∀ later, Apart later → Lexeme.first c (rest ++ later) = { kind := kind, text := text }

theorem cutOut_of_mark {kind : Kind} {text : List Char} (h : Lexeme.isMark kind text = true) :
    CutOut kind text := by
  cases text with
  | nil => cases h
  | cons c rest =>
    exact ⟨c, rest, rfl, (Lexeme.first_of_mark h (.inl rfl)).1,
      fun later ha => (Lexeme.first_of_mark h ha).2⟩

theorem cutOut_of_word {text : List Char} (h : isWord text = true) :
    CutOut ((Kind.keyword? (String.ofList text)).getD .identifier) text := by
  cases text with
  | nil => cases h
  | cons c rest =>
    exact ⟨c, rest, rfl, (Lexeme.first_of_word h (stops_nil _)).1,
      fun later ha => (Lexeme.first_of_word h (ha.stops (by decide +kernel))).2⟩

/-- What looks as its kind may look is cut out of the text. -/
theorem cutOut_of_spells {kind : Kind} {text : List Char} (h : kind.Spells text) :
    CutOut kind text := by
  cases kind with
  | identifier =>
    have hcut := cutOut_of_word h.1
    rwa [h.2] at hcut
  | number =>
    obtain ⟨hne, hdigits, hrange⟩ := h
    obtain ⟨c, rest, rfl⟩ := List.exists_cons_of_ne_nil hne
    refine ⟨c, rest, rfl, Text.not_blank_of_isDigit (hdigits c List.mem_cons_self),
      fun later ha => ?_⟩
    rw [Lexeme.first_of_digits hdigits (ha.stops (by decide)), Lexeme.number, if_pos hrange]
  | string =>
    obtain ⟨body, rfl, hbody⟩ := h
    exact ⟨'"', body ++ ['"'], rfl, by decide, fun later _ => Lexeme.first_of_string hbody later⟩
  | varKeyword | letKeyword | functionKeyword | returnKeyword | ifKeyword | elseKeyword
  | whileKeyword | trueKeyword | falseKeyword =>
    rw [h.2]
    exact cutOut_of_word (by decide +kernel)
  | plus | minus | star | slash | percent | bang | equals | equalsEquals | bangEquals | less
  | lessEquals | greater | greaterEquals | ampersandAmpersand | pipePipe | openParen | closeParen
  | openBrace | closeBrace | comma =>
    rw [h.2]
    exact cutOut_of_mark (by decide +kernel)
  | endOfFile | bad | whitespace | comment => exact absurd rfl h.1

/-! ## Tokens with a space between them -/

/-- The tokens as they are written with a space between them. -/
def spaced (tokens : List Token) : List Char :=
  [' '].intercalate (tokens.map fun token => token.text.toList)

theorem spaced_cons_cons (token next : Token) (more : List Token) :
    spaced (token :: next :: more) = token.text.toList ++ ' ' :: spaced (next :: more) := by
  rw [spaced, List.map_cons, List.map_cons, List.intercalate_cons_cons, List.append_assoc]
  rfl

theorem lexemes_of_cutOut {kind : Kind} {text later : List Char} (h : CutOut kind text)
    (ha : Apart later) :
    lexemes (text ++ later) = { kind := kind, text := text } :: lexemes later := by
  obtain ⟨c, rest, rfl, -, hfirst⟩ := h
  rw [List.cons_append, lexemes_cons, hfirst later ha]
  simp

theorem lexemes_space {later : List Char} (h : ∀ c ∈ later.head?, isBlank c = false) :
    lexemes (' ' :: later) = { kind := .whitespace, text := [' '] } :: lexemes later := by
  cases later with
  | nil => rw [lexemes_blank (by decide)]; rfl
  | cons c rest =>
    have hc : isBlank c = false := h c rfl
    rw [lexemes_blank (by decide)]
    simp [hc]

/-- What looks as its kind may look is no trivia. -/
theorem Kind.Spells.not_trivia {kind : Kind} {text : List Char} (h : kind.Spells text) :
    kind.isTrivia = false := by
  cases kind with
  | whitespace | comment => exact absurd rfl h.1
  | _ => rfl

/-- A token of a lexeme that is as the token is spelled. -/
theorem layOut_spelled {token : Token} (h : token.Spelled) (position : Nat) (later : List Lexeme) :
    (significantFrom position ({ kind := token.kind, text := token.text.toList } :: later)).map
        Token.unplaced =
      token.unplaced :: (significantFrom (position + Text.byteSize token.text.toList) later).map
        Token.unplaced := by
  obtain ⟨kind, text, span, missing⟩ := token
  obtain ⟨rfl, hspells⟩ := h
  have ht : kind.isTrivia = false := hspells.not_trivia
  simp [significantFrom, layOut, ht, Token.unplaced]

/-- Spelled tokens with a space between them are read back, without a fault. -/
theorem scan_spaced {tokens : List Token} (h : ∀ token ∈ tokens, token.Spelled) (position : Nat) :
    (significantFrom position (lexemes (spaced tokens))).map Token.unplaced =
        tokens.map Token.unplaced ∧
      faults position (lexemes (spaced tokens)) = [] := by
  induction tokens generalizing position with
  | nil =>
    rw [spaced, List.map_nil, List.intercalate_nil, lexemes]
    exact ⟨rfl, rfl⟩
  | cons token more ih =>
    obtain ⟨hfirst, hmore⟩ := List.forall_mem_cons.1 h
    have hcut := cutOut_of_spells hfirst.2
    cases more with
    | nil =>
      have hl := lexemes_of_cutOut hcut (.inl rfl)
      rw [List.append_nil, lexemes] at hl
      rw [spaced, List.map_singleton, List.intercalate_singleton, hl]
      exact ⟨layOut_spelled hfirst position [], rfl⟩
    | cons next more =>
      have hl : lexemes (spaced (token :: next :: more)) =
          { kind := token.kind, text := token.text.toList } ::
            { kind := .whitespace, text := [' '] } :: lexemes (spaced (next :: more)) := by
        obtain ⟨c, rest, hc, hblank, -⟩ := cutOut_of_spells (hmore next List.mem_cons_self).2
        have hhead : (spaced (next :: more)).head? = some c := by
          cases more <;> simp [spaced, hc]
        rw [spaced_cons_cons, lexemes_of_cutOut hcut (.inr ⟨_, rfl⟩)]
        refine congrArg _ (lexemes_space fun d hd => ?_)
        rw [hhead] at hd
        cases hd
        exact hblank
      obtain ⟨ht, hf⟩ := ih hmore (position + Text.byteSize token.text.toList + 1)
      rw [hl, layOut_spelled hfirst]
      exact ⟨congrArg _ ht, hf⟩

end Syntax
end ReplayShell
