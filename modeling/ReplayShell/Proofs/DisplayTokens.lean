import ReplayShell.Proofs.Displayed

/-!
# Listed expressions are cut into their tokens

A listing has no more spaces than it needs, so what comes after a token matters.

* `Scans text ts later` says that a text before another is cut into tokens, without a fault, and
  the other starts anew. `Scans.append` puts two such texts together.
* `Closes` says what may come after an expression, `Opens` how one starts.
* `scans_displayed`: a listed expression is cut into its tokens. `tokenize_displayed` says so of a
  text that is nothing else.
* `spells_of_mem_significant`: names in any text are spelled as names are.
-/
namespace ReplayShell

open Text (isBlank isDigit isLetter isAlphanumeric)

namespace Syntax

/-! ## Names in texts -/

/-- A word that is no reserved word is a name. -/
theorem Lexeme.spells_word {letters : List Char} (hw : isWord letters = true)
    (h : (word letters).kind = .identifier) : Kind.identifier.Spells letters := by
  refine ⟨hw, ?_⟩
  cases hk : Kind.keyword? (String.ofList letters) with
  | none => rfl
  | some kind =>
    simp only [word, hk, Option.getD_some] at h
    have hkeyword := Kind.isKeyword_of_keyword? hk
    rw [h] at hkeyword
    cases hkeyword

theorem Lexeme.spells_first {c : Char} {rest : List Char}
    (h : (first c rest).kind = .identifier) : Kind.identifier.Spells (first c rest).text := by
  unfold first at h ⊢
  by_cases hb : isBlank c = true
  · rw [if_pos hb] at h
    cases h
  rw [if_neg hb] at h ⊢
  by_cases hd : isDigit c = true
  · rw [if_pos hd] at h
    cases h
  rw [if_neg hd] at h ⊢
  by_cases hl : (isLetter c || c == '_') = true
  · rw [if_pos hl] at h ⊢
    have hw : isWord (run c rest fun d => isAlphanumeric d || d == '_') = true := by
      rw [run, isWord, hl, Bool.true_and, List.all_takeWhile]
    exact spells_word hw h
  rw [if_neg hl] at h
  split at h
  · cases h
  split at h
  · cases h
  · unfold punctuation at h
    split at h <;> cases h

theorem spells_of_mem_significant {text : String} {token : Token}
    (ht : token ∈ (tokenize text).significant) (hk : token.kind = .identifier) :
    Kind.identifier.Spells token.text.toList := by
  have spells : ∀ (text : List Char) (position : Nat), ∀ token ∈ layOut position (lexemes text),
      token.kind = .identifier → Kind.identifier.Spells token.text.toList := by
    intro text
    fun_induction lexemes text with
    | case1 => exact fun _ _ h => absurd h List.not_mem_nil
    | case2 c rest lexeme ih =>
      intro position token h hk
      rcases List.mem_cons.1 h with rfl | h
      · rw [String.toList_ofList]
        exact Lexeme.spells_first hk
      · exact ih _ token h hk
  exact spells _ _ token (List.mem_filter.1 ht).1 hk

/-! ## Texts before others -/

/-- The text is cut into the tokens, without a fault, and the later text starts anew. -/
def Scans (text : List Char) (ts : List Token) (later : List Char) : Prop :=
  ∀ position,
    (significantFrom position (lexemes (text ++ later))).map Token.unplaced =
        ts.map Token.unplaced ++
          (significantFrom (position + Text.byteSize text) (lexemes later)).map Token.unplaced ∧
      faults position (lexemes (text ++ later)) =
        faults (position + Text.byteSize text) (lexemes later)

namespace Scans

variable {text text' later : List Char} {ts us : List Token} {token : Token}

theorem nil (later : List Char) : Scans [] [] later := fun _ => ⟨rfl, rfl⟩

theorem append (h : Scans text ts (text' ++ later)) (h' : Scans text' us later) :
    Scans (text ++ text') (ts ++ us) later := by
  intro position
  obtain ⟨ht, hf⟩ := h position
  obtain ⟨ht', hf'⟩ := h' (position + Text.byteSize text)
  rw [List.append_assoc, Text.byteSize_append, ← Nat.add_assoc, List.map_append, List.append_assoc]
  exact ⟨ht.trans (congrArg _ ht'), hf.trans hf'⟩

/-- The token is one lexeme. -/
theorem of_lexemes (hs : token.Spelled) (ht : token.text.toList = text)
    (h : lexemes (text ++ later) = { kind := token.kind, text := text } :: lexemes later) :
    Scans text [token] later := by
  subst ht
  intro position
  rw [h]
  exact ⟨layOut_spelled hs position _, rfl⟩

theorem of_first (hs : token.Spelled) {c : Char} {rest : List Char}
    (ht : token.text.toList = c :: rest)
    (h : Lexeme.first c (rest ++ later) = { kind := token.kind, text := c :: rest }) :
    Scans (c :: rest) [token] later := by
  refine of_lexemes hs ht ?_
  rw [List.cons_append, lexemes_cons, h]
  simp

/-- Before a space any spelled token is one lexeme. -/
theorem apart (hs : token.Spelled) (ha : Apart later) : Scans token.text.toList [token] later :=
  of_lexemes hs rfl (lexemes_of_cutOut (cutOut_of_spells hs.2) ha)

theorem space (h : ∀ c ∈ later.head?, isBlank c = false) : Scans [' '] [] later := by
  intro position
  rw [List.singleton_append, lexemes_space h]
  exact ⟨rfl, rfl⟩

end Scans

/-- What may come after an expression. -/
def Closes (later : List Char) : Prop :=
  ∀ c ∈ later.head?, c = ' ' ∨ c = '(' ∨ c = ')' ∨ c = ','

theorem closes_cons {c : Char} (h : c = ' ' ∨ c = '(' ∨ c = ')' ∨ c = ',') (later : List Char) :
    Closes (c :: later) := by
  intro d hd
  cases hd
  exact h

/-- A class that none of these is of stops there. -/
theorem Closes.stops {later : List Char} (h : Closes later) {p : Char → Bool}
    (hp : p ' ' = false ∧ p '(' = false ∧ p ')' = false ∧ p ',' = false) : Stops p later := by
  intro c hc
  rcases h c hc with rfl | rfl | rfl | rfl
  · exact hp.1
  · exact hp.2.1
  · exact hp.2.2.1
  · exact hp.2.2.2

/-- No word goes on there. -/
theorem Closes.stops_word {later : List Char} (h : Closes later) :
    Stops (fun d => isAlphanumeric d || d == '_') later :=
  h.stops (by decide +kernel)

/-- How an expression starts: not with white space, and with nothing that goes on with a mark. -/
def Opens (text : List Char) : Prop := ∃ c rest, text = c :: rest ∧ isBlank c = false ∧ c ≠ '='

theorem Opens.append {text : List Char} (h : Opens text) (later : List Char) :
    Opens (text ++ later) := by
  obtain ⟨c, rest, rfl, hb, he⟩ := h
  exact ⟨c, rest ++ later, rfl, hb, he⟩

theorem Opens.not_blank {text : List Char} (h : Opens text) :
    ∀ c ∈ text.head?, isBlank c = false := by
  obtain ⟨c, rest, rfl, hb, -⟩ := h
  intro d hd
  cases hd
  exact hb

namespace Scans

variable {later : List Char}

theorem name {text : String} (hs : Kind.identifier.Spells text.toList) (hl : Closes later) :
    Scans text.toList [freshToken .identifier text] later ∧ Opens text.toList := by
  cases ht : text.toList with
  | nil =>
    rw [ht] at hs
    cases hs.1
  | cons c rest =>
    rw [ht] at hs
    obtain ⟨hb, hfirst⟩ := Lexeme.first_of_word hs.1 hl.stops_word
    have hspelled : (freshToken .identifier text).Spelled := ⟨rfl, ht ▸ hs⟩
    constructor
    · refine of_first hspelled ht (hfirst.trans ?_)
      rw [Lexeme.word, hs.2]
      rfl
    · refine ⟨c, rest, rfl, hb, ?_⟩
      rintro rfl
      have hletter : (isLetter '=' || '=' == '_') = false := by decide +kernel
      have hw := hs.1
      rw [isWord, hletter] at hw
      cases hw

/-- A mark of one character stands alone where it is not taken for a longer one. -/
theorem punctuation {kind : Kind} (c : Char) (hk : kind.spelling.toList = [c])
    (hc : (isBlank c || isDigit c || isLetter c || c == '_' || c == '"' || c == '/') = false)
    (hp : Lexeme.punctuation c later = { kind := kind, text := [c] }) :
    Scans kind.spelling.toList [freshToken kind kind.spelling] later := by
  simp only [Bool.or_eq_false_iff, beq_eq_false_iff_ne] at hc
  obtain ⟨⟨⟨⟨⟨hb, hd⟩, hl⟩, hu⟩, hq⟩, hs⟩ := hc
  have hspelling : kind.spelling ≠ "" := by
    intro h
    rw [h] at hk
    cases hk
  have hspelled : (freshToken kind kind.spelling).Spelled := spelled_mark hspelling
  rw [hk]
  refine of_first hspelled hk (.trans ?_ hp)
  simp [Lexeme.first, hb, hd, hl, hu, hq, hs]

/-- A bracket or a comma stands alone. -/
theorem bracket {kind : Kind} (hk : kind = .openParen ∨ kind = .closeParen ∨ kind = .comma)
    (later : List Char) : Scans kind.spelling.toList [freshToken kind kind.spelling] later := by
  rcases hk with rfl | rfl | rfl
  · exact punctuation '(' rfl (by decide +kernel) rfl
  · exact punctuation ')' rfl (by decide +kernel) rfl
  · exact punctuation ',' rfl (by decide +kernel) rfl

/-- A unary operator stands alone before an expression. -/
theorem unary (op : UnaryOp) (h : Opens later) :
    Scans op.symbol.toList [freshToken op.kind op.kind.spelling] later := by
  obtain ⟨c, rest, rfl, -, he⟩ := h
  rw [← op.spelling_kind]
  cases op with
  | identity => exact punctuation '+' rfl (by decide +kernel) rfl
  | negate => exact punctuation '-' rfl (by decide +kernel) rfl
  | not => exact punctuation '!' rfl (by decide +kernel) (by
    simp [Lexeme.punctuation, he, UnaryOp.kind])

/-- An operator between two operands has a space on both sides. -/
theorem between {left right : List Char} {ts us : List Token} {token : Token} (hs : token.Spelled)
    (hleft : Scans left ts (' ' :: (token.text.toList ++ ' ' :: right) ++ later))
    (hright : Scans right us later) (ho : Opens right) :
    Scans (left ++ ' ' :: (token.text.toList ++ ' ' :: right)) (ts ++ token :: us) later := by
  have hmark : Scans token.text.toList [token] (' ' :: right ++ later) :=
    apart hs (.inr ⟨right ++ later, rfl⟩)
  have hopens : ∀ c ∈ (token.text.toList ++ ' ' :: right ++ later).head?, isBlank c = false := by
    obtain ⟨c, rest, hc, hb, -⟩ := cutOut_of_spells hs.2
    rw [hc]
    intro d hd
    cases hd
    exact hb
  have hrest := (space (ho.append later).not_blank).append hright
  exact hleft.append ((space hopens).append (hmark.append hrest))

end Scans

end Syntax

namespace Program

open Syntax (Kind Token Scans Opens Closes closes_cons freshToken mark spelled_mark)

variable {env : Environment}

theorem unbroken_escape {text : List Char} (h : ∀ c ∈ text, IsPlain c) :
    Syntax.Unbroken (text.flatMap Text.escapeChar) := by
  induction text with
  | nil => exact .nil
  | cons c rest ih =>
    obtain ⟨hc, hrest⟩ := List.forall_mem_cons.1 h
    rw [List.flatMap_cons]
    rcases escapeChar_cases hc with ⟨-, he⟩ | ⟨-, he⟩ | ⟨hb, he⟩ | ⟨⟨hq, hb, hn, hr⟩, he⟩
    · rw [he]
      exact .escape (by decide) (ih hrest)
    · rw [he]
      exact .escape (by decide) (ih hrest)
    · rw [he]
      refine .escape ?_ (ih hrest)
      rcases hb with rfl | rfl <;> decide
    · rw [he]
      exact .ordinary hq hb hn hr (ih hrest)

/-- A reserved word is one token. -/
theorem scans_keyword {kind : Kind} {c : Char} {rest later : List Char}
    (hc : kind.spelling.toList = c :: rest) (hw : Syntax.isWord (c :: rest) = true)
    (hk : Kind.keyword? (String.ofList (c :: rest)) = some kind) (hl : Closes later) :
    Scans (c :: rest) [mark kind] later := by
  have hspelled : (mark kind).Spelled := Syntax.spelled_mark (by
    intro h
    rw [h] at hc
    cases hc)
  have hfirst := (Syntax.Lexeme.first_of_word hw hl.stops_word).2
  refine .of_first hspelled hc (hfirst.trans ?_)
  rw [Syntax.Lexeme.word, hk]
  rfl

/-- A listed literal is one token. -/
theorem scans_literal {value : Value} (h : Legible env (.expression (.literal value)))
    {later : List Char} (hl : Closes later) :
    Scans (literalText value).toList [literalToken value] later ∧
      Opens (literalText value).toList := by
  cases h with
  | @integer n hn h =>
    obtain ⟨n, rfl⟩ := Int.eq_ofNat_of_zero_le hn
    have hne : Nat.toDigits 10 n ≠ [] := Nat.toDigits_ne_nil
    have hdigits : ∀ d ∈ Nat.toDigits 10 n, Text.isDigit d = true :=
      fun d hd => Nat.isDigit_of_mem_toDigits (by omega) (by omega) hd
    have htext := toList_literalText_natCast n
    have hrange : (Syntax.decimalValue (Nat.toDigits 10 n) : Int) ≤ maxInteger := by
      rwa [decimalValue_toDigits]
    have hspelled : (literalToken (.integer n)).Spelled :=
      ⟨rfl, by
        change Kind.number.Spells (literalText (.integer n)).toList
        rw [htext]
        exact ⟨hne, hdigits, hrange⟩⟩
    rw [htext]
    obtain ⟨c, rest, hc⟩ := List.exists_cons_of_ne_nil hne
    rw [hc] at hdigits hrange htext ⊢
    have hstops : Syntax.Stops Text.isDigit later := hl.stops (by decide)
    refine ⟨.of_first hspelled htext ?_, c, rest, rfl,
      Text.not_blank_of_isDigit (hdigits c List.mem_cons_self), ?_⟩
    · rw [Syntax.Lexeme.first_of_digits hdigits hstops, Syntax.Lexeme.number, if_pos hrange]
      rfl
    · rintro rfl
      exact absurd (hdigits '=' List.mem_cons_self) (by decide)
  | boolean b =>
    cases b with
    | true =>
      exact ⟨scans_keyword rfl (by decide +kernel) (by decide) hl, _, _, rfl, by decide, by decide⟩
    | false =>
      exact ⟨scans_keyword rfl (by decide +kernel) (by decide) hl, _, _, rfl, by decide, by decide⟩
  | @string text h =>
    have htext : (literalText (.string text)).toList =
      '"' :: (text.toList.flatMap Text.escapeChar ++ ['"']) := String.toList_ofList
    have hunbroken := unbroken_escape h
    have hspelled : (literalToken (.string text)).Spelled := ⟨rfl, _, htext, hunbroken⟩
    rw [htext]
    exact ⟨.of_first hspelled htext (Syntax.Lexeme.first_of_string hunbroken later), _, _, rfl,
      by decide, by decide⟩

/-- Listed code is cut into its tokens, whatever may come after it. -/
def ScansOut : Code → Prop
  | .expression code => ∀ later, Closes later →
    Scans code.text.toList code.displayTokens later ∧ Opens code.text.toList
  | .expressions code => ∀ later, Closes later →
    Scans (", ".intercalate (expressionTexts code)).toList (argumentTokens code) later ∧
      (code ≠ [] → Opens (", ".intercalate (expressionTexts code)).toList)
  | _ => True

theorem toList_expressionTexts (first next : Expression) (rest : List Expression) :
    (", ".intercalate (expressionTexts (first :: next :: rest))).toList =
      first.text.toList ++
        ',' :: ' ' :: (", ".intercalate (expressionTexts (next :: rest))).toList := by
  rw [String.toList_intercalate, String.toList_intercalate, expressionTexts, expressionTexts,
    List.map_cons, List.map_cons, List.intercalate_cons_cons, List.append_assoc]
  rfl

theorem scans_displayed {code : Code} (h : Legible env code) : ScansOut code := by
  have literal : ∀ value, Legible env (.expression (.literal value)) →
      ScansOut (.expression (.literal value)) := fun _ h _ => scans_literal h
  induction h with
  | integer hn h => exact literal _ (.integer hn h)
  | boolean b => exact literal _ (.boolean b)
  | string h => exact literal _ (.string h)
  | «variable» span hs _ => exact fun later => Scans.name hs
  | @assignment ref value hs _ _ ih =>
    intro later hl
    obtain ⟨hvalue, hopens⟩ := ih later hl
    obtain ⟨hname, hstart⟩ := Scans.name hs (closes_cons (.inl rfl) _)
    have htext : (Expression.assignment ref value).text.toList =
        ref.name.toList ++ ' ' :: ((mark .equals).text.toList ++ ' ' :: value.text.toList) := by
      simp [Expression.text, mark, freshToken, Kind.spelling]
    rw [htext]
    exact ⟨.between (spelled_mark (by decide)) hname hvalue hopens, hstart.append _⟩
  | @unary operand op span _ ih =>
    intro later hl
    obtain ⟨hoperand, hopens⟩ := ih later hl
    rw [Expression.text, String.toList_append]
    refine ⟨(Scans.unary op (hopens.append later)).append hoperand, ?_⟩
    cases op <;> exact ⟨_, _, rfl, by decide, by decide⟩
  | @binary left right op span _ _ ihLeft ihRight =>
    intro later _
    have hoperator : (mark op.kind).Spelled := spelled_mark (by cases op <;> decide)
    have htext : (Expression.binary left op right span).text.toList =
        '(' :: (left.text.toList ++
          ' ' :: ((mark op.kind).text.toList ++ ' ' :: right.text.toList) ++ [')']) := by
      simp [Expression.text, mark, freshToken, op.spelling_kind]
    have hclose : Scans [')'] [mark .closeParen] later := .bracket (.inr (.inl rfl)) later
    obtain ⟨hright, hopens⟩ := ihRight (')' :: later) (closes_cons (by decide) _)
    obtain ⟨hleft, -⟩ := ihLeft _ (closes_cons (.inl rfl) _)
    have hinner := (Scans.between hoperator hleft hright hopens).append hclose
    rw [htext]
    exact ⟨(Scans.bracket (.inl rfl) _).append hinner, _, _, rfl, by decide, by decide⟩
  | @call name callee arguments span hs _ _ ih =>
    intro later _
    have htext : (Expression.call name callee arguments span).text.toList =
        name.toList ++ '(' :: ((", ".intercalate (expressionTexts arguments)).toList ++ [')']) := by
      simp [Expression.text]
    have hclose : Scans [')'] [mark .closeParen] later := .bracket (.inr (.inl rfl)) later
    obtain ⟨harguments, -⟩ := ih (')' :: later) (closes_cons (by decide) _)
    obtain ⟨hname, hopens⟩ := Scans.name hs (closes_cons (.inr (.inl rfl)) _)
    have hinner := (Scans.bracket (.inl rfl) _).append (harguments.append hclose)
    rw [htext]
    exact ⟨hname.append hinner, hopens.append _⟩
  | noExpressions => exact fun later _ => ⟨.nil later, fun h => absurd rfl h⟩
  | @expressions first rest _ _ ihFirst ihRest =>
    intro later hl
    cases rest with
    | nil =>
      obtain ⟨hfirst, hopens⟩ := ihFirst later hl
      exact ⟨hfirst, fun _ => hopens⟩
    | cons next rest =>
      obtain ⟨hfirst, hopens⟩ := ihFirst _ (closes_cons (.inr (.inr (.inr rfl))) _)
      obtain ⟨hrest, hstart⟩ := ihRest later hl
      have hstart := hstart (List.cons_ne_nil _ _)
      have hspace := (Scans.space (hstart.append later).not_blank).append hrest
      have hcomma := (Scans.bracket (.inr (.inr rfl)) _).append hspace
      rw [toList_expressionTexts]
      exact ⟨hfirst.append hcomma, fun _ => hopens.append _⟩

/-- A listed expression is cut into its tokens, and no part of it is faulty. -/
theorem tokenize_displayed {expression : Expression} (h : Legible env (.expression expression)) :
    (Syntax.tokenize expression.text).significant.map Token.unplaced =
        expression.displayTokens.map Token.unplaced ∧
      (Syntax.tokenize expression.text).diagnostics = [] := by
  obtain ⟨hscans, -⟩ := scans_displayed h [] fun _ h => (Option.not_mem_none _ h).elim
  have hwhole := hscans 0
  rw [List.append_nil, Syntax.lexemes] at hwhole
  obtain ⟨htokens, hfaults⟩ := hwhole
  exact ⟨htokens.trans (List.append_nil _), hfaults⟩

end Program

end ReplayShell
