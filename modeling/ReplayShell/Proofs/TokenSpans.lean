import ReplayShell.Proofs.Grammar

/-!
# The spans of trees

The tokens of a text stand one after another in it, and none is empty. So every expression that is
written with some of them has a span that is not empty either, inside the text.

* `Laid` says that tokens stand in order between two offsets. `laid_layOut`, `laid_significant`:
  those of a text do.
* `Written.of_occurs`: a part of a written tree is written with some of its tokens.
* `span_of_parse`: the spans of the expressions of a faultless text.
-/
namespace ReplayShell

/-- The span is not empty, and stands between the offsets. -/
structure Span.Inside (span : Span) (start stop : Nat) : Prop where
  start : start ≤ span.start
  nonempty : span.start < span.stop
  stop : span.stop ≤ stop

namespace Syntax

/-- The tokens stand between the offsets, one after another, and none is empty. -/
inductive Laid : Nat → List Token → Nat → Prop
  | nil {start stop : Nat} (h : start ≤ stop) : Laid start [] stop
  | cons {start stop : Nat} {token : Token} {rest : List Token} (hs : start ≤ token.span.start)
      (hne : token.span.start < token.span.stop) (hr : Laid token.span.stop rest stop) :
      Laid start (token :: rest) stop

namespace Laid

variable {start start' stop : Nat} {ts us : List Token}

theorem le (h : Laid start ts stop) : start ≤ stop := by
  induction h with
  | nil h => exact h
  | cons hs hne _ ih => omega

theorem widen (h : Laid start ts stop) (hs : start' ≤ start) : Laid start' ts stop := by
  cases h with
  | nil h => exact .nil (Nat.le_trans hs h)
  | cons h hne hr => exact .cons (Nat.le_trans hs h) hne hr

theorem sublist (h : Laid start ts stop) (hsub : us.Sublist ts) : Laid start us stop := by
  induction hsub generalizing start with
  | slnil => exact h
  | cons token _ ih =>
    cases h with
    | cons hs hne hr => exact (ih hr).widen (by omega)
  | cons_cons token _ ih =>
    cases h with
    | cons hs hne hr => exact .cons hs hne (ih hr)

/-- Tokens after others begin where those end, or later. -/
theorem split (h : Laid start (ts ++ us) stop) :
    ∃ middle, Laid start ts middle ∧ Laid middle us stop := by
  induction ts generalizing start with
  | nil => exact ⟨start, .nil (Nat.le_refl _), h⟩
  | cons token rest ih =>
    cases h with
    | cons hs hne hr =>
      obtain ⟨middle, hrest, hus⟩ := ih hr
      exact ⟨middle, .cons hs hne hrest, hus⟩

end Laid

theorem byteSize_pos {text : List Char} (h : text ≠ []) : 0 < Text.byteSize text := by
  cases text with
  | nil => exact absurd rfl h
  | cons c rest =>
    have hc := c.utf8Size_pos
    rw [Text.byteSize]
    omega

theorem text_ne_nil_of_mem_lexemes (text : List Char) :
    ∀ lexeme ∈ lexemes text, lexeme.text ≠ [] := by
  fun_induction lexemes text with
  | case1 => exact fun _ h => absurd h List.not_mem_nil
  | case2 c rest lexeme ih =>
    intro other h
    rcases List.mem_cons.1 h with rfl | h
    · exact Lexeme.first_text_ne_nil c rest
    · exact ih other h

/-- Lexemes are laid out between their first byte and the one after their last. -/
theorem laid_layOut {pieces : List Lexeme} (h : ∀ lexeme ∈ pieces, lexeme.text ≠ [])
    (position : Nat) :
    Laid position (layOut position pieces)
      (position + Text.byteSize (pieces.map Lexeme.text).flatten) := by
  induction pieces generalizing position with
  | nil => exact .nil (Nat.le_refl _)
  | cons lexeme rest ih =>
    have hpos := byteSize_pos (h lexeme List.mem_cons_self)
    have hrest := ih (fun other ho => h other (List.mem_cons_of_mem _ ho))
      (position + Text.byteSize lexeme.text)
    rw [List.map_cons, List.flatten_cons, Text.byteSize_append, ← Nat.add_assoc]
    refine .cons (Nat.le_refl _) ?_ hrest
    dsimp only
    omega

/-- The tokens of a text stand between its beginning and its end. -/
theorem laid_significant (text : String) :
    Laid 0 (tokenize text).significant (Text.byteSize text.toList) := by
  have h := laid_layOut (text_ne_nil_of_mem_lexemes text.toList) 0
  rw [flatten_lexemes, Nat.zero_add] at h
  exact h.sublist List.filter_sublist

/-! ## Parts and spans -/

variable {tree : Tree} {ts : List Token} {part : Expression}

/-- The expression is written with some of the tokens. -/
def WrittenAmong (part : Expression) (ts : List Token) : Prop :=
  ∃ us, us.Sublist ts ∧ Written (.expression part) us

theorem WrittenAmong.mono {us : List Token} (h : WrittenAmong part us) (hsub : us.Sublist ts) :
    WrittenAmong part ts := by
  obtain ⟨vs, hvs, hw⟩ := h
  exact ⟨vs, hvs.trans hsub, hw⟩

/-- A part of a written tree is written with some of its tokens. -/
theorem Written.of_occurs (ho : Occurs part tree) (h : Written tree ts) : WrittenAmong part ts := by
  induction ho generalizing ts with
  | self => exact ⟨ts, List.Sublist.refl _, h⟩
  | assignment _ ih =>
    cases h with
    | assignment _ _ hv => exact (ih hv).mono (by grind)
  | unary _ ih =>
    cases h with
    | unary _ hv => exact (ih hv).mono (by grind)
  | binaryLeft _ ih =>
    cases h with
    | binary hl _ _ => exact (ih hl).mono (by grind)
  | binaryRight _ ih =>
    cases h with
    | binary _ _ hr => exact (ih hr).mono (by grind)
  | parenthesized _ ih =>
    cases h with
    | parenthesized _ hi _ => exact (ih hi).mono (by grind)
  | argument _ ih =>
    cases h with
    | call _ _ ha _ => exact (ih ha).mono (by grind)
  | firstExpression _ ih =>
    cases h with
    | lastExpression hf => exact ih hf
    | expressions hf _ _ => exact (ih hf).mono (by grind)
  | moreExpressions _ ih =>
    cases h with
    | lastExpression _ => exact (ih .noExpressions).mono (List.nil_sublist _)
    | expressions _ _ hm => exact (ih hm).mono (by grind)
  | block _ ih =>
    cases h with
    | block _ hs _ => exact (ih hs).mono (by grind)
  | initializer _ ih =>
    cases h with
    | «variable» _ _ _ hv => exact (ih hv).mono (by grind)
  | condition _ ih =>
    cases h with
    | conditionalElse _ hc _ _ _ => exact (ih hc).mono (by grind)
    | conditional _ hc _ => exact (ih hc).mono (by grind)
  | thenBranch _ ih =>
    cases h with
    | conditionalElse _ _ ht _ _ => exact (ih ht).mono (by grind)
    | conditional _ _ ht => exact (ih ht).mono (by grind)
  | elseBranch _ ih =>
    cases h with
    | conditionalElse _ _ _ _ he => exact (ih he).mono (by grind)
  | loopCondition _ ih =>
    cases h with
    | loop _ hc _ => exact (ih hc).mono (by grind)
  | loopBody _ ih =>
    cases h with
    | loop _ _ hb => exact (ih hb).mono (by grind)
  | returned _ ih =>
    cases h with
    | «return» _ hv => exact (ih hv).mono (by grind)
  | evaluated _ ih =>
    cases h with
    | expression he => exact ih he
  | firstStatement _ ih =>
    cases h with
    | statements hf _ => exact (ih hf).mono (by grind)
  | moreStatements _ ih =>
    cases h with
    | statements _ hm => exact (ih hm).mono (by grind)
  | body _ ih =>
    cases h with
    | function _ _ _ _ _ _ hs _ => exact (ih hs).mono (by grind)
  | functionMember _ ih =>
    cases h with
    | functionMember hf => exact ih hf
  | statementMember _ ih =>
    cases h with
    | statementMember hs => exact ih hs
  | member hm _ ih =>
    obtain ⟨us, hsub, hw⟩ := written_of_mem h hm
    exact (ih hw).mono hsub

/-- The span of a written expression is not empty, and stands where its tokens do. -/
theorem Written.inside (h : Written tree ts) {start stop : Nat} (laid : Laid start ts stop) :
    ∀ expression, tree = .expression expression → expression.span.Inside start stop := by
  induction h generalizing start stop with
  | literal | name =>
    rintro expression ⟨⟩
    cases laid with
    | cons hs hne hr => exact ⟨hs, hne, hr.le⟩
  | assignment _ _ _ ih =>
    rintro expression ⟨⟩
    cases laid with
    | cons hs hne hr =>
      cases hr with
      | cons hs' hne' hr' =>
        obtain ⟨hstart, hvalue, hstop⟩ := ih hr' _ rfl
        exact ⟨hs, by dsimp only [Expression.span, Span.to]; omega, hstop⟩
  | unary _ _ ih =>
    rintro expression ⟨⟩
    cases laid with
    | cons hs hne hr =>
      obtain ⟨hstart, hoperand, hstop⟩ := ih hr _ rfl
      exact ⟨hs, by dsimp only [Expression.span, Span.to]; omega, hstop⟩
  | binary _ _ _ ihLeft ihRight =>
    rintro expression ⟨⟩
    obtain ⟨middle, hl, hr⟩ := laid.split
    obtain ⟨hstart, hleft, hmiddle⟩ := ihLeft hl _ rfl
    cases hr with
    | cons hs hne hr =>
      obtain ⟨hafter, hright, hstop⟩ := ihRight hr _ rfl
      exact ⟨hstart, by dsimp only [Expression.span, Span.to]; omega, hstop⟩
  | parenthesized _ _ _ ih =>
    rintro expression ⟨⟩
    cases laid with
    | cons hs hne hr =>
      obtain ⟨middle, hi, hc⟩ := hr.split
      obtain ⟨hstart, hinner, hmiddle⟩ := ih hi _ rfl
      cases hc with
      | cons hs' hne' hr' => exact ⟨hs, by dsimp only [Expression.span, Span.to]; omega, hr'.le⟩
  | call _ _ _ _ ih =>
    rintro expression ⟨⟩
    cases laid with
    | cons hs hne hr =>
      cases hr with
      | cons hs' hne' hr' =>
        obtain ⟨middle, ha, hc⟩ := hr'.split
        have hle := ha.le
        cases hc with
        | cons hs'' hne'' hr'' =>
          exact ⟨hs, by dsimp only [Expression.span, Span.to]; omega, hr''.le⟩
  | _ =>
    intro expression h
    cases h

/-- The span of an expression of a faultless text is not empty, and inside the text. -/
theorem span_of_parse {text : String} (h : (parse text).2 = [])
    (ho : Occurs part (.members (parse text).1.members)) :
    part.span.Inside 0 (Text.byteSize text.toList) := by
  obtain ⟨us, hsub, hw⟩ := (parse_written h).of_occurs ho
  exact hw.inside ((laid_significant text).sublist hsub) part rfl

end Syntax

end ReplayShell
