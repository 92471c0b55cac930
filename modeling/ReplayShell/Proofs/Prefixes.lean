import ReplayShell.Proofs.Grammar

/-!
# Parsing the beginning of a text

The parser on the first tokens of a faultless text goes abreast with the parser on all of them, up
to the end of the first ones. From there on it can only find tokens missing.

* `Settled`: nothing is left to read, and if anything was reported the last token is a missing one.
  `Reads.settled`: a parser that is settled stays so.
* `Abreast` relates the parser on all the tokens with the parser on the first of them.
  `Reads.follows` is what one goal keeps, `parseMembers_abreast` the whole.
* `Honest` is the other direction: as long as nothing was reported no token is missing.
  `Reads.honest` is one goal, `parseMembers_honest` the whole.
-/
namespace ReplayShell.Syntax

variable {endOfFile endOfFile' : Token} {goal goal' : Goal} {tree tree' : Tree}
  {s s' w w' r r' : State} {later : List Token}

/-! ## At the end of the tokens -/

namespace State

/-- Nothing is left, and the last token is a missing one if anything was reported. -/
structure Settled (s : State) : Prop where
  rest : s.rest = []
  last : s.reported = [] ∨ ∃ token, s.last = some token ∧ token.missing = true

theorem Settled.kind (h : s.Settled) : s.kind = .endOfFile := by
  rw [State.kind, h.rest]

theorem advance_of_nil (h : s.rest = []) : s.advance = s := by
  rw [advance, h]

theorem Settled.skipIfStuck (h : s.Settled) (start : State) : start.skipIfStuck s = s := by
  rw [State.skipIfStuck, advance_of_nil h.rest, ite_self]

theorem settled_synthesize (h : s.rest = []) (problem : Problem) (kind : Kind) :
    (synthesize endOfFile problem kind s).state.Settled :=
  ⟨h, .inr ⟨_, rfl, rfl⟩⟩

end State

/-- At the end of the tokens the parser only finds tokens missing. -/
theorem Reads.settled (h : Reads endOfFile goal s tree s') (hs : s.Settled) : s'.Settled := by
  induction h with
  | found hk h =>
    rw [hs.kind] at h
    exact absurd h.symm hk
  | absent => exact State.settled_synthesize hs.rest _ _
  | tooDeep | statementTooDeep => exact State.settled_synthesize hs.rest _ _
  | enough | noArguments | noStatements | noParameters => exact hs
  | parenthesized h | block _ h | loop _ h | returnNothing _ h | «return» _ h
  | conditionalElse _ h | conditional _ h | functionMember h =>
    rw [hs.kind] at h
    cases h
  | assignment _ h | call h =>
    rw [hs.kind] at h
    cases h.1
  | unary h | unaryTooDeep h =>
    rw [hs.kind] at h
    exact absurd rfl h.1
  | binary h =>
    rw [hs.kind] at h
    exact absurd (.inl rfl) h
  | literal h =>
    rw [hs.kind] at h
    rcases h with h | h | h | h <;> cases h
  | «variable» _ h =>
    rw [hs.kind] at h
    rcases h with h | h <;> cases h
  | lastArgument h | argument h | statements h | lastParameter h | parameter h =>
    exact absurd (.inr hs.kind) h
  | operation _ _ _ ih | name _ _ _ _ ih | expression _ _ _ _ _ _ _ ih | statementMember _ _ ih =>
    exact ih hs
  | operand _ _ _ ihLeft ihRest => exact ihRest (ihLeft hs)
  | function _ _ _ _ _ _ _ _ ih₁ ih₂ ih₃ ih₄ ih₅ ih₆ ih₇ ih₈ =>
    exact ih₈ (ih₇ (ih₆ (ih₅ (ih₄ (ih₃ (ih₂ (ih₁ hs)))))))

/-! ## Abreast -/

/-- Nothing was reported, and `r` still has tokens, which are the first ones of `w`. -/
structure Going (later : List Token) (w r : State) : Prop where
  rest : w.rest = r.rest ++ later
  ne_nil : r.rest ≠ []
  reported : r.reported = []

/-- The parser on all the tokens has come as far as the one on the first of them, if that has not
come to the end. -/
def Abreast (later : List Token) (w r : State) : Prop := Going later w r ∨ r.Settled

namespace Going

theorem kind (h : Going later w r) : w.kind = r.kind := by
  obtain ⟨token, rest, hr⟩ := List.exists_cons_of_ne_nil h.ne_nil
  rw [State.kind, State.kind, h.rest, hr]
  rfl

theorem abreast_of_rest (h : w.rest = r.rest ++ later) (hr : r.reported = []) :
    Abreast later w r := by
  by_cases hne : r.rest = []
  · exact .inr ⟨hne, .inl hr⟩
  · exact .inl ⟨h, hne, hr⟩

theorem advance (h : Going later w r) : Abreast later w.advance r.advance := by
  obtain ⟨token, rest, hr⟩ := List.exists_cons_of_ne_nil h.ne_nil
  have hw : w.rest = token :: (rest ++ later) := by rw [h.rest, hr, List.cons_append]
  refine abreast_of_rest ?_ ?_
  · rw [State.advance, State.advance, hw, hr]
  · rw [State.advance_reported]
    exact h.reported

/-- The token after the next one is the same, if there is one before the end. -/
theorem secondKind (h : Going later w r) :
    r.advance.rest = [] ∧ r.secondKind = .endOfFile ∨ w.secondKind = r.secondKind := by
  obtain ⟨token, rest, hr⟩ := List.exists_cons_of_ne_nil h.ne_nil
  cases rest with
  | nil =>
    left
    rw [State.advance, State.secondKind, hr]
    exact ⟨rfl, rfl⟩
  | cons second rest =>
    right
    rw [State.secondKind, State.secondKind, h.rest, hr]
    rfl

/-- At the last token before the end. -/
theorem settled_advance (h : Going later w r) (hr : r.advance.rest = []) : r.advance.Settled :=
  ⟨hr, .inl (by rw [State.advance_reported]; exact h.reported)⟩

end Going

theorem Abreast.advance (h : Abreast later w r) (hk : r.kind ≠ .endOfFile) :
    Abreast later w.advance r.advance := by
  rcases h with going | settled
  · exact going.advance
  · exact absurd settled.kind hk

theorem Abreast.kind (h : Abreast later w r) (hk : r.kind ≠ .endOfFile) : w.kind = r.kind := by
  rcases h with going | settled
  · exact going.kind
  · exact absurd settled.kind hk

/-- A round of a loop that has read nothing skips a token here as there. -/
theorem Abreast.skipIfStuck {w₁ r₁ : State} (h : Abreast later w₁ r₁) (start : Going later w r) :
    Abreast later (w.skipIfStuck w₁) (r.skipIfStuck r₁) := by
  rcases h with going | settled
  · have hw := congrArg List.length going.rest
    have hr := congrArg List.length start.rest
    rw [List.length_append] at hw hr
    unfold State.skipIfStuck
    by_cases hstuck : r₁.rest.length = r.rest.length
    · rw [if_pos hstuck, if_pos (by omega)]
      exact going.advance
    · rw [if_neg hstuck, if_neg (by omega)]
      exact .inl going
  · rw [settled.skipIfStuck]
    exact .inr settled

/-- Goals that differ at most in the left operand that is already there. -/
inductive Goal.Alike : Goal → Goal → Prop
  | same (goal : Goal) : Goal.Alike goal goal
  | operators (depth parent : Nat) (left left' : Expression) :
      Goal.Alike (.operators depth parent left) (.operators depth parent left')

theorem Goal.Alike.exists_left {depth parent : Nat} {left : Expression}
    (h : (Goal.operators depth parent left).Alike goal') :
    ∃ left', goal' = .operators depth parent left' := by
  cases h <;> exact ⟨_, rfl⟩

/-- Whatever the parser on the first tokens does with the goal, it stays abreast. -/
structure Follows (later : List Token) (goal : Goal) (w w' : State) : Prop where
  abreast : ∀ {endOfFile : Token} {goal' : Goal} {r : State} {tree : Tree} {r' : State},
    goal.Alike goal' → Reads endOfFile goal' r tree r' → Abreast later w r → Abreast later w' r'

theorem Follows.of_going
    (h : ∀ {endOfFile : Token} {goal' : Goal} {r : State} {tree : Tree} {r' : State},
      goal.Alike goal' → Reads endOfFile goal' r tree r' → Going later w r → Abreast later w' r') :
    Follows later goal w w' where
  abreast := by
    intro endOfFile goal' r tree r' alike part abreast
    rcases abreast with going | settled
    · exact h alike part going
    · exact .inr (part.settled settled)

/-- An expression that begins with the last token before the end, a name, ends there. -/
theorem Reads.settled_of_name {depth : Nat} (h : Reads endOfFile (.expression depth) r tree r')
    (hd : ¬maxNestingDepth ≤ depth) (hk : r.kind = .identifier) (hr : r.advance.rest = [])
    (hs : r.secondKind = .endOfFile) (hreported : r.reported = []) : r'.Settled := by
  have settled : r.advance.Settled := ⟨hr, .inl (by rw [State.advance_reported]; exact hreported)⟩
  cases h with
  | tooDeep hd' => exact absurd hd' hd
  | assignment _ h =>
    rw [hs] at h
    cases h.2
  | operation _ _ hb =>
    cases hb with
    | unary h | unaryTooDeep h =>
      rw [hk] at h
      exact absurd rfl h.1
    | operand _ hl ho =>
      cases hl with
      | parenthesized h =>
        rw [hk] at h
        cases h
      | literal h =>
        rw [hk] at h
        rcases h with h | h | h | h <;> cases h
      | call h =>
        rw [hs] at h
        cases h.2
      | name _ _ _ hi =>
        cases hi with
        | found => exact ho.settled settled
        | absent h => exact absurd hk h

namespace Follows

variable {depth parent : Nat} {left : Expression} {w₁ w₂ : State}

/-! ### Expressions -/

theorem found {kind : Kind} (h : w.kind = kind) : Follows later (.token kind) w w.advance := by
  refine .of_going fun alike part going => ?_
  cases alike
  cases part with
  | found => exact going.advance
  | absent h' => exact absurd (going.kind ▸ h) h'

theorem assignment (hd : ¬maxNestingDepth ≤ depth)
    (h : w.kind = .identifier ∧ w.secondKind = .equals)
    (hv : Follows later (.expression (depth + 1)) w.advance.advance w') :
    Follows later (.expression depth) w w' := by
  refine .of_going fun alike part going => ?_
  cases alike
  have hk := going.kind
  cases part with
  | tooDeep hd' => exact absurd hd' hd
  | assignment _ h' hv' =>
    have second := going.advance.advance (by rw [State.kind_advance, h'.2]; decide)
    exact hv.abreast (.same _) hv' second
  | operation hd' h' hb =>
    rcases going.secondKind with ⟨hr, hs⟩ | hs
    -- The name is the last token before the end, and is taken for an operand.
    · exact .inr (Reads.settled_of_name (.operation hd' h' hb) hd (hk ▸ h.1) hr hs going.reported)
    · exact absurd (hk ▸ hs ▸ h) h'

theorem operation (hd : ¬maxNestingDepth ≤ depth)
    (h : ¬(w.kind = .identifier ∧ w.secondKind = .equals))
    (hb : Follows later (.binary (depth + 1) 0) w w') : Follows later (.expression depth) w w' := by
  refine .of_going fun alike part going => ?_
  cases alike
  have hk := going.kind
  cases part with
  | tooDeep hd' => exact absurd hd' hd
  | assignment _ h' =>
    rcases going.secondKind with ⟨-, hs⟩ | hs
    · rw [hs] at h'
      cases h'.2
    · exact absurd (hk ▸ hs ▸ h') h
  | operation _ _ hb' => exact hb.abreast (.same _) hb' (.inl going)

theorem unary (h : w.kind.unaryPrecedence ≠ 0 ∧ parent ≤ w.kind.unaryPrecedence)
    (hd : ¬maxNestingDepth ≤ depth)
    (ho : Follows later (.binary (depth + 1) w.kind.unaryPrecedence) w.advance w₁)
    (hr : Follows later (.operators depth parent left) w₁ w') :
    Follows later (.binary depth parent) w w' := by
  refine .of_going fun alike part going => ?_
  cases alike
  have hk := going.kind
  cases part with
  | unary _ _ ho' hr' =>
    have operand := ho.abreast (hk ▸ .same _) ho' going.advance
    exact hr.abreast (.operators _ _ _ _) hr' operand
  | unaryTooDeep _ hd' => exact absurd hd' hd
  | operand h' => exact absurd (hk ▸ h) h'

theorem operand (h : ¬(w.kind.unaryPrecedence ≠ 0 ∧ parent ≤ w.kind.unaryPrecedence))
    (hl : Follows later (.primary depth) w w₁)
    (hr : Follows later (.operators depth parent left) w₁ w') :
    Follows later (.binary depth parent) w w' := by
  refine .of_going fun alike part going => ?_
  cases alike
  cases part with
  | unary h' | unaryTooDeep h' => exact absurd (going.kind ▸ h') h
  | operand _ hl' hr' =>
    have operand := hl.abreast (.same _) hl' (.inl going)
    exact hr.abreast (.operators _ _ _ _) hr' operand

theorem enough (h : w.kind.binaryPrecedence = 0 ∨ w.kind.binaryPrecedence ≤ parent) :
    Follows later (.operators depth parent left) w w := by
  refine .of_going fun alike part going => ?_
  obtain ⟨left', rfl⟩ := alike.exists_left
  cases part with
  | enough => exact .inl going
  | binary h' => exact absurd (going.kind ▸ h) h'

theorem binary {left' : Expression}
    (h : ¬(w.kind.binaryPrecedence = 0 ∨ w.kind.binaryPrecedence ≤ parent))
    (ho : Follows later (.binary depth w.kind.binaryPrecedence) w.advance w₁)
    (hr : Follows later (.operators depth parent left') w₁ w') :
    Follows later (.operators depth parent left) w w' := by
  refine .of_going fun alike part going => ?_
  obtain ⟨_, rfl⟩ := alike.exists_left
  have hk := going.kind
  cases part with
  | enough h' => exact absurd (hk ▸ h') h
  | binary _ ho' hr' =>
    have right := ho.abreast (hk ▸ .same _) ho' going.advance
    exact hr.abreast (.operators _ _ _ _) hr' right

theorem parenthesized (h : w.kind = .openParen)
    (hi : Follows later (.expression depth) w.advance w₁)
    (hc : Follows later (.token .closeParen) w₁ w') : Follows later (.primary depth) w w' := by
  refine .of_going fun alike part going => ?_
  cases alike
  rw [going.kind] at h
  cases part with
  | parenthesized _ hi' hc' =>
    have inner := hi.abreast (.same _) hi' going.advance
    exact hc.abreast (.same _) hc' inner
  | literal h' => rcases h' with h' | h' | h' | h' <;> cases h.symm.trans h'
  | call h' => cases h.symm.trans h'.1
  | name h' => exact absurd h h'

theorem literal
    (h : w.kind = .trueKeyword ∨ w.kind = .falseKeyword ∨ w.kind = .number ∨ w.kind = .string) :
    Follows later (.primary depth) w w.advance := by
  refine .of_going fun alike part going => ?_
  cases alike
  rw [going.kind] at h
  cases part with
  | literal => exact going.advance
  | parenthesized h' => rcases h with h | h | h | h <;> cases h.symm.trans h'
  | call h' => rcases h with h | h | h | h <;> cases h.symm.trans h'.1
  | name _ h' => exact absurd h h'

theorem call (h : w.kind = .identifier ∧ w.secondKind = .openParen)
    (ha : Follows later (.arguments depth) w.advance.advance w₁)
    (hc : Follows later (.token .closeParen) w₁ w') : Follows later (.primary depth) w w' := by
  refine .of_going fun alike part going => ?_
  cases alike
  have hk := going.kind
  cases part with
  | parenthesized h' => cases (hk ▸ h.1).symm.trans h'
  | literal h' => rcases h' with h' | h' | h' | h' <;> cases (hk ▸ h.1).symm.trans h'
  | call h' ha' hc' =>
    have second := going.advance.advance (by rw [State.kind_advance, h'.2]; decide)
    have arguments := ha.abreast (.same _) ha' second
    exact hc.abreast (.same _) hc' arguments
  | name _ _ h' hi' =>
    rcases going.secondKind with ⟨hr, -⟩ | hs
    -- The name is the last token before the end, and is taken for a variable.
    · cases hi' with
      | found => exact .inr (going.settled_advance hr)
      | absent hn => exact absurd (hk ▸ h.1) hn
    · exact absurd (hk ▸ hs ▸ h) h'

theorem name (hp : w.kind ≠ .openParen)
    (hl : ¬(w.kind = .trueKeyword ∨ w.kind = .falseKeyword ∨ w.kind = .number ∨
      w.kind = .string))
    (hc : ¬(w.kind = .identifier ∧ w.secondKind = .openParen))
    (hi : Follows later (.token .identifier) w w') : Follows later (.primary depth) w w' := by
  refine .of_going fun alike part going => ?_
  cases alike
  have hk := going.kind
  cases part with
  | parenthesized h' => exact absurd (hk.trans h') hp
  | literal h' => exact absurd (hk ▸ h') hl
  | call h' =>
    rcases going.secondKind with ⟨-, hs⟩ | hs
    · cases hs.symm.trans h'.2
    · exact absurd (hk ▸ hs ▸ h') hc
  | name _ _ _ hi' => exact hi.abreast (.same _) hi' (.inl going)

theorem noArguments (h : w.kind = .closeParen ∨ w.kind = .endOfFile) :
    Follows later (.arguments depth) w w := by
  refine .of_going fun alike part going => ?_
  cases alike
  cases part with
  | noArguments => exact .inl going
  | lastArgument h' | argument h' => exact absurd (going.kind ▸ h) h'

theorem lastArgument (h : ¬(w.kind = .closeParen ∨ w.kind = .endOfFile))
    (he : Follows later (.expression depth) w w') (hk : w'.kind ≠ .comma) :
    Follows later (.arguments depth) w w' := by
  refine .of_going fun alike part going => ?_
  cases alike
  cases part with
  | noArguments h' => exact absurd (going.kind ▸ h') h
  | lastArgument _ he' => exact he.abreast (.same _) he' (.inl going)
  | argument _ he' hk' =>
    have first := he.abreast (.same _) he' (.inl going)
    exact absurd ((first.kind (by rw [hk']; decide)).trans hk') hk

theorem argument (h : ¬(w.kind = .closeParen ∨ w.kind = .endOfFile))
    (he : Follows later (.expression depth) w w₁) (hk : w₁.kind = .comma)
    (hm : Follows later (.arguments depth) w₁.advance w') :
    Follows later (.arguments depth) w w' := by
  refine .of_going fun alike part going => ?_
  cases alike
  cases part with
  | noArguments h' => exact absurd (going.kind ▸ h') h
  | lastArgument _ he' hk' =>
    rcases he.abreast (.same _) he' (.inl going) with first | settled
    · exact absurd (first.kind.symm.trans hk) hk'
    · exact .inr settled
  | argument _ he' hk' hm' =>
    have first := he.abreast (.same _) he' (.inl going)
    exact hm.abreast (.same _) hm' (first.advance (by rw [hk']; decide))

/-! ### Statements -/

theorem block (hd : ¬maxNestingDepth ≤ depth) (h : w.kind = .openBrace)
    (hs : Follows later (.statements (depth + 1)) w.advance w₁)
    (hc : Follows later (.token .closeBrace) w₁ w') : Follows later (.statement depth) w w' := by
  refine .of_going fun alike part going => ?_
  cases alike
  rw [going.kind] at h
  cases part with
  | statementTooDeep hd' => exact absurd hd' hd
  | block _ _ hs' hc' =>
    have statements := hs.abreast (.same _) hs' going.advance
    exact hc.abreast (.same _) hc' statements
  | «variable» _ h' => rcases h' with h' | h' <;> cases h.symm.trans h'
  | conditionalElse _ h' | conditional _ h' | loop _ h' | returnNothing _ h' | «return» _ h' =>
    cases h.symm.trans h'
  | expression _ h' => exact absurd h h'

theorem «variable» (hd : ¬maxNestingDepth ≤ depth)
    (h : w.kind = .varKeyword ∨ w.kind = .letKeyword)
    (hi : Follows later (.token .identifier) w.advance w₁)
    (he : Follows later (.token .equals) w₁ w₂)
    (hv : Follows later (.expression (depth + 1)) w₂ w') :
    Follows later (.statement depth) w w' := by
  refine .of_going fun alike part going => ?_
  cases alike
  rw [going.kind] at h
  cases part with
  | statementTooDeep hd' => exact absurd hd' hd
  | «variable» _ _ hi' he' hv' =>
    have name := hi.abreast (.same _) hi' going.advance
    have equals := he.abreast (.same _) he' name
    exact hv.abreast (.same _) hv' equals
  | block _ h' | conditionalElse _ h' | conditional _ h' | loop _ h' | returnNothing _ h'
  | «return» _ h' => rcases h with h | h <;> cases h.symm.trans h'
  | expression _ _ h' => exact absurd h h'

theorem conditionalElse (hd : ¬maxNestingDepth ≤ depth) (h : w.kind = .ifKeyword)
    (hc : Follows later (.expression (depth + 1)) w.advance w₁)
    (ht : Follows later (.statement (depth + 1)) w₁ w₂) (hk : w₂.kind = .elseKeyword)
    (he : Follows later (.statement (depth + 1)) w₂.advance w') :
    Follows later (.statement depth) w w' := by
  refine .of_going fun alike part going => ?_
  cases alike
  rw [going.kind] at h
  cases part with
  | statementTooDeep hd' => exact absurd hd' hd
  | conditionalElse _ _ hc' ht' hk' he' =>
    have condition := hc.abreast (.same _) hc' going.advance
    have branch := ht.abreast (.same _) ht' condition
    exact he.abreast (.same _) he' (branch.advance (by rw [hk']; decide))
  | conditional _ _ hc' ht' hk' =>
    have condition := hc.abreast (.same _) hc' going.advance
    rcases ht.abreast (.same _) ht' condition with branch | settled
    · exact absurd (branch.kind.symm.trans hk) hk'
    · exact .inr settled
  | «variable» _ h' => rcases h' with h' | h' <;> cases h.symm.trans h'
  | block _ h' | loop _ h' | returnNothing _ h' | «return» _ h' => cases h.symm.trans h'
  | expression _ _ _ h' => exact absurd h h'

theorem conditional (hd : ¬maxNestingDepth ≤ depth) (h : w.kind = .ifKeyword)
    (hc : Follows later (.expression (depth + 1)) w.advance w₁)
    (ht : Follows later (.statement (depth + 1)) w₁ w') (hk : w'.kind ≠ .elseKeyword) :
    Follows later (.statement depth) w w' := by
  refine .of_going fun alike part going => ?_
  cases alike
  rw [going.kind] at h
  cases part with
  | statementTooDeep hd' => exact absurd hd' hd
  | conditionalElse _ _ hc' ht' hk' =>
    have condition := hc.abreast (.same _) hc' going.advance
    have branch := ht.abreast (.same _) ht' condition
    exact absurd ((branch.kind (by rw [hk']; decide)).trans hk') hk
  | conditional _ _ hc' ht' =>
    have condition := hc.abreast (.same _) hc' going.advance
    exact ht.abreast (.same _) ht' condition
  | «variable» _ h' => rcases h' with h' | h' <;> cases h.symm.trans h'
  | block _ h' | loop _ h' | returnNothing _ h' | «return» _ h' => cases h.symm.trans h'
  | expression _ _ _ h' => exact absurd h h'

theorem loop (hd : ¬maxNestingDepth ≤ depth) (h : w.kind = .whileKeyword)
    (hc : Follows later (.expression (depth + 1)) w.advance w₁)
    (hb : Follows later (.statement (depth + 1)) w₁ w') :
    Follows later (.statement depth) w w' := by
  refine .of_going fun alike part going => ?_
  cases alike
  rw [going.kind] at h
  cases part with
  | statementTooDeep hd' => exact absurd hd' hd
  | loop _ _ hc' hb' =>
    have condition := hc.abreast (.same _) hc' going.advance
    exact hb.abreast (.same _) hb' condition
  | «variable» _ h' => rcases h' with h' | h' <;> cases h.symm.trans h'
  | block _ h' | conditionalElse _ h' | conditional _ h' | returnNothing _ h' | «return» _ h' =>
    cases h.symm.trans h'
  | expression _ _ _ _ h' => exact absurd h h'

theorem returnNothing (hd : ¬maxNestingDepth ≤ depth) (h : w.kind = .returnKeyword)
    (hk : w.secondKind = .closeBrace ∨ w.secondKind = .endOfFile) :
    Follows later (.statement depth) w w.advance := by
  refine .of_going fun alike part going => ?_
  cases alike
  rw [going.kind] at h
  cases part with
  | statementTooDeep hd' => exact absurd hd' hd
  | returnNothing => exact going.advance
  | «return» _ _ hk' =>
    rcases going.secondKind with ⟨-, hs⟩ | hs
    · exact absurd (.inr hs) hk'
    · exact absurd (hs ▸ hk) hk'
  | «variable» _ h' => rcases h' with h' | h' <;> cases h.symm.trans h'
  | block _ h' | conditionalElse _ h' | conditional _ h' | loop _ h' => cases h.symm.trans h'
  | expression _ _ _ _ _ h' => exact absurd h h'

theorem «return» (hd : ¬maxNestingDepth ≤ depth) (h : w.kind = .returnKeyword)
    (hk : ¬(w.secondKind = .closeBrace ∨ w.secondKind = .endOfFile))
    (hv : Follows later (.expression (depth + 1)) w.advance w') :
    Follows later (.statement depth) w w' := by
  refine .of_going fun alike part going => ?_
  cases alike
  rw [going.kind] at h
  cases part with
  | statementTooDeep hd' => exact absurd hd' hd
  | returnNothing _ _ hk' =>
    rcases going.secondKind with ⟨hr, -⟩ | hs
    -- The keyword is the last token before the end, so no value is read.
    · exact .inr (going.settled_advance hr)
    · exact absurd (hs ▸ hk') hk
  | «return» _ _ _ hv' => exact hv.abreast (.same _) hv' going.advance
  | «variable» _ h' => rcases h' with h' | h' <;> cases h.symm.trans h'
  | block _ h' | conditionalElse _ h' | conditional _ h' | loop _ h' => cases h.symm.trans h'
  | expression _ _ _ _ _ h' => exact absurd h h'

theorem expression (hd : ¬maxNestingDepth ≤ depth) (hb : w.kind ≠ .openBrace)
    (hv : ¬(w.kind = .varKeyword ∨ w.kind = .letKeyword)) (hi : w.kind ≠ .ifKeyword)
    (hl : w.kind ≠ .whileKeyword) (hr : w.kind ≠ .returnKeyword)
    (he : Follows later (.expression (depth + 1)) w w') :
    Follows later (.statement depth) w w' := by
  refine .of_going fun alike part going => ?_
  cases alike
  rw [going.kind] at hb hv hi hl hr
  cases part with
  | statementTooDeep hd' => exact absurd hd' hd
  | block _ h' => exact absurd h' hb
  | «variable» _ h' => exact absurd h' hv
  | conditionalElse _ h' | conditional _ h' => exact absurd h' hi
  | loop _ h' => exact absurd h' hl
  | returnNothing _ h' | «return» _ h' => exact absurd h' hr
  | expression _ _ _ _ _ _ he' => exact he.abreast (.same _) he' (.inl going)

theorem noStatements (h : w.kind = .closeBrace ∨ w.kind = .endOfFile) :
    Follows later (.statements depth) w w := by
  refine .of_going fun alike part going => ?_
  cases alike
  cases part with
  | noStatements => exact .inl going
  | statements h' => exact absurd (going.kind ▸ h) h'

theorem statements (h : ¬(w.kind = .closeBrace ∨ w.kind = .endOfFile))
    (hf : Follows later (.statement depth) w w₁)
    (hm : Follows later (.statements depth) (w.skipIfStuck w₁) w') :
    Follows later (.statements depth) w w' := by
  refine .of_going fun alike part going => ?_
  cases alike
  cases part with
  | noStatements h' => exact absurd (going.kind ▸ h') h
  | statements _ hf' hm' =>
    have first := hf.abreast (.same _) hf' (.inl going)
    exact hm.abreast (.same _) hm' (first.skipIfStuck going)

/-! ### Functions and members -/

theorem noParameters (h : w.kind = .closeParen ∨ w.kind = .endOfFile) :
    Follows later .parameters w w := by
  refine .of_going fun alike part going => ?_
  cases alike
  cases part with
  | noParameters => exact .inl going
  | lastParameter h' | parameter h' => exact absurd (going.kind ▸ h) h'

theorem lastParameter (h : ¬(w.kind = .closeParen ∨ w.kind = .endOfFile))
    (hi : Follows later (.token .identifier) w w') (hk : w'.kind ≠ .comma) :
    Follows later .parameters w w' := by
  refine .of_going fun alike part going => ?_
  cases alike
  cases part with
  | noParameters h' => exact absurd (going.kind ▸ h') h
  | lastParameter _ hi' => exact hi.abreast (.same _) hi' (.inl going)
  | parameter _ hi' hk' =>
    have first := hi.abreast (.same _) hi' (.inl going)
    exact absurd ((first.kind (by rw [hk']; decide)).trans hk') hk

theorem parameter (h : ¬(w.kind = .closeParen ∨ w.kind = .endOfFile))
    (hi : Follows later (.token .identifier) w w₁) (hk : w₁.kind = .comma)
    (hm : Follows later .parameters w₁.advance w') : Follows later .parameters w w' := by
  refine .of_going fun alike part going => ?_
  cases alike
  cases part with
  | noParameters h' => exact absurd (going.kind ▸ h') h
  | lastParameter _ hi' hk' =>
    rcases hi.abreast (.same _) hi' (.inl going) with first | settled
    · exact absurd (first.kind.symm.trans hk) hk'
    · exact .inr settled
  | parameter _ hi' hk' hm' =>
    have first := hi.abreast (.same _) hi' (.inl going)
    exact hm.abreast (.same _) hm' (first.advance (by rw [hk']; decide))

theorem functionMember (h : w.kind = .functionKeyword) (hf : Follows later .function w w') :
    Follows later .member w w' := by
  refine .of_going fun alike part going => ?_
  cases alike
  cases part with
  | functionMember _ hf' => exact hf.abreast (.same _) hf' (.inl going)
  | statementMember h' => exact absurd (going.kind ▸ h) h'

theorem statementMember (h : w.kind ≠ .functionKeyword)
    (hs : Follows later (.statement 0) w w') : Follows later .member w w' := by
  refine .of_going fun alike part going => ?_
  cases alike
  cases part with
  | functionMember h' => exact absurd (going.kind ▸ h') h
  | statementMember _ hs' => exact hs.abreast (.same _) hs' (.inl going)

end Follows

/-- What one goal keeps: if the parser on all the tokens reads it without a report, the parser on
the first of them stays abreast. -/
theorem Reads.follows (whole : Reads endOfFile goal w tree w') (hw : w'.reported = []) :
    Follows later goal w w' := by
  induction whole with
  | absent | tooDeep | statementTooDeep => exact absurd hw (List.cons_ne_nil _ _)
  | unaryTooDeep _ _ hr => exact absurd (hr.reported_eq_nil hw) (List.cons_ne_nil _ _)
  | found _ h => exact .found h
  -- expressions
  | assignment hd h _ ih => exact .assignment hd h (ih hw)
  | operation hd h _ ih => exact .operation hd h (ih hw)
  | unary h hd _ hr ihOperand ihRest =>
    exact .unary h hd (ihOperand (hr.reported_eq_nil hw)) (ihRest hw)
  | operand h _ hr ihLeft ihRest =>
    exact .operand h (ihLeft (hr.reported_eq_nil hw)) (ihRest hw)
  | enough h => exact .enough h
  | binary h _ hr ihRight ihRest =>
    exact .binary h (ihRight (hr.reported_eq_nil hw)) (ihRest hw)
  | parenthesized h _ hc ihInner ihClosing =>
    exact .parenthesized h (ihInner (hc.reported_eq_nil hw)) (ihClosing hw)
  | literal h => exact .literal h
  | call h _ hc ihArguments ihClosing =>
    exact .call h (ihArguments (hc.reported_eq_nil hw)) (ihClosing hw)
  | name hp hl hc _ ih => exact .name hp hl hc (ih hw)
  | noArguments h => exact .noArguments h
  | lastArgument h _ hk ih => exact .lastArgument h (ih hw) hk
  | argument h _ hk hm ihFirst ihMore =>
    exact .argument h (ihFirst (by simpa using hm.reported_eq_nil hw)) hk (ihMore hw)
  -- statements
  | block hd h _ hc ihStatements ihClosing =>
    exact .block hd h (ihStatements (hc.reported_eq_nil hw)) (ihClosing hw)
  | «variable» hd h _ he hv ihName ihEquals ihValue =>
    have hw₂ := hv.reported_eq_nil hw
    exact .variable hd h (ihName (he.reported_eq_nil hw₂)) (ihEquals hw₂) (ihValue hw)
  | conditionalElse hd h _ ht hk he ihCondition ihThen ihElse =>
    have hw₂ := by simpa using he.reported_eq_nil hw
    exact .conditionalElse hd h (ihCondition (ht.reported_eq_nil hw₂)) (ihThen hw₂) hk (ihElse hw)
  | conditional hd h _ ht hk ihCondition ihThen =>
    exact .conditional hd h (ihCondition (ht.reported_eq_nil hw)) (ihThen hw) hk
  | loop hd h _ hb ihCondition ihBody =>
    exact .loop hd h (ihCondition (hb.reported_eq_nil hw)) (ihBody hw)
  | returnNothing hd h hk => exact .returnNothing hd h hk
  | «return» hd h hk _ ih => exact .return hd h hk (ih hw)
  | expression hd hb hv hi hl hr _ ih => exact .expression hd hb hv hi hl hr (ih hw)
  | noStatements h => exact .noStatements h
  | statements h _ hm ihFirst ihMore =>
    exact .statements h (ihFirst (by simpa using hm.reported_eq_nil hw)) (ihMore hw)
  -- functions and members
  | noParameters h => exact .noParameters h
  | lastParameter h _ hk ih => exact .lastParameter h (ih hw) hk
  | parameter h _ hk hm ihFirst ihMore =>
    exact .parameter h (ihFirst (by simpa using hm.reported_eq_nil hw)) hk (ihMore hw)
  | function _ hi ho hp hc hb hs he ih₁ ih₂ ih₃ ih₄ ih₅ ih₆ ih₇ ih₈ =>
    refine .of_going fun alike part going => ?_
    cases alike
    have h₇ := he.reported_eq_nil hw
    have h₆ := hs.reported_eq_nil h₇
    have h₅ := hb.reported_eq_nil h₆
    have h₄ := hc.reported_eq_nil h₅
    have h₃ := hp.reported_eq_nil h₄
    have h₂ := ho.reported_eq_nil h₃
    cases part with
    | function hk' hi' ho' hp' hc' hb' hs' he' =>
      have a₁ := (ih₁ (hi.reported_eq_nil h₂)).abreast (.same _) hk' (.inl going)
      have a₂ := (ih₂ h₂).abreast (.same _) hi' a₁
      have a₃ := (ih₃ h₃).abreast (.same _) ho' a₂
      have a₄ := (ih₄ h₄).abreast (.same _) hp' a₃
      have a₅ := (ih₅ h₅).abreast (.same _) hc' a₄
      have a₆ := (ih₆ h₆).abreast (.same _) hb' a₅
      have a₇ := (ih₇ h₇).abreast (.same _) hs' a₆
      exact (ih₈ hw).abreast (.same _) he' a₇
  | functionMember h _ ih => exact .functionMember h (ih hw)
  | statementMember h _ ih => exact .statementMember h (ih hw)

/-- If all the tokens are parsed without a report, parsing the first of them reports nothing, or the
last token of the last member is missing. -/
theorem parseMembers_abreast {lastToken : Option Token} (lastToken' : Option Token)
    (going : Going later w r) (hw : (parseMembers endOfFile lastToken w).2.2.reported = []) :
    (parseMembers endOfFile' lastToken' r).2.2.reported = [] ∨
      ∃ token, (parseMembers endOfFile' lastToken' r).2.1 = some token ∧ token.missing = true := by
  induction lastToken, w using parseMembers.induct endOfFile generalizing lastToken' r with
  | case1 lastToken w hr =>
    have hnil := going.rest
    rw [hr] at hnil
    exact absurd (List.append_eq_nil_iff.1 hnil.symm).1 going.ne_nil
  | case2 lastToken w hr member w₁ le hm _ _ _ _ _ ih =>
    obtain ⟨rfl, rfl⟩ := Parsed.parts hm
    rw [parseMembers, dif_neg hr] at hw
    have hw₁ := (written_parseMembers _ _ hw).1
    rw [State.skipIfStuck_reported] at hw₁
    rw [parseMembers, dif_neg going.ne_nil]
    dsimp only
    have first : Abreast later (parseMember endOfFile w).state (parseMember endOfFile' r).state :=
      ((reads_member endOfFile w).follows hw₁).abreast (.same _) (reads_member endOfFile' r)
        (.inl going)
    rcases first.skipIfStuck going with again | settled
    · exact ih _ again hw
    -- Nothing is left, so this member was the last one.
    rw [parseMembers, dif_pos settled.rest]
    rcases first with first | first
    · exact .inl (by rw [State.skipIfStuck_reported]; exact first.reported)
    · rw [first.skipIfStuck]
      exact first.last

/-! ## Missing tokens are reported -/

/-- The tokens that are left are there; and so is the last one, if nothing was reported. -/
structure State.Honest (s : State) : Prop where
  rest : ∀ token ∈ s.rest, token.missing = false
  last : s.reported = [] → ∀ token, s.last = some token → token.missing = false

namespace State.Honest

theorem advance (h : s.Honest) : s.advance.Honest := by
  unfold State.advance
  split
  · exact h
  · rename_i token rest hr
    refine ⟨fun other ho => h.rest other (by rw [hr]; exact List.mem_cons_of_mem _ ho), ?_⟩
    intro _ other ho
    obtain rfl := Option.some.inj ho
    exact h.rest token (by rw [hr]; exact List.mem_cons_self)

theorem skipIfStuck (h : s.Honest) (start : State) : (start.skipIfStuck s).Honest := by
  unfold State.skipIfStuck
  split
  · exact h.advance
  · exact h

theorem synthesize (h : s.Honest) (problem : Problem) (kind : Kind) :
    (synthesize endOfFile problem kind s).state.Honest :=
  ⟨h.rest, fun hr => absurd hr (List.cons_ne_nil _ _)⟩

end State.Honest

theorem Reads.honest (h : Reads endOfFile goal s tree s') (hs : s.Honest) : s'.Honest := by
  induction h with
  | found | literal | returnNothing => exact hs.advance
  | absent | tooDeep | statementTooDeep => exact hs.synthesize _ _
  | enough | noArguments | noStatements | noParameters => exact hs
  | assignment _ _ _ ih => exact ih hs.advance.advance
  | «return» _ _ _ _ ih => exact ih hs.advance
  | operation _ _ _ ih | name _ _ _ _ ih | lastArgument _ _ _ ih | lastParameter _ _ _ ih
  | expression _ _ _ _ _ _ _ ih | functionMember _ _ ih | statementMember _ _ ih => exact ih hs
  | unaryTooDeep _ _ _ ih => exact ih (hs.advance.synthesize _ _)
  | unary _ _ _ _ ih₁ ih₂ | parenthesized _ _ _ ih₁ ih₂ | binary _ _ _ ih₁ ih₂
  | block _ _ _ _ ih₁ ih₂ | conditional _ _ _ _ _ ih₁ ih₂ | loop _ _ _ _ ih₁ ih₂ =>
    exact ih₂ (ih₁ hs.advance)
  | call _ _ _ ih₁ ih₂ => exact ih₂ (ih₁ hs.advance.advance)
  | operand _ _ _ ih₁ ih₂ => exact ih₂ (ih₁ hs)
  | argument _ _ _ _ ih₁ ih₂ | parameter _ _ _ _ ih₁ ih₂ => exact ih₂ (ih₁ hs).advance
  | statements _ _ _ ih₁ ih₂ => exact ih₂ ((ih₁ hs).skipIfStuck _)
  | «variable» _ _ _ _ _ ih₁ ih₂ ih₃ => exact ih₃ (ih₂ (ih₁ hs.advance))
  | conditionalElse _ _ _ _ _ _ ih₁ ih₂ ih₃ => exact ih₃ (ih₂ (ih₁ hs.advance)).advance
  | function _ _ _ _ _ _ _ _ ih₁ ih₂ ih₃ ih₄ ih₅ ih₆ ih₇ ih₈ =>
    exact ih₈ (ih₇ (ih₆ (ih₅ (ih₄ (ih₃ (ih₂ (ih₁ hs)))))))

/-- If nothing was reported, the last token of the last member is there. -/
theorem parseMembers_honest {lastToken : Option Token} (honest : s.Honest)
    (hlast : ∀ token, lastToken = some token → token.missing = false)
    (h : (parseMembers endOfFile lastToken s).2.2.reported = []) :
    ∀ token, (parseMembers endOfFile lastToken s).2.1 = some token → token.missing = false := by
  induction lastToken, s using parseMembers.induct endOfFile with
  | case1 lastToken s hr =>
    rw [parseMembers, dif_pos hr]
    exact hlast
  | case2 lastToken s hr member s₁ le hm _ _ _ _ _ ih =>
    obtain ⟨rfl, rfl⟩ := Parsed.parts hm
    rw [parseMembers, dif_neg hr] at h ⊢
    have hs₁ := (written_parseMembers _ _ h).1
    rw [State.skipIfStuck_reported] at hs₁
    have first := (reads_member endOfFile s).honest honest
    exact ih (first.skipIfStuck s) (first.last hs₁) h

end ReplayShell.Syntax
