import ReplayShell.Proofs.Reading

/-!
# Reading is determined

The rules of `Reads` never compete: what they relate to a goal and a state is what the function for
the goal computes.

* `Goal.run` is the function for a goal.
* `Reads.run_eq`: the rules allow nothing but its result.
* `Reads.determined`: so a goal and a state have one tree and one state afterwards.
-/
namespace ReplayShell.Syntax

variable {endOfFile : Token} {goal : Goal} {tree other : Tree} {s s' t : State}

/-- A result with its value as a tree. -/
def Parsed.given {α : Type} (parsed : Parsed s α) (sort : α → Tree) : Tree × State :=
  (sort parsed.value, parsed.state)

/-- What the parser makes of a goal. -/
def Goal.run (endOfFile : Token) : Goal → State → Tree × State
  | .token kind, s => (expect endOfFile kind s).given .token
  | .expression depth, s => (parseExpression endOfFile depth s).given .expression
  | .binary depth parent, s => (parseBinary endOfFile depth parent s).given .expression
  | .operators depth parent left, s => (parseOperators endOfFile depth parent left s).given .expression
  | .primary depth, s => (parsePrimary endOfFile depth s).given .expression
  | .arguments depth, s => (parseArguments endOfFile depth s).given .expressions
  | .statement depth, s => (parseStatement endOfFile depth s).given .statement
  | .statements depth, s => (parseStatements endOfFile depth s).given .statements
  | .parameters, s => (parseParameters endOfFile s).given .tokens
  | .function, s => (parseFunction endOfFile s).given .function
  | .member, s => (parseMember endOfFile s).given .member

/-- The rules allow nothing but what the parser computes. -/
theorem Reads.run_eq (h : Reads endOfFile goal s tree s') : goal.run endOfFile s = (tree, s') := by
  induction h with
  | found _ h => rw [Goal.run, expect, if_pos h]; rfl
  | absent h => rw [Goal.run, expect, if_neg h]; rfl
  | tooDeep hd => rw [Goal.run, parseExpression, if_pos hd]; rfl
  | assignment hd h _ ih =>
    cases ih
    rw [Goal.run, parseExpression, if_neg hd, dif_pos h]
    rfl
  | operation hd h _ ih =>
    rw [Goal.run, parseExpression, if_neg hd, dif_neg h]
    exact ih
  | @unary depth _ s _ _ _ _ h hd _ _ ihOperand ihRest =>
    cases ihOperand
    rw [Goal.run, parseBinary, dif_pos h]
    dsimp only
    generalize hp : (if maxNestingDepth ≤ depth then Syntax.tooDeep endOfFile s.advance
      else parseBinary endOfFile (depth + 1) s.kind.unaryPrecedence s.advance) = parsed
    rw [if_neg hd] at hp
    subst hp
    exact ihRest
  | @unaryTooDeep depth _ s _ _ h hd _ ihRest =>
    rw [Goal.run, parseBinary, dif_pos h]
    dsimp only
    generalize hp : (if maxNestingDepth ≤ depth then Syntax.tooDeep endOfFile s.advance
      else parseBinary endOfFile (depth + 1) s.kind.unaryPrecedence s.advance) = parsed
    rw [if_pos hd] at hp
    subst hp
    exact ihRest
  | operand h _ _ ihLeft ihRest =>
    cases ihLeft
    rw [Goal.run, parseBinary, dif_neg h]
    exact ihRest
  | enough h => rw [Goal.run, parseOperators, dif_pos h]; rfl
  | binary h _ _ ihRight ihRest =>
    cases ihRight
    rw [Goal.run, parseOperators, dif_neg h]
    exact ihRest
  | parenthesized h _ _ ihInner ihClosing =>
    cases ihInner
    cases ihClosing
    rw [Goal.run, parsePrimary, dif_pos h]
    rfl
  | literal h =>
    rw [Goal.run, parsePrimary, dif_neg (by rcases h with h | h | h | h <;> simp [h]), if_pos h]
    rfl
  | call h _ _ ihArguments ihClosing =>
    cases ihArguments
    cases ihClosing
    rw [Goal.run, parsePrimary, dif_neg (by simp [h.1]), if_neg (by simp [h.1]), dif_pos h]
    rfl
  | name hp hl hc _ ih =>
    cases ih
    rw [Goal.run, parsePrimary, dif_neg hp, if_neg hl, dif_neg hc]
    rfl
  | noArguments h => rw [Goal.run, parseArguments, if_pos h]; rfl
  | lastArgument h _ hk ih =>
    cases ih
    rw [Goal.run, parseArguments, if_neg h]
    simp only [dif_neg hk]
    rfl
  | argument h _ hk _ ihFirst ihMore =>
    cases ihFirst
    cases ihMore
    rw [Goal.run, parseArguments, if_neg h]
    simp only [dif_pos hk]
    rfl
  | statementTooDeep hd => rw [Goal.run, parseStatement, if_pos hd]; rfl
  | block hd h _ _ ihStatements ihClosing =>
    cases ihStatements
    cases ihClosing
    rw [Goal.run, parseStatement, if_neg hd, dif_pos h]
    rfl
  | «variable» hd h _ _ _ ihName ihEquals ihValue =>
    cases ihName
    cases ihEquals
    cases ihValue
    rw [Goal.run, parseStatement, if_neg hd, dif_neg (by rcases h with h | h <;> simp [h]), if_pos h]
    rfl
  | conditionalElse hd h _ _ hk _ ihCondition ihThen ihElse =>
    cases ihCondition
    cases ihThen
    cases ihElse
    rw [Goal.run, parseStatement, if_neg hd, dif_neg (by simp [h]), if_neg (by simp [h]), dif_pos h]
    simp only [if_pos hk]
    rfl
  | conditional hd h _ _ hk ihCondition ihThen =>
    cases ihCondition
    cases ihThen
    rw [Goal.run, parseStatement, if_neg hd, dif_neg (by simp [h]), if_neg (by simp [h]), dif_pos h]
    simp only [if_neg hk]
    rfl
  | loop hd h _ _ ihCondition ihBody =>
    cases ihCondition
    cases ihBody
    rw [Goal.run, parseStatement, if_neg hd, dif_neg (by simp [h]), if_neg (by simp [h]),
      dif_neg (by simp [h]), dif_pos h]
    rfl
  | returnNothing hd h hk =>
    rw [Goal.run, parseStatement, if_neg hd, dif_neg (by simp [h]), if_neg (by simp [h]),
      dif_neg (by simp [h]), dif_neg (by simp [h]), if_pos h]
    simp only [if_pos hk]
    rfl
  | «return» hd h hk _ ih =>
    cases ih
    rw [Goal.run, parseStatement, if_neg hd, dif_neg (by simp [h]), if_neg (by simp [h]),
      dif_neg (by simp [h]), dif_neg (by simp [h]), if_pos h]
    simp only [if_neg hk]
    rfl
  | expression hd hb hv hi hw hr _ ih =>
    cases ih
    rw [Goal.run, parseStatement, if_neg hd, dif_neg hb, if_neg hv, dif_neg hi, dif_neg hw,
      if_neg hr]
    rfl
  | noStatements h => rw [Goal.run, parseStatements, dif_pos h]; rfl
  | statements h _ _ ihFirst ihMore =>
    cases ihFirst
    cases ihMore
    rw [Goal.run, parseStatements, dif_neg h]
    rfl
  | noParameters h => rw [Goal.run, parseParameters, if_pos h]; rfl
  | lastParameter h _ hk ih =>
    cases ih
    rw [Goal.run, parseParameters, if_neg h]
    simp only [dif_neg hk]
    rfl
  | parameter h _ hk _ ihFirst ihMore =>
    cases ihFirst
    cases ihMore
    rw [Goal.run, parseParameters, if_neg h]
    simp only [dif_pos hk]
    rfl
  | function _ _ _ _ _ _ _ _ ih₁ ih₂ ih₃ ih₄ ih₅ ih₆ ih₇ ih₈ =>
    cases ih₁
    cases ih₂
    cases ih₃
    cases ih₄
    cases ih₅
    cases ih₆
    cases ih₇
    cases ih₈
    rfl
  | functionMember h _ ih =>
    cases ih
    rw [Goal.run, parseMember, if_pos h]
    rfl
  | statementMember h _ ih =>
    cases ih
    rw [Goal.run, parseMember, if_neg h]
    rfl

/-- A goal and a state have one tree and one state afterwards. -/
theorem Reads.determined (h : Reads endOfFile goal s tree s') (h' : Reads endOfFile goal s other t) :
    tree = other ∧ s' = t :=
  Prod.mk.inj (h.run_eq.symm.trans h'.run_eq)

/-- The member that the rules allow is the one that the parser reads. -/
theorem Reads.parseMember_eq {outer : Member} (h : Reads endOfFile .member s (.member outer) s') :
    (parseMember endOfFile s).value = outer ∧ (parseMember endOfFile s).state = s' := by
  obtain ⟨ht, hs⟩ := (reads_member endOfFile s).determined h
  exact ⟨Tree.member.inj ht, hs⟩

end ReplayShell.Syntax
