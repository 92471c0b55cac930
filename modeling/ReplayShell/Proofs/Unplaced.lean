import ReplayShell.Proofs.Determined

/-!
# Places do not matter to the parser

Two texts with the same tokens at different places have the same tree but for the places.

* `unplaced` takes the places out of tokens, trees, states and diagnostics.
* `Reads.unplaced`: without the places the parser reads the same tree without its places.
* `parseMembers_unplaced`: so tokens that differ in their places only give members that do.
-/
namespace ReplayShell

/-- A diagnostic without its place. -/
def Diagnostic.unplaced (diagnostic : Diagnostic) : Diagnostic :=
  { diagnostic with span := ⟨0, 0⟩ }

namespace Syntax

/-- A token without its place. -/
def Token.unplaced (token : Token) : Token := { token with span := ⟨0, 0⟩ }

mutual

/-- An expression without places. -/
def Expression.unplaced : Expression → Expression
  | .literal token value => .literal token.unplaced value
  | .name identifier => .name identifier.unplaced
  | .assignment identifier value => .assignment identifier.unplaced value.unplaced
  | .unary operator operand => .unary operator.unplaced operand.unplaced
  | .binary left operator right => .binary left.unplaced operator.unplaced right.unplaced
  | .parenthesized opening inner closing =>
    .parenthesized opening.unplaced inner.unplaced closing.unplaced
  | .call identifier arguments closing =>
    .call identifier.unplaced (unplacedExpressions arguments) closing.unplaced

/-- Expressions without places. -/
def unplacedExpressions : List Expression → List Expression
  | [] => []
  | first :: more => first.unplaced :: unplacedExpressions more

end

mutual

/-- A statement without places. -/
def Statement.unplaced : Statement → Statement
  | .block opening statements closing =>
    .block opening.unplaced (unplacedStatements statements) closing.unplaced
  | .variable keyword identifier initializer =>
    .variable keyword.unplaced identifier.unplaced initializer.unplaced
  | .conditional keyword condition thenBranch elseBranch =>
    .conditional keyword.unplaced condition.unplaced thenBranch.unplaced (unplacedElse elseBranch)
  | .loop keyword condition body => .loop keyword.unplaced condition.unplaced body.unplaced
  | .return keyword value => .return keyword.unplaced (value.map Expression.unplaced)
  | .expression expression => .expression expression.unplaced

/-- Statements without places. -/
def unplacedStatements : List Statement → List Statement
  | [] => []
  | first :: more => first.unplaced :: unplacedStatements more

/-- An else branch without places. -/
def unplacedElse : Option Statement → Option Statement
  | none => none
  | some elseBranch => some elseBranch.unplaced

end

/-- A function declaration without places. -/
def FunctionDeclaration.unplaced (declaration : FunctionDeclaration) : FunctionDeclaration where
  keyword := declaration.keyword.unplaced
  identifier := declaration.identifier.unplaced
  parameters := declaration.parameters.map Token.unplaced
  opening := declaration.opening.unplaced
  body := unplacedStatements declaration.body
  closing := declaration.closing.unplaced

/-- A member without places. -/
def Member.unplaced : Member → Member
  | .function declaration => .function declaration.unplaced
  | .statement outer => .statement outer.unplaced

/-- A whole tree without places. -/
def Submission.unplaced (submission : Submission) : Submission where
  members := submission.members.map Member.unplaced
  lastToken := submission.lastToken.map Token.unplaced
  endOfFile := submission.endOfFile.unplaced

/-- A tree of any sort without places. -/
def Tree.unplaced : Tree → Tree
  | .token read => .token read.unplaced
  | .tokens read => .tokens (read.map Token.unplaced)
  | .expression read => .expression read.unplaced
  | .expressions read => .expressions (unplacedExpressions read)
  | .statement read => .statement read.unplaced
  | .statements read => .statements (unplacedStatements read)
  | .function read => .function read.unplaced
  | .member read => .member read.unplaced
  | .members read => .members (read.map Member.unplaced)

/-- A goal without places. -/
def Goal.unplaced : Goal → Goal
  | .operators depth parent left => .operators depth parent left.unplaced
  | goal => goal

/-- A state without places. -/
def State.unplaced (s : State) : State where
  rest := s.rest.map Token.unplaced
  reported := s.reported.map Diagnostic.unplaced
  last := s.last.map Token.unplaced

/-! ## What the parser sees of a state -/

namespace State

@[simp] theorem unplaced_kind (s : State) : s.unplaced.kind = s.kind := by
  obtain ⟨rest, reported, last⟩ := s
  cases rest <;> rfl

@[simp] theorem unplaced_secondKind (s : State) : s.unplaced.secondKind = s.secondKind := by
  obtain ⟨rest, reported, last⟩ := s
  match rest with
  | [] => rfl
  | [_] => rfl
  | _ :: _ :: _ => rfl

theorem current_unplaced (endOfFile : Token) (s : State) :
    (s.current endOfFile).unplaced = s.unplaced.current endOfFile.unplaced := by
  obtain ⟨rest, reported, last⟩ := s
  cases rest <;> rfl

theorem advance_unplaced (s : State) : s.advance.unplaced = s.unplaced.advance := by
  obtain ⟨rest, reported, last⟩ := s
  cases rest <;> rfl

theorem skipIfStuck_unplaced (start s : State) :
    (start.skipIfStuck s).unplaced = start.unplaced.skipIfStuck s.unplaced := by
  have hl : ∀ s : State, s.unplaced.rest.length = s.rest.length := fun s => List.length_map _
  unfold skipIfStuck
  rw [hl, hl, apply_ite State.unplaced, advance_unplaced]

end State

@[simp] theorem Token.unplaced_kind (token : Token) : token.unplaced.kind = token.kind := rfl

variable {endOfFile : Token} {goal : Goal} {tree : Tree} {s s' : State}

/-- A missing token has no place but that of the report about it. -/
theorem synthesize_unplaced (problem : Problem) (kind : Kind) (s : State) :
    (synthesize endOfFile problem kind s).value.unplaced =
        (synthesize endOfFile.unplaced problem kind s.unplaced).value ∧
      (synthesize endOfFile problem kind s).state.unplaced =
        (synthesize endOfFile.unplaced problem kind s.unplaced).state := by
  have hc := s.current_unplaced endOfFile
  have hspan : (s.unplaced.current endOfFile.unplaced).span = ⟨0, 0⟩ := hc ▸ rfl
  constructor
  · rw [synthesize, synthesize]
    simp only [hspan]
    rfl
  · rw [synthesize, synthesize]
    simp only [hspan]
    rfl

/-! ## What the parser reads -/

/-- Without the places the parser reads the same tree without its places. -/
theorem Reads.unplaced (h : Reads endOfFile goal s tree s') :
    Reads endOfFile.unplaced goal.unplaced s.unplaced tree.unplaced s'.unplaced := by
  induction h with
  | found hk h =>
    rw [State.advance_unplaced, Tree.unplaced, State.current_unplaced]
    exact .found hk (by simpa using h)
  | absent h =>
    rw [Tree.unplaced, (synthesize_unplaced _ _ _).1, (synthesize_unplaced _ _ _).2,
      ← Token.unplaced_kind, State.current_unplaced]
    exact .absent (by simpa using h)
  | tooDeep hd =>
    rw [Tree.unplaced, Syntax.tooDeep, Expression.unplaced, (synthesize_unplaced _ _ _).1,
      (synthesize_unplaced _ _ _).2]
    exact .tooDeep hd
  | assignment hd h _ ih =>
    rw [State.advance_unplaced, State.advance_unplaced] at ih
    rw [Tree.unplaced, Expression.unplaced, State.current_unplaced]
    exact .assignment hd (by simpa using h) ih
  | operation hd h _ ih => exact .operation hd (by simpa using h) ih
  | @unary depth parent s _ _ _ _ h hd _ _ ihOperand ihRest =>
    rw [State.advance_unplaced] at ihOperand
    rw [Goal.unplaced, Expression.unplaced, State.current_unplaced] at ihRest
    rw [← State.unplaced_kind] at h
    refine .unary h hd ?_ ihRest
    rw [State.unplaced_kind]
    exact ihOperand
  | unaryTooDeep h hd _ ihRest =>
    rw [Goal.unplaced, Expression.unplaced, State.current_unplaced, Syntax.tooDeep,
      Expression.unplaced, (synthesize_unplaced _ _ _).1, (synthesize_unplaced _ _ _).2,
      State.advance_unplaced] at ihRest
    exact .unaryTooDeep (by simpa using h) hd ihRest
  | operand h _ _ ihLeft ihRest => exact .operand (by simpa using h) ihLeft ihRest
  | enough h => exact .enough (by simpa using h)
  | binary h _ _ ihRight ihRest =>
    rw [State.advance_unplaced] at ihRight
    rw [Goal.unplaced, Expression.unplaced, State.current_unplaced] at ihRest
    rw [← State.unplaced_kind] at h
    refine .binary h ?_ ihRest
    rw [State.unplaced_kind]
    exact ihRight
  | parenthesized h _ _ ihInner ihClosing =>
    rw [State.advance_unplaced] at ihInner
    rw [Tree.unplaced, Expression.unplaced, State.current_unplaced]
    exact .parenthesized (by simpa using h) ihInner ihClosing
  | @literal depth s h =>
    have hv : literalValue (s.current endOfFile) = literalValue (s.current endOfFile).unplaced := rfl
    rw [Tree.unplaced, Expression.unplaced, hv, State.current_unplaced, State.advance_unplaced]
    exact .literal (by simpa using h)
  | call h _ _ ihArguments ihClosing =>
    rw [State.advance_unplaced, State.advance_unplaced] at ihArguments
    rw [Tree.unplaced, Expression.unplaced, State.current_unplaced]
    exact .call (by simpa using h) ihArguments ihClosing
  | name hp hl hc _ ih =>
    exact .name (by simpa using hp) (by simpa using hl) (by simpa using hc) ih
  | noArguments h => exact .noArguments (by simpa using h)
  | lastArgument h _ hk ih => exact .lastArgument (by simpa using h) ih (by simpa using hk)
  | argument h _ hk _ ihFirst ihMore =>
    rw [State.advance_unplaced] at ihMore
    exact .argument (by simpa using h) ihFirst (by simpa using hk) ihMore
  | statementTooDeep hd =>
    rw [Tree.unplaced, Statement.unplaced, Syntax.tooDeep, Expression.unplaced,
      (synthesize_unplaced _ _ _).1, (synthesize_unplaced _ _ _).2]
    exact .statementTooDeep hd
  | block hd h _ _ ihStatements ihClosing =>
    rw [State.advance_unplaced] at ihStatements
    rw [Tree.unplaced, Statement.unplaced, State.current_unplaced]
    exact .block hd (by simpa using h) ihStatements ihClosing
  | «variable» hd h _ _ _ ihName ihEquals ihValue =>
    rw [State.advance_unplaced] at ihName
    rw [Tree.unplaced, Statement.unplaced, State.current_unplaced]
    exact .variable hd (by simpa using h) ihName ihEquals ihValue
  | conditionalElse hd h _ _ hk _ ihCondition ihThen ihElse =>
    rw [State.advance_unplaced] at ihCondition ihElse
    rw [Tree.unplaced, Statement.unplaced, State.current_unplaced]
    exact .conditionalElse hd (by simpa using h) ihCondition ihThen (by simpa using hk) ihElse
  | conditional hd h _ _ hk ihCondition ihThen =>
    rw [State.advance_unplaced] at ihCondition
    rw [Tree.unplaced, Statement.unplaced, State.current_unplaced]
    exact .conditional hd (by simpa using h) ihCondition ihThen (by simpa using hk)
  | loop hd h _ _ ihCondition ihBody =>
    rw [State.advance_unplaced] at ihCondition
    rw [Tree.unplaced, Statement.unplaced, State.current_unplaced]
    exact .loop hd (by simpa using h) ihCondition ihBody
  | returnNothing hd h hk =>
    rw [Tree.unplaced, Statement.unplaced, State.current_unplaced, State.advance_unplaced]
    exact .returnNothing hd (by simpa using h) (by simpa using hk)
  | «return» hd h hk _ ih =>
    rw [State.advance_unplaced] at ih
    rw [Tree.unplaced, Statement.unplaced, State.current_unplaced]
    exact .return hd (by simpa using h) (by simpa using hk) ih
  | expression hd hb hv hi hw hr _ ih =>
    exact .expression hd (by simpa using hb) (by simpa using hv) (by simpa using hi)
      (by simpa using hw) (by simpa using hr) ih
  | noStatements h => exact .noStatements (by simpa using h)
  | statements h _ _ ihFirst ihMore =>
    rw [State.skipIfStuck_unplaced] at ihMore
    exact .statements (by simpa using h) ihFirst ihMore
  | noParameters h => exact .noParameters (by simpa using h)
  | lastParameter h _ hk ih => exact .lastParameter (by simpa using h) ih (by simpa using hk)
  | parameter h _ hk _ ihFirst ihMore =>
    rw [State.advance_unplaced] at ihMore
    exact .parameter (by simpa using h) ihFirst (by simpa using hk) ihMore
  | function _ _ _ _ _ _ _ _ ih₁ ih₂ ih₃ ih₄ ih₅ ih₆ ih₇ ih₈ =>
    exact .function ih₁ ih₂ ih₃ ih₄ ih₅ ih₆ ih₇ ih₈
  | functionMember h _ ih => exact .functionMember (by simpa using h) ih
  | statementMember h _ ih => exact .statementMember (by simpa using h) ih

/-- Tokens that differ in their places only give members that do. -/
theorem parseMembers_unplaced (endOfFile : Token) (lastToken : Option Token) (s : State) :
    parseMembers endOfFile.unplaced (lastToken.map Token.unplaced) s.unplaced =
      ((parseMembers endOfFile lastToken s).1.map Member.unplaced,
        (parseMembers endOfFile lastToken s).2.1.map Token.unplaced,
        (parseMembers endOfFile lastToken s).2.2.unplaced) := by
  induction lastToken, s using parseMembers.induct endOfFile with
  | case1 lastToken s hr =>
    have hr' : s.unplaced.rest = [] := congrArg (List.map Token.unplaced) hr
    rw [parseMembers, dif_pos hr', parseMembers, dif_pos hr]
    rfl
  | case2 lastToken s hr member s₁ le hm _ _ _ _ _ ih =>
    obtain ⟨rfl, rfl⟩ := Parsed.parts hm
    have hr' : s.unplaced.rest ≠ [] := fun h => hr (List.map_eq_nil_iff.1 h)
    obtain ⟨hvalue, hstate⟩ := (reads_member endOfFile s).unplaced.parseMember_eq
    have hstep : parseMembers endOfFile lastToken s =
        ((parseMember endOfFile s).value ::
            (parseMembers endOfFile (parseMember endOfFile s).state.last
              (s.skipIfStuck (parseMember endOfFile s).state)).1,
          (parseMembers endOfFile (parseMember endOfFile s).state.last
            (s.skipIfStuck (parseMember endOfFile s).state)).2) := by
      rw [parseMembers, dif_neg hr]
    rw [parseMembers, dif_neg hr', hstep]
    simp only [hvalue, hstate, ← State.skipIfStuck_unplaced]
    have hlast : (parseMember endOfFile s).state.unplaced.last =
        (parseMember endOfFile s).state.last.map Token.unplaced := rfl
    rw [hlast, ih]
    rfl

end Syntax
end ReplayShell
