import ReplayShell.Proofs.TreeTokens
import ReplayShell.Proofs.Readiness

/-!
# Operators are grouped by precedence

* `Expression.Grouped` says how tightly the operands of an operator bind; `Tree.Grouped` says so of
  every expression in a tree, and has an equation for each form of tree.
* `Goal.Groups` is what a part of the parser owes its caller: operators that bind more tightly than
  the parent, and a next token that does not.
* `Reads.groups`: whatever is read is grouped, reports or not.
* `parse_faithful`: a text parsed without diagnostics is its tree, token for token, and the tree is
  grouped.
-/
namespace ReplayShell.Syntax

/-- Whether the expression may stand as an operand where operators of an allowed precedence may. An
assignment may not. -/
def Expression.IsOperand (allowed : Nat → Prop) : Expression → Prop
  | .assignment _ _ => False
  | .binary _ operator _ => allowed operator.kind.binaryPrecedence
  | _ => True

theorem Expression.IsOperand.mono {allowed wider : Nat → Prop} {expression : Expression}
    (h : expression.IsOperand allowed) (hw : ∀ precedence, allowed precedence → wider precedence) :
    expression.IsOperand wider := by
  cases expression with
  | assignment => exact h
  | binary => exact hw _ h
  | literal | name | unary | parenthesized | call => trivial

/-- The operands of the expression bind tightly enough: the left operand of an operator as tightly
as the operator, its right operand more tightly, and that of a unary operator is no binary one. -/
def Expression.Grouped : Expression → Prop
  | .unary _ operand => operand.IsOperand fun _ => False
  | .binary left operator right =>
    left.IsOperand (operator.kind.binaryPrecedence ≤ ·) ∧
      right.IsOperand (operator.kind.binaryPrecedence < ·)
  | _ => True

/-- Every expression in the tree is grouped. -/
def Tree.Grouped (tree : Tree) : Prop :=
  ∀ expression, Occurs expression tree → expression.Grouped

namespace Tree

variable {token identifier opening closing keyword operator : Token} {value : Value}
  {left right inner condition : Expression} {arguments : List Expression}
  {first thenBranch elseBranch : Statement} {body more : List Statement}

/-! ## One equation for each form -/

@[simp] theorem grouped_token : (Tree.token token).Grouped := fun _ h => nomatch h

@[simp] theorem grouped_tokens {parameters : List Token} : (Tree.tokens parameters).Grouped :=
  fun _ h => nomatch h

@[simp] theorem grouped_literal : (Tree.expression (.literal token value)).Grouped := by
  intro _ h
  cases h
  trivial

@[simp] theorem grouped_name : (Tree.expression (.name identifier)).Grouped := by
  intro _ h
  cases h
  trivial

@[simp] theorem grouped_assignment :
    (Tree.expression (.assignment identifier inner)).Grouped ↔ (Tree.expression inner).Grouped := by
  refine ⟨fun h _ ho => h _ (.assignment ho), fun h _ ho => ?_⟩
  cases ho with
  | self => trivial
  | assignment ho => exact h _ ho

@[simp] theorem grouped_unary :
    (Tree.expression (.unary operator inner)).Grouped ↔
      (inner.IsOperand fun _ => False) ∧ (Tree.expression inner).Grouped := by
  refine ⟨fun h => ⟨h _ .self, fun _ ho => h _ (.unary ho)⟩, fun h _ ho => ?_⟩
  cases ho with
  | self => exact h.1
  | unary ho => exact h.2 _ ho

@[simp] theorem grouped_binary :
    (Tree.expression (.binary left operator right)).Grouped ↔
      (left.IsOperand (operator.kind.binaryPrecedence ≤ ·) ∧
        right.IsOperand (operator.kind.binaryPrecedence < ·)) ∧
      (Tree.expression left).Grouped ∧ (Tree.expression right).Grouped := by
  refine ⟨fun h => ⟨h _ .self, fun _ ho => h _ (.binaryLeft ho), fun _ ho => h _ (.binaryRight ho)⟩,
    fun h _ ho => ?_⟩
  cases ho with
  | self => exact h.1
  | binaryLeft ho => exact h.2.1 _ ho
  | binaryRight ho => exact h.2.2 _ ho

@[simp] theorem grouped_parenthesized :
    (Tree.expression (.parenthesized opening inner closing)).Grouped ↔
      (Tree.expression inner).Grouped := by
  refine ⟨fun h _ ho => h _ (.parenthesized ho), fun h _ ho => ?_⟩
  cases ho with
  | self => trivial
  | parenthesized ho => exact h _ ho

@[simp] theorem grouped_call :
    (Tree.expression (.call identifier arguments closing)).Grouped ↔
      (Tree.expressions arguments).Grouped := by
  refine ⟨fun h _ ho => h _ (.argument ho), fun h _ ho => ?_⟩
  cases ho with
  | self => trivial
  | argument ho => exact h _ ho

@[simp] theorem grouped_noExpressions : (Tree.expressions []).Grouped := fun _ h => nomatch h

@[simp] theorem grouped_expressions :
    (Tree.expressions (left :: arguments)).Grouped ↔
      (Tree.expression left).Grouped ∧ (Tree.expressions arguments).Grouped := by
  refine ⟨fun h => ⟨fun _ ho => h _ (.firstExpression ho), fun _ ho => h _ (.moreExpressions ho)⟩,
    fun h _ ho => ?_⟩
  cases ho with
  | firstExpression ho => exact h.1 _ ho
  | moreExpressions ho => exact h.2 _ ho

@[simp] theorem grouped_block :
    (Tree.statement (.block opening body closing)).Grouped ↔ (Tree.statements body).Grouped := by
  refine ⟨fun h _ ho => h _ (.block ho), fun h _ ho => ?_⟩
  cases ho with
  | block ho => exact h _ ho

@[simp] theorem grouped_variable :
    (Tree.statement (.variable keyword identifier inner)).Grouped ↔
      (Tree.expression inner).Grouped := by
  refine ⟨fun h _ ho => h _ (.initializer ho), fun h _ ho => ?_⟩
  cases ho with
  | initializer ho => exact h _ ho

@[simp] theorem grouped_conditional :
    (Tree.statement (.conditional keyword condition thenBranch none)).Grouped ↔
      (Tree.expression condition).Grouped ∧ (Tree.statement thenBranch).Grouped := by
  refine ⟨fun h => ⟨fun _ ho => h _ (.condition ho), fun _ ho => h _ (.thenBranch ho)⟩,
    fun h _ ho => ?_⟩
  cases ho with
  | condition ho => exact h.1 _ ho
  | thenBranch ho => exact h.2 _ ho

@[simp] theorem grouped_conditionalElse :
    (Tree.statement (.conditional keyword condition thenBranch (some elseBranch))).Grouped ↔
      (Tree.expression condition).Grouped ∧ (Tree.statement thenBranch).Grouped ∧
        (Tree.statement elseBranch).Grouped := by
  refine ⟨fun h => ⟨fun _ ho => h _ (.condition ho), fun _ ho => h _ (.thenBranch ho),
    fun _ ho => h _ (.elseBranch ho)⟩, fun h _ ho => ?_⟩
  cases ho with
  | condition ho => exact h.1 _ ho
  | thenBranch ho => exact h.2.1 _ ho
  | elseBranch ho => exact h.2.2 _ ho

@[simp] theorem grouped_loop :
    (Tree.statement (.loop keyword condition first)).Grouped ↔
      (Tree.expression condition).Grouped ∧ (Tree.statement first).Grouped := by
  refine ⟨fun h => ⟨fun _ ho => h _ (.loopCondition ho), fun _ ho => h _ (.loopBody ho)⟩,
    fun h _ ho => ?_⟩
  cases ho with
  | loopCondition ho => exact h.1 _ ho
  | loopBody ho => exact h.2 _ ho

@[simp] theorem grouped_returnNothing : (Tree.statement (.return keyword none)).Grouped :=
  fun _ h => nomatch h

@[simp] theorem grouped_return :
    (Tree.statement (.return keyword (some inner))).Grouped ↔ (Tree.expression inner).Grouped := by
  refine ⟨fun h _ ho => h _ (.returned ho), fun h _ ho => ?_⟩
  cases ho with
  | returned ho => exact h _ ho

@[simp] theorem grouped_expressionStatement :
    (Tree.statement (.expression inner)).Grouped ↔ (Tree.expression inner).Grouped := by
  refine ⟨fun h _ ho => h _ (.evaluated ho), fun h _ ho => ?_⟩
  cases ho with
  | evaluated ho => exact h _ ho

@[simp] theorem grouped_noStatements : (Tree.statements []).Grouped := fun _ h => nomatch h

@[simp] theorem grouped_statements :
    (Tree.statements (first :: more)).Grouped ↔
      (Tree.statement first).Grouped ∧ (Tree.statements more).Grouped := by
  refine ⟨fun h => ⟨fun _ ho => h _ (.firstStatement ho), fun _ ho => h _ (.moreStatements ho)⟩,
    fun h _ ho => ?_⟩
  cases ho with
  | firstStatement ho => exact h.1 _ ho
  | moreStatements ho => exact h.2 _ ho

@[simp] theorem grouped_function {declaration : FunctionDeclaration} :
    (Tree.function declaration).Grouped ↔ (Tree.statements declaration.body).Grouped := by
  refine ⟨fun h _ ho => h _ (.body ho), fun h _ ho => ?_⟩
  cases ho with
  | body ho => exact h _ ho

@[simp] theorem grouped_functionMember {declaration : FunctionDeclaration} :
    (Tree.member (.function declaration)).Grouped ↔ (Tree.function declaration).Grouped := by
  refine ⟨fun h _ ho => h _ (.functionMember ho), fun h _ ho => ?_⟩
  cases ho with
  | functionMember ho => exact h _ ho

@[simp] theorem grouped_statementMember :
    (Tree.member (.statement first)).Grouped ↔ (Tree.statement first).Grouped := by
  refine ⟨fun h _ ho => h _ (.statementMember ho), fun h _ ho => ?_⟩
  cases ho with
  | statementMember ho => exact h _ ho

@[simp] theorem grouped_noMembers : (Tree.members []).Grouped := by
  intro _ h
  cases h with
  | member hm => exact absurd hm List.not_mem_nil

@[simp] theorem grouped_members {outer : Member} {rest : List Member} :
    (Tree.members (outer :: rest)).Grouped ↔
      (Tree.member outer).Grouped ∧ (Tree.members rest).Grouped := by
  refine ⟨fun h => ⟨fun _ ho => h _ (.member List.mem_cons_self ho), fun _ ho => ?_⟩,
    fun h _ ho => ?_⟩
  · cases ho with
    | member hm ho => exact h _ (.member (List.mem_cons_of_mem _ hm) ho)
  · cases ho with
    | member hm ho =>
      rcases List.mem_cons.1 hm with rfl | hm
      · exact h.1 _ ho
      · exact h.2 _ (.member hm ho)

end Tree

/-! ## What the parser reads -/

/-- The tree is grouped. An operand without operators has none outside of parentheses. Operators
after an operand are read as long as they bind more tightly than the parent, so those read do, and
the next token does not; a left operand to go on from must bind as tightly as what follows it. -/
def Goal.Groups : Goal → State → Tree → State → Prop
  | .primary _, _, .expression read, _ =>
    (read.IsOperand fun _ => False) ∧ (Tree.expression read).Grouped
  | .binary _ parent, _, .expression read, after =>
    (read.IsOperand (parent < ·) ∧ after.kind.binaryPrecedence ≤ parent) ∧
      (Tree.expression read).Grouped
  | .operators _ parent left, before, .expression read, after =>
    left.IsOperand (parent < ·) → left.IsOperand (before.kind.binaryPrecedence ≤ ·) →
      (Tree.expression left).Grouped →
      (read.IsOperand (parent < ·) ∧ after.kind.binaryPrecedence ≤ parent) ∧
        (Tree.expression read).Grouped
  | _, _, tree, _ => tree.Grouped

variable {endOfFile : Token} {goal : Goal} {tree : Tree} {s s' : State}

/-- What is read where a unary operator wants its operand is no binary expression, for no binary
operator binds as tightly as a unary one. -/
theorem Expression.IsOperand.of_unary {kind : Kind} {operand : Expression}
    (hk : kind.unaryPrecedence ≠ 0) (h : operand.IsOperand (kind.unaryPrecedence < ·)) :
    operand.IsOperand fun _ => False := by
  cases operand with
  | assignment => exact h
  | binary left operator right =>
    exact absurd h (Kind.binaryPrecedence_lt_unaryPrecedence hk).asymm
  | literal | name | unary | parenthesized | call => trivial

/-- Whatever is read is grouped by precedence, whether the text has faults or not. -/
theorem Reads.groups (h : Reads endOfFile goal s tree s') : goal.Groups s tree s' := by
  induction h with
  | found | absent | noParameters | lastParameter | parameter =>
    first | exact Tree.grouped_token | exact Tree.grouped_tokens
  | tooDeep => exact Tree.grouped_name
  | statementTooDeep => exact Tree.grouped_expressionStatement.2 Tree.grouped_name
  | assignment _ _ _ ih => exact Tree.grouped_assignment.2 ih
  | operation _ _ _ ih => exact ih.2
  | unary h _ _ _ ihOperand ihRest =>
    exact ihRest trivial trivial (Tree.grouped_unary.2 ⟨.of_unary h.1 ihOperand.1.1, ihOperand.2⟩)
  | unaryTooDeep _ _ _ ih =>
    exact ih trivial trivial (Tree.grouped_unary.2 ⟨trivial, Tree.grouped_name⟩)
  | operand _ _ _ ihLeft ihRest =>
    exact ihRest (ihLeft.1.mono fun _ => False.elim) (ihLeft.1.mono fun _ => False.elim) ihLeft.2
  | @enough depth parent left s h =>
    intro hp _ hg
    refine ⟨⟨hp, ?_⟩, hg⟩
    omega
  | @binary depth parent left right whole s s₁ s' h _ _ ihRight ihRest =>
    intro _ hnext hg
    have hk : s.kind ≠ .endOfFile := fun hk => h (.inl (by rw [hk]; rfl))
    have hc : (s.current endOfFile).kind = s.kind := s.kind_current endOfFile hk
    refine ihRest ?_ ?_ (Tree.grouped_binary.2 ⟨⟨?_, ?_⟩, hg, ihRight.2⟩)
    · change parent < (s.current endOfFile).kind.binaryPrecedence
      rw [hc]
      omega
    · change s₁.kind.binaryPrecedence ≤ (s.current endOfFile).kind.binaryPrecedence
      rw [hc]
      exact ihRight.1.2
    · rwa [hc]
    · rw [hc]
      exact ihRight.1.1
  | parenthesized _ _ _ ihInner _ => exact ⟨trivial, Tree.grouped_parenthesized.2 ihInner⟩
  | literal => exact ⟨trivial, Tree.grouped_literal⟩
  | call _ _ _ ihArguments _ => exact ⟨trivial, Tree.grouped_call.2 ihArguments⟩
  | name => exact ⟨trivial, Tree.grouped_name⟩
  | noArguments => exact Tree.grouped_noExpressions
  | lastArgument _ _ _ ih => exact Tree.grouped_expressions.2 ⟨ih, Tree.grouped_noExpressions⟩
  | argument _ _ _ _ ihFirst ihMore => exact Tree.grouped_expressions.2 ⟨ihFirst, ihMore⟩
  | block _ _ _ _ ihStatements _ => exact Tree.grouped_block.2 ihStatements
  | «variable» _ _ _ _ _ _ _ ihValue => exact Tree.grouped_variable.2 ihValue
  | conditionalElse _ _ _ _ _ _ ihCondition ihThen ihElse =>
    exact Tree.grouped_conditionalElse.2 ⟨ihCondition, ihThen, ihElse⟩
  | conditional _ _ _ _ _ ihCondition ihThen =>
    exact Tree.grouped_conditional.2 ⟨ihCondition, ihThen⟩
  | loop _ _ _ _ ihCondition ihBody => exact Tree.grouped_loop.2 ⟨ihCondition, ihBody⟩
  | returnNothing => exact Tree.grouped_returnNothing
  | «return» _ _ _ _ ih => exact Tree.grouped_return.2 ih
  | expression _ _ _ _ _ _ _ ih => exact Tree.grouped_expressionStatement.2 ih
  | noStatements => exact Tree.grouped_noStatements
  | statements _ _ _ ihFirst ihMore => exact Tree.grouped_statements.2 ⟨ihFirst, ihMore⟩
  | function _ _ _ _ _ _ _ _ _ _ _ _ _ _ ihBody _ => exact Tree.grouped_function.2 ihBody
  | functionMember _ _ ih => exact Tree.grouped_functionMember.2 ih
  | statementMember _ _ ih => exact Tree.grouped_statementMember.2 ih

theorem grouped_parseMembers (lastToken : Option Token) (s : State) :
    (Tree.members (parseMembers endOfFile lastToken s).1).Grouped := by
  induction lastToken, s using parseMembers.induct endOfFile with
  | case1 lastToken s hr =>
    rw [parseMembers, dif_pos hr]
    exact Tree.grouped_noMembers
  | case2 lastToken s hr member s₁ le hm _ _ _ _ _ ih =>
    obtain ⟨rfl, rfl⟩ := Parsed.parts hm
    rw [parseMembers, dif_neg hr]
    exact Tree.grouped_members.2 ⟨(reads_member endOfFile s).groups, ih⟩

/-! ## Whole texts -/

/-- The tree of any text is grouped. -/
theorem grouped_parse (text : String) : (Tree.members (parse text).1.members).Grouped :=
  grouped_parseMembers none _

/-- The tree of a faultless text calls for its tokens, the end included. -/
theorem matches_parse {text : String} (h : (parse text).2 = []) :
    Matches (parse text).1.pieces ((tokenize text).significant ++ [(tokenize text).endOfFile]) :=
  (parse_written h).matches.append (.single _)

/-- **Parsing loses nothing.** Where a text is parsed without diagnostics, no token of its tree is
missing. The tree, with the marks that it does not keep put back, is the tokens of the text but the
trivia, each once and in order; only a comma that ends a list may be there or not. And its operators
are grouped by precedence. -/
theorem parse_faithful {text : String} (h : (parse text).2 = []) :
    (∀ token, .kept token ∈ (parse text).1.pieces → token.missing = false) ∧
      (∀ token, (parse text).1.lastToken = some token → token.missing = false) ∧
      Matches (parse text).1.pieces
        ((tokenize text).significant ++ [(tokenize text).endOfFile]) ∧
      ∀ expression, Occurs expression (.members (parse text).1.members) → expression.Grouped := by
  have hm := matches_parse h
  refine ⟨fun token ht => ?_, lastToken_of_parse h, hm, grouped_parse text⟩
  rcases List.mem_append.1 (hm.mem_of_kept ht) with hs | he
  · exact present_of_mem_significant hs
  · rw [List.mem_singleton.1 he]
    rfl

/-- Commas that end lists, an assignment in parentheses, and operators of three precedences. -/
def endingCommas : String :=
  "function f(a, b,) { return -a - (b = 2) * 3 } f(1, 2,)"

theorem parse_faithful_endingCommas :
    (parse endingCommas).2 = [] ∧
      Matches (parse endingCommas).1.pieces
        ((tokenize endingCommas).significant ++ [(tokenize endingCommas).endOfFile]) := by
  have h : (parse endingCommas).2 = [] := List.isEmpty_iff.1 (by decide +kernel)
  exact ⟨h, (parse_faithful h).2.2.1⟩

end ReplayShell.Syntax
