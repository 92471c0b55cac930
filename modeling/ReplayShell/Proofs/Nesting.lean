import ReplayShell.Proofs.Printing

/-!
# How deep trees are

The parser counts the levels that it descends. It does not descend to read the operators after an
operand, so that their left operands may nest without a limit.

* `Descent` is a way down from the root of a tree; it counts the nodes on the way, and the operators
  at which it goes on to the left.
* `Tree.Within`: no way down passes more nodes than a bound, each step to the left given one more.
* `Reads.within`: so it is of whatever the parser reads, with a bound that falls by six for each
  level. Only five operators can follow one another to the right.
* `sum` writes a sum of ones. `parse_sumText`: it nests to the left as often as one likes.
* `nesting_bounded` gives the bound for any text, and when it is eight for each level.
-/
namespace ReplayShell.Syntax

/-- A way from the root of a tree down to some statement or expression: how many of them it passes,
this one included, and how often it goes on to a left operand. -/
inductive Descent : Tree → (nodes lefts : Nat) → Prop
  -- expressions
  | expression (here : Expression) : Descent (.expression here) 1 0
  | assignment {identifier : Token} {value : Expression} {nodes lefts : Nat}
      (h : Descent (.expression value) nodes lefts) :
      Descent (.expression (.assignment identifier value)) (nodes + 1) lefts
  | unary {operator : Token} {operand : Expression} {nodes lefts : Nat}
      (h : Descent (.expression operand) nodes lefts) :
      Descent (.expression (.unary operator operand)) (nodes + 1) lefts
  | left {left right : Expression} {operator : Token} {nodes lefts : Nat}
      (h : Descent (.expression left) nodes lefts) :
      Descent (.expression (.binary left operator right)) (nodes + 1) (lefts + 1)
  | right {left right : Expression} {operator : Token} {nodes lefts : Nat}
      (h : Descent (.expression right) nodes lefts) :
      Descent (.expression (.binary left operator right)) (nodes + 1) lefts
  | parenthesized {opening closing : Token} {inner : Expression} {nodes lefts : Nat}
      (h : Descent (.expression inner) nodes lefts) :
      Descent (.expression (.parenthesized opening inner closing)) (nodes + 1) lefts
  | argument {identifier closing : Token} {arguments : List Expression} {nodes lefts : Nat}
      (h : Descent (.expressions arguments) nodes lefts) :
      Descent (.expression (.call identifier arguments closing)) (nodes + 1) lefts
  | firstExpression {first : Expression} {more : List Expression} {nodes lefts : Nat}
      (h : Descent (.expression first) nodes lefts) :
      Descent (.expressions (first :: more)) nodes lefts
  | moreExpressions {first : Expression} {more : List Expression} {nodes lefts : Nat}
      (h : Descent (.expressions more) nodes lefts) :
      Descent (.expressions (first :: more)) nodes lefts
  -- statements
  | statement (here : Statement) : Descent (.statement here) 1 0
  | block {opening closing : Token} {statements : List Statement} {nodes lefts : Nat}
      (h : Descent (.statements statements) nodes lefts) :
      Descent (.statement (.block opening statements closing)) (nodes + 1) lefts
  | initializer {keyword identifier : Token} {initializer : Expression} {nodes lefts : Nat}
      (h : Descent (.expression initializer) nodes lefts) :
      Descent (.statement (.variable keyword identifier initializer)) (nodes + 1) lefts
  | condition {keyword : Token} {condition : Expression} {thenBranch : Statement}
      {elseBranch : Option Statement} {nodes lefts : Nat}
      (h : Descent (.expression condition) nodes lefts) :
      Descent (.statement (.conditional keyword condition thenBranch elseBranch)) (nodes + 1) lefts
  | thenBranch {keyword : Token} {condition : Expression} {thenBranch : Statement}
      {elseBranch : Option Statement} {nodes lefts : Nat}
      (h : Descent (.statement thenBranch) nodes lefts) :
      Descent (.statement (.conditional keyword condition thenBranch elseBranch)) (nodes + 1) lefts
  | elseBranch {keyword : Token} {condition : Expression} {thenBranch elseBranch : Statement}
      {nodes lefts : Nat} (h : Descent (.statement elseBranch) nodes lefts) :
      Descent (.statement (.conditional keyword condition thenBranch (some elseBranch)))
        (nodes + 1) lefts
  | loopCondition {keyword : Token} {condition : Expression} {body : Statement} {nodes lefts : Nat}
      (h : Descent (.expression condition) nodes lefts) :
      Descent (.statement (.loop keyword condition body)) (nodes + 1) lefts
  | loopBody {keyword : Token} {condition : Expression} {body : Statement} {nodes lefts : Nat}
      (h : Descent (.statement body) nodes lefts) :
      Descent (.statement (.loop keyword condition body)) (nodes + 1) lefts
  | returned {keyword : Token} {value : Expression} {nodes lefts : Nat}
      (h : Descent (.expression value) nodes lefts) :
      Descent (.statement (.return keyword (some value))) (nodes + 1) lefts
  | evaluated {evaluated : Expression} {nodes lefts : Nat}
      (h : Descent (.expression evaluated) nodes lefts) :
      Descent (.statement (.expression evaluated)) (nodes + 1) lefts
  | firstStatement {first : Statement} {more : List Statement} {nodes lefts : Nat}
      (h : Descent (.statement first) nodes lefts) :
      Descent (.statements (first :: more)) nodes lefts
  | moreStatements {first : Statement} {more : List Statement} {nodes lefts : Nat}
      (h : Descent (.statements more) nodes lefts) :
      Descent (.statements (first :: more)) nodes lefts
  -- members
  | body {declaration : FunctionDeclaration} {nodes lefts : Nat}
      (h : Descent (.statements declaration.body) nodes lefts) :
      Descent (.function declaration) nodes lefts
  | functionMember {declaration : FunctionDeclaration} {nodes lefts : Nat}
      (h : Descent (.function declaration) nodes lefts) :
      Descent (.member (.function declaration)) nodes lefts
  | statementMember {statement : Statement} {nodes lefts : Nat}
      (h : Descent (.statement statement) nodes lefts) :
      Descent (.member (.statement statement)) nodes lefts
  | member {member : Member} {members : List Member} {nodes lefts : Nat} (hm : member ∈ members)
      (h : Descent (.member member) nodes lefts) : Descent (.members members) nodes lefts

/-- No way down passes more nodes than the bound, if each step to the left is given one more. -/
def Tree.Within (bound : Nat) (tree : Tree) : Prop :=
  ∀ nodes lefts, Descent tree nodes lefts → nodes ≤ bound + lefts

/-! ## One rule for each form -/

namespace Tree.Within

variable {bound wider : Nat} {tree : Tree}
  {read identifier operator opening closing keyword : Token}
  {value operand left right inner condition first initializer : Expression}
  {more : List Expression} {outer thenBranch elseBranch : Statement} {rest : List Statement}

theorem mono (h : tree.Within bound) (hle : bound ≤ wider) : tree.Within wider :=
  fun nodes lefts hd => (h nodes lefts hd).trans (Nat.add_le_add_right hle lefts)

theorem token : (Tree.token read).Within bound := fun _ _ h => nomatch h

theorem tokens {parameters : List Token} : (Tree.tokens parameters).Within bound :=
  fun _ _ h => nomatch h

theorem literal {value : Value} : (Tree.expression (.literal read value)).Within (bound + 1) := by
  intro _ _ h
  cases h
  omega

theorem name : (Tree.expression (.name identifier)).Within (bound + 1) := by
  intro _ _ h
  cases h
  omega

theorem assignment (hv : (Tree.expression value).Within bound) :
    (Tree.expression (.assignment identifier value)).Within (bound + 1) := by
  intro _ _ h
  cases h with
  | expression => omega
  | assignment h => have := hv _ _ h; omega

theorem unary (ho : (Tree.expression operand).Within bound) :
    (Tree.expression (.unary operator operand)).Within (bound + 1) := by
  intro _ _ h
  cases h with
  | expression => omega
  | unary h => have := ho _ _ h; omega

/-- Left operands come for free. -/
theorem binary (hl : (Tree.expression left).Within (bound + 1))
    (hr : (Tree.expression right).Within bound) :
    (Tree.expression (.binary left operator right)).Within (bound + 1) := by
  intro _ _ h
  cases h with
  | expression => omega
  | left h => have := hl _ _ h; omega
  | right h => have := hr _ _ h; omega

theorem parenthesized (hi : (Tree.expression inner).Within bound) :
    (Tree.expression (.parenthesized opening inner closing)).Within (bound + 1) := by
  intro _ _ h
  cases h with
  | expression => omega
  | parenthesized h => have := hi _ _ h; omega

theorem call (ha : (Tree.expressions more).Within bound) :
    (Tree.expression (.call identifier more closing)).Within (bound + 1) := by
  intro _ _ h
  cases h with
  | expression => omega
  | argument h => have := ha _ _ h; omega

theorem noExpressions : (Tree.expressions []).Within bound := fun _ _ h => nomatch h

theorem expressions (hf : (Tree.expression first).Within bound)
    (hm : (Tree.expressions more).Within bound) :
    (Tree.expressions (first :: more)).Within bound := by
  intro _ _ h
  cases h with
  | firstExpression h => exact hf _ _ h
  | moreExpressions h => exact hm _ _ h

theorem block (hs : (Tree.statements rest).Within bound) :
    (Tree.statement (.block opening rest closing)).Within (bound + 1) := by
  intro _ _ h
  cases h with
  | statement => omega
  | block h => have := hs _ _ h; omega

theorem «variable» (hi : (Tree.expression initializer).Within bound) :
    (Tree.statement (.variable keyword identifier initializer)).Within (bound + 1) := by
  intro _ _ h
  cases h with
  | statement => omega
  | initializer h => have := hi _ _ h; omega

theorem conditional (hc : (Tree.expression condition).Within bound)
    (ht : (Tree.statement thenBranch).Within bound) :
    (Tree.statement (.conditional keyword condition thenBranch none)).Within (bound + 1) := by
  intro _ _ h
  cases h with
  | statement => omega
  | condition h => have := hc _ _ h; omega
  | thenBranch h => have := ht _ _ h; omega

theorem conditionalElse (hc : (Tree.expression condition).Within bound)
    (ht : (Tree.statement thenBranch).Within bound)
    (he : (Tree.statement elseBranch).Within bound) :
    (Tree.statement (.conditional keyword condition thenBranch (some elseBranch))).Within
      (bound + 1) := by
  intro _ _ h
  cases h with
  | statement => omega
  | condition h => have := hc _ _ h; omega
  | thenBranch h => have := ht _ _ h; omega
  | elseBranch h => have := he _ _ h; omega

theorem loop (hc : (Tree.expression condition).Within bound)
    (hb : (Tree.statement outer).Within bound) :
    (Tree.statement (.loop keyword condition outer)).Within (bound + 1) := by
  intro _ _ h
  cases h with
  | statement => omega
  | loopCondition h => have := hc _ _ h; omega
  | loopBody h => have := hb _ _ h; omega

theorem returnNothing : (Tree.statement (.return keyword none)).Within (bound + 1) := by
  intro _ _ h
  cases h
  omega

theorem «return» (hv : (Tree.expression value).Within bound) :
    (Tree.statement (.return keyword (some value))).Within (bound + 1) := by
  intro _ _ h
  cases h with
  | statement => omega
  | returned h => have := hv _ _ h; omega

theorem evaluated (he : (Tree.expression value).Within bound) :
    (Tree.statement (.expression value)).Within (bound + 1) := by
  intro _ _ h
  cases h with
  | statement => omega
  | evaluated h => have := he _ _ h; omega

theorem noStatements : (Tree.statements []).Within bound := fun _ _ h => nomatch h

theorem statements (hf : (Tree.statement outer).Within bound)
    (hm : (Tree.statements rest).Within bound) :
    (Tree.statements (outer :: rest)).Within bound := by
  intro _ _ h
  cases h with
  | firstStatement h => exact hf _ _ h
  | moreStatements h => exact hm _ _ h

theorem function {declaration : FunctionDeclaration}
    (h : (Tree.statements declaration.body).Within bound) :
    (Tree.function declaration).Within bound := by
  intro _ _ hd
  cases hd with
  | body hd => exact h _ _ hd

theorem functionMember {declaration : FunctionDeclaration}
    (h : (Tree.function declaration).Within bound) :
    (Tree.member (.function declaration)).Within bound := by
  intro _ _ hd
  cases hd with
  | functionMember hd => exact h _ _ hd

theorem statementMember (h : (Tree.statement outer).Within bound) :
    (Tree.member (.statement outer)).Within bound := by
  intro _ _ hd
  cases hd with
  | statementMember hd => exact h _ _ hd

theorem members {outers : List Member} (h : ∀ outer ∈ outers, (Tree.member outer).Within bound) :
    (Tree.members outers).Within bound := by
  intro _ _ hd
  cases hd with
  | member hm hd => exact h _ hm _ _ hd

end Tree.Within

/-! ## What the parser reads -/

/-- How deep a tree may be that is read for a goal. A level has room for one operator of each
precedence above the parent's, and for the operand at the end of them. -/
def Goal.bound : Goal → Nat
  | .expression depth | .arguments depth => 6 * (maxNestingDepth - depth) + 1
  | .binary depth parent | .operators depth parent _ =>
    5 - parent + (6 * (maxNestingDepth - depth) + 1) + 1
  | .primary depth | .statement depth | .statements depth => 6 * (maxNestingDepth - depth) + 1 + 1
  | .function | .member => 6 * maxNestingDepth + 1 + 1
  | .token _ | .parameters => 0

/-- The tree that is read keeps to the bound, if the left operand to go on from does. -/
def Goal.ReadsWithin : Goal → Tree → Prop
  | .operators depth parent left, tree =>
    (Tree.expression left).Within (bound (.operators depth parent left)) →
      tree.Within (bound (.operators depth parent left))
  | goal, tree => tree.Within goal.bound

theorem Kind.binaryPrecedence_le (kind : Kind) : kind.binaryPrecedence ≤ 5 := by
  cases kind <;> decide

/-- A level below leaves room for a node of this one. -/
theorem Goal.bound_below {depth : Nat} (hd : ¬maxNestingDepth ≤ depth) :
    (expression (depth + 1)).bound ≤ (expression depth).bound ∧
      (statement (depth + 1)).bound ≤ (expression depth).bound := by
  simp only [bound]
  omega

variable {endOfFile : Token} {goal : Goal} {tree : Tree} {s s' : State}

/-- Whatever is read keeps to the bound of its goal. -/
theorem Reads.within (h : Reads endOfFile goal s tree s') : goal.ReadsWithin tree := by
  induction h with
  | found | absent => exact .token
  | noParameters | lastParameter | parameter => exact .tokens
  | tooDeep => exact .name
  | assignment hd _ _ ih =>
    refine (Tree.Within.assignment ih).mono ?_
    simp only [Goal.bound]
    omega
  | operation hd _ _ ih =>
    refine Tree.Within.mono ih ?_
    simp only [Goal.bound]
    omega
  | unary _ hd _ _ ihOperand ihRest =>
    refine ihRest ((Tree.Within.unary ihOperand).mono ?_)
    simp only [Goal.bound]
    omega
  | unaryTooDeep _ hd _ ihRest =>
    have hn : ∀ token, (Tree.expression (.name token)).Within (0 + 1) := fun _ => .name
    refine ihRest ((Tree.Within.unary (hn _)).mono ?_)
    simp only [Goal.bound]
    omega
  | operand _ _ _ ihLeft ihRest =>
    refine ihRest (Tree.Within.mono ihLeft ?_)
    simp only [Goal.bound]
    omega
  | enough => exact fun hl => hl
  | @binary depth parent left right whole s s₁ s' h _ _ ihRight ihRest =>
    intro hl
    have hp := s.kind.binaryPrecedence_le
    refine ihRest (.binary hl (Tree.Within.mono ihRight ?_))
    simp only [Goal.bound]
    omega
  | parenthesized _ _ _ ih _ => exact .parenthesized ih
  | literal => exact .literal
  | call _ _ _ ih _ => exact .call ih
  | name => exact .name
  | noArguments => exact .noExpressions
  | lastArgument _ _ _ ih => exact .expressions ih .noExpressions
  | argument _ _ _ _ ihFirst ihMore => exact .expressions ihFirst ihMore
  | statementTooDeep => exact .evaluated .name
  | block hd _ _ _ ih _ =>
    refine (Tree.Within.block ih).mono ?_
    simp only [Goal.bound]
    omega
  | «variable» hd _ _ _ _ _ _ ih =>
    refine (Tree.Within.variable ih).mono ?_
    simp only [Goal.bound]
    omega
  | conditionalElse hd _ _ _ _ _ ihCondition ihThen ihElse =>
    obtain ⟨hv, hs⟩ := Goal.bound_below hd
    exact .conditionalElse (ihCondition.mono hv) (ihThen.mono hs) (ihElse.mono hs)
  | conditional hd _ _ _ _ ihCondition ihThen =>
    obtain ⟨hv, hs⟩ := Goal.bound_below hd
    exact .conditional (ihCondition.mono hv) (ihThen.mono hs)
  | loop hd _ _ _ ihCondition ihBody =>
    obtain ⟨hv, hs⟩ := Goal.bound_below hd
    exact .loop (ihCondition.mono hv) (ihBody.mono hs)
  | returnNothing => exact .returnNothing
  | «return» hd _ _ _ ih =>
    refine (Tree.Within.return ih).mono ?_
    simp only [Goal.bound]
    omega
  | expression hd _ _ _ _ _ _ ih =>
    refine (Tree.Within.evaluated ih).mono ?_
    simp only [Goal.bound]
    omega
  | noStatements => exact .noStatements
  | statements _ _ _ ihFirst ihMore => exact .statements ihFirst ihMore
  | function _ _ _ _ _ _ _ _ _ _ _ _ _ _ ih _ => exact .function ih
  | functionMember _ _ ih => exact .functionMember ih
  | statementMember _ _ ih => exact .statementMember ih

/-- The members of any text keep to the bound of a member. -/
theorem within_parseMembers (lastToken : Option Token) (s : State) :
    ∀ outer ∈ (parseMembers endOfFile lastToken s).1,
      (Tree.member outer).Within Goal.member.bound := by
  induction lastToken, s using parseMembers.induct endOfFile with
  | case1 lastToken s hr =>
    rw [parseMembers, dif_pos hr]
    exact List.forall_mem_nil _
  | case2 lastToken s hr member s₁ le hm _ _ _ _ _ ih =>
    obtain ⟨rfl, rfl⟩ := Parsed.parts hm
    rw [parseMembers, dif_neg hr]
    exact List.forall_mem_cons.2 ⟨(reads_member endOfFile s).within, ih⟩

/-! ## A family without a bound -/

/-- A sum of ones with as many operators. -/
def sum : Nat → Expression
  | 0 => .literal (freshToken .number "1") (.integer 1)
  | n + 1 => .binary (sum n) (freshToken .plus "+") (.literal (freshToken .number "1") (.integer 1))

/-- The tokens of the sum. -/
def sumTokens : Nat → List Token
  | 0 => [freshToken .number "1"]
  | n + 1 => sumTokens n ++ [freshToken .plus "+", freshToken .number "1"]

/-- The sum, written out. -/
def sumText (n : Nat) : String := " ".intercalate ((sumTokens n).map Token.text)

example : sumText 2 = "1 + 1 + 1" := by decide +kernel

theorem written_sum (n : Nat) : Written (.expression (sum n)) (sumTokens n) := by
  have one : Written (.expression (sum 0)) (sumTokens 0) := .literal (.inr (.inr (.inl rfl)))
  induction n with
  | zero => exact one
  | succ n ih => exact .binary ih (by decide) one

theorem spelled_sumTokens (n : Nat) : ∀ token ∈ sumTokens n, token.Spelled := by
  have hone : (freshToken .number "1").Spelled :=
    ⟨rfl, List.cons_ne_nil _ _, List.all_eq_true.1 (by decide), by decide⟩
  induction n with
  | zero => exact List.forall_mem_singleton.2 hone
  | succ n ih =>
    refine List.forall_mem_append.2 ⟨ih, List.forall_mem_cons.2 ⟨?_, ?_⟩⟩
    · exact spelled_mark (show Kind.plus.spelling ≠ "" by decide)
    · exact List.forall_mem_singleton.2 hone

theorem grouped_sum (n : Nat) : (Tree.expression (sum n)).Grouped := by
  induction n with
  | zero => exact Tree.grouped_literal
  | succ n ih =>
    refine Tree.grouped_binary.2 ⟨⟨?_, trivial⟩, ih, Tree.grouped_literal⟩
    cases n with
    | zero => trivial
    | succ n => exact Nat.le_refl _

theorem nesting_sum (n : Nat) : (sum n).nesting = 0 := by
  induction n with
  | zero => rfl
  | succ n ih => rw [sum, Expression.nesting, ih]; rfl

/-- All its operators stand one left of the other. -/
theorem descent_of_unplaced_sum {n : Nat} {expression : Expression}
    (h : expression.unplaced = (sum n).unplaced) : Descent (.expression expression) (n + 1) n := by
  induction n generalizing expression with
  | zero => exact .expression expression
  | succ n ih =>
    cases expression with
    | binary left operator right =>
      rw [sum, Expression.unplaced, Expression.unplaced] at h
      injection h with hl
      exact .left (ih hl)
    | literal | name | assignment | unary | parenthesized | call => nomatch h

/-- The parser takes a sum of any length. -/
theorem parse_sumText (n : Nat) :
    (parse (sumText n)).2 = [] ∧
      Descent (.members (parse (sumText n)).1.members) (n + 2) n := by
  obtain ⟨htokens, hfaults⟩ := scan_spaced (spelled_sumTokens n) 0
  have htext : (sumText n).toList = spaced (sumTokens n) := by
    rw [sumText, String.toList_intercalate, List.map_map]
    rfl
  rw [← htext] at htokens hfaults
  obtain ⟨hnone, read, hread, hsum⟩ := parse_of_expression htokens hfaults (written_sum n)
    (grouped_sum n) (by rw [nesting_sum]; decide)
  refine ⟨hnone, ?_⟩
  rw [hread]
  exact .member List.mem_cons_self (.statementMember (.evaluated (descent_of_unplaced_sum hsum)))

/-- **Nesting is bounded but for left operands.** A way down the tree of any text passes no more
nodes than six for each level that the parser descends, and two, and one for each step to a left
operand. So it passes no more than eight for each level, unless it takes more steps to the left than
two for each level. Such steps are not counted as levels: `parse_sumText` has any number of them. -/
theorem nesting_bounded {text : String} {nodes lefts : Nat}
    (h : Descent (.members (parse text).1.members) nodes lefts) :
    nodes ≤ 6 * maxNestingDepth + 2 + lefts ∧
      (lefts + 2 ≤ 2 * maxNestingDepth → nodes ≤ 8 * maxNestingDepth) := by
  have hbound : nodes ≤ 6 * maxNestingDepth + 2 + lefts :=
    Tree.Within.members (within_parseMembers none _) _ _ h
  exact ⟨hbound, fun hl => by omega⟩

/-- A sum with 254 operators is within the bound, one with 1023 is not. -/
theorem nesting_bounded_sums :
    (Descent (.members (parse (sumText 254)).1.members) 256 254 ∧ 256 ≤ 8 * maxNestingDepth) ∧
      Descent (.members (parse (sumText 1023)).1.members) 1025 1023 ∧
        8 * maxNestingDepth < 1025 ∧ 1025 ≤ 6 * maxNestingDepth + 2 + 1023 :=
  have hshort := (parse_sumText 254).2
  have hlong := (parse_sumText 1023).2
  ⟨⟨hshort, (nesting_bounded hshort).2 (by decide)⟩, hlong, by decide, (nesting_bounded hlong).1⟩

end ReplayShell.Syntax
