import ReplayShell.Proofs.Determined
import ReplayShell.Proofs.Grouping

/-!
# The parser finds every tree that its syntax can express

The syntax has no mark between statements, and an `else` belongs to the nearest `if`, so that not
every tree can be written down. The trees that can be are found.

* `Expression.nesting` and its companions count the levels that the parser descends.
* `Ends inner outer` says that a statement ends where another does; `Statement.Yields` says which
  token a statement leaves alone when it comes next, and `Statement.Clear` that the parts of a
  statement leave each other alone.
* `State.Starts` and `State.beyond` say what lies ahead, and where one stands behind it.
* `Written.reads`: of tokens that a grouped, clear and not too deep tree is written with, the parser
  reads just this tree.
* `parseMembers_written`: so it does of all the members of a submission.
-/
namespace ReplayShell.Syntax

/-! ## Levels -/

mutual

/-- The levels that the parser descends in an expression, from the level of its operators on. -/
def Expression.nesting : Expression → Nat
  | .literal _ _ => 0
  | .name _ => 0
  | .assignment _ value => value.nesting + 1
  | .unary _ operand => operand.nesting + 1
  | .binary left _ right => max left.nesting right.nesting
  | .parenthesized _ inner _ => inner.nesting + 1
  | .call _ arguments _ => argumentNesting arguments

/-- The levels that it descends in arguments. -/
def argumentNesting : List Expression → Nat
  | [] => 0
  | first :: more => max (first.nesting + 1) (argumentNesting more)

end

mutual

/-- The levels that the parser descends in a statement, its own included. -/
def Statement.nesting : Statement → Nat
  | .block _ statements _ => statementNesting statements + 1
  | .variable _ _ initializer => initializer.nesting + 2
  | .conditional _ condition thenBranch elseBranch =>
    max (condition.nesting + 1) (max thenBranch.nesting (elseNesting elseBranch)) + 1
  | .loop _ condition body => max (condition.nesting + 1) body.nesting + 1
  | .return _ none => 1
  | .return _ (some value) => value.nesting + 2
  | .expression expression => expression.nesting + 2

/-- The levels that it descends in statements. -/
def statementNesting : List Statement → Nat
  | [] => 0
  | first :: more => max first.nesting (statementNesting more)

/-- The levels that it descends in an else branch. -/
def elseNesting : Option Statement → Nat
  | none => 0
  | some elseBranch => elseBranch.nesting

end

/-- A statement takes a level of its own. -/
theorem Statement.nesting_pos (outer : Statement) : 0 < outer.nesting := by
  cases outer with
  | «return» _ value => cases value <;> simp [Statement.nesting]
  | _ => simp [Statement.nesting]

/-- The levels that the parser descends in a member. -/
def Member.nesting : Member → Nat
  | .function declaration => statementNesting declaration.body
  | .statement outer => outer.nesting

/-! ## Neighbours -/

/-- The first token of an expression. -/
def Expression.first : Expression → Token
  | .literal token _ => token
  | .name identifier => identifier
  | .assignment identifier _ => identifier
  | .unary operator _ => operator
  | .binary left _ _ => left.first
  | .parenthesized opening _ _ => opening
  | .call identifier _ _ => identifier

/-- The first token of a statement. -/
def Statement.first : Statement → Token
  | .block opening _ _ => opening
  | .variable keyword _ _ => keyword
  | .conditional keyword _ _ _ => keyword
  | .loop keyword _ _ => keyword
  | .return keyword _ => keyword
  | .expression evaluated => evaluated.first

/-- The first token of a member. -/
def Member.first : Member → Token
  | .function declaration => declaration.keyword
  | .statement outer => outer.first

/-- Whether a token that may start a statement is taken for a part of an expression before it. -/
def Kind.goesOn : Kind → Bool
  | .openParen | .plus | .minus => true
  | _ => false

/-- The inner statement is the outer one, or a part of it that ends where it ends. -/
inductive Ends (inner : Statement) : Statement → Prop
  | self : Ends inner inner
  | thenBranch {keyword : Token} {condition : Expression} {thenBranch : Statement}
      (h : Ends inner thenBranch) : Ends inner (.conditional keyword condition thenBranch none)
  | elseBranch {keyword : Token} {condition : Expression} {thenBranch elseBranch : Statement}
      (h : Ends inner elseBranch) :
      Ends inner (.conditional keyword condition thenBranch (some elseBranch))
  | body {keyword : Token} {condition : Expression} {body : Statement} (h : Ends inner body) :
      Ends inner (.loop keyword condition body)

/-- Whether a statement leaves the next token alone: one that ends in an expression takes what goes
on with it, a `return` without a value takes anything but an end, and an `if` without an `else` takes
an `else`. -/
def Statement.Leaves : Statement → Kind → Prop
  | .variable _ _ _, after | .return _ (some _), after | .expression _, after =>
    after.goesOn = false
  | .return _ none, after => after = .closeBrace ∨ after = .endOfFile
  | .conditional _ _ _ none, after => after ≠ .elseKeyword
  | _, _ => True

/-- Every statement leaves an end alone. -/
theorem Statement.leaves_end (statement : Statement) {after : Kind}
    (h : after = .closeBrace ∨ after = .endOfFile) : statement.Leaves after := by
  match statement with
  | .variable _ _ _ | .return _ (some _) | .expression _ => rcases h with rfl | rfl <;> rfl
  | .return _ none => exact h
  | .conditional _ _ _ none => rcases h with rfl | rfl <;> exact Kind.noConfusion
  | .block _ _ _ | .conditional _ _ _ (some _) | .loop _ _ _ => trivial

/-- Whether a statement and all that ends with it leave the next token alone. -/
def Statement.Yields (outer : Statement) (after : Kind) : Prop :=
  ∀ inner, Ends inner outer → inner.Leaves after

mutual

/-- The parts of a statement leave each other alone, the condition of an `if` or of a `while` the
statement after it included. -/
def Statement.Clear : Statement → Prop
  | .block _ statements _ => statementsClear statements
  | .conditional _ _ thenBranch elseBranch =>
    thenBranch.first.kind.goesOn = false ∧ thenBranch.Clear ∧
      (elseBranch.isSome = true → thenBranch.Yields .elseKeyword) ∧ elseClear elseBranch
  | .loop _ _ body => body.first.kind.goesOn = false ∧ body.Clear
  | _ => True

/-- Each of the statements is clear and leaves the next one alone. -/
def statementsClear : List Statement → Prop
  | [] => True
  | first :: more =>
    first.Clear ∧ (∀ next ∈ more.head?, first.Yields next.first.kind) ∧ statementsClear more

/-- An else branch is clear. -/
def elseClear : Option Statement → Prop
  | none => True
  | some elseBranch => elseBranch.Clear

end

/-- The statements of a member are clear. -/
def Member.Clear : Member → Prop
  | .function declaration => statementsClear declaration.body
  | .statement outer => outer.Clear

/-- Whether a member leaves the next token alone. -/
def Member.Yields : Member → Kind → Prop
  | .function _, _ => True
  | .statement outer, after => outer.Yields after

/-- Each of the members is clear and leaves the next one alone. -/
def membersClear : List Member → Prop
  | [] => True
  | first :: more =>
    first.Clear ∧ (∀ next ∈ more.head?, first.Yields next.first.kind) ∧ membersClear more

/-! ## Kinds at the ends of trees -/

/-- Whether an expression may start with the kind. -/
def Kind.startsExpression : Kind → Bool
  | .identifier | .number | .string | .trueKeyword | .falseKeyword | .openParen | .plus | .minus
  | .bang => true
  | _ => false

/-- Whether a statement may start with the kind. -/
def Kind.startsStatement : Kind → Bool
  | .openBrace | .varKeyword | .letKeyword | .ifKeyword | .whileKeyword | .returnKeyword => true
  | kind => kind.startsExpression

/-- Whether a statement may have the kind after it. -/
def Kind.followsStatement : Kind → Bool
  | .closeBrace | .endOfFile | .elseKeyword | .functionKeyword => true
  | kind => kind.startsStatement

/-- Whether an expression ends before the kind: it is no operator between two operands, and makes no
call and no assignment of a name. -/
def Kind.EndsExpression (kind : Kind) : Prop :=
  kind.binaryPrecedence = 0 ∧ kind ≠ .openParen ∧ kind ≠ .equals

theorem Kind.endsExpression_of_followsStatement {kind : Kind} (h : kind.followsStatement = true)
    (hg : kind.goesOn = false) : kind.EndsExpression := by
  cases kind <;> first
    | exact absurd h (by decide)
    | exact absurd hg (by decide)
    | exact ⟨rfl, by decide, by decide⟩

theorem Kind.startsStatement_of_startsExpression {kind : Kind} (h : kind.startsExpression = true) :
    kind.startsStatement = true := by
  cases kind <;> first | rfl | exact absurd h (by decide)

theorem Kind.followsStatement_of_startsStatement {kind : Kind} (h : kind.startsStatement = true) :
    kind.followsStatement = true := by
  cases kind <;> first | rfl | exact absurd h (by decide)

/-- No more tightly than any unary operator binds. -/
def AtMostUnary (precedence : Nat) : Prop :=
  ∀ kind : Kind, kind.unaryPrecedence ≠ 0 → precedence ≤ kind.unaryPrecedence

theorem atMostUnary_zero : AtMostUnary 0 := fun _ _ => Nat.zero_le _

theorem atMostUnary_binaryPrecedence (kind : Kind) : AtMostUnary kind.binaryPrecedence :=
  fun _ h => (Kind.binaryPrecedence_lt_unaryPrecedence h).le

theorem atMostUnary_unaryPrecedence (kind : Kind) : AtMostUnary kind.unaryPrecedence := by
  intro other h
  have ho : other.unaryPrecedence = 6 := by
    cases other <;> first | rfl | exact absurd rfl h
  rw [ho]
  cases kind <;> decide

theorem Written.first_expression {expression : Expression} {ts : List Token}
    (h : Written (.expression expression) ts) :
    (∃ us, ts = expression.first :: us) ∧ expression.first.kind.startsExpression = true := by
  generalize ht : Tree.expression expression = tree at h
  induction h generalizing expression with
  | literal h =>
    cases ht
    refine ⟨⟨_, rfl⟩, ?_⟩
    rcases h with h | h | h | h <;> rw [Expression.first, h] <;> rfl
  | name h | assignment h =>
    cases ht
    exact ⟨⟨_, rfl⟩, by rw [Expression.first, h]; rfl⟩
  | @unary operator _ _ h =>
    cases ht
    refine ⟨⟨_, rfl⟩, ?_⟩
    change operator.kind.startsExpression = true
    generalize operator.kind = kind at h
    cases kind <;> first | rfl | exact absurd rfl h
  | binary _ _ _ ihLeft =>
    cases ht
    obtain ⟨⟨us, rfl⟩, hk⟩ := ihLeft rfl
    exact ⟨⟨_, rfl⟩, hk⟩
  | parenthesized ho =>
    cases ht
    exact ⟨⟨_, rfl⟩, by rw [Expression.first, ho]; rfl⟩
  | call hi =>
    cases ht
    exact ⟨⟨_, rfl⟩, by rw [Expression.first, hi]; rfl⟩
  | token | noExpressions | lastExpression | expressions | block | «variable» | conditionalElse
  | conditional | loop | returnNothing | «return» | expression | noStatements | statements
  | noTokens | lastToken | tokens | function | functionMember | statementMember | noMembers
  | members => cases ht

theorem Written.first_statement {outer : Statement} {ts : List Token}
    (h : Written (.statement outer) ts) :
    (∃ us, ts = outer.first :: us) ∧ outer.first.kind.startsStatement = true := by
  cases h with
  | block ho => exact ⟨⟨_, rfl⟩, by rw [Statement.first, ho]; rfl⟩
  | «variable» hk => exact ⟨⟨_, rfl⟩, by rcases hk with hk | hk <;> rw [Statement.first, hk] <;> rfl⟩
  | conditionalElse hk | conditional hk | loop hk | returnNothing hk | «return» hk =>
    exact ⟨⟨_, rfl⟩, by rw [Statement.first, hk]; rfl⟩
  | expression h =>
    exact ⟨h.first_expression.1,
      Kind.startsStatement_of_startsExpression h.first_expression.2⟩

theorem Written.first_member {outer : Member} {ts : List Token} (h : Written (.member outer) ts) :
    (∃ us, ts = outer.first :: us) ∧ outer.first.kind.followsStatement = true := by
  cases h with
  | functionMember h =>
    cases h with
    | function hk => exact ⟨⟨_, rfl⟩, by rw [Member.first, hk]; rfl⟩
  | statementMember h =>
    exact ⟨h.first_statement.1, Kind.followsStatement_of_startsStatement h.first_statement.2⟩

/-- An expression other than an assignment may stand where any operator may be read. -/
theorem Written.isOperand {expression : Expression} {ts : List Token}
    (h : Written (.expression expression) ts) (hn : expression.IsOperand fun _ => True) :
    expression.IsOperand (0 < ·) := by
  cases h with
  | assignment => exact hn
  | binary _ h => exact Nat.pos_of_ne_zero h
  | literal | name | unary | parenthesized | call => trivial

/-! ## What lies ahead -/

namespace State

/-- The tokens are what the parser has to read next. -/
def Starts (s : State) (ts : List Token) : Prop := ts <+: s.rest

/-- The state after as many tokens have been read. -/
def beyond (s : State) : List Token → State
  | [] => s
  | _ :: more => s.advance.beyond more

variable {s : State} {token : Token} {ts us : List Token} {endOfFile : Token}

theorem beyond_append (s : State) (ts us : List Token) :
    s.beyond (ts ++ us) = (s.beyond ts).beyond us := by
  induction ts generalizing s with
  | nil => rfl
  | cons _ _ ih => exact ih s.advance

theorem starts_cons :
    s.Starts (token :: ts) ↔ s.rest = token :: s.advance.rest ∧ s.advance.Starts ts := by
  obtain ⟨rest, reported, last⟩ := s
  cases rest with
  | nil => simp [Starts]
  | cons next rest => simp [Starts, advance, eq_comm]

theorem starts_append : s.Starts (ts ++ us) ↔ s.Starts ts ∧ (s.beyond ts).Starts us := by
  induction ts generalizing s with
  | nil => simp [Starts, beyond]
  | cons token ts ih => rw [List.cons_append, starts_cons, starts_cons, ih, and_assoc]; rfl

theorem Starts.kind_eq (h : s.Starts (token :: ts)) : s.kind = token.kind := by
  rw [kind, (starts_cons.1 h).1]

theorem Starts.current_eq (h : s.Starts (token :: ts)) (endOfFile : Token) :
    s.current endOfFile = token := by
  rw [current, (starts_cons.1 h).1]
  rfl

theorem Starts.advance (h : s.Starts (token :: ts)) : s.advance.Starts ts := (starts_cons.1 h).2

theorem reported_beyond (s : State) (ts : List Token) : (s.beyond ts).reported = s.reported := by
  induction ts generalizing s with
  | nil => rfl
  | cons _ _ ih => exact (ih s.advance).trans s.advance_reported

theorem Starts.rest_eq (h : s.Starts ts) : s.rest = ts ++ (s.beyond ts).rest := by
  induction ts generalizing s with
  | nil => rfl
  | cons token ts ih =>
    rw [(starts_cons.1 h).1, ih h.advance]
    rfl

/-- The last token read is the last of those behind. -/
theorem Starts.last_beyond (h : s.Starts ts) : (s.beyond ts).last = ts.getLast?.or s.last := by
  induction ts generalizing s with
  | nil => rfl
  | cons token ts ih =>
    have hl : s.advance.last = some token := by
      rw [State.advance, (starts_cons.1 h).1]
    change (s.advance.beyond ts).last = _
    rw [ih h.advance, hl]
    cases ts with
    | nil => rfl
    | cons next more =>
      rw [List.getLast?_cons_cons, List.getLast?_eq_some_getLast (List.cons_ne_nil _ _)]
      rfl

end State

/-! ## What the parser reads -/

variable {endOfFile : Token} {s s' : State}

/-- The parser reads the expression from one state to another: where operators may be read it goes
on with those after the expression, and elsewhere it stops. -/
structure ReadsExpression (endOfFile : Token) (expression : Expression) (s s' : State) : Prop where
  operand : ∀ {depth parent : Nat} {whole : Expression} {s'' : State},
    depth + expression.nesting ≤ maxNestingDepth → AtMostUnary parent →
    expression.IsOperand (parent < ·) → expression.IsOperand (s'.kind.binaryPrecedence ≤ ·) →
    Reads endOfFile (.operators depth parent expression) s' (.expression whole) s'' →
    Reads endOfFile (.binary depth parent) s (.expression whole) s''
  expression : ∀ {depth : Nat}, depth + 1 + expression.nesting ≤ maxNestingDepth →
    s'.kind.binaryPrecedence = 0 →
    Reads endOfFile (.expression depth) s (.expression expression) s'

/-- Where only operators may be read that bind more tightly than the next token, the parser stops
after the expression. -/
theorem ReadsExpression.binary {expression : Expression} {depth parent : Nat}
    (h : ReadsExpression endOfFile expression s s')
    (hd : depth + expression.nesting ≤ maxNestingDepth) (hp : AtMostUnary parent)
    (hi : expression.IsOperand (parent < ·)) (ha : s'.kind.binaryPrecedence ≤ parent) :
    Reads endOfFile (.binary depth parent) s (.expression expression) s' :=
  h.operand hd hp hi (hi.mono fun _ hlt => ha.trans (Nat.le_of_lt hlt)) (.enough (.inr ha))

/-- An expression that starts like no assignment is read by its operators. -/
theorem ReadsExpression.of_operand {expression : Expression} {ts : List Token}
    (hw : Written (.expression expression) ts) (hn : expression.IsOperand fun _ => True)
    (hs : ¬(s.kind = .identifier ∧ s.secondKind = .equals))
    (operand : ∀ {depth parent : Nat} {whole : Expression} {s'' : State},
      depth + expression.nesting ≤ maxNestingDepth → AtMostUnary parent →
      expression.IsOperand (parent < ·) → expression.IsOperand (s'.kind.binaryPrecedence ≤ ·) →
      Reads endOfFile (.operators depth parent expression) s' (.expression whole) s'' →
      Reads endOfFile (.binary depth parent) s (.expression whole) s'') :
    ReadsExpression endOfFile expression s s' where
  operand := operand
  expression {depth} hd ha := by
    have hi := hw.isOperand hn
    refine .operation (by omega) hs (operand hd atMostUnary_zero hi ?_ (.enough (.inl ha)))
    exact hi.mono fun _ _ => by omega

/-- An expression without operators of its own is read as one. -/
theorem ReadsExpression.of_primary {expression : Expression} {ts : List Token}
    (hw : Written (.expression expression) ts) (hn : expression.IsOperand fun _ => True)
    (hs : ¬(s.kind = .identifier ∧ s.secondKind = .equals)) (hu : s.kind.unaryPrecedence = 0)
    (primary : ∀ {depth : Nat}, depth + expression.nesting ≤ maxNestingDepth →
      Reads endOfFile (.primary depth) s (.expression expression) s') :
    ReadsExpression endOfFile expression s s' :=
  .of_operand hw hn hs fun hd _ _ _ hr => .operand (fun h => h.1 hu) (primary hd) hr

/-- An expression that is no assignment starts like none, unless an equals sign comes after it. -/
theorem Written.not_assignment {expression : Expression} {ts : List Token}
    (h : Written (.expression expression) ts) (hg : (Tree.expression expression).Grouped)
    (hn : expression.IsOperand fun _ => True) (hs : s.Starts ts)
    (ha : (s.beyond ts).kind ≠ .equals) : ¬(s.kind = .identifier ∧ s.secondKind = .equals) := by
  generalize ht : Tree.expression expression = tree at h
  induction h generalizing expression with
  | literal h =>
    rw [hs.kind_eq]
    rcases h with h | h | h | h <;> simp [h]
  | name => exact fun hk => ha (s.kind_advance.trans hk.2)
  | assignment =>
    cases ht
    exact hn.elim
  | unary h =>
    rw [hs.kind_eq]
    exact fun hk => h (by rw [hk.1]; rfl)
  | @binary left right operator ts us hl h hr ihLeft =>
    cases ht
    obtain ⟨⟨hi, -⟩, hg, -⟩ := Tree.grouped_binary.1 hg
    obtain ⟨hs, ho⟩ := State.starts_append.1 hs
    refine ihLeft hg (hi.mono fun _ _ => trivial) hs ?_ rfl
    rw [ho.kind_eq]
    exact fun hk => h (by rw [hk]; rfl)
  | parenthesized ho =>
    rw [hs.kind_eq]
    simp [ho]
  | call _ ho =>
    rw [← s.kind_advance, hs.advance.kind_eq]
    simp [ho]
  | token | noExpressions | lastExpression | expressions | block | «variable» | conditionalElse
  | conditional | loop | returnNothing | «return» | expression | noStatements | statements
  | noTokens | lastToken | tokens | function | functionMember | statementMember | noMembers
  | members => cases ht

/-- What the parser reads of the tokens that a tree is written with. -/
def Tree.IsRead (endOfFile : Token) : Tree → List Token → Prop
  | .expression read, ts => ∀ s : State, s.Starts ts → (s.beyond ts).kind ≠ .openParen →
    (s.beyond ts).kind ≠ .equals → (Tree.expression read).Grouped →
    ReadsExpression endOfFile read s (s.beyond ts)
  | .expressions read, ts => ∀ (s : State) (depth : Nat), s.Starts ts →
    (s.beyond ts).kind = .closeParen → (Tree.expressions read).Grouped →
    depth + argumentNesting read ≤ maxNestingDepth →
    Reads endOfFile (.arguments depth) s (.expressions read) (s.beyond ts)
  | .statement read, ts => ∀ (s : State) (depth : Nat), s.Starts ts →
    (s.beyond ts).kind.followsStatement = true → read.Yields (s.beyond ts).kind → read.Clear →
    (Tree.statement read).Grouped → depth + read.nesting ≤ maxNestingDepth →
    Reads endOfFile (.statement depth) s (.statement read) (s.beyond ts)
  | .statements read, ts => ∀ (s : State) (depth : Nat), s.Starts ts →
    ((s.beyond ts).kind = .closeBrace ∨ (s.beyond ts).kind = .endOfFile) → statementsClear read →
    (Tree.statements read).Grouped → depth + statementNesting read ≤ maxNestingDepth →
    Reads endOfFile (.statements depth) s (.statements read) (s.beyond ts)
  | .tokens read, ts => ∀ s : State, s.Starts ts → (s.beyond ts).kind = .closeParen →
    Reads endOfFile .parameters s (.tokens read) (s.beyond ts)
  | .function read, ts => ∀ s : State, s.Starts ts → statementsClear read.body →
    (Tree.function read).Grouped → statementNesting read.body ≤ maxNestingDepth →
    Reads endOfFile .function s (.function read) (s.beyond ts)
  | .member read, ts => ∀ s : State, s.Starts ts → (s.beyond ts).kind.followsStatement = true →
    read.Yields (s.beyond ts).kind → read.Clear → (Tree.member read).Grouped →
    read.nesting ≤ maxNestingDepth → Reads endOfFile .member s (.member read) (s.beyond ts)
  | .token _, _ | .members _, _ => True

/-- A token of the kind that is wanted is found. -/
theorem State.Starts.reads_token {token : Token} {ts : List Token} (h : s.Starts (token :: ts))
    {kind : Kind} (hk : token.kind = kind) (he : kind ≠ .endOfFile) :
    Reads endOfFile (.token kind) s (.token token) s.advance := by
  rw [← h.current_eq endOfFile]
  exact .found he (h.kind_eq.trans hk)

/-! ## One lemma for each form -/

section
variable {token identifier equals operator opening closing keyword otherwise openParen closeParen
    comma : Token}
  {value left right inner condition : Expression} {arguments : List Expression}
  {outer thenBranch elseBranch : Statement} {body more : List Statement} {parameters : List Token}
  {ts us vs : List Token}

theorem isRead_literal (h : token.kind = .trueKeyword ∨ token.kind = .falseKeyword ∨
      token.kind = .number ∨ token.kind = .string) :
    (Tree.expression (.literal token (literalValue token))).IsRead endOfFile [token] := by
  intro s hs _ ha hg
  have hw := Written.literal h
  rw [← hs.kind_eq] at h
  refine .of_primary hw trivial (hw.not_assignment hg trivial hs ha) ?_ fun _ => ?_
  · rcases h with h | h | h | h <;> rw [h] <;> rfl
  · rw [← hs.current_eq endOfFile]
    exact .literal h

theorem isRead_name (h : identifier.kind = .identifier) :
    (Tree.expression (.name identifier)).IsRead endOfFile [identifier] := by
  intro s hs hc ha hg
  have hw := Written.name h
  have hk := hs.kind_eq.trans h
  refine .of_primary hw trivial (hw.not_assignment hg trivial hs ha) (by rw [hk]; rfl) fun _ => ?_
  exact .name (by simp [hk]) (by simp [hk]) (fun hk => hc (s.kind_advance.trans hk.2))
    (hs.reads_token h (by decide))

theorem isRead_assignment (hi : identifier.kind = .identifier) (he : equals.kind = .equals)
    (ih : (Tree.expression value).IsRead endOfFile ts) :
    (Tree.expression (.assignment identifier value)).IsRead endOfFile
      (identifier :: equals :: ts) := by
  intro s hs hc ha hg
  refine ⟨fun _ _ hn => hn.elim, fun {depth} hd hb => ?_⟩
  have hnext : s.secondKind = .equals := by rw [← s.kind_advance, hs.advance.kind_eq, he]
  have hread := ih s.advance.advance hs.advance.advance hc ha (Tree.grouped_assignment.1 hg)
  rw [Expression.nesting] at hd
  rw [← hs.current_eq endOfFile]
  exact .assignment (by omega) ⟨hs.kind_eq.trans hi, hnext⟩ (hread.expression (by omega) hb)

theorem isRead_unary (h : operator.kind.unaryPrecedence ≠ 0) (ho : Written (.expression inner) ts)
    (ih : (Tree.expression inner).IsRead endOfFile ts) :
    (Tree.expression (.unary operator inner)).IsRead endOfFile (operator :: ts) := by
  intro s hs hc ha hg
  have hw := Written.unary h ho
  obtain ⟨hn, hgo⟩ := Tree.grouped_unary.1 hg
  have hu : s.kind.unaryPrecedence ≠ 0 := by rwa [hs.kind_eq]
  have hread := ih s.advance hs.advance hc ha hgo
  refine .of_operand hw trivial (hw.not_assignment hg trivial hs ha) fun hd hp _ _ hr => ?_
  rw [Expression.nesting] at hd
  rw [← hs.current_eq endOfFile] at hr
  refine .unary ⟨hu, hp _ hu⟩ (by omega) ?_ hr
  exact hread.binary (by omega) (atMostUnary_unaryPrecedence _) (hn.mono fun _ => False.elim)
    (Kind.binaryPrecedence_lt_unaryPrecedence hu).le

theorem isRead_binary (hl : Written (.expression left) ts) (h : operator.kind.binaryPrecedence ≠ 0)
    (hr : Written (.expression right) us) (ihLeft : (Tree.expression left).IsRead endOfFile ts)
    (ihRight : (Tree.expression right).IsRead endOfFile us) :
    (Tree.expression (.binary left operator right)).IsRead endOfFile (ts ++ operator :: us) := by
  intro s hs hc ha hg
  have hw := Written.binary hl h hr
  have hna := hw.not_assignment hg trivial hs ha
  obtain ⟨⟨hnl, hnr⟩, hgl, hgr⟩ := Tree.grouped_binary.1 hg
  obtain ⟨hs, ho⟩ := State.starts_append.1 hs
  rw [State.beyond_append] at hc ha ⊢
  have hk := ho.kind_eq
  have hleft := ihLeft s hs (fun hk' => h (by rw [← hk, hk']; rfl))
    (fun hk' => h (by rw [← hk, hk']; rfl)) hgl
  have hright := ihRight _ ho.advance hc ha hgr
  refine .of_operand hw trivial hna fun {depth parent _ _} hd hp hlt hle hrest => ?_
  have hlt : parent < operator.kind.binaryPrecedence := hlt
  rw [Expression.nesting] at hd
  rw [← ho.current_eq endOfFile] at hrest
  -- The left operand is read where the whole is, and then the operator goes on with it.
  refine hleft.operand (by omega) hp (hnl.mono fun _ => hlt.trans_le) (by rwa [hk])
    (.binary (by rw [hk]; omega) ?_ hrest)
  rw [hk]
  exact hright.binary (by omega) (atMostUnary_binaryPrecedence _) hnr hle

theorem isRead_parenthesized (ho : opening.kind = .openParen) (hi : Written (.expression inner) ts)
    (hc : closing.kind = .closeParen) (ih : (Tree.expression inner).IsRead endOfFile ts) :
    (Tree.expression (.parenthesized opening inner closing)).IsRead endOfFile
      (opening :: (ts ++ [closing])) := by
  intro s hs _ ha hg
  have hw := Written.parenthesized ho hi hc
  have hk := hs.kind_eq.trans ho
  obtain ⟨hs', hlast⟩ := State.starts_append.1 hs.advance
  have hk' := hlast.kind_eq.trans hc
  have hread := ih s.advance hs' (by simp [hk']) (by simp [hk']) (Tree.grouped_parenthesized.1 hg)
  refine .of_primary hw trivial (hw.not_assignment hg trivial hs ha) (by rw [hk]; rfl) fun hd => ?_
  rw [Expression.nesting] at hd
  change Reads _ _ _ _ (s.advance.beyond (ts ++ [closing]))
  rw [← hs.current_eq endOfFile, State.beyond_append]
  exact .parenthesized hk (hread.expression (by omega) (by rw [hk']; rfl))
    (hlast.reads_token hc (by decide))

theorem isRead_call (hi : identifier.kind = .identifier) (ho : opening.kind = .openParen)
    (harguments : Written (.expressions arguments) ts) (hc : closing.kind = .closeParen)
    (ih : (Tree.expressions arguments).IsRead endOfFile ts) :
    (Tree.expression (.call identifier arguments closing)).IsRead endOfFile
      (identifier :: opening :: (ts ++ [closing])) := by
  intro s hs _ ha hg
  have hw := Written.call hi ho harguments hc
  have hk := hs.kind_eq.trans hi
  have hnext : s.secondKind = .openParen := by rw [← s.kind_advance, hs.advance.kind_eq, ho]
  obtain ⟨hs', hlast⟩ := State.starts_append.1 hs.advance.advance
  refine .of_primary hw trivial (hw.not_assignment hg trivial hs ha) (by rw [hk]; rfl)
    fun {depth} hd => ?_
  rw [Expression.nesting] at hd
  change Reads _ _ _ _ (s.advance.advance.beyond (ts ++ [closing]))
  rw [← hs.current_eq endOfFile, State.beyond_append]
  exact .call ⟨hk, hnext⟩ (ih _ depth hs' (hlast.kind_eq.trans hc) (Tree.grouped_call.1 hg) hd)
    (hlast.reads_token hc (by decide))

/-- Where an expression starts, no argument list ends. -/
theorem Written.not_end (h : Written (.expression inner) ts) (hs : s.Starts ts) :
    ¬(s.kind = .closeParen ∨ s.kind = .endOfFile) := by
  obtain ⟨⟨us, rfl⟩, hf⟩ := h.first_expression
  rw [← hs.kind_eq] at hf
  rintro (hk | hk) <;> simp [hk, Kind.startsExpression] at hf

theorem isRead_lastExpression (h : Written (.expression inner) ts)
    (ih : (Tree.expression inner).IsRead endOfFile ts) :
    (Tree.expressions [inner]).IsRead endOfFile ts := by
  intro s depth hs hk hg hd
  rw [argumentNesting, argumentNesting] at hd
  have hread := ih s hs (by simp [hk]) (by simp [hk]) (Tree.grouped_expressions.1 hg).1
  exact .lastArgument (h.not_end hs) (hread.expression (by omega) (by rw [hk]; rfl)) (by simp [hk])

theorem isRead_expressions (h : Written (.expression inner) ts) (hcomma : comma.kind = .comma)
    (ihFirst : (Tree.expression inner).IsRead endOfFile ts)
    (ihMore : (Tree.expressions arguments).IsRead endOfFile us) :
    (Tree.expressions (inner :: arguments)).IsRead endOfFile (ts ++ comma :: us) := by
  intro s depth hs hk hg hd
  rw [argumentNesting] at hd
  obtain ⟨hgf, hgm⟩ := Tree.grouped_expressions.1 hg
  obtain ⟨hs, hrest⟩ := State.starts_append.1 hs
  rw [State.beyond_append] at hk ⊢
  have hk' := hrest.kind_eq.trans hcomma
  have hread := ihFirst s hs (by simp [hk']) (by simp [hk']) hgf
  exact .argument (h.not_end hs) (hread.expression (by omega) (by rw [hk']; rfl)) hk'
    (ihMore _ depth hrest.advance hk hgm (by omega))

theorem isRead_block (ho : opening.kind = .openBrace) (hc : closing.kind = .closeBrace)
    (ih : (Tree.statements body).IsRead endOfFile ts) :
    (Tree.statement (.block opening body closing)).IsRead endOfFile
      (opening :: (ts ++ [closing])) := by
  intro s depth hs _ _ hcl hg hd
  rw [Statement.nesting] at hd
  obtain ⟨hs', hlast⟩ := State.starts_append.1 hs.advance
  have hread := ih s.advance (depth + 1) hs' (.inl (hlast.kind_eq.trans hc)) hcl
    (Tree.grouped_block.1 hg) (by omega)
  change Reads _ _ _ _ (s.advance.beyond (ts ++ [closing]))
  rw [← hs.current_eq endOfFile, State.beyond_append]
  exact .block (by omega) (hs.kind_eq.trans ho) hread (hlast.reads_token hc (by decide))

theorem isRead_variable (hk : keyword.kind = .varKeyword ∨ keyword.kind = .letKeyword)
    (hi : identifier.kind = .identifier) (he : equals.kind = .equals)
    (ih : (Tree.expression inner).IsRead endOfFile ts) :
    (Tree.statement (.variable keyword identifier inner)).IsRead endOfFile
      (keyword :: identifier :: equals :: ts) := by
  intro s depth hs hf hy _ hg hd
  rw [Statement.nesting] at hd
  have hend := Kind.endsExpression_of_followsStatement hf (hy _ .self)
  have hread := ih _ hs.advance.advance.advance hend.2.1 hend.2.2 (Tree.grouped_variable.1 hg)
  rw [← hs.current_eq endOfFile]
  exact .variable (by omega) (by rwa [hs.kind_eq]) (hs.advance.reads_token hi (by decide))
    (hs.advance.advance.reads_token he (by decide)) (hread.expression (by omega) hend.1)

/-- A condition ends where the statement after it starts, if that does not go on with it. -/
theorem reads_condition {depth : Nat} (ih : (Tree.expression condition).IsRead endOfFile ts)
    (ho : Written (.statement outer) us) (hgo : outer.first.kind.goesOn = false)
    (hs : s.Starts ts) (hs' : (s.beyond ts).Starts us) (hg : (Tree.expression condition).Grouped)
    (hd : depth + 1 + condition.nesting ≤ maxNestingDepth) :
    Reads endOfFile (.expression depth) s (.expression condition) (s.beyond ts) := by
  obtain ⟨⟨vs, rfl⟩, hfirst⟩ := ho.first_statement
  have hend := Kind.endsExpression_of_followsStatement
    (Kind.followsStatement_of_startsStatement hfirst) hgo
  rw [← hs'.kind_eq] at hend
  exact (ih s hs hend.2.1 hend.2.2 hg).expression hd hend.1

theorem isRead_conditionalElse (hk : keyword.kind = .ifKeyword)
    (ht : Written (.statement thenBranch) us) (ho : otherwise.kind = .elseKeyword)
    (ihCondition : (Tree.expression condition).IsRead endOfFile ts)
    (ihThen : (Tree.statement thenBranch).IsRead endOfFile us)
    (ihElse : (Tree.statement elseBranch).IsRead endOfFile vs) :
    (Tree.statement (.conditional keyword condition thenBranch (some elseBranch))).IsRead endOfFile
      (keyword :: (ts ++ (us ++ otherwise :: vs))) := by
  intro s depth hs hf hy hcl hg hd
  rw [Statement.nesting, elseNesting] at hd
  obtain ⟨hgc, hgt, hge⟩ := Tree.grouped_conditionalElse.1 hg
  obtain ⟨hgo, hclt, hyt, hcle⟩ := hcl
  obtain ⟨hs₁, hs₂⟩ := State.starts_append.1 hs.advance
  obtain ⟨hs₂, hs₃⟩ := State.starts_append.1 hs₂
  have hover : s.beyond (keyword :: (ts ++ (us ++ otherwise :: vs))) =
      ((s.advance.beyond ts).beyond us).advance.beyond vs := by
    rw [State.beyond, State.beyond_append, State.beyond_append, State.beyond]
  rw [hover] at hf hy ⊢
  have hk₃ := hs₃.kind_eq.trans ho
  rw [← hs.current_eq endOfFile]
  exact .conditionalElse (by omega) (hs.kind_eq.trans hk)
    (reads_condition ihCondition ht hgo hs₁ hs₂ hgc (by omega))
    (ihThen _ (depth + 1) hs₂ (by rw [hk₃]; rfl) (by rw [hk₃]; exact hyt rfl) hclt hgt (by omega))
    hk₃
    (ihElse _ (depth + 1) hs₃.advance hf (fun inner hi => hy inner (.elseBranch hi)) hcle hge
      (by omega))

theorem isRead_conditional (hk : keyword.kind = .ifKeyword)
    (ht : Written (.statement thenBranch) us)
    (ihCondition : (Tree.expression condition).IsRead endOfFile ts)
    (ihThen : (Tree.statement thenBranch).IsRead endOfFile us) :
    (Tree.statement (.conditional keyword condition thenBranch none)).IsRead endOfFile
      (keyword :: (ts ++ us)) := by
  intro s depth hs hf hy hcl hg hd
  rw [Statement.nesting, elseNesting] at hd
  obtain ⟨hgc, hgt⟩ := Tree.grouped_conditional.1 hg
  obtain ⟨hgo, hclt, -⟩ := hcl
  obtain ⟨hs₁, hs₂⟩ := State.starts_append.1 hs.advance
  rw [State.beyond, State.beyond_append] at hf hy ⊢
  rw [← hs.current_eq endOfFile]
  exact .conditional (by omega) (hs.kind_eq.trans hk)
    (reads_condition ihCondition ht hgo hs₁ hs₂ hgc (by omega))
    (ihThen _ (depth + 1) hs₂ hf (fun inner hi => hy inner (.thenBranch hi)) hclt hgt (by omega))
    (hy _ .self)

theorem isRead_loop (hk : keyword.kind = .whileKeyword) (ho : Written (.statement outer) us)
    (ihCondition : (Tree.expression condition).IsRead endOfFile ts)
    (ihBody : (Tree.statement outer).IsRead endOfFile us) :
    (Tree.statement (.loop keyword condition outer)).IsRead endOfFile (keyword :: (ts ++ us)) := by
  intro s depth hs hf hy hcl hg hd
  rw [Statement.nesting] at hd
  obtain ⟨hgc, hgb⟩ := Tree.grouped_loop.1 hg
  obtain ⟨hgo, hclb⟩ := hcl
  obtain ⟨hs₁, hs₂⟩ := State.starts_append.1 hs.advance
  rw [State.beyond, State.beyond_append] at hf hy ⊢
  rw [← hs.current_eq endOfFile]
  exact .loop (by omega) (hs.kind_eq.trans hk)
    (reads_condition ihCondition ho hgo hs₁ hs₂ hgc (by omega))
    (ihBody _ (depth + 1) hs₂ hf (fun inner hi => hy inner (.body hi)) hclb hgb (by omega))

theorem isRead_returnNothing (hk : keyword.kind = .returnKeyword) :
    (Tree.statement (.return keyword none)).IsRead endOfFile [keyword] := by
  intro s depth hs _ hy _ _ hd
  have hlevel := Statement.nesting_pos (.return keyword none)
  rw [← hs.current_eq endOfFile]
  exact .returnNothing (by omega) (hs.kind_eq.trans hk) (by rw [← s.kind_advance]; exact hy _ .self)

theorem isRead_return (hk : keyword.kind = .returnKeyword) (hv : Written (.expression value) ts)
    (ih : (Tree.expression value).IsRead endOfFile ts) :
    (Tree.statement (.return keyword (some value))).IsRead endOfFile (keyword :: ts) := by
  intro s depth hs hf hy _ hg hd
  rw [Statement.nesting] at hd
  have hend := Kind.endsExpression_of_followsStatement hf (hy _ .self)
  have hread := ih s.advance hs.advance hend.2.1 hend.2.2 (Tree.grouped_return.1 hg)
  obtain ⟨⟨us, rfl⟩, hfirst⟩ := hv.first_expression
  rw [← hs.current_eq endOfFile]
  refine .return (by omega) (hs.kind_eq.trans hk) ?_ (hread.expression (by omega) hend.1)
  rw [← s.kind_advance, hs.advance.kind_eq]
  rintro (hk | hk) <;> simp [hk, Kind.startsExpression] at hfirst

theorem isRead_expressionStatement (h : Written (.expression inner) ts)
    (ih : (Tree.expression inner).IsRead endOfFile ts) :
    (Tree.statement (.expression inner)).IsRead endOfFile ts := by
  intro s depth hs hf hy _ hg hd
  rw [Statement.nesting] at hd
  have hend := Kind.endsExpression_of_followsStatement hf (hy _ .self)
  have hread := ih s hs hend.2.1 hend.2.2 (Tree.grouped_expressionStatement.1 hg)
  obtain ⟨⟨us, rfl⟩, hfirst⟩ := h.first_expression
  rw [← hs.kind_eq] at hfirst
  have hne : ∀ {kind : Kind}, kind.startsExpression = false → s.kind ≠ kind := by
    intro kind hk he
    rw [he, hk] at hfirst
    cases hfirst
  exact .expression (by omega) (hne rfl) (fun hk => hk.elim (hne rfl) (hne rfl)) (hne rfl)
    (hne rfl) (hne rfl) (hread.expression (by omega) hend.1)

/-- What comes after a statement that is followed by others, and by an end after these, leaves it
alone. -/
theorem Written.follows_statement (h : Written (.statements more) us) (hs : s.Starts us)
    (hk : (s.beyond us).kind = .closeBrace ∨ (s.beyond us).kind = .endOfFile)
    (hnext : ∀ next ∈ more.head?, outer.Yields next.first.kind) :
    s.kind.followsStatement = true ∧ outer.Yields s.kind := by
  cases h with
  | noStatements =>
    have hk : s.kind = .closeBrace ∨ s.kind = .endOfFile := hk
    exact ⟨by rcases hk with hk | hk <;> rw [hk] <;> rfl, fun inner _ => inner.leaves_end hk⟩
  | statements hf =>
    obtain ⟨⟨vs, rfl⟩, hstart⟩ := hf.first_statement
    rw [hs.kind_eq]
    exact ⟨Kind.followsStatement_of_startsStatement hstart, hnext _ rfl⟩

/-- A round that has read a token skips none. -/
theorem State.Starts.skipIfStuck_beyond (hs : s.Starts ts) (hne : ts ≠ []) :
    s.skipIfStuck (s.beyond ts) = s.beyond ts := by
  have hlen := congrArg List.length hs.rest_eq
  have hpos := List.length_pos_iff.2 hne
  rw [List.length_append] at hlen
  exact if_neg (by omega)

theorem isRead_statements (hfirst : Written (.statement outer) ts)
    (hmore : Written (.statements more) us)
    (ihFirst : (Tree.statement outer).IsRead endOfFile ts)
    (ihMore : (Tree.statements more).IsRead endOfFile us) :
    (Tree.statements (outer :: more)).IsRead endOfFile (ts ++ us) := by
  intro s depth hs hk hcl hg hd
  rw [statementNesting] at hd
  obtain ⟨hclf, hnext, hclm⟩ := hcl
  obtain ⟨hgf, hgm⟩ := Tree.grouped_statements.1 hg
  obtain ⟨hs, hs'⟩ := State.starts_append.1 hs
  rw [State.beyond_append] at hk ⊢
  obtain ⟨hf, hy⟩ := hmore.follows_statement hs' hk hnext
  refine .statements ?_ (ihFirst s depth hs hf hy hclf hgf (by omega)) ?_
  · obtain ⟨⟨vs, rfl⟩, hstart⟩ := hfirst.first_statement
    rw [hs.kind_eq]
    rintro (hk | hk) <;> simp [hk, Kind.startsStatement, Kind.startsExpression] at hstart
  · rw [hs.skipIfStuck_beyond (hfirst.ne_nil rfl)]
    exact ihMore _ depth hs' hk hclm hgm (by omega)

theorem isRead_lastToken (h : identifier.kind = .identifier) :
    (Tree.tokens [identifier]).IsRead endOfFile [identifier] := by
  intro s hs hk
  have hk' := hs.kind_eq.trans h
  exact .lastParameter (by simp [hk']) (hs.reads_token h (by decide)) (by simp [hk])

theorem isRead_tokens (h : identifier.kind = .identifier) (hcomma : comma.kind = .comma)
    (ih : (Tree.tokens parameters).IsRead endOfFile ts) :
    (Tree.tokens (identifier :: parameters)).IsRead endOfFile (identifier :: comma :: ts) := by
  intro s hs hk
  have hk' := hs.kind_eq.trans h
  exact .parameter (by simp [hk']) (hs.reads_token h (by decide)) (hs.advance.kind_eq.trans hcomma)
    (ih _ hs.advance.advance hk)

theorem isRead_function (hk : keyword.kind = .functionKeyword)
    (hi : identifier.kind = .identifier) (ho : openParen.kind = .openParen)
    (hc : closeParen.kind = .closeParen) (hb : opening.kind = .openBrace)
    (he : closing.kind = .closeBrace) (ihParameters : (Tree.tokens parameters).IsRead endOfFile ts)
    (ihBody : (Tree.statements body).IsRead endOfFile us) :
    (Tree.function ⟨keyword, identifier, parameters, opening, body, closing⟩).IsRead endOfFile
      (keyword :: identifier :: openParen ::
        (ts ++ closeParen :: opening :: (us ++ [closing]))) := by
  intro s hs hcl hg hd
  obtain ⟨hs₃, hs₄⟩ := State.starts_append.1 hs.advance.advance.advance
  obtain ⟨hs₆, hs₇⟩ := State.starts_append.1 hs₄.advance.advance
  have hbody := ihBody _ 0 hs₆ (.inl (hs₇.kind_eq.trans he)) hcl (Tree.grouped_function.1 hg)
    (by simpa using hd)
  rw [State.beyond, State.beyond, State.beyond, State.beyond_append, State.beyond, State.beyond,
    State.beyond_append]
  exact .function (hs.reads_token hk (by decide)) (hs.advance.reads_token hi (by decide))
    (hs.advance.advance.reads_token ho (by decide)) (ihParameters _ hs₃ (hs₄.kind_eq.trans hc))
    (hs₄.reads_token hc (by decide)) (hs₄.advance.reads_token hb (by decide)) hbody
    (hs₇.reads_token he (by decide))

theorem isRead_functionMember {declaration : FunctionDeclaration}
    (h : Written (.function declaration) ts)
    (ih : (Tree.function declaration).IsRead endOfFile ts) :
    (Tree.member (.function declaration)).IsRead endOfFile ts := by
  intro s hs _ _ hcl hg hd
  refine .functionMember ?_ (ih s hs hcl (Tree.grouped_functionMember.1 hg) hd)
  cases h with
  | function hk => exact hs.kind_eq.trans hk

theorem isRead_statementMember (h : Written (.statement outer) ts)
    (ih : (Tree.statement outer).IsRead endOfFile ts) :
    (Tree.member (.statement outer)).IsRead endOfFile ts := by
  intro s hs hf hy hcl hg hd
  have hd : 0 + outer.nesting ≤ maxNestingDepth := (Nat.zero_add _).trans_le hd
  refine .statementMember ?_ (ih s 0 hs hf hy hcl (Tree.grouped_statementMember.1 hg) hd)
  obtain ⟨⟨us, rfl⟩, hstart⟩ := h.first_statement
  rw [hs.kind_eq]
  intro hk
  simp [hk, Kind.startsStatement, Kind.startsExpression] at hstart

end

/-- Of tokens that a grouped, clear and not too deep tree is written with, the parser reads just this
tree. -/
theorem Written.reads {tree : Tree} {ts : List Token} (h : Written tree ts) :
    tree.IsRead endOfFile ts := by
  induction h with
  | token | noMembers | members => trivial
  | literal h => exact isRead_literal h
  | name h => exact isRead_name h
  | assignment hi he _ ih => exact isRead_assignment hi he ih
  | unary h ho ih => exact isRead_unary h ho ih
  | binary hl h hr ihLeft ihRight => exact isRead_binary hl h hr ihLeft ihRight
  | parenthesized ho hi hc ih => exact isRead_parenthesized ho hi hc ih
  | call hi ho ha hc ih => exact isRead_call hi ho ha hc ih
  | noExpressions => exact fun s depth _ hk _ _ => .noArguments (.inl hk)
  | lastExpression h ih => exact isRead_lastExpression h ih
  | expressions hf hk _ ihFirst ihMore => exact isRead_expressions hf hk ihFirst ihMore
  | block ho _ hc ih => exact isRead_block ho hc ih
  | «variable» hk hi he _ ih => exact isRead_variable hk hi he ih
  | conditionalElse hk _ ht ho _ ihCondition ihThen ihElse =>
    exact isRead_conditionalElse hk ht ho ihCondition ihThen ihElse
  | conditional hk _ ht ihCondition ihThen => exact isRead_conditional hk ht ihCondition ihThen
  | loop hk _ hb ihCondition ihBody => exact isRead_loop hk hb ihCondition ihBody
  | returnNothing hk => exact isRead_returnNothing hk
  | «return» hk hv ih => exact isRead_return hk hv ih
  | expression h ih => exact isRead_expressionStatement h ih
  | noStatements => exact fun s depth _ hk _ _ _ => .noStatements hk
  | statements hf hm ihFirst ihMore => exact isRead_statements hf hm ihFirst ihMore
  | noTokens => exact fun s _ hk => .noParameters (.inl hk)
  | lastToken h => exact isRead_lastToken h
  | tokens h hk _ ih => exact isRead_tokens h hk ih
  | function hk hi ho _ hc hb _ he ihParameters ihBody =>
    exact isRead_function hk hi ho hc hb he ihParameters ihBody
  | functionMember h ih => exact isRead_functionMember h ih
  | statementMember h ih => exact isRead_statementMember h ih

/-- What comes after a member that is followed by others, and by the end after these, leaves it
alone. -/
theorem Written.follows_member {outer : Member} {more : List Member} {us : List Token}
    (h : Written (.members more) us) (hs : s.rest = us)
    (hnext : ∀ next ∈ more.head?, outer.Yields next.first.kind) :
    s.kind.followsStatement = true ∧ outer.Yields s.kind := by
  cases h with
  | noMembers =>
    have hk : s.kind = .endOfFile := by rw [State.kind, hs]
    refine ⟨by rw [hk]; rfl, ?_⟩
    cases outer with
    | function => trivial
    | statement outer => exact fun inner _ => inner.leaves_end (.inr hk)
  | members hf =>
    obtain ⟨⟨vs, rfl⟩, hstart⟩ := hf.first_member
    have hs : s.Starts _ := ⟨_, hs.symm⟩
    rw [hs.kind_eq]
    exact ⟨hstart, hnext _ rfl⟩

/-- Of tokens that grouped, clear and not too deep members are written with, the parser reads just
these members, without a report. -/
theorem parseMembers_written {members : List Member} {ts : List Token}
    (h : Written (.members members) ts) (hcl : membersClear members)
    (hg : (Tree.members members).Grouped) (hd : ∀ outer ∈ members, outer.nesting ≤ maxNestingDepth)
    (endOfFile : Token) (lastToken : Option Token) (s : State) (hs : s.rest = ts) :
    parseMembers endOfFile lastToken s = (members, ts.getLast?.or lastToken, s.beyond ts) := by
  induction members generalizing ts lastToken s with
  | nil =>
    cases h
    rw [parseMembers, dif_pos hs]
    rfl
  | cons outer more ih =>
    cases h with
    | @members _ _ ts us hf hm =>
      obtain ⟨hclf, hnext, hclm⟩ := hcl
      obtain ⟨hgf, hgm⟩ := Tree.grouped_members.1 hg
      obtain ⟨hdf, hdm⟩ := List.forall_mem_cons.1 hd
      have hstart : s.Starts ts := ⟨us, hs.symm⟩
      have hrest : (s.beyond ts).rest = us := List.append_cancel_left (hstart.rest_eq.symm.trans hs)
      obtain ⟨hfollow, hyield⟩ := hm.follows_member hrest hnext
      have hread : Reads endOfFile .member s (.member outer) (s.beyond ts) :=
        hf.reads s hstart hfollow hyield hclf hgf hdf
      obtain ⟨hvalue, hstate⟩ := hread.parseMember_eq
      have hne := hf.ne_nil rfl
      rw [parseMembers, dif_neg (by rw [hs]; exact List.append_ne_nil_of_left_ne_nil hne _)]
      simp only [hvalue, hstate, hstart.skipIfStuck_beyond hne, ih hm hclm hgm hdm _ _ hrest]
      rw [hstart.last_beyond, State.beyond_append, List.getLast?_append, Option.or_assoc]
      rw [List.getLast?_eq_some_getLast hne]
      rfl

end ReplayShell.Syntax
