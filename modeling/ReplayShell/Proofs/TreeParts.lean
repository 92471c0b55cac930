import ReplayShell.Proofs.TreeTokens

/-!
# The parts of a tree

* `Tree.kept` are the tokens that a tree keeps, in order; `Tree.children` is what a tree is made of.
  `kept_children`: its tokens are those of its children, one child after the other.
* `Part` says that a tree stands somewhere in another one. `Part.kept_together`: then its tokens stand
  together among the tokens of the other one.
* `Tree.span?` is the range from the first to the last token. `span?_expression`: for an expression
  it is its span.
-/
namespace ReplayShell.Syntax

/-! ## Tokens -/

/-- The token that the tree keeps of a piece. -/
def Piece.kept? : Piece → Option Token
  | .kept token => some token
  | .mark _ | .spare => none

/-- The tokens that the tree keeps, in order. -/
def Tree.kept (tree : Tree) : List Token := tree.pieces.filterMap Piece.kept?

@[simp] theorem kept?_mark (kind : Kind) (pieces : List Piece) :
    (Piece.mark kind :: pieces).filterMap Piece.kept? = pieces.filterMap Piece.kept? := rfl

@[simp] theorem kept?_kept (token : Token) (pieces : List Piece) :
    (Piece.kept token :: pieces).filterMap Piece.kept? =
      token :: pieces.filterMap Piece.kept? := rfl

@[simp] theorem kept?_separator (last : Bool) (pieces : List Piece) :
    (Piece.separator last :: pieces).filterMap Piece.kept? = pieces.filterMap Piece.kept? := by
  cases last <;> rfl

/-! ## Children -/

/-- What an expression is made of. -/
@[simp] def Expression.children : Expression → List Tree
  | .literal token _ => [.token token]
  | .name identifier => [.token identifier]
  | .assignment identifier value => [.token identifier, .expression value]
  | .unary operator operand => [.token operator, .expression operand]
  | .binary left operator right => [.expression left, .token operator, .expression right]
  | .parenthesized opening inner closing => [.token opening, .expression inner, .token closing]
  | .call identifier arguments closing =>
    .token identifier :: (arguments.map Tree.expression ++ [.token closing])

/-- What a statement is made of. -/
@[simp] def Statement.children : Statement → List Tree
  | .block opening statements closing =>
    .token opening :: (statements.map Tree.statement ++ [.token closing])
  | .variable keyword identifier initializer =>
    [.token keyword, .token identifier, .expression initializer]
  | .conditional keyword condition thenBranch elseBranch =>
    .token keyword :: .expression condition :: .statement thenBranch ::
      elseBranch.toList.map Tree.statement
  | .loop keyword condition body => [.token keyword, .expression condition, .statement body]
  | .return keyword value => .token keyword :: value.toList.map Tree.expression
  | .expression evaluated => [.expression evaluated]

/-- What a function declaration is made of. -/
@[simp] def FunctionDeclaration.children (declaration : FunctionDeclaration) : List Tree :=
  .token declaration.keyword :: .token declaration.identifier ::
    (declaration.parameters.map Tree.token ++ .token declaration.opening ::
      (declaration.body.map Tree.statement ++ [.token declaration.closing]))

/-- What a tree is made of, in order. -/
@[simp] def Tree.children : Tree → List Tree
  | .token _ => []
  | .tokens read => read.map Tree.token
  | .expression read => read.children
  | .expressions read => read.map Tree.expression
  | .statement read => read.children
  | .statements read => read.map Tree.statement
  | .function read => read.children
  | .member (.function declaration) => [.function declaration]
  | .member (.statement outer) => [.statement outer]
  | .members read => read.map Tree.member

/-- What a submission is made of. -/
def Submission.children (submission : Submission) : List Tree :=
  submission.members.map Tree.member ++ [.token submission.endOfFile]

theorem kept_arguments (arguments : List Expression) :
    (argumentPieces arguments).filterMap Piece.kept? =
      (arguments.map Tree.expression).flatMap Tree.kept := by
  induction arguments with
  | nil => rfl
  | cons first more ih => simp [argumentPieces, ih, Tree.kept, Tree.pieces]

theorem kept_parameters (parameters : List Token) :
    (parameterPieces parameters).filterMap Piece.kept? =
      (parameters.map Tree.token).flatMap Tree.kept := by
  induction parameters with
  | nil => rfl
  | cons first more ih => simp [parameterPieces, ih, Tree.kept, Tree.pieces]

theorem kept_statements (statements : List Statement) :
    (statementPieces statements).filterMap Piece.kept? =
      (statements.map Tree.statement).flatMap Tree.kept := by
  induction statements with
  | nil => rfl
  | cons first more ih => simp [statementPieces, ih, Tree.kept, Tree.pieces]

theorem kept_members (members : List Member) :
    (memberPieces members).filterMap Piece.kept? =
      (members.map Tree.member).flatMap Tree.kept := by
  induction members with
  | nil => rfl
  | cons first more ih => simp [memberPieces, ih, Tree.kept, Tree.pieces]

theorem kept_else (elseBranch : Option Statement) :
    (elsePieces elseBranch).filterMap Piece.kept? =
      (elseBranch.toList.map Tree.statement).flatMap Tree.kept := by
  cases elseBranch <;> simp [elsePieces, Tree.kept, Tree.pieces]

/-- The tokens of a tree are those of its children, one child after the other. -/
theorem kept_children {tree : Tree} (h : tree.children ≠ []) :
    tree.kept = tree.children.flatMap Tree.kept := by
  cases tree with
  | token token => exact absurd rfl h
  | tokens read => exact kept_parameters read
  | expressions read => exact kept_arguments read
  | statements read => exact kept_statements read
  | members read => exact kept_members read
  | member read => cases read <;> simp [Tree.kept, Tree.pieces, Member.pieces]
  | function read =>
    simp [Tree.kept, Tree.pieces, FunctionDeclaration.pieces, kept_parameters, kept_statements]
  | expression read =>
    cases read <;> simp [Tree.kept, Tree.pieces, Expression.pieces, kept_arguments]
  | statement read =>
    cases read with
    | «return» keyword value =>
      cases value <;> simp [Tree.kept, Tree.pieces, Statement.pieces]
    | _ => simp [Tree.kept, Tree.pieces, Statement.pieces, kept_statements, kept_else]

/-! ## Parts -/

/-- The first tree is the second one, or stands in it. -/
inductive Part (part : Tree) : Tree → Prop
  | self : Part part part
  | child {child tree : Tree} (h : Part part child) (hc : child ∈ tree.children) : Part part tree

theorem Part.trans {part middle tree : Tree} (h : Part part middle) (h' : Part middle tree) :
    Part part tree := by
  induction h' with
  | self => exact h
  | child _ hc ih => exact .child ih hc

theorem part_child {child tree : Tree} (h : child ∈ tree.children) : Part child tree :=
  .child .self h

/-- The tokens of a part stand together among those of the tree. -/
theorem Part.kept_together {part tree : Tree} (h : Part part tree) : part.kept <:+: tree.kept := by
  induction h with
  | self => exact List.infix_rfl
  | @child child tree _ hc ih =>
    have hchild : child.kept <:+: tree.kept := by
      rw [kept_children (List.ne_nil_of_mem hc), List.flatMap_def]
      exact List.infix_of_mem_flatten (List.mem_map_of_mem hc)
    exact ih.trans hchild

/-- The tokens that a submission keeps, its end included. -/
def Submission.kept (submission : Submission) : List Token :=
  submission.children.flatMap Tree.kept

/-- The tree stands somewhere in the submission. -/
def Submission.Has (submission : Submission) (part : Tree) : Prop :=
  ∃ child ∈ submission.children, Part part child

theorem Submission.Has.kept_together {submission : Submission} {part : Tree}
    (h : submission.Has part) : part.kept <:+: submission.kept := by
  obtain ⟨child, hc, hpart⟩ := h
  have hchild : child.kept <:+: submission.kept := by
    rw [Submission.kept, List.flatMap_def]
    exact List.infix_of_mem_flatten (List.mem_map_of_mem hc)
  exact hpart.kept_together.trans hchild

/-! ## Spans -/

/-- From the first to the last of the tokens, if there are any. -/
def spanOf (tokens : List Token) : Option Span :=
  match tokens.head?, tokens.getLast? with
  | some first, some last => some (first.span.to last.span)
  | _, _ => none

/-- From the first to the last token of a tree. -/
def Tree.span? (tree : Tree) : Option Span := spanOf tree.kept

theorem spanOf_eq_some {ts : List Token} {span : Span} : spanOf ts = some span ↔
    ∃ first last, ts.head? = some first ∧ ts.getLast? = some last ∧
      first.span.to last.span = span := by
  unfold spanOf
  constructor
  · intro h
    split at h
    · rename_i first last hfirst hlast
      exact ⟨first, last, hfirst, hlast, Option.some.inj h⟩
    · cases h
  · rintro ⟨first, last, hfirst, hlast, rfl⟩
    rw [hfirst, hlast]

theorem spanOf_append {ts us : List Token} {first last : Span} (ht : spanOf ts = some first)
    (middle : List Token) (hu : spanOf us = some last) :
    spanOf (ts ++ (middle ++ us)) = some (first.to last) := by
  obtain ⟨a, b, ha, hb, rfl⟩ := spanOf_eq_some.1 ht
  obtain ⟨c, d, hc, hd, rfl⟩ := spanOf_eq_some.1 hu
  apply spanOf_eq_some.2
  refine ⟨a, d, ?_, ?_, rfl⟩
  · rw [List.head?_append, ha, Option.some_or]
  · rw [← List.append_assoc, List.getLast?_append, hd, Option.some_or]

@[simp] theorem span?_token (token : Token) : (Tree.token token).span? = some token.span := rfl

/-- The span of an expression is the range of its tokens. -/
theorem span?_expression (expression : Expression) :
    (Tree.expression expression).span? = some expression.span := by
  cases expression with
  | literal | name => rfl
  | assignment identifier value =>
    exact spanOf_append (span?_token identifier) [] (span?_expression value)
  | unary operator operand =>
    exact spanOf_append (span?_token operator) [] (span?_expression operand)
  | binary left operator right =>
    have hkept : (Tree.expression (.binary left operator right)).kept =
        (Tree.expression left).kept ++ ([operator] ++ (Tree.expression right).kept) := by
      simp [Tree.kept, Tree.pieces, Expression.pieces]
    rw [Tree.span?, hkept]
    exact spanOf_append (span?_expression left) [operator] (span?_expression right)
  | parenthesized opening inner closing =>
    have hkept : (Tree.expression (.parenthesized opening inner closing)).kept =
        [opening] ++ ((Tree.expression inner).kept ++ [closing]) := by
      simp [Tree.kept, Tree.pieces, Expression.pieces]
    rw [Tree.span?, hkept]
    exact spanOf_append (span?_token opening) _ (span?_token closing)
  | call identifier arguments closing =>
    have hkept : (Tree.expression (.call identifier arguments closing)).kept =
        [identifier] ++ ((Tree.expressions arguments).kept ++ [closing]) := by
      simp [Tree.kept, Tree.pieces, Expression.pieces]
    rw [Tree.span?, hkept]
    exact spanOf_append (span?_token identifier) _ (span?_token closing)

end ReplayShell.Syntax
