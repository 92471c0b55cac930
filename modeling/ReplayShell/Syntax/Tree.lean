import ReplayShell.Syntax.Token

/-!
# Syntax trees

* `Expression`, `Statement` and `Member` are the nodes of a submission; each keeps the tokens it was
  read from, the missing ones included. Separators that only delimit lists, and the `=` and `else`
  of statements, are not kept.
* `Submission` is a whole tree, with the last token of its last member.
* `Expression.span` is the range from the first to the last kept token of an expression.
-/
namespace ReplayShell.Syntax

/-- Expressions as written. -/
inductive Expression where
  | literal (token : Token) (value : Value)
  | name (identifier : Token)
  | assignment (identifier : Token) (value : Expression)
  | unary (operator : Token) (operand : Expression)
  | binary (left : Expression) (operator : Token) (right : Expression)
  | parenthesized (opening : Token) (inner : Expression) (closing : Token)
  | call (identifier : Token) (arguments : List Expression) (closing : Token)

/-- Statements as written. -/
inductive Statement where
  | block (opening : Token) (statements : List Statement) (closing : Token)
  | variable (keyword identifier : Token) (initializer : Expression)
  | conditional (keyword : Token) (condition : Expression) (thenBranch : Statement)
      (elseBranch : Option Statement)
  | loop (keyword : Token) (condition : Expression) (body : Statement)
  | return (keyword : Token) (value : Option Expression)
  | expression (expression : Expression)

/-- A function declaration; its body is a block. -/
structure FunctionDeclaration where
  keyword : Token
  identifier : Token
  parameters : List Token
  opening : Token
  body : List Statement
  closing : Token

/-- What stands at the top level of a submission. -/
inductive Member where
  | function (declaration : FunctionDeclaration)
  | statement (statement : Statement)

/-- The tree of a whole submission. -/
structure Submission where
  members : List Member
  /-- The last token that the last member read or found missing. -/
  lastToken : Option Token
  endOfFile : Token

/-- From the first to the last kept token. -/
def Expression.span : Expression → Span
  | .literal token _ => token.span
  | .name identifier => identifier.span
  | .assignment identifier value => identifier.span.to value.span
  | .unary operator operand => operator.span.to operand.span
  | .binary left _ right => left.span.to right.span
  | .parenthesized opening _ closing => opening.span.to closing.span
  | .call identifier _ closing => identifier.span.to closing.span

end ReplayShell.Syntax
