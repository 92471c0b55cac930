import ReplayShell.Syntax.Tree
import ReplayShell.Text.Lines
import ReplayShell.Text.Quoted

/-!
# Outlines of syntax trees

A tree is shown with one line per node and per token, children two columns further right than their
parent. `Submission.outline` is the whole text.
-/
namespace ReplayShell.Syntax

open Text (indentedLine quote)

/-- The line of a token: its kind, and its text unless it is missing. -/
def Token.outline (indent : Nat) (token : Token) : String :=
  indentedLine indent (token.kind.name ++
    if token.missing then " (missing)" else " " ++ quote token.text)

mutual

/-- The lines of an expression. -/
def Expression.outline (indent : Nat) : Expression → String
  | .literal token _ => indentedLine indent "LiteralExpression" ++ token.outline (indent + 2)
  | .name identifier => indentedLine indent "NameExpression" ++ identifier.outline (indent + 2)
  | .assignment identifier value =>
    indentedLine indent "AssignmentExpression" ++ identifier.outline (indent + 2) ++
      value.outline (indent + 2)
  | .unary operator operand =>
    indentedLine indent "UnaryExpression" ++ operator.outline (indent + 2) ++
      operand.outline (indent + 2)
  | .binary left operator right =>
    indentedLine indent "BinaryExpression" ++ left.outline (indent + 2) ++
      operator.outline (indent + 2) ++ right.outline (indent + 2)
  | .parenthesized opening inner closing =>
    indentedLine indent "ParenthesizedExpression" ++ opening.outline (indent + 2) ++
      inner.outline (indent + 2) ++ closing.outline (indent + 2)
  | .call identifier arguments closing =>
    indentedLine indent "CallExpression" ++ identifier.outline (indent + 2) ++
      outlineExpressions (indent + 2) arguments ++ closing.outline (indent + 2)

/-- The lines of expressions, one after the other. -/
def outlineExpressions (indent : Nat) : List Expression → String
  | [] => ""
  | expression :: rest => expression.outline indent ++ outlineExpressions indent rest

end

mutual

/-- The lines of a statement. -/
def Statement.outline (indent : Nat) : Statement → String
  | .block opening statements closing =>
    indentedLine indent "BlockStatement" ++ opening.outline (indent + 2) ++
      outlineStatements (indent + 2) statements ++ closing.outline (indent + 2)
  | .variable keyword identifier initializer =>
    indentedLine indent "VariableDeclaration" ++ keyword.outline (indent + 2) ++
      identifier.outline (indent + 2) ++ initializer.outline (indent + 2)
  | .conditional keyword condition thenBranch elseBranch =>
    indentedLine indent "IfStatement" ++ keyword.outline (indent + 2) ++
      condition.outline (indent + 2) ++ thenBranch.outline (indent + 2) ++
      outlineElse (indent + 2) elseBranch
  | .loop keyword condition body =>
    indentedLine indent "WhileStatement" ++ keyword.outline (indent + 2) ++
      condition.outline (indent + 2) ++ body.outline (indent + 2)
  | .return keyword value =>
    indentedLine indent "ReturnStatement" ++ keyword.outline (indent + 2) ++
      match value with
      | none => ""
      | some value => value.outline (indent + 2)
  | .expression expression =>
    indentedLine indent "ExpressionStatement" ++ expression.outline (indent + 2)

/-- The lines of statements, one after the other. -/
def outlineStatements (indent : Nat) : List Statement → String
  | [] => ""
  | statement :: rest => statement.outline indent ++ outlineStatements indent rest

/-- The lines of an else branch, if there is one. -/
def outlineElse (indent : Nat) : Option Statement → String
  | none => ""
  | some statement => indentedLine indent "ElseClause" ++ statement.outline (indent + 2)

end

/-- The lines of a function declaration. -/
def FunctionDeclaration.outline (indent : Nat) (declaration : FunctionDeclaration) : String :=
  indentedLine indent "FunctionDeclaration" ++ declaration.keyword.outline (indent + 2) ++
    declaration.identifier.outline (indent + 2) ++
    String.join (declaration.parameters.map fun parameter =>
      indentedLine (indent + 2) "Parameter" ++ parameter.outline (indent + 4)) ++
    Statement.outline (indent + 2)
      (.block declaration.opening declaration.body declaration.closing)

/-- The lines of a member. -/
def Member.outline (indent : Nat) (member : Member) : String :=
  match member with
  | .function declaration => declaration.outline indent
  | .statement node => node.outline indent

/-- The whole tree, the end-of-file token last. -/
def Submission.outline (submission : Submission) : String :=
  indentedLine 0 "CompilationUnit" ++ String.join (submission.members.map (Member.outline 2)) ++
    submission.endOfFile.outline 2

end ReplayShell.Syntax
