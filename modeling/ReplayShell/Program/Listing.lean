import ReplayShell.Program.Basic
import ReplayShell.Text.Lines
import ReplayShell.Text.Quoted

/-!
# Listings of resolved programs

A resolved program is shown as source text with four columns per level and every operator in
parentheses, so the grouping is explicit.

* `Expression.text` writes an expression, `Statement.listing` a statement at an indentation.
* `Function.listing` writes a declaration with its body, `Program.listing` a submission.
-/
namespace ReplayShell

open Text (indentedLine quote)

namespace Program

/-- A literal as written in a listing. -/
def literalText : Value → String
  | .string value => quote value
  | value => value.text

mutual

/-- An expression as written in a listing; `?` stands for one that could not be resolved. -/
def Expression.text : Expression → String
  | .invalid => "?"
  | .literal value => literalText value
  | .variable ref _ => ref.name
  | .assignment ref value => ref.name ++ " = " ++ value.text
  | .unary op operand _ => op.symbol ++ operand.text
  | .binary left op right _ => "(" ++ left.text ++ " " ++ op.symbol ++ " " ++ right.text ++ ")"
  | .call name _ arguments _ => name ++ "(" ++ ", ".intercalate (expressionTexts arguments) ++ ")"

/-- Expressions as written in a listing. -/
def expressionTexts : List Expression → List String
  | [] => []
  | expression :: rest => expression.text :: expressionTexts rest

end

/-- The indentation of a statement below a condition: a block stays at the condition's own. -/
def nestedIndent (indent : Nat) : Statement → Nat
  | .block _ => indent
  | _ => indent + 4

mutual

/-- The lines of a statement. -/
def Statement.listing (indent : Nat) : Statement → String
  | .block statements =>
    -- A brace that stands alone in a text is written by its code.
    indentedLine indent "\x7b" ++ listStatements (indent + 4) statements ++
      indentedLine indent "\x7d"
  | .variable ref readOnly initializer =>
    indentedLine indent ((if readOnly then "let " else "var ") ++ ref.name ++ " = " ++
      initializer.text)
  | .conditional condition thenBranch elseBranch =>
    indentedLine indent ("if " ++ condition.text) ++
      thenBranch.listing (nestedIndent indent thenBranch) ++ listElse indent elseBranch
  | .loop condition body =>
    indentedLine indent ("while " ++ condition.text) ++ body.listing (nestedIndent indent body)
  | .return value =>
    indentedLine indent ("return" ++ match value with
      | none => ""
      | some value => " " ++ value.text)
  | .expression expression => indentedLine indent expression.text

/-- The lines of statements, one after the other. -/
def listStatements (indent : Nat) : List Statement → String
  | [] => ""
  | statement :: rest => statement.listing indent ++ listStatements indent rest

/-- The lines of an else branch, if there is one. -/
def listElse (indent : Nat) : Option Statement → String
  | none => ""
  | some statement =>
    indentedLine indent "else" ++ statement.listing (nestedIndent indent statement)

end

/-- The lines of a function. -/
def Function.listing (function : Function) : String :=
  function.symbol.signature ++ " \x7b\n" ++ listStatements 4 function.body ++ "\x7d\n"

end Program

/-- The lines of a submission: the functions that it declares, then its statements. -/
def Program.listing (program : Program) : String :=
  String.join (program.functions.map Program.Function.listing) ++
    Program.listStatements 0 program.statements

end ReplayShell
