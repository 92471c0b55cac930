import ReplayShell.Program.Basic
import ReplayShell.Syntax.Tree

/-!
# Resolution of names

A submission is resolved on top of the names that the earlier ones left behind. Its functions are
declared first, then its statements are resolved in order, then the bodies of its functions, which
therefore see every global of the submission.

* `Environment` is what a name can stand for at a point of the text.
* `resolveExpression` leaves the environment alone; `resolveStatement` may extend it.
* `Program.resolve` is the whole. Problems are collected in the order in which they are met.
-/
namespace ReplayShell.Program

open Syntax (Token FunctionDeclaration Member)

/-- A local variable: its place in the frame. -/
structure LocalVariable where
  index : Nat
  readOnly : Bool
  deriving DecidableEq, Repr

/-- The local variables that a block has declared so far, the newest first. -/
abbrev Block := List (String × LocalVariable)

/-- What names stand for at a point of a submission. -/
structure Environment where
  generation : Nat
  globals : GlobalScope
  /-- Global names that this submission has declared. -/
  declared : List String := []
  /-- The ordinal of the next global variable. -/
  nextVariable : Nat := 0
  /-- The open blocks, the innermost first; none at the top level. -/
  blocks : List Block := []
  /-- How many places of the frame are taken. -/
  frameSize : Nat := 0
  inFunction : Bool := false

namespace Environment

/-- The innermost variable of a name, and whether it is read-only. -/
def lookupVariable (env : Environment) (name : String) : Option (Slot × Bool) :=
  match env.blocks.findSome? (·.lookup name) with
  | some found => some (.local found.index, found.readOnly)
  | none => (env.globals.vars[name]?).map fun found => (.global found.id, found.readOnly)

/-- What a call of a name calls, and how many arguments it takes. -/
def lookupCallee (env : Environment) (name : String) : Option (Callee × Nat) :=
  match env.globals.functions[name]? with
  | some symbol => some (.function symbol.id, symbol.parameters.length)
  | none => if name = "print" then some (.print, 1) else none

/-- The complaint about a name that is declared twice; a missing name is never complained about. -/
def duplicate (identifier : Token) (taken : Bool) : List Diagnostic :=
  if taken && !identifier.missing then
    [⟨identifier.span, .alreadyDeclared identifier.text⟩]
  else []

/-- Declares a local variable in the innermost block. -/
def declareLocal (env : Environment) (block : Block) (outer : List Block) (identifier : Token)
    (readOnly : Bool) : Slot × Environment × List Diagnostic :=
  let taken := (block.lookup identifier.text).isSome
  (.local env.frameSize,
    { env with
      blocks := ((identifier.text, ⟨env.frameSize, readOnly⟩) :: block) :: outer
      frameSize := env.frameSize + 1 },
    duplicate identifier taken)

/-- Declares a global variable; a function of the name is shadowed. -/
def declareGlobal (env : Environment) (identifier : Token) (readOnly : Bool) :
    Slot × Environment × List Diagnostic :=
  let name := identifier.text
  let id : VariableId := ⟨env.generation, env.nextVariable⟩
  (.global id,
    { env with
      declared := if identifier.missing then env.declared else name :: env.declared
      nextVariable := env.nextVariable + 1
      globals :=
        { vars := env.globals.vars.insert name ⟨id, readOnly⟩
          functions := env.globals.functions.erase name } },
    duplicate identifier (env.declared.contains name))

/-- Declares a variable where the environment stands. -/
def declareVariable (env : Environment) (identifier : Token) (readOnly : Bool) :
    Slot × Environment × List Diagnostic :=
  match env.blocks with
  | block :: outer => env.declareLocal block outer identifier readOnly
  | [] => env.declareGlobal identifier readOnly

/-- Declares a function; a variable of the name is shadowed. A name that is missing or already
declared in the submission declares nothing. -/
def declareFunction (env : Environment) (declaration : FunctionDeclaration) (ordinal : Nat) :
    Option FunctionSymbol × Environment × List Diagnostic :=
  let identifier := declaration.identifier
  let name := identifier.text
  if identifier.missing then (none, env, [])
  else if env.declared.contains name then (none, env, duplicate identifier true)
  else
    let symbol : FunctionSymbol :=
      ⟨⟨env.generation, ordinal⟩, name, declaration.parameters.map Token.text⟩
    (some symbol,
      { env with
        declared := name :: env.declared
        globals :=
          { vars := env.globals.vars.erase name
            functions := env.globals.functions.insert name symbol } },
      [])

/-- Opens a block. -/
def openBlock (env : Environment) : Environment := { env with blocks := [] :: env.blocks }

/-- Closes the innermost block. Its places in the frame stay taken. -/
def closeBlock (env : Environment) : Environment := { env with blocks := env.blocks.tail }

end Environment

/-- A call of a name with resolved arguments. -/
def resolveCall (env : Environment) (identifier : Token) (arguments : List Expression)
    (span : Span) : Expression × List Diagnostic :=
  let name := identifier.text
  match env.lookupCallee name with
  | none =>
    let problem : Problem :=
      if (env.lookupVariable name).isSome then .notAFunction name else .unknownFunction name
    (.invalid, [⟨identifier.span, problem⟩])
  | some (callee, arity) =>
    if arguments.length = arity then (.call name callee arguments span, [])
    else (.invalid, [⟨span, .argumentCount name arity arguments.length⟩])

mutual

/-- Resolves an expression. -/
def resolveExpression (env : Environment) : Syntax.Expression → Expression × List Diagnostic
  | .literal _ value => (.literal value, [])
  | .name identifier =>
    if identifier.missing then (.invalid, [])
    else match env.lookupVariable identifier.text with
      | some (slot, _) => (.variable ⟨identifier.text, slot⟩ identifier.span, [])
      | none => (.invalid, [⟨identifier.span, .unknownVariable identifier.text⟩])
  | .assignment identifier value =>
    let (value, problems) := resolveExpression env value
    match env.lookupVariable identifier.text with
    | some (_, true) =>
      (.invalid, problems ++ [⟨identifier.span, .readOnlyAssignment identifier.text⟩])
    | some (slot, false) => (.assignment ⟨identifier.text, slot⟩ value, problems)
    | none => (.invalid, problems ++ [⟨identifier.span, .unknownVariable identifier.text⟩])
  | .unary operator operand =>
    let span := operator.span.to operand.span
    let (operand, problems) := resolveExpression env operand
    (.unary (UnaryOp.ofKind operator.kind) operand span, problems)
  | .binary left operator right =>
    let span := left.span.to right.span
    let (left, leftProblems) := resolveExpression env left
    let (right, rightProblems) := resolveExpression env right
    match BinaryOp.ofKind? operator.kind with
    | some op => (.binary left op right span, leftProblems ++ rightProblems)
    | none => (.invalid, leftProblems ++ rightProblems)
  | .parenthesized _ inner _ => resolveExpression env inner
  | .call identifier arguments closing =>
    let (arguments, problems) := resolveExpressions env arguments
    let (call, more) := resolveCall env identifier arguments (identifier.span.to closing.span)
    (call, problems ++ more)

/-- Resolves expressions in order. -/
def resolveExpressions (env : Environment) :
    List Syntax.Expression → List Expression × List Diagnostic
  | [] => ([], [])
  | expression :: rest =>
    let (expression, problems) := resolveExpression env expression
    let (rest, more) := resolveExpressions env rest
    (expression :: rest, problems ++ more)

end

mutual

/-- Resolves a statement; the environment after it may know more names. -/
def resolveStatement (env : Environment) :
    Syntax.Statement → Statement × Environment × List Diagnostic
  | .block _ statements _ =>
    let (statements, env, problems) := resolveStatements env.openBlock statements
    (.block statements, env.closeBlock, problems)
  | .variable keyword identifier initializer =>
    -- The initializer still sees an outer variable of the same name.
    let (initializer, problems) := resolveExpression env initializer
    let readOnly : Bool := keyword.kind = .letKeyword
    let (slot, env, more) := env.declareVariable identifier readOnly
    (.variable ⟨identifier.text, slot⟩ readOnly initializer, env, problems ++ more)
  | .conditional _ condition thenBranch elseBranch =>
    let (condition, problems) := resolveExpression env condition
    let (thenBranch, env, thenProblems) := resolveStatement env thenBranch
    let (elseBranch, env, elseProblems) := resolveElse env elseBranch
    (.conditional condition thenBranch elseBranch, env, problems ++ (thenProblems ++ elseProblems))
  | .loop _ condition body =>
    let (condition, problems) := resolveExpression env condition
    let (body, env, more) := resolveStatement env body
    (.loop condition body, env, problems ++ more)
  | .return keyword value =>
    let misplaced : List Diagnostic :=
      if env.inFunction then [] else [⟨keyword.span, .returnOutsideFunction⟩]
    match value with
    | none => (.return none, env, misplaced)
    | some value =>
      let (value, problems) := resolveExpression env value
      (.return (some value), env, misplaced ++ problems)
  | .expression expression =>
    let (expression, problems) := resolveExpression env expression
    (.expression expression, env, problems)

/-- Resolves statements in order. -/
def resolveStatements (env : Environment) :
    List Syntax.Statement → List Statement × Environment × List Diagnostic
  | [] => ([], env, [])
  | statement :: rest =>
    let (statement, env, problems) := resolveStatement env statement
    let (rest, env, more) := resolveStatements env rest
    (statement :: rest, env, problems ++ more)

/-- Resolves an else branch, if there is one. -/
def resolveElse (env : Environment) :
    Option Syntax.Statement → Option Statement × Environment × List Diagnostic
  | none => (none, env, [])
  | some statement =>
    let (statement, env, problems) := resolveStatement env statement
    (some statement, env, problems)

end

/-- Declares the parameters of a function; missing ones take no place. -/
def declareParameters (env : Environment) : List Token → Environment × List Diagnostic
  | [] => (env, [])
  | parameter :: rest =>
    if parameter.missing then declareParameters env rest
    else
      let (_, env, problems) := env.declareVariable parameter false
      let (env, more) := declareParameters env rest
      (env, problems ++ more)

/-- Resolves the body of a declared function in the globals of the whole submission. -/
def resolveFunction (globals : Environment) (symbol : FunctionSymbol)
    (declaration : FunctionDeclaration) : Function × List Diagnostic :=
  let env := { globals with inFunction := true, frameSize := 0, blocks := [[]] }
  let (env, problems) := declareParameters env declaration.parameters
  let (body, env, more) := resolveStatements env.openBlock declaration.body
  (⟨symbol, env.frameSize, body⟩, problems ++ more)

/-- Resolves function bodies in order. -/
def resolveFunctions (globals : Environment) :
    List (FunctionSymbol × FunctionDeclaration) → List Function × List Diagnostic
  | [] => ([], [])
  | (symbol, declaration) :: rest =>
    let (function, problems) := resolveFunction globals symbol declaration
    let (functions, more) := resolveFunctions globals rest
    (function :: functions, problems ++ more)

/-- The function declarations among members, in order. -/
def functionDeclarations (members : List Member) : List FunctionDeclaration :=
  members.filterMap fun
    | .function declaration => some declaration
    | .statement _ => none

/-- The statements among members, in order. -/
def topLevelStatements (members : List Member) : List Syntax.Statement :=
  members.filterMap fun
    | .function _ => none
    | .statement statement => some statement

/-- Declares functions, numbering those that are new. -/
def declareFunctions (env : Environment) (ordinal : Nat) : List FunctionDeclaration →
    List (FunctionSymbol × FunctionDeclaration) × Environment × List Diagnostic
  | [] => ([], env, [])
  | declaration :: rest =>
    let (symbol, env, problems) := env.declareFunction declaration ordinal
    match symbol with
    | none =>
      let (declared, env, more) := declareFunctions env ordinal rest
      (declared, env, problems ++ more)
    | some symbol =>
      let (declared, env, more) := declareFunctions env (ordinal + 1) rest
      ((symbol, declaration) :: declared, env, problems ++ more)

/-- Resolves a submission on top of the names left by the earlier ones. -/
def resolve (previous : GlobalScope) (generation : Nat) (submission : Syntax.Submission) :
    Program :=
  let env : Environment := { generation := generation, globals := previous }
  let (declared, env, declarationProblems) :=
    declareFunctions env 0 (functionDeclarations submission.members)
  let (statements, env, statementProblems) :=
    resolveStatements env (topLevelStatements submission.members)
  let (functions, functionProblems) := resolveFunctions env declared
  { scope := env.globals
    functions := functions
    statements := statements
    frameSize := env.frameSize
    diagnostics := declarationProblems ++ (statementProblems ++ functionProblems) }

end ReplayShell.Program
