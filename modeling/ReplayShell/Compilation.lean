import ReplayShell.Program.Execution
import ReplayShell.Program.Listing
import ReplayShell.Program.Resolution
import ReplayShell.Syntax.Parser

/-!
# Compilations

Each submission is compiled on top of the one before it. A compilation carries the names and the
function bodies of all of them, so it never looks back.

* `Compilation.chain` compiles a parsed submission on top of another compilation, or of nothing.
* `Compilation.evaluate` runs the submission, unless it has diagnostics.
* `Compilation.symbols` lists the visible names, functions first.
-/
namespace ReplayShell

open Program (FunctionMap)

/-- A submission compiled on top of earlier ones. -/
structure Compilation where
  /-- The generation of the compilation below, if there is one. -/
  base : Option Nat := none
  /-- How many submissions are compiled into this one, itself included. -/
  generation : Nat := 0
  program : Program := {}
  /-- The bodies of the functions of this submission and of those below. -/
  functions : FunctionMap := ∅
  /-- What is wrong with this submission; those below do not count. -/
  diagnostics : List Diagnostic := []

/-- What a listed name stands for. -/
inductive SymbolKind where
  | function
  | variable
  deriving DecidableEq, Ord, Repr

/-- A visible name with its declaration in short. -/
structure Symbol where
  kind : SymbolKind
  name : String
  signature : String
  deriving DecidableEq, Repr

/-- The order of a listing: functions first, then by name. -/
def Symbol.order (a b : Symbol) : Ordering := (compare a.kind b.kind).then (compare a.name b.name)

/-- What comes of running a compilation. -/
structure Evaluation where
  value : Option Value
  diagnostics : List Diagnostic
  /-- The global variables afterwards; a failed run may have changed some. -/
  globals : Variables
  printed : String

namespace Compilation

/-- The compilation of no submission. -/
def empty : Compilation := {}

/-- Compiles a submission on top of `previous`. -/
def chain (previous : Option Compilation) (tree : Syntax.Submission × List Diagnostic) :
    Compilation :=
  let below := previous.getD empty
  let generation := below.generation + 1
  let program := Program.resolve below.program.scope generation tree.1
  { base := previous.map Compilation.generation
    generation := generation
    program := program
    functions := program.functions.foldl
      (fun functions function => functions.insert function.symbol.id function) below.functions
    diagnostics := tree.2 ++ program.diagnostics }

/-- The visible names: functions, then variables. -/
def symbols (compilation : Compilation) : List Symbol :=
  let scope := compilation.program.scope
  scope.functions.toList.map (fun (_, symbol) => ⟨.function, symbol.name, symbol.signature⟩) ++
    scope.vars.toList.map fun (name, found) =>
      ⟨.variable, name, (if found.readOnly then "let " else "var ") ++ name⟩

/-- Runs the submission on the variables of the session; `none` if the fuel does not suffice. -/
def evaluate (compilation : Compilation) (fuel : Nat) (globals : Variables) :
    Option Evaluation :=
  if compilation.diagnostics.isEmpty then
    match compilation.program.run compilation.functions fuel globals with
    | .done value machine => some ⟨value, [], machine.globals, machine.printed⟩
    | .failed diagnostic machine => some ⟨none, [diagnostic], machine.globals, machine.printed⟩
    | .unfinished => none
  else some ⟨none, compilation.diagnostics, globals, ""⟩

/-- The listing of the submission. -/
def listing (compilation : Compilation) : String := compilation.program.listing

/-- The listing of the visible function of a name; empty if there is none. -/
def functionListing (compilation : Compilation) (name : String) : String :=
  let body := compilation.program.scope.functions[name]?.bind fun symbol =>
    compilation.functions[symbol.id]?
  match body with
  | some function => function.listing
  | none => ""

end Compilation

end ReplayShell
