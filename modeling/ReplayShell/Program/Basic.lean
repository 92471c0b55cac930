import ReplayShell.Diagnostic
import Std.Data.ExtTreeMap

/-!
# Resolved programs

In a resolved program every name has been replaced by what it stands for.

* `DeclarationId` numbers the variables, and apart from them the functions, of a session: by the
  submission that declares them and their order in it. Replaying the same submissions therefore
  gives the same numbers.
* `Expression` and `Statement` are the resolved trees, `Function` a declared function.
* `GlobalScope` holds the names visible at the top level after a submission.
* `Program` is a whole resolved submission.
-/
namespace ReplayShell

/-- The number of a global declaration: its submission and its place there. -/
structure DeclarationId where
  generation : Nat
  ordinal : Nat
  deriving DecidableEq, Repr

namespace DeclarationId

instance : Ord DeclarationId :=
  ⟨compareLex (compareOn DeclarationId.generation) (compareOn DeclarationId.ordinal)⟩

instance : Std.TransOrd DeclarationId :=
  inferInstanceAs (Std.TransCmp
    (compareLex (compareOn DeclarationId.generation) (compareOn DeclarationId.ordinal)))

instance : Std.LawfulEqOrd DeclarationId where
  compare_self := Std.ReflOrd.compare_self
  eq_of_compare {a b} h := by
    have h : (compare a.generation b.generation).then (compare a.ordinal b.ordinal) = .eq := h
    obtain ⟨hg, ho⟩ := Ordering.then_eq_eq.1 h
    cases a
    cases b
    cases Std.LawfulEqOrd.eq_of_compare hg
    cases Std.LawfulEqOrd.eq_of_compare ho
    rfl

end DeclarationId

/-- The number of a global variable. -/
abbrev VariableId := DeclarationId

/-- The number of a function. -/
abbrev FunctionId := DeclarationId

/-- The values of global variables. -/
abbrev Variables := Std.ExtTreeMap VariableId Value compare

/-- A map from names, in the order of their characters. -/
abbrev NameMap (α : Type) := Std.ExtTreeMap String α compare

namespace Program

/-- Where a variable lives. -/
inductive Slot where
  | global (id : VariableId)
  /-- A place in the frame of the current call. -/
  | local (index : Nat)
  deriving DecidableEq, Repr

/-- A use of a variable. -/
structure VariableRef where
  name : String
  slot : Slot
  deriving DecidableEq, Repr

/-- What a call calls. -/
inductive Callee where
  | function (id : FunctionId)
  | print
  deriving DecidableEq, Repr

/-- Resolved expressions. Assignments and literals have no span of their own. -/
inductive Expression where
  /-- Stands for an expression that could not be resolved. -/
  | invalid
  | literal (value : Value)
  | variable (ref : VariableRef) (span : Span)
  | assignment (ref : VariableRef) (value : Expression)
  | unary (op : UnaryOp) (operand : Expression) (span : Span)
  | binary (left : Expression) (op : BinaryOp) (right : Expression) (span : Span)
  | call (name : String) (callee : Callee) (arguments : List Expression) (span : Span)
  deriving Repr

/-- Resolved statements. -/
inductive Statement where
  | block (statements : List Statement)
  | variable (ref : VariableRef) (readOnly : Bool) (initializer : Expression)
  | conditional (condition : Expression) (thenBranch : Statement) (elseBranch : Option Statement)
  | loop (condition : Expression) (body : Statement)
  | return (value : Option Expression)
  | expression (expression : Expression)
  deriving Repr

/-- A global variable as seen by name. -/
structure GlobalVariable where
  id : VariableId
  readOnly : Bool
  deriving DecidableEq, Repr

/-- A function as seen by name. -/
structure FunctionSymbol where
  id : FunctionId
  name : String
  parameters : List String
  deriving DecidableEq, Repr

/-- The head of the declaration, as listed. -/
def FunctionSymbol.signature (symbol : FunctionSymbol) : String :=
  "function " ++ symbol.name ++ "(" ++ ", ".intercalate symbol.parameters ++ ")"

/-- A resolved function. The frame holds the parameters first and then every local of the body. -/
structure Function where
  symbol : FunctionSymbol
  frameSize : Nat
  body : List Statement
  deriving Repr

/-- The names visible at the top level. -/
structure GlobalScope where
  vars : NameMap GlobalVariable := ∅
  functions : NameMap FunctionSymbol := ∅

end Program

/-- A resolved submission. -/
structure Program where
  /-- The names visible after it. -/
  scope : Program.GlobalScope := {}
  /-- The functions that it declares. -/
  functions : List Program.Function := []
  statements : List Program.Statement := []
  /-- The frame size for locals of top-level blocks. -/
  frameSize : Nat := 0
  diagnostics : List Diagnostic := []

end ReplayShell
