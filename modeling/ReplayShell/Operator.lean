import ReplayShell.Syntax.Kind
import ReplayShell.Value

/-!
# Operators

* `UnaryOp` and `BinaryOp` are the operators of the language, with the token kinds that denote them
  and the symbols that write them.
* `UnaryOp.apply` and `BinaryOp.apply` compute on values and tell apart the three ways to fail.
-/
namespace ReplayShell

open Syntax (Kind)

/-- The operators in front of one operand. -/
inductive UnaryOp where
  | identity
  | negate
  | not
  deriving DecidableEq, Repr

/-- The operators between two operands. -/
inductive BinaryOp where
  | add
  | subtract
  | multiply
  | divide
  | remainder
  | equals
  | notEquals
  | less
  | lessOrEquals
  | greater
  | greaterOrEquals
  | and
  | or
  deriving DecidableEq, Repr

/-- Why an operator has no result. -/
inductive Undefined where
  | overflow
  | divisionByZero
  | operandType
  deriving DecidableEq, Repr

/-- The integer, unless it leaves the range. -/
def Value.checked (n : Int) : Except Undefined Value :=
  if InRange n then .ok (.integer n) else .error .overflow

namespace UnaryOp

/-- The operator that a token denotes before an operand. -/
def ofKind : Kind → UnaryOp
  | .minus => .negate
  | .bang => .not
  | _ => .identity

/-- The operator as written. -/
def symbol : UnaryOp → String
  | .identity => "+"
  | .negate => "-"
  | .not => "!"

/-- The value of the operator at its operand. -/
def apply (op : UnaryOp) (value : Value) : Except Undefined Value :=
  match op, value with
  | .identity, .integer n => .ok (.integer n)
  | .negate, .integer n => Value.checked (-n)
  | .not, .boolean b => .ok (.boolean !b)
  | _, _ => .error .operandType

end UnaryOp

namespace BinaryOp

/-- The operator that a token denotes between operands. -/
def ofKind? : Kind → Option BinaryOp
  | .plus => some .add
  | .minus => some .subtract
  | .star => some .multiply
  | .slash => some .divide
  | .percent => some .remainder
  | .equalsEquals => some .equals
  | .bangEquals => some .notEquals
  | .less => some .less
  | .lessEquals => some .lessOrEquals
  | .greater => some .greater
  | .greaterEquals => some .greaterOrEquals
  | .ampersandAmpersand => some .and
  | .pipePipe => some .or
  | _ => none

/-- The operator as written. -/
def symbol : BinaryOp → String
  | .add => "+"
  | .subtract => "-"
  | .multiply => "*"
  | .divide => "/"
  | .remainder => "%"
  | .equals => "=="
  | .notEquals => "!="
  | .less => "<"
  | .lessOrEquals => "<="
  | .greater => ">"
  | .greaterOrEquals => ">="
  | .and => "&&"
  | .or => "||"

/-- The value when the left operand alone decides it. -/
def shortCircuit? (op : BinaryOp) (left : Value) : Option Value :=
  match op, left with
  | .and, .boolean false => some (.boolean false)
  | .or, .boolean true => some (.boolean true)
  | _, _ => none

/-- The value of the operator at its operands. Division truncates; a quotient that leaves the range
is an overflow for the remainder too. -/
def apply (op : BinaryOp) (left right : Value) : Except Undefined Value :=
  match op, left, right with
  | .add, .integer a, .integer b => Value.checked (a + b)
  | .add, .string a, .string b => .ok (.string (a ++ b))
  | .subtract, .integer a, .integer b => Value.checked (a - b)
  | .multiply, .integer a, .integer b => Value.checked (a * b)
  | .divide, .integer a, .integer b =>
    if b = 0 then .error .divisionByZero else Value.checked (a.tdiv b)
  | .remainder, .integer a, .integer b =>
    if b = 0 then .error .divisionByZero
    else if InRange (a.tdiv b) then .ok (.integer (a.tmod b))
    else .error .overflow
  | .equals, a, b => .ok (.boolean (a == b))
  | .notEquals, a, b => .ok (.boolean (a != b))
  | .less, .integer a, .integer b => .ok (.boolean (a < b))
  | .lessOrEquals, .integer a, .integer b => .ok (.boolean (a ≤ b))
  | .greater, .integer a, .integer b => .ok (.boolean (b < a))
  | .greaterOrEquals, .integer a, .integer b => .ok (.boolean (b ≤ a))
  | .and, .boolean _, .boolean b => .ok (.boolean b)
  | .or, .boolean _, .boolean b => .ok (.boolean b)
  | _, _, _ => .error .operandType

theorem ofKind?_isSome_iff (kind : Kind) :
    (ofKind? kind).isSome ↔ kind.binaryPrecedence ≠ 0 := by
  cases kind <;> decide

end BinaryOp

end ReplayShell
