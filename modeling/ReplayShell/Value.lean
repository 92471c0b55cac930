/-!
# Values

* `Value` is what expressions produce: integers of 64 bits, truth values and texts.
* `InRange` is the range of the integers; `Value.Bounded` says that a value keeps to it.
* `Value.text` is the displayed form.
-/
namespace ReplayShell

/-- The least integer of the language. -/
def minInteger : Int := -9223372036854775808

/-- The greatest integer of the language. -/
def maxInteger : Int := 9223372036854775807

/-- Whether the number is an integer of the language. -/
def InRange (n : Int) : Prop := minInteger ≤ n ∧ n ≤ maxInteger

instance (n : Int) : Decidable (InRange n) := inferInstanceAs (Decidable (_ ∧ _))

/-- The values of the language. -/
inductive Value where
  | integer (value : Int)
  | boolean (value : Bool)
  | string (value : String)
  deriving DecidableEq, Repr

/-- The types of values. -/
inductive ValueType where
  | integer
  | boolean
  | string
  deriving DecidableEq, Repr

/-- The name of the type. -/
def ValueType.name : ValueType → String
  | .integer => "integer"
  | .boolean => "boolean"
  | .string => "string"

namespace Value

/-- The type of a value. -/
def type : Value → ValueType
  | .integer _ => .integer
  | .boolean _ => .boolean
  | .string _ => .string

/-- The displayed form: integers in decimal, strings as they are. -/
def text : Value → String
  | .integer value => toString value
  | .boolean true => "true"
  | .boolean false => "false"
  | .string value => value

/-- Whether the value keeps to the range of the integers. -/
def Bounded : Value → Prop
  | .integer value => InRange value
  | _ => True

instance : DecidablePred Bounded := fun value => by
  unfold Bounded
  cases value <;> infer_instance

end Value

end ReplayShell
