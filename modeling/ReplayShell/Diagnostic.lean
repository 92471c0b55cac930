import ReplayShell.Operator

/-!
# Diagnostics

* `Span` is a range of byte offsets in a submission.
* `Problem` lists what can be wrong with a submission, by the phase that finds it; `Problem.message`
  is the only place that words it.
* `Diagnostic` is a problem with its place.
-/
namespace ReplayShell

open Syntax (Kind)

/-- The bytes from `start` up to `stop`. -/
structure Span where
  start : Nat
  stop : Nat
  deriving DecidableEq, Repr, Inhabited

/-- The empty span at a place. -/
def Span.at (position : Nat) : Span := ⟨position, position⟩

/-- Whether the span holds no byte. -/
def Span.isEmpty (span : Span) : Bool := span.stop ≤ span.start

/-- From the start of one span to the end of another. -/
def Span.to (first last : Span) : Span := ⟨first.start, last.stop⟩

/-- The deepest chain of calls. -/
def maxCallDepth : Nat := 256

/-- What can be wrong with a submission. -/
inductive Problem where
  -- found while cutting the text into tokens
  | badCharacter (character : Char)
  | numberTooLarge (digits : String)
  | unterminatedString
  -- found while parsing
  | unexpectedToken (found expected : Kind)
  | nestedTooDeeply
  -- found while resolving names
  | alreadyDeclared (name : String)
  | returnOutsideFunction
  | unknownVariable (name : String)
  | readOnlyAssignment (name : String)
  | unknownFunction (name : String)
  | notAFunction (name : String)
  | argumentCount (name : String) (expected given : Nat)
  -- found while running
  | invalidCode
  | noValue
  | variableUnset (name : String)
  | functionWithoutBody (name : String)
  | callDepthExceeded
  | integerOverflow
  | divisionByZero
  | unaryUndefined (op : UnaryOp) (operand : ValueType)
  | binaryUndefined (op : BinaryOp) (left right : ValueType)
  | conditionNotBoolean (found : ValueType)
  deriving DecidableEq, Repr

/-- The text shown for a problem. -/
def Problem.message : Problem → String
  | .badCharacter character => "Bad character input: '" ++ character.toString ++ "'"
  | .numberTooLarge digits => "The number " ++ digits ++ " isn't a valid integer"
  | .unterminatedString => "Unterminated string literal"
  | .unexpectedToken found expected =>
    "Unexpected token <" ++ found.name ++ ">, expected <" ++ expected.name ++ ">"
  | .nestedTooDeeply => "Input is nested too deeply"
  | .alreadyDeclared name => "'" ++ name ++ "' is already declared"
  | .returnOutsideFunction => "The 'return' keyword can only be used inside functions"
  | .unknownVariable name => "Variable '" ++ name ++ "' doesn't exist"
  | .readOnlyAssignment name => "Variable '" ++ name ++ "' is read-only and cannot be assigned to"
  | .unknownFunction name => "Function '" ++ name ++ "' doesn't exist"
  | .notAFunction name => "'" ++ name ++ "' is not a function"
  | .argumentCount name expected given =>
    "Function '" ++ name ++ "' requires " ++ toString expected ++ " arguments but was given " ++
      toString given
  | .invalidCode => "Cannot evaluate invalid code"
  | .noValue => "Expression does not produce a value"
  | .variableUnset name => "Variable '" ++ name ++ "' has no value"
  | .functionWithoutBody name => "Function '" ++ name ++ "' has no body"
  | .callDepthExceeded => "Maximum call depth of " ++ toString maxCallDepth ++ " exceeded"
  | .integerOverflow => "Integer overflow"
  | .divisionByZero => "Division by zero"
  | .unaryUndefined op operand =>
    "Unary operator '" ++ op.symbol ++ "' is not defined for type " ++ operand.name
  | .binaryUndefined op left right =>
    "Binary operator '" ++ op.symbol ++ "' is not defined for types " ++ left.name ++ " and " ++
      right.name
  | .conditionNotBoolean found => "Condition must be a boolean, not " ++ found.name

/-- A problem and the bytes of the submission that show it. -/
structure Diagnostic where
  span : Span
  problem : Problem
  deriving DecidableEq, Repr

end ReplayShell
