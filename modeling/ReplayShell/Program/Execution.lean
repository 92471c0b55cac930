import ReplayShell.Program.Basic

/-!
# Running resolved programs

A run is a function of the fuel it may use. With enough fuel a run that ends gives its result, and
more fuel gives the same; a run that would not end is `Run.unfinished` for any fuel.

* `Machine` is what a run changes: global variables, the frame of the current call, printed text.
* `evaluate` and `execute` run expressions and statements; calls nest at most `maxCallDepth` deep.
* `Program.run` runs the statements of a submission. Its value is that of the last top-level
  expression statement. After a failure the changes made so far are still there; taking them back
  is the session's business.
-/
namespace ReplayShell.Program

/-- The bodies of all functions of a session. -/
abbrev FunctionMap := Std.ExtTreeMap FunctionId Function compare

/-- The local variables of a call; `none` is a variable not set yet. -/
abbrev Frame := List (Option Value)

/-- What a run changes. -/
structure Machine where
  globals : Variables
  frame : Frame
  printed : String

/-- How a computation ends. -/
inductive Run (α : Type) where
  | done (value : α) (machine : Machine)
  | failed (diagnostic : Diagnostic) (machine : Machine)
  /-- The fuel did not suffice. -/
  | unfinished

/-- Goes on after a computation that is done. -/
@[inline] def Run.andThen {α β : Type} (run : Run α) (next : α → Machine → Run β) : Run β :=
  match run with
  | .done value machine => next value machine
  | .failed diagnostic machine => .failed diagnostic machine
  | .unfinished => .unfinished

/-- How a statement ends: normally, or by a `return` with or without a value. -/
inductive Flow where
  | normal
  | return (value : Option Value)
  deriving DecidableEq, Repr

namespace Machine

/-- The value of a variable, if it is set. -/
def load (machine : Machine) : Slot → Option Value
  | .global id => machine.globals[id]?
  | .local index => machine.frame[index]?.join

/-- The frame with one place set; it grows if the place lies beyond its end. -/
def setLocal (frame : Frame) (index : Nat) (value : Value) : Frame :=
  (frame ++ List.replicate (index + 1 - frame.length) none).set index (some value)

/-- Sets a variable. -/
def store (machine : Machine) (slot : Slot) (value : Value) : Machine :=
  match slot with
  | .global id => { machine with globals := machine.globals.insert id value }
  | .local index => { machine with frame := setLocal machine.frame index value }

/-- Prints a value on a line of its own. -/
def print (machine : Machine) (value : Value) : Machine :=
  { machine with printed := machine.printed ++ value.text ++ "\n" }

end Machine

/-- The span of an expression, empty at 0 for one that keeps none. -/
def Expression.span : Expression → Span
  | .variable _ span => span
  | .unary _ _ span => span
  | .binary _ _ _ span => span
  | .call _ _ _ span => span
  | .assignment _ value => value.span
  | .invalid => Span.at 0
  | .literal _ => Span.at 0

/-- Goes on with the value of an expression that must have one. A missing value is reported at the
expression, or at `fallback` if the expression has no span. -/
@[inline] def Run.withValue {β : Type} (run : Run (Option Value)) (expression : Expression)
    (fallback : Span) (next : Value → Machine → Run β) : Run β :=
  run.andThen fun result machine =>
    match result with
    | some value => next value machine
    | none =>
      let span := if expression.span.isEmpty then fallback else expression.span
      .failed ⟨span, .noValue⟩ machine

/-- Goes on with the truth value of a condition. -/
@[inline] def Run.withCondition {β : Type} (run : Run (Option Value)) (condition : Expression)
    (next : Bool → Machine → Run β) : Run β :=
  run.withValue condition (Span.at 0) fun value machine =>
    match value with
    | .boolean truth => next truth machine
    | other => .failed ⟨condition.span, .conditionNotBoolean other.type⟩ machine

/-- The result of a unary operator. -/
def unaryResult (op : UnaryOp) (operand : Value) (span : Span) (machine : Machine) :
    Run (Option Value) :=
  match op.apply operand with
  | .ok value => .done (some value) machine
  | .error .overflow => .failed ⟨span, .integerOverflow⟩ machine
  | .error .divisionByZero => .failed ⟨span, .divisionByZero⟩ machine
  | .error .operandType => .failed ⟨span, .unaryUndefined op operand.type⟩ machine

/-- The result of a binary operator. -/
def binaryResult (op : BinaryOp) (left right : Value) (span : Span) (machine : Machine) :
    Run (Option Value) :=
  match op.apply left right with
  | .ok value => .done (some value) machine
  | .error .overflow => .failed ⟨span, .integerOverflow⟩ machine
  | .error .divisionByZero => .failed ⟨span, .divisionByZero⟩ machine
  | .error .operandType => .failed ⟨span, .binaryUndefined op left.type right.type⟩ machine

/-- The frame of a call: the arguments, then unset locals. -/
def callFrame (function : Function) (arguments : List Value) : Frame :=
  arguments.map some ++ List.replicate (function.frameSize - arguments.length) none

/-- The end of a call in the caller's frame: the returned value, if any. -/
def Run.leave (run : Run Flow) (caller : Frame) : Run (Option Value) :=
  run.andThen fun flow machine =>
    match flow with
    | .normal => .done none { machine with frame := caller }
    | .return value => .done value { machine with frame := caller }

mutual

/-- Runs an expression at a depth of calls. A call of a function without result has no value. -/
def evaluate (functions : FunctionMap) (fuel depth : Nat) (expression : Expression)
    (machine : Machine) : Run (Option Value) :=
  match fuel with
  | 0 => .unfinished
  | fuel + 1 =>
    match expression with
    | .invalid => .failed ⟨Span.at 0, .invalidCode⟩ machine
    | .literal value => .done (some value) machine
    | .variable ref span =>
      match machine.load ref.slot with
      | some value => .done (some value) machine
      | none => .failed ⟨span, .variableUnset ref.name⟩ machine
    | .assignment ref value =>
      (evaluate functions fuel depth value machine).withValue value (Span.at 0)
        fun result machine => .done (some result) (machine.store ref.slot result)
    | .unary op operand span =>
      (evaluate functions fuel depth operand machine).withValue operand span
        fun value machine => unaryResult op value span machine
    | .binary left op right span =>
      (evaluate functions fuel depth left machine).withValue left span fun leftValue machine =>
        match op.shortCircuit? leftValue with
        | some value => .done (some value) machine
        | none =>
          (evaluate functions fuel depth right machine).withValue right span
            fun rightValue machine => binaryResult op leftValue rightValue span machine
    | .call name callee arguments span =>
      (evaluateAll functions fuel depth span arguments machine).andThen fun values machine =>
        match callee with
        | .print => .done none (values.foldl Machine.print machine)
        | .function id =>
          match functions[id]? with
          | none => .failed ⟨span, .functionWithoutBody name⟩ machine
          | some function =>
            if maxCallDepth ≤ depth then .failed ⟨span, .callDepthExceeded⟩ machine
            else
              (executeAll functions fuel (depth + 1) function.body
                { machine with frame := callFrame function values }).leave machine.frame
termination_by structural fuel

/-- Runs the arguments of a call in order; each must have a value. -/
def evaluateAll (functions : FunctionMap) (fuel depth : Nat) (span : Span)
    (expressions : List Expression) (machine : Machine) : Run (List Value) :=
  match fuel with
  | 0 => .unfinished
  | fuel + 1 =>
    match expressions with
    | [] => .done [] machine
    | expression :: rest =>
      (evaluate functions fuel depth expression machine).withValue expression span
        fun value machine =>
          (evaluateAll functions fuel depth span rest machine).andThen fun values machine =>
            .done (value :: values) machine
termination_by structural fuel

/-- Runs a statement at a depth of calls. -/
def execute (functions : FunctionMap) (fuel depth : Nat) (statement : Statement)
    (machine : Machine) : Run Flow :=
  match fuel with
  | 0 => .unfinished
  | fuel + 1 =>
    match statement with
    | .block statements => executeAll functions fuel depth statements machine
    | .variable ref _ initializer =>
      (evaluate functions fuel depth initializer machine).withValue initializer (Span.at 0)
        fun value machine => .done .normal (machine.store ref.slot value)
    | .conditional condition thenBranch elseBranch =>
      (evaluate functions fuel depth condition machine).withCondition condition
        fun truth machine =>
          if truth then execute functions fuel depth thenBranch machine
          else match elseBranch with
            | some statement => execute functions fuel depth statement machine
            | none => .done .normal machine
    | .loop condition body =>
      (evaluate functions fuel depth condition machine).withCondition condition
        fun truth machine =>
          if truth then
            (execute functions fuel depth body machine).andThen fun flow machine =>
              match flow with
              | .normal => execute functions fuel depth (.loop condition body) machine
              | .return value => .done (.return value) machine
          else .done .normal machine
    | .return none => .done (.return none) machine
    | .return (some value) =>
      (evaluate functions fuel depth value machine).andThen fun result machine =>
        .done (.return result) machine
    | .expression expression =>
      (evaluate functions fuel depth expression machine).andThen fun _ machine =>
        .done .normal machine
termination_by structural fuel

/-- Runs statements in order until one returns. -/
def executeAll (functions : FunctionMap) (fuel depth : Nat) (statements : List Statement)
    (machine : Machine) : Run Flow :=
  match fuel with
  | 0 => .unfinished
  | fuel + 1 =>
    match statements with
    | [] => .done .normal machine
    | statement :: rest =>
      (execute functions fuel depth statement machine).andThen fun flow machine =>
        match flow with
        | .normal => executeAll functions fuel depth rest machine
        | .return value => .done (.return value) machine
termination_by structural fuel

end

/-- Runs top-level statements, given the value of the last expression statement before them. -/
def runStatements (functions : FunctionMap) (fuel : Nat) (last : Option Value) :
    List Statement → Machine → Run (Option Value)
  | [], machine => .done last machine
  | .expression expression :: rest, machine =>
    (evaluate functions fuel 0 expression machine).andThen fun value machine =>
      runStatements functions fuel value rest machine
  | statement :: rest, machine =>
    (execute functions fuel 0 statement machine).andThen fun _ machine =>
      runStatements functions fuel last rest machine

/-- Runs a submission on the variables of the session. -/
def run (program : Program) (functions : FunctionMap) (fuel : Nat) (globals : Variables) :
    Run (Option Value) :=
  runStatements functions fuel none program.statements
    { globals := globals, frame := List.replicate program.frameSize none, printed := "" }

end ReplayShell.Program
