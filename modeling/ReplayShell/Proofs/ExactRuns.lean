import ReplayShell.Proofs.Moments

/-!
# Runs without limits

Integers have 64 bits and calls nest 256 deep, and a run that meets one of the two limits fails. Any
other run does what it would do without them.

* `UnaryOp.exact`, `BinaryOp.exact` compute on unbounded integers. `exact_of_ok`, `exact_of_error`:
  operators that do not overflow compute the same, and stay in the range.
* `Exact.evaluate` and its companions run programs on them, at any depth of calls, and print by
  `Exact.lines`. `Machine.foldl_print`: the machine prints the same.
* `Run.Lifts` compares a run with one without limits: what it comes to, the other comes to as well,
  unless it has met a limit. `liftsAt` is the induction on the fuel, `run_lifts` a whole program.
-/
namespace ReplayShell

/-! ## Operators on unbounded integers -/

/-- The value of the operator at its operand, whatever its size. -/
def UnaryOp.exact (op : UnaryOp) (operand : Value) : Except Undefined Value :=
  match op, operand with
  | .identity, .integer n => .ok (.integer n)
  | .negate, .integer n => .ok (.integer (-n))
  | .not, .boolean b => .ok (.boolean !b)
  | _, _ => .error .operandType

/-- The value of the operator at its operands, whatever its size. Quotients are truncated, and the
remainder goes with them. -/
def BinaryOp.exact (op : BinaryOp) (left right : Value) : Except Undefined Value :=
  match op, left, right with
  | .add, .integer a, .integer b => .ok (.integer (a + b))
  | .add, .string a, .string b => .ok (.string (a ++ b))
  | .subtract, .integer a, .integer b => .ok (.integer (a - b))
  | .multiply, .integer a, .integer b => .ok (.integer (a * b))
  | .divide, .integer a, .integer b =>
    if b = 0 then .error .divisionByZero else .ok (.integer (a.tdiv b))
  | .remainder, .integer a, .integer b =>
    if b = 0 then .error .divisionByZero else .ok (.integer (a.tmod b))
  | .equals, a, b => .ok (.boolean (a == b))
  | .notEquals, a, b => .ok (.boolean (a != b))
  | .less, .integer a, .integer b => .ok (.boolean (a < b))
  | .lessOrEquals, .integer a, .integer b => .ok (.boolean (a ≤ b))
  | .greater, .integer a, .integer b => .ok (.boolean (b < a))
  | .greaterOrEquals, .integer a, .integer b => .ok (.boolean (b ≤ a))
  | .and, .boolean _, .boolean b => .ok (.boolean b)
  | .or, .boolean _, .boolean b => .ok (.boolean b)
  | _, _, _ => .error .operandType

/-- What is left over is no greater than what was divided. -/
theorem inRange_tmod {a : Int} (h : InRange a) (b : Int) : InRange (a.tmod b) := by
  have habs : (a.tmod b).natAbs ≤ a.natAbs := by
    rw [Int.natAbs_tmod]
    exact Nat.mod_le _ _
  have hpositive : 0 ≤ a → 0 ≤ a.tmod b := Int.tmod_nonneg b
  have hnegative : a ≤ 0 → a.tmod b ≤ 0 := by
    intro ha
    have hneg := Int.tmod_nonneg b (Int.neg_nonneg_of_nonpos ha)
    rw [Int.neg_tmod] at hneg
    omega
  unfold InRange minInteger maxInteger at *
  omega

theorem Value.checked_ok {n : Int} {value : Value} (h : Value.checked n = .ok value) :
    value = .integer n ∧ value.Bounded := by
  unfold Value.checked at h
  split at h
  · rename_i hn
    cases h
    exact ⟨rfl, hn⟩
  · cases h

theorem Value.checked_error {n : Int} {undefined : Undefined}
    (h : Value.checked n = .error undefined) : undefined = .overflow := by
  unfold Value.checked at h
  split at h <;> cases h
  rfl

namespace UnaryOp

variable {op : UnaryOp} {operand value : Value} {undefined : Undefined}

theorem exact_of_ok (hb : operand.Bounded) (h : op.apply operand = .ok value) :
    op.exact operand = .ok value ∧ value.Bounded := by
  unfold apply at h
  split at h
  · cases h
    exact ⟨rfl, hb⟩
  · obtain ⟨rfl, hv⟩ := Value.checked_ok h
    exact ⟨rfl, hv⟩
  · cases h
    exact ⟨rfl, trivial⟩
  · cases h

theorem exact_of_error (h : op.apply operand = .error undefined) (hne : undefined ≠ .overflow) :
    op.exact operand = .error undefined := by
  unfold apply at h
  split at h
  · cases h
  · exact absurd (Value.checked_error h) hne
  · cases h
  · cases h
    unfold exact
    split <;> simp_all

end UnaryOp

namespace BinaryOp

variable {op : BinaryOp} {left right value : Value} {undefined : Undefined}

theorem exact_of_ok (hl : left.Bounded) (h : op.apply left right = .ok value) :
    op.exact left right = .ok value ∧ value.Bounded := by
  unfold apply at h
  split at h
  case h_1 | h_3 | h_4 =>
    obtain ⟨rfl, hv⟩ := Value.checked_ok h
    exact ⟨rfl, hv⟩
  case h_5 a b =>
    split at h
    · cases h
    · rename_i hb
      obtain ⟨rfl, hv⟩ := Value.checked_ok h
      exact ⟨by simp only [exact, hb, if_false], hv⟩
  case h_6 a b =>
    split at h
    · cases h
    · rename_i hb
      split at h <;> cases h
      exact ⟨by simp only [exact, hb, if_false], inRange_tmod hl b⟩
  case h_15 => cases h
  all_goals
    cases h
    exact ⟨rfl, trivial⟩

/-- What the left operand alone decides is a truth value. -/
theorem shortCircuit_bounded (h : op.shortCircuit? left = some value) : value.Bounded := by
  unfold shortCircuit? at h
  split at h <;> cases h <;> trivial

theorem exact_of_error (h : op.apply left right = .error undefined)
    (hne : undefined ≠ .overflow) : op.exact left right = .error undefined := by
  unfold apply at h
  split at h
  case h_1 | h_3 | h_4 => exact absurd (Value.checked_error h) hne
  case h_5 a b =>
    split at h
    · rename_i hb
      cases h
      simp only [exact, hb, if_true]
    · exact absurd (Value.checked_error h) hne
  case h_6 a b =>
    split at h
    · rename_i hb
      cases h
      simp only [exact, hb, if_true]
    · split at h <;> cases h
      exact absurd rfl hne
  case h_15 =>
    cases h
    unfold exact
    split <;> simp_all
  all_goals cases h

end BinaryOp

/-- A run has met one of the two limits. -/
def Diagnostic.AtLimit (diagnostic : Diagnostic) : Prop :=
  diagnostic.problem = .integerOverflow ∨ diagnostic.problem = .callDepthExceeded

namespace Program

/-! ## Programs on unbounded integers -/

namespace Exact

/-- The end of a run of an operator; `mismatch` is what to say of operands of other types. -/
def result (value : Except Undefined Value) (span : Span) (mismatch : Problem) (machine : Machine) :
    Run (Option Value) :=
  match value with
  | .ok value => .done (some value) machine
  | .error .overflow => .failed ⟨span, .integerOverflow⟩ machine
  | .error .divisionByZero => .failed ⟨span, .divisionByZero⟩ machine
  | .error .operandType => .failed ⟨span, mismatch⟩ machine

/-- What printing the values writes: the text of each, on a line of its own. -/
def lines (values : List Value) : String :=
  String.join (values.map fun value => value.text ++ "\n")

mutual

/-- Runs an expression, however deep the calls nest and however great the integers become. -/
def evaluate (functions : FunctionMap) (fuel : Nat) (expression : Expression) (machine : Machine) :
    Run (Option Value) :=
  match fuel with
  | 0 => .unfinished
  | fuel + 1 =>
    match expression with
    | .invalid => .failed ⟨Span.at 0, .invalidCode⟩ machine
    | .literal value => .done (some value) machine
    | .variable ref span =>
      match machine.load ref.slot with
      | some value => .done (some value) machine
      | none => .failed ⟨span, .variableUnset ref.name⟩ machine
    | .assignment ref value =>
      (evaluate functions fuel value machine).withValue value (Span.at 0)
        fun result machine => .done (some result) (machine.store ref.slot result)
    | .unary op operand span =>
      (evaluate functions fuel operand machine).withValue operand span fun value machine =>
        result (op.exact value) span (.unaryUndefined op value.type) machine
    | .binary left op right span =>
      (evaluate functions fuel left machine).withValue left span fun leftValue machine =>
        match op.shortCircuit? leftValue with
        | some value => .done (some value) machine
        | none =>
          (evaluate functions fuel right machine).withValue right span fun rightValue machine =>
            result (op.exact leftValue rightValue) span
              (.binaryUndefined op leftValue.type rightValue.type) machine
    | .call name callee arguments span =>
      (evaluateAll functions fuel span arguments machine).andThen fun values machine =>
        match callee with
        | .print => .done none { machine with printed := machine.printed ++ lines values }
        | .function id =>
          match functions[id]? with
          | none => .failed ⟨span, .functionWithoutBody name⟩ machine
          | some function =>
            (executeAll functions fuel function.body
              { machine with frame := callFrame function values }).leave machine.frame
termination_by structural fuel

/-- Runs the arguments of a call in order. -/
def evaluateAll (functions : FunctionMap) (fuel : Nat) (span : Span)
    (expressions : List Expression) (machine : Machine) : Run (List Value) :=
  match fuel with
  | 0 => .unfinished
  | fuel + 1 =>
    match expressions with
    | [] => .done [] machine
    | expression :: rest =>
      (evaluate functions fuel expression machine).withValue expression span fun value machine =>
        (evaluateAll functions fuel span rest machine).andThen fun values machine =>
          .done (value :: values) machine
termination_by structural fuel

/-- Runs a statement. -/
def execute (functions : FunctionMap) (fuel : Nat) (statement : Statement) (machine : Machine) :
    Run Flow :=
  match fuel with
  | 0 => .unfinished
  | fuel + 1 =>
    match statement with
    | .block statements => executeAll functions fuel statements machine
    | .variable ref _ initializer =>
      (evaluate functions fuel initializer machine).withValue initializer (Span.at 0)
        fun value machine => .done .normal (machine.store ref.slot value)
    | .conditional condition thenBranch elseBranch =>
      (evaluate functions fuel condition machine).withCondition condition fun truth machine =>
        if truth then execute functions fuel thenBranch machine
        else match elseBranch with
          | some statement => execute functions fuel statement machine
          | none => .done .normal machine
    | .loop condition body =>
      (evaluate functions fuel condition machine).withCondition condition fun truth machine =>
        if truth then
          (execute functions fuel body machine).andThen fun flow machine =>
            match flow with
            | .normal => execute functions fuel (.loop condition body) machine
            | .return value => .done (.return value) machine
        else .done .normal machine
    | .return none => .done (.return none) machine
    | .return (some value) =>
      (evaluate functions fuel value machine).andThen fun result machine =>
        .done (.return result) machine
    | .expression expression =>
      (evaluate functions fuel expression machine).andThen fun _ machine => .done .normal machine
termination_by structural fuel

/-- Runs statements in order until one returns. -/
def executeAll (functions : FunctionMap) (fuel : Nat) (statements : List Statement)
    (machine : Machine) : Run Flow :=
  match fuel with
  | 0 => .unfinished
  | fuel + 1 =>
    match statements with
    | [] => .done .normal machine
    | statement :: rest =>
      (execute functions fuel statement machine).andThen fun flow machine =>
        match flow with
        | .normal => executeAll functions fuel rest machine
        | .return value => .done (.return value) machine
termination_by structural fuel

end

/-- Runs top-level statements, given the value of the last expression statement before them. -/
def runStatements (functions : FunctionMap) (fuel : Nat) (last : Option Value) :
    List Statement → Machine → Run (Option Value)
  | [], machine => .done last machine
  | .expression expression :: rest, machine =>
    (evaluate functions fuel expression machine).andThen fun value machine =>
      runStatements functions fuel value rest machine
  | statement :: rest, machine =>
    (execute functions fuel statement machine).andThen fun _ machine =>
      runStatements functions fuel last rest machine

/-- Runs a submission on the variables of the session. -/
def run (program : Program) (functions : FunctionMap) (fuel : Nat) (globals : Variables) :
    Run (Option Value) :=
  runStatements functions fuel none program.statements
    { globals := globals, frame := List.replicate program.frameSize none, printed := "" }

end Exact

/-- Printing values one after another writes their lines behind what is printed already, and
changes nothing else. -/
theorem Machine.foldl_print (values : List Value) (machine : Machine) :
    values.foldl Machine.print machine =
      { machine with printed := machine.printed ++ Exact.lines values } := by
  induction values generalizing machine with
  | nil =>
    simp only [List.foldl_nil, Exact.lines, List.map_nil, String.join_nil, String.append_empty]
  | cons value rest ih =>
    have hlines : Exact.lines (value :: rest) = value.text ++ "\n" ++ Exact.lines rest := by
      simp only [Exact.lines, List.map_cons, String.join_cons]
    rw [List.foldl_cons, ih, hlines]
    simp only [Machine.print, String.append_assoc]

/-! ## Everything in range -/

/-- The integers of the variables are in range. -/
def GlobalsRanged (globals : Variables) : Prop :=
  ∀ (id : VariableId) (value : Value), globals[id]? = some value → value.Bounded

/-- The value, if there is one, is in range. -/
def ResultRanged (result : Option Value) : Prop := ∀ value, result = some value → value.Bounded

theorem ResultRanged.none : ResultRanged none := fun _ h => by cases h

theorem ResultRanged.some {value : Value} (h : value.Bounded) : ResultRanged (some value) :=
  fun _ heq => Option.some.inj heq ▸ h

/-- So are those of the frame. -/
structure Machine.Ranged (machine : Machine) : Prop where
  globals : GlobalsRanged machine.globals
  frame : ∀ entry ∈ machine.frame, ResultRanged entry

/-- A returned value is in range. -/
def Flow.Ranged : Flow → Prop
  | .normal => True
  | .return value => ResultRanged value

mutual

/-- The literals of the expression are in range. -/
def Expression.Ranged : Expression → Prop
  | .invalid => True
  | .literal value => value.Bounded
  | .variable _ _ => True
  | .assignment _ value => value.Ranged
  | .unary _ operand _ => operand.Ranged
  | .binary left _ right _ => left.Ranged ∧ right.Ranged
  | .call _ _ arguments _ => Expression.AllRanged arguments

/-- So are those of all the expressions. -/
def Expression.AllRanged : List Expression → Prop
  | [] => True
  | first :: rest => first.Ranged ∧ Expression.AllRanged rest

end

mutual

/-- The literals of the statement are in range. -/
def Statement.Ranged : Statement → Prop
  | .block statements => Statement.AllRanged statements
  | .variable _ _ initializer => initializer.Ranged
  | .conditional condition thenBranch elseBranch =>
    condition.Ranged ∧ thenBranch.Ranged ∧ Statement.ElseRanged elseBranch
  | .loop condition body => condition.Ranged ∧ body.Ranged
  | .return none => True
  | .return (some value) => value.Ranged
  | .expression evaluated => evaluated.Ranged

/-- So are those of all the statements. -/
def Statement.AllRanged : List Statement → Prop
  | [] => True
  | first :: rest => first.Ranged ∧ Statement.AllRanged rest

/-- So are those of an else branch, if there is one. -/
def Statement.ElseRanged : Option Statement → Prop
  | none => True
  | some statement => statement.Ranged

end

namespace Machine.Ranged

variable {machine : Machine}

theorem load (h : machine.Ranged) (slot : Slot) : ResultRanged (machine.load slot) := by
  intro value hv
  cases slot with
  | global id => exact h.globals id value hv
  | «local» index =>
    have hentry := Option.join_eq_some_iff.1 hv
    exact h.frame _ (List.mem_of_getElem? hentry) value rfl

theorem store (h : machine.Ranged) (slot : Slot) {value : Value} (hv : value.Bounded) :
    (machine.store slot value).Ranged := by
  cases slot with
  | global id =>
    refine ⟨fun other found hf => ?_, h.frame⟩
    rw [Machine.store, Std.ExtTreeMap.getElem?_insert] at hf
    split at hf
    · cases hf
      exact hv
    · exact h.globals other found hf
  | «local» index =>
    refine ⟨h.globals, fun entry he found hf => ?_⟩
    rcases List.mem_or_eq_of_mem_set he with hm | rfl
    · rcases List.mem_append.1 hm with hm | hm
      · exact h.frame entry hm found hf
      · rw [List.eq_of_mem_replicate hm] at hf
        cases hf
    · cases hf
      exact hv

theorem print (h : machine.Ranged) (printed : String) :
    Ranged { machine with printed := printed } :=
  ⟨h.globals, h.frame⟩

theorem enter (h : machine.Ranged) (function : Function) {values : List Value}
    (hv : ∀ value ∈ values, value.Bounded) :
    Ranged { machine with frame := callFrame function values } := by
  refine ⟨h.globals, fun entry he found hf => ?_⟩
  rcases List.mem_append.1 he with hm | hm
  · obtain ⟨value, hvalue, heq⟩ := List.mem_map.1 hm
    cases heq.trans hf
    exact hv _ hvalue
  · rw [List.eq_of_mem_replicate hm] at hf
    cases hf

end Machine.Ranged

/-! ## Runs compared with runs without limits -/

/-- What the run comes to, the other comes to as well, unless the run has met a limit. If it is
done, everything is in range. -/
def Run.Lifts {α : Type} (ranged : α → Prop) (run exact : Run α) : Prop :=
  match run with
  | .done value machine => exact = .done value machine ∧ ranged value ∧ machine.Ranged
  | .failed diagnostic machine => diagnostic.AtLimit ∨ exact = .failed diagnostic machine
  | .unfinished => True

namespace Run.Lifts

variable {α β : Type} {ranged : α → Prop} {ranged' : β → Prop} {run exact : Run α}
  {machine : Machine}

theorem done {value : α} (hv : ranged value) (hm : machine.Ranged) :
    Run.Lifts ranged (.done value machine) (.done value machine) :=
  ⟨rfl, hv, hm⟩

theorem failed (ranged : α → Prop) (diagnostic : Diagnostic) (machine : Machine) :
    Run.Lifts ranged (.failed diagnostic machine) (.failed diagnostic machine) :=
  .inr rfl

theorem andThen {next next' : α → Machine → Run β} (h : Run.Lifts ranged run exact)
    (hn : ∀ value machine, ranged value → machine.Ranged →
      Run.Lifts ranged' (next value machine) (next' value machine)) :
    Run.Lifts ranged' (run.andThen next) (exact.andThen next') := by
  cases run with
  | done value machine =>
    obtain ⟨rfl, hv, hm⟩ := h
    exact hn value machine hv hm
  | failed diagnostic machine =>
    rcases h with hlimit | rfl
    · exact .inl hlimit
    · exact failed _ _ _
  | unfinished => trivial

theorem withValue {run exact : Run (Option Value)} {next next' : Value → Machine → Run β}
    (expression : Expression) (fallback : Span) (h : Run.Lifts ResultRanged run exact)
    (hn : ∀ value machine, value.Bounded → machine.Ranged →
      Run.Lifts ranged' (next value machine) (next' value machine)) :
    Run.Lifts ranged' (run.withValue expression fallback next)
      (exact.withValue expression fallback next') :=
  h.andThen fun result machine hr hm => by
    cases result with
    | some value => exact hn value machine (hr value rfl) hm
    | none => exact failed _ _ _

theorem withCondition {run exact : Run (Option Value)} {next next' : Bool → Machine → Run β}
    (condition : Expression) (h : Run.Lifts ResultRanged run exact)
    (hn : ∀ truth machine, machine.Ranged →
      Run.Lifts ranged' (next truth machine) (next' truth machine)) :
    Run.Lifts ranged' (run.withCondition condition next) (exact.withCondition condition next') :=
  h.withValue condition _ fun value machine _ hm => by
    cases value with
    | boolean truth => exact hn truth machine hm
    | integer | string => exact failed _ _ _

/-- A call ends in the frame of the caller. -/
theorem leave {run exact : Run Flow} {caller : Frame} (h : Run.Lifts Flow.Ranged run exact)
    (hc : ∀ entry ∈ caller, ResultRanged entry) :
    Run.Lifts ResultRanged (run.leave caller) (exact.leave caller) :=
  h.andThen fun flow machine hf hm => by
    cases flow with
    | normal => exact done .none ⟨hm.globals, hc⟩
    | «return» value => exact done hf ⟨hm.globals, hc⟩

/-- An operator lifts, if it does so on values. -/
theorem result {value exact : Except Undefined Value} {machine : Machine}
    (hok : ∀ found, value = .ok found → exact = .ok found ∧ found.Bounded)
    (herror : ∀ undefined, value = .error undefined → undefined ≠ .overflow →
      exact = .error undefined) (hm : machine.Ranged) (span : Span) (mismatch : Problem) :
    Run.Lifts ResultRanged (Exact.result value span mismatch machine)
      (Exact.result exact span mismatch machine) := by
  cases value with
  | ok found =>
    obtain ⟨rfl, hv⟩ := hok found rfl
    exact done (.some hv) hm
  | error undefined =>
    cases undefined with
    | overflow => exact .inl (.inl rfl)
    | divisionByZero | operandType =>
      rw [herror _ rfl (by simp)]
      exact failed _ _ _

end Run.Lifts

theorem lifts_unaryResult {machine : Machine} {operand : Value} (op : UnaryOp)
    (hv : operand.Bounded) (hm : machine.Ranged) (span : Span) :
    Run.Lifts ResultRanged (unaryResult op operand span machine)
      (Exact.result (op.exact operand) span (.unaryUndefined op operand.type) machine) := by
  have hresult : unaryResult op operand span machine =
      Exact.result (op.apply operand) span (.unaryUndefined op operand.type) machine := rfl
  rw [hresult]
  exact .result (fun _ h => UnaryOp.exact_of_ok hv h) (fun _ h => UnaryOp.exact_of_error h) hm _ _

theorem lifts_binaryResult {machine : Machine} {left : Value} (op : BinaryOp) (right : Value)
    (hv : left.Bounded) (hm : machine.Ranged) (span : Span) :
    Run.Lifts ResultRanged (binaryResult op left right span machine)
      (Exact.result (op.exact left right) span (.binaryUndefined op left.type right.type)
        machine) := by
  have hresult : binaryResult op left right span machine =
      Exact.result (op.apply left right) span (.binaryUndefined op left.type right.type)
        machine := rfl
  rw [hresult]
  exact .result (fun _ h => BinaryOp.exact_of_ok hv h) (fun _ h => BinaryOp.exact_of_error h) hm _ _

section
variable (functions : FunctionMap)

/-- The literals of all bodies are in range. -/
def FunctionMap.Ranged : Prop :=
  ∀ (id : FunctionId) (function : Function), functions[id]? = some function →
    Statement.AllRanged function.body

/-- The four parts of the evaluator lift. -/
structure LiftsAt (fuel : Nat) : Prop where
  evaluate : ∀ depth expression machine, expression.Ranged → machine.Ranged →
    Run.Lifts ResultRanged (evaluate functions fuel depth expression machine)
      (Exact.evaluate functions fuel expression machine)
  evaluateAll : ∀ depth span expressions machine, Expression.AllRanged expressions →
    machine.Ranged → Run.Lifts (fun values => ∀ value ∈ values, value.Bounded)
      (evaluateAll functions fuel depth span expressions machine)
      (Exact.evaluateAll functions fuel span expressions machine)
  execute : ∀ depth statement machine, statement.Ranged → machine.Ranged →
    Run.Lifts Flow.Ranged (execute functions fuel depth statement machine)
      (Exact.execute functions fuel statement machine)
  executeAll : ∀ depth statements machine, Statement.AllRanged statements → machine.Ranged →
    Run.Lifts Flow.Ranged (executeAll functions fuel depth statements machine)
      (Exact.executeAll functions fuel statements machine)

variable {functions}

theorem evaluate_lifts {fuel : Nat} (bodies : functions.Ranged) (ih : LiftsAt functions fuel)
    (depth : Nat) (expression : Expression) (machine : Machine) (he : expression.Ranged)
    (hm : machine.Ranged) :
    Run.Lifts ResultRanged (evaluate functions (fuel + 1) depth expression machine)
      (Exact.evaluate functions (fuel + 1) expression machine) := by
  cases expression with
  | invalid => exact .failed _ _ _
  | literal value => exact .done (.some he) hm
  | «variable» ref span =>
    rw [evaluate, Exact.evaluate]
    cases hload : machine.load ref.slot with
    | some value => exact .done (hload ▸ hm.load ref.slot) hm
    | none => exact .failed _ _ _
  | assignment ref value =>
    exact (ih.evaluate depth value machine he hm).withValue _ _ fun result machine hv hm =>
      .done (.some hv) (hm.store ref.slot hv)
  | unary op operand span =>
    exact (ih.evaluate depth operand machine he hm).withValue _ _ fun value machine hv hm =>
      lifts_unaryResult op hv hm span
  | binary left op right span =>
    obtain ⟨hl, hr⟩ := he
    refine (ih.evaluate depth left machine hl hm).withValue _ _ fun leftValue machine hv hm => ?_
    cases hs : op.shortCircuit? leftValue with
    | some value => exact .done (.some (BinaryOp.shortCircuit_bounded hs)) hm
    | none =>
      exact (ih.evaluate depth right machine hr hm).withValue _ _ fun rightValue machine _ hm =>
        lifts_binaryResult op rightValue hv hm span
  | call name callee arguments span =>
    refine (ih.evaluateAll depth span arguments machine he hm).andThen
      fun values machine hv hm => ?_
    cases callee with
    | print =>
      rw [Machine.foldl_print]
      exact .done .none (hm.print _)
    | function id =>
      cases hf : functions[id]? with
      | none => simp only [hf]; exact .failed _ _ _
      | some function =>
        simp only [hf]
        by_cases hd : maxCallDepth ≤ depth
        · simp only [hd, if_true]
          exact .inl (.inr rfl)
        · simp only [hd, if_false]
          exact (ih.executeAll _ _ _ (bodies id function hf) (hm.enter function hv)).leave hm.frame

theorem evaluateAll_lifts {fuel : Nat} (ih : LiftsAt functions fuel) (depth : Nat) (span : Span)
    (expressions : List Expression) (machine : Machine) (he : Expression.AllRanged expressions)
    (hm : machine.Ranged) :
    Run.Lifts (fun values => ∀ value ∈ values, value.Bounded)
      (evaluateAll functions (fuel + 1) depth span expressions machine)
      (Exact.evaluateAll functions (fuel + 1) span expressions machine) := by
  cases expressions with
  | nil => exact .done (by simp) hm
  | cons expression rest =>
    obtain ⟨hf, hr⟩ := he
    refine (ih.evaluate depth expression machine hf hm).withValue _ _ fun value machine hv hm => ?_
    refine (ih.evaluateAll depth span rest machine hr hm).andThen fun values machine hvs hm => ?_
    exact .done (List.forall_mem_cons.2 ⟨hv, hvs⟩) hm

theorem execute_lifts {fuel : Nat} (ih : LiftsAt functions fuel) (depth : Nat)
    (statement : Statement) (machine : Machine) (hs : statement.Ranged) (hm : machine.Ranged) :
    Run.Lifts Flow.Ranged (execute functions (fuel + 1) depth statement machine)
      (Exact.execute functions (fuel + 1) statement machine) := by
  cases statement with
  | block statements => exact ih.executeAll depth statements machine hs hm
  | «variable» ref readOnly initializer =>
    exact (ih.evaluate depth initializer machine hs hm).withValue _ _ fun value machine hv hm =>
      .done trivial (hm.store ref.slot hv)
  | conditional condition thenBranch elseBranch =>
    obtain ⟨hc, ht, he⟩ := hs
    refine (ih.evaluate depth condition machine hc hm).withCondition _ fun truth machine hm => ?_
    cases truth with
    | true => exact ih.execute depth thenBranch machine ht hm
    | false =>
      cases elseBranch with
      | none => exact .done trivial hm
      | some statement => exact ih.execute depth statement machine he hm
  | loop condition body =>
    obtain ⟨hc, hb⟩ := hs
    refine (ih.evaluate depth condition machine hc hm).withCondition _ fun truth machine hm => ?_
    cases truth with
    | false => exact .done trivial hm
    | true =>
      refine (ih.execute depth body machine hb hm).andThen fun flow machine hf hm => ?_
      cases flow with
      | normal => exact ih.execute depth (.loop condition body) machine ⟨hc, hb⟩ hm
      | «return» value => exact .done hf hm
  | «return» value =>
    cases value with
    | none => exact .done .none hm
    | some value =>
      exact (ih.evaluate depth value machine hs hm).andThen fun result machine hr hm => .done hr hm
  | expression expression =>
    exact (ih.evaluate depth expression machine hs hm).andThen fun _ machine _ hm =>
      .done trivial hm

theorem executeAll_lifts {fuel : Nat} (ih : LiftsAt functions fuel) (depth : Nat)
    (statements : List Statement) (machine : Machine) (hs : Statement.AllRanged statements)
    (hm : machine.Ranged) :
    Run.Lifts Flow.Ranged (executeAll functions (fuel + 1) depth statements machine)
      (Exact.executeAll functions (fuel + 1) statements machine) := by
  cases statements with
  | nil => exact .done trivial hm
  | cons statement rest =>
    obtain ⟨hf, hr⟩ := hs
    refine (ih.execute depth statement machine hf hm).andThen fun flow machine hflow hm => ?_
    cases flow with
    | normal => exact ih.executeAll depth rest machine hr hm
    | «return» value => exact .done hflow hm

theorem liftsAt (bodies : functions.Ranged) (fuel : Nat) : LiftsAt functions fuel := by
  induction fuel with
  | zero => exact ⟨fun _ _ _ _ _ => trivial, fun _ _ _ _ _ _ => trivial, fun _ _ _ _ _ => trivial,
      fun _ _ _ _ _ => trivial⟩
  | succ fuel ih => exact ⟨evaluate_lifts bodies ih, evaluateAll_lifts ih, execute_lifts ih,
      executeAll_lifts ih⟩

theorem runStatements_lifts (bodies : functions.Ranged) (fuel : Nat) {last : Option Value}
    {statements : List Statement} {machine : Machine} (hlast : ResultRanged last)
    (hs : Statement.AllRanged statements) (hm : machine.Ranged) :
    Run.Lifts ResultRanged (runStatements functions fuel last statements machine)
      (Exact.runStatements functions fuel last statements machine) := by
  have lifts := liftsAt bodies fuel
  induction statements generalizing last machine with
  | nil => exact .done hlast hm
  | cons statement rest ih =>
    obtain ⟨hf, hr⟩ := hs
    cases statement with
    | expression expression =>
      exact (lifts.evaluate 0 expression machine hf hm).andThen fun value machine hv hm =>
        ih hv hr hm
    | block | «variable» | conditional | loop | «return» =>
      exact (lifts.execute 0 _ machine hf hm).andThen fun _ machine _ hm => ih hlast hr hm

/-- A whole program lifts. -/
theorem run_lifts (bodies : functions.Ranged) {program : Program}
    (hs : Statement.AllRanged program.statements) (fuel : Nat) {globals : Variables}
    (hg : GlobalsRanged globals) :
    Run.Lifts ResultRanged (program.run functions fuel globals)
      (Exact.run program functions fuel globals) := by
  refine runStatements_lifts bodies fuel .none hs ⟨hg, fun entry he => ?_⟩
  rw [List.eq_of_mem_replicate he]
  exact .none

end

end Program

end ReplayShell
