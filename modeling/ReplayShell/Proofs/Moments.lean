import Mathlib.Logic.Relation
import ReplayShell.Program.Execution

/-!
# The moments of a run

The evaluator is a function of its fuel and gives only the end of a run. What a run does on the way
is told by its moments: what is to be done next, on which machine, by the code of which function.

* `Task` and `Moment` say what is being done; `Leads` has a rule for every call that the evaluator
  makes on its way, and `Reached` is any number of them.
* `Raises` lists the moments that fail by themselves.
* `explainedAt`, `explains_runStatements`: a run that fails has reached a moment that raises exactly
  its diagnostic. So the moments leave out nothing that can fail.
-/
namespace ReplayShell.Program

/-- What is to be done at a moment. -/
inductive Task where
  | evaluate (expression : Expression)
  | evaluateAll (span : Span) (expressions : List Expression)
  /-- To call with the values of the arguments. -/
  | enter (name : String) (callee : Callee) (values : List Value) (span : Span)
  | store (slot : Slot) (value : Value)
  | execute (statement : Statement)
  | executeAll (statements : List Statement)
  /-- To run top-level statements. -/
  | run (last : Option Value) (statements : List Statement)

/-- A moment of a run. -/
structure Moment where
  /-- The function whose code is being run; none at the top level. -/
  origin : Option FunctionId
  depth : Nat
  fuel : Nat
  task : Task
  machine : Machine

section
variable (functions : FunctionMap)

/-- What is done next on the way to what is to be done. -/
inductive Leads : Moment → Moment → Prop
  -- expressions
  | assignmentValue {origin depth fuel ref value machine} :
      Leads ⟨origin, depth, fuel + 1, .evaluate (.assignment ref value), machine⟩
        ⟨origin, depth, fuel, .evaluate value, machine⟩
  | assignmentStore {origin depth fuel ref value machine result machine'}
      (h : evaluate functions fuel depth value machine = .done (some result) machine') :
      Leads ⟨origin, depth, fuel + 1, .evaluate (.assignment ref value), machine⟩
        ⟨origin, depth, fuel, .store ref.slot result, machine'⟩
  | unaryOperand {origin depth fuel op operand span machine} :
      Leads ⟨origin, depth, fuel + 1, .evaluate (.unary op operand span), machine⟩
        ⟨origin, depth, fuel, .evaluate operand, machine⟩
  | binaryLeft {origin depth fuel left op right span machine} :
      Leads ⟨origin, depth, fuel + 1, .evaluate (.binary left op right span), machine⟩
        ⟨origin, depth, fuel, .evaluate left, machine⟩
  | binaryRight {origin depth fuel left op right span machine value machine'}
      (h : evaluate functions fuel depth left machine = .done (some value) machine')
      (hs : BinaryOp.shortCircuit? op value = none) :
      Leads ⟨origin, depth, fuel + 1, .evaluate (.binary left op right span), machine⟩
        ⟨origin, depth, fuel, .evaluate right, machine'⟩
  | callArguments {origin depth fuel name callee arguments span machine} :
      Leads ⟨origin, depth, fuel + 1, .evaluate (.call name callee arguments span), machine⟩
        ⟨origin, depth, fuel, .evaluateAll span arguments, machine⟩
  | callEnter {origin depth fuel name callee arguments span machine values machine'}
      (h : evaluateAll functions fuel depth span arguments machine = .done values machine') :
      Leads ⟨origin, depth, fuel + 1, .evaluate (.call name callee arguments span), machine⟩
        ⟨origin, depth, fuel, .enter name callee values span, machine'⟩
  | enterBody {origin depth fuel name id values span machine function}
      (hf : functions[id]? = some function) (hd : ¬maxCallDepth ≤ depth) :
      Leads ⟨origin, depth, fuel, .enter name (.function id) values span, machine⟩
        ⟨some id, depth + 1, fuel, .executeAll function.body,
          { machine with frame := callFrame function values }⟩
  | argumentsFirst {origin depth fuel span first rest machine} :
      Leads ⟨origin, depth, fuel + 1, .evaluateAll span (first :: rest), machine⟩
        ⟨origin, depth, fuel, .evaluate first, machine⟩
  | argumentsRest {origin depth fuel span first rest machine value machine'}
      (h : evaluate functions fuel depth first machine = .done (some value) machine') :
      Leads ⟨origin, depth, fuel + 1, .evaluateAll span (first :: rest), machine⟩
        ⟨origin, depth, fuel, .evaluateAll span rest, machine'⟩
  -- statements
  | block {origin depth fuel statements machine} :
      Leads ⟨origin, depth, fuel + 1, .execute (.block statements), machine⟩
        ⟨origin, depth, fuel, .executeAll statements, machine⟩
  | variableValue {origin depth fuel ref readOnly initializer machine} :
      Leads ⟨origin, depth, fuel + 1, .execute (.variable ref readOnly initializer), machine⟩
        ⟨origin, depth, fuel, .evaluate initializer, machine⟩
  | variableStore {origin depth fuel ref readOnly initializer machine value machine'}
      (h : evaluate functions fuel depth initializer machine = .done (some value) machine') :
      Leads ⟨origin, depth, fuel + 1, .execute (.variable ref readOnly initializer), machine⟩
        ⟨origin, depth, fuel, .store ref.slot value, machine'⟩
  | condition {origin depth fuel condition thenBranch elseBranch machine} :
      Leads ⟨origin, depth, fuel + 1, .execute (.conditional condition thenBranch elseBranch),
          machine⟩
        ⟨origin, depth, fuel, .evaluate condition, machine⟩
  | thenBranch {origin depth fuel condition thenBranch elseBranch machine machine'}
      (h : evaluate functions fuel depth condition machine = .done (some (.boolean true)) machine') :
      Leads ⟨origin, depth, fuel + 1, .execute (.conditional condition thenBranch elseBranch),
          machine⟩
        ⟨origin, depth, fuel, .execute thenBranch, machine'⟩
  | elseBranch {origin depth fuel condition thenBranch elseBranch machine machine'}
      (h : evaluate functions fuel depth condition machine = .done (some (.boolean false)) machine') :
      Leads ⟨origin, depth, fuel + 1, .execute (.conditional condition thenBranch (some elseBranch)),
          machine⟩
        ⟨origin, depth, fuel, .execute elseBranch, machine'⟩
  | loopCondition {origin depth fuel condition body machine} :
      Leads ⟨origin, depth, fuel + 1, .execute (.loop condition body), machine⟩
        ⟨origin, depth, fuel, .evaluate condition, machine⟩
  | loopBody {origin depth fuel condition body machine machine'}
      (h : evaluate functions fuel depth condition machine = .done (some (.boolean true)) machine') :
      Leads ⟨origin, depth, fuel + 1, .execute (.loop condition body), machine⟩
        ⟨origin, depth, fuel, .execute body, machine'⟩
  | loopAgain {origin depth fuel condition body machine machine' machine''}
      (h : evaluate functions fuel depth condition machine = .done (some (.boolean true)) machine')
      (hb : execute functions fuel depth body machine' = .done .normal machine'') :
      Leads ⟨origin, depth, fuel + 1, .execute (.loop condition body), machine⟩
        ⟨origin, depth, fuel, .execute (.loop condition body), machine''⟩
  | returnValue {origin depth fuel value machine} :
      Leads ⟨origin, depth, fuel + 1, .execute (.return (some value)), machine⟩
        ⟨origin, depth, fuel, .evaluate value, machine⟩
  | expression {origin depth fuel expression machine} :
      Leads ⟨origin, depth, fuel + 1, .execute (.expression expression), machine⟩
        ⟨origin, depth, fuel, .evaluate expression, machine⟩
  | statementsFirst {origin depth fuel first rest machine} :
      Leads ⟨origin, depth, fuel + 1, .executeAll (first :: rest), machine⟩
        ⟨origin, depth, fuel, .execute first, machine⟩
  | statementsRest {origin depth fuel first rest machine machine'}
      (h : execute functions fuel depth first machine = .done .normal machine') :
      Leads ⟨origin, depth, fuel + 1, .executeAll (first :: rest), machine⟩
        ⟨origin, depth, fuel, .executeAll rest, machine'⟩
  -- the top level, where every statement has the fuel of the whole
  | runExpression {origin depth fuel last expression rest machine} :
      Leads ⟨origin, depth, fuel, .run last (.expression expression :: rest), machine⟩
        ⟨origin, 0, fuel, .evaluate expression, machine⟩
  | runAfterExpression {origin depth fuel last expression rest machine value machine'}
      (h : evaluate functions fuel 0 expression machine = .done value machine') :
      Leads ⟨origin, depth, fuel, .run last (.expression expression :: rest), machine⟩
        ⟨origin, depth, fuel, .run value rest, machine'⟩
  | runStatement {origin depth fuel last statement rest machine}
      (hs : ∀ expression, statement ≠ .expression expression) :
      Leads ⟨origin, depth, fuel, .run last (statement :: rest), machine⟩
        ⟨origin, 0, fuel, .execute statement, machine⟩
  | runAfterStatement {origin depth fuel last statement rest machine flow machine'}
      (hs : ∀ expression, statement ≠ .expression expression)
      (h : execute functions fuel 0 statement machine = .done flow machine') :
      Leads ⟨origin, depth, fuel, .run last (statement :: rest), machine⟩
        ⟨origin, depth, fuel, .run last rest, machine'⟩

/-- A moment on the way from another. -/
abbrev Reached : Moment → Moment → Prop := Relation.ReflTransGen (Leads functions)

/-- Where the value of an expression is missed: at the expression, or at `fallback`. -/
def missingAt (expression : Expression) (fallback : Span) : Span :=
  if expression.span.isEmpty then fallback else expression.span

/-- The moments that fail by themselves, with what they report. -/
inductive Raises : Moment → Diagnostic → Prop
  | invalid {origin depth fuel machine} :
      Raises ⟨origin, depth, fuel + 1, .evaluate .invalid, machine⟩ ⟨Span.at 0, .invalidCode⟩
  | unset {origin depth fuel ref span machine} (h : Machine.load machine ref.slot = none) :
      Raises ⟨origin, depth, fuel + 1, .evaluate (.variable ref span), machine⟩
        ⟨span, .variableUnset ref.name⟩
  | assignment {origin depth fuel ref value machine machine'}
      (h : evaluate functions fuel depth value machine = .done none machine') :
      Raises ⟨origin, depth, fuel + 1, .evaluate (.assignment ref value), machine⟩
        ⟨missingAt value (Span.at 0), .noValue⟩
  | unaryOperand {origin depth fuel op operand span machine machine'}
      (h : evaluate functions fuel depth operand machine = .done none machine') :
      Raises ⟨origin, depth, fuel + 1, .evaluate (.unary op operand span), machine⟩
        ⟨missingAt operand span, .noValue⟩
  | unary {origin depth fuel op operand span machine value machine' diagnostic machine''}
      (h : evaluate functions fuel depth operand machine = .done (some value) machine')
      (hr : unaryResult op value span machine' = .failed diagnostic machine'') :
      Raises ⟨origin, depth, fuel + 1, .evaluate (.unary op operand span), machine⟩ diagnostic
  | binaryLeft {origin depth fuel left op right span machine machine'}
      (h : evaluate functions fuel depth left machine = .done none machine') :
      Raises ⟨origin, depth, fuel + 1, .evaluate (.binary left op right span), machine⟩
        ⟨missingAt left span, .noValue⟩
  | binaryRight {origin depth fuel left op right span machine value machine' machine''}
      (h : evaluate functions fuel depth left machine = .done (some value) machine')
      (hs : BinaryOp.shortCircuit? op value = none)
      (hr : evaluate functions fuel depth right machine' = .done none machine'') :
      Raises ⟨origin, depth, fuel + 1, .evaluate (.binary left op right span), machine⟩
        ⟨missingAt right span, .noValue⟩
  | binary {origin depth fuel left op right span machine value machine' value' machine'' diagnostic
        machine'''}
      (h : evaluate functions fuel depth left machine = .done (some value) machine')
      (hs : BinaryOp.shortCircuit? op value = none)
      (hr : evaluate functions fuel depth right machine' = .done (some value') machine'')
      (hb : binaryResult op value value' span machine'' = .failed diagnostic machine''') :
      Raises ⟨origin, depth, fuel + 1, .evaluate (.binary left op right span), machine⟩ diagnostic
  | argument {origin depth fuel span first rest machine machine'}
      (h : evaluate functions fuel depth first machine = .done none machine') :
      Raises ⟨origin, depth, fuel + 1, .evaluateAll span (first :: rest), machine⟩
        ⟨missingAt first span, .noValue⟩
  | noBody {origin depth fuel name id values span machine} (hf : functions[id]? = none) :
      Raises ⟨origin, depth, fuel, .enter name (.function id) values span, machine⟩
        ⟨span, .functionWithoutBody name⟩
  | tooDeep {origin depth fuel name id values span machine function}
      (hf : functions[id]? = some function) (hd : maxCallDepth ≤ depth) :
      Raises ⟨origin, depth, fuel, .enter name (.function id) values span, machine⟩
        ⟨span, .callDepthExceeded⟩
  | initializer {origin depth fuel ref readOnly initializer machine machine'}
      (h : evaluate functions fuel depth initializer machine = .done none machine') :
      Raises ⟨origin, depth, fuel + 1, .execute (.variable ref readOnly initializer), machine⟩
        ⟨missingAt initializer (Span.at 0), .noValue⟩
  | condition {origin depth fuel condition thenBranch elseBranch machine machine'}
      (h : evaluate functions fuel depth condition machine = .done none machine') :
      Raises ⟨origin, depth, fuel + 1, .execute (.conditional condition thenBranch elseBranch),
        machine⟩ ⟨missingAt condition (Span.at 0), .noValue⟩
  | conditionType {origin depth fuel condition thenBranch elseBranch machine value machine'}
      (h : evaluate functions fuel depth condition machine = .done (some value) machine')
      (hv : value.type ≠ .boolean) :
      Raises ⟨origin, depth, fuel + 1, .execute (.conditional condition thenBranch elseBranch),
        machine⟩ ⟨condition.span, .conditionNotBoolean value.type⟩
  | loopCondition {origin depth fuel condition body machine machine'}
      (h : evaluate functions fuel depth condition machine = .done none machine') :
      Raises ⟨origin, depth, fuel + 1, .execute (.loop condition body), machine⟩
        ⟨missingAt condition (Span.at 0), .noValue⟩
  | loopConditionType {origin depth fuel condition body machine value machine'}
      (h : evaluate functions fuel depth condition machine = .done (some value) machine')
      (hv : value.type ≠ .boolean) :
      Raises ⟨origin, depth, fuel + 1, .execute (.loop condition body), machine⟩
        ⟨condition.span, .conditionNotBoolean value.type⟩

end

/-! ## How computations in sequence end -/

namespace Run

variable {α β : Type} {machine : Machine} {diagnostic : Diagnostic}

theorem andThen_done {run : Run α} {next : α → Machine → Run β} {result : β}
    (h : run.andThen next = .done result machine) :
    ∃ value machine', run = .done value machine' ∧ next value machine' = .done result machine := by
  cases run with
  | done value machine' => exact ⟨value, machine', rfl, h⟩
  | failed | unfinished => cases h

theorem andThen_failed {run : Run α} {next : α → Machine → Run β}
    (h : run.andThen next = .failed diagnostic machine) :
    run = .failed diagnostic machine ∨
      ∃ value machine', run = .done value machine' ∧
        next value machine' = .failed diagnostic machine := by
  cases run with
  | done value machine' => exact .inr ⟨value, machine', rfl, h⟩
  | failed =>
    cases h
    exact .inl rfl
  | unfinished => cases h

variable {run : Run (Option Value)} {expression : Expression}

theorem withValue_done {fallback : Span} {next : Value → Machine → Run β} {result : β}
    (h : run.withValue expression fallback next = .done result machine) :
    ∃ value machine', run = .done (some value) machine' ∧
      next value machine' = .done result machine := by
  obtain ⟨value, machine', hr, hn⟩ := andThen_done h
  cases value with
  | some value => exact ⟨value, machine', hr, hn⟩
  | none => cases hn

theorem withValue_failed {fallback : Span} {next : Value → Machine → Run β}
    (h : run.withValue expression fallback next = .failed diagnostic machine) :
    run = .failed diagnostic machine ∨
      (∃ machine', run = .done none machine' ∧
        diagnostic = ⟨missingAt expression fallback, .noValue⟩) ∨
      ∃ value machine', run = .done (some value) machine' ∧
        next value machine' = .failed diagnostic machine := by
  rcases andThen_failed h with hr | ⟨value, machine', hr, hn⟩
  · exact .inl hr
  · cases value with
    | some value => exact .inr (.inr ⟨value, machine', hr, hn⟩)
    | none =>
      cases hn
      exact .inr (.inl ⟨_, hr, rfl⟩)

theorem withCondition_done {next : Bool → Machine → Run β} {result : β}
    (h : run.withCondition expression next = .done result machine) :
    ∃ truth machine', run = .done (some (.boolean truth)) machine' ∧
      next truth machine' = .done result machine := by
  obtain ⟨value, machine', hr, hn⟩ := withValue_done h
  cases value with
  | boolean truth => exact ⟨truth, machine', hr, hn⟩
  | integer | string => cases hn

theorem withCondition_failed {next : Bool → Machine → Run β}
    (h : run.withCondition expression next = .failed diagnostic machine) :
    run = .failed diagnostic machine ∨
      (∃ machine', run = .done none machine' ∧
        diagnostic = ⟨missingAt expression (Span.at 0), .noValue⟩) ∨
      (∃ value machine', run = .done (some value) machine' ∧ value.type ≠ .boolean ∧
        diagnostic = ⟨expression.span, .conditionNotBoolean value.type⟩) ∨
      ∃ truth machine', run = .done (some (.boolean truth)) machine' ∧
        next truth machine' = .failed diagnostic machine := by
  rcases withValue_failed h with hr | hr | ⟨value, machine', hr, hn⟩
  · exact .inl hr
  · exact .inr (.inl hr)
  · cases value with
    | boolean truth => exact .inr (.inr (.inr ⟨truth, machine', hr, hn⟩))
    | integer | string =>
      cases hn
      exact .inr (.inr (.inl ⟨_, _, hr, by simp [Value.type], rfl⟩))

theorem leave_done {run : Run Flow} {caller : Frame} {result : Option Value}
    (h : run.leave caller = .done result machine) : machine.frame = caller := by
  obtain ⟨flow, machine', -, hn⟩ := andThen_done h
  cases flow <;> cases hn <;> rfl

theorem leave_failed {run : Run Flow} {caller : Frame}
    (h : run.leave caller = .failed diagnostic machine) : run = .failed diagnostic machine := by
  rcases andThen_failed h with hr | ⟨flow, machine', -, hn⟩
  · exact hr
  · cases flow <;> cases hn

end Run

/-! ## Every failure has its moment -/

variable {functions : FunctionMap} {diagnostic : Diagnostic}

/-- From the moment on, one is reached that raises the diagnostic. -/
def Explains (functions : FunctionMap) (start : Moment) (diagnostic : Diagnostic) : Prop :=
  ∃ moment, Reached functions start moment ∧ Raises functions moment diagnostic

theorem Explains.here {start : Moment} (h : Raises functions start diagnostic) :
    Explains functions start diagnostic :=
  ⟨start, .refl, h⟩

theorem Explains.later {start next : Moment} (h : Leads functions start next)
    (later : Explains functions next diagnostic) : Explains functions start diagnostic := by
  obtain ⟨moment, hr, hd⟩ := later
  exact ⟨moment, .head h hr, hd⟩

variable (functions) in
/-- Every failure of the four parts of the evaluator has its moment. -/
structure ExplainedAt (fuel : Nat) : Prop where
  evaluate : ∀ origin depth expression machine diagnostic machine',
    evaluate functions fuel depth expression machine = .failed diagnostic machine' →
      Explains functions ⟨origin, depth, fuel, .evaluate expression, machine⟩ diagnostic
  evaluateAll : ∀ origin depth span expressions machine diagnostic machine',
    evaluateAll functions fuel depth span expressions machine = .failed diagnostic machine' →
      Explains functions ⟨origin, depth, fuel, .evaluateAll span expressions, machine⟩ diagnostic
  execute : ∀ origin depth statement machine diagnostic machine',
    execute functions fuel depth statement machine = .failed diagnostic machine' →
      Explains functions ⟨origin, depth, fuel, .execute statement, machine⟩ diagnostic
  executeAll : ∀ origin depth statements machine diagnostic machine',
    executeAll functions fuel depth statements machine = .failed diagnostic machine' →
      Explains functions ⟨origin, depth, fuel, .executeAll statements, machine⟩ diagnostic

theorem explains_evaluate {fuel : Nat} (ih : ExplainedAt functions fuel)
    (origin : Option FunctionId) (depth : Nat) (expression : Expression) (machine : Machine)
    (diagnostic : Diagnostic) (machine' : Machine)
    (h : evaluate functions (fuel + 1) depth expression machine = .failed diagnostic machine') :
    Explains functions ⟨origin, depth, fuel + 1, .evaluate expression, machine⟩ diagnostic := by
  cases expression with
  | invalid =>
    cases h
    exact .here .invalid
  | literal value => cases h
  | «variable» ref span =>
    simp only [evaluate] at h
    split at h
    · cases h
    · rename_i hl
      cases h
      exact .here (.unset hl)
  | assignment ref value =>
    rcases Run.withValue_failed h with hv | ⟨machine₁, hv, rfl⟩ | ⟨result, machine₁, hv, hn⟩
    · exact .later .assignmentValue (ih.evaluate _ _ _ _ _ _ hv)
    · exact .here (.assignment hv)
    · cases hn
  | unary op operand span =>
    rcases Run.withValue_failed h with hv | ⟨machine₁, hv, rfl⟩ | ⟨value, machine₁, hv, hn⟩
    · exact .later .unaryOperand (ih.evaluate _ _ _ _ _ _ hv)
    · exact .here (.unaryOperand hv)
    · exact .here (.unary hv hn)
  | binary left op right span =>
    rcases Run.withValue_failed h with hv | ⟨machine₁, hv, rfl⟩ | ⟨value, machine₁, hv, hn⟩
    · exact .later .binaryLeft (ih.evaluate _ _ _ _ _ _ hv)
    · exact .here (.binaryLeft hv)
    · split at hn
      · cases hn
      · rename_i hs
        rcases Run.withValue_failed hn with hw | ⟨machine₂, hw, rfl⟩ | ⟨value', machine₂, hw, hb⟩
        · exact .later (.binaryRight hv hs) (ih.evaluate _ _ _ _ _ _ hw)
        · exact .here (.binaryRight hv hs hw)
        · exact .here (.binary hv hs hw hb)
  | call name callee arguments span =>
    rcases Run.andThen_failed h with hv | ⟨values, machine₁, hv, hn⟩
    · exact .later .callArguments (ih.evaluateAll _ _ _ _ _ _ _ hv)
    · refine .later (.callEnter hv) ?_
      cases callee with
      | print => cases hn
      | function id =>
        dsimp only at hn
        split at hn
        · rename_i hf
          cases hn
          exact .here (.noBody hf)
        · rename_i function hf
          split at hn
          · rename_i hd
            cases hn
            exact .here (.tooDeep hf hd)
          · rename_i hd
            exact .later (.enterBody hf hd) (ih.executeAll _ _ _ _ _ _ (Run.leave_failed hn))

theorem explains_evaluateAll {fuel : Nat} (ih : ExplainedAt functions fuel)
    (origin : Option FunctionId) (depth : Nat) (span : Span) (expressions : List Expression)
    (machine : Machine) (diagnostic : Diagnostic) (machine' : Machine)
    (h : evaluateAll functions (fuel + 1) depth span expressions machine =
      .failed diagnostic machine') :
    Explains functions ⟨origin, depth, fuel + 1, .evaluateAll span expressions, machine⟩
      diagnostic := by
  cases expressions with
  | nil => cases h
  | cons first rest =>
    rcases Run.withValue_failed h with hv | ⟨machine₁, hv, rfl⟩ | ⟨value, machine₁, hv, hn⟩
    · exact .later .argumentsFirst (ih.evaluate _ _ _ _ _ _ hv)
    · exact .here (.argument hv)
    · rcases Run.andThen_failed hn with hr | ⟨values, machine₂, -, hn⟩
      · exact .later (.argumentsRest hv) (ih.evaluateAll _ _ _ _ _ _ _ hr)
      · cases hn

theorem explains_execute {fuel : Nat} (ih : ExplainedAt functions fuel)
    (origin : Option FunctionId) (depth : Nat) (statement : Statement) (machine : Machine)
    (diagnostic : Diagnostic) (machine' : Machine)
    (h : execute functions (fuel + 1) depth statement machine = .failed diagnostic machine') :
    Explains functions ⟨origin, depth, fuel + 1, .execute statement, machine⟩ diagnostic := by
  cases statement with
  | block statements => exact .later .block (ih.executeAll _ _ _ _ _ _ h)
  | «variable» ref readOnly initializer =>
    rcases Run.withValue_failed h with hv | ⟨machine₁, hv, rfl⟩ | ⟨value, machine₁, hv, hn⟩
    · exact .later .variableValue (ih.evaluate _ _ _ _ _ _ hv)
    · exact .here (.initializer hv)
    · cases hn
  | conditional condition thenBranch elseBranch =>
    rcases Run.withCondition_failed h with hv | ⟨machine₁, hv, rfl⟩ |
      ⟨value, machine₁, hv, ht, rfl⟩ | ⟨truth, machine₁, hv, hn⟩
    · exact .later .condition (ih.evaluate _ _ _ _ _ _ hv)
    · exact .here (.condition hv)
    · exact .here (.conditionType hv ht)
    · cases truth with
      | true => exact .later (.thenBranch hv) (ih.execute _ _ _ _ _ _ hn)
      | false =>
        cases elseBranch with
        | none => cases hn
        | some elseBranch => exact .later (.elseBranch hv) (ih.execute _ _ _ _ _ _ hn)
  | loop condition body =>
    rcases Run.withCondition_failed h with hv | ⟨machine₁, hv, rfl⟩ |
      ⟨value, machine₁, hv, ht, rfl⟩ | ⟨truth, machine₁, hv, hn⟩
    · exact .later .loopCondition (ih.evaluate _ _ _ _ _ _ hv)
    · exact .here (.loopCondition hv)
    · exact .here (.loopConditionType hv ht)
    · cases truth with
      | false => cases hn
      | true =>
        rcases Run.andThen_failed hn with hb | ⟨flow, machine₂, hb, hn⟩
        · exact .later (.loopBody hv) (ih.execute _ _ _ _ _ _ hb)
        · cases flow with
          | normal => exact .later (.loopAgain hv hb) (ih.execute _ _ _ _ _ _ hn)
          | «return» => cases hn
  | «return» value =>
    cases value with
    | none => cases h
    | some value =>
      rcases Run.andThen_failed h with hv | ⟨result, machine₁, -, hn⟩
      · exact .later .returnValue (ih.evaluate _ _ _ _ _ _ hv)
      · cases hn
  | expression expression =>
    rcases Run.andThen_failed h with hv | ⟨result, machine₁, -, hn⟩
    · exact .later .expression (ih.evaluate _ _ _ _ _ _ hv)
    · cases hn

theorem explains_executeAll {fuel : Nat} (ih : ExplainedAt functions fuel)
    (origin : Option FunctionId) (depth : Nat) (statements : List Statement) (machine : Machine)
    (diagnostic : Diagnostic) (machine' : Machine)
    (h : executeAll functions (fuel + 1) depth statements machine = .failed diagnostic machine') :
    Explains functions ⟨origin, depth, fuel + 1, .executeAll statements, machine⟩ diagnostic := by
  cases statements with
  | nil => cases h
  | cons first rest =>
    rcases Run.andThen_failed h with hf | ⟨flow, machine₁, hf, hn⟩
    · exact .later .statementsFirst (ih.execute _ _ _ _ _ _ hf)
    · cases flow with
      | normal => exact .later (.statementsRest hf) (ih.executeAll _ _ _ _ _ _ hn)
      | «return» => cases hn

theorem explainedAt (functions : FunctionMap) (fuel : Nat) : ExplainedAt functions fuel := by
  induction fuel with
  | zero =>
    exact ⟨by intros; contradiction, by intros; contradiction, by intros; contradiction,
      by intros; contradiction⟩
  | succ fuel ih =>
    exact ⟨explains_evaluate ih, explains_evaluateAll ih, explains_execute ih,
      explains_executeAll ih⟩

/-- A run of top-level statements that fails has reached a moment that raises its diagnostic. -/
theorem explains_runStatements {fuel : Nat} (origin : Option FunctionId) (depth : Nat)
    (last : Option Value) (statements : List Statement) (machine : Machine) {machine' : Machine}
    (h : runStatements functions fuel last statements machine = .failed diagnostic machine') :
    Explains functions ⟨origin, depth, fuel, .run last statements, machine⟩ diagnostic := by
  have explained := explainedAt functions fuel
  induction statements generalizing last machine with
  | nil => cases h
  | cons statement rest ih =>
    cases statement with
    | expression expression =>
      rcases Run.andThen_failed h with hf | ⟨value, machine₁, hf, hn⟩
      · exact .later .runExpression (explained.evaluate _ _ _ _ _ _ hf)
      · exact .later (.runAfterExpression hf) (ih value machine₁ hn)
    | block | «variable» | conditional | loop | «return» =>
      rcases Run.andThen_failed h with hf | ⟨flow, machine₁, hf, hn⟩
      · exact .later (.runStatement (by simp)) (explained.execute _ _ _ _ _ _ hf)
      · exact .later (.runAfterStatement (by simp) hf) (ih last machine₁ hn)

end ReplayShell.Program
