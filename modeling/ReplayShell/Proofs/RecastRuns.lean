import ReplayShell.Program.Execution
import ReplayShell.Proofs.Recasting

/-!
# Runs under other numbers

Code does the same under other numbers of functions and at other places, if the functions do.

* `Run.Alike` compares two runs: only the place of a failure may differ.
* `Renumbered σ functions functions'`: under `σ` the second map holds the functions of the first.
* `evaluate_recast` and its companions: each part of the evaluator runs recast code alike.
  `run_alike`: so submissions that are recast to the same run alike.
-/
namespace ReplayShell.Program

/-- The same run, but for the place of a failure. -/
inductive Run.Alike {α : Type} : Run α → Run α → Prop
  | done (value : α) (machine : Machine) : Alike (.done value machine) (.done value machine)
  | failed (problem : Problem) (span span' : Span) (machine : Machine) :
      Alike (.failed ⟨span, problem⟩ machine) (.failed ⟨span', problem⟩ machine)
  | unfinished : Alike .unfinished .unfinished

namespace Run.Alike

variable {α β : Type} {run run' : Run α}

theorem symm (h : run.Alike run') : run'.Alike run := by
  cases h with
  | done value machine => exact .done value machine
  | failed problem span span' machine => exact .failed problem span' span machine
  | unfinished => exact .unfinished

theorem trans {run'' : Run α} (h : run.Alike run') (h' : run'.Alike run'') : run.Alike run'' := by
  cases h with
  | done | unfinished => exact h'
  | failed problem span _ machine =>
    cases h' with
    | failed _ _ span'' => exact .failed problem span span'' machine

theorem andThen {next next' : α → Machine → Run β} (h : run.Alike run')
    (hn : ∀ value machine, (next value machine).Alike (next' value machine)) :
    (run.andThen next).Alike (run'.andThen next') := by
  cases h with
  | done value machine => exact hn value machine
  | failed problem span span' machine => exact .failed problem span span' machine
  | unfinished => exact .unfinished

theorem withValue {run run' : Run (Option Value)} {next next' : Value → Machine → Run β}
    {expression expression' : Expression} {fallback fallback' : Span} (h : run.Alike run')
    (hn : ∀ value machine, (next value machine).Alike (next' value machine)) :
    (run.withValue expression fallback next).Alike
      (run'.withValue expression' fallback' next') :=
  h.andThen fun result machine => by
    cases result with
    | some value => exact hn value machine
    | none => exact .failed _ _ _ _

theorem withCondition {run run' : Run (Option Value)} {next next' : Bool → Machine → Run β}
    {condition condition' : Expression} (h : run.Alike run')
    (hn : ∀ truth machine, (next truth machine).Alike (next' truth machine)) :
    (run.withCondition condition next).Alike (run'.withCondition condition' next') :=
  h.withValue fun value machine => by
    cases value with
    | boolean truth => exact hn truth machine
    | integer => exact .failed _ _ _ _
    | string => exact .failed _ _ _ _

end Run.Alike

theorem unaryResult_alike (op : UnaryOp) (operand : Value) (span span' : Span)
    (machine : Machine) :
    (unaryResult op operand span machine).Alike (unaryResult op operand span' machine) := by
  unfold unaryResult
  split
  · exact .done _ _
  all_goals exact .failed _ _ _ _

theorem binaryResult_alike (op : BinaryOp) (left right : Value) (span span' : Span)
    (machine : Machine) :
    (binaryResult op left right span machine).Alike (binaryResult op left right span' machine) := by
  unfold binaryResult
  split
  · exact .done _ _
  all_goals exact .failed _ _ _ _

/-- Under the numbers of `σ` the second map holds the functions of the first, recast. -/
def Renumbered (σ : FunctionId → FunctionId) (functions functions' : FunctionMap) : Prop :=
  ∀ id, functions'[σ id]? = functions[id]?.map (Function.recast σ)

section
variable (σ : FunctionId → FunctionId) (functions functions' : FunctionMap)

/-- With this fuel, the four parts of the evaluator run recast code alike. -/
structure MirrorsAt (fuel : Nat) : Prop where
  evaluate : ∀ depth expression machine,
    (evaluate functions fuel depth expression machine).Alike
      (evaluate functions' fuel depth (expression.recast σ) machine)
  evaluateAll : ∀ depth span span' expressions machine,
    (evaluateAll functions fuel depth span expressions machine).Alike
      (evaluateAll functions' fuel depth span' (recastExpressions σ expressions) machine)
  execute : ∀ depth statement machine,
    (execute functions fuel depth statement machine).Alike
      (execute functions' fuel depth (statement.recast σ) machine)
  executeAll : ∀ depth statements machine,
    (executeAll functions fuel depth statements machine).Alike
      (executeAll functions' fuel depth (recastStatements σ statements) machine)

variable {σ functions functions'}

theorem evaluate_recast {fuel : Nat} (renumbered : Renumbered σ functions functions')
    (ih : MirrorsAt σ functions functions' fuel) (depth : Nat) (expression : Expression)
    (machine : Machine) :
    (evaluate functions (fuel + 1) depth expression machine).Alike
      (evaluate functions' (fuel + 1) depth (expression.recast σ) machine) := by
  cases expression with
  | invalid => exact .failed _ _ _ _
  | literal value => exact .done _ machine
  | «variable» ref span =>
    simp only [Expression.recast, evaluate]
    split
    · exact .done _ machine
    · exact .failed _ _ _ _
  | assignment ref value =>
    exact (ih.evaluate depth value machine).withValue fun _ _ => .done _ _
  | unary op operand span =>
    exact (ih.evaluate depth operand machine).withValue fun _ _ => unaryResult_alike ..
  | binary left op right span =>
    refine (ih.evaluate depth left machine).withValue fun leftValue machine => ?_
    cases op.shortCircuit? leftValue with
    | some value => exact .done _ machine
    | none => exact (ih.evaluate depth right machine).withValue fun _ _ => binaryResult_alike ..
  | call name callee arguments span =>
    refine (ih.evaluateAll depth span _ arguments machine).andThen fun values machine => ?_
    cases callee with
    | print => exact .done _ _
    | function id =>
      simp only [Callee.recast, renumbered id]
      cases functions[id]? with
      | none => exact .failed _ _ _ _
      | some function =>
        simp only [Option.map_some]
        by_cases hd : maxCallDepth ≤ depth
        · simp only [hd, ↓reduceIte]
          exact .failed _ _ _ _
        · simp only [hd, ↓reduceIte]
          refine (ih.executeAll (depth + 1) function.body _).andThen fun flow machine => ?_
          cases flow <;> exact .done _ _

theorem evaluateAll_recast {fuel : Nat} (ih : MirrorsAt σ functions functions' fuel) (depth : Nat)
    (span span' : Span) (expressions : List Expression) (machine : Machine) :
    (evaluateAll functions (fuel + 1) depth span expressions machine).Alike
      (evaluateAll functions' (fuel + 1) depth span' (recastExpressions σ expressions)
        machine) := by
  cases expressions with
  | nil => exact .done _ machine
  | cons expression rest =>
    refine (ih.evaluate depth expression machine).withValue fun value machine => ?_
    exact (ih.evaluateAll depth span span' rest machine).andThen fun _ _ => .done _ _

theorem execute_recast {fuel : Nat} (ih : MirrorsAt σ functions functions' fuel) (depth : Nat)
    (statement : Statement) (machine : Machine) :
    (execute functions (fuel + 1) depth statement machine).Alike
      (execute functions' (fuel + 1) depth (statement.recast σ) machine) := by
  cases statement with
  | block statements => exact ih.executeAll depth statements machine
  | «variable» ref readOnly initializer =>
    exact (ih.evaluate depth initializer machine).withValue fun _ _ => .done _ _
  | conditional condition thenBranch elseBranch =>
    refine (ih.evaluate depth condition machine).withCondition fun truth machine => ?_
    cases truth with
    | true => exact ih.execute depth thenBranch machine
    | false =>
      cases elseBranch with
      | none => exact .done _ machine
      | some statement => exact ih.execute depth statement machine
  | loop condition body =>
    refine (ih.evaluate depth condition machine).withCondition fun truth machine => ?_
    cases truth with
    | false => exact .done _ machine
    | true =>
      refine (ih.execute depth body machine).andThen fun flow machine => ?_
      cases flow with
      | normal => exact ih.execute depth (.loop condition body) machine
      | «return» value => exact .done _ machine
  | «return» value =>
    cases value with
    | none => exact .done _ machine
    | some value => exact (ih.evaluate depth value machine).andThen fun _ _ => .done _ _
  | expression expression =>
    exact (ih.evaluate depth expression machine).andThen fun _ _ => .done _ _

theorem executeAll_recast {fuel : Nat} (ih : MirrorsAt σ functions functions' fuel) (depth : Nat)
    (statements : List Statement) (machine : Machine) :
    (executeAll functions (fuel + 1) depth statements machine).Alike
      (executeAll functions' (fuel + 1) depth (recastStatements σ statements) machine) := by
  cases statements with
  | nil => exact .done _ machine
  | cons statement rest =>
    refine (ih.execute depth statement machine).andThen fun flow machine => ?_
    cases flow with
    | normal => exact ih.executeAll depth rest machine
    | «return» value => exact .done _ machine

theorem mirrorsAt (renumbered : Renumbered σ functions functions') (fuel : Nat) :
    MirrorsAt σ functions functions' fuel := by
  induction fuel with
  | zero => exact ⟨fun _ _ _ => .unfinished, fun _ _ _ _ _ => .unfinished,
      fun _ _ _ => .unfinished, fun _ _ _ => .unfinished⟩
  | succ fuel ih => exact ⟨evaluate_recast renumbered ih, evaluateAll_recast ih,
      execute_recast ih, executeAll_recast ih⟩

theorem runStatements_recast (renumbered : Renumbered σ functions functions') (fuel : Nat)
    (last : Option Value) (statements : List Statement) (machine : Machine) :
    (runStatements functions fuel last statements machine).Alike
      (runStatements functions' fuel last (recastStatements σ statements) machine) := by
  have mirrors := mirrorsAt renumbered fuel
  induction statements generalizing last machine with
  | nil => exact .done last machine
  | cons statement rest ih =>
    cases statement with
    | expression expression =>
      exact (mirrors.evaluate 0 expression machine).andThen fun value machine => ih value machine
    | block | «variable» | conditional | loop | «return» =>
      exact (mirrors.execute 0 _ machine).andThen fun _ machine => ih last machine

/-- Two submissions run alike if they are recast to the same. -/
theorem run_alike {τ : FunctionId → FunctionId} {common : FunctionMap} {program program' : Program}
    (renumbered : Renumbered σ functions common) (renumbered' : Renumbered τ functions' common)
    (hs : recastStatements σ program.statements = recastStatements τ program'.statements)
    (hf : program.frameSize = program'.frameSize) (fuel : Nat) (globals : Variables) :
    (program.run functions fuel globals).Alike (program'.run functions' fuel globals) := by
  have first := runStatements_recast renumbered fuel none program.statements
    { globals := globals, frame := List.replicate program.frameSize none, printed := "" }
  have second := runStatements_recast renumbered' fuel none program'.statements
    { globals := globals, frame := List.replicate program'.frameSize none, printed := "" }
  rw [hs, hf] at first
  rw [run, run, hf]
  exact first.trans second.symm

end

end ReplayShell.Program
