import ReplayShell.Proofs.Moments

/-!
# What a run does, in order

The moments of a run happen one after another. Here they are put in the order of time.

* `next` lists what is done on the way to what is to be done, the earlier first; `mem_next_iff`: it
  is what the moment leads to.
* `chronicle` is the moment with all that it leads to in the end, in order. `mem_chronicle_iff`: it
  has the moments that are reached, and no others.
* `Handed` follows an invariant through moments that come one after another; `chronicle_keeps` is the
  induction that carries it through a run.
-/
namespace ReplayShell.Program

section
variable (functions : FunctionMap)

/-! ## What comes next -/

/-- What there is to do after a computation, if it is done. -/
def Run.whenDone {α : Type} (run : Run α) (next : α → Machine → List Moment) : List Moment :=
  match run with
  | .done value machine => next value machine
  | .failed _ _ | .unfinished => []

/-- What there is to do after an expression, if it has a value. -/
def Run.whenValue (run : Run (Option Value)) (next : Value → Machine → List Moment) :
    List Moment :=
  run.whenDone fun result machine =>
    match result with
    | some value => next value machine
    | none => []

/-- What there is to do after a condition, if it has a truth value. -/
def Run.whenTruth (run : Run (Option Value)) (next : Bool → Machine → List Moment) :
    List Moment :=
  run.whenValue fun value machine =>
    match value with
    | .boolean truth => next truth machine
    | _ => []

/-- What there is to do after a statement, unless it returns. -/
def Run.whenNormal (run : Run Flow) (next : Machine → List Moment) : List Moment :=
  run.whenDone fun flow machine =>
    match flow with
    | .normal => next machine
    | .return _ => []

section
variable (origin : Option FunctionId) (depth fuel : Nat) (machine : Machine)

def nextOfExpression : Expression → List Moment
  | .invalid | .literal _ | .variable _ _ => []
  | .assignment ref value =>
    ⟨origin, depth, fuel, .evaluate value, machine⟩ ::
      (evaluate functions fuel depth value machine).whenValue fun result machine =>
        [⟨origin, depth, fuel, .store ref.slot result, machine⟩]
  | .unary _ operand _ => [⟨origin, depth, fuel, .evaluate operand, machine⟩]
  | .binary left op right _ =>
    ⟨origin, depth, fuel, .evaluate left, machine⟩ ::
      (evaluate functions fuel depth left machine).whenValue fun value machine =>
        match op.shortCircuit? value with
        | some _ => []
        | none => [⟨origin, depth, fuel, .evaluate right, machine⟩]
  | .call name callee arguments span =>
    ⟨origin, depth, fuel, .evaluateAll span arguments, machine⟩ ::
      (evaluateAll functions fuel depth span arguments machine).whenDone fun values machine =>
        [⟨origin, depth, fuel, .enter name callee values span, machine⟩]

def nextOfArguments (span : Span) : List Expression → List Moment
  | [] => []
  | first :: rest =>
    ⟨origin, depth, fuel, .evaluate first, machine⟩ ::
      (evaluate functions fuel depth first machine).whenValue fun _ machine =>
        [⟨origin, depth, fuel, .evaluateAll span rest, machine⟩]

def nextOfCall (values : List Value) : Callee → List Moment
  | .print => []
  | .function id =>
    match functions[id]? with
    | none => []
    | some function =>
      if maxCallDepth ≤ depth then []
      else [⟨some id, depth + 1, fuel, .executeAll function.body,
        { machine with frame := callFrame function values }⟩]

def nextOfStatement : Statement → List Moment
  | .block statements => [⟨origin, depth, fuel, .executeAll statements, machine⟩]
  | .variable ref _ initializer =>
    ⟨origin, depth, fuel, .evaluate initializer, machine⟩ ::
      (evaluate functions fuel depth initializer machine).whenValue fun value machine =>
        [⟨origin, depth, fuel, .store ref.slot value, machine⟩]
  | .conditional condition thenBranch elseBranch =>
    ⟨origin, depth, fuel, .evaluate condition, machine⟩ ::
      (evaluate functions fuel depth condition machine).whenTruth fun truth machine =>
        if truth then [⟨origin, depth, fuel, .execute thenBranch, machine⟩]
        else match elseBranch with
          | some statement => [⟨origin, depth, fuel, .execute statement, machine⟩]
          | none => []
  | .loop condition body =>
    ⟨origin, depth, fuel, .evaluate condition, machine⟩ ::
      (evaluate functions fuel depth condition machine).whenTruth fun truth machine =>
        if truth then
          ⟨origin, depth, fuel, .execute body, machine⟩ ::
            (execute functions fuel depth body machine).whenNormal fun machine =>
              [⟨origin, depth, fuel, .execute (.loop condition body), machine⟩]
        else []
  | .return none => []
  | .return (some value) => [⟨origin, depth, fuel, .evaluate value, machine⟩]
  | .expression expression => [⟨origin, depth, fuel, .evaluate expression, machine⟩]

def nextOfStatements : List Statement → List Moment
  | [] => []
  | first :: rest =>
    ⟨origin, depth, fuel, .execute first, machine⟩ ::
      (execute functions fuel depth first machine).whenNormal fun machine =>
        [⟨origin, depth, fuel, .executeAll rest, machine⟩]

def nextOfRun (last : Option Value) : List Statement → List Moment
  | [] => []
  | .expression expression :: rest =>
    ⟨origin, 0, fuel, .evaluate expression, machine⟩ ::
      (evaluate functions fuel 0 expression machine).whenDone fun value machine =>
        [⟨origin, depth, fuel, .run value rest, machine⟩]
  | first :: rest =>
    ⟨origin, 0, fuel, .execute first, machine⟩ ::
      (execute functions fuel 0 first machine).whenDone fun _ machine =>
        [⟨origin, depth, fuel, .run last rest, machine⟩]

end

/-- What is done on the way, the earlier first. Only calls and runs take no fuel themselves. -/
def next (moment : Moment) : List Moment :=
  match moment with
  | ⟨origin, depth, fuel, task, machine⟩ =>
    match task with
    | .store _ _ => []
    | .enter _ callee values _ => nextOfCall functions depth fuel machine values callee
    | .run last statements => nextOfRun functions origin depth fuel machine last statements
    | .evaluate expression =>
      match fuel with
      | 0 => []
      | fuel + 1 => nextOfExpression functions origin depth fuel machine expression
    | .evaluateAll span expressions =>
      match fuel with
      | 0 => []
      | fuel + 1 => nextOfArguments functions origin depth fuel machine span expressions
    | .execute statement =>
      match fuel with
      | 0 => []
      | fuel + 1 => nextOfStatement functions origin depth fuel machine statement
    | .executeAll statements =>
      match fuel with
      | 0 => []
      | fuel + 1 => nextOfStatements functions origin depth fuel machine statements

variable {functions}

namespace Run

variable {α : Type} {moment : Moment}

theorem mem_whenDone {run : Run α} {next : α → Machine → List Moment} :
    moment ∈ run.whenDone next ↔
      ∃ value machine, run = .done value machine ∧ moment ∈ next value machine := by
  cases run with
  | done value machine =>
    constructor
    · exact fun h => ⟨value, machine, rfl, h⟩
    · rintro ⟨_, _, ⟨⟩, h⟩
      exact h
  | failed | unfinished => simp [whenDone]

theorem mem_whenValue {run : Run (Option Value)} {next : Value → Machine → List Moment} :
    moment ∈ run.whenValue next ↔
      ∃ value machine, run = .done (some value) machine ∧ moment ∈ next value machine := by
  rw [whenValue, mem_whenDone]
  constructor
  · rintro ⟨value, machine, hr, hm⟩
    cases value with
    | none => cases hm
    | some value => exact ⟨value, machine, hr, hm⟩
  · rintro ⟨value, machine, hr, hm⟩
    exact ⟨some value, machine, hr, hm⟩

theorem mem_whenTruth {run : Run (Option Value)} {next : Bool → Machine → List Moment} :
    moment ∈ run.whenTruth next ↔
      ∃ truth machine, run = .done (some (.boolean truth)) machine ∧
        moment ∈ next truth machine := by
  rw [whenTruth, mem_whenValue]
  constructor
  · rintro ⟨value, machine, hr, hm⟩
    cases value with
    | boolean truth => exact ⟨truth, machine, hr, hm⟩
    | integer | string => cases hm
  · rintro ⟨truth, machine, hr, hm⟩
    exact ⟨.boolean truth, machine, hr, hm⟩

theorem mem_whenNormal {run : Run Flow} {next : Machine → List Moment} :
    moment ∈ run.whenNormal next ↔
      ∃ machine, run = .done .normal machine ∧ moment ∈ next machine := by
  rw [whenNormal, mem_whenDone]
  constructor
  · rintro ⟨flow, machine, hr, hm⟩
    cases flow with
    | normal => exact ⟨machine, hr, hm⟩
    | «return» => cases hm
  · rintro ⟨machine, hr, hm⟩
    exact ⟨.normal, machine, hr, hm⟩

end Run

theorem leads_of_mem_next {moment later : Moment} (h : later ∈ next functions moment) :
    Leads functions moment later := by
  obtain ⟨origin, depth, fuel, task, machine⟩ := moment
  cases task with
  | store => cases h
  | enter name callee values span =>
    cases callee with
    | print => cases h
    | function id =>
      simp only [next, nextOfCall] at h
      split at h
      · cases h
      rename_i function hf
      split at h
      · cases h
      rename_i hd
      rw [List.mem_singleton.1 h]
      exact .enterBody hf hd
  | run last statements =>
    cases statements with
    | nil => cases h
    | cons first rest =>
      cases first with
      | expression expression =>
        rcases List.mem_cons.1 h with rfl | h
        · exact .runExpression
        · obtain ⟨value, machine', hr, hm⟩ := Run.mem_whenDone.1 h
          rw [List.mem_singleton.1 hm]
          exact .runAfterExpression hr
      | block | «variable» | conditional | loop | «return» =>
        rcases List.mem_cons.1 h with rfl | h
        · exact .runStatement (by simp)
        · obtain ⟨flow, machine', hr, hm⟩ := Run.mem_whenDone.1 h
          rw [List.mem_singleton.1 hm]
          exact .runAfterStatement (by simp) hr
  | evaluate expression =>
    cases fuel with
    | zero => cases h
    | succ fuel =>
      cases expression with
      | invalid | literal | «variable» => cases h
      | assignment ref value =>
        rcases List.mem_cons.1 h with rfl | h
        · exact .assignmentValue
        · obtain ⟨result, machine', hr, hm⟩ := Run.mem_whenValue.1 h
          rw [List.mem_singleton.1 hm]
          exact .assignmentStore hr
      | unary op operand span =>
        rw [List.mem_singleton.1 h]
        exact .unaryOperand
      | binary left op right span =>
        rcases List.mem_cons.1 h with rfl | h
        · exact .binaryLeft
        · obtain ⟨value, machine', hr, hm⟩ := Run.mem_whenValue.1 h
          split at hm
          · cases hm
          · rename_i hs
            rw [List.mem_singleton.1 hm]
            exact .binaryRight hr hs
      | call name callee arguments span =>
        rcases List.mem_cons.1 h with rfl | h
        · exact .callArguments
        · obtain ⟨values, machine', hr, hm⟩ := Run.mem_whenDone.1 h
          rw [List.mem_singleton.1 hm]
          exact .callEnter hr
  | evaluateAll span expressions =>
    cases fuel with
    | zero => cases h
    | succ fuel =>
      cases expressions with
      | nil => cases h
      | cons first rest =>
        rcases List.mem_cons.1 h with rfl | h
        · exact .argumentsFirst
        · obtain ⟨value, machine', hr, hm⟩ := Run.mem_whenValue.1 h
          rw [List.mem_singleton.1 hm]
          exact .argumentsRest hr
  | execute statement =>
    cases fuel with
    | zero => cases h
    | succ fuel =>
      cases statement with
      | block statements =>
        rw [List.mem_singleton.1 h]
        exact .block
      | «variable» ref readOnly initializer =>
        rcases List.mem_cons.1 h with rfl | h
        · exact .variableValue
        · obtain ⟨value, machine', hr, hm⟩ := Run.mem_whenValue.1 h
          rw [List.mem_singleton.1 hm]
          exact .variableStore hr
      | conditional condition thenBranch elseBranch =>
        rcases List.mem_cons.1 h with rfl | h
        · exact .condition
        · obtain ⟨truth, machine', hr, hm⟩ := Run.mem_whenTruth.1 h
          cases truth with
          | true =>
            rw [List.mem_singleton.1 hm]
            exact .thenBranch hr
          | false =>
            cases elseBranch with
            | none => cases hm
            | some elseBranch =>
              rw [List.mem_singleton.1 hm]
              exact .elseBranch hr
      | loop condition body =>
        rcases List.mem_cons.1 h with rfl | h
        · exact .loopCondition
        · obtain ⟨truth, machine', hr, hm⟩ := Run.mem_whenTruth.1 h
          cases truth with
          | false => cases hm
          | true =>
            rcases List.mem_cons.1 hm with rfl | hm
            · exact .loopBody hr
            · obtain ⟨machine'', hb, hm⟩ := Run.mem_whenNormal.1 hm
              rw [List.mem_singleton.1 hm]
              exact .loopAgain hr hb
      | «return» value =>
        cases value with
        | none => cases h
        | some value =>
          rw [List.mem_singleton.1 h]
          exact .returnValue
      | expression expression =>
        rw [List.mem_singleton.1 h]
        exact .expression
  | executeAll statements =>
    cases fuel with
    | zero => cases h
    | succ fuel =>
      cases statements with
      | nil => cases h
      | cons first rest =>
        rcases List.mem_cons.1 h with rfl | h
        · exact .statementsFirst
        · obtain ⟨machine', hr, hm⟩ := Run.mem_whenNormal.1 h
          rw [List.mem_singleton.1 hm]
          exact .statementsRest hr

theorem mem_next_of_leads {moment later : Moment} (h : Leads functions moment later) :
    later ∈ next functions moment := by
  cases h with
  | enterBody hf hd => simp [next, nextOfCall, hf, hd]
  | runExpression | runAfterExpression => simp_all [next, nextOfRun, Run.whenDone]
  | @runStatement _ _ _ _ statement =>
    cases statement <;> simp_all [next, nextOfRun]
  | @runAfterStatement _ _ _ _ statement =>
    cases statement <;> simp_all [next, nextOfRun, Run.whenDone]
  | assignmentValue | assignmentStore | unaryOperand | binaryLeft | binaryRight | callArguments
  | callEnter => simp_all [next, nextOfExpression, Run.whenValue, Run.whenDone]
  | argumentsFirst | argumentsRest => simp_all [next, nextOfArguments, Run.whenValue, Run.whenDone]
  | statementsFirst | statementsRest =>
    simp_all [next, nextOfStatements, Run.whenNormal, Run.whenDone]
  | _ =>
    simp_all [next, nextOfStatement, Run.whenTruth, Run.whenValue, Run.whenNormal, Run.whenDone]

/-- What is done on the way is what the moment leads to. -/
theorem mem_next_iff {moment later : Moment} :
    later ∈ next functions moment ↔ Leads functions moment later :=
  ⟨leads_of_mem_next, mem_next_of_leads⟩

/-! ## The order of time -/

/-- What a task may still do without taking fuel. -/
def Task.rank : Task → Nat
  | .run _ statements => statements.length + 1
  | .enter _ _ _ _ => 1
  | _ => 0

/-- How much a moment may still do. -/
def Moment.size (moment : Moment) : Nat := 2 * moment.fuel + moment.task.rank

/-- On the way the fuel gets less, or there is less to do with it. -/
theorem size_of_leads {moment later : Moment} (h : Leads functions moment later) :
    later.size < moment.size := by
  cases h <;> simp [Moment.size, Task.rank] <;> omega

end

section
variable (functions : FunctionMap)

/-- The moment with all that it leads to in the end, in the order in which it happens. -/
def chronicle (moment : Moment) : List Moment :=
  moment :: (next functions moment).attach.flatMap fun later => chronicle later.1
termination_by moment.size
decreasing_by exact size_of_leads (leads_of_mem_next later.2)

variable {functions}

theorem chronicle_eq (moment : Moment) :
    chronicle functions moment =
      moment :: (next functions moment).flatMap (chronicle functions) := by
  rw [chronicle, List.flatMap_subtype (fun _ _ => rfl), List.unattach_attach]

/-- What holds of a moment if it holds of all that it leads to, holds of all moments. -/
theorem leads_induction (functions : FunctionMap) {motive : Moment → Prop}
    (step : ∀ moment, (∀ later ∈ next functions moment, motive later) → motive moment)
    (moment : Moment) : motive moment :=
  step moment fun later _ => leads_induction functions step later
termination_by moment.size
decreasing_by exact size_of_leads (leads_of_mem_next ‹_›)

/-- The chronicle has the moments that are reached. -/
theorem mem_chronicle_iff {start moment : Moment} :
    moment ∈ chronicle functions start ↔ Reached functions start moment := by
  constructor
  · induction start using leads_induction functions with
    | step start ih =>
      rw [chronicle_eq, List.mem_cons, List.mem_flatMap]
      rintro (rfl | ⟨later, hl, hm⟩)
      · exact .refl
      · exact .head (leads_of_mem_next hl) (ih later hl hm)
  · intro h
    induction h using Relation.ReflTransGen.head_induction_on with
    | refl =>
      rw [chronicle_eq]
      exact List.mem_cons_self
    | head hl _ ih =>
      rw [chronicle_eq, List.mem_cons, List.mem_flatMap]
      exact .inr ⟨_, mem_next_of_leads hl, ih⟩

/-! ## Invariants of a run -/

/-- One moment comes after another. What has happened so far is handed on from each to the next, and
the last hands it to `post`. -/
def Handed (before : List Moment → Moment → Prop)
    (after : List Moment → Moment → List Moment → Prop) (past : List Moment) :
    List Moment → (List Moment → Prop) → Prop
  | [], post => post past
  | first :: rest, post =>
    before past first ∧ ∀ past', after past first past' → Handed before after past' rest post

variable {before : List Moment → Moment → Prop} {after : List Moment → Moment → List Moment → Prop}

theorem keeps_of_handed {moments : List Moment}
    (ih : ∀ moment ∈ moments, ∀ past, before past moment →
      after past moment (past ++ chronicle functions moment) ∧
        ∀ front found back, chronicle functions moment = front ++ found :: back →
          before (past ++ front) found)
    {past : List Moment} {post : List Moment → Prop}
    (h : Handed before after past moments post) :
    post (past ++ moments.flatMap (chronicle functions)) ∧
      ∀ front found back, moments.flatMap (chronicle functions) = front ++ found :: back →
        before (past ++ front) found := by
  induction moments generalizing past with
  | nil =>
    refine ⟨by simpa [Handed] using h, fun front found back heq => ?_⟩
    simp at heq
  | cons first rest ihRest =>
    obtain ⟨hb, hrest⟩ := h
    obtain ⟨ha, hsplit⟩ := ih first List.mem_cons_self past hb
    obtain ⟨hpost, hlater⟩ :=
      ihRest (fun moment hm => ih moment (List.mem_cons_of_mem _ hm)) (hrest _ ha)
    rw [List.flatMap_cons]
    refine ⟨by rw [← List.append_assoc]; exact hpost, fun front found back heq => ?_⟩
    rcases List.append_eq_append_iff.1 heq with ⟨front', rfl, hrest'⟩ | ⟨more, hfirst, hmore⟩
    · rw [← List.append_assoc]
      exact hlater front' found back hrest'
    · cases more with
      | nil =>
        rw [List.append_nil] at hfirst
        rw [← hfirst]
        simpa using hlater [] found back hmore.symm
      | cons head tail =>
        obtain ⟨rfl, -⟩ := List.cons.inj hmore
        exact hsplit front _ tail hfirst

/-- An invariant that every moment hands on holds throughout the chronicle. -/
theorem chronicle_keeps
    (step : ∀ past moment, before past moment →
      Handed before after (past ++ [moment]) (next functions moment) (after past moment))
    (moment : Moment) : ∀ past, before past moment →
      after past moment (past ++ chronicle functions moment) ∧
        ∀ front found back, chronicle functions moment = front ++ found :: back →
          before (past ++ front) found := by
  induction moment using leads_induction functions with
  | step moment ih =>
    intro past hb
    obtain ⟨hpost, hsplit⟩ := keeps_of_handed ih (step past moment hb)
    rw [chronicle_eq]
    refine ⟨by simpa using hpost, fun front found back heq => ?_⟩
    cases front with
    | nil =>
      obtain ⟨rfl, -⟩ := List.cons.inj heq
      simpa using hb
    | cons head front =>
      obtain ⟨rfl, hlater⟩ := List.cons.inj heq
      simpa using hsplit front found back hlater

end

end ReplayShell.Program
