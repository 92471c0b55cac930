import Mathlib.Data.List.Induction
import ReplayShell.Proofs.Assignment
import ReplayShell.Proofs.Chronicle
import ReplayShell.Proofs.FramePlaces

/-!
# What a read of a local variable gives

A frame is made when a function is called, and its places are unset. Blocks share it: entering a
block does not unset the places of its variables.

* `lastStored` is what was last stored in a place, of all that has happened: since the frame was
  made, or since the block was entered that declares the place.
* `Relays` says that moments come one after another on one frame; `relays_next`: so does what is
  done on the way to anything but a call.
* `handed_next` is the step of the invariant: the frame has what was last stored since it was made,
  and what the code relies on was stored since its block was entered.
* `reads_lastStored`: a read gives what was last stored since the frame was made. For a variable
  whose declaration does not stand bare that is what was stored since its block was entered.
-/
namespace ReplayShell

namespace Program

/-! ## What was last stored -/

/-- What is known of a place of the frame at a depth, after one more moment. If `perBlock` is set, a
block unsets what it declares. -/
def Moment.noted (perBlock : Bool) (depth index : Nat) (known : Option Value) (moment : Moment) :
    Option Value :=
  match moment.task with
  | .store (.local place) value =>
    if moment.depth = depth ∧ place = index then some value else known
  | .enter _ (.function _) values _ => if moment.depth + 1 = depth then values[index]? else known
  | .execute (.block statements) =>
    if perBlock ∧ moment.depth = depth ∧ index ∈ Statement.allDeclared statements then none
    else known
  | _ => known

/-- What was last stored in a place of the frame at a depth: since the frame was made, or, if
`perBlock` is set, since the block was entered that declares the place. -/
def lastStored (perBlock : Bool) (depth index : Nat) (past : List Moment) : Option Value :=
  past.foldl (Moment.noted perBlock depth index) none

variable {perBlock : Bool} {depth index : Nat} {past past' : List Moment} {moment : Moment}

theorem lastStored_concat :
    lastStored perBlock depth index (past ++ [moment]) =
      moment.noted perBlock depth index (lastStored perBlock depth index past) := by
  simp [lastStored, List.foldl_append]

/-- What happens deeper down does not touch the frame. -/
theorem Moment.noted_of_lt (h : depth < moment.depth) (known : Option Value) :
    moment.noted perBlock depth index known = known := by
  unfold noted
  split
  · exact if_neg fun hd => Nat.ne_of_gt h hd.1
  · exact if_neg (by omega)
  · exact if_neg fun hd => Nat.ne_of_gt h hd.2.1
  · rfl

/-- What was stored since the block was entered is the last that was stored. -/
theorem lastStored_of_perBlock {value : Value}
    (h : lastStored true depth index past = some value) :
    lastStored false depth index past = some value := by
  have same : lastStored true depth index past = none ∨
      lastStored true depth index past = lastStored false depth index past := by
    clear h
    induction past using List.reverseRecOn with
    | nil => exact .inl rfl
    | append_singleton past moment ih =>
      rw [lastStored_concat, lastStored_concat]
      unfold Moment.noted
      split
      · split
        · exact .inr rfl
        · exact ih
      · split
        · exact .inr rfl
        · exact ih
      · split
        · exact .inl rfl
        · simpa using ih
      · exact ih
  rcases same with hn | heq
  · rw [hn] at h
    cases h
  · rw [← heq, h]

/-! ## How moments end -/

section
variable (functions : FunctionMap)

/-- The machine, if the computation is done. -/
def Run.machine? {α : Type} : Run α → Option Machine
  | .done _ machine => some machine
  | .failed _ _ | .unfinished => none

/-- A call with the values of its arguments. -/
def enter (fuel depth : Nat) (name : String) (callee : Callee) (values : List Value) (span : Span)
    (machine : Machine) : Run (Option Value) :=
  match callee with
  | .print => .done none (values.foldl Machine.print machine)
  | .function id =>
    match functions[id]? with
    | none => .failed ⟨span, .functionWithoutBody name⟩ machine
    | some function =>
      if maxCallDepth ≤ depth then .failed ⟨span, .callDepthExceeded⟩ machine
      else
        (executeAll functions fuel (depth + 1) function.body
          { machine with frame := callFrame function values }).leave machine.frame

/-- The machine when what is to be done is done. -/
def Moment.ends (moment : Moment) : Option Machine :=
  match moment with
  | ⟨_, depth, fuel, task, machine⟩ =>
    match task with
    | .evaluate expression => (evaluate functions fuel depth expression machine).machine?
    | .evaluateAll span expressions =>
      (evaluateAll functions fuel depth span expressions machine).machine?
    | .enter name callee values span =>
      (enter functions fuel depth name callee values span machine).machine?
    | .store slot value => some (machine.store slot value)
    | .execute statement => (execute functions fuel depth statement machine).machine?
    | .executeAll statements => (executeAll functions fuel depth statements machine).machine?
    | .run last statements => (runStatements functions fuel last statements machine).machine?

end

theorem evaluate_call (functions : FunctionMap) (fuel depth : Nat) (name : String) (callee : Callee)
    (arguments : List Expression) (span : Span) (machine : Machine) :
    evaluate functions (fuel + 1) depth (.call name callee arguments span) machine =
      (evaluateAll functions fuel depth span arguments machine).andThen fun values machine =>
        enter functions fuel depth name callee values span machine := rfl

/-! ## Moments one after another -/

/-- What a task is assured of, by the code that it runs. -/
def Moment.Assured (loose : Option FunctionId → Nat → Prop) (assigned : Nat → Prop)
    (moment : Moment) : Prop :=
  match moment.task with
  | .evaluate expression => Program.Assured (loose moment.origin) assigned (.expression expression)
  | .evaluateAll _ expressions =>
    Program.Assured (loose moment.origin) assigned (.expressions expressions)
  | .execute statement => Program.Assured (loose moment.origin) assigned (.statement statement)
  | .executeAll statements =>
    Program.Assured (loose moment.origin) assigned (.statements statements)
  | .run _ statements =>
    moment.depth = 0 ∧ Program.Assured (loose moment.origin) assigned (.statements statements)
  | .enter _ _ _ _ | .store _ _ => True

/-- The places that a task has assigned for sure when it is done. -/
def Task.assigns : Task → List Nat
  | .store slot _ => slot.places
  | .execute statement => statement.assigns
  | _ => []

section
variable (functions : FunctionMap) (loose : Option FunctionId → Nat → Prop)

/-- The moments come one after another at the depth of `parent`, in code of the same origin, each on
the machine that the one before it leaves, and each is assured of places that are assigned by then.
The last one leaves the machine that `parent` ends with, and by then all of `final` is assigned. -/
def Relays (parent : Moment) (final assigned : Nat → Prop) (machine : Machine) :
    List Moment → Prop
  | [] => ∀ machine', parent.ends functions = some machine' →
      machine' = machine ∧ ∀ index, final index → assigned index
  | moment :: rest =>
    moment.origin = parent.origin ∧ moment.depth = parent.depth ∧ moment.machine = machine ∧
      moment.Assured loose assigned ∧
      (moment.ends functions = none → rest = [] ∧ parent.ends functions = none) ∧
      ∀ machine', moment.ends functions = some machine' → ∃ assigned',
        (∀ index, assigned' index → assigned index ∨ index ∈ moment.task.assigns) ∧
          Relays parent final assigned' machine' rest

variable {functions loose} {α β : Type} {parent child : Moment} {final assigned : Nat → Prop}
  {machine : Machine}

/-- Nothing is left to do. -/
theorem relays_nil (h : ∀ machine', parent.ends functions = some machine' → machine' = machine)
    (hf : ∀ index, final index → assigned index) :
    Relays functions loose parent final assigned machine [] :=
  fun machine' he => ⟨h machine' he, hf⟩

/-- The machine is the one that is left. -/
theorem relays_ended (h : parent.ends functions = some machine)
    (hf : ∀ index, final index → assigned index) :
    Relays functions loose parent final assigned machine [] :=
  relays_nil (fun _ he => Option.some.inj (he.symm.trans h)) hf

/-- A computation, and then what there is to do when it is done. -/
theorem relays_whenDone {run : Run α} {goOn : α → Machine → List Moment}
    {andThen : α → Machine → Run β} (ho : child.origin = parent.origin)
    (hd : child.depth = parent.depth) (hm : child.machine = machine)
    (ha : child.Assured loose assigned) (hc : child.ends functions = run.machine?)
    (hp : parent.ends functions = (run.andThen andThen).machine?)
    (h : ∀ value machine', parent.ends functions = (andThen value machine').machine? →
      ∃ assigned', (∀ index, assigned' index → assigned index ∨ index ∈ child.task.assigns) ∧
        Relays functions loose parent final assigned' machine' (goOn value machine')) :
    Relays functions loose parent final assigned machine (child :: run.whenDone goOn) := by
  refine ⟨ho, hd, hm, ha, fun hn => ?_, fun machine' he => ?_⟩
  · cases run with
    | done => rw [hc] at hn; cases hn
    | failed | unfinished => exact ⟨rfl, hp⟩
  · cases run with
    | done value machine₁ =>
      rw [hc] at he
      obtain rfl : machine₁ = machine' := Option.some.inj he
      exact h value machine₁ hp
    | failed | unfinished => rw [hc] at he; cases he

/-- A computation with a value, and then what there is to do with it. -/
theorem relays_whenValue {run : Run (Option Value)} {goOn : Value → Machine → List Moment}
    {expression : Expression} {fallback : Span} {andThen : Value → Machine → Run β}
    (ho : child.origin = parent.origin) (hd : child.depth = parent.depth)
    (hm : child.machine = machine) (ha : child.Assured loose assigned)
    (hc : child.ends functions = run.machine?)
    (hp : parent.ends functions = (run.withValue expression fallback andThen).machine?)
    (h : ∀ value machine', parent.ends functions = (andThen value machine').machine? →
      Relays functions loose parent final assigned machine' (goOn value machine')) :
    Relays functions loose parent final assigned machine (child :: run.whenValue goOn) := by
  refine relays_whenDone ho hd hm ha hc hp fun result machine' he =>
    ⟨assigned, fun _ hi => .inl hi, ?_⟩
  cases result with
  | some value => exact h value machine' he
  | none => exact fun machine'' hs => by rw [he] at hs; cases hs

/-- A condition, and then what there is to do with its truth value. -/
theorem relays_whenTruth {run : Run (Option Value)} {goOn : Bool → Machine → List Moment}
    {condition : Expression} {andThen : Bool → Machine → Run β}
    (ho : child.origin = parent.origin) (hd : child.depth = parent.depth)
    (hm : child.machine = machine) (ha : child.Assured loose assigned)
    (hc : child.ends functions = run.machine?)
    (hp : parent.ends functions = (run.withCondition condition andThen).machine?)
    (h : ∀ truth machine', parent.ends functions = (andThen truth machine').machine? →
      Relays functions loose parent final assigned machine' (goOn truth machine')) :
    Relays functions loose parent final assigned machine (child :: run.whenTruth goOn) := by
  refine relays_whenValue ho hd hm ha hc hp fun value machine' he => ?_
  cases value with
  | boolean truth => exact h truth machine' he
  | integer | string => exact fun machine'' hs => by rw [he] at hs; cases hs

/-- A last computation; after it nothing is left to do. -/
theorem relays_last {run : Run α} {andThen : α → Machine → Run β}
    (ho : child.origin = parent.origin) (hd : child.depth = parent.depth)
    (hm : child.machine = machine) (ha : child.Assured loose assigned)
    (hc : child.ends functions = run.machine?)
    (hp : parent.ends functions = (run.andThen andThen).machine?)
    (hn : ∀ value machine' machine'', (andThen value machine').machine? = some machine'' →
      machine'' = machine')
    (hf : ∀ index, final index → assigned index ∨ index ∈ child.task.assigns) :
    Relays functions loose parent final assigned machine [child] := by
  have nothing : run.whenDone (fun _ _ => []) = [] := by cases run <;> rfl
  rw [← nothing]
  exact relays_whenDone ho hd hm ha hc hp fun value machine' he =>
    ⟨_, fun _ hi => hi, relays_nil (fun machine'' hs => hn value machine' machine'' (he ▸ hs)) hf⟩

/-- A last computation that gives the result. -/
theorem relays_result (ho : child.origin = parent.origin) (hd : child.depth = parent.depth)
    (hm : child.machine = machine) (ha : child.Assured loose assigned)
    (hp : parent.ends functions = child.ends functions)
    (hf : ∀ index, final index → assigned index ∨ index ∈ child.task.assigns) :
    Relays functions loose parent final assigned machine [child] :=
  ⟨ho, hd, hm, ha, fun hn => ⟨rfl, hp.trans hn⟩, fun _ he =>
    ⟨_, fun _ hi => hi, relays_ended (hp.trans he) hf⟩⟩

theorem machine?_unaryResult {op : UnaryOp} {operand : Value} {span : Span} {machine' : Machine}
    (h : (unaryResult op operand span machine).machine? = some machine') : machine' = machine := by
  unfold unaryResult at h
  split at h <;> cases h
  rfl

theorem machine?_binaryResult {op : BinaryOp} {left right : Value} {span : Span}
    {machine' : Machine} (h : (binaryResult op left right span machine).machine? = some machine') :
    machine' = machine := by
  unfold binaryResult at h
  split at h <;> cases h
  rfl

section
variable {origin : Option FunctionId} {depth fuel : Nat}

theorem relays_expression {expression : Expression}
    (h : Program.Assured (loose origin) assigned (.expression expression))
    (hf : ∀ index, final index → assigned index) :
    Relays functions loose ⟨origin, depth, fuel + 1, .evaluate expression, machine⟩ final assigned
      machine (nextOfExpression functions origin depth fuel machine expression) := by
  cases h with
  | invalid => exact relays_nil (fun _ he => by cases he) hf
  | literal => exact relays_ended rfl hf
  | @«variable» _ ref span =>
    refine relays_nil (fun machine' he => ?_) hf
    simp only [Moment.ends, evaluate] at he
    split at he <;> cases he
    rfl
  | assignment ref hv =>
    refine relays_whenValue rfl rfl rfl hv rfl rfl fun value machine' he => ?_
    exact relays_result rfl rfl rfl trivial he fun index hi => .inl (hf index hi)
  | unary op span ho =>
    refine relays_last rfl rfl rfl ho rfl rfl (fun result machine' machine'' he => ?_)
      fun index hi => .inl (hf index hi)
    cases result with
    | some value => exact machine?_unaryResult he
    | none => cases he
  | binary op span hl hr =>
    refine relays_whenValue rfl rfl rfl hl rfl rfl fun value machine' he => ?_
    cases hs : op.shortCircuit? value with
    | some result =>
      simp only [hs] at he ⊢
      exact relays_ended he hf
    | none =>
      simp only [hs] at he ⊢
      refine relays_last rfl rfl rfl hr rfl he (fun result machine' machine'' he => ?_)
        fun index hi => .inl (hf index hi)
      cases result with
      | some value => exact machine?_binaryResult he
      | none => cases he
  | call name callee span ha =>
    refine relays_whenDone rfl rfl rfl ha rfl (congrArg Run.machine? (evaluate_call ..))
      fun values machine' he => ⟨assigned, fun _ hi => .inl hi, ?_⟩
    exact relays_result rfl rfl rfl trivial he fun index hi => .inl (hf index hi)

theorem relays_arguments {span : Span} {expressions : List Expression}
    (h : Program.Assured (loose origin) assigned (.expressions expressions))
    (hf : ∀ index, final index → assigned index) :
    Relays functions loose ⟨origin, depth, fuel + 1, .evaluateAll span expressions, machine⟩ final
      assigned machine (nextOfArguments functions origin depth fuel machine span expressions) := by
  cases h with
  | noExpressions => exact relays_ended rfl hf
  | expressions hfirst hrest =>
    refine relays_whenValue rfl rfl rfl hfirst rfl rfl fun value machine' he => ?_
    refine relays_last rfl rfl rfl hrest rfl he (fun values machine' machine'' he => ?_)
      fun index hi => .inl (hf index hi)
    cases he
    rfl

theorem relays_statement {statement : Statement}
    (h : Program.Assured (loose origin) assigned (.statement statement))
    (hf : ∀ index, final index → assigned index ∨ index ∈ statement.assigns) :
    Relays functions loose ⟨origin, depth, fuel + 1, .execute statement, machine⟩ final assigned
      machine (nextOfStatement functions origin depth fuel machine statement) := by
  have plain : statement.assigns = [] → ∀ index, final index → assigned index := by
    intro hn index hi
    refine (hf index hi).resolve_right fun hs => ?_
    rw [hn] at hs
    exact List.not_mem_nil hs
  cases h with
  | block _ hb => exact relays_result rfl rfl rfl hb rfl fun index hi => .inl (plain rfl index hi)
  | declaration ref readOnly hv =>
    refine relays_whenValue rfl rfl rfl hv rfl rfl fun value machine' he => ?_
    exact relays_result rfl rfl rfl trivial he hf
  | @conditional _ condition thenBranch elseBranch hc ht he =>
    refine relays_whenTruth rfl rfl rfl hc rfl rfl fun truth machine' hp => ?_
    cases truth with
    | true =>
      exact relays_result rfl rfl rfl ht hp fun index hi => .inl (plain rfl index hi)
    | false =>
      cases elseBranch with
      | none =>
        exact relays_ended hp (plain rfl)
      | some statement =>
        exact relays_result rfl rfl rfl (he statement rfl) hp fun index hi =>
          .inl (plain rfl index hi)
  | @loop _ condition body hc hb =>
    refine relays_whenTruth rfl rfl rfl hc rfl rfl fun truth machine' hp => ?_
    cases truth with
    | false =>
      exact relays_ended hp (plain rfl)
    | true =>
      -- The body may be run any number of times: what it assigns is not relied on.
      refine relays_whenDone rfl rfl rfl hb rfl hp fun flow machine'' hp =>
        ⟨assigned, fun _ hi => .inl hi, ?_⟩
      cases flow with
      | normal =>
        exact relays_result rfl rfl rfl (.loop hc hb) hp fun index hi => .inl (plain rfl index hi)
      | «return» value =>
        exact relays_ended hp (plain rfl)
  | returnNothing => exact relays_ended rfl (plain rfl)
  | «return» hv =>
    refine relays_last rfl rfl rfl hv rfl rfl (fun _ _ _ he => ?_) fun index hi =>
      .inl (plain rfl index hi)
    cases he
    rfl
  | evaluation hv =>
    refine relays_last rfl rfl rfl hv rfl rfl (fun _ _ _ he => ?_) fun index hi =>
      .inl (plain rfl index hi)
    cases he
    rfl

theorem relays_statements {statements : List Statement}
    (h : Program.Assured (loose origin) assigned (.statements statements))
    (hf : ∀ index, final index → assigned index) :
    Relays functions loose ⟨origin, depth, fuel + 1, .executeAll statements, machine⟩ final assigned
      machine (nextOfStatements functions origin depth fuel machine statements) := by
  cases h with
  | noStatements => exact relays_ended rfl hf
  | @statements _ first rest hfirst hrest =>
    refine relays_whenDone rfl rfl rfl hfirst rfl rfl fun flow machine' hp =>
      ⟨_, fun _ hi => hi, ?_⟩
    cases flow with
    | normal => exact relays_result rfl rfl rfl hrest hp fun index hi => .inl (.inl (hf index hi))
    | «return» value =>
      exact relays_ended hp fun index hi => .inl (hf index hi)

theorem relays_run {last : Option Value} {statements : List Statement}
    (h : Program.Assured (loose origin) assigned (.statements statements))
    (hf : ∀ index, final index → assigned index) :
    Relays functions loose ⟨origin, 0, fuel, .run last statements, machine⟩ final assigned machine
      (nextOfRun functions origin 0 fuel machine last statements) := by
  cases h with
  | noStatements => exact relays_ended rfl hf
  | @statements _ first rest hfirst hrest =>
    cases first with
    | expression expression =>
      cases hfirst with
      | evaluation he =>
        refine relays_whenDone rfl rfl rfl he rfl rfl fun value machine' hp =>
          ⟨_, fun _ hi => hi, ?_⟩
        exact relays_result rfl rfl rfl ⟨rfl, hrest⟩ hp fun index hi => .inl (.inl (hf index hi))
    | block | «variable» | conditional | loop | «return» =>
      refine relays_whenDone rfl rfl rfl hfirst rfl rfl fun flow machine' hp =>
        ⟨_, fun _ hi => hi, ?_⟩
      exact relays_result rfl rfl rfl ⟨rfl, hrest⟩ hp fun index hi => .inl (.inl (hf index hi))

end

/-- Whether a moment changes the frame itself, or changes to another one. -/
def Task.IsFrameChange : Task → Prop
  | .store _ _ | .enter _ _ _ _ => True
  | _ => False

/-- What is done on the way to anything but a store and a call comes one after another. -/
theorem relays_next {moment : Moment} (hc : ¬moment.task.IsFrameChange)
    (h : moment.Assured loose assigned) :
    Relays functions loose moment (fun index => assigned index ∨ index ∈ moment.task.assigns)
      assigned moment.machine (next functions moment) := by
  obtain ⟨origin, depth, fuel, task, machine⟩ := moment
  have nothing : ∀ index, assigned index ∨ index ∈ ([] : List Nat) → assigned index :=
    fun index hi => hi.resolve_right List.not_mem_nil
  cases task with
  | store | enter => exact absurd trivial hc
  | run last statements =>
    obtain ⟨rfl, h⟩ := h
    exact relays_run h nothing
  | evaluate expression =>
    cases fuel with
    | zero => exact fun _ he => by cases he
    | succ fuel => exact relays_expression h nothing
  | evaluateAll span expressions =>
    cases fuel with
    | zero => exact fun _ he => by cases he
    | succ fuel => exact relays_arguments h nothing
  | execute statement =>
    cases fuel with
    | zero => exact fun _ he => by cases he
    | succ fuel => exact relays_statement h fun _ hi => hi
  | executeAll statements =>
    cases fuel with
    | zero => exact fun _ he => by cases he
    | succ fuel => exact relays_statements h nothing

/-! ## The invariant -/

/-- The frame has what was last stored since it was made. -/
def Tracks (depth : Nat) (machine : Machine) (past : List Moment) : Prop :=
  ∀ index, machine.load (.local index) = lastStored false depth index past

/-- What is assigned was stored since its block was entered. -/
def Holds (depth : Nat) (assigned : Nat → Prop) (past : List Moment) : Prop :=
  ∀ index, assigned index → ∃ value, lastStored true depth index past = some value

/-- The frames further out are as they were. -/
def Spares (depth : Nat) (past past' : List Moment) : Prop :=
  ∀ perBlock outer index, outer < depth →
    lastStored perBlock outer index past' = lastStored perBlock outer index past

variable (functions loose) in
/-- Before a moment, its frame has what was stored there, and its code is assured of what is
assigned. -/
structure Before (start : Moment) (past : List Moment) (moment : Moment) : Prop where
  reached : Reached functions start moment
  tracks : Tracks moment.depth moment.machine past
  assured : ∃ assigned, moment.Assured loose assigned ∧ Holds moment.depth assigned past

variable (functions loose) in
/-- After a moment, if it is done, so has the frame that it leaves, and what was assigned is still
assigned. -/
structure After (past : List Moment) (moment : Moment) (past' : List Moment) : Prop where
  spares : Spares moment.depth past past'
  tracks : ∀ machine, moment.ends functions = some machine → Tracks moment.depth machine past'
  holds : ∀ machine, moment.ends functions = some machine → ∀ assigned,
    moment.Assured loose assigned → Holds moment.depth assigned past →
      Holds moment.depth (fun index => assigned index ∨ index ∈ moment.task.assigns) past'

theorem Spares.refl (depth : Nat) (past : List Moment) : Spares depth past past :=
  fun _ _ _ _ => rfl

theorem Spares.trans {depth : Nat} {past past' past'' : List Moment} (h : Spares depth past past')
    (h' : Spares depth past' past'') : Spares depth past past'' :=
  fun perBlock outer index ho => (h' perBlock outer index ho).trans (h perBlock outer index ho)

theorem spares_concat (past : List Moment) (moment : Moment) :
    Spares moment.depth past (past ++ [moment]) := by
  intro perBlock outer index ho
  rw [lastStored_concat, Moment.noted_of_lt ho]

/-- Moments one after another hand the invariant on. -/
theorem handed_of_relays {start parent : Moment} {moments : List Moment} {past : List Moment}
    {post : List Moment → Prop} (hreached : ∀ moment ∈ moments, Reached functions start moment)
    (h : Relays functions loose parent final assigned machine moments)
    (tracks : Tracks parent.depth machine past) (holds : Holds parent.depth assigned past)
    (hpost : ∀ past', Spares parent.depth past past' →
      (∀ machine', parent.ends functions = some machine' → Tracks parent.depth machine' past') →
      (∀ machine', parent.ends functions = some machine' → ∀ assigned final,
        Relays functions loose parent final assigned machine moments →
          Holds parent.depth assigned past → Holds parent.depth final past') → post past') :
    Handed (Before functions loose start) (After functions loose) past moments post := by
  induction moments generalizing machine assigned past with
  | nil =>
    refine hpost past (.refl _ _) (fun machine' he => ?_)
      fun machine' he assigned final h' holds' index hi => holds' index ((h' machine' he).2 index hi)
    rw [(h machine' he).1]
    exact tracks
  | cons first rest ih =>
    obtain ⟨ho, hd, rfl, ha, hnone, hsome⟩ := h
    refine ⟨⟨hreached first List.mem_cons_self, hd ▸ tracks, assigned, ha, hd ▸ holds⟩, ?_⟩
    intro past' after
    have spares : Spares parent.depth past past' := hd ▸ after.spares
    cases he : first.ends functions with
    | none =>
      obtain ⟨rfl, hp⟩ := hnone he
      exact hpost past' spares (fun _ hs => by rw [hp] at hs; cases hs) fun _ hs => by
        rw [hp] at hs
        cases hs
    | some machine' =>
      obtain ⟨assigned', hle, hrest⟩ := hsome machine' he
      have holds' := after.holds machine' he assigned ha (hd ▸ holds)
      refine ih (fun moment hm => hreached moment (List.mem_cons_of_mem _ hm)) hrest
        (hd ▸ after.tracks machine' he) (fun index hi => hd ▸ holds' index (hle index hi)) ?_
      intro past'' spares' tracks' holdsLast
      refine hpost past'' (spares.trans spares') tracks'
        fun machine'' hs assigned final h' hholds => ?_
      obtain ⟨-, -, -, ha', -, hsome'⟩ := h'
      obtain ⟨assigned'', hle', hrest'⟩ := hsome' machine' he
      have after' := after.holds machine' he assigned ha' (hd ▸ hholds)
      exact holdsLast machine'' hs assigned'' final hrest' fun index hi =>
        hd ▸ after' index (hle' index hi)

theorem noted_of_not_change {moment : Moment} (hc : ¬moment.task.IsFrameChange) (depth index : Nat)
    (known : Option Value) : moment.noted false depth index known = known := by
  unfold Moment.noted
  split
  · rename_i ht
    exact absurd (by rw [ht]; trivial) hc
  · rename_i ht
    exact absurd (by rw [ht]; trivial) hc
  · exact if_neg fun h => Bool.false_ne_true h.1
  · rfl

/-- Entering a block unsets nothing that its code relies on. -/
theorem holds_concat {moment : Moment} {past : List Moment} (hc : ¬moment.task.IsFrameChange)
    (ha : moment.Assured loose assigned) (h : Holds moment.depth assigned past) :
    Holds moment.depth assigned (past ++ [moment]) := by
  intro index hi
  obtain ⟨value, hv⟩ := h index hi
  refine ⟨value, ?_⟩
  rw [lastStored_concat, hv]
  unfold Moment.noted
  split
  · rename_i ht
    exact absurd (by rw [ht]; trivial) hc
  · rename_i ht
    exact absurd (by rw [ht]; trivial) hc
  · rename_i statements ht
    simp only [Moment.Assured, ht] at ha
    cases ha with
    | block hd _ => exact if_neg fun hmem => hd index hmem.2.2 hi
  · rfl

theorem load_store (machine : Machine) (slot : Slot) (value : Value) (index : Nat) :
    (machine.store slot value).load (.local index) =
      if index ∈ slot.places then some value else machine.load (.local index) := by
  cases slot with
  | global id => exact (if_neg List.not_mem_nil).symm
  | «local» place =>
    simp only [Machine.store, Machine.load, Machine.setLocal, Slot.places, List.mem_singleton]
    by_cases hi : index = place
    · subst hi
      have hlt : index < machine.frame.length + (index + 1 - machine.frame.length) := by omega
      simp [hlt]
    · rw [if_neg hi, List.getElem?_set_ne (Ne.symm hi), List.getElem?_append]
      by_cases hl : index < machine.frame.length
      · rw [if_pos hl]
      · rw [if_neg hl, List.getElem?_replicate, List.getElem?_eq_none (Nat.le_of_not_lt hl)]
        split <;> rfl

theorem noted_store {moment : Moment} {slot : Slot} {value : Value}
    (ht : moment.task = .store slot value) (perBlock : Bool) (index : Nat)
    (known : Option Value) :
    moment.noted perBlock moment.depth index known =
      if index ∈ slot.places then some value else known := by
  cases slot with
  | global id =>
    rw [Moment.noted, ht]
    exact (if_neg List.not_mem_nil).symm
  | «local» place =>
    rw [Moment.noted, ht]
    simp only [true_and, Slot.places, List.mem_singleton, eq_comm]

/-- A frame that has just been made has the arguments. -/
theorem load_callFrame (machine : Machine) (function : Function) (values : List Value)
    (index : Nat) :
    Machine.load { machine with frame := callFrame function values } (.local index) =
      values[index]? := by
  simp only [Machine.load, callFrame]
  rw [List.getElem?_append]
  by_cases hi : index < values.length
  · simp [hi]
  · simp only [List.length_map, hi, if_false, List.getElem?_replicate]
    rw [List.getElem?_eq_none (Nat.le_of_not_lt hi)]
    split <;> rfl

variable {start : Moment} {past : List Moment} {moment : Moment}

/-- A store keeps the invariant. -/
theorem after_store {slot : Slot} {value : Value} (ht : moment.task = .store slot value)
    (hb : Before functions loose start past moment) :
    After functions loose past moment (past ++ [moment]) where
  spares := spares_concat past moment
  tracks := by
    intro machine he index
    have hends : moment.ends functions = some (moment.machine.store slot value) := by
      obtain ⟨_, _, _, _, _⟩ := moment
      cases ht
      rfl
    rw [hends] at he
    cases he
    rw [load_store, hb.tracks index, lastStored_concat, noted_store ht]
  holds := by
    intro _ _ assigned _ h index hi
    rw [lastStored_concat, noted_store ht]
    simp only [ht, Task.assigns] at hi
    by_cases hs : index ∈ slot.places
    · exact ⟨value, if_pos hs⟩
    · obtain ⟨known, hk⟩ := h index (hi.resolve_right hs)
      exact ⟨known, by rw [if_neg hs, hk]⟩

/-- A call leaves the frame of the caller as it was, whatever happens in it. -/
theorem after_enter {past' : List Moment} {name : String} {callee : Callee} {values : List Value}
    {span : Span} (ht : moment.task = .enter name callee values span)
    (hb : Before functions loose start past moment)
    (spares : Spares (moment.depth + 1) (past ++ [moment]) past')
    (hframe : ∀ machine, moment.ends functions = some machine →
      machine.frame = moment.machine.frame) : After functions loose past moment past' := by
  have same : ∀ perBlock outer index, outer ≤ moment.depth →
      lastStored perBlock outer index past' = lastStored perBlock outer index past := by
    intro perBlock outer index ho
    rw [spares perBlock outer index (by omega), lastStored_concat, Moment.noted, ht]
    cases callee with
    | print => rfl
    | function => exact if_neg (by omega)
  refine ⟨fun perBlock outer index ho => same perBlock outer index (Nat.le_of_lt ho), ?_, ?_⟩
  · intro machine he index
    rw [same false _ index (Nat.le_refl _), ← hb.tracks index]
    simp only [Machine.load, hframe machine he]
  · intro _ _ assigned _ h index hi
    rw [ht] at hi
    obtain ⟨value, hv⟩ := h index (hi.resolve_right List.not_mem_nil)
    exact ⟨value, by rw [same true _ index (Nat.le_refl _), hv]⟩

/-- A call keeps the invariant; in the new frame the parameters are assigned. -/
theorem handed_enter
    (bodies : ∀ (id : FunctionId) (function : Function), functions[id]? = some function →
      Program.Assured (loose (some id)) (· < function.symbol.parameters.length)
        (.statements function.body))
    {name : String} {callee : Callee} {values : List Value} {span : Span}
    (ht : moment.task = .enter name callee values span) (safe : moment.Safe functions)
    (hb : Before functions loose start past moment) :
    Handed (Before functions loose start) (After functions loose) (past ++ [moment])
      (next functions moment) (After functions loose past moment) := by
  obtain ⟨origin, depth, fuel, task, machine⟩ := moment
  cases ht
  cases callee with
  | print =>
    refine after_enter rfl hb (.refl _ _) fun machine' he => ?_
    cases he
    exact Machine.frame_print machine values
  | function id =>
    obtain ⟨function, hf, hlength⟩ := safe
    by_cases hd : maxCallDepth ≤ depth
    · have hnext : next functions ⟨origin, depth, fuel, .enter name (.function id) values span,
          machine⟩ = [] := by simp [next, nextOfCall, hf, hd]
      rw [hnext]
      refine after_enter rfl hb (.refl _ _) fun machine' he => ?_
      simp [Moment.ends, enter, hf, hd, Run.machine?] at he
    · have hnext : next functions ⟨origin, depth, fuel, .enter name (.function id) values span,
          machine⟩ = [⟨some id, depth + 1, fuel, .executeAll function.body,
            { machine with frame := callFrame function values }⟩] := by
        simp [next, nextOfCall, hf, hd]
      rw [hnext]
      have made : ∀ perBlock index, lastStored perBlock (depth + 1) index
          (past ++ [⟨origin, depth, fuel, .enter name (.function id) values span, machine⟩]) =
            values[index]? := by
        intro perBlock index
        rw [lastStored_concat]
        exact if_pos rfl
      refine ⟨⟨hb.reached.tail (.enterBody hf hd), fun index => ?_, _, bodies id function hf,
        fun index hi => ?_⟩,
        fun past' after => after_enter rfl hb after.spares fun machine' he => ?_⟩
      · exact (load_callFrame machine function values index).trans (made false index).symm
      · have hlt : index < values.length := by omega
        exact ⟨values[index], by rw [made, List.getElem?_eq_getElem hlt]⟩
      · simp only [Moment.ends, enter, hf, hd, if_false] at he
        cases hr : (executeAll functions fuel (depth + 1) function.body
            { machine with frame := callFrame function values }).leave machine.frame with
        | done value machine₁ =>
          rw [hr] at he
          cases he
          exact Run.leave_done hr
        | failed | unfinished => rw [hr] at he; cases he

/-- The step of the invariant. -/
theorem handed_next
    (bodies : ∀ (id : FunctionId) (function : Function), functions[id]? = some function →
      Program.Assured (loose (some id)) (· < function.symbol.parameters.length)
        (.statements function.body))
    (safe : ∀ moment, Reached functions start moment → moment.Safe functions)
    (past : List Moment) (moment : Moment) (hb : Before functions loose start past moment) :
    Handed (Before functions loose start) (After functions loose) (past ++ [moment])
      (next functions moment) (After functions loose past moment) := by
  by_cases hc : moment.task.IsFrameChange
  · cases ht : moment.task with
    | store slot value =>
      have hnext : next functions moment = [] := by
        obtain ⟨_, _, _, _, _⟩ := moment
        cases ht
        rfl
      rw [hnext]
      exact after_store ht hb
    | enter name callee values span => exact handed_enter bodies ht (safe moment hb.reached) hb
    | evaluate | evaluateAll | execute | executeAll | run =>
      rw [ht] at hc
      exact hc.elim
  · obtain ⟨assigned, ha, holds⟩ := hb.assured
    have spares : Spares moment.depth past (past ++ [moment]) := spares_concat past moment
    have tracks : Tracks moment.depth moment.machine (past ++ [moment]) := by
      intro index
      rw [lastStored_concat, noted_of_not_change hc]
      exact hb.tracks index
    refine handed_of_relays (fun later hl => hb.reached.tail (leads_of_mem_next hl))
      (relays_next hc ha) tracks (holds_concat hc ha holds) fun past' spares' tracks' holds' => ?_
    exact ⟨spares.trans spares', tracks', fun machine he assigned' ha' h =>
      holds' machine he assigned' _ (relays_next hc ha') (holds_concat hc ha' h)⟩

end

/-- The local variable that is read at a moment: its name, its place and where it is read. -/
def Moment.read? (moment : Moment) : Option (String × Nat × Span) :=
  match moment.fuel, moment.task with
  | _ + 1, .evaluate (.variable ⟨name, .local index⟩ span) => some (name, index, span)
  | _, _ => none

/-- What a read gives: the value, or that there is none. -/
def answer (name : String) (span : Span) (machine : Machine) : Option Value → Run (Option Value)
  | some value => .done (some value) machine
  | none => .failed ⟨span, .variableUnset name⟩ machine

theorem answer_inj {name : String} {span : Span} {machine : Machine} {value value' : Option Value}
    (h : answer name span machine value = answer name span machine value') : value = value' := by
  cases value <;> cases value' <;> cases h <;> rfl

theorem of_read? {moment : Moment} {name : String} {index : Nat} {span : Span}
    (h : moment.read? = some (name, index, span)) :
    moment.task = .evaluate (.variable ⟨name, .local index⟩ span) ∧
      ∃ fuel, moment.fuel = fuel + 1 := by
  unfold Moment.read? at h
  split at h
  · rename_i hf ht
    cases h
    exact ⟨ht, _, hf⟩
  · cases h

end Program

namespace Compilation

open Program (Statement Function Moment Reached Before chronicle lastStored answer)

variable {texts : List String} {compilation : Compilation}

/-- The invariant holds throughout a run on a clean chain. -/
theorem before_of_chronicle (clean : Clean texts (some compilation)) (fuel : Nat)
    (globals : Variables) {front back : List Moment} {moment : Moment}
    (h : chronicle compilation.functions (compilation.start fuel globals) =
      front ++ moment :: back) :
    Before compilation.functions
      (fun origin index => index ∈ Statement.allBare (compilation.codeOf origin))
      (compilation.start fuel globals) front moment := by
  have linked : Linked texts compilation := linked_of_clean clean
  have assigned : compilation.Assigned := assigned_of_clean clean
  have first : Before compilation.functions
      (fun origin index => index ∈ Statement.allBare (compilation.codeOf origin))
      (compilation.start fuel globals) [] (compilation.start fuel globals) := by
    refine ⟨.refl, fun index => ?_, _, ⟨rfl, assigned.statements⟩, fun _ hi => hi.elim⟩
    simp only [Program.Machine.load, start, List.getElem?_replicate]
    split <;> rfl
  refine (Program.chronicle_keeps (Program.handed_next (fun id function hf => ?_)
    fun moment hr => ?_) _ [] first).2 front moment back h
  · have assured := assigned.functions id function hf
    simpa only [codeOf, hf, Option.map_some, Option.getD_some] using assured
  · exact (Program.fits_of_reached linked.setting hr (linked.fits_start fuel globals)).safe
      linked.setting

/-- **Reads of local variables.** Let texts be compiled one on top of another, none with a
diagnostic, and the last be run on any variables; `front` is what has happened in the run before a
local variable is read. The variable has a place of its own. The read gives the value last stored
there since the frame was made, or reports that there is none. If the declaration does not stand
bare, as a branch or as the body of a loop, then that is the value last stored since the block was
entered that declares the variable, and there always is one. Otherwise it may have been stored
before the block was entered, and only then the read does not give what was stored since. -/
theorem reads_lastStored (clean : Clean texts (some compilation)) (fuel : Nat) (globals : Variables)
    {front back : List Moment} {moment : Moment}
    (h : chronicle compilation.functions (compilation.start fuel globals) = front ++ moment :: back)
    {name : String} {index : Nat} {span : Span} (hread : moment.read? = some (name, index, span)) :
    (compilation.placesOf moment.origin).count index = 1 ∧
    Program.evaluate compilation.functions moment.fuel moment.depth
        (.variable ⟨name, .local index⟩ span) moment.machine =
      answer name span moment.machine (lastStored false moment.depth index front) ∧
    (index ∉ Statement.allBare (compilation.codeOf moment.origin) →
      ∃ value, lastStored true moment.depth index front = some value ∧
        lastStored false moment.depth index front = some value) ∧
    (Program.evaluate compilation.functions moment.fuel moment.depth
        (.variable ⟨name, .local index⟩ span) moment.machine =
        answer name span moment.machine (lastStored true moment.depth index front) ↔
      (lastStored true moment.depth index front = none →
        lastStored false moment.depth index front = none)) := by
  obtain ⟨reached, tracks, assigned, assured, holds⟩ := before_of_chronicle clean fuel globals h
  obtain ⟨ht, more, hf⟩ := Program.of_read? hread
  have hplace : index < (contextOf texts compilation moment.origin).size := by
    have linked : Linked texts compilation := linked_of_clean clean
    have sound := (Program.fits_of_reached linked.setting reached
      (linked.fits_start fuel globals)).task
    simp only [ht, Moment.taskFits] at sound
    cases sound with
    | «variable» hs _ => exact hs
  have gives : Program.evaluate compilation.functions moment.fuel moment.depth
      (.variable ⟨name, .local index⟩ span) moment.machine =
        answer name span moment.machine (lastStored false moment.depth index front) := by
    rw [← tracks index, hf, Program.evaluate]
    cases moment.machine.load (.local index) <;> rfl
  refine ⟨count_placesOf clean hplace, gives, fun hbare => ?_, fun heq hnone => ?_, fun himp => ?_⟩
  · simp only [Moment.Assured, ht] at assured
    cases assured with
    | «variable» _ hvar =>
      have hassigned := (hvar index (List.mem_singleton.2 rfl)).resolve_right hbare
      obtain ⟨value, hv⟩ := holds index hassigned
      exact ⟨value, hv, Program.lastStored_of_perBlock hv⟩
  · rw [← hnone]
    exact Program.answer_inj (gives.symm.trans heq)
  · rw [gives]
    cases hs : lastStored true moment.depth index front with
    | none => rw [himp hs]
    | some value => rw [Program.lastStored_of_perBlock hs]

/-- The second time around nothing is stored in the variable since the block was entered, and the
read gives what was stored the first time. -/
theorem reads_lastStored_secondRound :
    ∃ compilation, Clean
        ["var i = 0\nwhile i < 2 \x7b\n  i = i + 1\n  if i == 1 var x = 7\n  print(x)\n\x7d"]
        (some compilation) ∧
      ∃ front moment back,
        chronicle compilation.functions (compilation.start 11 ∅) = front ++ moment :: back ∧
        moment.read? = some ("x", 0, ⟨66, 67⟩) ∧
        lastStored true moment.depth 0 front = none ∧
        Program.evaluate compilation.functions moment.fuel moment.depth
            (.variable ⟨"x", .local 0⟩ ⟨66, 67⟩) moment.machine =
          .done (some (.integer 7)) moment.machine := by
  have clean : Clean
      ["var i = 0\nwhile i < 2 \x7b\n  i = i + 1\n  if i == 1 var x = 7\n  print(x)\n\x7d"]
      _ := .text .nothing (List.isEmpty_iff.1 (by decide +kernel))
  refine ⟨_, clean, ?_⟩
  generalize hc : chain _ (Syntax.parse _) = compilation at clean ⊢
  generalize hmoments : chronicle compilation.functions (compilation.start 11 ∅) = moments
  have known : moments[54]?.any fun moment => moment.read? = some ("x", 0, ⟨66, 67⟩) ∧
      lastStored true moment.depth 0 (moments.take 54) = none ∧
        lastStored false moment.depth 0 (moments.take 54) = some (.integer 7) := by
    subst hmoments hc
    decide +kernel
  obtain ⟨moment, hat, hknown⟩ := Option.any_eq_true _ _ |>.1 known
  obtain ⟨hread, hsince, hbefore⟩ := of_decide_eq_true hknown
  obtain ⟨hlt, rfl⟩ := List.getElem?_eq_some_iff.1 hat
  have hsplit : moments = moments.take 54 ++ moments[54] :: moments.drop 55 := by
    rw [List.getElem_cons_drop, List.take_append_drop]
  refine ⟨_, _, _, hsplit, hread, hsince, ?_⟩
  obtain ⟨-, gives, -⟩ := reads_lastStored clean 11 ∅ (hmoments.trans hsplit) hread
  rw [gives, hbefore]
  rfl

end Compilation

end ReplayShell
