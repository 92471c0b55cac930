import ReplayShell.Proofs.Moments

/-!
# Sound code

Resolved code runs in a frame of fixed size and calls functions with fixed numbers of parameters.
`Sound` says that a piece of code keeps to both, and the runs of sound code go on doing so.

* `Context` is what a piece of code may rely on, `Sound` the code that does not ask for more.
* `keepsAt`: a computation of sound code leaves the frame as long as it was.
* `Moment.Fits` is the invariant: sound code in a frame of its size. `fits_of_leads` is the step,
  `fits_of_reached` the run.
* `Moment.Safe` is what the invariant promises.
-/
namespace ReplayShell.Program

/-- What a piece of code may rely on. -/
structure Context where
  /-- The length of the frame. -/
  size : Nat
  /-- How many parameters a function has. -/
  arity : FunctionId → Option Nat
  /-- Whether the code is that of a function. -/
  inFunction : Bool
  /-- The places in the text that expressions of the code may have. -/
  placed : Span → Prop

namespace Context

/-- There is such a variable. -/
def Holds (context : Context) : Slot → Prop
  | .global _ => True
  | .local index => index < context.size

/-- There is something to be called with so many arguments. -/
def Takes (context : Context) : Callee → Nat → Prop
  | .function id, given => context.arity id = some given
  | .print, given => given = 1

/-- The second context allows all that the first does. -/
structure Extends (context context' : Context) : Prop where
  size : context.size ≤ context'.size
  arity : ∀ id given, context.arity id = some given → context'.arity id = some given
  inFunction : context.inFunction = true → context'.inFunction = true
  placed : ∀ span, context.placed span → context'.placed span

variable {context context' : Context}

theorem Extends.holds (h : context.Extends context') {slot : Slot} (hs : context.Holds slot) :
    context'.Holds slot := by
  cases slot with
  | global => trivial
  | «local» => exact Nat.lt_of_lt_of_le hs h.size

theorem Extends.takes (h : context.Extends context') {callee : Callee} {given : Nat}
    (ht : context.Takes callee given) : context'.Takes callee given := by
  cases callee with
  | function => exact h.arity _ _ ht
  | print => exact ht

end Context

/-- A piece of resolved code. -/
inductive Code where
  | expression (expression : Expression)
  | expressions (expressions : List Expression)
  | statement (statement : Statement)
  | statements (statements : List Statement)

/-- The code asks for nothing that the context does not have. -/
inductive Sound (context : Context) : Code → Prop
  | literal (value : Value) : Sound context (.expression (.literal value))
  | variable {ref : VariableRef} {span : Span} (hs : context.Holds ref.slot)
      (hp : context.placed span) : Sound context (.expression (.variable ref span))
  | assignment {ref : VariableRef} {value : Expression} (hs : context.Holds ref.slot)
      (hv : Sound context (.expression value)) :
      Sound context (.expression (.assignment ref value))
  | unary {op : UnaryOp} {operand : Expression} {span : Span}
      (ho : Sound context (.expression operand)) (hp : context.placed span) :
      Sound context (.expression (.unary op operand span))
  | binary {left : Expression} {op : BinaryOp} {right : Expression} {span : Span}
      (hl : Sound context (.expression left)) (hr : Sound context (.expression right))
      (hp : context.placed span) : Sound context (.expression (.binary left op right span))
  | call {name : String} {callee : Callee} {arguments : List Expression} {span : Span}
      (ht : context.Takes callee arguments.length) (ha : Sound context (.expressions arguments))
      (hp : context.placed span) : Sound context (.expression (.call name callee arguments span))
  | noExpressions : Sound context (.expressions [])
  | expressions {first : Expression} {rest : List Expression}
      (hf : Sound context (.expression first)) (hr : Sound context (.expressions rest)) :
      Sound context (.expressions (first :: rest))
  | block {statements : List Statement} (h : Sound context (.statements statements)) :
      Sound context (.statement (.block statements))
  | declaration {ref : VariableRef} {readOnly : Bool} {initializer : Expression}
      (hs : context.Holds ref.slot) (hv : Sound context (.expression initializer)) :
      Sound context (.statement (.variable ref readOnly initializer))
  | conditional {condition : Expression} {thenBranch : Statement}
      (hc : Sound context (.expression condition)) (ht : Sound context (.statement thenBranch)) :
      Sound context (.statement (.conditional condition thenBranch none))
  | conditionalElse {condition : Expression} {thenBranch elseBranch : Statement}
      (hc : Sound context (.expression condition)) (ht : Sound context (.statement thenBranch))
      (he : Sound context (.statement elseBranch)) :
      Sound context (.statement (.conditional condition thenBranch (some elseBranch)))
  | loop {condition : Expression} {body : Statement} (hc : Sound context (.expression condition))
      (hb : Sound context (.statement body)) : Sound context (.statement (.loop condition body))
  | returnNothing (hf : context.inFunction = true) : Sound context (.statement (.return none))
  | return {value : Expression} (hf : context.inFunction = true)
      (hv : Sound context (.expression value)) : Sound context (.statement (.return (some value)))
  | evaluation {expression : Expression} (h : Sound context (.expression expression)) :
      Sound context (.statement (.expression expression))
  | noStatements : Sound context (.statements [])
  | statements {first : Statement} {rest : List Statement}
      (hf : Sound context (.statement first)) (hr : Sound context (.statements rest)) :
      Sound context (.statements (first :: rest))

theorem Sound.extend {context context' : Context} {code : Code} (h : Sound context code)
    (he : context.Extends context') : Sound context' code := by
  induction h with
  | literal value => exact .literal value
  | «variable» hs hp => exact .variable (he.holds hs) (he.placed _ hp)
  | assignment hs _ ih => exact .assignment (he.holds hs) ih
  | unary _ hp ih => exact .unary ih (he.placed _ hp)
  | binary _ _ hp ihLeft ihRight => exact .binary ihLeft ihRight (he.placed _ hp)
  | call ht _ hp ih => exact .call (he.takes ht) ih (he.placed _ hp)
  | noExpressions => exact .noExpressions
  | expressions _ _ ihFirst ihRest => exact .expressions ihFirst ihRest
  | block _ ih => exact .block ih
  | declaration hs _ ih => exact .declaration (he.holds hs) ih
  | conditional _ _ ihCondition ihThen => exact .conditional ihCondition ihThen
  | conditionalElse _ _ _ ihCondition ihThen ihElse =>
    exact .conditionalElse ihCondition ihThen ihElse
  | loop _ _ ihCondition ihBody => exact .loop ihCondition ihBody
  | returnNothing hf => exact .returnNothing (he.inFunction hf)
  | «return» hf _ ih => exact .return (he.inFunction hf) ih
  | evaluation _ ih => exact .evaluation ih
  | noStatements => exact .noStatements
  | statements _ _ ihFirst ihRest => exact .statements ihFirst ihRest

/-! ## Frames keep their length -/

namespace Machine

variable {context : Context} {machine : Machine}

theorem length_setLocal {frame : Frame} {index : Nat} (h : index < frame.length) (value : Value) :
    (setLocal frame index value).length = frame.length := by
  have hz : index + 1 - frame.length = 0 := by omega
  rw [setLocal, hz, List.length_set, List.replicate_zero, List.append_nil]

theorem length_store {slot : Slot} (hs : context.Holds slot)
    (hm : machine.frame.length = context.size) (value : Value) :
    (machine.store slot value).frame.length = context.size := by
  cases slot with
  | global => exact hm
  | «local» index =>
    have hi : index < machine.frame.length := hm ▸ hs
    exact (length_setLocal hi value).trans hm

theorem frame_print (machine : Machine) (values : List Value) :
    (values.foldl print machine).frame = machine.frame := by
  induction values generalizing machine with
  | nil => rfl
  | cons value values ih => exact ih _

end Machine

/-- What the end of a computation tells about the frame. -/
def Run.Keeps {α : Type} (run : Run α) (size : Nat) : Prop :=
  ∀ value machine, run = .done value machine → machine.frame.length = size

section
variable (functions : FunctionMap) (context : Context)

/-- The four parts of the evaluator keep the length of the frame of sound code. -/
structure KeepsAt (fuel : Nat) : Prop where
  evaluate : ∀ depth expression machine, Sound context (.expression expression) →
    machine.frame.length = context.size →
      (evaluate functions fuel depth expression machine).Keeps context.size
  evaluateAll : ∀ depth span expressions machine, Sound context (.expressions expressions) →
    machine.frame.length = context.size →
      (evaluateAll functions fuel depth span expressions machine).Keeps context.size
  execute : ∀ depth statement machine, Sound context (.statement statement) →
    machine.frame.length = context.size →
      (execute functions fuel depth statement machine).Keeps context.size
  executeAll : ∀ depth statements machine, Sound context (.statements statements) →
    machine.frame.length = context.size →
      (executeAll functions fuel depth statements machine).Keeps context.size

variable {functions context}

theorem evaluate_keeps {fuel : Nat} (ih : KeepsAt functions context fuel) (depth : Nat)
    (expression : Expression) (machine : Machine) (hs : Sound context (.expression expression))
    (hm : machine.frame.length = context.size) :
    (evaluate functions (fuel + 1) depth expression machine).Keeps context.size := by
  intro result machine' h
  cases hs with
  | literal value =>
    cases h
    exact hm
  | @«variable» ref span =>
    simp only [evaluate] at h
    split at h
    · cases h
      exact hm
    · cases h
  | assignment href hv =>
    obtain ⟨value, machine₁, he, hn⟩ := Run.withValue_done h
    cases hn
    exact Machine.length_store href (ih.evaluate _ _ _ hv hm _ _ he) value
  | unary ho =>
    obtain ⟨value, machine₁, he, hn⟩ := Run.withValue_done h
    have hm₁ := ih.evaluate _ _ _ ho hm _ _ he
    unfold unaryResult at hn
    split at hn <;> cases hn
    exact hm₁
  | binary hl hr =>
    obtain ⟨value, machine₁, he, hn⟩ := Run.withValue_done h
    have hm₁ := ih.evaluate _ _ _ hl hm _ _ he
    split at hn
    · cases hn
      exact hm₁
    · obtain ⟨value', machine₂, he', hn⟩ := Run.withValue_done hn
      have hm₂ := ih.evaluate _ _ _ hr hm₁ _ _ he'
      unfold binaryResult at hn
      split at hn <;> cases hn
      exact hm₂
  | @call name callee arguments span ht ha =>
    obtain ⟨values, machine₁, he, hn⟩ := Run.andThen_done h
    have hm₁ := ih.evaluateAll _ _ _ _ ha hm _ _ he
    cases callee with
    | print =>
      cases hn
      exact (congrArg List.length (Machine.frame_print machine₁ values)).trans hm₁
    | function id =>
      dsimp only at hn
      split at hn
      · cases hn
      split at hn
      · cases hn
      -- Whatever the callee did to its frame, the caller's is put back.
      · rw [Run.leave_done hn]
        exact hm₁

theorem evaluateAll_keeps {fuel : Nat} (ih : KeepsAt functions context fuel) (depth : Nat)
    (span : Span) (expressions : List Expression) (machine : Machine)
    (hs : Sound context (.expressions expressions)) (hm : machine.frame.length = context.size) :
    (evaluateAll functions (fuel + 1) depth span expressions machine).Keeps context.size := by
  intro result machine' h
  cases hs with
  | noExpressions =>
    cases h
    exact hm
  | expressions hf hr =>
    obtain ⟨value, machine₁, he, hn⟩ := Run.withValue_done h
    obtain ⟨values, machine₂, he', hn⟩ := Run.andThen_done hn
    cases hn
    exact ih.evaluateAll _ _ _ _ hr (ih.evaluate _ _ _ hf hm _ _ he) _ _ he'

theorem execute_keeps {fuel : Nat} (ih : KeepsAt functions context fuel) (depth : Nat)
    (statement : Statement) (machine : Machine) (hs : Sound context (.statement statement))
    (hm : machine.frame.length = context.size) :
    (execute functions (fuel + 1) depth statement machine).Keeps context.size := by
  intro flow machine' h
  cases hs with
  | block hb => exact ih.executeAll _ _ _ hb hm _ _ h
  | declaration href hv =>
    obtain ⟨value, machine₁, he, hn⟩ := Run.withValue_done h
    cases hn
    exact Machine.length_store href (ih.evaluate _ _ _ hv hm _ _ he) value
  | conditional hc ht =>
    obtain ⟨truth, machine₁, he, hn⟩ := Run.withCondition_done h
    have hm₁ := ih.evaluate _ _ _ hc hm _ _ he
    cases truth with
    | true => exact ih.execute _ _ _ ht hm₁ _ _ hn
    | false =>
      cases hn
      exact hm₁
  | conditionalElse hc ht hel =>
    obtain ⟨truth, machine₁, he, hn⟩ := Run.withCondition_done h
    have hm₁ := ih.evaluate _ _ _ hc hm _ _ he
    cases truth with
    | true => exact ih.execute _ _ _ ht hm₁ _ _ hn
    | false => exact ih.execute _ _ _ hel hm₁ _ _ hn
  | loop hc hb =>
    obtain ⟨truth, machine₁, he, hn⟩ := Run.withCondition_done h
    have hm₁ := ih.evaluate _ _ _ hc hm _ _ he
    cases truth with
    | false =>
      cases hn
      exact hm₁
    | true =>
      obtain ⟨flow', machine₂, he', hn⟩ := Run.andThen_done hn
      have hm₂ := ih.execute _ _ _ hb hm₁ _ _ he'
      cases flow' with
      | normal => exact ih.execute _ _ _ (.loop hc hb) hm₂ _ _ hn
      | «return» =>
        cases hn
        exact hm₂
  | returnNothing =>
    cases h
    exact hm
  | «return» _ hv =>
    obtain ⟨value, machine₁, he, hn⟩ := Run.andThen_done h
    cases hn
    exact ih.evaluate _ _ _ hv hm _ _ he
  | evaluation hv =>
    obtain ⟨value, machine₁, he, hn⟩ := Run.andThen_done h
    cases hn
    exact ih.evaluate _ _ _ hv hm _ _ he

theorem executeAll_keeps {fuel : Nat} (ih : KeepsAt functions context fuel) (depth : Nat)
    (statements : List Statement) (machine : Machine)
    (hs : Sound context (.statements statements)) (hm : machine.frame.length = context.size) :
    (executeAll functions (fuel + 1) depth statements machine).Keeps context.size := by
  intro flow machine' h
  cases hs with
  | noStatements =>
    cases h
    exact hm
  | statements hf hr =>
    obtain ⟨flow', machine₁, he, hn⟩ := Run.andThen_done h
    have hm₁ := ih.execute _ _ _ hf hm _ _ he
    cases flow' with
    | normal => exact ih.executeAll _ _ _ hr hm₁ _ _ hn
    | «return» =>
      cases hn
      exact hm₁

variable (functions context)

theorem keepsAt (fuel : Nat) : KeepsAt functions context fuel := by
  induction fuel with
  | zero =>
    refine ⟨?_, ?_, ?_, ?_⟩ <;> intros <;> intro _ _ h <;> cases h
  | succ fuel ih =>
    exact ⟨evaluate_keeps ih, evaluateAll_keeps ih, execute_keeps ih, executeAll_keeps ih⟩

end

/-! ## The invariant of a run -/

/-- The arguments of a call have one value each. -/
theorem length_of_evaluateAll {functions : FunctionMap} {fuel depth : Nat} {span : Span}
    {expressions : List Expression} {machine machine' : Machine} {values : List Value}
    (h : evaluateAll functions fuel depth span expressions machine = .done values machine') :
    values.length = expressions.length := by
  induction fuel generalizing expressions machine values with
  | zero => cases h
  | succ fuel ih =>
    cases expressions with
    | nil =>
      cases h
      rfl
    | cons first rest =>
      obtain ⟨value, machine₁, -, hn⟩ := Run.withValue_done h
      obtain ⟨values', machine₂, he, hn⟩ := Run.andThen_done hn
      cases hn
      exact congrArg (· + 1) (ih he)

/-- The number of parameters of each function. -/
def FunctionMap.arity (functions : FunctionMap) (id : FunctionId) : Option Nat :=
  functions[id]?.map fun function => function.symbol.parameters.length

/-- What the code of each function may rely on, and that of the top level; and their code does not
ask for more. -/
structure Setting (functions : FunctionMap) (contextOf : Option FunctionId → Context) : Prop where
  arity : ∀ origin, (contextOf origin).arity = functions.arity
  inFunction : ∀ origin, (contextOf origin).inFunction = true → origin.isSome
  size : ∀ (id : FunctionId) (function : Function), functions[id]? = some function →
    (contextOf (some id)).size = function.frameSize
  parameters : ∀ (id : FunctionId) (function : Function), functions[id]? = some function →
    function.symbol.parameters.length ≤ function.frameSize
  body : ∀ (id : FunctionId) (function : Function), functions[id]? = some function →
    Sound (contextOf (some id)) (.statements function.body)

namespace Moment

/-- The task asks for nothing that the context does not have. -/
def taskFits (context : Context) : Task → Prop
  | .evaluate expression => Sound context (.expression expression)
  | .evaluateAll _ expressions => Sound context (.expressions expressions)
  | .enter _ callee values span => context.Takes callee values.length ∧ context.placed span
  | .store slot _ => context.Holds slot
  | .execute statement => Sound context (.statement statement)
  | .executeAll statements => Sound context (.statements statements)
  | .run _ statements => Sound context (.statements statements)

/-- Sound code is being run in a frame of its size. -/
structure Fits (contextOf : Option FunctionId → Context) (moment : Moment) : Prop where
  frame : moment.machine.frame.length = (contextOf moment.origin).size
  task : taskFits (contextOf moment.origin) moment.task

end Moment

theorem length_callFrame {function : Function} {values : List Value}
    (h : values.length ≤ function.frameSize) :
    (callFrame function values).length = function.frameSize := by
  rw [callFrame, List.length_append, List.length_map, List.length_replicate]
  omega

variable {functions : FunctionMap} {contextOf : Option FunctionId → Context}
  {moment moment' : Moment}

/-- One step from sound code comes to sound code, in a frame of its size. -/
theorem fits_of_leads (setting : Setting functions contextOf) (h : Leads functions moment moment')
    (fits : moment.Fits contextOf) : moment'.Fits contextOf := by
  obtain ⟨hm, ht⟩ := fits
  have keeps : ∀ origin fuel, KeepsAt functions (contextOf origin) fuel :=
    fun origin fuel => keepsAt functions (contextOf origin) fuel
  cases h with
  | assignmentValue =>
    cases ht with
    | assignment _ hv => exact ⟨hm, hv⟩
  | @assignmentStore origin depth fuel ref value machine result machine' he =>
    cases ht with
    | assignment href hv => exact ⟨(keeps _ _).evaluate _ _ _ hv hm _ _ he, href⟩
  | unaryOperand =>
    cases ht with
    | unary ho => exact ⟨hm, ho⟩
  | binaryLeft =>
    cases ht with
    | binary hl => exact ⟨hm, hl⟩
  | binaryRight he =>
    cases ht with
    | binary hl hr => exact ⟨(keeps _ _).evaluate _ _ _ hl hm _ _ he, hr⟩
  | callArguments =>
    cases ht with
    | call _ ha => exact ⟨hm, ha⟩
  | callEnter he =>
    cases ht with
    | call ht ha hp =>
      refine ⟨(keeps _ _).evaluateAll _ _ _ _ ha hm _ _ he, ?_, hp⟩
      rw [← length_of_evaluateAll he] at ht
      exact ht
  | @enterBody origin depth fuel name id values span machine function hf hd =>
    have hgiven : function.symbol.parameters.length = values.length := by
      have ha : (contextOf origin).arity id = some values.length := ht.1
      rw [setting.arity, FunctionMap.arity, hf] at ha
      exact Option.some.inj ha
    have hle := setting.parameters id function hf
    refine ⟨?_, setting.body id function hf⟩
    rw [setting.size id function hf]
    exact length_callFrame (hgiven ▸ hle)
  | argumentsFirst =>
    cases ht with
    | expressions hf => exact ⟨hm, hf⟩
  | argumentsRest he =>
    cases ht with
    | expressions hf hr => exact ⟨(keeps _ _).evaluate _ _ _ hf hm _ _ he, hr⟩
  | block =>
    cases ht with
    | block hb => exact ⟨hm, hb⟩
  | variableValue =>
    cases ht with
    | declaration _ hv => exact ⟨hm, hv⟩
  | variableStore he =>
    cases ht with
    | declaration href hv => exact ⟨(keeps _ _).evaluate _ _ _ hv hm _ _ he, href⟩
  | condition =>
    cases ht with
    | conditional hc => exact ⟨hm, hc⟩
    | conditionalElse hc => exact ⟨hm, hc⟩
  | thenBranch he =>
    cases ht with
    | conditional hc ht => exact ⟨(keeps _ _).evaluate _ _ _ hc hm _ _ he, ht⟩
    | conditionalElse hc ht => exact ⟨(keeps _ _).evaluate _ _ _ hc hm _ _ he, ht⟩
  | elseBranch he =>
    cases ht with
    | conditionalElse hc _ hel => exact ⟨(keeps _ _).evaluate _ _ _ hc hm _ _ he, hel⟩
  | loopCondition =>
    cases ht with
    | loop hc => exact ⟨hm, hc⟩
  | loopBody he =>
    cases ht with
    | loop hc hb => exact ⟨(keeps _ _).evaluate _ _ _ hc hm _ _ he, hb⟩
  | loopAgain he hex =>
    cases ht with
    | loop hc hb =>
      have hm₁ := (keeps _ _).evaluate _ _ _ hc hm _ _ he
      exact ⟨(keeps _ _).execute _ _ _ hb hm₁ _ _ hex, .loop hc hb⟩
  | returnValue =>
    cases ht with
    | «return» _ hv => exact ⟨hm, hv⟩
  | expression =>
    cases ht with
    | evaluation hv => exact ⟨hm, hv⟩
  | statementsFirst =>
    cases ht with
    | statements hf => exact ⟨hm, hf⟩
  | statementsRest he =>
    cases ht with
    | statements hf hr => exact ⟨(keeps _ _).execute _ _ _ hf hm _ _ he, hr⟩
  | runExpression =>
    cases ht with
    | statements hf =>
      cases hf with
      | evaluation hv => exact ⟨hm, hv⟩
  | runAfterExpression he =>
    cases ht with
    | statements hf hr =>
      cases hf with
      | evaluation hv => exact ⟨(keeps _ _).evaluate _ _ _ hv hm _ _ he, hr⟩
  | runStatement =>
    cases ht with
    | statements hf => exact ⟨hm, hf⟩
  | runAfterStatement _ he =>
    cases ht with
    | statements hf hr => exact ⟨(keeps _ _).execute _ _ _ hf hm _ _ he, hr⟩

/-- Sound code is run at every moment of a run that begins with sound code. -/
theorem fits_of_reached (setting : Setting functions contextOf)
    (h : Reached functions moment moment') (fits : moment.Fits contextOf) :
    moment'.Fits contextOf := by
  induction h with
  | refl => exact fits
  | tail _ h ih => exact fits_of_leads setting h ih

/-! ## What the invariant promises -/

/-- Nothing is done at the moment that resolved code must never do: evaluate what could not be
resolved, use a place beyond the end of the frame, call a function that is not there or with a wrong
number of arguments, or return without having been called. -/
def Moment.Safe (functions : FunctionMap) (moment : Moment) : Prop :=
  match moment.task with
  | .evaluate .invalid => False
  | .evaluate (.variable ⟨_, .local index⟩ _) => index < moment.machine.frame.length
  | .store (.local index) _ => index < moment.machine.frame.length
  | .enter _ (.function id) values _ => ∃ function, functions[id]? = some function ∧
      values.length = function.symbol.parameters.length
  | .enter _ .print values _ => values.length = 1
  | .execute (.return _) => moment.origin.isSome
  | _ => True

theorem Moment.Fits.safe (setting : Setting functions contextOf) (fits : moment.Fits contextOf) :
    moment.Safe functions := by
  obtain ⟨origin, depth, fuel, task, machine⟩ := moment
  obtain ⟨hm, ht⟩ := fits
  unfold Moment.Safe
  split
  · rename_i heq
    cases heq
    cases ht
  · rename_i heq
    cases heq
    cases ht with
    | «variable» hs => exact hm ▸ hs
  · rename_i heq
    cases heq
    exact hm ▸ ht
  · rename_i heq
    cases heq
    have ha : (contextOf origin).arity _ = some _ := ht.1
    rw [setting.arity, FunctionMap.arity, Option.map_eq_some_iff] at ha
    obtain ⟨function, hf, hl⟩ := ha
    exact ⟨function, hf, hl.symm⟩
  · rename_i heq
    cases heq
    exact ht.1
  · rename_i heq
    cases heq
    cases ht with
    | returnNothing hf => exact setting.inFunction origin hf
    | «return» hf => exact setting.inFunction origin hf
  · trivial

end ReplayShell.Program
