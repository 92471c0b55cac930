import ReplayShell.Proofs.Meanings
import ReplayShell.Proofs.Sessions

/-!
# Read-only variables

That a variable is read-only is checked when a name is resolved. What is set is set by number, by
code that may have been resolved long before.

* `sparesAt`: a run leaves alone every global variable that its code may not set.
* `variableOf` is the variable that texts declare under a number, `Guarded` the invariant of a
  chain: bodies set only variables that were declared without being read-only. `guarded_chain` is
  the step, `guarded_of_clean` the chain.
* `Shell.GoesOn` is any number of submissions without a reset. `readOnly_permanent`: they leave the
  read-only variables alone.
-/
namespace ReplayShell

namespace Program

/-! ## Variables that a run leaves alone -/

/-- What the end of a computation tells about the global variables that may not be set. -/
def Run.Spares {α : Type} (run : Run α) (reach : Reach) (machine : Machine) : Prop :=
  ∀ value machine', run = .done value machine' →
    ∀ id, ¬reach.sets id → machine'.globals[id]? = machine.globals[id]?

namespace Machine

variable {reach : Reach}

theorem globals_store (machine : Machine) {slot : Slot} (hs : reach.Allows slot) (value : Value)
    {id : VariableId} (hid : ¬reach.sets id) :
    (machine.store slot value).globals[id]? = machine.globals[id]? := by
  cases slot with
  | «local» => rfl
  | global other =>
    have hne : other ≠ id := fun heq => hid (heq ▸ hs)
    rw [store, Std.ExtTreeMap.getElem?_insert, if_neg (by simpa using hne)]

theorem globals_print (machine : Machine) (values : List Value) :
    (values.foldl print machine).globals = machine.globals := by
  induction values generalizing machine with
  | nil => rfl
  | cons value values ih => exact ih _

end Machine

section
variable (functions : FunctionMap) (reach : Reach)

/-- The four parts of the evaluator leave alone what the code may not set. -/
structure SparesAt (fuel : Nat) : Prop where
  evaluate : ∀ depth expression machine, Within reach (.expression expression) →
    (evaluate functions fuel depth expression machine).Spares reach machine
  evaluateAll : ∀ depth span expressions machine, Within reach (.expressions expressions) →
    (evaluateAll functions fuel depth span expressions machine).Spares reach machine
  execute : ∀ depth statement machine, Within reach (.statement statement) →
    (execute functions fuel depth statement machine).Spares reach machine
  executeAll : ∀ depth statements machine, Within reach (.statements statements) →
    (executeAll functions fuel depth statements machine).Spares reach machine

variable {functions reach}

theorem evaluate_spares {fuel : Nat} (ih : SparesAt functions reach fuel)
    (bodies : ∀ (id : FunctionId) (function : Function), functions[id]? = some function →
      Within reach (.statements function.body))
    (depth : Nat) (expression : Expression) (machine : Machine)
    (hw : Within reach (.expression expression)) :
    (evaluate functions (fuel + 1) depth expression machine).Spares reach machine := by
  intro result machine' h id hid
  cases hw with
  | invalid => cases h
  | literal value =>
    cases h
    rfl
  | «variable» ref span =>
    simp only [evaluate] at h
    split at h <;> cases h
    rfl
  | assignment hs hv =>
    obtain ⟨value, machine₁, he, hn⟩ := Run.withValue_done h
    cases hn
    rw [machine₁.globals_store hs value hid]
    exact ih.evaluate _ _ _ hv _ _ he id hid
  | unary _ _ ho =>
    obtain ⟨value, machine₁, he, hn⟩ := Run.withValue_done h
    unfold unaryResult at hn
    split at hn <;> cases hn
    exact ih.evaluate _ _ _ ho _ _ he id hid
  | binary _ _ hl hr =>
    obtain ⟨value, machine₁, he, hn⟩ := Run.withValue_done h
    have hleft := ih.evaluate _ _ _ hl _ _ he id hid
    split at hn
    · cases hn
      exact hleft
    · obtain ⟨value', machine₂, he', hn⟩ := Run.withValue_done hn
      unfold binaryResult at hn
      split at hn <;> cases hn
      exact (ih.evaluate _ _ _ hr _ _ he' id hid).trans hleft
  | @call callee arguments name span ht ha =>
    obtain ⟨values, machine₁, he, hn⟩ := Run.andThen_done h
    have harguments := ih.evaluateAll _ _ _ _ ha _ _ he id hid
    cases callee with
    | print =>
      cases hn
      rw [machine₁.globals_print values]
      exact harguments
    | function callee =>
      dsimp only at hn
      split at hn
      · cases hn
      rename_i function hf
      split at hn
      · cases hn
      obtain ⟨flow, machine₂, he', hn⟩ := Run.andThen_done hn
      have hbody := ih.executeAll _ _ _ (bodies callee function hf) _ _ he' id hid
      cases flow <;> cases hn <;> exact hbody.trans harguments

theorem evaluateAll_spares {fuel : Nat} (ih : SparesAt functions reach fuel) (depth : Nat)
    (span : Span) (expressions : List Expression) (machine : Machine)
    (hw : Within reach (.expressions expressions)) :
    (evaluateAll functions (fuel + 1) depth span expressions machine).Spares reach machine := by
  intro result machine' h id hid
  cases hw with
  | noExpressions =>
    cases h
    rfl
  | expressions hf hr =>
    obtain ⟨value, machine₁, he, hn⟩ := Run.withValue_done h
    obtain ⟨values, machine₂, he', hn⟩ := Run.andThen_done hn
    cases hn
    exact (ih.evaluateAll _ _ _ _ hr _ _ he' id hid).trans (ih.evaluate _ _ _ hf _ _ he id hid)

theorem execute_spares {fuel : Nat} (ih : SparesAt functions reach fuel) (depth : Nat)
    (statement : Statement) (machine : Machine) (hw : Within reach (.statement statement)) :
    (execute functions (fuel + 1) depth statement machine).Spares reach machine := by
  intro flow machine' h id hid
  cases hw with
  | block hb => exact ih.executeAll _ _ _ hb _ _ h id hid
  | declaration _ hs hv =>
    obtain ⟨value, machine₁, he, hn⟩ := Run.withValue_done h
    cases hn
    rw [machine₁.globals_store hs value hid]
    exact ih.evaluate _ _ _ hv _ _ he id hid
  | conditional hc ht =>
    obtain ⟨truth, machine₁, he, hn⟩ := Run.withCondition_done h
    have hcondition := ih.evaluate _ _ _ hc _ _ he id hid
    cases truth with
    | true => exact (ih.execute _ _ _ ht _ _ hn id hid).trans hcondition
    | false =>
      cases hn
      exact hcondition
  | conditionalElse hc ht hel =>
    obtain ⟨truth, machine₁, he, hn⟩ := Run.withCondition_done h
    have hcondition := ih.evaluate _ _ _ hc _ _ he id hid
    cases truth with
    | true => exact (ih.execute _ _ _ ht _ _ hn id hid).trans hcondition
    | false => exact (ih.execute _ _ _ hel _ _ hn id hid).trans hcondition
  | loop hc hb =>
    obtain ⟨truth, machine₁, he, hn⟩ := Run.withCondition_done h
    have hcondition := ih.evaluate _ _ _ hc _ _ he id hid
    cases truth with
    | false =>
      cases hn
      exact hcondition
    | true =>
      obtain ⟨flow', machine₂, he', hn⟩ := Run.andThen_done hn
      have hbody := (ih.execute _ _ _ hb _ _ he' id hid).trans hcondition
      cases flow' with
      | normal => exact (ih.execute _ _ _ (.loop hc hb) _ _ hn id hid).trans hbody
      | «return» =>
        cases hn
        exact hbody
  | returnNothing =>
    cases h
    rfl
  | «return» hv =>
    obtain ⟨value, machine₁, he, hn⟩ := Run.andThen_done h
    cases hn
    exact ih.evaluate _ _ _ hv _ _ he id hid
  | evaluation hv =>
    obtain ⟨value, machine₁, he, hn⟩ := Run.andThen_done h
    cases hn
    exact ih.evaluate _ _ _ hv _ _ he id hid

theorem executeAll_spares {fuel : Nat} (ih : SparesAt functions reach fuel) (depth : Nat)
    (statements : List Statement) (machine : Machine)
    (hw : Within reach (.statements statements)) :
    (executeAll functions (fuel + 1) depth statements machine).Spares reach machine := by
  intro flow machine' h id hid
  cases hw with
  | noStatements =>
    cases h
    rfl
  | statements hf hr =>
    obtain ⟨flow', machine₁, he, hn⟩ := Run.andThen_done h
    have hfirst := ih.execute _ _ _ hf _ _ he id hid
    cases flow' with
    | normal => exact (ih.executeAll _ _ _ hr _ _ hn id hid).trans hfirst
    | «return» =>
      cases hn
      exact hfirst

theorem sparesAt (bodies : ∀ (id : FunctionId) (function : Function),
      functions[id]? = some function → Within reach (.statements function.body)) (fuel : Nat) :
    SparesAt functions reach fuel := by
  induction fuel with
  | zero => refine ⟨?_, ?_, ?_, ?_⟩ <;> intros <;> intro _ _ h <;> cases h
  | succ fuel ih =>
    exact ⟨evaluate_spares ih bodies, evaluateAll_spares ih, execute_spares ih,
      executeAll_spares ih⟩

/-- A whole run leaves alone what neither its statements nor the functions may set. -/
theorem runStatements_spares (bodies : ∀ (id : FunctionId) (function : Function),
      functions[id]? = some function → Within reach (.statements function.body))
    {fuel : Nat} {last : Option Value} {statements : List Statement} {machine : Machine}
    (hw : Within reach (.statements statements)) :
    (runStatements functions fuel last statements machine).Spares reach machine := by
  have spares := sparesAt bodies fuel
  induction statements generalizing last machine with
  | nil =>
    intro value machine' h id hid
    cases h
    rfl
  | cons first rest ih =>
    intro value machine' h id hid
    cases hw with
    | statements hf hr =>
      unfold runStatements at h
      split at h
      · rename_i hnil
        cases hnil
      · rename_i heq
        cases heq
        cases hf with
        | evaluation he =>
          obtain ⟨value', machine₁, hrun, hn⟩ := Run.andThen_done h
          exact (ih hr _ _ hn id hid).trans (spares.evaluate _ _ _ he _ _ hrun id hid)
      · rename_i heq
        cases heq
        obtain ⟨flow, machine₁, hrun, hn⟩ := Run.andThen_done h
        exact (ih hr _ _ hn id hid).trans (spares.execute _ _ _ hf _ _ hrun id hid)

end

/-- Declaring functions adds no variable. -/
theorem DeclaresInTurn.vars {env env' : Environment} {ordinal : Nat}
    {declarations : List Syntax.FunctionDeclaration}
    {declared : List (FunctionSymbol × Syntax.FunctionDeclaration)} {problems : List Diagnostic}
    (h : DeclaresInTurn env ordinal declarations declared env' problems) {name : String}
    {found : GlobalVariable} (hf : env'.globals.vars[name]? = some found) :
    env.globals.vars[name]? = some found := by
  induction h with
  | nil => exact hf
  | skip _ _ ih => exact ih hf
  | declare _ _ _ ih =>
    have hrest := ih hf
    rw [Environment.addFunction, Std.ExtTreeMap.getElem?_erase] at hrest
    split at hrest
    · cases hrest
    · exact hrest

end Program

namespace Compilation

open Program (Function GlobalVariable Reach Within)

/-! ## What a chain may set -/

/-- The global variable that texts declare under a number, and whether it is read-only. The texts
are numbered from one, the variables of each from zero. -/
def variableOf (texts : List String) : VariableId → Option (Syntax.Token × Bool)
  | ⟨0, _⟩ => none
  | ⟨generation + 1, ordinal⟩ => texts[generation]?.bind fun text =>
      (Syntax.parse text).1.globals[ordinal]?

/-- The texts declare a read-only variable under the number. -/
def ReadOnly (texts : List String) (id : VariableId) : Prop :=
  ∃ identifier, variableOf texts id = some (identifier, true)

/-- The texts declare a variable under the number that can be set again. -/
def Writable (texts : List String) (id : VariableId) : Prop :=
  ∃ identifier, variableOf texts id = some (identifier, false)

variable {texts : List String} {id : VariableId}

theorem variableOf_append {declared : Syntax.Token × Bool} (h : variableOf texts id = some declared)
    (more : List String) : variableOf (texts ++ more) id = some declared := by
  obtain ⟨generation, ordinal⟩ := id
  cases generation with
  | zero => cases h
  | succ generation =>
    obtain ⟨text, ht, hg⟩ := Option.bind_eq_some_iff.1 h
    obtain ⟨hlt, -⟩ := List.getElem?_eq_some_iff.1 ht
    rw [variableOf, List.getElem?_append_left hlt, ht]
    exact hg

theorem generation_le_of_variableOf {declared : Syntax.Token × Bool}
    (h : variableOf texts id = some declared) : id.generation ≤ texts.length := by
  obtain ⟨generation, ordinal⟩ := id
  cases generation with
  | zero => cases h
  | succ generation =>
    obtain ⟨text, ht, -⟩ := Option.bind_eq_some_iff.1 h
    exact (List.getElem?_eq_some_iff.1 ht).1

/-- What the texts so far declare does not depend on the next. -/
theorem variableOf_concat {text : String} (h : id.generation ≠ texts.length + 1) :
    variableOf (texts ++ [text]) id = variableOf texts id := by
  obtain ⟨generation, ordinal⟩ := id
  cases generation with
  | zero => rfl
  | succ generation =>
    have hne : generation ≠ texts.length := fun heq => h (congrArg (· + 1) heq)
    rcases Nat.lt_or_gt_of_ne hne with hlt | hgt
    · rw [variableOf, variableOf, List.getElem?_append_left hlt]
    · have hle : (texts ++ [text]).length ≤ generation := by
        rw [List.length_append, List.length_singleton]
        exact hgt
      rw [variableOf, variableOf, List.getElem?_eq_none hle,
        List.getElem?_eq_none (Nat.le_of_lt hgt)]

/-- Variables that can be set again may be set, and any function may be called. -/
def writing (texts : List String) : Reach := ⟨fun _ => True, Writable texts⟩

/-- So may the variables of the last text. -/
def writingLast (texts : List String) : Reach :=
  ⟨fun _ => True, fun id => id.generation = texts.length ∨ Writable texts id⟩

/-- The variables of a chain are those of its texts, and only those that can be set again are set
from outside the text that declares them. -/
structure Guarded (texts : List String) (compilation : Compilation) : Prop where
  coherent : Coherent compilation
  generation : compilation.generation = texts.length
  vars : ∀ (name : String) (found : GlobalVariable),
    compilation.program.scope.vars[name]? = some found →
      ∃ identifier, identifier.text = name ∧
        variableOf texts found.id = some (identifier, found.readOnly)
  bodies : ∀ (id : FunctionId) (function : Function),
    compilation.functions[id]? = some function →
      Within (writing texts) (.statements function.body)
  statements : Within (writingLast texts) (.statements compilation.program.statements)

theorem guarded_empty : Guarded [] empty := by
  refine ⟨coherent_empty, rfl, fun name found h => ?_, fun id function h => ?_, .noStatements⟩ <;>
  · rw [empty, Std.ExtTreeMap.getElem?_empty] at h
    cases h

theorem writing_le (texts : List String) (text : String) :
    (writing texts).Le (writing (texts ++ [text])) :=
  ⟨fun _ _ => trivial, fun _ ⟨identifier, h⟩ => ⟨identifier, variableOf_append h [text]⟩⟩

variable {previous : Option Compilation} {text : String}

/-- A visible variable is one of the last text, or was visible before. -/
theorem vars_chain (below : Guarded texts (previous.getD empty)) {name : String}
    {found : GlobalVariable}
    (h : (chain previous (Syntax.parse text)).program.scope.vars[name]? = some found) :
    ∃ identifier, identifier.text = name ∧
      variableOf (texts ++ [text]) found.id = some (identifier, found.readOnly) := by
  have coherent : Coherent (chain previous (Syntax.parse text)) := coherent_chain below.coherent
  have hmeaning := coherent.tidy.meaning_variable.2 h
  have hresolve := Program.meaning_resolve (previous.getD empty).program.scope
    ((previous.getD empty).generation + 1) (Syntax.parse text).1 name
  rcases Option.or_eq_some_iff.1 (hresolve.symm.trans hmeaning) with hown | ⟨-, hbelow⟩
  · rcases List.mem_append.1 (Program.mem_of_latest hown) with hm | hm
    · obtain ⟨entry, -, heq⟩ := List.mem_map.1 hm
      cases heq
    · obtain ⟨index, identifier, readOnly, hg, hname, heq⟩ := Program.mem_variableMeanings.1 hm
      cases heq
      refine ⟨identifier, hname.symm, ?_⟩
      rw [below.generation, variableOf, List.getElem?_concat_length, Nat.zero_add]
      exact hg
  · obtain ⟨identifier, hname, hvar⟩ :=
      below.vars name found (below.coherent.tidy.meaning_variable.1 hbelow)
    exact ⟨identifier, hname, variableOf_append hvar [text]⟩

/-- What a name of a variable may be used for is what its declaration allows. -/
theorem Guarded.writable {compilation : Compilation} (guarded : Guarded texts compilation)
    (name : String) (found : GlobalVariable)
    (h : compilation.program.scope.vars[name]? = some found) (hw : found.readOnly = false) :
    Writable texts found.id := by
  obtain ⟨identifier, -, hvar⟩ := guarded.vars name found h
  exact ⟨identifier, hw ▸ hvar⟩

/-- A text compiled on top of a guarded chain makes one. -/
theorem guarded_chain (below : Guarded texts (previous.getD empty)) :
    Guarded (texts ++ [text]) (chain previous (Syntax.parse text)) where
  coherent := coherent_chain below.coherent
  generation := by
    rw [List.length_append, List.length_singleton, ← below.generation]
    rfl
  vars := fun _ _ => vars_chain below
  bodies := by
    intro id function h
    rcases (getElem?_functions_chain below.coherent id function).1 h with ⟨hm, -⟩ | h
    · refine Program.within_functions (fun _ _ _ => trivial) (fun name found hv hw => ?_)
        function hm
      obtain ⟨identifier, -, hvar⟩ := vars_chain below hv
      exact ⟨identifier, hw ▸ hvar⟩
    · exact (below.bodies id function h).mono (writing_le texts text)
  statements := by
    refine Program.within_statements ⟨fun _ _ _ => trivial, fun name found hv hw => .inr ?_, ?_⟩
    · have hbefore := (Program.inTurn_afterFunctions _ _ _).vars hv
      exact (writing_le texts text).sets _ (below.writable name found hbefore hw)
    · intro _ ordinal
      left
      rw [List.length_append, List.length_singleton, ← below.generation]
      exact (Program.declares_afterFunctions _ _ _).env_generation

theorem guarded_of_clean (clean : Clean texts previous) : Guarded texts (previous.getD empty) := by
  induction clean with
  | nothing => exact guarded_empty
  | empty => exact guarded_empty
  | text _ _ ih => exact guarded_chain ih

/-- A run on a chain sets only variables of the last text and those that can be set again. -/
theorem Guarded.spares {compilation : Compilation} (guarded : Guarded texts compilation)
    {fuel : Nat} {globals : Variables} {evaluation : Evaluation}
    (h : compilation.evaluate fuel globals = some evaluation) (hd : evaluation.diagnostics = [])
    (hid : ¬(writingLast texts).sets id) : evaluation.globals[id]? = globals[id]? := by
  have hle : (writing texts).Le (writingLast texts) := ⟨fun _ h => h, fun _ h => .inr h⟩
  have bodies := fun id function hf => (guarded.bodies id function hf).mono hle
  unfold evaluate at h
  split at h
  · split at h <;> cases h
    · rename_i hrun
      exact Program.runStatements_spares bodies guarded.statements _ _ hrun id hid
    · cases hd
  · cases h
    rfl

theorem ReadOnly.append (h : ReadOnly texts id) (more : List String) :
    ReadOnly (texts ++ more) id := by
  obtain ⟨identifier, h⟩ := h
  exact ⟨identifier, variableOf_append h more⟩

/-- A read-only variable is an earlier one, and it cannot be set again. -/
theorem ReadOnly.settled (h : ReadOnly texts id) :
    ¬(id.generation = texts.length + 1 ∨ Writable texts id) := by
  obtain ⟨identifier, h⟩ := h
  rintro (hgeneration | ⟨identifier', h'⟩)
  · have hle := generation_le_of_variableOf h
    omega
  · rw [h] at h'
    cases h'

end Compilation

open Compilation (ReadOnly Writable variableOf)

/-! ## Sessions -/

/-- What a submission may do to a session that is built on texts: it is built on, and changes only
variables of its own and earlier ones that can be set again. -/
structure Session.Proceeds (texts : List String) (session session' : Session) : Prop where
  clean : ∃ more, Compilation.Clean (texts ++ more) session'.handle
  globals : ∀ id, session'.globals[id]? ≠ session.globals[id]? →
    id.generation = texts.length + 1 ∨ Writable texts id

namespace Session

variable {texts : List String} {session session' : Session}

theorem Proceeds.refl (clean : Compilation.Clean texts session.handle) :
    Proceeds texts session session :=
  ⟨⟨[], (List.append_nil texts).symm ▸ clean⟩, fun _ h => absurd rfl h⟩

theorem proceeds_next {fuel : Nat} {text : String} (clean : Compilation.Clean texts session.handle)
    (h : session.next fuel text = some session') : Proceeds texts session session' := by
  obtain ⟨evaluation, he, hs⟩ := Option.map_eq_some_iff.1 h
  by_cases hd : evaluation.diagnostics.isEmpty = true
  · rw [if_pos hd] at hs
    subst hs
    have hd := List.isEmpty_iff.1 hd
    have clean' : Compilation.Clean (texts ++ [text])
        (some (Compilation.chain session.handle (Syntax.parse text))) :=
      .text clean (Compilation.diagnostics_of_evaluate he hd)
    have guarded := Compilation.guarded_of_clean clean'
    refine ⟨⟨[text], clean'⟩, fun id hne => ?_⟩
    by_contra hid
    refine hne (guarded.spares he hd ?_)
    rintro (hgeneration | ⟨identifier, hw⟩)
    · rw [List.length_append, List.length_singleton] at hgeneration
      exact hid (.inl hgeneration)
    · rw [Compilation.variableOf_concat fun hgeneration => hid (.inl hgeneration)] at hw
      exact hid (.inr ⟨identifier, hw⟩)
  · rw [if_neg hd] at hs
    exact hs ▸ .refl clean

end Session

namespace Shell

/-- What comes of a shell by submissions, on whatever files, none of which is a reset. -/
inductive GoesOn : Shell → Shell → Prop
  | refl (shell : Shell) : GoesOn shell shell
  | submit {shell shell' : Shell} {fuel : Nat} {files : FileSystem} {line : String}
      {reply : Reply Outcome} (h : GoesOn shell shell') (hn : Task.of files line ≠ .reset)
      (hs : shell'.submit fuel files line = some reply) : GoesOn shell reply.shell

variable {shell shell' : Shell} {texts : List String}

theorem proceeds_submit {fuel : Nat} {files : FileSystem} {line : String} {reply : Reply Outcome}
    (clean : Compilation.Clean texts shell.session.handle) (hn : Task.of files line ≠ .reset)
    (hs : shell.submit fuel files line = some reply) :
    Session.Proceeds texts shell.session reply.shell.session := by
  have done := submit_does hs
  generalize Task.of files line = task at done hn
  cases task with
  | program text =>
    obtain ⟨evaluated, he, rfl⟩ := done
    obtain ⟨session, hnext, hshell, -⟩ := evaluate_ok he
    dsimp only
    rw [hshell]
    exact Session.proceeds_next clean hnext
  | reset => exact absurd rfl hn
  | switch =>
    obtain ⟨-, -, _, _, hshell⟩ := done
    rw [hshell]
    exact .refl clean
  | exit =>
    cases done
    exact .refl clean
  | look =>
    obtain ⟨_, _, -, rfl⟩ := done
    exact .refl clean

/-- Submissions build on the texts, and leave the read-only variables of these alone. -/
theorem GoesOn.spares (h : GoesOn shell shell')
    (clean : Compilation.Clean texts shell.session.handle) :
    (∃ more, Compilation.Clean (texts ++ more) shell'.session.handle) ∧
      ∀ id, ReadOnly texts id →
        shell'.session.globals[id]? = shell.session.globals[id]? := by
  induction h with
  | refl => exact ⟨⟨[], (List.append_nil texts).symm ▸ clean⟩, fun _ _ => rfl⟩
  | submit _ hn hs ih =>
    obtain ⟨⟨more, clean'⟩, same⟩ := ih
    have proceeds := proceeds_submit clean' hn hs
    refine ⟨?_, fun id hid => Eq.trans ?_ (same id hid)⟩
    · obtain ⟨last, clean''⟩ := proceeds.clean
      exact ⟨more ++ last, List.append_assoc texts more last ▸ clean''⟩
    · by_contra hne
      exact (hid.append more).settled (proceeds.globals id hne)

/-- **Read-only variables never change.** Whatever a shell has come to, its session is built on
texts. A read-only variable that one of these declares keeps its value, or stays without one,
through all further submissions up to a reset. And a submission changes only variables of its own
and earlier ones that are not read-only. -/
theorem readOnly_permanent (reachable : shell.Reachable) (goesOn : shell.GoesOn shell') :
    (∃ texts, Compilation.Clean texts shell.session.handle) ∧
    ∀ texts, Compilation.Clean texts shell.session.handle →
      (∀ (name : String) (found : Program.GlobalVariable),
        shell.session.compilation.program.scope.vars[name]? = some found →
          ∃ identifier, identifier.text = name ∧
            variableOf texts found.id = some (identifier, found.readOnly)) ∧
      (∀ id, ReadOnly texts id →
        shell'.session.globals[id]? = shell.session.globals[id]?) ∧
      ∀ (fuel : Nat) (files : FileSystem) (line : String) (reply : Reply Outcome),
        Task.of files line ≠ .reset → shell.submit fuel files line = some reply →
          ∀ id, reply.shell.session.globals[id]? ≠ shell.session.globals[id]? →
            id.generation = texts.length + 1 ∨ Writable texts id := by
  refine ⟨clean_of_reachable reachable, fun texts clean => ⟨?_, ?_, ?_⟩⟩
  · exact (Compilation.guarded_of_clean clean).vars
  · exact (goesOn.spares clean).2
  · exact fun fuel files line reply hn hs => (proceeds_submit clean hn hs).globals

/-- A read-only variable is shadowed, and a function that reads it is called. -/
theorem readOnly_permanent_shadowed :
    ∃ (shell shell' : Shell) (texts : List String), shell.Reachable ∧ shell.GoesOn shell' ∧
      Compilation.Clean texts shell.session.handle ∧ ReadOnly texts ⟨1, 0⟩ ∧
      shell.session.globals[(⟨1, 0⟩ : VariableId)]? = some (.integer 1) ∧
      shell'.session.globals[(⟨2, 0⟩ : VariableId)]? = some (.integer 3) ∧
      shell'.session.globals[(⟨1, 0⟩ : VariableId)]? = some (.integer 1) := by
  obtain ⟨reply, hs, hreply⟩ : ∃ reply, (Shell.fresh "s").submit 9 .empty
      "let a = 1 function f() { return a }" = some reply ∧
        (decide (reply.shell.session.compilation.program.scope.vars["a"]? =
            some ⟨⟨1, 0⟩, true⟩) &&
          decide (reply.shell.session.globals[(⟨1, 0⟩ : VariableId)]? = some (.integer 1)) &&
          (reply.shell.submit 9 reply.files "var a = f() + 2").any fun reply' =>
            decide (reply'.shell.session.globals[(⟨2, 0⟩ : VariableId)]? =
              some (.integer 3))) = true :=
    (Option.any_eq_true _ _).1 (by decide +kernel)
  simp only [Bool.and_eq_true, decide_eq_true_eq, Option.any_eq_true] at hreply
  obtain ⟨⟨hvisible, hvalue⟩, reply', hs', hvalue'⟩ := hreply
  have reachable : reply.shell.Reachable := .submit (.fresh "s") hs
  have htask : Task.of reply.files "var a = f() + 2" ≠ .reset := by
    have hprogram : Task.of reply.files "var a = f() + 2" = .program "var a = f() + 2" := by
      rw [Task.of, if_neg (by decide +kernel), if_neg (by decide +kernel)]
    rw [hprogram]
    exact Task.noConfusion
  have goesOn : reply.shell.GoesOn reply'.shell := .submit (.refl _) htask hs'
  obtain ⟨⟨texts, clean⟩, permanent⟩ := readOnly_permanent reachable goesOn
  obtain ⟨numbered, same, -⟩ := permanent texts clean
  obtain ⟨identifier, -, hreadOnly⟩ := numbered "a" _ hvisible
  have readOnly : ReadOnly texts ⟨1, 0⟩ := ⟨identifier, hreadOnly⟩
  exact ⟨reply.shell, reply'.shell, texts, reachable, goesOn, clean, readOnly, hvalue, hvalue',
    (same _ readOnly).trans hvalue⟩

end Shell

end ReplayShell
