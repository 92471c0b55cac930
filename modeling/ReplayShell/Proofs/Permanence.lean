import ReplayShell.Proofs.Meanings
import ReplayShell.Proofs.Symbols

/-!
# Functions keep their meaning

A body calls functions by their numbers, so nothing that is declared later changes what it does.

* `AgreesAt`: two maps of functions that agree on what code may call run it alike. `agreesAt` is
  the induction on the fuel.
* `Keeps` is what two compilations owe a function. `functions_permanent`: a link owes it to every
  function of those before it.
-/
namespace ReplayShell

namespace Program

/-! ## Runs that call the same functions -/

section
variable (functions functions' : FunctionMap) (reach : Reach)

/-- The maps agree on the functions that may be called, whose bodies keep to the reach. -/
structure Agree : Prop where
  lookup : ∀ id, reach.calls id → functions'[id]? = functions[id]?
  closed : ∀ (id : FunctionId) (function : Function), reach.calls id →
    functions[id]? = some function → Within reach (.statements function.body)

/-- The four parts of the evaluator do the same with code that keeps to the reach. -/
structure AgreesAt (fuel : Nat) : Prop where
  evaluate : ∀ depth expression machine, Within reach (.expression expression) →
    evaluate functions' fuel depth expression machine =
      evaluate functions fuel depth expression machine
  evaluateAll : ∀ depth span expressions machine, Within reach (.expressions expressions) →
    evaluateAll functions' fuel depth span expressions machine =
      evaluateAll functions fuel depth span expressions machine
  execute : ∀ depth statement machine, Within reach (.statement statement) →
    execute functions' fuel depth statement machine =
      execute functions fuel depth statement machine
  executeAll : ∀ depth statements machine, Within reach (.statements statements) →
    executeAll functions' fuel depth statements machine =
      executeAll functions fuel depth statements machine

variable {functions functions' reach}

theorem evaluate_agrees {fuel : Nat} (agree : Agree functions functions' reach)
    (ih : AgreesAt functions functions' reach fuel) (depth : Nat) (expression : Expression)
    (machine : Machine) (hw : Within reach (.expression expression)) :
    evaluate functions' (fuel + 1) depth expression machine =
      evaluate functions (fuel + 1) depth expression machine := by
  cases hw with
  | invalid => rfl
  | literal value => rfl
  | «variable» ref span => rfl
  | assignment _ hv => rw [evaluate, evaluate, ih.evaluate _ _ _ hv]
  | unary op span ho => rw [evaluate, evaluate, ih.evaluate _ _ _ ho]
  | binary op span hl hr =>
    have right := fun machine => ih.evaluate depth _ machine hr
    simp only [evaluate, ih.evaluate _ _ _ hl, right]
  | @call callee arguments name span ht ha =>
    rw [evaluate, evaluate, ih.evaluateAll _ _ _ _ ha]
    cases callee with
    | print => rfl
    | function id =>
      simp only [agree.lookup id ht]
      cases hf : functions[id]? with
      | none => rfl
      | some function =>
        have body := fun machine =>
          ih.executeAll (depth + 1) _ machine (agree.closed id function ht hf)
        simp only [body]

theorem evaluateAll_agrees {fuel : Nat} (ih : AgreesAt functions functions' reach fuel)
    (depth : Nat) (span : Span) (expressions : List Expression) (machine : Machine)
    (hw : Within reach (.expressions expressions)) :
    evaluateAll functions' (fuel + 1) depth span expressions machine =
      evaluateAll functions (fuel + 1) depth span expressions machine := by
  cases hw with
  | noExpressions => rfl
  | expressions hf hr =>
    have rest := fun machine => ih.evaluateAll depth span _ machine hr
    simp only [evaluateAll, ih.evaluate _ _ _ hf, rest]

theorem execute_agrees {fuel : Nat} (ih : AgreesAt functions functions' reach fuel) (depth : Nat)
    (statement : Statement) (machine : Machine) (hw : Within reach (.statement statement)) :
    execute functions' (fuel + 1) depth statement machine =
      execute functions (fuel + 1) depth statement machine := by
  cases hw with
  | block hb => exact ih.executeAll _ _ _ hb
  | declaration _ _ hv => rw [execute, execute, ih.evaluate _ _ _ hv]
  | conditional hc ht =>
    have branch := fun machine => ih.execute depth _ machine ht
    simp only [execute, ih.evaluate _ _ _ hc, branch]
  | conditionalElse hc ht he =>
    have branch := fun machine => ih.execute depth _ machine ht
    have otherwise := fun machine => ih.execute depth _ machine he
    simp only [execute, ih.evaluate _ _ _ hc, branch, otherwise]
  | loop hc hb =>
    have body := fun machine => ih.execute depth _ machine hb
    have again := fun machine => ih.execute depth _ machine (.loop hc hb)
    simp only [execute, ih.evaluate _ _ _ hc, body, again]
  | returnNothing => rfl
  | «return» hv => rw [execute, execute, ih.evaluate _ _ _ hv]
  | evaluation hv => rw [execute, execute, ih.evaluate _ _ _ hv]

theorem executeAll_agrees {fuel : Nat} (ih : AgreesAt functions functions' reach fuel)
    (depth : Nat) (statements : List Statement) (machine : Machine)
    (hw : Within reach (.statements statements)) :
    executeAll functions' (fuel + 1) depth statements machine =
      executeAll functions (fuel + 1) depth statements machine := by
  cases hw with
  | noStatements => rfl
  | statements hf hr =>
    have rest := fun machine => ih.executeAll depth _ machine hr
    simp only [executeAll, ih.execute _ _ _ hf, rest]

/-- Code does the same with both maps. -/
theorem agreesAt (agree : Agree functions functions' reach) (fuel : Nat) :
    AgreesAt functions functions' reach fuel := by
  induction fuel with
  | zero => exact ⟨fun _ _ _ _ => rfl, fun _ _ _ _ _ => rfl, fun _ _ _ _ => rfl, fun _ _ _ _ => rfl⟩
  | succ fuel ih =>
    exact ⟨evaluate_agrees agree ih, evaluateAll_agrees ih, execute_agrees ih, executeAll_agrees ih⟩

/-- Values as arguments reach nothing. -/
theorem within_literals (values : List Value) :
    Within reach (.expressions (values.map .literal)) := by
  induction values with
  | nil => exact .noExpressions
  | cons value rest ih => exact .expressions (.literal value) ih

end

end Program

namespace Compilation

open Program (Agree Function Machine agreesAt within_literals)
open Terminal (Output)

/-! ## Functions along a chain -/

/-- Both compilations have the function with its body, and a call of it with the same arguments does
the same on every machine: it ends alike, with the same variables, and prints the same. -/
structure Keeps (function : Function) (earlier later : Compilation) : Prop where
  stored : earlier.functions[function.symbol.id]? = some function
  kept : later.functions[function.symbol.id]? = some function
  call : ∀ (fuel depth : Nat) (name : String) (values : List Value) (span : Span)
    (machine : Machine),
    Program.evaluate later.functions fuel depth
        (.call name (.function function.symbol.id) (values.map .literal) span) machine =
      Program.evaluate earlier.functions fuel depth
        (.call name (.function function.symbol.id) (values.map .literal) span) machine

/-- The name is not declared again, neither as a variable of text `k` nor in the texts up to `j`. -/
structure NotRedeclared (texts : List String) (k j : Nat) (name : String) : Prop where
  own : ∀ text, texts[k]? = some text →
    ∀ entry ∈ (Syntax.parse text).1.globals, entry.1.text ≠ name
  later : ∀ l, k < l → l ≤ j → ∀ text, texts[l]? = some text →
    name ∉ (Syntax.parse text).1.names

variable {earlier later declaring : Compilation} {function : Function}

/-- A compilation that has all functions of another agrees with it on them. -/
theorem Extends.agree (h : Extends earlier later) (coherent : Coherent earlier) :
    Agree earlier.functions later.functions earlier.reach where
  lookup := fun id ⟨function, hf⟩ => (h id function hf).trans hf.symm
  closed := fun id function _ hf => coherent.closed id function hf

theorem keeps_of_extends (coherent : Coherent earlier) (h : Extends earlier later)
    (hf : earlier.functions[function.symbol.id]? = some function) :
    Keeps function earlier later where
  stored := hf
  kept := h _ _ hf
  call := fun fuel depth name values span machine =>
    (agreesAt (h.agree coherent) fuel).evaluate depth _ machine
      (.call name span ⟨function, hf⟩ (within_literals values))

variable {texts : List String} {k j : Nat}

/-- A link has the functions that it declares. -/
theorem getElem?_of_declared (hk : (links none texts)[k]? = some declaring)
    (hf : function ∈ declaring.program.functions) :
    declaring.functions[function.symbol.id]? = some function := by
  obtain ⟨under, text, -, below, rfl⟩ := exists_chain_of_links coherent_none hk
  exact (getElem?_functions_chain below _ _).2 (.inl ⟨hf, rfl⟩)

theorem generation_of_declared (hk : (links none texts)[k]? = some declaring)
    (hf : function ∈ declaring.program.functions) : function.symbol.id.generation = k + 1 := by
  have hgeneration : declaring.generation = 0 + k + 1 := generation_of_links hk
  obtain ⟨under, text, -, -, rfl⟩ := exists_chain_of_links coherent_none hk
  have hown := Program.generation_of_mem_functions _ _ _ hf
  rw [Nat.zero_add] at hgeneration
  exact hown.trans hgeneration

/-- The number of a function tells where it was declared. -/
theorem place_of_id {k' p p' : Nat} {declaring' : Compilation} {function' : Function}
    (hk : (links none texts)[k]? = some declaring)
    (hp : declaring.program.functions[p]? = some function)
    (hk' : (links none texts)[k']? = some declaring')
    (hp' : declaring'.program.functions[p']? = some function')
    (hid : function'.symbol.id = function.symbol.id) : k' = k ∧ p' = p := by
  have hgeneration := generation_of_declared hk (List.mem_of_getElem? hp)
  rw [← hid, generation_of_declared hk' (List.mem_of_getElem? hp')] at hgeneration
  obtain rfl : k' = k := Nat.succ.inj hgeneration
  rw [hk] at hk'
  cases hk'
  refine ⟨rfl, ?_⟩
  obtain ⟨under, text, -, -, rfl⟩ := exists_chain_of_links coherent_none hk
  have distinct := Program.pairwise_functions_resolve
    (under.getD empty).program.scope ((under.getD empty).generation + 1) (Syntax.parse text).1
  rw [List.pairwise_iff_getElem] at distinct
  obtain ⟨hlt, rfl⟩ := List.getElem?_eq_some_iff.1 hp
  obtain ⟨hlt', rfl⟩ := List.getElem?_eq_some_iff.1 hp'
  rcases Nat.lt_trichotomy p p' with h | h | h
  · exact absurd hid.symm (distinct p p' hlt hlt' h)
  · exact h.symm
  · exact absurd hid (distinct p' p hlt' hlt h)

/-- As long as its name is not declared again, the name of a function stands for it. -/
theorem visible_of_declared (hk : (links none texts)[k]? = some declaring)
    (hf : function ∈ declaring.program.functions) (hkj : k ≤ j)
    (hj : (links none texts)[j]? = some later)
    (hn : NotRedeclared texts k j function.symbol.name) :
    later.program.scope.functions[function.symbol.name]? = some function.symbol := by
  have hmeaning := meaning_of_links hkj hk hj hn.later
  obtain ⟨under, text, ht, -, rfl⟩ := exists_chain_of_links coherent_none hk
  rw [← Program.GlobalScope.meaning_function, hmeaning]
  exact Program.meaning_of_mem_functions hf (hn.own text ht)

/-- **Functions keep their meaning.** Let texts be compiled one on top of another, whether or not
they have diagnostics, and let text `k` declare a function. Every link from `k` on has its body and
every call of it does what it did before; no other declaration has its number; and as long as its
name is not declared again, the name is listed and dumped with the same text. -/
theorem functions_permanent {i p : Nat} (hki : k ≤ i) (hij : i ≤ j)
    (hk : (links none texts)[k]? = some declaring) (hi : (links none texts)[i]? = some earlier)
    (hj : (links none texts)[j]? = some later)
    (hp : declaring.program.functions[p]? = some function) :
    Keeps function earlier later ∧
    (∀ (k' p' : Nat) (declaring' : Compilation) (function' : Function),
      (links none texts)[k']? = some declaring' →
        declaring'.program.functions[p']? = some function' →
          function'.symbol.id = function.symbol.id → k' = k ∧ p' = p) ∧
    (NotRedeclared texts k j function.symbol.name →
      earlier.functionListing function.symbol.name = function.listing ∧
        later.functionListing function.symbol.name = function.listing ∧
          ∀ (shell : Shell) (files : FileSystem), shell.session.compilation = later →
            shell.dump files function.symbol.name =
              shell.answer files (Output.plain function.listing)) := by
  have hf := List.mem_of_getElem? hp
  have hstored : earlier.functions[function.symbol.id]? = some function :=
    extends_of_links coherent_none hki hk hi _ _ (getElem?_of_declared hk hf)
  have coherent : Coherent earlier :=
    coherent_of_mem_links coherent_none earlier (List.mem_of_getElem? hi)
  have keeps : Keeps function earlier later :=
    keeps_of_extends coherent (extends_of_links coherent_none hij hi hj) hstored
  refine ⟨keeps, fun k' p' declaring' function' hk' hp' hid => place_of_id hk hp hk' hp' hid,
    fun hn => ?_⟩
  have hbefore : NotRedeclared texts k i function.symbol.name :=
    ⟨hn.own, fun l hkl hli => hn.later l hkl (Nat.le_trans hli hij)⟩
  have visible := visible_of_declared hk hf hki hi hbefore
  have visible' := visible_of_declared hk hf (Nat.le_trans hki hij) hj hn
  refine ⟨functionListing_eq visible keeps.stored, functionListing_eq visible' keeps.kept, ?_⟩
  rintro shell files rfl
  have coherent' := coherent_of_mem_links coherent_none _ (List.mem_of_getElem? hj)
  exact Shell.dump_function coherent' files visible' keeps.kept

/-- What `f` calls is declared anew after a text that is wrong: `f` goes on calling the first `g`. -/
theorem functions_permanent_calleeRedefined :
    ∃ texts : List String, texts = ["function g() { return 1 } function f() { return g() }",
        "f(", "function g() { return 2 }"] ∧
      ∃ earlier later function, (links none texts)[1]? = some earlier ∧
        (links none texts)[2]? = some later ∧ earlier.diagnostics ≠ [] ∧
        function.symbol.name = "f" ∧ Keeps function earlier later ∧
        later.functionListing "f" = function.listing := by
  obtain ⟨texts, htexts⟩ : ∃ texts : List String, texts =
    ["function g() { return 1 } function f() { return g() }", "f(",
      "function g() { return 2 }"] := ⟨_, rfl⟩
  have declared : (((links none texts)[0]?.bind fun link => link.program.functions[1]?).map
      fun function => function.symbol.name) = some "f" := by
    subst htexts
    decide +kernel
  obtain ⟨function, hbind, hname⟩ := Option.map_eq_some_iff.1 declared
  obtain ⟨declaring, hk, hp⟩ := Option.bind_eq_some_iff.1 hbind
  have wrong : ((links none texts)[1]?.map fun link => link.diagnostics.isEmpty) = some false := by
    subst htexts
    decide +kernel
  obtain ⟨earlier, hi, hwrong⟩ := Option.map_eq_some_iff.1 wrong
  obtain ⟨later, hj⟩ : ∃ later, (links none texts)[2]? = some later := by
    subst htexts
    exact ⟨_, rfl⟩
  have hn : NotRedeclared texts 0 2 function.symbol.name := by
    rw [hname]
    subst htexts
    refine ⟨fun text ht => ?_, fun l hl hl' text ht => ?_⟩
    · cases ht
      decide +kernel
    · obtain rfl | rfl : l = 1 ∨ l = 2 := by omega
      · cases ht
        decide +kernel
      · cases ht
        decide +kernel
  obtain ⟨keeps, -, hdump⟩ := functions_permanent (Nat.zero_le 1) (Nat.le_succ 1) hk hi hj hp
  refine ⟨texts, htexts, earlier, later, function, hi, hj, fun h => ?_, hname, keeps, ?_⟩
  · rw [h] at hwrong
    cases hwrong
  · rw [← hname]
    exact (hdump hn).2.1

end Compilation

end ReplayShell
