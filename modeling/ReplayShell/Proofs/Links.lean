import Mathlib.Data.List.Induction
import ReplayShell.Proofs.Reach

/-!
# Chains of any texts

Every submission is compiled on top of the last accepted one, but a compilation can be chained on
any other, also on one with diagnostics.

* `links` are the compilations of texts, one on top of another.
* `Coherent` is what holds of each of them, right or wrong: names are apart, functions are stored
  under their own numbers, and what is visible or called has a body. `coherent_chain` is the step,
  `coherent_of_mem_links` the whole chain.
* `Extends` says that all functions are still there, as they were. `extends_of_links`: a link
  extends those before it.
-/
namespace ReplayShell.Compilation

open Program (Function FunctionSymbol Reach Within)

/-- The compilations of texts, each on top of the one before and the first on top of `previous`. -/
def links (previous : Option Compilation) : List String → List Compilation
  | [] => []
  | text :: rest =>
    let link := chain previous (Syntax.parse text)
    link :: links (some link) rest

/-- The last text is compiled on top of what the others come to. -/
theorem links_concat (previous : Option Compilation) (texts : List String) (text : String) :
    links previous (texts ++ [text]) = links previous texts ++
      [chain ((links previous texts).getLast?.or previous) (Syntax.parse text)] := by
  induction texts generalizing previous with
  | nil => rfl
  | cons first rest ih =>
    have hlast : ∀ (link : Compilation) (later : List Compilation),
        (link :: later).getLast?.or previous = later.getLast?.or (some link) := by
      intro link later
      rw [List.getLast?_cons]
      cases later.getLast? <;> rfl
    simp only [links, List.cons_append, ih, hlast]

/-- A chain without a diagnostic is clean. -/
theorem clean_of_links {texts : List String}
    (h : ∀ link ∈ links none texts, link.diagnostics = []) :
    Clean texts (links none texts).getLast? := by
  induction texts using List.reverseRecOn with
  | nil => exact .nothing
  | append_singleton texts text ih =>
    rw [links_concat, Option.or_none] at h ⊢
    have below := ih fun link hl => h link (List.mem_append_left _ hl)
    have hlast := h _ (List.mem_append_right _ List.mem_cons_self)
    rw [List.getLast?_concat]
    exact .text below hlast

/-- The links are numbered from that of the compilation below. -/
theorem generation_of_links {previous : Option Compilation} {texts : List String} {index : Nat}
    {link : Compilation} (h : (links previous texts)[index]? = some link) :
    link.generation = (previous.getD empty).generation + index + 1 := by
  induction texts generalizing previous index with
  | nil => cases h
  | cons text rest ih =>
    cases index with
    | zero =>
      cases h
      rfl
    | succ index =>
      have hrest := ih h
      simp only [Option.getD_some, chain] at hrest
      omega

/-! ## What holds of every compilation -/

/-- The functions that have bodies may be called, and all variables may be set. -/
def reach (compilation : Compilation) : Reach where
  calls := fun id => ∃ function, compilation.functions[id]? = some function
  sets := fun _ => True

/-- The names and the functions of a compilation fit together. -/
structure Coherent (compilation : Compilation) : Prop where
  tidy : compilation.program.scope.Tidy fun id => id.generation ≤ compilation.generation
  stored : ∀ (id : FunctionId) (function : Function),
    compilation.functions[id]? = some function →
      function.symbol.id = id ∧ id.generation ≤ compilation.generation
  /-- A visible function has a body. -/
  visible : ∀ (name : String) (symbol : FunctionSymbol),
    compilation.program.scope.functions[name]? = some symbol →
      ∃ function, compilation.functions[symbol.id]? = some function ∧ function.symbol = symbol
  /-- Bodies call only functions that have bodies. -/
  closed : ∀ (id : FunctionId) (function : Function),
    compilation.functions[id]? = some function →
      Within compilation.reach (.statements function.body)

/-- All functions of the first compilation are in the second, with the same bodies. -/
def Extends (compilation compilation' : Compilation) : Prop :=
  ∀ (id : FunctionId) (function : Function),
    compilation.functions[id]? = some function → compilation'.functions[id]? = some function

theorem Extends.refl (compilation : Compilation) : Extends compilation compilation :=
  fun _ _ h => h

theorem Extends.trans {compilation compilation' compilation'' : Compilation}
    (h : Extends compilation compilation') (h' : Extends compilation' compilation'') :
    Extends compilation compilation'' :=
  fun id function hf => h' id function (h id function hf)

theorem coherent_empty : Coherent empty := by
  refine ⟨.empty, fun id function h => ?_, fun name symbol h => ?_, fun id function h => ?_⟩ <;>
  · rw [empty, Std.ExtTreeMap.getElem?_empty] at h
    cases h

variable {previous : Option Compilation} {tree : Syntax.Submission × List Diagnostic}

/-- The functions of a compilation are its own and those below. -/
theorem getElem?_functions_chain (below : Coherent (previous.getD empty)) (id : FunctionId)
    (function : Function) :
    (chain previous tree).functions[id]? = some function ↔
      (function ∈ (chain previous tree).program.functions ∧ function.symbol.id = id) ∨
        (previous.getD empty).functions[id]? = some function := by
  have distinct : (chain previous tree).program.functions.Pairwise
      fun f g => f.symbol.id ≠ g.symbol.id := Program.pairwise_functions_resolve ..
  refine (Program.getElem?_foldl_insert distinct id function).trans (or_congr_right ?_)
  refine ⟨And.right, fun hbelow => ⟨fun f hf heq => ?_, hbelow⟩⟩
  -- A new function has a number of the new generation.
  have hnew : f.symbol.id.generation = (previous.getD empty).generation + 1 :=
    Program.generation_of_mem_functions _ _ _ hf
  have hold := (below.stored id function hbelow).2
  rw [heq] at hnew
  omega

theorem extends_chain (below : Coherent (previous.getD empty)) :
    Extends (previous.getD empty) (chain previous tree) :=
  fun id function h => (getElem?_functions_chain below id function).2 (.inr h)

/-- A function that is visible after a submission has a body. -/
theorem visible_chain (below : Coherent (previous.getD empty)) (name : String)
    (symbol : FunctionSymbol)
    (h : (chain previous tree).program.scope.functions[name]? = some symbol) :
    ∃ function, (chain previous tree).functions[symbol.id]? = some function ∧
      function.symbol = symbol := by
  rcases Program.visible_resolve _ h with h | ⟨function, hm, rfl⟩
  · obtain ⟨function, hf, hs⟩ := below.visible name symbol h
    exact ⟨function, extends_chain below _ _ hf, hs⟩
  · exact ⟨function, (getElem?_functions_chain below _ _).2 (.inl ⟨hm, rfl⟩), rfl⟩

/-- Compiling on top of what fits together makes something that does. -/
theorem coherent_chain (below : Coherent (previous.getD empty)) :
    Coherent (chain previous tree) where
  tidy := by
    refine Program.tidy_resolve _ (below.tidy.widen fun id h => ?_)
    exact Nat.lt_succ_of_le h
  stored := by
    intro id function h
    rcases (getElem?_functions_chain below id function).1 h with ⟨hm, hid⟩ | h
    · refine ⟨hid, Nat.le_of_eq ?_⟩
      rw [← hid]
      exact Program.generation_of_mem_functions _ _ _ hm
    · exact (below.stored id function h).imp_right Nat.le_succ_of_le
  visible := visible_chain below
  closed := by
    intro id function h
    rcases (getElem?_functions_chain below id function).1 h with ⟨hm, -⟩ | h
    · refine Program.within_functions (fun name symbol h => ?_) (fun _ _ _ _ => trivial) function hm
      obtain ⟨callee, hc, -⟩ := visible_chain below name symbol h
      exact ⟨callee, hc⟩
    · refine (below.closed id function h).mono ⟨?_, fun _ _ => trivial⟩
      exact fun callee ⟨body, hb⟩ => ⟨body, extends_chain below _ _ hb⟩

/-- No two names of functions share a number. -/
theorem Coherent.function_distinct {compilation : Compilation} (coherent : Coherent compilation)
    {name name' : String} {symbol symbol' : FunctionSymbol}
    (h : compilation.program.scope.functions[name]? = some symbol)
    (h' : compilation.program.scope.functions[name']? = some symbol')
    (hid : symbol.id = symbol'.id) : name = name' := by
  obtain ⟨function, hf, rfl⟩ := coherent.visible name symbol h
  obtain ⟨function', hf', rfl⟩ := coherent.visible name' symbol' h'
  rw [hid, hf'] at hf
  cases hf
  exact (coherent.tidy.named name _ h).symm.trans (coherent.tidy.named name' _ h')

/-! ## Along a chain -/

/-- Nothing has been compiled yet. -/
theorem coherent_none : Coherent ((none : Option Compilation).getD empty) := coherent_empty

variable {texts : List String}

theorem coherent_of_mem_links (below : Coherent (previous.getD empty)) :
    ∀ link ∈ links previous texts, Coherent link := by
  induction texts generalizing previous with
  | nil => exact fun link h => absurd h List.not_mem_nil
  | cons text rest ih =>
    have first : Coherent ((some (chain previous (Syntax.parse text))).getD empty) :=
      coherent_chain below
    intro link h
    rcases List.mem_cons.1 h with rfl | h
    · exact first
    · exact ih first link h

/-- A link is the compilation of its text on top of another that fits together. -/
theorem exists_chain_of_links (below : Coherent (previous.getD empty)) {index : Nat}
    {link : Compilation} (h : (links previous texts)[index]? = some link) :
    ∃ (under : Option Compilation) (text : String), texts[index]? = some text ∧
      Coherent (under.getD empty) ∧ link = chain under (Syntax.parse text) := by
  induction texts generalizing previous index with
  | nil => cases h
  | cons text rest ih =>
    cases index with
    | zero =>
      cases h
      exact ⟨previous, text, rfl, below, rfl⟩
    | succ index =>
      have first : Coherent ((some (chain previous (Syntax.parse text))).getD empty) :=
        coherent_chain below
      exact ih first h

theorem extends_of_mem_links (below : Coherent (previous.getD empty)) :
    ∀ link ∈ links previous texts, Extends (previous.getD empty) link := by
  induction texts generalizing previous with
  | nil => exact fun link h => absurd h List.not_mem_nil
  | cons text rest ih =>
    have first : Coherent ((some (chain previous (Syntax.parse text))).getD empty) :=
      coherent_chain below
    have step : Extends (previous.getD empty) (chain previous (Syntax.parse text)) :=
      extends_chain below
    intro link h
    rcases List.mem_cons.1 h with rfl | h
    · exact step
    · exact step.trans (ih first link h)

/-- What comes after a link is compiled on top of it. -/
theorem drop_links {i : Nat} {link : Compilation} (h : (links previous texts)[i]? = some link) :
    (links previous texts).drop (i + 1) = links (some link) (texts.drop (i + 1)) := by
  induction texts generalizing previous i with
  | nil => cases h
  | cons text rest ih =>
    cases i with
    | zero =>
      cases h
      rfl
    | succ i => exact ih h

theorem getElem?_links {i j : Nat} {link : Compilation}
    (h : (links previous texts)[i]? = some link) (hij : i < j) :
    (links previous texts)[j]? = (links (some link) (texts.drop (i + 1)))[j - (i + 1)]? := by
  rw [← drop_links h, List.getElem?_drop, Nat.add_sub_cancel' hij]

/-- A link has all functions of those before it. -/
theorem extends_of_links (below : Coherent (previous.getD empty)) {i j : Nat} (hij : i ≤ j)
    {link link' : Compilation} (h : (links previous texts)[i]? = some link)
    (h' : (links previous texts)[j]? = some link') : Extends link link' := by
  rcases Nat.eq_or_lt_of_le hij with rfl | hlt
  · rw [h] at h'
    cases h'
    exact .refl _
  · have coherent : Coherent ((some link).getD empty) :=
      coherent_of_mem_links below link (List.mem_of_getElem? h)
    rw [getElem?_links h hlt] at h'
    exact extends_of_mem_links coherent link' (List.mem_of_getElem? h')

end ReplayShell.Compilation
