import ReplayShell.Proofs.Links

/-!
# What the names stand for

A name of the top level stands for a function or for a variable, whichever was declared last.

* `GlobalScope.meaning` is what a name stands for in a scope, `latest` the last of its declarations
  in a list.
* `meaning_resolve`: after a submission, right or wrong, a name stands for the last of its
  declarations there, and for what it stood for before if there is none.
-/
namespace ReplayShell

/-- The names that a submission declares at the top level, in any way. -/
def Syntax.Submission.names (submission : Syntax.Submission) : List String :=
  (Program.functionDeclarations submission.members).map (fun declaration =>
      declaration.identifier.text) ++
    submission.globals.map fun entry => entry.1.text

namespace Program

open Syntax (Token FunctionDeclaration)

/-- What a name of the top level stands for. -/
inductive Meaning where
  | function (symbol : FunctionSymbol)
  | variable (found : GlobalVariable)
  deriving DecidableEq, Repr

/-! ## The last declaration of a name -/

/-- What the last of the declarations of a name makes of it. -/
def latest (declarations : List (String × Meaning)) (name : String) : Option Meaning :=
  declarations.reverse.lookup name

theorem latest_append (earlier later : List (String × Meaning)) (name : String) :
    latest (earlier ++ later) name = (latest later name).or (latest earlier name) := by
  rw [latest, List.reverse_append, List.lookup_append]
  rfl

theorem latest_singleton (declared : String) (meaning : Meaning) (name : String) :
    latest [(declared, meaning)] name = if declared = name then some meaning else none := by
  by_cases hn : declared = name
  · simp [latest, hn]
  · have hb : (name == declared) = false := beq_eq_false_iff_ne.2 (Ne.symm hn)
    simp [latest, List.lookup_cons, hb, hn]

theorem latest_cons (declared : String) (meaning : Meaning) (rest : List (String × Meaning))
    (name : String) : latest ((declared, meaning) :: rest) name =
      (latest rest name).or (if declared = name then some meaning else none) := by
  rw [← List.singleton_append, latest_append, latest_singleton]

theorem latest_eq_none {declarations : List (String × Meaning)} {name : String}
    (h : ∀ entry ∈ declarations, entry.1 ≠ name) : latest declarations name = none := by
  refine List.lookup_eq_none_iff.2 fun entry he => bne_iff_ne.2 (Ne.symm ?_)
  exact h entry (List.mem_reverse.1 he)

theorem mem_of_latest {declarations : List (String × Meaning)} {name : String} {meaning : Meaning}
    (h : latest declarations name = some meaning) : (name, meaning) ∈ declarations := by
  obtain ⟨front, back, hs, -⟩ := List.lookup_eq_some_iff.1 h
  exact List.mem_reverse.1 (hs ▸ List.mem_append_right _ List.mem_cons_self)

/-- Where no name is declared twice, the last declaration of a name is the only one. -/
theorem latest_eq_some_iff {declarations : List (String × Meaning)}
    (hd : (declarations.map Prod.fst).Nodup) {name : String} {meaning : Meaning} :
    latest declarations name = some meaning ↔ (name, meaning) ∈ declarations := by
  refine ⟨mem_of_latest, fun hm => ?_⟩
  induction declarations with
  | nil => exact absurd hm List.not_mem_nil
  | cons first rest ih =>
    obtain ⟨hfirst, hrest⟩ := List.nodup_cons.1 hd
    rw [latest_cons]
    rcases List.mem_cons.1 hm with heq | hm
    · have hnone : latest rest name = none :=
        latest_eq_none fun entry he hn => hfirst (List.mem_map.2 ⟨entry, he, by rw [hn, ← heq]⟩)
      rw [hnone, ← heq, Option.none_or, if_pos rfl]
    · rw [ih hrest hm, Option.some_or]

/-! ## Scopes -/

namespace GlobalScope

/-- What a name stands for. -/
def meaning (scope : GlobalScope) (name : String) : Option Meaning :=
  (scope.functions[name]?.map .function).or (scope.vars[name]?.map .variable)

theorem meaning_insertFunction (scope : GlobalScope) (symbol : FunctionSymbol)
    (name other : String) :
    meaning ⟨scope.vars.erase name, scope.functions.insert name symbol⟩ other =
      (if name = other then some (.function symbol) else none).or (scope.meaning other) := by
  simp only [meaning, Std.ExtTreeMap.getElem?_insert, Std.ExtTreeMap.getElem?_erase,
    Std.compare_eq_iff_eq]
  split <;> rfl

theorem meaning_insertVariable (scope : GlobalScope) (found : GlobalVariable)
    (name other : String) :
    meaning ⟨scope.vars.insert name found, scope.functions.erase name⟩ other =
      (if name = other then some (.variable found) else none).or (scope.meaning other) := by
  simp only [meaning, Std.ExtTreeMap.getElem?_insert, Std.ExtTreeMap.getElem?_erase,
    Std.compare_eq_iff_eq]
  split <;> rfl

theorem meaning_function {scope : GlobalScope} {name : String} {symbol : FunctionSymbol} :
    scope.meaning name = some (.function symbol) ↔ scope.functions[name]? = some symbol := by
  unfold meaning
  cases scope.functions[name]? <;> cases scope.vars[name]? <;> simp

/-- A name that is apart stands for a variable if it is one. -/
theorem Tidy.meaning_variable {scope : GlobalScope} {given : VariableId → Prop}
    (tidy : scope.Tidy given) {name : String} {found : GlobalVariable} :
    scope.meaning name = some (.variable found) ↔ scope.vars[name]? = some found := by
  unfold meaning
  cases hf : scope.functions[name]? with
  | none => simp
  | some symbol => simp [tidy.apart name symbol hf]

end GlobalScope

/-! ## Submissions -/

/-- The declarations of functions. -/
def functionMeanings (declared : List (FunctionSymbol × FunctionDeclaration)) :
    List (String × Meaning) :=
  declared.map fun entry => (entry.1.name, .function entry.1)

/-- The declarations of global variables, numbered from `ordinal`. -/
def variableMeanings (generation : Nat) : (ordinal : Nat) → List (Token × Bool) →
    List (String × Meaning)
  | _, [] => []
  | ordinal, (identifier, readOnly) :: rest =>
    (identifier.text, .variable ⟨⟨generation, ordinal⟩, readOnly⟩) ::
      variableMeanings generation (ordinal + 1) rest

theorem map_fst_variableMeanings (generation ordinal : Nat) (globals : List (Token × Bool)) :
    (variableMeanings generation ordinal globals).map Prod.fst =
      globals.map fun entry => entry.1.text := by
  induction globals generalizing ordinal with
  | nil => rfl
  | cons entry rest ih => rw [variableMeanings, List.map_cons, List.map_cons, ih]

theorem mem_variableMeanings {generation ordinal : Nat} {globals : List (Token × Bool)}
    {name : String} {meaning : Meaning} :
    (name, meaning) ∈ variableMeanings generation ordinal globals ↔
      ∃ index identifier readOnly, globals[index]? = some (identifier, readOnly) ∧
        name = identifier.text ∧
        meaning = .variable ⟨⟨generation, ordinal + index⟩, readOnly⟩ := by
  induction globals generalizing ordinal with
  | nil => simp [variableMeanings]
  | cons entry rest ih =>
    rw [variableMeanings, List.mem_cons, ih]
    constructor
    · rintro (heq | ⟨index, identifier, readOnly, hg, hn, hm⟩)
      · cases heq
        exact ⟨0, entry.1, entry.2, rfl, rfl, rfl⟩
      · exact ⟨index + 1, identifier, readOnly, hg, hn, by rw [hm]; congr 3; omega⟩
    · rintro ⟨index, identifier, readOnly, hg, rfl, rfl⟩
      cases index with
      | zero =>
        cases hg
        exact .inl rfl
      | succ index => exact .inr ⟨index, identifier, readOnly, hg, rfl, by congr 3; omega⟩

namespace DeclaresInTurn

variable {env env' : Environment} {ordinal : Nat} {declarations : List FunctionDeclaration}
  {declared : List (FunctionSymbol × FunctionDeclaration)} {problems : List Diagnostic}

/-- Functions are declared under their own names, each of which is new. -/
theorem names (h : DeclaresInTurn env ordinal declarations declared env' problems) :
    ∀ entry ∈ declared, entry.1.name = entry.2.identifier.text ∧ entry.1.name ∉ env.declared := by
  induction h with
  | nil => exact fun entry he => absurd he List.not_mem_nil
  | skip _ _ ih => exact ih
  | declare _ ht _ ih =>
    intro entry he
    rcases List.mem_cons.1 he with rfl | he
    · exact ⟨rfl, ht⟩
    · exact (ih entry he).imp_right fun hd => mt (List.mem_cons_of_mem _) hd

theorem nodup (h : DeclaresInTurn env ordinal declarations declared env' problems) :
    ((functionMeanings declared).map Prod.fst).Nodup := by
  induction h with
  | nil => exact .nil
  | skip _ _ ih => exact ih
  | declare _ _ rest ih =>
    refine List.nodup_cons.2 ⟨fun hmem => ?_, ih⟩
    -- The names that come later are not this one.
    simp only [List.map_map, List.mem_map, Function.comp_apply] at hmem
    obtain ⟨entry, he, heq⟩ := hmem
    exact (rest.names entry he).2 (heq ▸ List.mem_cons_self)

theorem nextVariable (h : DeclaresInTurn env ordinal declarations declared env' problems) :
    env'.nextVariable = env.nextVariable := by
  induction h with
  | nil => rfl
  | skip _ _ ih => exact ih
  | declare _ _ _ ih => exact ih

theorem meaning (h : DeclaresInTurn env ordinal declarations declared env' problems)
    (name : String) : env'.globals.meaning name =
      (latest (functionMeanings declared) name).or (env.globals.meaning name) := by
  induction h with
  | nil => rfl
  | skip _ _ ih => exact ih
  | declare _ _ _ ih =>
    rw [ih, Environment.addFunction, GlobalScope.meaning_insertFunction]
    simp only [functionMeanings, List.map_cons, latest_cons, Option.or_assoc]

end DeclaresInTurn

theorem meaning_foldl_declare (env : Environment) (globals : List (Token × Bool)) (name : String) :
    (globals.foldl Environment.declare env).globals.meaning name =
      (latest (variableMeanings env.generation env.nextVariable globals) name).or
        (env.globals.meaning name) := by
  induction globals generalizing env with
  | nil => rfl
  | cons entry rest ih =>
    rw [List.foldl_cons, ih, Environment.declare, Environment.declareGlobal,
      GlobalScope.meaning_insertVariable, variableMeanings, latest_cons, Option.or_assoc]

variable (scope : GlobalScope) (generation : Nat) (submission : Syntax.Submission)

/-- The declarations of a submission that take effect: its functions, then its variables. -/
def declarations : List (String × Meaning) :=
  functionMeanings (declaredFunctions scope generation submission) ++
    variableMeanings generation 0 submission.globals

/-- A name stands for what a submission declares it as, or for what it stood for before. -/
theorem meaning_resolve (name : String) :
    (resolve scope generation submission).scope.meaning name =
      (latest (declarations scope generation submission) name).or (scope.meaning name) := by
  have hgeneration : (afterFunctions scope generation submission).outside.generation = generation :=
    (declares_afterFunctions scope generation submission).env_generation
  have hordinal : (afterFunctions scope generation submission).outside.nextVariable = 0 :=
    (inTurn_afterFunctions scope generation submission).nextVariable
  have hglobals : (resolve scope generation submission).scope =
      (afterStatements scope generation submission).outside.globals := rfl
  rw [hglobals, outside_afterStatements, meaning_foldl_declare, hgeneration, hordinal,
    declarations, latest_append, Option.or_assoc]
  exact congrArg _ ((inTurn_afterFunctions scope generation submission).meaning name)

theorem mem_names_of_declarations :
    ∀ entry ∈ declarations scope generation submission, entry.1 ∈ submission.names := by
  intro entry he
  rcases List.mem_append.1 he with he | he
  · obtain ⟨declared, hd, rfl⟩ := List.mem_map.1 he
    refine List.mem_append_left _ (List.mem_map.2 ⟨declared.2, ?_, ?_⟩)
    · exact (declares_afterFunctions scope generation submission).mem declared hd
    · exact ((inTurn_afterFunctions scope generation submission).names declared hd).1.symm
  · refine List.mem_append_right _ ?_
    rw [← map_fst_variableMeanings generation 0]
    exact List.mem_map.2 ⟨entry, he, rfl⟩

variable {scope generation submission}

/-- A name that a submission does not declare stands for what it stood for. -/
theorem meaning_resolve_of_not_mem {name : String} (h : name ∉ submission.names) :
    (resolve scope generation submission).scope.meaning name = scope.meaning name := by
  have hnone : latest (declarations scope generation submission) name = none :=
    latest_eq_none fun entry he hn => h (hn ▸ mem_names_of_declarations _ _ _ entry he)
  rw [meaning_resolve, hnone, Option.none_or]

/-- The name of a function stands for it, unless a variable of the submission takes the name. -/
theorem meaning_of_mem_functions {function : Function}
    (hf : function ∈ (resolve scope generation submission).functions)
    (hn : ∀ entry ∈ submission.globals, entry.1.text ≠ function.symbol.name) :
    (resolve scope generation submission).scope.meaning function.symbol.name =
      some (.function function.symbol) := by
  rw [functions_resolve] at hf
  obtain ⟨entry, he, rfl⟩ := List.mem_map.1 hf
  have hvariable :
      latest (variableMeanings generation 0 submission.globals) entry.1.name = none := by
    refine latest_eq_none fun declared hd heq => ?_
    obtain ⟨index, identifier, readOnly, hg, hname, -⟩ := mem_variableMeanings.1 hd
    exact hn _ (List.mem_of_getElem? hg) (hname.symm.trans heq)
  have hfunction : latest (functionMeanings (declaredFunctions scope generation submission))
      entry.1.name = some (.function entry.1) := by
    refine (latest_eq_some_iff (inTurn_afterFunctions scope generation submission).nodup).2 ?_
    exact List.mem_map.2 ⟨entry, he, rfl⟩
  show (resolve scope generation submission).scope.meaning entry.1.name = some (.function entry.1)
  rw [meaning_resolve, declarations, latest_append, hvariable, hfunction]
  rfl

end Program

namespace Compilation

/-! ## Along a chain -/

variable {previous : Option Compilation} {texts : List String} {name : String}

theorem meaning_of_mem_links {j : Nat} {link : Compilation}
    (h : (links previous texts)[j]? = some link)
    (hn : ∀ l ≤ j, ∀ text, texts[l]? = some text → name ∉ (Syntax.parse text).1.names) :
    link.program.scope.meaning name = (previous.getD empty).program.scope.meaning name := by
  induction texts generalizing previous j with
  | nil => cases h
  | cons text rest ih =>
    have first : (chain previous (Syntax.parse text)).program.scope.meaning name =
        (previous.getD empty).program.scope.meaning name :=
      Program.meaning_resolve_of_not_mem (hn 0 (Nat.zero_le j) text rfl)
    cases j with
    | zero =>
      cases h
      exact first
    | succ j =>
      refine (ih h fun l hl text ht => ?_).trans first
      exact hn (l + 1) (Nat.succ_le_succ hl) text ht

/-- A name goes on standing for what it stands for as long as it is not declared again. -/
theorem meaning_of_links {k j : Nat} {link link' : Compilation} (hkj : k ≤ j)
    (h : (links previous texts)[k]? = some link) (h' : (links previous texts)[j]? = some link')
    (hn : ∀ l, k < l → l ≤ j → ∀ text, texts[l]? = some text →
      name ∉ (Syntax.parse text).1.names) :
    link'.program.scope.meaning name = link.program.scope.meaning name := by
  rcases Nat.eq_or_lt_of_le hkj with rfl | hlt
  · rw [h] at h'
    cases h'
    rfl
  · rw [getElem?_links h hlt] at h'
    refine meaning_of_mem_links h' fun l hl text ht => ?_
    rw [List.getElem?_drop] at ht
    exact hn _ (by omega) (by omega) text ht

end Compilation

end ReplayShell
