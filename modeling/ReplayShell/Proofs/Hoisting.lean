import Mathlib.Data.List.Pairwise
import ReplayShell.Proofs.Printing
import ReplayShell.Proofs.RecastRuns
import ReplayShell.Proofs.Symbols

/-!
# Functions are hoisted

The functions of a submission are declared before anything else is resolved. So neither their order
nor where they stand among its statements matters.

* `DeclaresInTurn.adds` says what functions declared one after another leave behind.
* `Rearranges` says that two submissions differ in the order of their functions, and in places.
* `renumbering` takes the numbers of the one submission to those of the other. Under it names stand
  for the same, `SideBySide.alike_afterFunctions`, and functions have the same bodies,
  `Compilation.renumbered`.
* `functions_hoisted`: such submissions are accepted together, list the same names and run alike.
-/
namespace ReplayShell

namespace Program

open Syntax (Token FunctionDeclaration Submission)

/-! ## What declaring functions leaves behind -/

/-- What functions that have been declared, numbered from `ordinal`, leave behind. -/
structure Adds (env : Environment) (ordinal : Nat)
    (declared : List (FunctionSymbol × FunctionDeclaration)) (env' : Environment) : Prop where
  rest : env' = { env with globals := env'.globals, declared := env'.declared }
  numbers : ∀ id : FunctionId, (∃ entry ∈ declared, entry.1.id = id) ↔
    id.generation = env.generation ∧ ordinal ≤ id.ordinal ∧ id.ordinal < ordinal + declared.length
  named : ∀ entry ∈ declared, entry.1.name = entry.2.identifier.text
  fresh : ∀ entry ∈ declared, entry.1.name ∉ env.declared
  taken : ∀ name, name ∈ env'.declared ↔
    (∃ entry ∈ declared, entry.1.name = name) ∨ name ∈ env.declared
  own : ∀ entry ∈ declared, env'.globals.functions[entry.1.name]? = some entry.1 ∧
    env'.globals.vars[entry.1.name]? = none
  others : ∀ name : String, (∀ entry ∈ declared, entry.1.name ≠ name) →
    env'.globals.functions[name]? = env.globals.functions[name]? ∧
      env'.globals.vars[name]? = env.globals.vars[name]?

theorem adds_nil (env : Environment) (ordinal : Nat) : Adds env ordinal [] env where
  rest := rfl
  numbers id := by
    refine ⟨fun ⟨_, h, _⟩ => absurd h List.not_mem_nil, fun h => ?_⟩
    rw [List.length_nil] at h
    omega
  named := List.forall_mem_nil _
  fresh := List.forall_mem_nil _
  taken name := ⟨.inr, fun h => h.resolve_left fun ⟨_, h, _⟩ => absurd h List.not_mem_nil⟩
  own := List.forall_mem_nil _
  others _ _ := ⟨rfl, rfl⟩

/-- One more function comes before the others. -/
theorem Adds.cons {env env' : Environment} {ordinal : Nat} {declaration : FunctionDeclaration}
    {declared : List (FunctionSymbol × FunctionDeclaration)}
    (ht : declaration.identifier.text ∉ env.declared)
    (h : Adds (env.addFunction (env.symbolOf ordinal declaration)) (ordinal + 1) declared env') :
    Adds env ordinal ((env.symbolOf ordinal declaration, declaration) :: declared) env' where
  rest := h.rest
  numbers id := by
    have hrest := h.numbers id
    have hid : (env.symbolOf ordinal declaration).id = id ↔
        id.generation = env.generation ∧ id.ordinal = ordinal := by
      obtain ⟨generation, ordinal'⟩ := id
      simp [Environment.symbolOf, eq_comm]
    have hgeneration : (env.addFunction (env.symbolOf ordinal declaration)).generation =
        env.generation := rfl
    simp only [List.mem_cons, exists_eq_or_imp, hrest, hid, hgeneration, List.length_cons]
    omega
  named := List.forall_mem_cons.2 ⟨rfl, h.named⟩
  fresh := List.forall_mem_cons.2
    ⟨ht, fun entry he hd => h.fresh entry he (List.mem_cons_of_mem _ hd)⟩
  taken name := by
    simp only [h.taken, Environment.addFunction, List.mem_cons, exists_eq_or_imp, or_assoc,
      eq_comm (b := name)]
    exact or_left_comm
  own := by
    refine List.forall_mem_cons.2 ⟨?_, h.own⟩
    have hlater : ∀ entry ∈ declared,
        entry.1.name ≠ (env.symbolOf ordinal declaration).name := by
      intro entry he heq
      exact h.fresh entry he (heq ▸ List.mem_cons_self)
    obtain ⟨hf, hv⟩ := h.others _ hlater
    rw [hf, hv]
    simp [Environment.addFunction]
  others name hn := by
    obtain ⟨hfirst, hrest⟩ := List.forall_mem_cons.1 hn
    obtain ⟨hf, hv⟩ := h.others name hrest
    rw [hf, hv]
    simp [Environment.addFunction, Std.ExtTreeMap.getElem?_insert, Std.ExtTreeMap.getElem?_erase,
      hfirst]

theorem DeclaresInTurn.adds {env env' : Environment} {ordinal : Nat}
    {declarations : List FunctionDeclaration}
    {declared : List (FunctionSymbol × FunctionDeclaration)} {problems : List Diagnostic}
    (h : DeclaresInTurn env ordinal declarations declared env' problems) :
    Adds env ordinal declared env' := by
  induction h with
  | nil env ordinal => exact adds_nil env ordinal
  | skip _ _ ih => exact ih
  | declare _ ht _ ih => exact ih.cons ht

/-- The declarations that have a name. -/
def named (declarations : List FunctionDeclaration) : List FunctionDeclaration :=
  declarations.filter fun declaration => !declaration.identifier.missing

/-- The names that functions are given. -/
def givenNames (declarations : List FunctionDeclaration) : List String :=
  (named declarations).map fun declaration => declaration.identifier.text

/-- Declaring functions is a problem just if a name is given twice. If it is none, every function
with a name is declared. -/
theorem DeclaresInTurn.problems_eq_nil {env env' : Environment} {ordinal : Nat}
    {declarations : List FunctionDeclaration}
    {declared : List (FunctionSymbol × FunctionDeclaration)} {problems : List Diagnostic}
    (h : DeclaresInTurn env ordinal declarations declared env' problems) :
    (problems = [] ↔
      (givenNames declarations).Nodup ∧ ∀ name ∈ givenNames declarations, name ∉ env.declared) ∧
    (problems = [] → declared.map Prod.snd = named declarations) := by
  induction h with
  | nil => simp [givenNames, named]
  | @skip env env' ordinal declaration declarations declared problems h _ ih =>
    cases hm : declaration.identifier.missing with
    | true => simpa [givenNames, named, Environment.duplicate, hm] using ih
    | false =>
      have ht := h.resolve_left (by simp [hm])
      simp [givenNames, named, Environment.duplicate, hm, ht]
  | @declare env env' ordinal declaration declarations declared problems hm ht _ ih =>
    have hnamed : named (declaration :: declarations) = declaration :: named declarations := by
      simp [named, hm]
    have hnames : givenNames (declaration :: declarations) =
        declaration.identifier.text :: givenNames declarations := by
      rw [givenNames, hnamed, List.map_cons, givenNames]
    rw [hnames, hnamed, ih.1, List.nodup_cons, List.forall_mem_cons]
    refine ⟨?_, fun h => congrArg (declaration :: ·) (ih.2 (ih.1.2 h))⟩
    constructor
    · rintro ⟨hd, hf⟩
      have hfresh : ∀ name ∈ givenNames declarations,
          name ≠ declaration.identifier.text ∧ name ∉ env.declared :=
        fun name hn => not_or.1 fun h => hf name hn (List.mem_cons.2 h)
      exact ⟨⟨fun hm => (hfresh _ hm).1 rfl, hd⟩, ht, fun name hn => (hfresh name hn).2⟩
    · rintro ⟨⟨hn, hd⟩, -, hf⟩
      refine ⟨hd, fun name hname hm => ?_⟩
      rcases List.mem_cons.1 hm with rfl | hm
      · exact hn hname
      · exact hf name hname hm

end Program

/-! ## Submissions that differ in the order of their functions -/

/-- The submissions have the same statements in the same order, and the same functions in any order;
where all of these stand does not matter. -/
structure Syntax.Submission.Rearranges (a b : Syntax.Submission) : Prop where
  statements : Syntax.unplacedStatements (Program.topLevelStatements a.members) =
    Syntax.unplacedStatements (Program.topLevelStatements b.members)
  functions : ((Program.functionDeclarations a.members).map
      Syntax.FunctionDeclaration.unplaced).Perm
    ((Program.functionDeclarations b.members).map Syntax.FunctionDeclaration.unplaced)

theorem Syntax.Submission.Rearranges.symm {a b : Syntax.Submission} (h : a.Rearranges b) :
    b.Rearranges a :=
  ⟨h.statements.symm, h.functions.symm⟩

namespace Program

open Syntax (Token FunctionDeclaration Submission)

theorem named_map_unplaced (declarations : List FunctionDeclaration) :
    (named declarations).map FunctionDeclaration.unplaced =
      named (declarations.map FunctionDeclaration.unplaced) := by
  rw [named, named, List.filter_map]
  rfl

theorem givenNames_map_unplaced (declarations : List FunctionDeclaration) :
    givenNames (declarations.map FunctionDeclaration.unplaced) = givenNames declarations := by
  rw [givenNames, ← named_map_unplaced, List.map_map]
  rfl

section
variable (scope : GlobalScope) (generation : Nat) (a b : Submission)

theorem adds_afterFunctions : Adds { generation := generation, globals := scope } 0
    (declaredFunctions scope generation a) (afterFunctions scope generation a) :=
  (inTurn_afterFunctions scope generation a).adds

/-- The number that a function of the first submission has in the second: that of its name. -/
def renumbering (id : FunctionId) : FunctionId :=
  match (declaredFunctions scope generation a).find? fun entry => entry.1.id = id with
  | none => id
  | some entry =>
    ((afterFunctions scope generation b).globals.functions[entry.1.name]?.map
      FunctionSymbol.id).getD id

variable {scope generation a b}

/-- The numbers of other functions stay. -/
theorem renumbering_of_not_mem {id : FunctionId}
    (h : ∀ entry ∈ declaredFunctions scope generation a, entry.1.id ≠ id) :
    renumbering scope generation a b id = id := by
  have hnone : ((declaredFunctions scope generation a).find? fun entry => entry.1.id = id) = none :=
    List.find?_eq_none.2 fun entry he => by simpa using h entry he
  rw [renumbering, hnone]

theorem renumbering_of_old {id : FunctionId} (h : id.generation < generation) :
    renumbering scope generation a b id = id := by
  refine renumbering_of_not_mem fun entry he heq => ?_
  have hnew := (declares_afterFunctions scope generation a).generation entry he
  rw [heq] at hnew
  exact absurd hnew (Nat.ne_of_lt h)

/-- The functions of a submission are told apart by their numbers. -/
theorem eq_of_id_eq {entry entry' : FunctionSymbol × FunctionDeclaration}
    (he : entry ∈ declaredFunctions scope generation a)
    (he' : entry' ∈ declaredFunctions scope generation a) (h : entry.1.id = entry'.1.id) :
    entry = entry' := by
  have : Std.Symm fun entry entry' : FunctionSymbol × FunctionDeclaration =>
      entry.1.id ≠ entry'.1.id := ⟨fun _ _ => Ne.symm⟩
  by_contra hne
  exact (declares_afterFunctions scope generation a).distinct.forall he he' hne h

theorem renumbering_of_mem {entry : FunctionSymbol × FunctionDeclaration}
    (he : entry ∈ declaredFunctions scope generation a) :
    renumbering scope generation a b entry.1.id =
      ((afterFunctions scope generation b).globals.functions[entry.1.name]?.map
        FunctionSymbol.id).getD entry.1.id := by
  rw [renumbering]
  cases hfind : (declaredFunctions scope generation a).find? fun other =>
      other.1.id = entry.1.id with
  | none => exact absurd (decide_eq_true rfl) (List.find?_eq_none.1 hfind entry he)
  | some other =>
    have hid : other.1.id = entry.1.id := by simpa using List.find?_some hfind
    rw [eq_of_id_eq (List.mem_of_find?_eq_some hfind) he hid]

/-- A function is known under its new number to the second submission. -/
theorem recast_renumbering {entry entry' : FunctionSymbol × FunctionDeclaration}
    (he : entry ∈ declaredFunctions scope generation a)
    (he' : entry' ∈ declaredFunctions scope generation b)
    (h : entry.2.unplaced = entry'.2.unplaced) :
    entry.1.recast (renumbering scope generation a b) = entry'.1 := by
  have declares := declares_afterFunctions scope generation a
  have declares' := declares_afterFunctions scope generation b
  have adds := adds_afterFunctions scope generation a
  have adds' := adds_afterFunctions scope generation b
  have hname : entry.1.name = entry'.1.name := by
    rw [adds.named entry he, adds'.named entry' he']
    exact congrArg (fun declaration => declaration.identifier.text) h
  have hparameters : entry.1.parameters = entry'.1.parameters := by
    have htexts : ∀ declaration : FunctionDeclaration,
        declaration.unplaced.parameters.map Token.text = declaration.parameters.map Token.text :=
      fun declaration => List.map_map
    rw [declares.parameters entry he, declares'.parameters entry' he', ← htexts, h, htexts]
  have hid : renumbering scope generation a b entry.1.id = entry'.1.id := by
    rw [renumbering_of_mem he, hname, (adds'.own entry' he').1, Option.map_some, Option.getD_some]
  obtain ⟨⟨id, name, parameters⟩, declaration⟩ := entry
  exact congr (congrArg₂ FunctionSymbol.mk hid hname) hparameters

end

/-! ## Side by side -/

section
variable {scope : GlobalScope} {generation : Nat} {a b : Submission}

/-- The problems with the declarations of the functions of a submission. -/
def declarationProblems (scope : GlobalScope) (generation : Nat) (submission : Submission) :
    List Diagnostic :=
  (declareFunctions { generation := generation, globals := scope } 0
    (functionDeclarations submission.members)).2.2

theorem declarationProblems_eq_nil :
    declarationProblems scope generation a = [] ↔
      (givenNames (functionDeclarations a.members)).Nodup := by
  have h := (inTurn_afterFunctions scope generation a).problems_eq_nil.1
  exact h.trans (and_iff_left fun _ _ => List.not_mem_nil)

/-- The two submissions are resolved side by side, and no function of the first is declared
twice. -/
structure SideBySide (scope : GlobalScope) (generation : Nat) (a b : Submission) : Prop where
  rearranges : a.Rearranges b
  old : ∀ (name : String) (symbol : FunctionSymbol), scope.functions[name]? = some symbol →
    symbol.id.generation < generation
  clean : declarationProblems scope generation a = []

/-- The problems with the statements of a submission. -/
def statementProblems (scope : GlobalScope) (generation : Nat) (submission : Submission) :
    List Diagnostic :=
  (resolveStatements (afterFunctions scope generation submission)
    (topLevelStatements submission.members)).2.2

theorem diagnostics_resolve :
    (resolve scope generation a).diagnostics = [] ↔
      declarationProblems scope generation a = [] ∧ statementProblems scope generation a = [] ∧
        ∀ entry ∈ declaredFunctions scope generation a,
          (resolveFunction (afterStatements scope generation a) entry.1 entry.2).2 = [] := by
  have hfunctions : (resolveFunctions (afterStatements scope generation a)
      (declaredFunctions scope generation a)).2 = [] ↔
      ∀ entry ∈ declaredFunctions scope generation a,
        (resolveFunction (afterStatements scope generation a) entry.1 entry.2).2 = [] := by
    rw [resolveFunctions_eq, List.flatMap_eq_nil_iff]
  rw [← hfunctions, ← List.append_eq_nil_iff, ← List.append_eq_nil_iff]
  rfl

theorem named_perm (h : a.Rearranges b) :
    ((named (functionDeclarations a.members)).map FunctionDeclaration.unplaced).Perm
      ((named (functionDeclarations b.members)).map FunctionDeclaration.unplaced) := by
  rw [named_map_unplaced, named_map_unplaced]
  exact h.functions.filter _

namespace SideBySide

theorem symm (h : SideBySide scope generation a b) : SideBySide scope generation b a where
  rearranges := h.rearranges.symm
  old := h.old
  clean := by
    have hperm : (givenNames (functionDeclarations a.members)).Perm
        (givenNames (functionDeclarations b.members)) := by
      rw [← givenNames_map_unplaced, ← givenNames_map_unplaced (functionDeclarations b.members)]
      exact (h.rearranges.functions.filter _).map _
    exact declarationProblems_eq_nil.2 (hperm.nodup_iff.1 (declarationProblems_eq_nil.1 h.clean))

/-- Every function that has a name is declared. -/
theorem declarations (h : SideBySide scope generation a b) :
    (declaredFunctions scope generation a).map Prod.snd = named (functionDeclarations a.members) :=
  (inTurn_afterFunctions scope generation a).problems_eq_nil.2 h.clean

theorem counterpart (h : SideBySide scope generation a b)
    {entry : FunctionSymbol × FunctionDeclaration}
    (he : entry ∈ declaredFunctions scope generation a) :
    ∃ entry' ∈ declaredFunctions scope generation b, entry.2.unplaced = entry'.2.unplaced ∧
      entry.1.recast (renumbering scope generation a b) = entry'.1 := by
  have hm : entry.2.unplaced ∈
      (named (functionDeclarations b.members)).map FunctionDeclaration.unplaced := by
    refine (named_perm h.rearranges).subset (List.mem_map_of_mem ?_)
    rw [← h.declarations]
    exact List.mem_map_of_mem he
  rw [← h.symm.declarations, List.map_map] at hm
  obtain ⟨entry', he', hu⟩ := List.mem_map.1 hm
  exact ⟨entry', he', hu.symm, recast_renumbering he he' hu.symm⟩

/-- The same names are declared. -/
theorem exists_name (h : SideBySide scope generation a b) {name : String}
    (hn : ∃ entry ∈ declaredFunctions scope generation a, entry.1.name = name) :
    ∃ entry ∈ declaredFunctions scope generation b, entry.1.name = name := by
  obtain ⟨entry, he, rfl⟩ := hn
  obtain ⟨entry', he', -, hs⟩ := h.counterpart he
  exact ⟨entry', he', (congrArg FunctionSymbol.name hs).symm⟩

/-- The same numbers are given out. -/
theorem exists_number (h : SideBySide scope generation a b) {id : FunctionId} :
    (∃ entry ∈ declaredFunctions scope generation a, entry.1.id = id) ↔
      ∃ entry ∈ declaredFunctions scope generation b, entry.1.id = id := by
  have hlength : (declaredFunctions scope generation a).length =
      (declaredFunctions scope generation b).length := by
    have hperm := (named_perm h.rearranges).length_eq
    rwa [← h.declarations, ← h.symm.declarations, List.length_map, List.length_map,
      List.length_map, List.length_map] at hperm
  rw [(adds_afterFunctions scope generation a).numbers,
    (adds_afterFunctions scope generation b).numbers, hlength]

/-- Once the functions are declared, names stand for the same. -/
theorem alike_afterFunctions (h : SideBySide scope generation a b) :
    (afterFunctions scope generation a).Alike (renumbering scope generation a b)
      (afterFunctions scope generation b) := by
  have adds := adds_afterFunctions scope generation a
  have adds' := adds_afterFunctions scope generation b
  have others : ∀ name : String,
      (¬∃ entry ∈ declaredFunctions scope generation a, entry.1.name = name) →
      (∀ entry ∈ declaredFunctions scope generation a, entry.1.name ≠ name) ∧
        ∀ entry ∈ declaredFunctions scope generation b, entry.1.name ≠ name :=
    fun name hn => ⟨fun entry he heq => hn ⟨entry, he, heq⟩,
      fun entry he heq => hn (h.symm.exists_name ⟨entry, he, heq⟩)⟩
  constructor
  case vars =>
    refine Std.ExtTreeMap.ext_getElem? fun name => ?_
    by_cases hn : ∃ entry ∈ declaredFunctions scope generation a, entry.1.name = name
    · obtain ⟨entry', he', hname'⟩ := h.exists_name hn
      obtain ⟨entry, he, rfl⟩ := hn
      rw [(adds.own entry he).2, ← hname', (adds'.own entry' he').2]
    · obtain ⟨hother, hother'⟩ := others name hn
      rw [(adds.others name hother).2, (adds'.others name hother').2]
  case functions =>
    intro name
    by_cases hn : ∃ entry ∈ declaredFunctions scope generation a, entry.1.name = name
    · obtain ⟨entry, he, rfl⟩ := hn
      obtain ⟨entry', he', -, hs⟩ := h.counterpart he
      have hname : entry'.1.name = entry.1.name := (congrArg FunctionSymbol.name hs).symm
      rw [(adds.own entry he).1, ← hname, (adds'.own entry' he').1, Option.map_some, hs]
    · obtain ⟨hother, hother'⟩ := others name hn
      rw [(adds.others name hother).1, (adds'.others name hother').1]
      cases hf : scope.functions[name]? with
      | none => rfl
      | some symbol =>
        have hold : renumbering scope generation a b symbol.id = symbol.id :=
          renumbering_of_old (h.old name symbol hf)
        exact congrArg some (congrArg (FunctionSymbol.mk · symbol.name symbol.parameters) hold.symm)
  case declared =>
    intro name
    rw [adds.taken, adds'.taken]
    exact or_congr_left ⟨h.symm.exists_name, h.exists_name⟩
  all_goals rw [adds.rest, adds'.rest]

/-- The statements come to the same code, and leave names behind that stand for the same. -/
theorem statements (h : SideBySide scope generation a b) :
    recastStatements (renumbering scope generation a b) (resolve scope generation a).statements =
        recastStatements id (resolve scope generation b).statements ∧
      (afterStatements scope generation a).Alike (renumbering scope generation a b)
        (afterStatements scope generation b) ∧
      (statementProblems scope generation a).map Diagnostic.unplaced =
        (statementProblems scope generation b).map Diagnostic.unplaced := by
  have first := resolveStatements_recast h.alike_afterFunctions (topLevelStatements a.members)
  have second := resolveStatements_recast (.refl (afterFunctions scope generation b))
    (topLevelStatements b.members)
  rw [h.rearranges.statements] at first
  exact ⟨first.code.symm.trans second.code, first.alike.of_id second.alike,
    first.problems.symm.trans second.problems⟩

/-- A function comes to the same code. -/
theorem function (h : SideBySide scope generation a b)
    {entry entry' : FunctionSymbol × FunctionDeclaration}
    (hu : entry.2.unplaced = entry'.2.unplaced)
    (hs : entry.1.recast (renumbering scope generation a b) = entry'.1) :
    (resolveFunction (afterStatements scope generation a) entry.1 entry.2).1.recast
          (renumbering scope generation a b) =
        (resolveFunction (afterStatements scope generation b) entry'.1 entry'.2).1.recast id ∧
      (resolveFunction (afterStatements scope generation a) entry.1 entry.2).2.map
          Diagnostic.unplaced =
        (resolveFunction (afterStatements scope generation b) entry'.1 entry'.2).2.map
          Diagnostic.unplaced := by
  have first := resolveFunction_recast h.statements.2.1 entry.1 entry.2
  have second :=
    resolveFunction_recast (.refl (afterStatements scope generation b)) entry'.1 entry'.2
  rw [hs, hu] at first
  exact Prod.mk.inj (first.symm.trans second)

/-- Neither has a problem unless the other has one. -/
theorem diagnostics (h : SideBySide scope generation a b)
    (ha : (resolve scope generation a).diagnostics = []) :
    (resolve scope generation b).diagnostics = [] := by
  obtain ⟨-, hstatements, hfunctions⟩ := diagnostics_resolve.1 ha
  refine diagnostics_resolve.2 ⟨h.symm.clean, ?_, fun entry' he' => ?_⟩
  · have hsame := h.statements.2.2
    rw [hstatements, List.map_nil, eq_comm, List.map_eq_nil_iff] at hsame
    exact hsame
  · obtain ⟨entry, he, hu, hs⟩ := h.symm.counterpart he'
    have hsame := (h.symm.function hu hs).2
    rw [hfunctions entry he, List.map_nil, List.map_eq_nil_iff] at hsame
    exact hsame

end SideBySide

/-- Submissions that differ in the order of their functions have problems together. -/
theorem sideBySide_of_diagnostics (h : a.Rearranges b)
    (old : ∀ (name : String) (symbol : FunctionSymbol), scope.functions[name]? = some symbol →
      symbol.id.generation < generation)
    (ha : (resolve scope generation a).diagnostics = []) : SideBySide scope generation a b :=
  ⟨h, old, (diagnostics_resolve.1 ha).1⟩

end

end Program

/-! ## On top of earlier submissions -/

/-- What comes of a run, but for the places of problems. -/
def Evaluation.unplaced (evaluation : Evaluation) : Evaluation :=
  { evaluation with diagnostics := evaluation.diagnostics.map Diagnostic.unplaced }

namespace Compilation

open Program (Function FunctionSymbol Renumbered SideBySide renumbering)

/-- What has been compiled on top of one another, right or wrong; it may be nothing. -/
inductive Built : Option Compilation → Prop
  | nothing : Built none
  | empty : Built (some empty)
  | chain {previous : Option Compilation} (below : Built previous)
      (tree : Syntax.Submission × List Diagnostic) : Built (some (chain previous tree))

theorem coherent_of_built {previous : Option Compilation} (built : Built previous) :
    Coherent (previous.getD empty) := by
  induction built with
  | nothing => exact coherent_empty
  | empty => exact coherent_empty
  | chain _ _ ih => exact coherent_chain ih

variable {previous : Option Compilation} {a b : Syntax.Submission} {p q : List Diagnostic}

/-- Functions from below have earlier numbers. -/
theorem Coherent.old (below : Coherent (previous.getD empty)) (name : String)
    (symbol : FunctionSymbol)
    (h : (previous.getD empty).program.scope.functions[name]? = some symbol) :
    symbol.id.generation < (previous.getD empty).generation + 1 := by
  obtain ⟨function, hf, -⟩ := below.visible name symbol h
  exact Nat.lt_succ_of_le (below.stored _ _ hf).2

/-- A function from below stays as it is under numbers that leave those from below alone. -/
theorem Coherent.recast (below : Coherent (previous.getD empty)) {key : FunctionId}
    {function : Function} (h : (previous.getD empty).functions[key]? = some function)
    {σ : FunctionId → FunctionId}
    (hσ : ∀ id : FunctionId, id.generation < (previous.getD empty).generation + 1 → σ id = id) :
    function.recast σ = function.recast id := by
  have calls : ∀ id, (previous.getD empty).reach.calls id → σ id = id :=
    fun id ⟨callee, hc⟩ => hσ id (Nat.lt_succ_of_le (below.stored id callee hc).2)
  obtain ⟨hkey, hle⟩ := below.stored key function h
  have hsymbol : σ function.symbol.id = function.symbol.id := by
    rw [hkey]
    exact hσ key (Nat.lt_succ_of_le hle)
  have hbody : (Program.Code.statements function.body).recast σ =
      (Program.Code.statements function.body).recast id :=
    Program.recast_congr (below.closed key function h) calls
  injection hbody with hbody
  obtain ⟨⟨number, name, parameters⟩, frameSize, body⟩ := function
  exact congrArg₂ (fun number body => (⟨⟨number, name, parameters⟩, frameSize, body⟩ : Function))
    hsymbol hbody

theorem functions_of_mem (below : Coherent (previous.getD empty))
    {entry : FunctionSymbol × Syntax.FunctionDeclaration}
    (he : entry ∈ Program.declaredFunctions (previous.getD empty).program.scope
      ((previous.getD empty).generation + 1) a) :
    (chain previous (a, p)).functions[entry.1.id]? =
      some (Program.resolveFunction (Program.afterStatements (previous.getD empty).program.scope
        ((previous.getD empty).generation + 1) a) entry.1 entry.2).1 := by
  refine (getElem?_functions_chain below _ _).2 (.inl ⟨?_, rfl⟩)
  change _ ∈ (Program.resolve _ _ a).functions
  rw [Program.functions_resolve]
  exact List.mem_map_of_mem he

theorem functions_of_not_mem (below : Coherent (previous.getD empty)) {key : FunctionId}
    (h : ∀ entry ∈ Program.declaredFunctions (previous.getD empty).program.scope
      ((previous.getD empty).generation + 1) a, entry.1.id ≠ key) :
    (chain previous (a, p)).functions[key]? = (previous.getD empty).functions[key]? := by
  refine Option.ext fun function => (getElem?_functions_chain below key function).trans ?_
  refine or_iff_right fun ⟨hm, hid⟩ => ?_
  change _ ∈ (Program.resolve _ _ a).functions at hm
  rw [Program.functions_resolve] at hm
  obtain ⟨entry, he, rfl⟩ := List.mem_map.1 hm
  exact h entry he hid

/-- Under the renumbering both chains have the same functions. -/
theorem renumbered (below : Coherent (previous.getD empty))
    (h : SideBySide (previous.getD empty).program.scope
      ((previous.getD empty).generation + 1) a b) :
    Renumbered (renumbering (previous.getD empty).program.scope
        ((previous.getD empty).generation + 1) a b)
      (chain previous (a, p)).functions
      ((chain previous (b, q)).functions.map fun _ function => function.recast id) := by
  intro key
  rw [Std.ExtTreeMap.getElem?_map]
  by_cases hkey : ∃ entry ∈ Program.declaredFunctions (previous.getD empty).program.scope
      ((previous.getD empty).generation + 1) a, entry.1.id = key
  · obtain ⟨entry, he, rfl⟩ := hkey
    obtain ⟨entry', he', hu, hs⟩ := h.counterpart he
    have hid : renumbering _ _ a b entry.1.id = entry'.1.id := congrArg FunctionSymbol.id hs
    rw [hid, functions_of_mem below he, functions_of_mem below he', Option.map_some,
      Option.map_some, (h.function hu hs).1]
  · have hnot : ∀ entry ∈ Program.declaredFunctions (previous.getD empty).program.scope
        ((previous.getD empty).generation + 1) a, entry.1.id ≠ key :=
      fun entry he heq => hkey ⟨entry, he, heq⟩
    have hnot' : ∀ entry ∈ Program.declaredFunctions (previous.getD empty).program.scope
        ((previous.getD empty).generation + 1) b, entry.1.id ≠ key :=
      fun entry he heq => hkey ((h.exists_number).2 ⟨entry, he, heq⟩)
    rw [Program.renumbering_of_not_mem hnot, functions_of_not_mem below hnot,
      functions_of_not_mem below hnot']
    cases hf : (previous.getD empty).functions[key]? with
    | none => rfl
    | some function =>
      rw [Option.map_some, Option.map_some,
        below.recast hf fun id hold => Program.renumbering_of_old hold]

/-- The names that are listed are the same. -/
theorem symbols_eq
    (h : SideBySide (previous.getD empty).program.scope
      ((previous.getD empty).generation + 1) a b) :
    (chain previous (a, p)).symbols = (chain previous (b, q)).symbols := by
  have alike := h.statements.2.1
  have vars : (chain previous (b, q)).program.scope.vars =
      (chain previous (a, p)).program.scope.vars := alike.vars
  have functions : (chain previous (b, q)).program.scope.functions =
      (chain previous (a, p)).program.scope.functions.map fun _ symbol =>
        symbol.recast (renumbering (previous.getD empty).program.scope
          ((previous.getD empty).generation + 1) a b) :=
    Std.ExtTreeMap.ext_getElem? fun name => by
      rw [Std.ExtTreeMap.getElem?_map]
      exact alike.functions name
  rw [symbols, symbols]
  dsimp only
  rw [vars, functions, Std.ExtTreeMap.toList_map, List.map_map]
  rfl

/-- They run alike. -/
theorem evaluate_alike (below : Coherent (previous.getD empty))
    (h : SideBySide (previous.getD empty).program.scope ((previous.getD empty).generation + 1) a b)
    (hpq : p.map Diagnostic.unplaced = q.map Diagnostic.unplaced)
    (ha : (chain previous (a, p)).program.diagnostics = [])
    (hb : (chain previous (b, q)).program.diagnostics = []) (fuel : Nat) (globals : Variables) :
    ((chain previous (a, p)).evaluate fuel globals).map Evaluation.unplaced =
      ((chain previous (b, q)).evaluate fuel globals).map Evaluation.unplaced := by
  have hrun : ((chain previous (a, p)).program.run (chain previous (a, p)).functions fuel
      globals).Alike
        ((chain previous (b, q)).program.run (chain previous (b, q)).functions fuel globals) :=
    Program.run_alike (renumbered below h) (fun _ => Std.ExtTreeMap.getElem?_map) h.statements.1
      h.statements.2.1.frameSize.symm fuel globals
  have hdiagnostics : (chain previous (a, p)).diagnostics = p := by
    change p ++ (chain previous (a, p)).program.diagnostics = p
    rw [ha, List.append_nil]
  have hdiagnostics' : (chain previous (b, q)).diagnostics = q := by
    change q ++ (chain previous (b, q)).program.diagnostics = q
    rw [hb, List.append_nil]
  have hempty : p.isEmpty = q.isEmpty := by
    rw [← List.isEmpty_map, hpq, List.isEmpty_map]
  rw [evaluate, evaluate, hdiagnostics, hdiagnostics', hempty]
  split
  · revert hrun
    generalize (chain previous (a, p)).program.run _ fuel globals = run
    generalize (chain previous (b, q)).program.run _ fuel globals = run'
    intro hrun
    cases hrun with
    | done | failed | unfinished => rfl
  · simp [Evaluation.unplaced, hpq]

/-- **Functions are hoisted.** Let two submissions have the same statements in the same order, and
the same functions in any order and anywhere among the statements. On top of whatever has been
compiled, the names of both are resolved without a problem or those of neither; and if they are,
both list the same names, and run alike on any variables: with the same value or the same failure,
the same printed text, and the same variables afterwards, their numbers included. Only places may
differ. -/
theorem functions_hoisted (built : Built previous) (h : a.Rearranges b)
    (hpq : p.map Diagnostic.unplaced = q.map Diagnostic.unplaced) :
    ((chain previous (a, p)).program.diagnostics = [] ↔
      (chain previous (b, q)).program.diagnostics = []) ∧
    ((chain previous (a, p)).program.diagnostics = [] →
      (chain previous (a, p)).symbols = (chain previous (b, q)).symbols ∧
      ∀ (fuel : Nat) (globals : Variables),
        ((chain previous (a, p)).evaluate fuel globals).map Evaluation.unplaced =
          ((chain previous (b, q)).evaluate fuel globals).map Evaluation.unplaced) := by
  have below := coherent_of_built built
  have sideBySide : (chain previous (a, p)).program.diagnostics = [] →
      SideBySide (previous.getD empty).program.scope ((previous.getD empty).generation + 1) a b :=
    Program.sideBySide_of_diagnostics h below.old
  have sideBySide' : (chain previous (b, q)).program.diagnostics = [] →
      SideBySide (previous.getD empty).program.scope ((previous.getD empty).generation + 1) b a :=
    Program.sideBySide_of_diagnostics h.symm below.old
  refine ⟨⟨fun ha => (sideBySide ha).diagnostics ha, fun hb => (sideBySide' hb).diagnostics hb⟩,
    fun ha => ⟨symbols_eq (sideBySide ha), ?_⟩⟩
  exact evaluate_alike below (sideBySide ha) hpq ha ((sideBySide ha).diagnostics ha)

end Compilation

namespace Syntax

/-- A function `name(x)` that returns the value of the expression. -/
def returning (name : String) (value : Expression) : Member :=
  .function {
    keyword := freshToken .functionKeyword "function"
    identifier := freshToken .identifier name
    parameters := [freshToken .identifier "x"]
    opening := freshToken .openBrace "\x7b"
    body := [.return (freshToken .returnKeyword "return") (some value)]
    closing := freshToken .closeBrace "\x7d" }

/-- The call of a function with an argument. -/
def calling (name : String) (argument : Expression) : Expression :=
  .call (freshToken .identifier name) [argument] (freshToken .closeParen ")")

/-- Members at the end of which nothing comes. -/
def together (members : List Member) : Submission :=
  ⟨members, none, freshToken .endOfFile ""⟩

end Syntax

theorem Compilation.functions_hoisted_calledFirst :
    let x : Syntax.Expression := .name (Syntax.freshToken .identifier "x")
    let f := Syntax.returning "f" (Syntax.calling "g" x)
    let g := Syntax.returning "g" x
    let call : Syntax.Member := .statement (.expression
      (Syntax.calling "f" (.literal (Syntax.freshToken .number "1") (.integer 1))))
    let a := chain none (Syntax.together [f, g, call], [])
    let b := chain none (Syntax.together [call, g, f], [])
    (a.program.diagnostics = [] ∧ b.program.diagnostics = []) ∧ a.symbols = b.symbols ∧
      ∀ (fuel : Nat) (globals : Variables), (a.evaluate fuel globals).map Evaluation.unplaced =
        (b.evaluate fuel globals).map Evaluation.unplaced := by
  intro x f g call a b
  have h : (Syntax.together [f, g, call]).Rearranges (Syntax.together [call, g, f]) :=
    ⟨rfl, .swap _ _ _⟩
  have hoisted := functions_hoisted (p := []) (q := []) .nothing h rfl
  have ha : a.program.diagnostics = [] := List.isEmpty_iff.1 (by decide +kernel)
  exact ⟨⟨ha, hoisted.1.1 ha⟩, hoisted.2 ha⟩

end ReplayShell
