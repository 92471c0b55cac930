import ReplayShell.Proofs.Chains

/-!
# What a submission declares

At the top level a submission declares functions and global variables; what stands in a block or in
a function stays there.

* `Statement.globals` are the global variables that a statement declares at the top level: those of
  its branches and of the body of a loop are among them, unless these are blocks.
* `Environment.Declaring` is all that resolving a statement does to the names of the session.
  `resolveStatement_declaring` and its companions hold of every tree, right or wrong.
* `DeclaresInTurn` tells how functions are declared, one after another.
* `GlobalScope.Tidy`: a name is not a variable and a function, and no two variables share a number.
  Every declaration keeps it so.
* `declaredFunctions`, `afterFunctions` and `afterStatements` are the stages of a submission.
-/
namespace ReplayShell

namespace Syntax

mutual

/-- The global variables that a statement declares at the top level, in order, and whether they are
read-only. Those of a block are its own. -/
def Statement.globals : Statement → List (Token × Bool)
  | .block _ _ _ => []
  | .variable keyword identifier _ => [(identifier, keyword.kind = .letKeyword)]
  | .conditional _ _ thenBranch elseBranch => thenBranch.globals ++ elseGlobals elseBranch
  | .loop _ _ body => body.globals
  | .return _ _ => []
  | .expression _ => []

/-- The global variables that an else branch declares, if there is one. -/
def elseGlobals : Option Statement → List (Token × Bool)
  | none => []
  | some statement => statement.globals

end

/-- The global variables that are declared by the part of a tree that runs at the top level. -/
def Tree.globals : Tree → List (Token × Bool)
  | .statement code => code.globals
  | .statements code => code.flatMap Statement.globals
  | _ => []

theorem mem_of_globals {tree : Tree} {ts : List Token} (h : Written tree ts) :
    ∀ entry ∈ tree.globals, entry.1 ∈ ts := by
  induction h with
  | «variable» =>
    intro entry he
    obtain rfl : entry = _ := by simpa [Tree.globals, Statement.globals] using he
    simp
  | conditionalElse _ _ _ _ _ _ ihThen ihElse =>
    intro entry he
    rcases List.mem_append.1 he with he | he
    · have ht := ihThen entry he
      simp [ht]
    · have he := ihElse entry he
      simp [he]
  | conditional _ _ _ _ ihThen =>
    intro entry he
    have ht := ihThen entry (by simpa [Tree.globals, Statement.globals, elseGlobals] using he)
    simp [ht]
  | loop _ _ _ _ ihBody =>
    intro entry he
    have hb := ihBody entry he
    simp [hb]
  | statements _ _ ihFirst ihMore =>
    intro entry he
    rcases List.mem_append.1 he with he | he
    · exact List.mem_append_left _ (ihFirst entry he)
    · exact List.mem_append_right _ (ihMore entry he)
  | _ =>
    intro entry he
    simp [Tree.globals, Statement.globals] at he

/-- The global variables that a submission declares, in order. -/
def Submission.globals (submission : Submission) : List (Token × Bool) :=
  (Program.topLevelStatements submission.members).flatMap Statement.globals

end Syntax

namespace Program

open Syntax (Token FunctionDeclaration)

namespace Environment

/-- The environment without its local variables. -/
def outside (env : Environment) : Environment := { env with blocks := [], frameSize := 0 }

/-- The environment after a global variable has been declared. -/
def declare (env : Environment) (entry : Token × Bool) : Environment :=
  (env.declareGlobal entry.1 entry.2).2.1

/-- The global variables that are declared where the environment stands: none in a block. -/
def reaching (env : Environment) (globals : List (Token × Bool)) : List (Token × Bool) :=
  if env.blocks = [] then globals else []

/-- What resolving code with the given global variables does to the names of the session, and that
it goes back to the block that it started from. -/
structure Declaring (env env' : Environment) (problems : List Diagnostic)
    (globals : List (Token × Bool)) : Prop where
  outside : env'.outside = (env.reaching globals).foldl declare env.outside
  outer : env'.blocks.tail = env.blocks.tail
  atTop : env'.blocks = [] ↔ env.blocks = []
  /-- A name that is declared twice is a problem. -/
  nodup : problems = [] → env.declared.Nodup → env'.declared.Nodup

variable {env env' env'' : Environment} {problems more : List Diagnostic}
  {globals globals' : List (Token × Bool)}

namespace Declaring

theorem refl (env : Environment) (problems : List Diagnostic) : Declaring env env problems [] :=
  ⟨by rw [reaching, ite_self, List.foldl_nil], rfl, .rfl, fun _ h => h⟩

theorem trans (h : Declaring env env' problems globals) (h' : Declaring env' env'' more globals') :
    Declaring env env'' (problems ++ more) (globals ++ globals') where
  outside := by
    have hreach : env'.reaching globals' = env.reaching globals' := by
      simp only [reaching, h.atTop]
    rw [h'.outside, hreach, h.outside, ← List.foldl_append]
    unfold reaching
    split <;> rfl
  outer := h'.outer.trans h.outer
  atTop := h'.atTop.trans h.atTop
  nodup := fun hp hd =>
    have hp := List.append_eq_nil_iff.1 hp
    h'.nodup hp.2 (h.nodup hp.1 hd)

/-- Problems that are met before do not matter. -/
theorem after (h : Declaring env env' more globals) (problems : List Diagnostic) :
    Declaring env env' (problems ++ more) globals :=
  (refl env problems).trans h

theorem globals_eq_nil (h : Declaring env env' problems globals) (hb : env.blocks ≠ []) :
    env'.outside = env.outside := by
  rw [h.outside, reaching, if_neg hb, List.foldl_nil]

/-- A block is left as it was entered, and nothing that it declares is seen outside. -/
theorem block (h : Declaring env.openBlock env' problems globals) :
    Declaring env env'.closeBlock problems [] := by
  have hblocks : env'.blocks.tail = env.blocks := h.outer
  have houtside := h.globals_eq_nil (List.cons_ne_nil _ _)
  refine ⟨?_, congrArg List.tail hblocks, ?_, fun hp hd => h.nodup hp hd⟩
  · rw [reaching, ite_self, List.foldl_nil]
    exact houtside
  · rw [closeBlock, hblocks]

end Declaring

theorem declaring_declareVariable (env : Environment) (identifier : Token) (readOnly : Bool) :
    Declaring env (env.declareVariable identifier readOnly).2.1
      (env.declareVariable identifier readOnly).2.2 [(identifier, readOnly)] := by
  unfold declareVariable
  split
  · rename_i block outer hb
    refine ⟨?_, ?_, ?_, fun _ hd => hd⟩
    · rw [reaching, if_neg (by rw [hb]; exact List.cons_ne_nil _ _)]
      rfl
    · rw [hb]
      rfl
    · simp [declareLocal, hb]
  · rename_i hb
    refine ⟨?_, rfl, .rfl, fun hp hd => ?_⟩
    · rw [reaching, if_pos hb]
      rfl
    · by_cases hm : identifier.missing = true
      · simpa only [declareGlobal, if_pos hm] using hd
      · have hnew : ¬identifier.text ∈ env.declared := by
          intro ht
          simp [declareGlobal, duplicate, ht, hm] at hp
        simp only [declareGlobal, if_neg hm]
        exact List.nodup_cons.2 ⟨hnew, hd⟩

end Environment

mutual

theorem resolveStatement_declaring (env : Environment) : ∀ statement : Syntax.Statement,
    env.Declaring (resolveStatement env statement).2.1 (resolveStatement env statement).2.2
      statement.globals
  | .block _ statements _ => (resolveStatements_declaring env.openBlock statements).block
  | .variable keyword identifier _ =>
    (env.declaring_declareVariable identifier (keyword.kind = .letKeyword)).after _
  | .conditional _ _ thenBranch elseBranch =>
    ((resolveStatement_declaring env thenBranch).trans
      (resolveElse_declaring _ elseBranch)).after _
  | .loop _ _ body => (resolveStatement_declaring env body).after _
  | .return _ none => .refl env _
  | .return _ (some _) => .refl env _
  | .expression _ => .refl env _

theorem resolveStatements_declaring (env : Environment) : ∀ statements : List Syntax.Statement,
    env.Declaring (resolveStatements env statements).2.1 (resolveStatements env statements).2.2
      (statements.flatMap Syntax.Statement.globals)
  | [] => .refl env _
  | statement :: rest =>
    (resolveStatement_declaring env statement).trans (resolveStatements_declaring _ rest)

theorem resolveElse_declaring (env : Environment) : ∀ statement : Option Syntax.Statement,
    env.Declaring (resolveElse env statement).2.1 (resolveElse env statement).2.2
      (Syntax.elseGlobals statement)
  | none => .refl env _
  | some statement => resolveStatement_declaring env statement

end

/-- The parameters of a function are declared as variables are. -/
theorem declareParameters_declaring (env : Environment) (parameters : List Token) :
    env.Declaring (declareParameters env parameters).1 (declareParameters env parameters).2
      ((parameters.filter fun parameter => !parameter.missing).map fun parameter =>
        (parameter, false)) := by
  induction parameters generalizing env with
  | nil => exact .refl env _
  | cons parameter rest ih =>
    unfold declareParameters
    by_cases hm : parameter.missing = true
    · simpa [hm] using ih env
    · simpa [hm] using (env.declaring_declareVariable parameter false).trans (ih _)

/-! ## Functions that are declared -/

namespace Environment

/-- The symbol of a function that is declared with a number. -/
def symbolOf (env : Environment) (ordinal : Nat) (declaration : FunctionDeclaration) :
    FunctionSymbol :=
  ⟨⟨env.generation, ordinal⟩, declaration.identifier.text, declaration.parameters.map Token.text⟩

/-- The environment after a function has been declared. -/
def addFunction (env : Environment) (symbol : FunctionSymbol) : Environment :=
  { env with
    declared := symbol.name :: env.declared
    globals :=
      { vars := env.globals.vars.erase symbol.name
        functions := env.globals.functions.insert symbol.name symbol } }

end Environment

/-- Functions are declared one after another. One without a name is skipped, and so is one whose
name is taken, which is a problem. -/
inductive DeclaresInTurn : Environment → Nat → List FunctionDeclaration →
    List (FunctionSymbol × FunctionDeclaration) → Environment → List Diagnostic → Prop
  | nil (env : Environment) (ordinal : Nat) : DeclaresInTurn env ordinal [] [] env []
  | skip {env env' : Environment} {ordinal : Nat} {declaration : FunctionDeclaration}
      {declarations : List FunctionDeclaration}
      {declared : List (FunctionSymbol × FunctionDeclaration)} {problems : List Diagnostic}
      (h : declaration.identifier.missing = true ∨ declaration.identifier.text ∈ env.declared)
      (rest : DeclaresInTurn env ordinal declarations declared env' problems) :
      DeclaresInTurn env ordinal (declaration :: declarations) declared env'
        (Environment.duplicate declaration.identifier true ++ problems)
  | declare {env env' : Environment} {ordinal : Nat} {declaration : FunctionDeclaration}
      {declarations : List FunctionDeclaration}
      {declared : List (FunctionSymbol × FunctionDeclaration)} {problems : List Diagnostic}
      (hm : declaration.identifier.missing = false)
      (ht : declaration.identifier.text ∉ env.declared)
      (rest : DeclaresInTurn (env.addFunction (env.symbolOf ordinal declaration)) (ordinal + 1)
        declarations declared env' problems) :
      DeclaresInTurn env ordinal (declaration :: declarations)
        ((env.symbolOf ordinal declaration, declaration) :: declared) env' problems

theorem declareFunctions_inTurn (env : Environment) (ordinal : Nat)
    (declarations : List FunctionDeclaration) :
    DeclaresInTurn env ordinal declarations (declareFunctions env ordinal declarations).1
      (declareFunctions env ordinal declarations).2.1
      (declareFunctions env ordinal declarations).2.2 := by
  induction declarations generalizing env ordinal with
  | nil => exact .nil env ordinal
  | cons declaration rest ih =>
    simp only [declareFunctions, Environment.declareFunction]
    by_cases hm : declaration.identifier.missing = true
    · have hnone : Environment.duplicate declaration.identifier true = [] := by
        simp [Environment.duplicate, hm]
      simpa only [if_pos hm, hnone] using (ih env ordinal).skip (.inl hm)
    by_cases ht : env.declared.contains declaration.identifier.text = true
    · simpa only [if_neg hm, if_pos ht] using
        (ih env ordinal).skip (.inr (List.contains_iff_mem.1 ht))
    simp only [if_neg hm, if_neg ht]
    exact .declare (Bool.eq_false_iff.2 hm) (mt List.contains_iff_mem.2 ht) (ih _ (ordinal + 1))

/-! ## Names stay apart -/

/-- A name of the scope is not a variable and a function, functions are known by their own names,
and no two variables share a number. All numbers of variables have been given out. -/
structure GlobalScope.Tidy (scope : GlobalScope) (given : VariableId → Prop) : Prop where
  apart : ∀ (name : String) (symbol : FunctionSymbol), scope.functions[name]? = some symbol →
    scope.vars[name]? = none
  named : ∀ (name : String) (symbol : FunctionSymbol), scope.functions[name]? = some symbol →
    symbol.name = name
  numbered : ∀ (name : String) (found : GlobalVariable), scope.vars[name]? = some found →
    given found.id
  distinct : ∀ (name name' : String) (found found' : GlobalVariable),
    scope.vars[name]? = some found → scope.vars[name']? = some found' → found.id = found'.id →
      name = name'

namespace GlobalScope.Tidy

variable {scope : GlobalScope} {given given' : VariableId → Prop}

theorem empty : Tidy {} given := by
  refine ⟨?_, ?_, ?_, ?_⟩ <;> intros <;> simp_all

theorem widen (tidy : scope.Tidy given) (h : ∀ id, given id → given' id) : scope.Tidy given' :=
  { tidy with numbered := fun name found hf => h _ (tidy.numbered name found hf) }

/-- A function takes its name from a variable. -/
theorem insertFunction (tidy : scope.Tidy given) {name : String} {symbol : FunctionSymbol}
    (hn : symbol.name = name) :
    Tidy ⟨scope.vars.erase name, scope.functions.insert name symbol⟩ given := by
  refine ⟨fun other found hf => ?_, fun other found hf => ?_, fun other found hf => ?_,
    fun other other' found found' hf hf' heq => ?_⟩ <;>
    simp only [Std.ExtTreeMap.getElem?_insert, Std.ExtTreeMap.getElem?_erase,
      Std.compare_eq_iff_eq] at *
  · by_cases ho : name = other
    · rw [if_pos ho]
    · rw [if_neg ho] at hf ⊢
      exact tidy.apart other found hf
  · by_cases ho : name = other
    · rw [if_pos ho] at hf
      cases hf
      exact hn.trans ho
    · rw [if_neg ho] at hf
      exact tidy.named other found hf
  · split at hf
    · cases hf
    · exact tidy.numbered other found hf
  · split at hf
    · cases hf
    split at hf'
    · cases hf'
    · exact tidy.distinct other other' found found' hf hf' heq

/-- A variable with a new number takes its name from a function. -/
theorem insertVariable (tidy : scope.Tidy given) (name : String) {id : VariableId} (readOnly : Bool)
    (hnew : ¬given id) (hid : given' id) (h : ∀ id, given id → given' id) :
    Tidy ⟨scope.vars.insert name ⟨id, readOnly⟩, scope.functions.erase name⟩ given' := by
  have other_id : ∀ (other : String) (found : GlobalVariable), scope.vars[other]? = some found →
      found.id ≠ id := fun other found hf heq => hnew (heq ▸ tidy.numbered other found hf)
  refine ⟨fun other found hf => ?_, fun other found hf => ?_, fun other found hf => ?_,
    fun other other' found found' hf hf' heq => ?_⟩ <;>
    simp only [Std.ExtTreeMap.getElem?_insert, Std.ExtTreeMap.getElem?_erase,
      Std.compare_eq_iff_eq] at *
  · split at hf
    · cases hf
    · rename_i ho
      rw [if_neg ho]
      exact tidy.apart other found hf
  · split at hf
    · cases hf
    · exact tidy.named other found hf
  · split at hf
    · cases hf
      exact hid
    · exact h _ (tidy.numbered other found hf)
  · by_cases ho : name = other <;> by_cases ho' : name = other'
    · exact ho.symm.trans ho'
    · rw [if_pos ho] at hf
      rw [if_neg ho'] at hf'
      cases hf
      exact absurd heq.symm (other_id other' found' hf')
    · rw [if_neg ho] at hf
      rw [if_pos ho'] at hf'
      cases hf'
      exact absurd heq (other_id other found hf)
    · rw [if_neg ho] at hf
      rw [if_neg ho'] at hf'
      exact tidy.distinct other other' found found' hf hf' heq

end GlobalScope.Tidy

namespace Environment

/-- The numbers that variables have been given so far. -/
def Given (env : Environment) (id : VariableId) : Prop :=
  id.generation < env.generation ∨ id.generation = env.generation ∧ id.ordinal < env.nextVariable

theorem tidy_declare {env : Environment} (tidy : env.globals.Tidy env.Given)
    (entry : Token × Bool) : (env.declare entry).globals.Tidy (env.declare entry).Given := by
  refine tidy.insertVariable entry.1.text entry.2 ?_ ?_ ?_
  · unfold Given
    dsimp only
    omega
  · exact .inr ⟨rfl, Nat.lt_succ_self _⟩
  · exact fun id hg => hg.imp_right fun h => ⟨h.1, Nat.lt_succ_of_lt h.2⟩

theorem tidy_foldl_declare {env : Environment} (tidy : env.globals.Tidy env.Given)
    (globals : List (Token × Bool)) :
    (globals.foldl declare env).globals.Tidy (globals.foldl declare env).Given := by
  induction globals generalizing env with
  | nil => exact tidy
  | cons entry rest ih => exact ih (tidy_declare tidy entry)

end Environment

theorem DeclaresInTurn.tidy {env env' : Environment} {ordinal : Nat}
    {declarations : List FunctionDeclaration}
    {declared : List (FunctionSymbol × FunctionDeclaration)} {problems : List Diagnostic}
    (h : DeclaresInTurn env ordinal declarations declared env' problems)
    (tidy : env.globals.Tidy env.Given) : env'.globals.Tidy env'.Given := by
  induction h with
  | nil => exact tidy
  | skip _ _ ih => exact ih tidy
  | declare _ _ _ ih => exact ih (tidy.insertFunction rfl)

/-! ## Whole submissions -/

section
variable (scope : GlobalScope) (generation : Nat) (submission : Syntax.Submission)

/-- The functions that a submission declares, with their declarations. -/
def declaredFunctions : List (FunctionSymbol × FunctionDeclaration) :=
  (declareFunctions { generation := generation, globals := scope } 0
    (functionDeclarations submission.members)).1

/-- The names after the functions of a submission have been declared. -/
def afterFunctions : Environment :=
  (declareFunctions { generation := generation, globals := scope } 0
    (functionDeclarations submission.members)).2.1

/-- The names after its statements have been resolved, which the bodies of its functions see. -/
def afterStatements : Environment :=
  (resolveStatements (afterFunctions scope generation submission)
    (topLevelStatements submission.members)).2.1

theorem inTurn_afterFunctions :
    DeclaresInTurn { generation := generation, globals := scope } 0
      (functionDeclarations submission.members) (declaredFunctions scope generation submission)
      (afterFunctions scope generation submission)
      (declareFunctions { generation := generation, globals := scope } 0
        (functionDeclarations submission.members)).2.2 :=
  declareFunctions_inTurn _ _ _

theorem declares_afterFunctions :
    Declares { generation := generation, globals := scope } 0
      (functionDeclarations submission.members) (declaredFunctions scope generation submission)
      (afterFunctions scope generation submission) :=
  declares_declareFunctions _ _ _

theorem declaring_afterStatements :
    (afterFunctions scope generation submission).Declaring
      (afterStatements scope generation submission)
      (resolveStatements (afterFunctions scope generation submission)
        (topLevelStatements submission.members)).2.2 submission.globals :=
  resolveStatements_declaring _ _

/-- The statements of a submission add the global variables that they declare. -/
theorem outside_afterStatements :
    (afterStatements scope generation submission).outside =
      submission.globals.foldl Environment.declare
        (afterFunctions scope generation submission).outside := by
  rw [(declaring_afterStatements scope generation submission).outside, Environment.reaching,
    if_pos (declares_afterFunctions scope generation submission).blocks]

theorem functions_resolve :
    (resolve scope generation submission).functions =
      (declaredFunctions scope generation submission).map fun entry =>
        (resolveFunction (afterStatements scope generation submission) entry.1 entry.2).1 := by
  simp only [resolve, resolveFunctions_eq]
  rfl

theorem generation_of_mem_functions {function : Function}
    (h : function ∈ (resolve scope generation submission).functions) :
    function.symbol.id.generation = generation := by
  rw [functions_resolve] at h
  obtain ⟨entry, he, rfl⟩ := List.mem_map.1 h
  exact (declares_afterFunctions scope generation submission).generation entry he

/-- No two functions of a submission share a number. -/
theorem pairwise_functions_resolve :
    (resolve scope generation submission).functions.Pairwise fun f g =>
      f.symbol.id ≠ g.symbol.id := by
  rw [functions_resolve, List.pairwise_map]
  exact (declares_afterFunctions scope generation submission).distinct

theorem generation_afterStatements :
    (afterStatements scope generation submission).generation = generation :=
  (resolveStatements_grows _ _).generation.trans
    (declares_afterFunctions scope generation submission).env_generation

variable {scope generation}

theorem tidy_resolve (tidy : scope.Tidy fun id => id.generation < generation) :
    (resolve scope generation submission).scope.Tidy fun id => id.generation ≤ generation := by
  have start : (afterFunctions scope generation submission).outside.globals.Tidy
      (afterFunctions scope generation submission).outside.Given :=
    (inTurn_afterFunctions scope generation submission).tidy (tidy.widen fun _ h => .inl h)
  have after : (afterStatements scope generation submission).outside.globals.Tidy
      (afterStatements scope generation submission).outside.Given := by
    rw [outside_afterStatements]
    exact Environment.tidy_foldl_declare start _
  refine after.widen fun id hg => ?_
  have hgeneration := generation_afterStatements scope generation submission
  rcases hg with hg | ⟨hg, -⟩
  · exact hgeneration ▸ Nat.le_of_lt hg
  · exact Nat.le_of_eq (hg.trans hgeneration)

/-- A function that is visible after a submission is one that it declares, or was visible before. -/
theorem visible_resolve {name : String} {symbol : FunctionSymbol}
    (h : (resolve scope generation submission).scope.functions[name]? = some symbol) :
    scope.functions[name]? = some symbol ∨
      ∃ function ∈ (resolve scope generation submission).functions, function.symbol = symbol := by
  have h₁ := (resolveStatements_grows (afterFunctions scope generation submission) _).functions
    name symbol h
  refine ((declares_afterFunctions scope generation submission).functions name symbol h₁).imp_right
    fun ⟨entry, he, hsymbol⟩ => ?_
  rw [functions_resolve]
  exact ⟨_, List.mem_map.2 ⟨entry, he, rfl⟩, hsymbol⟩

end

end Program

end ReplayShell
