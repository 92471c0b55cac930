import ReplayShell.Proofs.Chains

/-!
# Assigned variables

Every local variable has a place in the frame of its call. Code that a block has come to may rely on
the places of those variables that the block itself has declared so far, and on the parameters; it
may not rely on one whose declaration stands bare, as the branch of a conditional or the body of a
loop, since that need not have been run.

* `Statement.declares` are the places declared in the block that a statement stands in,
  `Statement.bare` those of declarations that stand bare.
* `Assured` says that the code reads only what is assigned, or loose. A block declares nothing that
  is assigned before it.
* `resolveStatement_assured`, `assigned_of_clean`: resolved code is assured, if all that stands bare
  is loose.
-/
namespace ReplayShell

namespace Program

open Syntax (Token FunctionDeclaration)

/-! ## Declarations in resolved code -/

/-- The place in the frame, if the variable has one. -/
def Slot.places : Slot → List Nat
  | .global _ => []
  | .local index => [index]

mutual

/-- The places that are declared in the block that the statement stands in. -/
def Statement.declares : Statement → List Nat
  | .variable ref _ _ => ref.slot.places
  | .conditional _ thenBranch elseBranch =>
    thenBranch.declares ++ Statement.elseDeclares elseBranch
  | .loop _ body => body.declares
  | .block _ | .return _ | .expression _ => []

/-- So are those of an else branch, if there is one. -/
def Statement.elseDeclares : Option Statement → List Nat
  | none => []
  | some statement => statement.declares

end

mutual

/-- The places of declarations inside the statement that stand bare, as a branch or as the body of a
loop. -/
def Statement.bare : Statement → List Nat
  | .block statements => Statement.allBare statements
  | .conditional _ thenBranch elseBranch =>
    thenBranch.declares ++ thenBranch.bare ++ Statement.elseBare elseBranch
  | .loop _ body => body.declares ++ body.bare
  | .variable _ _ _ | .return _ | .expression _ => []

/-- So of an else branch, if there is one. -/
def Statement.elseBare : Option Statement → List Nat
  | none => []
  | some statement => statement.declares ++ statement.bare

/-- So of all the statements. -/
def Statement.allBare : List Statement → List Nat
  | [] => []
  | first :: rest => first.bare ++ Statement.allBare rest

end

/-- The places that a block with the statements declares. -/
def Statement.allDeclared (statements : List Statement) : List Nat :=
  statements.flatMap Statement.declares

/-- The places that the statement has assigned for sure when it is done. -/
def Statement.assigns : Statement → List Nat
  | .variable ref _ _ => ref.slot.places
  | _ => []

/-- What is declared is assigned for sure, or stands bare. -/
theorem Statement.assigns_or_bare (statement : Statement) {index : Nat}
    (h : index ∈ statement.declares) : index ∈ statement.assigns ∨ index ∈ statement.bare := by
  cases statement with
  | «variable» => exact .inl h
  | conditional condition thenBranch elseBranch =>
    refine .inr ?_
    simp only [declares, bare, List.mem_append] at h ⊢
    rcases h with h | h
    · exact .inl (.inl h)
    · cases elseBranch with
      | none => cases h
      | some statement => exact .inr (List.mem_append_left _ h)
  | loop condition body => exact .inr (List.mem_append_left _ h)
  | block | «return» | expression => cases h

/-! ## Assured code -/

/-- The code reads no place of the frame that is neither assigned nor loose. -/
inductive Assured (loose : Nat → Prop) : (Nat → Prop) → Code → Prop
  | invalid (assigned : Nat → Prop) : Assured loose assigned (.expression .invalid)
  | literal (assigned : Nat → Prop) (value : Value) :
      Assured loose assigned (.expression (.literal value))
  | variable {assigned : Nat → Prop} {ref : VariableRef} (span : Span)
      (h : ∀ index ∈ ref.slot.places, assigned index ∨ loose index) :
      Assured loose assigned (.expression (.variable ref span))
  | assignment {assigned : Nat → Prop} (ref : VariableRef) {value : Expression}
      (hv : Assured loose assigned (.expression value)) :
      Assured loose assigned (.expression (.assignment ref value))
  | unary {assigned : Nat → Prop} (op : UnaryOp) (span : Span) {operand : Expression}
      (ho : Assured loose assigned (.expression operand)) :
      Assured loose assigned (.expression (.unary op operand span))
  | binary {assigned : Nat → Prop} (op : BinaryOp) (span : Span) {left right : Expression}
      (hl : Assured loose assigned (.expression left))
      (hr : Assured loose assigned (.expression right)) :
      Assured loose assigned (.expression (.binary left op right span))
  | call {assigned : Nat → Prop} (name : String) (callee : Callee) (span : Span)
      {arguments : List Expression} (ha : Assured loose assigned (.expressions arguments)) :
      Assured loose assigned (.expression (.call name callee arguments span))
  | noExpressions (assigned : Nat → Prop) : Assured loose assigned (.expressions [])
  | expressions {assigned : Nat → Prop} {first : Expression} {rest : List Expression}
      (hf : Assured loose assigned (.expression first))
      (hr : Assured loose assigned (.expressions rest)) :
      Assured loose assigned (.expressions (first :: rest))
  | block {assigned : Nat → Prop} {statements : List Statement}
      (hd : ∀ index ∈ Statement.allDeclared statements, ¬assigned index)
      (h : Assured loose assigned (.statements statements)) :
      Assured loose assigned (.statement (.block statements))
  | declaration {assigned : Nat → Prop} (ref : VariableRef) (readOnly : Bool)
      {initializer : Expression} (hv : Assured loose assigned (.expression initializer)) :
      Assured loose assigned (.statement (.variable ref readOnly initializer))
  | conditional {assigned : Nat → Prop} {condition : Expression} {thenBranch : Statement}
      {elseBranch : Option Statement} (hc : Assured loose assigned (.expression condition))
      (ht : Assured loose assigned (.statement thenBranch))
      (he : ∀ statement, elseBranch = some statement →
        Assured loose assigned (.statement statement)) :
      Assured loose assigned (.statement (.conditional condition thenBranch elseBranch))
  | loop {assigned : Nat → Prop} {condition : Expression} {body : Statement}
      (hc : Assured loose assigned (.expression condition))
      (hb : Assured loose assigned (.statement body)) :
      Assured loose assigned (.statement (.loop condition body))
  | returnNothing (assigned : Nat → Prop) : Assured loose assigned (.statement (.return none))
  | return {assigned : Nat → Prop} {value : Expression}
      (hv : Assured loose assigned (.expression value)) :
      Assured loose assigned (.statement (.return (some value)))
  | evaluation {assigned : Nat → Prop} {expression : Expression}
      (h : Assured loose assigned (.expression expression)) :
      Assured loose assigned (.statement (.expression expression))
  | noStatements (assigned : Nat → Prop) : Assured loose assigned (.statements [])
  | statements {assigned : Nat → Prop} {first : Statement} {rest : List Statement}
      (hf : Assured loose assigned (.statement first))
      (hr : Assured loose (fun index => assigned index ∨ index ∈ first.assigns)
        (.statements rest)) :
      Assured loose assigned (.statements (first :: rest))

namespace Environment

/-! ## What resolving declares -/

/-- What resolving a statement adds to the innermost block: variables in new places. -/
structure Adds (env env' : Environment) (places : List Nat) : Prop where
  entries : ∀ block ∈ env'.blocks, ∀ entry ∈ block,
    (∃ block ∈ env.blocks, entry ∈ block) ∨ entry.2.index ∈ places
  fresh : ∀ index ∈ places, env.frameSize ≤ index ∧ index < env'.frameSize
  outer : env'.blocks.tail = env.blocks.tail
  frameSize : env.frameSize ≤ env'.frameSize

variable {env env' env'' : Environment} {places places' : List Nat}

namespace Adds

theorem refl (env : Environment) : Adds env env [] where
  entries := fun block hb _ he => .inl ⟨block, hb, he⟩
  fresh := by simp
  outer := rfl
  frameSize := Nat.le_refl _

theorem trans (h : Adds env env' places) (h' : Adds env' env'' places') :
    Adds env env'' (places ++ places') where
  entries := by
    intro block hb entry he
    rcases h'.entries block hb entry he with ⟨block', hb', he'⟩ | hp
    · exact (h.entries block' hb' entry he').imp_right (List.mem_append_left _)
    · exact .inr (List.mem_append_right _ hp)
  fresh := by
    intro index hi
    have hle := h.frameSize
    have hle' := h'.frameSize
    rcases List.mem_append.1 hi with hi | hi
    · have hnew := h.fresh index hi
      omega
    · have hnew := h'.fresh index hi
      omega
  outer := h'.outer.trans h.outer
  frameSize := Nat.le_trans h.frameSize h'.frameSize

/-- What a block has declared is gone when it is closed. -/
theorem block (h : Adds env.openBlock env' places) : Adds env env'.closeBlock [] where
  entries := by
    intro block hb entry he
    have hblocks : env'.closeBlock.blocks = env.blocks := h.outer
    rw [hblocks] at hb
    exact .inl ⟨block, hb, he⟩
  fresh := by simp
  outer := congrArg List.tail h.outer
  frameSize := h.frameSize

end Adds

theorem adds_declareVariable (env : Environment) (identifier : Token) (readOnly : Bool) :
    Adds env (env.declareVariable identifier readOnly).2.1
      (env.declareVariable identifier readOnly).1.places := by
  unfold declareVariable
  split
  · rename_i block outer hb
    refine ⟨fun block' hm entry he => ?_, ?_, by rw [hb]; rfl, Nat.le_succ _⟩
    · rw [hb]
      rcases List.mem_cons.1 hm with rfl | hm
      · rcases List.mem_cons.1 he with rfl | he
        · exact .inr (List.mem_singleton.2 rfl)
        · exact .inl ⟨block, List.mem_cons_self, he⟩
      · exact .inl ⟨block', List.mem_cons_of_mem _ hm, he⟩
    · intro index hi
      rw [List.mem_singleton.1 hi]
      exact ⟨Nat.le_refl _, Nat.lt_succ_self _⟩
  · rename_i hb
    refine ⟨fun block' hm => ?_, ?_, rfl, Nat.le_refl _⟩
    · exact absurd (show block' ∈ env.blocks from hm) (by rw [hb]; exact List.not_mem_nil)
    · exact fun index hi => absurd hi List.not_mem_nil

end Environment

mutual

theorem resolveStatement_adds (env : Environment) : ∀ statement,
    env.Adds (resolveStatement env statement).2.1 (resolveStatement env statement).1.declares
  | .block _ statements _ => (resolveStatements_adds env.openBlock statements).block
  | .variable keyword identifier _ =>
    env.adds_declareVariable identifier (keyword.kind = .letKeyword)
  | .conditional _ _ thenBranch elseBranch =>
    (resolveStatement_adds env thenBranch).trans (resolveElse_adds _ elseBranch)
  | .loop _ _ body => resolveStatement_adds env body
  | .return _ none => .refl env
  | .return _ (some _) => .refl env
  | .expression _ => .refl env

theorem resolveStatements_adds (env : Environment) : ∀ statements,
    env.Adds (resolveStatements env statements).2.1
      (Statement.allDeclared (resolveStatements env statements).1)
  | [] => .refl env
  | statement :: rest =>
    (resolveStatement_adds env statement).trans (resolveStatements_adds _ rest)

theorem resolveElse_adds (env : Environment) : ∀ statement,
    env.Adds (resolveElse env statement).2.1
      (Statement.elseDeclares (resolveElse env statement).1)
  | none => .refl env
  | some statement => resolveStatement_adds env statement

end

namespace Environment

/-! ## Resolved code is assured -/

/-- Every variable that a name stands for is assigned or loose, and what is assigned has a place
that is taken. -/
structure Knows (env : Environment) (assigned loose : Nat → Prop) : Prop where
  visible : ∀ block ∈ env.blocks, ∀ entry ∈ block,
    assigned entry.2.index ∨ loose entry.2.index
  taken : ∀ index, assigned index → index < env.frameSize

variable {env env' : Environment} {assigned loose : Nat → Prop}

namespace Knows

theorem openBlock (knows : env.Knows assigned loose) : env.openBlock.Knows assigned loose := by
  refine ⟨fun block hb entry he => ?_, knows.taken⟩
  rcases List.mem_cons.1 hb with rfl | hb
  · exact absurd he List.not_mem_nil
  · exact knows.visible block hb entry he

/-- What is known after a statement. -/
theorem after {statement : Statement} (knows : env.Knows assigned loose)
    (adds : env.Adds env' statement.declares) (hbare : ∀ index ∈ statement.bare, loose index) :
    env'.Knows (fun index => assigned index ∨ index ∈ statement.assigns) loose where
  visible := by
    intro block hb entry he
    rcases adds.entries block hb entry he with ⟨block', hb', he'⟩ | hp
    · exact (knows.visible block' hb' entry he').imp_left .inl
    · exact (statement.assigns_or_bare hp).imp .inr (hbare _)
  taken := by
    rintro index (hi | hi)
    · exact Nat.lt_of_lt_of_le (knows.taken index hi) adds.frameSize
    · cases statement with
      | «variable» => exact (adds.fresh index hi).2
      | block | conditional | loop | «return» | expression => cases hi

/-- What is known after a branch, if it stands bare. -/
theorem afterBare {statement : Statement} (knows : env.Knows assigned loose)
    (adds : env.Adds env' statement.declares) (hbare : ∀ index ∈ statement.declares, loose index) :
    env'.Knows assigned loose where
  visible := by
    intro block hb entry he
    rcases adds.entries block hb entry he with ⟨block', hb', he'⟩ | hp
    · exact knows.visible block' hb' entry he'
    · exact .inr (hbare _ hp)
  taken := fun index hi => Nat.lt_of_lt_of_le (knows.taken index hi) adds.frameSize

/-- What a name stands for may be read. -/
theorem reads (knows : env.Knows assigned loose) {name : String} {slot : Slot} {readOnly : Bool}
    (h : env.lookupVariable name = some (slot, readOnly)) :
    ∀ index ∈ slot.places, assigned index ∨ loose index := by
  unfold lookupVariable at h
  split at h
  · rename_i found hf
    cases h
    obtain ⟨block, hb, hl⟩ := List.exists_of_findSome?_eq_some hf
    obtain ⟨front, back, rfl, -⟩ := List.lookup_eq_some_iff.1 hl
    intro index hi
    rw [List.mem_singleton.1 hi]
    exact knows.visible _ hb (name, found) (by simp)
  · obtain ⟨found, -, hf⟩ := Option.map_eq_some_iff.1 h
    cases hf
    exact fun index hi => absurd hi List.not_mem_nil

end Knows

end Environment

section
variable {env : Environment} {assigned loose : Nat → Prop}

theorem assured_resolveCall (identifier : Token) (span : Span) {arguments : List Expression}
    (ha : Assured loose assigned (.expressions arguments)) :
    Assured loose assigned (.expression (resolveCall env identifier arguments span).1) := by
  unfold resolveCall
  dsimp only
  split
  · exact .invalid _
  · split
    · exact .call _ _ _ ha
    · exact .invalid _

mutual

theorem resolveExpression_assured (knows : env.Knows assigned loose) : ∀ expression,
    Assured loose assigned (.expression (resolveExpression env expression).1)
  | .literal _ value => .literal _ value
  | .name identifier => by
    unfold resolveExpression
    split
    · exact .invalid _
    · split
      · rename_i hl
        exact .variable _ (knows.reads hl)
      · exact .invalid _
  | .assignment identifier value => by
    have hv := resolveExpression_assured knows value
    simp only [resolveExpression]
    split
    · exact .invalid _
    · exact .assignment _ hv
    · exact .invalid _
  | .unary _ operand => .unary _ _ (resolveExpression_assured knows operand)
  | .binary left operator right => by
    have hl := resolveExpression_assured knows left
    have hr := resolveExpression_assured knows right
    simp only [resolveExpression]
    split
    · exact .binary _ _ hl hr
    · exact .invalid _
  | .parenthesized _ inner _ => resolveExpression_assured knows inner
  | .call identifier arguments _ =>
    assured_resolveCall identifier _ (resolveExpressions_assured knows arguments)

theorem resolveExpressions_assured (knows : env.Knows assigned loose) : ∀ expressions,
    Assured loose assigned (.expressions (resolveExpressions env expressions).1)
  | [] => .noExpressions _
  | expression :: rest =>
    .expressions (resolveExpression_assured knows expression)
      (resolveExpressions_assured knows rest)

end

end

mutual

theorem resolveStatement_assured {env : Environment} {assigned loose : Nat → Prop}
    (knows : env.Knows assigned loose) : ∀ statement,
    (∀ index ∈ (resolveStatement env statement).1.bare, loose index) →
      Assured loose assigned (.statement (resolveStatement env statement).1)
  | .block _ statements _, hbare => by
    refine .block (fun index hi ha => ?_)
      (resolveStatements_assured knows.openBlock statements hbare)
    -- A block declares new places only.
    have hnew := ((resolveStatements_adds env.openBlock statements).fresh index hi).1
    have hold := knows.taken index ha
    exact absurd hnew (Nat.not_le_of_lt hold)
  | .variable _ _ initializer, _ =>
    .declaration _ _ (resolveExpression_assured knows initializer)
  | .conditional _ condition thenBranch elseBranch, hbare => by
    have adds := resolveStatement_adds env thenBranch
    simp only [resolveStatement, Statement.bare, List.mem_append] at hbare
    refine .conditional (resolveExpression_assured knows condition)
      (resolveStatement_assured knows thenBranch fun index hi => hbare index (.inl (.inr hi)))
      fun statement hs => ?_
    have after := knows.afterBare adds fun index hi => hbare index (.inl (.inl hi))
    exact resolveElse_assured after elseBranch (fun index hi => hbare index (.inr hi)) statement hs
  | .loop _ condition body, hbare =>
    .loop (resolveExpression_assured knows condition)
      (resolveStatement_assured knows body fun index hi =>
        hbare index (List.mem_append_right _ hi))
  | .return _ none, _ => .returnNothing _
  | .return _ (some value), _ => .return (resolveExpression_assured knows value)
  | .expression expression, _ => .evaluation (resolveExpression_assured knows expression)

theorem resolveStatements_assured {env : Environment} {assigned loose : Nat → Prop}
    (knows : env.Knows assigned loose) : ∀ statements,
    (∀ index ∈ Statement.allBare (resolveStatements env statements).1, loose index) →
      Assured loose assigned (.statements (resolveStatements env statements).1)
  | [], _ => .noStatements _
  | statement :: rest, hbare => by
    have hfirst : ∀ index ∈ (resolveStatement env statement).1.bare, loose index :=
      fun index hi => hbare index (List.mem_append_left _ hi)
    exact .statements (resolveStatement_assured knows statement hfirst)
      (resolveStatements_assured (knows.after (resolveStatement_adds env statement) hfirst) rest
        fun index hi => hbare index (List.mem_append_right _ hi))

theorem resolveElse_assured {env : Environment} {assigned loose : Nat → Prop}
    (knows : env.Knows assigned loose) : ∀ branch,
    (∀ index ∈ Statement.elseBare (resolveElse env branch).1, loose index) →
      ∀ statement, (resolveElse env branch).1 = some statement →
        Assured loose assigned (.statement statement)
  | none, _, _, hs => by cases hs
  | some branch, hbare, _, hs => by
    cases hs
    exact resolveStatement_assured knows branch fun index hi =>
      hbare index (List.mem_append_right _ hi)

end

/-- The body of a function relies on its parameters, which take the first places of the frame. -/
theorem assured_resolveFunction {declaration : FunctionDeclaration} {ts : List Token}
    (hw : Syntax.Written (.function declaration) ts) (hm : ∀ token ∈ ts, token.missing = false)
    (globals : Environment) (symbol : FunctionSymbol) {loose : Nat → Prop}
    (hbare : ∀ index ∈ Statement.allBare (resolveFunction globals symbol declaration).1.body,
      loose index) :
    Assured loose (· < declaration.parameters.length)
      (.statements (resolveFunction globals symbol declaration).1.body) := by
  cases hw with
  | @function _ _ _ _ _ _ parameters body ts us _ _ _ hparameters _ _ hbody _ =>
    have present : ∀ parameter ∈ parameters, parameter.missing = false := by
      intro parameter hp
      exact hm parameter (by simp [mem_of_written hparameters parameter hp])
    have size : (declareParameters globals.enter parameters).1.frameSize = 0 + parameters.length :=
      globals.enter.frameSize_declareParameters (List.cons_ne_nil _ _) present
    have fit : (declareParameters globals.enter parameters).1.LocalsFit := by
      refine (globals.enter.declareParameters_grows parameters).locals fun block hb entry he => ?_
      rw [List.mem_singleton.1 hb] at he
      exact absurd he List.not_mem_nil
    have knows : (declareParameters globals.enter parameters).1.Knows (· < parameters.length)
        loose := by
      refine ⟨fun block hb entry he => .inl ?_, fun index hi => by omega⟩
      have hlt := fit block hb entry he
      omega
    exact resolveStatements_assured knows.openBlock body hbare

end Program

namespace Compilation

open Program (Assured Statement)

variable {texts : List String} {compilation : Compilation}

/-- All the code of a compilation is assured, if what stands bare in it is loose: functions with
their parameters, and the top level with nothing. -/
structure Assigned (compilation : Compilation) : Prop where
  functions : ∀ (id : FunctionId) (function : Program.Function),
    compilation.functions[id]? = some function →
      Assured (· ∈ Statement.allBare function.body) (· < function.symbol.parameters.length)
        (.statements function.body)
  statements : Assured (· ∈ Statement.allBare compilation.program.statements) (fun _ => False)
    (.statements compilation.program.statements)

theorem assigned_empty : Assigned empty where
  functions := by
    intro id function h
    rw [getElem?_functions_empty] at h
    cases h
  statements := .noStatements _

theorem Link.assigned {below : Compilation} {text : String}
    {declared : List (Program.FunctionSymbol × Syntax.FunctionDeclaration)}
    {env : Program.Environment} (link : Link texts below text declared env compilation)
    (assigned : below.Assigned) : compilation.Assigned where
  functions := by
    intro id function h
    rcases link.cases_function h with ⟨entry, he, -, rfl⟩ | h
    · obtain ⟨ts, hw, hm, hlength⟩ := link.written_declared he
      have assured := Program.assured_resolveFunction hw hm (Link.after text env) entry.1
        fun _ hi => hi
      rw [← hlength] at assured
      exact assured
    · exact assigned.functions id function h
  statements := by
    rw [link.resolves.statements]
    refine Program.resolveStatements_assured ⟨fun block hb => ?_, fun _ h => h.elim⟩ _
      fun _ hi => hi
    rw [link.resolves.declares.blocks] at hb
    exact absurd hb List.not_mem_nil

/-- The code of a clean chain relies on assigned places only, apart from those whose declaration
stands bare. -/
theorem assigned_of_clean {previous : Option Compilation} (clean : Clean texts previous) :
    (previous.getD empty).Assigned :=
  keeps_of_clean assigned_empty Link.assigned clean

end Compilation

end ReplayShell
