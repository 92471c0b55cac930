import ReplayShell.Proofs.Declarations

/-!
# What code can reach

Outside its frame resolved code can do two things: call functions and set global variables. Which,
is settled when it is resolved.

* `Reach` is a choice of functions and variables, `Within` the code that keeps to it.
* `Environment.Grants`: the reach allows what the names of an environment stand for.
* `resolveStatement_within` and its companions: whatever is resolved there keeps to the reach, right
  or wrong. `within_functions` and `within_statements` say so of a whole submission.
-/
namespace ReplayShell.Program

open Syntax (Token FunctionDeclaration)

/-- The functions that code may call, and the global variables that it may set. -/
structure Reach where
  calls : FunctionId → Prop
  sets : VariableId → Prop

namespace Reach

/-- The variable may be set; those of the frame always. -/
def Allows (reach : Reach) : Slot → Prop
  | .global id => reach.sets id
  | .local _ => True

/-- What is called may be called. -/
def Takes (reach : Reach) : Callee → Prop
  | .function id => reach.calls id
  | .print => True

/-- The second reach allows all that the first does. -/
structure Le (reach reach' : Reach) : Prop where
  calls : ∀ id, reach.calls id → reach'.calls id
  sets : ∀ id, reach.sets id → reach'.sets id

end Reach

/-- The code keeps to the reach. -/
inductive Within (reach : Reach) : Code → Prop
  | invalid : Within reach (.expression .invalid)
  | literal (value : Value) : Within reach (.expression (.literal value))
  | variable (ref : VariableRef) (span : Span) : Within reach (.expression (.variable ref span))
  | assignment {ref : VariableRef} {value : Expression} (hs : reach.Allows ref.slot)
      (hv : Within reach (.expression value)) : Within reach (.expression (.assignment ref value))
  | unary {operand : Expression} (op : UnaryOp) (span : Span)
      (ho : Within reach (.expression operand)) :
      Within reach (.expression (.unary op operand span))
  | binary {left right : Expression} (op : BinaryOp) (span : Span)
      (hl : Within reach (.expression left)) (hr : Within reach (.expression right)) :
      Within reach (.expression (.binary left op right span))
  | call {callee : Callee} {arguments : List Expression} (name : String) (span : Span)
      (ht : reach.Takes callee) (ha : Within reach (.expressions arguments)) :
      Within reach (.expression (.call name callee arguments span))
  | noExpressions : Within reach (.expressions [])
  | expressions {first : Expression} {rest : List Expression}
      (hf : Within reach (.expression first)) (hr : Within reach (.expressions rest)) :
      Within reach (.expressions (first :: rest))
  | block {statements : List Statement} (h : Within reach (.statements statements)) :
      Within reach (.statement (.block statements))
  | declaration {ref : VariableRef} {initializer : Expression} (readOnly : Bool)
      (hs : reach.Allows ref.slot) (hv : Within reach (.expression initializer)) :
      Within reach (.statement (.variable ref readOnly initializer))
  | conditional {condition : Expression} {thenBranch : Statement}
      (hc : Within reach (.expression condition)) (ht : Within reach (.statement thenBranch)) :
      Within reach (.statement (.conditional condition thenBranch none))
  | conditionalElse {condition : Expression} {thenBranch elseBranch : Statement}
      (hc : Within reach (.expression condition)) (ht : Within reach (.statement thenBranch))
      (he : Within reach (.statement elseBranch)) :
      Within reach (.statement (.conditional condition thenBranch (some elseBranch)))
  | loop {condition : Expression} {body : Statement} (hc : Within reach (.expression condition))
      (hb : Within reach (.statement body)) : Within reach (.statement (.loop condition body))
  | returnNothing : Within reach (.statement (.return none))
  | return {value : Expression} (hv : Within reach (.expression value)) :
      Within reach (.statement (.return (some value)))
  | evaluation {expression : Expression} (h : Within reach (.expression expression)) :
      Within reach (.statement (.expression expression))
  | noStatements : Within reach (.statements [])
  | statements {first : Statement} {rest : List Statement}
      (hf : Within reach (.statement first)) (hr : Within reach (.statements rest)) :
      Within reach (.statements (first :: rest))

theorem Within.mono {reach reach' : Reach} {code : Code} (h : Within reach code)
    (hle : reach.Le reach') : Within reach' code := by
  have allows : ∀ slot, reach.Allows slot → reach'.Allows slot := by
    intro slot hs
    cases slot with
    | global id => exact hle.sets id hs
    | «local» => trivial
  have takes : ∀ callee, reach.Takes callee → reach'.Takes callee := by
    intro callee ht
    cases callee with
    | function id => exact hle.calls id ht
    | print => trivial
  induction h with
  | invalid => exact .invalid
  | literal value => exact .literal value
  | «variable» ref span => exact .variable ref span
  | assignment hs _ ih => exact .assignment (allows _ hs) ih
  | unary op span _ ih => exact .unary op span ih
  | binary op span _ _ ihLeft ihRight => exact .binary op span ihLeft ihRight
  | call name span ht _ ih => exact .call name span (takes _ ht) ih
  | noExpressions => exact .noExpressions
  | expressions _ _ ihFirst ihRest => exact .expressions ihFirst ihRest
  | block _ ih => exact .block ih
  | declaration readOnly hs _ ih => exact .declaration readOnly (allows _ hs) ih
  | conditional _ _ ihCondition ihThen => exact .conditional ihCondition ihThen
  | conditionalElse _ _ _ ihCondition ihThen ihElse =>
    exact .conditionalElse ihCondition ihThen ihElse
  | loop _ _ ihCondition ihBody => exact .loop ihCondition ihBody
  | returnNothing => exact .returnNothing
  | «return» _ ih => exact .return ih
  | evaluation _ ih => exact .evaluation ih
  | noStatements => exact .noStatements
  | statements _ _ ihFirst ihRest => exact .statements ihFirst ihRest

/-! ## Names and what they may be used for -/

namespace Environment

/-- The reach allows what the names of the environment may be used for. At the top level every
variable of the submission may be set, since it is declared there. -/
structure Grants (env : Environment) (reach : Reach) : Prop where
  functions : ∀ (name : String) (symbol : FunctionSymbol),
    env.globals.functions[name]? = some symbol → reach.calls symbol.id
  vars : ∀ (name : String) (found : GlobalVariable), env.globals.vars[name]? = some found →
    found.readOnly = false → reach.sets found.id
  own : env.blocks = [] → ∀ ordinal, reach.sets ⟨env.generation, ordinal⟩

variable {env env' : Environment} {reach : Reach}

namespace Grants

theorem openBlock (grants : env.Grants reach) : env.openBlock.Grants reach :=
  ⟨grants.functions, grants.vars, fun hb => absurd hb (List.cons_ne_nil _ _)⟩

theorem declare (grants : env.Grants reach) (hb : env.blocks = []) (entry : Token × Bool) :
    (env.declare entry).Grants reach where
  functions := by
    intro name symbol h
    rw [Environment.declare, declareGlobal, Std.ExtTreeMap.getElem?_erase] at h
    split at h
    · cases h
    · exact grants.functions name symbol h
  vars := by
    intro name found h hw
    rw [Environment.declare, declareGlobal, Std.ExtTreeMap.getElem?_insert] at h
    split at h
    · cases h
      exact grants.own hb _
    · exact grants.vars name found h hw
  own := fun _ => grants.own hb

theorem foldl_declare (grants : env.Grants reach) (hb : env.blocks = [])
    (globals : List (Token × Bool)) : (globals.foldl Environment.declare env).Grants reach := by
  induction globals generalizing env with
  | nil => exact grants
  | cons entry rest ih => exact ih (grants.declare hb entry) hb

/-- What the names could be used for before some code, they can be used for after it. -/
theorem after {problems : List Diagnostic} {globals : List (Token × Bool)}
    (grants : env.Grants reach) (h : env.Declaring env' problems globals) :
    env'.Grants reach := by
  by_cases hb : env.blocks = []
  · have start : env.outside.Grants reach :=
      ⟨grants.functions, grants.vars, fun _ => grants.own hb⟩
    have outside := start.foldl_declare rfl globals
    have heq := h.outside
    rw [reaching, if_pos hb] at heq
    rw [← heq] at outside
    exact ⟨outside.functions, outside.vars, fun _ => outside.own rfl⟩
  · have houtside := h.globals_eq_nil hb
    have heq : env'.globals = env.globals := congrArg (fun env => env.globals) houtside
    exact ⟨heq ▸ grants.functions, heq ▸ grants.vars, fun hb' => absurd (h.atTop.1 hb') hb⟩

/-- A variable that is not read-only may be set. -/
theorem allows (grants : env.Grants reach) {name : String} {slot : Slot}
    (h : env.lookupVariable name = some (slot, false)) : reach.Allows slot := by
  unfold lookupVariable at h
  split at h
  · obtain ⟨hs, -⟩ := Prod.mk.inj (Option.some.inj h)
    subst hs
    trivial
  · obtain ⟨found, hf, heq⟩ := Option.map_eq_some_iff.1 h
    obtain ⟨hs, hr⟩ := Prod.mk.inj heq
    subst hs
    exact grants.vars name found hf hr

theorem takes (grants : env.Grants reach) {name : String} {callee : Callee} {arity : Nat}
    (h : env.lookupCallee name = some (callee, arity)) : reach.Takes callee := by
  unfold lookupCallee at h
  split at h
  · rename_i symbol hs
    cases h
    exact grants.functions name symbol hs
  · split at h <;> cases h
    trivial

/-- A variable that is declared may be set there. -/
theorem allows_declareVariable (grants : env.Grants reach) (identifier : Token)
    (readOnly : Bool) : reach.Allows (env.declareVariable identifier readOnly).1 := by
  unfold declareVariable
  split
  · trivial
  · rename_i hb
    exact grants.own hb _

end Grants

end Environment

/-! ## Resolved code keeps to the reach -/

section
variable {reach : Reach}

theorem within_resolveCall {env : Environment} {arguments : List Expression}
    (grants : env.Grants reach) (identifier : Token) (span : Span)
    (ha : Within reach (.expressions arguments)) :
    Within reach (.expression (resolveCall env identifier arguments span).1) := by
  unfold resolveCall
  dsimp only
  split
  · exact .invalid
  · rename_i hc
    split
    · exact .call _ _ (grants.takes hc) ha
    · exact .invalid

mutual

theorem resolveExpression_within {env : Environment} (grants : env.Grants reach) :
    ∀ expression, Within reach (.expression (resolveExpression env expression).1)
  | .literal _ value => .literal value
  | .name identifier => by
    unfold resolveExpression
    split
    · exact .invalid
    · split
      · exact .variable _ _
      · exact .invalid
  | .assignment identifier value => by
    have hv := resolveExpression_within grants value
    simp only [resolveExpression]
    split
    · exact .invalid
    · rename_i hl
      exact .assignment (grants.allows hl) hv
    · exact .invalid
  | .unary _ operand => .unary _ _ (resolveExpression_within grants operand)
  | .binary left operator right => by
    have hl := resolveExpression_within grants left
    have hr := resolveExpression_within grants right
    simp only [resolveExpression]
    split
    · exact .binary _ _ hl hr
    · exact .invalid
  | .parenthesized _ inner _ => resolveExpression_within grants inner
  | .call identifier arguments _ =>
    within_resolveCall grants identifier _ (resolveExpressions_within grants arguments)

theorem resolveExpressions_within {env : Environment} (grants : env.Grants reach) :
    ∀ expressions, Within reach (.expressions (resolveExpressions env expressions).1)
  | [] => .noExpressions
  | expression :: rest =>
    .expressions (resolveExpression_within grants expression)
      (resolveExpressions_within grants rest)

end

mutual

theorem resolveStatement_within {env : Environment} (grants : env.Grants reach) :
    ∀ statement, Within reach (.statement (resolveStatement env statement).1)
  | .block _ statements _ => .block (resolveStatements_within grants.openBlock statements)
  | .variable _ identifier initializer =>
    .declaration _ (grants.allows_declareVariable identifier _)
      (resolveExpression_within grants initializer)
  | .conditional _ condition thenBranch none =>
    .conditional (resolveExpression_within grants condition)
      (resolveStatement_within grants thenBranch)
  | .conditional _ condition thenBranch (some elseBranch) =>
    .conditionalElse (resolveExpression_within grants condition)
      (resolveStatement_within grants thenBranch)
      (resolveStatement_within (grants.after (resolveStatement_declaring env thenBranch))
        elseBranch)
  | .loop _ condition body =>
    .loop (resolveExpression_within grants condition) (resolveStatement_within grants body)
  | .return _ none => .returnNothing
  | .return _ (some value) => .return (resolveExpression_within grants value)
  | .expression expression => .evaluation (resolveExpression_within grants expression)

theorem resolveStatements_within {env : Environment} (grants : env.Grants reach) :
    ∀ statements, Within reach (.statements (resolveStatements env statements).1)
  | [] => .noStatements
  | statement :: rest =>
    .statements (resolveStatement_within grants statement)
      (resolveStatements_within (grants.after (resolveStatement_declaring env statement)) rest)

end

/-- The body of a function keeps to what the names of the session may be used for. -/
theorem resolveFunction_within {globals : Environment} (symbol : FunctionSymbol)
    (declaration : FunctionDeclaration)
    (hf : ∀ (name : String) (symbol : FunctionSymbol),
      globals.globals.functions[name]? = some symbol → reach.calls symbol.id)
    (hv : ∀ (name : String) (found : GlobalVariable), globals.globals.vars[name]? = some found →
      found.readOnly = false → reach.sets found.id) :
    Within reach (.statements (resolveFunction globals symbol declaration).1.body) := by
  have start : globals.enter.Grants reach := ⟨hf, hv, fun hb => absurd hb (List.cons_ne_nil _ _)⟩
  have declared := start.after (declareParameters_declaring _ declaration.parameters)
  exact resolveStatements_within declared.openBlock declaration.body

/-! ## Whole submissions -/

variable {scope : GlobalScope} {generation : Nat} {submission : Syntax.Submission}

/-- The functions of a submission keep to what the names visible after it may be used for. -/
theorem within_functions
    (hf : ∀ (name : String) (symbol : FunctionSymbol),
      (resolve scope generation submission).scope.functions[name]? = some symbol →
        reach.calls symbol.id)
    (hv : ∀ (name : String) (found : GlobalVariable),
      (resolve scope generation submission).scope.vars[name]? = some found →
        found.readOnly = false → reach.sets found.id) :
    ∀ function ∈ (resolve scope generation submission).functions,
      Within reach (.statements function.body) := by
  rw [functions_resolve]
  intro function hm
  obtain ⟨entry, -, rfl⟩ := List.mem_map.1 hm
  exact resolveFunction_within entry.1 entry.2 hf hv

/-- Its statements keep to the names visible before it, and to its own. -/
theorem within_statements
    (grants : (afterFunctions scope generation submission).Grants reach) :
    Within reach (.statements (resolve scope generation submission).statements) :=
  resolveStatements_within grants _

end

end ReplayShell.Program
