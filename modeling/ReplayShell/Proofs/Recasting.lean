import ReplayShell.Proofs.Reach
import ReplayShell.Proofs.Unplaced

/-!
# Resolved code under other numbers

Which numbers functions have and where code stands in its text does not matter to the resolution of
names.

* `recast` gives the functions that code calls other numbers and takes the places out of it.
* `recast_congr`: only the numbers of the functions that code may call matter.
* `Environment.Alike`: names stand for the same, but for the numbers of functions.
* `resolveExpression_recast`, `resolveStatement_recast` and their companions: in environments alike,
  code that differs in its places only is resolved to the same code, with the same problems.
  `resolveFunction_recast` says so of a whole function.
-/
namespace ReplayShell.Program

open Syntax (Token FunctionDeclaration)

variable (σ : FunctionId → FunctionId)

/-- The function under another number. -/
def FunctionSymbol.recast (symbol : FunctionSymbol) : FunctionSymbol :=
  { symbol with id := σ symbol.id }

/-- What is called, under another number. -/
def Callee.recast : Callee → Callee
  | .function id => .function (σ id)
  | .print => .print

mutual

/-- The expression with other numbers of functions, and without places. -/
def Expression.recast : Expression → Expression
  | .invalid => .invalid
  | .literal value => .literal value
  | .variable ref _ => .variable ref ⟨0, 0⟩
  | .assignment ref value => .assignment ref value.recast
  | .unary op operand _ => .unary op operand.recast ⟨0, 0⟩
  | .binary left op right _ => .binary left.recast op right.recast ⟨0, 0⟩
  | .call name callee arguments _ =>
    .call name (callee.recast σ) (recastExpressions arguments) ⟨0, 0⟩

/-- Expressions with other numbers of functions, and without places. -/
def recastExpressions : List Expression → List Expression
  | [] => []
  | first :: rest => first.recast :: recastExpressions rest

end

mutual

/-- The statement with other numbers of functions, and without places. -/
def Statement.recast : Statement → Statement
  | .block statements => .block (recastStatements statements)
  | .variable ref readOnly initializer => .variable ref readOnly (initializer.recast σ)
  | .conditional condition thenBranch elseBranch =>
    .conditional (condition.recast σ) thenBranch.recast (recastElse elseBranch)
  | .loop condition body => .loop (condition.recast σ) body.recast
  | .return value => .return (value.map (Expression.recast σ))
  | .expression expression => .expression (expression.recast σ)

/-- Statements with other numbers of functions, and without places. -/
def recastStatements : List Statement → List Statement
  | [] => []
  | first :: rest => first.recast :: recastStatements rest

/-- An else branch with other numbers of functions, and without places. -/
def recastElse : Option Statement → Option Statement
  | none => none
  | some elseBranch => some elseBranch.recast

end

/-- The function under another number, its code with other numbers and without places. -/
def Function.recast (function : Function) : Function where
  symbol := function.symbol.recast σ
  frameSize := function.frameSize
  body := recastStatements σ function.body

variable {σ}

@[simp] theorem length_recastExpressions (arguments : List Expression) :
    (recastExpressions σ arguments).length = arguments.length := by
  induction arguments with
  | nil => rfl
  | cons first rest ih => simp [recastExpressions, ih]

/-! ## Which numbers matter -/

/-- Code of any sort with other numbers of functions, and without places. -/
def Code.recast (σ : FunctionId → FunctionId) : Code → Code
  | .expression code => .expression (code.recast σ)
  | .expressions code => .expressions (recastExpressions σ code)
  | .statement code => .statement (code.recast σ)
  | .statements code => .statements (recastStatements σ code)

/-- Only the numbers of the functions that code may call matter to it. -/
theorem recast_congr {τ : FunctionId → FunctionId} {reach : Reach} {code : Code}
    (h : Within reach code) (hn : ∀ id, reach.calls id → σ id = τ id) :
    code.recast σ = code.recast τ := by
  have takes : ∀ callee, reach.Takes callee → callee.recast σ = callee.recast τ := by
    intro callee ht
    cases callee with
    | function id => exact congrArg Callee.function (hn id ht)
    | print => rfl
  induction h with
  | call name span ht _ ih =>
    simp_all [Code.recast, Expression.recast]
  | _ =>
    simp_all [Code.recast, Expression.recast, recastExpressions, Statement.recast, recastStatements,
      recastElse]

/-! ## Names that stand for the same -/

/-- Names stand for the same in both environments, but for the numbers of functions. -/
structure Environment.Alike (σ : FunctionId → FunctionId) (env env' : Environment) : Prop where
  generation : env'.generation = env.generation
  vars : env'.globals.vars = env.globals.vars
  functions : ∀ name : String,
    env'.globals.functions[name]? = env.globals.functions[name]?.map (FunctionSymbol.recast σ)
  declared : ∀ name, name ∈ env'.declared ↔ name ∈ env.declared
  nextVariable : env'.nextVariable = env.nextVariable
  blocks : env'.blocks = env.blocks
  frameSize : env'.frameSize = env.frameSize
  inFunction : env'.inFunction = env.inFunction

namespace Environment.Alike

variable {env env' : Environment}

theorem refl (env : Environment) : Alike id env env where
  generation := rfl
  vars := rfl
  functions name := by
    have hid : FunctionSymbol.recast id = id := rfl
    rw [hid, Option.map_id, id]
  declared _ := .rfl
  nextVariable := rfl
  blocks := rfl
  frameSize := rfl
  inFunction := rfl

/-- Environments are alike if both are alike to one under the same numbers as the second. -/
theorem of_id {common : Environment} (h : Alike σ env common) (h' : Alike id env' common) :
    Alike σ env env' where
  generation := h'.generation.symm.trans h.generation
  vars := h'.vars.symm.trans h.vars
  functions name := by
    have hid : FunctionSymbol.recast id = id := rfl
    have hcommon := h'.functions name
    rw [hid, Option.map_id, id] at hcommon
    rw [← hcommon, h.functions]
  declared name := (h'.declared name).symm.trans (h.declared name)
  nextVariable := h'.nextVariable.symm.trans h.nextVariable
  blocks := h'.blocks.symm.trans h.blocks
  frameSize := h'.frameSize.symm.trans h.frameSize
  inFunction := h'.inFunction.symm.trans h.inFunction

theorem openBlock (alike : Alike σ env env') : Alike σ env.openBlock env'.openBlock :=
  { alike with blocks := congrArg ([] :: ·) alike.blocks }

theorem closeBlock (alike : Alike σ env env') : Alike σ env.closeBlock env'.closeBlock :=
  { alike with blocks := congrArg List.tail alike.blocks }

theorem lookupVariable (alike : Alike σ env env') (name : String) :
    env'.lookupVariable name = env.lookupVariable name := by
  rw [Environment.lookupVariable, Environment.lookupVariable, alike.blocks, alike.vars]

theorem lookupCallee (alike : Alike σ env env') (name : String) :
    env'.lookupCallee name =
      (env.lookupCallee name).map fun found => (found.1.recast σ, found.2) := by
  rw [Environment.lookupCallee, Environment.lookupCallee, alike.functions]
  cases env.globals.functions[name]? with
  | some symbol => rfl
  | none => by_cases h : name = "print" <;> simp [h, Callee.recast]

end Environment.Alike

/-- What is found in the one environment is what is found in the other, recast; the problems are the
same but for their places, and the environments are still alike. -/
structure Resembles (σ : FunctionId → FunctionId) {α : Type} (recast : α → α)
    (found found' : α × Environment × List Diagnostic) : Prop where
  code : found'.1 = recast found.1
  alike : found.2.1.Alike σ found'.2.1
  problems : found'.2.2 = found.2.2.map Diagnostic.unplaced

/-! ## Declarations and calls -/

section

variable {env env' : Environment}

theorem Environment.duplicate_unplaced (identifier : Token) (taken : Bool) :
    duplicate identifier.unplaced taken =
      (duplicate identifier taken).map Diagnostic.unplaced := by
  cases identifier
  cases taken <;> simp [duplicate, Token.unplaced, Diagnostic.unplaced, apply_ite]

theorem Environment.Alike.declareVariable (alike : Alike σ env env') (identifier : Token)
    (readOnly : Bool) :
    Resembles σ id (env.declareVariable identifier readOnly)
      (env'.declareVariable identifier.unplaced readOnly) := by
  have htext : identifier.unplaced.text = identifier.text := rfl
  unfold Environment.declareVariable
  rw [alike.blocks]
  cases env.blocks with
  | cons block outer =>
    refine ⟨congrArg Slot.local alike.frameSize, ?_, duplicate_unplaced _ _⟩
    exact { alike with
      blocks := by simp [declareLocal, alike.frameSize, htext]
      frameSize := congrArg (· + 1) alike.frameSize }
  | nil =>
    have hcontains : env'.declared.contains identifier.text =
        env.declared.contains identifier.text := by
      rw [Bool.eq_iff_iff, List.contains_iff_mem, List.contains_iff_mem, alike.declared]
    refine ⟨?_, ?_, ?_⟩
    · simp [declareGlobal, alike.generation, alike.nextVariable]
    · refine { alike with
        vars := ?_, functions := fun name => ?_, declared := fun name => ?_, nextVariable := ?_ }
      · simp [declareGlobal, alike.vars, alike.generation, alike.nextVariable, htext]
      · simp only [declareGlobal, Std.ExtTreeMap.getElem?_erase, alike.functions, htext]
        split <;> rfl
      · have hmissing : identifier.unplaced.missing = identifier.missing := rfl
        simp only [declareGlobal, hmissing, htext]
        split
        · exact alike.declared name
        · rw [List.mem_cons, List.mem_cons, alike.declared]
      · exact congrArg (· + 1) alike.nextVariable
    · rw [declareGlobal, declareGlobal, htext, hcontains, duplicate_unplaced]

theorem resolveCall_recast (alike : env.Alike σ env') (identifier : Token)
    (arguments : List Expression) (span : Span) :
    resolveCall env' identifier.unplaced (recastExpressions σ arguments) ⟨0, 0⟩ =
      ((resolveCall env identifier arguments span).1.recast σ,
        (resolveCall env identifier arguments span).2.map Diagnostic.unplaced) := by
  have htext : identifier.unplaced.text = identifier.text := rfl
  simp only [resolveCall, htext, alike.lookupCallee, alike.lookupVariable, length_recastExpressions]
  cases env.lookupCallee identifier.text with
  | none => rfl
  | some found =>
    obtain ⟨callee, arity⟩ := found
    simp only [Option.map_some]
    split <;> rfl

/-! ## Code -/

theorem span_unplaced : ∀ expression : Syntax.Expression, expression.unplaced.span = ⟨0, 0⟩
  | .literal _ _ | .name _ | .parenthesized _ _ _ | .call _ _ _ => rfl
  | .assignment _ value => congrArg (Span.to ⟨0, 0⟩) (span_unplaced value)
  | .unary _ operand => congrArg (Span.to ⟨0, 0⟩) (span_unplaced operand)
  | .binary left _ right => congrArg₂ Span.to (span_unplaced left) (span_unplaced right)

mutual

theorem resolveExpression_recast (alike : env.Alike σ env') : ∀ expression : Syntax.Expression,
    resolveExpression env' expression.unplaced =
      ((resolveExpression env expression).1.recast σ,
        (resolveExpression env expression).2.map Diagnostic.unplaced)
  | .literal _ _ => rfl
  | .name identifier => by
    have htext : identifier.unplaced.text = identifier.text := rfl
    have hmissing : identifier.unplaced.missing = identifier.missing := rfl
    simp only [Syntax.Expression.unplaced, resolveExpression, htext, hmissing, alike.lookupVariable]
    cases identifier.missing with
    | true => rfl
    | false => cases env.lookupVariable identifier.text <;> rfl
  | .assignment identifier value => by
    have ih := resolveExpression_recast alike value
    have htext : identifier.unplaced.text = identifier.text := rfl
    simp only [Syntax.Expression.unplaced, resolveExpression, htext, ih, alike.lookupVariable]
    match env.lookupVariable identifier.text with
    | some (_, true) | none => simp [Expression.recast, Diagnostic.unplaced, Token.unplaced]
    | some (_, false) => rfl
  | .unary operator operand => by
    have ih := resolveExpression_recast alike operand
    simp only [Syntax.Expression.unplaced, resolveExpression, ih, span_unplaced]
    rfl
  | .binary left operator right => by
    have ihLeft := resolveExpression_recast alike left
    have ihRight := resolveExpression_recast alike right
    have hkind : operator.unplaced.kind = operator.kind := rfl
    simp only [Syntax.Expression.unplaced, resolveExpression, ihLeft, ihRight, span_unplaced, hkind]
    cases BinaryOp.ofKind? operator.kind <;> simp [Expression.recast, Span.to]
  | .parenthesized _ inner _ => resolveExpression_recast alike inner
  | .call identifier arguments closing => by
    have ih := resolveExpressions_recast alike arguments
    have hspan : identifier.unplaced.span.to closing.unplaced.span = ⟨0, 0⟩ := rfl
    simp only [Syntax.Expression.unplaced, resolveExpression, ih, hspan]
    rw [resolveCall_recast alike identifier _ (identifier.span.to closing.span), List.map_append]

theorem resolveExpressions_recast (alike : env.Alike σ env') :
    ∀ expressions : List Syntax.Expression,
      resolveExpressions env' (Syntax.unplacedExpressions expressions) =
        (recastExpressions σ (resolveExpressions env expressions).1,
          (resolveExpressions env expressions).2.map Diagnostic.unplaced)
  | [] => rfl
  | first :: rest => by
    have ih := resolveExpression_recast alike first
    have ihRest := resolveExpressions_recast alike rest
    simp only [Syntax.unplacedExpressions, resolveExpressions, ih, ihRest, recastExpressions,
      List.map_append]

end

end

mutual

theorem resolveStatement_recast {env env' : Environment} (alike : env.Alike σ env') :
    ∀ statement : Syntax.Statement, Resembles σ (Statement.recast σ)
      (resolveStatement env statement) (resolveStatement env' statement.unplaced)
  | .block _ statements _ => by
    have ih := resolveStatements_recast alike.openBlock statements
    exact ⟨congrArg Statement.block ih.code, ih.alike.closeBlock, ih.problems⟩
  | .variable keyword identifier initializer => by
    have hvalue := resolveExpression_recast alike initializer
    have ih := alike.declareVariable identifier (keyword.kind = .letKeyword)
    refine ⟨?_, ih.alike, ?_⟩
    · have hslot := ih.code
      simp only [Syntax.Statement.unplaced, resolveStatement, hvalue, Statement.recast]
      exact congrArg (Statement.variable ⟨identifier.text, ·⟩ _ _) hslot
    · simp only [Syntax.Statement.unplaced, resolveStatement, hvalue, List.map_append]
      exact congrArg _ ih.problems
  | .conditional _ condition thenBranch elseBranch => by
    have hcondition := resolveExpression_recast alike condition
    have ihThen := resolveStatement_recast alike thenBranch
    have ihElse := resolveElse_recast ihThen.alike elseBranch
    refine ⟨?_, ihElse.alike, ?_⟩
    · simp only [Syntax.Statement.unplaced, resolveStatement, hcondition, Statement.recast,
        ihThen.code, ihElse.code]
    · simp only [Syntax.Statement.unplaced, resolveStatement, hcondition, List.map_append,
        ihThen.problems, ihElse.problems]
  | .loop _ condition body => by
    have hcondition := resolveExpression_recast alike condition
    have ih := resolveStatement_recast alike body
    refine ⟨?_, ih.alike, ?_⟩
    · simp only [Syntax.Statement.unplaced, resolveStatement, hcondition, Statement.recast, ih.code]
    · simp only [Syntax.Statement.unplaced, resolveStatement, hcondition, List.map_append,
        ih.problems]
  | .return keyword none => by
    refine ⟨rfl, alike, ?_⟩
    simp only [Syntax.Statement.unplaced, resolveStatement, Option.map_none, alike.inFunction]
    split <;> rfl
  | .return keyword (some value) => by
    have hvalue := resolveExpression_recast alike value
    refine ⟨?_, alike, ?_⟩
    · simp only [Syntax.Statement.unplaced, resolveStatement, Option.map_some, hvalue,
        Statement.recast]
    · simp only [Syntax.Statement.unplaced, resolveStatement, Option.map_some, hvalue,
        alike.inFunction, List.map_append]
      split <;> rfl
  | .expression expression => by
    have hvalue := resolveExpression_recast alike expression
    refine ⟨?_, alike, ?_⟩ <;>
      simp only [Syntax.Statement.unplaced, resolveStatement, hvalue, Statement.recast]

theorem resolveStatements_recast {env env' : Environment} (alike : env.Alike σ env') :
    ∀ statements : List Syntax.Statement, Resembles σ (recastStatements σ)
      (resolveStatements env statements)
      (resolveStatements env' (Syntax.unplacedStatements statements))
  | [] => ⟨rfl, alike, rfl⟩
  | first :: rest => by
    have ih := resolveStatement_recast alike first
    have ihRest := resolveStatements_recast ih.alike rest
    refine ⟨congrArg₂ List.cons ih.code ihRest.code, ihRest.alike, ?_⟩
    simp only [Syntax.unplacedStatements, resolveStatements, List.map_append, ih.problems,
      ihRest.problems]

theorem resolveElse_recast {env env' : Environment} (alike : env.Alike σ env') :
    ∀ elseBranch : Option Syntax.Statement, Resembles σ (recastElse σ)
      (resolveElse env elseBranch) (resolveElse env' (Syntax.unplacedElse elseBranch))
  | none => ⟨rfl, alike, rfl⟩
  | some elseBranch => by
    have ih := resolveStatement_recast alike elseBranch
    exact ⟨congrArg some ih.code, ih.alike, ih.problems⟩

end

/-- Parameters are declared in the same places. -/
theorem declareParameters_recast {env env' : Environment} (alike : env.Alike σ env')
    (parameters : List Token) :
    (declareParameters env parameters).1.Alike σ
        (declareParameters env' (parameters.map Token.unplaced)).1 ∧
      (declareParameters env' (parameters.map Token.unplaced)).2 =
        (declareParameters env parameters).2.map Diagnostic.unplaced := by
  induction parameters generalizing env env' with
  | nil => exact ⟨alike, rfl⟩
  | cons parameter rest ih =>
    have hmissing : parameter.unplaced.missing = parameter.missing := rfl
    simp only [List.map_cons, declareParameters, hmissing]
    split
    · exact ih alike
    · have first := alike.declareVariable parameter false
      obtain ⟨halike, hproblems⟩ := ih first.alike
      exact ⟨halike, by rw [first.problems, hproblems, List.map_append]⟩

/-- The body of a function is resolved to the same code. -/
theorem resolveFunction_recast {env env' : Environment} (alike : env.Alike σ env')
    (symbol : FunctionSymbol) (declaration : FunctionDeclaration) :
    resolveFunction env' (symbol.recast σ) declaration.unplaced =
      ((resolveFunction env symbol declaration).1.recast σ,
        (resolveFunction env symbol declaration).2.map Diagnostic.unplaced) := by
  have entered : Environment.Alike σ
      { env with inFunction := true, frameSize := 0, blocks := [[]] }
      { env' with inFunction := true, frameSize := 0, blocks := [[]] } :=
    { alike with inFunction := rfl, frameSize := rfl, blocks := rfl }
  obtain ⟨declared, hparameters⟩ := declareParameters_recast entered declaration.parameters
  have hbody := resolveStatements_recast declared.openBlock declaration.body
  have hsize := hbody.alike.frameSize
  simp only [resolveFunction, FunctionDeclaration.unplaced, hparameters, hbody.code, hbody.problems,
    hsize, List.map_append]
  rfl

end ReplayShell.Program
