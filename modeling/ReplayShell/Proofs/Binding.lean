import ReplayShell.Proofs.Grammar
import ReplayShell.Proofs.Soundness
import ReplayShell.Program.Resolution

/-!
# Resolution yields sound code

* `Environment.Grows` is what resolving a statement does to the environment, right or wrong;
  `Environment.Fits` is what a context must have for the names that an environment knows.
* `binds_of_written`: a tree written by the grammar, if nothing is wrong with its names, resolves
  to sound code.
* `sound_resolveFunction` is the same for the body of a function, in a frame of its own.
-/
namespace ReplayShell

namespace Program

open Syntax (Token Tree Written Occurs FunctionDeclaration)

namespace Environment

/-! ## What resolving does to an environment -/

/-- Every local variable has a place that is taken. -/
def LocalsFit (env : Environment) : Prop :=
  ∀ block ∈ env.blocks, ∀ entry ∈ block, entry.2.index < env.frameSize

/-- What resolving a statement may do to an environment. -/
structure Grows (env env' : Environment) : Prop where
  frameSize : env.frameSize ≤ env'.frameSize
  locals : env.LocalsFit → env'.LocalsFit
  /-- Functions can be shadowed, but not declared. -/
  functions : ∀ (name : String) (symbol : FunctionSymbol),
    env'.globals.functions[name]? = some symbol → env.globals.functions[name]? = some symbol
  inFunction : env'.inFunction = env.inFunction
  generation : env'.generation = env.generation

variable {env env' env'' : Environment}

namespace Grows

theorem refl (env : Environment) : Grows env env :=
  ⟨Nat.le_refl _, id, fun _ _ h => h, rfl, rfl⟩

theorem trans (h : Grows env env') (h' : Grows env' env'') : Grows env env'' where
  frameSize := Nat.le_trans h.frameSize h'.frameSize
  locals := fun hl => h'.locals (h.locals hl)
  functions := fun name symbol hs => h.functions name symbol (h'.functions name symbol hs)
  inFunction := h'.inFunction.trans h.inFunction
  generation := h'.generation.trans h.generation

end Grows

theorem grows_declareVariable (env : Environment) (identifier : Token) (readOnly : Bool) :
    env.Grows (env.declareVariable identifier readOnly).2.1 := by
  unfold declareVariable
  split
  · rename_i block outer hb
    refine ⟨Nat.le_succ _, fun hl => ?_, fun _ _ h => h, rfl, rfl⟩
    intro block' hm entry he
    rw [declareLocal, List.mem_cons] at hm
    rcases hm with rfl | hm
    · rw [List.mem_cons] at he
      rcases he with rfl | he
      · exact Nat.lt_succ_self _
      · exact Nat.lt_succ_of_lt (hl block (by simp [hb]) entry he)
    · exact Nat.lt_succ_of_lt (hl block' (by simp [hb, hm]) entry he)
  · refine ⟨Nat.le_refl _, id, fun name symbol h => ?_, rfl, rfl⟩
    rw [declareGlobal, Std.ExtTreeMap.getElem?_erase] at h
    split at h
    · cases h
    · exact h

theorem grows_openBlock (env : Environment) : env.Grows env.openBlock := by
  refine ⟨Nat.le_refl _, fun hl => ?_, fun _ _ h => h, rfl, rfl⟩
  intro block hm entry he
  rw [openBlock, List.mem_cons] at hm
  rcases hm with rfl | hm
  · exact absurd he List.not_mem_nil
  · exact hl block hm entry he

theorem grows_closeBlock (env : Environment) : env.Grows env.closeBlock :=
  ⟨Nat.le_refl _, fun hl block hm => hl block (List.mem_of_mem_tail hm), fun _ _ h => h, rfl, rfl⟩

end Environment

mutual

theorem resolveStatement_grows (env : Environment) :
    ∀ statement, env.Grows (resolveStatement env statement).2.1
  | .block _ statements _ =>
    (env.grows_openBlock.trans (resolveStatements_grows env.openBlock statements)).trans
      (Environment.grows_closeBlock _)
  | .variable keyword identifier _ =>
    env.grows_declareVariable identifier (keyword.kind = .letKeyword)
  | .conditional _ _ thenBranch elseBranch =>
    (resolveStatement_grows env thenBranch).trans (resolveElse_grows _ elseBranch)
  | .loop _ _ body => resolveStatement_grows env body
  | .return _ none => .refl env
  | .return _ (some _) => .refl env
  | .expression _ => .refl env

theorem resolveStatements_grows (env : Environment) :
    ∀ statements, env.Grows (resolveStatements env statements).2.1
  | [] => .refl env
  | statement :: rest =>
    (resolveStatement_grows env statement).trans (resolveStatements_grows _ rest)

theorem resolveElse_grows (env : Environment) :
    ∀ statement, env.Grows (resolveElse env statement).2.1
  | none => .refl env
  | some statement => resolveStatement_grows env statement

end

/-! ## What a context must have for an environment -/

namespace Environment

/-- The context has the functions of the environment, and allows a return where it does. -/
structure Fits (env : Environment) (context : Context) : Prop where
  locals : env.LocalsFit
  functions : ∀ (name : String) (symbol : FunctionSymbol),
    env.globals.functions[name]? = some symbol →
      context.arity symbol.id = some symbol.parameters.length
  inFunction : env.inFunction = true → context.inFunction = true

variable {env env' : Environment} {context : Context}

theorem Fits.grow (fits : env.Fits context) (h : env.Grows env') : env'.Fits context where
  locals := h.locals fits.locals
  functions := fun name symbol hs => fits.functions name symbol (h.functions name symbol hs)
  inFunction := fun hf => fits.inFunction (h.inFunction ▸ hf)

/-- What a name stands for is there. -/
theorem Fits.holds (fits : env.Fits context) (hs : env.frameSize ≤ context.size) {name : String}
    {slot : Slot} {readOnly : Bool} (h : env.lookupVariable name = some (slot, readOnly)) :
    context.Holds slot := by
  unfold lookupVariable at h
  split at h
  · rename_i found hf
    cases h
    obtain ⟨block, hb, hl⟩ := List.exists_of_findSome?_eq_some hf
    obtain ⟨front, back, rfl, -⟩ := List.lookup_eq_some_iff.1 hl
    exact Nat.lt_of_lt_of_le (fits.locals _ hb (name, found) (by simp)) hs
  · obtain ⟨found, -, hf⟩ := Option.map_eq_some_iff.1 h
    cases hf
    trivial

/-- What is called by a name takes as many arguments as are said. -/
theorem Fits.takes (fits : env.Fits context) {name : String} {callee : Callee} {arity : Nat}
    (h : env.lookupCallee name = some (callee, arity)) : context.Takes callee arity := by
  unfold lookupCallee at h
  split at h
  · rename_i symbol hs
    cases h
    exact fits.functions name symbol hs
  · split at h
    · cases h
      rfl
    · cases h

/-- A declared variable has a place in the frame as it is afterwards. -/
theorem holds_declareVariable (env : Environment) (identifier : Token) (readOnly : Bool)
    (hs : (env.declareVariable identifier readOnly).2.1.frameSize ≤ context.size) :
    context.Holds (env.declareVariable identifier readOnly).1 := by
  unfold declareVariable at hs ⊢
  split at hs
  · exact hs
  · trivial

end Environment

/-! ## Resolution of what the grammar writes -/

/-- If nothing is wrong with the names of the tree, it resolves to sound code, in any context that
has what the environment knows, the frame as it is afterwards, and the places of the tree. -/
def Binds : Tree → Prop
  | .expression expression => ∀ (env : Environment) (context : Context),
    (∀ part, Occurs part (.expression expression) → context.placed part.span) →
      env.Fits context → env.frameSize ≤ context.size → (resolveExpression env expression).2 = [] →
        Sound context (.expression (resolveExpression env expression).1)
  | .expressions expressions => ∀ (env : Environment) (context : Context),
    (∀ part, Occurs part (.expressions expressions) → context.placed part.span) →
      env.Fits context → env.frameSize ≤ context.size →
        (resolveExpressions env expressions).2 = [] →
          Sound context (.expressions (resolveExpressions env expressions).1)
  | .statement statement => ∀ (env : Environment) (context : Context),
    (∀ part, Occurs part (.statement statement) → context.placed part.span) →
      env.Fits context → (resolveStatement env statement).2.1.frameSize ≤ context.size →
        (resolveStatement env statement).2.2 = [] →
          Sound context (.statement (resolveStatement env statement).1)
  | .statements statements => ∀ (env : Environment) (context : Context),
    (∀ part, Occurs part (.statements statements) → context.placed part.span) →
      env.Fits context → (resolveStatements env statements).2.1.frameSize ≤ context.size →
        (resolveStatements env statements).2.2 = [] →
          Sound context (.statements (resolveStatements env statements).1)
  | _ => True

/-- A call without a problem is of something that takes its arguments. -/
theorem sound_resolveCall {env : Environment} {context : Context} {identifier : Token}
    {arguments : List Expression} {span : Span} (fits : env.Fits context)
    (hp : context.placed span) (ha : Sound context (.expressions arguments))
    (h : (resolveCall env identifier arguments span).2 = []) :
    Sound context (.expression (resolveCall env identifier arguments span).1) := by
  unfold resolveCall at h ⊢
  dsimp only at h ⊢
  split at h
  · cases h
  · rename_i callee arity hc
    split at h
    · rename_i hl
      rw [if_pos hl]
      exact .call (hl ▸ fits.takes hc) ha hp
    · cases h

theorem binds_of_written {tree : Tree} {ts : List Token} (h : Written tree ts)
    (hm : ∀ token ∈ ts, token.missing = false) : Binds tree := by
  induction h with
  | token | noTokens | lastToken | tokens | function | functionMember | statementMember | noMembers
  | members => trivial
  | literal => exact fun _ _ _ _ _ _ => .literal _
  | @name identifier _ =>
    intro env context placed fits hs hp
    have hpresent : identifier.missing = false := hm identifier (by simp)
    simp only [resolveExpression, hpresent, Bool.false_eq_true, if_false] at hp ⊢
    split at hp
    · rename_i slot readOnly hl
      exact .variable (fits.holds hs hl) (placed _ .self)
    · cases hp
  | @assignment identifier equals value ts _ _ _ ih =>
    intro env context placed fits hs hp
    simp only [resolveExpression] at hp ⊢
    split at hp
    · exact absurd hp (by simp)
    · rename_i slot hl
      have hv := ih (fun token ht => hm token (by simp [ht])) env context
        (fun part ho => placed part (.assignment ho)) fits hs hp
      exact .assignment (fits.holds hs hl) hv
    · exact absurd hp (by simp)
  | unary _ _ ih =>
    intro env context placed fits hs hp
    have ho := ih (fun token ht => hm token (by simp [ht])) env context
      (fun part ho => placed part (.unary ho)) fits hs hp
    exact .unary ho (placed _ .self)
  | @binary left right operator ts us _ hk _ ihLeft ihRight =>
    intro env context placed fits hs hp
    obtain ⟨op, hop⟩ := Option.isSome_iff_exists.1 ((BinaryOp.ofKind?_isSome_iff _).2 hk)
    simp only [resolveExpression, hop] at hp ⊢
    obtain ⟨hpl, hpr⟩ := List.append_eq_nil_iff.1 hp
    have hl := ihLeft (fun token ht => hm token (by simp [ht])) env context
      (fun part ho => placed part (.binaryLeft ho)) fits hs hpl
    have hr := ihRight (fun token ht => hm token (by simp [ht])) env context
      (fun part ho => placed part (.binaryRight ho)) fits hs hpr
    exact .binary hl hr (placed _ .self)
  | parenthesized _ _ _ ih =>
    intro env context placed fits hs hp
    exact ih (fun token ht => hm token (by simp [ht])) env context
      (fun part ho => placed part (.parenthesized ho)) fits hs hp
  | call _ _ _ _ ih =>
    intro env context placed fits hs hp
    obtain ⟨hpa, hpc⟩ := List.append_eq_nil_iff.1 hp
    have ha := ih (fun token ht => hm token (by simp [ht])) env context
      (fun part ho => placed part (.argument ho)) fits hs hpa
    exact sound_resolveCall fits (placed _ .self) ha hpc
  | noExpressions => exact fun _ _ _ _ _ _ => .noExpressions
  | lastExpression _ ih =>
    intro env context placed fits hs hp
    have hf := ih hm env context (fun part ho => placed part (.firstExpression ho)) fits hs
      (List.append_eq_nil_iff.1 hp).1
    exact .expressions hf .noExpressions
  | expressions _ _ _ ihFirst ihMore =>
    intro env context placed fits hs hp
    obtain ⟨hpf, hpm⟩ := List.append_eq_nil_iff.1 hp
    have hf := ihFirst (fun token ht => hm token (by simp [ht])) env context
      (fun part ho => placed part (.firstExpression ho)) fits hs hpf
    have hr := ihMore (fun token ht => hm token (by simp [ht])) env context
      (fun part ho => placed part (.moreExpressions ho)) fits hs hpm
    exact .expressions hf hr
  | block _ _ _ ih =>
    intro env context placed fits hs hp
    exact .block (ih (fun token ht => hm token (by simp [ht])) env.openBlock context
      (fun part ho => placed part (.block ho)) (fits.grow env.grows_openBlock) hs hp)
  | @«variable» keyword identifier equals initializer ts _ _ _ _ ih =>
    intro env context placed fits hs hp
    have hle : env.frameSize ≤ context.size :=
      Nat.le_trans (env.grows_declareVariable identifier (keyword.kind = .letKeyword)).frameSize hs
    have hv := ih (fun token ht => hm token (by simp [ht])) env context
      (fun part ho => placed part (.initializer ho)) fits hle (List.append_eq_nil_iff.1 hp).1
    exact .declaration (env.holds_declareVariable identifier _ hs) hv
  | @conditionalElse keyword otherwise condition thenBranch elseBranch ts us vs _ _ _ _ _ ihCondition
      ihThen ihElse =>
    intro env context placed fits hs hp
    obtain ⟨hpc, hpb⟩ := List.append_eq_nil_iff.1 hp
    obtain ⟨hpt, hpe⟩ := List.append_eq_nil_iff.1 hpb
    have grows := resolveStatement_grows env thenBranch
    have grows' := resolveStatement_grows (resolveStatement env thenBranch).2.1 elseBranch
    have hst := Nat.le_trans grows'.frameSize hs
    have hc := ihCondition (fun token ht => hm token (by simp [ht])) env context
      (fun part ho => placed part (.condition ho)) fits (Nat.le_trans grows.frameSize hst) hpc
    have ht := ihThen (fun token ht => hm token (by simp [ht])) env context
      (fun part ho => placed part (.thenBranch ho)) fits hst hpt
    have he := ihElse (fun token ht => hm token (by simp [ht])) _ context
      (fun part ho => placed part (.elseBranch ho)) (fits.grow grows) hs hpe
    exact .conditionalElse hc ht he
  | @conditional keyword condition thenBranch ts us _ _ _ ihCondition ihThen =>
    intro env context placed fits hs hp
    obtain ⟨hpc, hpb⟩ := List.append_eq_nil_iff.1 hp
    have grows := resolveStatement_grows env thenBranch
    have hc := ihCondition (fun token ht => hm token (by simp [ht])) env context
      (fun part ho => placed part (.condition ho)) fits (Nat.le_trans grows.frameSize hs) hpc
    have ht := ihThen (fun token ht => hm token (by simp [ht])) env context
      (fun part ho => placed part (.thenBranch ho)) fits hs (List.append_eq_nil_iff.1 hpb).1
    exact .conditional hc ht
  | @loop keyword condition body ts us _ _ _ ihCondition ihBody =>
    intro env context placed fits hs hp
    obtain ⟨hpc, hpb⟩ := List.append_eq_nil_iff.1 hp
    have grows := resolveStatement_grows env body
    have hc := ihCondition (fun token ht => hm token (by simp [ht])) env context
      (fun part ho => placed part (.loopCondition ho)) fits (Nat.le_trans grows.frameSize hs) hpc
    have hb := ihBody (fun token ht => hm token (by simp [ht])) env context
      (fun part ho => placed part (.loopBody ho)) fits hs hpb
    exact .loop hc hb
  | @returnNothing keyword _ =>
    intro env context placed fits hs hp
    cases hf : env.inFunction with
    | true => exact .returnNothing (fits.inFunction hf)
    | false => simp [resolveStatement, hf] at hp
  | @«return» keyword value ts _ _ ih =>
    intro env context placed fits hs hp
    obtain ⟨hpr, hpv⟩ := List.append_eq_nil_iff.1 hp
    have hv := ih (fun token ht => hm token (by simp [ht])) env context
      (fun part ho => placed part (.returned ho)) fits hs hpv
    cases hf : env.inFunction with
    | true => exact .return (fits.inFunction hf) hv
    | false => simp [hf] at hpr
  | expression _ ih =>
    intro env context placed fits hs hp
    exact .evaluation (ih hm env context (fun part ho => placed part (.evaluated ho)) fits hs hp)
  | noStatements => exact fun _ _ _ _ _ _ => .noStatements
  | @statements first more ts us _ _ ihFirst ihMore =>
    intro env context placed fits hs hp
    obtain ⟨hpf, hpm⟩ := List.append_eq_nil_iff.1 hp
    have grows := resolveStatement_grows env first
    have grows' := resolveStatements_grows (resolveStatement env first).2.1 more
    have hf := ihFirst (fun token ht => hm token (by simp [ht])) env context
      (fun part ho => placed part (.firstStatement ho)) fits (Nat.le_trans grows'.frameSize hs) hpf
    have hr := ihMore (fun token ht => hm token (by simp [ht])) _ context
      (fun part ho => placed part (.moreStatements ho)) (fits.grow grows) hs hpm
    exact .statements hf hr

/-! ## Functions -/

namespace Environment

/-- Where the parameters of a function are declared. -/
def enter (globals : Environment) : Environment :=
  { globals with inFunction := true, frameSize := 0, blocks := [[]] }

theorem declareParameters_grows (env : Environment) (parameters : List Token) :
    env.Grows (declareParameters env parameters).1 := by
  induction parameters generalizing env with
  | nil => exact .refl env
  | cons parameter rest ih =>
    unfold declareParameters
    by_cases hm : parameter.missing = true
    · rw [if_pos hm]
      exact ih env
    · rw [if_neg hm]
      exact (env.grows_declareVariable parameter false).trans (ih _)

/-- In a block each parameter takes a place of the frame. -/
theorem frameSize_declareParameters (env : Environment) {parameters : List Token}
    (hb : env.blocks ≠ []) (hm : ∀ parameter ∈ parameters, parameter.missing = false) :
    (declareParameters env parameters).1.frameSize = env.frameSize + parameters.length := by
  induction parameters generalizing env with
  | nil => rfl
  | cons parameter rest ih =>
    obtain ⟨block, outer, hbo⟩ := List.exists_cons_of_ne_nil hb
    have hp : parameter.missing = false := hm parameter List.mem_cons_self
    have hd : (env.declareVariable parameter false).2.1 =
        (env.declareLocal block outer parameter false).2.1 := by
      rw [declareVariable, hbo]
    have hrest := ih (env.declareVariable parameter false).2.1
      (by rw [hd]; exact List.cons_ne_nil _ _) fun other ho => hm other (List.mem_cons_of_mem _ ho)
    unfold declareParameters
    rw [hp, if_neg Bool.false_ne_true]
    dsimp only
    rw [hrest, hd, List.length_cons]
    dsimp only [declareLocal]
    omega

end Environment

/-- Parameters are among the tokens that they are written with. -/
theorem mem_of_written {parameters ts : List Token} (h : Written (.tokens parameters) ts) :
    ∀ parameter ∈ parameters, parameter ∈ ts := by
  induction parameters generalizing ts with
  | nil => exact fun _ hp => absurd hp List.not_mem_nil
  | cons first more ih =>
    intro parameter hp
    cases h with
    | lastToken => exact hp
    | tokens _ _ hm =>
      rcases List.mem_cons.1 hp with rfl | hp
      · exact List.mem_cons_self
      · exact List.mem_cons_of_mem _ (List.mem_cons_of_mem _ (ih hm parameter hp))

/-- A function written by the grammar, if nothing is wrong with its names, resolves to one that has
room for its parameters, with a sound body in a frame of its size. -/
theorem sound_resolveFunction {globals : Environment} {symbol : FunctionSymbol}
    {declaration : FunctionDeclaration} {ts : List Token} {context : Context}
    (hw : Written (.function declaration) ts) (hm : ∀ token ∈ ts, token.missing = false)
    (placed : ∀ part, Occurs part (.function declaration) → context.placed part.span)
    (hfunctions : ∀ (name : String) (symbol : FunctionSymbol),
      globals.globals.functions[name]? = some symbol →
        context.arity symbol.id = some symbol.parameters.length)
    (hin : context.inFunction = true)
    (hs : (resolveFunction globals symbol declaration).1.frameSize = context.size)
    (h : (resolveFunction globals symbol declaration).2 = []) :
    declaration.parameters.length ≤ context.size ∧
      Sound context (.statements (resolveFunction globals symbol declaration).1.body) := by
  cases hw with
  | @function keyword identifier openParen closeParen opening closing parameters body ts us _ _ _
      hparameters _ _ hbody _ =>
    have hp : ∀ parameter ∈ parameters, parameter.missing = false := by
      intro parameter hparameter
      exact hm parameter (by simp [mem_of_written hparameters parameter hparameter])
    have start : globals.enter.Fits context := by
      refine ⟨fun block hb entry he => ?_, hfunctions, fun _ => hin⟩
      rw [List.mem_singleton.1 hb] at he
      exact absurd he List.not_mem_nil
    have declared := globals.enter.declareParameters_grows parameters
    have fits := (start.grow declared).grow (Environment.grows_openBlock _)
    have hb := (List.append_eq_nil_iff.1 h).2
    refine ⟨?_, binds_of_written hbody (fun token ht => hm token (by simp [ht])) _ context
      (fun part ho => placed part (.body ho)) fits (Nat.le_of_eq hs) hb⟩
    have size : (declareParameters globals.enter parameters).1.frameSize = 0 + parameters.length :=
      globals.enter.frameSize_declareParameters (List.cons_ne_nil _ _) hp
    have grows := resolveStatements_grows (declareParameters globals.enter parameters).1.openBlock
      body
    calc parameters.length = (declareParameters globals.enter parameters).1.frameSize := by omega
      _ ≤ context.size := Nat.le_trans grows.frameSize (Nat.le_of_eq hs)

end Program

end ReplayShell
