import ReplayShell.Proofs.Hoisting
import ReplayShell.Proofs.LexicalScope

/-!
# Names are resolved lexically

The resolver keeps open blocks, a count of places and a scope that grows; what it makes of a name is
nevertheless what the text alone tells.

* `Expression.names` and `Statement.scoping` read off a tree what `LexicalScope` needs of a text,
  `Program.Statement.sites` where the variables stand in what has been resolved.
* `Environment.Tracks`: an environment knows what can be told from the text behind it, in its
  innermost block and in all that are around it. `Tracks.openBlock`, `Tracks.closeBlock` and
  `Tracks.declareVariable` are the steps.
* `Environment.Follows`: the variables of a part of the text are those told, and the environment
  knows what is told from it too. `resolveStatements_follows` goes over the whole tree.
* `resolve_lexical` is the result for submissions. Missing parameters have no place in the frame,
  which is what `resolve_not_lexical_missing` shows.
-/
namespace ReplayShell

/-! ## Texts -/

namespace Syntax

open Program (Scoping)

mutual

/-- The variables that an expression reads and assigns, in order. A missing name is none. -/
def Expression.names : Expression → List String
  | .literal _ _ => []
  | .name identifier => if identifier.missing then [] else [identifier.text]
  | .assignment identifier value => identifier.text :: value.names
  | .unary _ operand => operand.names
  | .binary left operator right =>
    if (BinaryOp.ofKind? operator.kind).isSome then left.names ++ right.names else []
  | .parenthesized _ inner _ => inner.names
  | .call _ arguments _ => argumentNames arguments

/-- The variables of arguments. -/
def argumentNames : List Expression → List String
  | [] => []
  | expression :: rest => expression.names ++ argumentNames rest

end

/-- What an expression does to names: it uses variables. -/
def Expression.scoping (expression : Expression) : List Scoping :=
  expression.names.map .uses

mutual

/-- What a statement does to names. An initializer stands before the name that it is for. -/
def Statement.scoping : Statement → List Scoping
  | .block _ statements _ => .opens :: (scopingOf statements ++ [.closes])
  | .variable _ identifier initializer => initializer.scoping ++ [.declares identifier.text]
  | .conditional _ condition thenBranch elseBranch =>
    condition.scoping ++ (thenBranch.scoping ++ elseScoping elseBranch)
  | .loop _ condition body => condition.scoping ++ body.scoping
  | .return _ value => (value.map Expression.scoping).getD []
  | .expression expression => expression.scoping

/-- What statements do to names. -/
def scopingOf : List Statement → List Scoping
  | [] => []
  | statement :: rest => statement.scoping ++ scopingOf rest

/-- What an else branch does to names, if there is one. -/
def elseScoping : Option Statement → List Scoping
  | none => []
  | some statement => statement.scoping

end

/-- The parameters that the text has; others are only missing. -/
def FunctionDeclaration.present (declaration : FunctionDeclaration) : List Token :=
  declaration.parameters.filter fun parameter => !parameter.missing

/-- What a function does to names: its parameters are declared around the block of its body. -/
def FunctionDeclaration.scoping (declaration : FunctionDeclaration) (parameters : List Token) :
    List Scoping :=
  .opens :: ((parameters.map fun parameter => .declares parameter.text) ++
    .opens :: scopingOf declaration.body)

/-- What the statements of a submission do to names. -/
def Submission.scoping (submission : Submission) : List Scoping :=
  scopingOf (Program.topLevelStatements submission.members)

end Syntax

namespace Program

open Syntax (Token FunctionDeclaration)

/-! ## Resolved trees -/

mutual

/-- The places of an expression where variables stand. -/
def Expression.sites : Expression → List Site
  | .invalid | .literal _ => []
  | .variable ref _ => [.used ref]
  | .assignment ref value => .used ref :: value.sites
  | .unary _ operand _ => operand.sites
  | .binary left _ right _ => left.sites ++ right.sites
  | .call _ _ arguments _ => argumentSites arguments

/-- The places of arguments. -/
def argumentSites : List Expression → List Site
  | [] => []
  | expression :: rest => expression.sites ++ argumentSites rest

end

mutual

/-- The places of a statement where variables stand. -/
def Statement.sites : Statement → List Site
  | .block statements => statementSites statements
  | .variable ref _ initializer => initializer.sites ++ [.declared ref]
  | .conditional condition thenBranch elseBranch =>
    condition.sites ++ (thenBranch.sites ++ elseSites elseBranch)
  | .loop condition body => condition.sites ++ body.sites
  | .return value => (value.map Expression.sites).getD []
  | .expression expression => expression.sites

/-- The places of statements. -/
def statementSites : List Statement → List Site
  | [] => []
  | statement :: rest => statement.sites ++ statementSites rest

/-- The places of an else branch, if there is one. -/
def elseSites : Option Statement → List Site
  | none => []
  | some statement => statement.sites

end

/-- Parameters stand at the beginning of the frame, in order. -/
def parameterSites (parameters : List Token) : List Site :=
  parameters.zipIdx.map fun entry => .declared ⟨entry.1.text, .local entry.2⟩

/-! ## What an environment knows -/

namespace Environment

/-- What a name stands for, if it is a variable. -/
def standsFor (env : Environment) (name : String) : Option Slot :=
  (env.lookupVariable name).map Prod.fst

/-- The environment without its innermost blocks. -/
def outward (env : Environment) (closed : Nat) : Environment :=
  { env with blocks := env.blocks.drop closed }

theorem standsFor_eq (env : Environment) (name : String) :
    env.standsFor name =
      ((env.blocks.findSome? (·.lookup name)).map fun found => .local found.index).or
        ((env.globals.vars[name]?).map fun found => .global found.id) := by
  unfold standsFor lookupVariable
  split <;> rename_i h <;> rw [h]
  · rfl
  · cases env.globals.vars[name]? <;> rfl

/-- The environment knows what is told from the text behind it. -/
structure Tracks (origin : Origin) (env : Environment) (behind : List Scoping) : Prop where
  generation : env.generation = origin.generation
  ordinal : env.nextVariable = origin.first + globalCount behind
  index : env.frameSize = localCount behind
  nesting : env.blocks.length = depth behind
  visible : ∀ closed ≤ depth behind, ∀ name,
    (env.outward closed).standsFor name =
      (nearest origin name behind closed).or (origin.earlier name)

variable {origin : Origin} {env env' env'' : Environment} {behind : List Scoping}

namespace Tracks

theorem standsFor (h : env.Tracks origin behind) (name : String) :
    env.standsFor name = lookup origin behind name :=
  h.visible 0 (Nat.zero_le _) name

/-- Outside of blocks a name stands for a global variable. -/
theorem globals (h : env.Tracks origin behind) (hb : env.blocks = []) (name : String) :
    ((env.globals.vars[name]?).map fun found => .global found.id) = lookup origin behind name := by
  rw [← h.standsFor, standsFor_eq, hb]
  rfl

theorem openBlock (h : env.Tracks origin behind) :
    env.openBlock.Tracks origin (.opens :: behind) where
  generation := h.generation
  ordinal := h.ordinal
  index := h.index
  nesting := congrArg (· + 1) h.nesting
  visible := by
    rintro (_ | closed) hle name
    · -- The new block declares nothing yet.
      refine Eq.trans ?_ (h.visible 0 (Nat.zero_le _) name)
      rw [standsFor_eq, standsFor_eq]
      rfl
    · exact h.visible closed (Nat.le_of_succ_le_succ hle) name

theorem closeBlock (h : env.Tracks origin behind) (hb : env.blocks ≠ []) :
    env.closeBlock.Tracks origin (.closes :: behind) where
  generation := h.generation
  ordinal := h.ordinal
  index := h.index
  nesting := by rw [Environment.closeBlock, List.length_tail, h.nesting, depth]
  visible closed hle name := by
    have hpos : 0 < depth behind := h.nesting ▸ List.length_pos_iff.2 hb
    have hle : closed ≤ depth behind - 1 := hle
    have hdrop : env.closeBlock.blocks.drop closed = env.blocks.drop (closed + 1) := by
      rw [Environment.closeBlock, List.drop_tail]
    rw [nearest, ← h.visible (closed + 1) (by omega) name, standsFor_eq, standsFor_eq, outward,
      outward, hdrop]
    rfl

/-- A variable of a block gets the slot that is told, and then it is the nearest of its name. -/
theorem declareLocal (h : env.Tracks origin behind) {block : Block} {outer : List Block}
    (hb : env.blocks = block :: outer) (identifier : Token) (readOnly : Bool) :
    (env.declareLocal block outer identifier readOnly).1 = slotOf origin behind ∧
      (env.declareLocal block outer identifier readOnly).2.1.Tracks origin
        (.declares identifier.text :: behind) := by
  have hlength : depth behind = outer.length + 1 := by rw [← h.nesting, hb, List.length_cons]
  have hd : depth behind ≠ 0 := by omega
  have hslot : slotOf origin behind = .local env.frameSize := by rw [slotOf, if_neg hd, h.index]
  refine ⟨hslot.symm, h.generation, ?_, ?_, hlength.symm, fun closed hle name => ?_⟩
  · rw [globalCount, if_neg hd]
    exact h.ordinal
  · rw [localCount, if_neg hd]
    exact congrArg (· + 1) h.index
  · rw [nearest]
    by_cases hname : closed = 0 ∧ identifier.text = name
    · rw [if_pos hname, standsFor_eq]
      simp [outward, Environment.declareLocal, hname, hslot]
    · rw [if_neg hname, ← h.visible closed hle name, standsFor_eq, standsFor_eq]
      -- Nothing else has become visible, in this block or around it.
      have hfound : ((env.declareLocal block outer identifier readOnly).2.1.blocks.drop
            closed).findSome? (·.lookup name) =
          (env.blocks.drop closed).findSome? (·.lookup name) := by
        rw [hb]
        cases closed with
        | succ closed => rfl
        | zero =>
          have hne : ¬name = identifier.text := fun heq => hname ⟨rfl, heq.symm⟩
          simp [Environment.declareLocal, List.findSome?_cons, List.lookup_cons,
            beq_eq_false_iff_ne.2 hne]
      exact congrArg (fun found => (Option.map _ found).or _) hfound

/-- And so does a variable of the top level. -/
theorem declareGlobal (h : env.Tracks origin behind) (hb : env.blocks = []) (identifier : Token)
    (readOnly : Bool) :
    (env.declareGlobal identifier readOnly).1 = slotOf origin behind ∧
      (env.declareGlobal identifier readOnly).2.1.Tracks origin
        (.declares identifier.text :: behind) := by
  have hd : depth behind = 0 := by rw [← h.nesting, hb, List.length_nil]
  have hslot : slotOf origin behind = .global ⟨env.generation, env.nextVariable⟩ := by
    rw [slotOf, if_pos hd, h.generation, h.ordinal]
  refine ⟨hslot.symm, h.generation, ?_, ?_, h.nesting, fun closed hle name => ?_⟩
  · rw [globalCount, if_pos hd, ← Nat.add_assoc]
    exact congrArg (· + 1) h.ordinal
  · rw [localCount, if_pos hd]
    exact h.index
  · obtain rfl : closed = 0 := Nat.le_zero.1 (hd ▸ hle)
    rw [nearest]
    by_cases hname : identifier.text = name
    · rw [if_pos ⟨rfl, hname⟩, standsFor_eq]
      simp [outward, Environment.declareGlobal, hb, hname, hslot]
    · rw [if_neg fun hc => hname hc.2, ← h.visible 0 hle name, standsFor_eq, standsFor_eq]
      simp [outward, Environment.declareGlobal, Std.ExtTreeMap.getElem?_insert, hname]

theorem declareVariable (h : env.Tracks origin behind) (identifier : Token) (readOnly : Bool) :
    (env.declareVariable identifier readOnly).1 = slotOf origin behind ∧
      (env.declareVariable identifier readOnly).2.1.Tracks origin
        (.declares identifier.text :: behind) := by
  unfold Environment.declareVariable
  split
  · rename_i block outer hb
    exact h.declareLocal hb identifier readOnly
  · rename_i hb
    exact h.declareGlobal hb identifier readOnly

end Tracks

/-- The variables of a part of the text are those that are told, and the environment after it knows
what is told from it too. -/
def Follows (origin : Origin) (env env' : Environment) (sites : List Site) (text : List Scoping) :
    Prop :=
  ∀ behind, env.Tracks origin behind →
    sites.map some = sitesOf origin behind text ∧ env'.Tracks origin (text.reverse ++ behind)

variable {sites sites' : List Site} {text text' : List Scoping}

namespace Follows

theorem refl (origin : Origin) (env : Environment) : Follows origin env env [] [] :=
  fun _ h => ⟨rfl, h⟩

theorem trans (h : Follows origin env env' sites text)
    (h' : Follows origin env' env'' sites' text') :
    Follows origin env env'' (sites ++ sites') (text ++ text') := by
  intro behind ht
  obtain ⟨hs, ht⟩ := h behind ht
  obtain ⟨hs', ht⟩ := h' _ ht
  refine ⟨?_, ?_⟩
  · rw [List.map_append, hs, hs', sitesOf_append]
  · rwa [List.reverse_append, List.append_assoc]

/-- A block is followed by following what stands in it, if that leaves the block open. -/
theorem block (h : Follows origin env.openBlock env' sites text) (hb : env'.blocks ≠ []) :
    Follows origin env env'.closeBlock sites (.opens :: (text ++ [.closes])) := by
  intro behind ht
  obtain ⟨hs, ht⟩ := h _ ht.openBlock
  refine ⟨?_, ?_⟩
  · rw [hs, sitesOf, sitesOf_append]
    exact (List.append_nil _).symm
  · simpa using ht.closeBlock hb

theorem declareVariable (origin : Origin) (env : Environment) (identifier : Token)
    (readOnly : Bool) :
    Follows origin env (env.declareVariable identifier readOnly).2.1
      [.declared ⟨identifier.text, (env.declareVariable identifier readOnly).1⟩]
      [.declares identifier.text] := by
  intro behind ht
  obtain ⟨hs, ht⟩ := ht.declareVariable identifier readOnly
  exact ⟨by rw [hs]; rfl, ht⟩

end Follows

theorem sitesOf_uses (origin : Origin) (behind : List Scoping) (names : List String) :
    sitesOf origin behind (names.map .uses) =
      names.map fun name => (lookup origin behind name).map fun slot => .used ⟨name, slot⟩ := by
  induction names generalizing behind with
  | nil => rfl
  | cons name names ih => exact congrArg (List.cons _) (ih (.uses name :: behind))

/-- Uses leave the environment as it is. -/
theorem Tracks.uses (h : env.Tracks origin behind) (names : List String) :
    env.Tracks origin ((names.map .uses).reverse ++ behind) := by
  induction names generalizing behind with
  | nil => exact h
  | cons name names ih =>
    have next : env.Tracks origin (.uses name :: behind) := ⟨h.1, h.2, h.3, h.4, h.5⟩
    simpa using ih next

end Environment

/-! ## Expressions and statements -/

/-- A call that is resolved has the variables of its arguments. -/
theorem sites_resolveCall {env : Environment} {identifier : Token} {arguments : List Expression}
    {span : Span} (h : (resolveCall env identifier arguments span).2 = []) :
    (resolveCall env identifier arguments span).1.sites = argumentSites arguments := by
  unfold resolveCall at h ⊢
  dsimp only at h ⊢
  split at h
  · cases h
  · split at h
    · rename_i harity
      rw [if_pos harity]
      rfl
    · cases h

mutual

/-- The variables of an expression are what the environment has their names stand for. -/
theorem resolveExpression_sites (env : Environment) : ∀ expression : Syntax.Expression,
    (resolveExpression env expression).2 = [] →
      (resolveExpression env expression).1.sites.map some = expression.names.map fun name =>
        (env.standsFor name).map fun slot => .used ⟨name, slot⟩
  | .literal _ _, _ => rfl
  | .name identifier, h => by
    unfold resolveExpression at h ⊢
    rw [Syntax.Expression.names]
    split at h
    · rename_i hm
      rw [if_pos hm, if_pos hm]
      rfl
    · rename_i hm
      rw [if_neg hm, if_neg hm]
      split at h
      · rename_i slot readOnly hfound
        simp [hfound, Expression.sites, Environment.standsFor]
      · cases h
  | .assignment identifier value, h => by
    unfold resolveExpression at h ⊢
    dsimp only at h ⊢
    split at h
    · simp at h
    · rename_i slot hfound
      have ih := resolveExpression_sites env value h
      simp [hfound, Expression.sites, Syntax.Expression.names, ih, Environment.standsFor]
    · simp at h
  | .unary _ operand, h => resolveExpression_sites env operand h
  | .binary left operator right, h => by
    unfold resolveExpression at h ⊢
    dsimp only at h ⊢
    rw [Syntax.Expression.names]
    split at h
    · rename_i op hop
      have h := List.append_eq_nil_iff.1 h
      simp [hop, Expression.sites, resolveExpression_sites env left h.1,
        resolveExpression_sites env right h.2]
    · rename_i hop
      simp [hop, Expression.sites]
  | .parenthesized _ inner _, h => resolveExpression_sites env inner h
  | .call identifier arguments closing, h => by
    unfold resolveExpression at h ⊢
    dsimp only at h ⊢
    have h := List.append_eq_nil_iff.1 h
    rw [sites_resolveCall h.2]
    exact resolveExpressions_sites env arguments h.1

theorem resolveExpressions_sites (env : Environment) : ∀ expressions : List Syntax.Expression,
    (resolveExpressions env expressions).2 = [] →
      (argumentSites (resolveExpressions env expressions).1).map some =
        (Syntax.argumentNames expressions).map fun name =>
          (env.standsFor name).map fun slot => .used ⟨name, slot⟩
  | [], _ => rfl
  | expression :: rest, h => by
    have h := List.append_eq_nil_iff.1 h
    have first := resolveExpression_sites env expression h.1
    have more := resolveExpressions_sites env rest h.2
    simp only [resolveExpressions, argumentSites, Syntax.argumentNames, List.map_append, first,
      more]

end

variable (origin : Origin)

theorem resolveExpression_follows (env : Environment) (expression : Syntax.Expression)
    (h : (resolveExpression env expression).2 = []) :
    env.Follows origin env (resolveExpression env expression).1.sites expression.scoping := by
  intro behind ht
  refine ⟨?_, ht.uses expression.names⟩
  rw [resolveExpression_sites env expression h, Syntax.Expression.scoping,
    Environment.sitesOf_uses]
  simp only [ht.standsFor]

mutual

/-- The variables of a statement are those that the text tells. -/
theorem resolveStatement_follows (env : Environment) : ∀ statement : Syntax.Statement,
    (resolveStatement env statement).2.2 = [] →
      env.Follows origin (resolveStatement env statement).2.1
        (resolveStatement env statement).1.sites statement.scoping
  | .block _ statements _, h =>
    have hopen : (resolveStatements env.openBlock statements).2.1.blocks ≠ [] :=
      mt (resolveStatements_declaring env.openBlock statements).atTop.1 (List.cons_ne_nil _ _)
    (resolveStatements_follows env.openBlock statements h).block hopen
  | .variable _ identifier initializer, h =>
    have h := List.append_eq_nil_iff.1 h
    (resolveExpression_follows origin env initializer h.1).trans
      (.declareVariable origin env identifier _)
  | .conditional _ condition thenBranch elseBranch, h =>
    have h := List.append_eq_nil_iff.1 h
    have hbranches := List.append_eq_nil_iff.1 h.2
    (resolveExpression_follows origin env condition h.1).trans
      ((resolveStatement_follows env thenBranch hbranches.1).trans
        (resolveElse_follows _ elseBranch hbranches.2))
  | .loop _ condition body, h =>
    have h := List.append_eq_nil_iff.1 h
    (resolveExpression_follows origin env condition h.1).trans
      (resolveStatement_follows env body h.2)
  | .return _ none, _ => .refl origin env
  | .return _ (some value), h =>
    have h := List.append_eq_nil_iff.1 h
    resolveExpression_follows origin env value h.2
  | .expression expression, h => resolveExpression_follows origin env expression h

theorem resolveStatements_follows (env : Environment) : ∀ statements : List Syntax.Statement,
    (resolveStatements env statements).2.2 = [] →
      env.Follows origin (resolveStatements env statements).2.1
        (statementSites (resolveStatements env statements).1) (Syntax.scopingOf statements)
  | [], _ => .refl origin env
  | statement :: rest, h =>
    have h := List.append_eq_nil_iff.1 h
    (resolveStatement_follows env statement h.1).trans (resolveStatements_follows _ rest h.2)

theorem resolveElse_follows (env : Environment) : ∀ statement : Option Syntax.Statement,
    (resolveElse env statement).2.2 = [] →
      env.Follows origin (resolveElse env statement).2.1
        (elseSites (resolveElse env statement).1) (Syntax.elseScoping statement)
  | none, _ => .refl origin env
  | some statement, h => resolveStatement_follows env statement h

end

/-! ## Functions -/

theorem declareParameters_tracks {behind : List Scoping} {env : Environment}
    (parameters : List Token) (h : env.Tracks origin behind) :
    (declareParameters env parameters).1.Tracks origin
      (((parameters.filter fun parameter => !parameter.missing).map fun parameter =>
        Scoping.declares parameter.text).reverse ++ behind) := by
  induction parameters generalizing env behind with
  | nil => exact h
  | cons parameter rest ih =>
    unfold declareParameters
    by_cases hm : parameter.missing = true
    · simpa [hm] using ih h
    · simpa [hm] using ih (h.declareVariable parameter false).2

/-- Declarations in a block take one place after another. -/
theorem sitesOf_declares {behind : List Scoping} (hd : depth behind ≠ 0) (parameters : List Token) :
    sitesOf origin behind (parameters.map fun parameter => .declares parameter.text) =
      (parameters.zipIdx (localCount behind)).map fun entry =>
        some (.declared ⟨entry.1.text, .local entry.2⟩) := by
  induction parameters generalizing behind with
  | nil => rfl
  | cons parameter rest ih =>
    have hcount : localCount (.declares parameter.text :: behind) = localCount behind + 1 := by
      rw [localCount, if_neg hd]
    have hnext : depth (.declares parameter.text :: behind) ≠ 0 := hd
    rw [List.map_cons, sitesOf, ih hnext, hcount, List.zipIdx_cons, List.map_cons, slotOf,
      if_neg hd]

variable {origin}

/-- A function knows the names that are left at the end of the text before it. -/
theorem Environment.Tracks.enter {globals : Environment} {text : List Scoping}
    (h : globals.Tracks origin text.reverse) (hb : globals.blocks = []) :
    globals.enter.Tracks (origin.after text) [.opens] where
  generation := h.generation
  ordinal := h.ordinal
  index := rfl
  nesting := rfl
  visible closed hle name := by
    rw [Environment.standsFor_eq]
    refine Eq.trans ?_ (h.globals hb name)
    rcases closed with _ | _ | closed <;> rfl

theorem resolveFunction_lexical {globals : Environment} {text : List Scoping}
    (h : globals.Tracks origin text.reverse) (hb : globals.blocks = []) (symbol : FunctionSymbol)
    (declaration : FunctionDeclaration)
    (hp : (resolveFunction globals symbol declaration).2 = []) :
    Lexical (origin.after text) (declaration.scoping declaration.present)
      (parameterSites declaration.present ++
        statementSites (resolveFunction globals symbol declaration).1.body)
      (resolveFunction globals symbol declaration).1.frameSize := by
  have inside := declareParameters_tracks _ declaration.parameters (h.enter hb)
  have hbody := (List.append_eq_nil_iff.1 hp).2
  obtain ⟨hsites, after⟩ :=
    resolveStatements_follows (origin.after text) _ declaration.body hbody _ inside.openBlock
  refine .of_agrees (fun name index hlocal => ?_) ?_ ?_
  · have hlocal := (h.globals hb name).trans hlocal
    simp at hlocal
  · refine after.index.trans (congrArg localCount ?_)
    simp [FunctionDeclaration.scoping, FunctionDeclaration.present]
  · have hd : depth [Scoping.opens] ≠ 0 := Nat.one_ne_zero
    rw [FunctionDeclaration.scoping, sitesOf, sitesOf_append, sitesOf_declares _ hd, sitesOf,
      List.map_append]
    exact congrArg₂ (· ++ ·) List.map_map hsites

/-! ## Submissions -/

/-- What the text of a submission starts from: the variables visible before, without those whose
names its functions take. -/
def startOf (previous : GlobalScope) (generation : Nat) (submission : Syntax.Submission) :
    Origin where
  generation := generation
  earlier name :=
    if name ∈ givenNames (functionDeclarations submission.members) then none
    else (previous.vars[name]?).map fun found => .global found.id

/-- Every variable of a resolved submission is the one that the text tells, functions starting from
what the text of the statements leaves; in the frame of a function, the parameters given come first.
No two declarations of a frame share a slot, and the frame has room for all. -/
structure LexicallyResolved (parametersOf : FunctionDeclaration → List Token)
    (previous : GlobalScope) (generation : Nat) (submission : Syntax.Submission)
    (program : Program) : Prop where
  statements : Lexical (startOf previous generation submission) submission.scoping
    (statementSites program.statements) program.frameSize
  globals : ∀ name : String, ((program.scope.vars[name]?).map fun found => .global found.id) =
    ((startOf previous generation submission).after submission.scoping).earlier name
  functions : List.Forall₂
    (fun function declaration =>
      Lexical ((startOf previous generation submission).after submission.scoping)
        (declaration.scoping (parametersOf declaration))
        (parameterSites (parametersOf declaration) ++ statementSites function.body)
        function.frameSize)
    program.functions (named (functionDeclarations submission.members))

section
variable {previous : GlobalScope} {generation : Nat} {submission : Syntax.Submission}

theorem mem_givenNames_iff (clean : declarationProblems previous generation submission = [])
    {name : String} : name ∈ givenNames (functionDeclarations submission.members) ↔
      ∃ entry ∈ declaredFunctions previous generation submission, entry.1.name = name := by
  have adds := adds_afterFunctions previous generation submission
  rw [givenNames, ← (inTurn_afterFunctions previous generation submission).problems_eq_nil.2 clean,
    List.map_map, List.mem_map]
  refine exists_congr fun entry => and_congr_right fun he => ?_
  rw [adds.named entry he]
  rfl

/-- The functions of a submission take their names from variables, and no other. -/
theorem vars_afterFunctions (clean : declarationProblems previous generation submission = [])
    (name : String) :
    (afterFunctions previous generation submission).globals.vars[name]? =
      if name ∈ givenNames (functionDeclarations submission.members) then none
      else previous.vars[name]? := by
  have adds := adds_afterFunctions previous generation submission
  split
  · rename_i hm
    obtain ⟨entry, he, rfl⟩ := (mem_givenNames_iff clean).1 hm
    exact (adds.own entry he).2
  · rename_i hm
    exact (adds.others name fun entry he heq =>
      hm ((mem_givenNames_iff clean).2 ⟨entry, he, heq⟩)).2

theorem tracks_afterFunctions (clean : declarationProblems previous generation submission = []) :
    (afterFunctions previous generation submission).Tracks
      (startOf previous generation submission) [] := by
  have hrest := (adds_afterFunctions previous generation submission).rest
  have hblocks : (afterFunctions previous generation submission).blocks = [] :=
    (declares_afterFunctions previous generation submission).blocks
  refine ⟨by rw [hrest]; rfl, by rw [hrest]; rfl, by rw [hrest]; rfl,
    congrArg List.length hblocks, fun closed hle name => ?_⟩
  obtain rfl : closed = 0 := Nat.le_zero.1 hle
  rw [Environment.standsFor_eq, Environment.outward, hblocks, vars_afterFunctions clean, nearest,
    startOf]
  by_cases hm : name ∈ givenNames (functionDeclarations submission.members) <;> simp [hm]

/-- The names of a submission without problems are resolved lexically, and no two variables of a
frame share a place. -/
theorem resolve_lexical (previous : GlobalScope) (generation : Nat) (submission : Syntax.Submission)
    (h : (resolve previous generation submission).diagnostics = []) :
    LexicallyResolved FunctionDeclaration.present previous generation submission
      (resolve previous generation submission) := by
  obtain ⟨clean, hstatements, hfunctions⟩ := diagnostics_resolve.1 h
  have hblocks : (afterStatements previous generation submission).blocks = [] :=
    (declaring_afterStatements previous generation submission).atTop.2
      (declares_afterFunctions previous generation submission).blocks
  obtain ⟨hsites, after⟩ :=
    resolveStatements_follows (startOf previous generation submission) _ _ hstatements []
      (tracks_afterFunctions clean)
  have after : (afterStatements previous generation submission).Tracks
      (startOf previous generation submission) submission.scoping.reverse := by
    rwa [List.append_nil] at after
  refine ⟨.of_agrees (fun name index => ?_) after.index hsites, after.globals hblocks, ?_⟩
  · unfold startOf
    dsimp only
    split <;> simp
  · rw [functions_resolve,
      ← (inTurn_afterFunctions previous generation submission).problems_eq_nil.2 clean,
      List.forall₂_map_left_iff, List.forall₂_map_right_iff, List.forall₂_same]
    exact fun entry he =>
      resolveFunction_lexical after hblocks entry.1 entry.2 (hfunctions entry he)

end

/-- A variable of an earlier submission, hidden in a function; one of this submission, hidden in a
block. -/
theorem resolve_lexical_shadowed :
    let earlier := (resolve {} 0 (Syntax.parse "var y = 1").1).scope
    let submission := (Syntax.parse
      "var x = y function f(y) { return y } { var x = f(x) x = y }").1
    (resolve earlier 1 submission).diagnostics = [] ∧
      LexicallyResolved FunctionDeclaration.present earlier 1 submission
        (resolve earlier 1 submission) := by
  intro earlier submission
  have h : (resolve earlier 1 submission).diagnostics = [] :=
    List.isEmpty_iff.1 (by decide +kernel)
  exact ⟨h, resolve_lexical earlier 1 submission h⟩

/-- A parameter that is missing is one of the function, but has no place in the frame: those after
it are found one place further to the front. -/
theorem resolve_not_lexical_missing :
    let submission := (Syntax.parse "function f(, a) { return a }").1
    (resolve {} 1 submission).diagnostics = [] ∧
      ¬LexicallyResolved FunctionDeclaration.parameters {} 1 submission
        (resolve {} 1 submission) := by
  intro submission
  refine ⟨List.isEmpty_iff.1 (by decide +kernel), fun h => ?_⟩
  have hfalse : ¬∀ entry ∈ (resolve {} 1 submission).functions.zip
      (named (functionDeclarations submission.members)),
      (parameterSites entry.2.parameters ++ statementSites entry.1.body).map some =
        sitesOf ((startOf {} 1 submission).after submission.scoping) []
          (entry.2.scoping entry.2.parameters) := by
    decide +kernel
  exact hfalse fun entry he => ((List.forall₂_iff_zip.1 h.functions).2 he).agrees

/-- An inner variable hides the outer one, but not yet from its own initializer. -/
example :
    statementSites
        (resolve {} 0 (Syntax.parse "var x = 1 { var x = x x = 2 }").1).statements =
      [.declared ⟨"x", .global ⟨0, 0⟩⟩, .used ⟨"x", .global ⟨0, 0⟩⟩, .declared ⟨"x", .local 0⟩,
        .used ⟨"x", .local 0⟩] := by
  decide +kernel

end Program

end ReplayShell
