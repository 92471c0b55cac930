import ReplayShell.Program.Resolution
import ReplayShell.Proofs.SpanOrder
import ReplayShell.Syntax.Parser

/-!
# Where problems are reported

* `Tree.Puts` says that the spans of all parts of a tree have some property. Then the spans at which
  the resolution of names reports problems have it too: `resolveExpression_places` and its
  companions, and `resolve_places` for a whole submission.
* `spans_wellFormed`: the spans of any text are well formed, those in its tree and those that are
  reported, and the tree keeps their order.
-/
namespace ReplayShell

namespace Syntax

variable {place : Span → Prop}

/-- The spans of all parts of the tree have the property. -/
def Tree.Puts (place : Span → Prop) (tree : Tree) : Prop :=
  ∀ part, Part part tree → ∀ span ∈ part.span?, place span

theorem Tree.Puts.child {tree part : Tree} (h : tree.Puts place) (hc : part ∈ tree.children) :
    part.Puts place :=
  fun inner hp => h inner (hp.trans (part_child hc))

theorem Tree.Puts.token {token : Token} (h : (Tree.token token).Puts place) : place token.span :=
  h _ .self _ rfl

theorem Tree.Puts.expression {expression : Expression}
    (h : (Tree.expression expression).Puts place) : place expression.span :=
  h _ .self _ (span?_expression expression)

end Syntax

namespace Program

open Syntax (Token Tree FunctionDeclaration)

variable {place : Span → Prop}

/-- The problems are reported where the property holds. -/
def Places (place : Span → Prop) (problems : List Diagnostic) : Prop :=
  ∀ diagnostic ∈ problems, place diagnostic.span

namespace Places

variable {problems more : List Diagnostic} {span : Span}

theorem nil : Places place [] := fun _ h => absurd h List.not_mem_nil

theorem single (h : place span) (problem : Problem) : Places place [⟨span, problem⟩] :=
  List.forall_mem_singleton.2 h

theorem append (h : Places place problems) (h' : Places place more) :
    Places place (problems ++ more) := List.forall_mem_append.2 ⟨h, h'⟩

end Places

/-! ## Expressions -/

theorem resolveCall_places (env : Environment) {identifier : Token} (arguments : List Expression)
    {span : Span} (hi : place identifier.span) (hs : place span) :
    Places place (resolveCall env identifier arguments span).2 := by
  unfold resolveCall
  dsimp only
  split
  · exact .single hi _
  · split
    · exact .nil
    · exact .single hs _

mutual

theorem resolveExpression_places (env : Environment) : ∀ expression : Syntax.Expression,
    (Tree.expression expression).Puts place → Places place (resolveExpression env expression).2
  | .literal _ _, _ => .nil
  | .name identifier, h => by
    have hi : place identifier.span := (h.child List.mem_cons_self).token
    rw [resolveExpression]
    split
    · exact .nil
    split
    · exact .nil
    · exact .single hi _
  | .assignment identifier value, h => by
    have hi : place identifier.span := (h.child List.mem_cons_self).token
    have ih := resolveExpression_places env value (h.child (by simp))
    rw [resolveExpression]
    dsimp only
    split
    · exact ih.append (.single hi _)
    · exact ih
    · exact ih.append (.single hi _)
  | .unary operator operand, h =>
    resolveExpression_places env operand (h.child (by simp))
  | .binary left operator right, h => by
    have ihLeft := resolveExpression_places env left (h.child (by simp))
    have ihRight := resolveExpression_places env right (h.child (by simp))
    rw [resolveExpression]
    dsimp only
    split <;> exact ihLeft.append ihRight
  | .parenthesized _ inner _, h =>
    resolveExpression_places env inner (h.child (by simp))
  | .call identifier arguments closing, h => by
    have hi : place identifier.span := (h.child List.mem_cons_self).token
    have ih := resolveExpressions_places env arguments fun argument hm =>
      h.child (by simp [hm])
    exact ih.append (resolveCall_places env _ hi h.expression)

theorem resolveExpressions_places (env : Environment) : ∀ expressions : List Syntax.Expression,
    (∀ expression ∈ expressions, (Tree.expression expression).Puts place) →
      Places place (resolveExpressions env expressions).2
  | [], _ => .nil
  | first :: rest, h => by
    obtain ⟨hfirst, hrest⟩ := List.forall_mem_cons.1 h
    exact (resolveExpression_places env first hfirst).append
      (resolveExpressions_places env rest hrest)

end

/-! ## Statements -/

theorem duplicate_places {identifier : Token} (h : place identifier.span) (taken : Bool) :
    Places place (Environment.duplicate identifier taken) := by
  unfold Environment.duplicate
  split
  · exact .single h _
  · exact .nil

theorem declareVariable_places (env : Environment) {identifier : Token}
    (h : place identifier.span) (readOnly : Bool) :
    Places place (env.declareVariable identifier readOnly).2.2 := by
  unfold Environment.declareVariable
  split <;> exact duplicate_places h _

mutual

theorem resolveStatement_places (env : Environment) : ∀ statement : Syntax.Statement,
    (Tree.statement statement).Puts place → Places place (resolveStatement env statement).2.2
  | .block _ statements _, h =>
    resolveStatements_places env.openBlock statements fun inner hm => h.child (by simp [hm])
  | .variable keyword identifier initializer, h => by
    have hvalue := resolveExpression_places env initializer (h.child (by simp))
    have hi : place identifier.span := Tree.Puts.token (h.child (by simp))
    exact hvalue.append (declareVariable_places env hi _)
  | .conditional _ condition thenBranch elseBranch, h => by
    have hcondition := resolveExpression_places env condition (h.child (by simp))
    have hthen := resolveStatement_places env thenBranch (h.child (by simp))
    have helse := resolveElse_places (resolveStatement env thenBranch).2.1 elseBranch
      fun inner hm => h.child (by simp [Option.mem_def.1 hm])
    exact hcondition.append (hthen.append helse)
  | .loop _ condition body, h => by
    have hcondition := resolveExpression_places env condition (h.child (by simp))
    exact hcondition.append (resolveStatement_places env body (h.child (by simp)))
  | .return keyword value, h => by
    have hk : place keyword.span := Tree.Puts.token (h.child (by simp))
    have hmisplaced : Places place
        (if env.inFunction then [] else [⟨keyword.span, .returnOutsideFunction⟩]) := by
      split
      · exact .nil
      · exact .single hk _
    cases value with
    | none => exact hmisplaced
    | some value =>
      exact hmisplaced.append (resolveExpression_places env value (h.child (by simp)))
  | .expression evaluated, h => resolveExpression_places env evaluated (h.child (by simp))

theorem resolveStatements_places (env : Environment) : ∀ statements : List Syntax.Statement,
    (∀ statement ∈ statements, (Tree.statement statement).Puts place) →
      Places place (resolveStatements env statements).2.2
  | [], _ => .nil
  | first :: rest, h => by
    obtain ⟨hfirst, hrest⟩ := List.forall_mem_cons.1 h
    exact (resolveStatement_places env first hfirst).append
      (resolveStatements_places (resolveStatement env first).2.1 rest hrest)

theorem resolveElse_places (env : Environment) : ∀ elseBranch : Option Syntax.Statement,
    (∀ statement ∈ elseBranch, (Tree.statement statement).Puts place) →
      Places place (resolveElse env elseBranch).2.2
  | none, _ => .nil
  | some statement, h => resolveStatement_places env statement (h statement rfl)

end

/-! ## Submissions -/

theorem declareParameters_places (env : Environment) {parameters : List Token}
    (h : ∀ parameter ∈ parameters, place parameter.span) :
    Places place (declareParameters env parameters).2 := by
  induction parameters generalizing env with
  | nil => exact .nil
  | cons parameter rest ih =>
    obtain ⟨hparameter, hrest⟩ := List.forall_mem_cons.1 h
    rw [declareParameters]
    split
    · exact ih env hrest
    · exact (declareVariable_places env hparameter _).append (ih _ hrest)

theorem resolveFunction_places (globals : Environment) (symbol : FunctionSymbol)
    {declaration : FunctionDeclaration} (h : (Tree.function declaration).Puts place) :
    Places place (resolveFunction globals symbol declaration).2 := by
  have hparameters : ∀ parameter ∈ declaration.parameters, place parameter.span := fun _ hm =>
    Tree.Puts.token (h.child (by simp [hm]))
  have hbody : ∀ statement ∈ declaration.body, (Tree.statement statement).Puts place :=
    fun _ hm => h.child (by simp [hm])
  exact (declareParameters_places _ hparameters).append (resolveStatements_places _ _ hbody)

theorem resolveFunctions_places (globals : Environment)
    {declared : List (FunctionSymbol × FunctionDeclaration)}
    (h : ∀ entry ∈ declared, (Tree.function entry.2).Puts place) :
    Places place (resolveFunctions globals declared).2 := by
  induction declared with
  | nil => exact .nil
  | cons entry rest ih =>
    obtain ⟨hentry, hrest⟩ := List.forall_mem_cons.1 h
    exact (resolveFunction_places globals entry.1 hentry).append (ih hrest)

theorem declareFunctions_places (env : Environment) (ordinal : Nat)
    {declarations : List FunctionDeclaration}
    (h : ∀ declaration ∈ declarations, (Tree.function declaration).Puts place) :
    (∀ entry ∈ (declareFunctions env ordinal declarations).1, (Tree.function entry.2).Puts place) ∧
      Places place (declareFunctions env ordinal declarations).2.2 := by
  induction declarations generalizing env ordinal with
  | nil => exact ⟨fun _ hm => absurd hm List.not_mem_nil, .nil⟩
  | cons declaration rest ih =>
    obtain ⟨hdeclaration, hrest⟩ := List.forall_mem_cons.1 h
    have hi : place declaration.identifier.span := Tree.Puts.token (hdeclaration.child (by simp))
    have hproblems : Places place (env.declareFunction declaration ordinal).2.2 := by
      unfold Environment.declareFunction
      dsimp only
      split
      · exact .nil
      split
      · exact duplicate_places hi _
      · exact .nil
    rw [declareFunctions]
    dsimp only
    split
    · obtain ⟨hentries, hmore⟩ := ih (env.declareFunction declaration ordinal).2.1 ordinal hrest
      exact ⟨hentries, hproblems.append hmore⟩
    · obtain ⟨hentries, hmore⟩ :=
        ih (env.declareFunction declaration ordinal).2.1 (ordinal + 1) hrest
      exact ⟨List.forall_mem_cons.2 ⟨hdeclaration, hentries⟩, hproblems.append hmore⟩

/-- Whatever holds of the spans of a submission holds where its names are complained about. -/
theorem resolve_places (previous : GlobalScope) (generation : Nat) {submission : Syntax.Submission}
    (h : ∀ part, submission.Has part → ∀ span ∈ part.span?, place span) :
    Places place (resolve previous generation submission).diagnostics := by
  have hmember : ∀ outer ∈ submission.members, (Tree.member outer).Puts place := by
    intro outer hm part hp
    exact h part ⟨_, List.mem_append_left _ (List.mem_map_of_mem hm), hp⟩
  have hfunctions : ∀ declaration ∈ functionDeclarations submission.members,
      (Tree.function declaration).Puts place := by
    intro declaration hm
    obtain ⟨outer, houter, heq⟩ := List.mem_filterMap.1 hm
    cases outer with
    | statement => cases heq
    | function other =>
      cases heq
      exact (hmember _ houter).child (by simp)
  have hstatements : ∀ statement ∈ topLevelStatements submission.members,
      (Tree.statement statement).Puts place := by
    intro statement hm
    obtain ⟨outer, houter, heq⟩ := List.mem_filterMap.1 hm
    cases outer with
    | function => cases heq
    | statement other =>
      cases heq
      exact (hmember _ houter).child (by simp)
  obtain ⟨hdeclared, hproblems⟩ := declareFunctions_places
    { generation := generation, globals := previous } 0 hfunctions
  exact hproblems.append ((resolveStatements_places _ _ hstatements).append
    (resolveFunctions_places _ hdeclared))

end Program

namespace Syntax

/-- **Spans are well formed.** In the tree of any text, every token and every expression has a span
that goes forwards, inside of the text, and cuts no character; the span of an expression holds those
of its tokens and of the expressions in it; tokens stand in the order of the tree, and so do the
children of each part of it, without an overlap. The spans that the text is reported with are well
formed too, and those that its names are reported with, whatever names there have been before. -/
theorem spans_wellFormed (text : String) :
    (∀ token, (parse text).1.Has (.token token) → token.span.InText text.toList) ∧
      (∀ token ∈ (parse text).1.lastToken, token.span.InText text.toList) ∧
      (∀ expression, (parse text).1.Has (.expression expression) →
        expression.span.InText text.toList ∧
          (∀ token, Part (.token token) (.expression expression) →
            expression.span.Contains token.span) ∧
          ∀ part, Part (.expression part) (.expression expression) →
            expression.span.Contains part.span) ∧
      (parse text).1.kept.Pairwise (fun a b => a.span.stop ≤ b.span.start) ∧
      ((parse text).1.children.filterMap Tree.span?).Pairwise (fun a b => a.stop ≤ b.start) ∧
      (∀ part, (parse text).1.Has part →
        (part.children.filterMap Tree.span?).Pairwise fun a b => a.stop ≤ b.start) ∧
      (∀ diagnostic ∈ (parse text).2, diagnostic.span.InText text.toList) ∧
      ∀ (previous : Program.GlobalScope) (generation : Nat),
        ∀ diagnostic ∈ (Program.resolve previous generation (parse text).1).diagnostics,
          diagnostic.span.InText text.toList := by
  obtain ⟨hordered, hlast, hreported⟩ := inOrder_parse text
  have hparts : ∀ part, (parse text).1.Has part → ∃ start stop,
      InOrder text.toList start part.kept stop := by
    intro part h
    obtain ⟨start, stop, -, hpart, -⟩ := hordered.among h.kept_together
    exact ⟨start, stop, hpart⟩
  have hspans : ∀ part, (parse text).1.Has part → ∀ span ∈ part.span?,
      span.InText text.toList := by
    intro part h span hs
    obtain ⟨start, stop, hpart⟩ := hparts part h
    exact (hpart.spanOf hs).1
  refine ⟨fun token h => hspans _ h _ rfl, hlast, fun expression h => ?_, hordered.pairwise,
    hordered.siblings.2, fun part h => ?_, hreported, fun previous generation => ?_⟩
  · have hspan := span?_expression expression
    obtain ⟨start, stop, hin⟩ := hparts _ h
    refine ⟨hspans _ h _ hspan, fun token hp => ?_, fun part hp => ?_⟩
    · exact hin.part hp hspan _ (span?_token token)
    · exact hin.part hp hspan _ (span?_expression part)
  · by_cases hne : part.children = []
    · rw [hne]
      exact .nil
    · obtain ⟨start, stop, hin⟩ := hparts part h
      rw [kept_children hne] at hin
      exact hin.siblings.2
  · exact Program.resolve_places previous generation hspans

/-- Tokens that are missing stand where the brace is that no rule can use. -/
example : (parse "f(1 * \x7d").1.kept.map (fun token => (token.kind, token.span)) =
    [(.identifier, ⟨0, 1⟩), (.number, ⟨2, 3⟩), (.star, ⟨4, 5⟩), (.identifier, ⟨6, 6⟩),
      (.closeParen, ⟨6, 6⟩), (.identifier, ⟨6, 6⟩), (.endOfFile, ⟨7, 7⟩)] := by decide +kernel

end Syntax
end ReplayShell
