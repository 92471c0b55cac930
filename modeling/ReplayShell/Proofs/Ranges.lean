import ReplayShell.Proofs.Chains
import ReplayShell.Proofs.ExactRuns
import ReplayShell.Proofs.Fuel

/-!
# The limits only ever end a run

On texts compiled one on top of another, none with a diagnostic, the limits of the machine are met
openly: a run that has met none of them is the run without limits.

* `literalValue_bounded`: a literal is in range. `resolvesRanged_of_written` carries this from what
  the grammar writes to what it resolves to, `ranged_of_clean` to all the code of a chain.
* `Compilation.evaluateExactly` evaluates without limits. `Compilation.evaluate_exact` compares the
  two.
-/
namespace ReplayShell

open Syntax (Token Tree Written FunctionDeclaration)

/-! ## Literals -/

/-- The value of a literal is in range, whatever number is written there. -/
theorem literalValue_bounded (token : Token) : (Syntax.literalValue token).Bounded := by
  unfold Syntax.literalValue
  split
  · rename_i hk
    dsimp only
    split
    · rename_i hle
      have hnonneg : (0 : Int) ≤ Syntax.decimalValue token.text.toList := Int.natCast_nonneg _
      refine ⟨?_, hle⟩
      unfold minInteger
      omega
    · exact ⟨by decide, by decide⟩
  · trivial
  · trivial

namespace Program

/-- What the tree resolves to has its literals in range, whatever the names stand for. -/
def ResolvesRanged : Tree → Prop
  | .expression expression => ∀ env, (resolveExpression env expression).1.Ranged
  | .expressions expressions =>
    ∀ env, Expression.AllRanged (resolveExpressions env expressions).1
  | .statement statement => ∀ env, (resolveStatement env statement).1.Ranged
  | .statements statements => ∀ env, Statement.AllRanged (resolveStatements env statements).1
  | _ => True

theorem ranged_resolveCall (env : Environment) (identifier : Token) {arguments : List Expression}
    (span : Span) (ha : Expression.AllRanged arguments) :
    (resolveCall env identifier arguments span).1.Ranged := by
  unfold resolveCall
  dsimp only
  split
  · trivial
  · split
    · exact ha
    · trivial

theorem resolvesRanged_of_written {tree : Tree} {ts : List Token} (h : Written tree ts) :
    ResolvesRanged tree := by
  induction h with
  | token | noTokens | lastToken | tokens | function | functionMember | statementMember | noMembers
  | members => trivial
  | literal => exact fun _ => literalValue_bounded _
  | name =>
    intro env
    unfold resolveExpression
    split
    · trivial
    · split <;> trivial
  | assignment _ _ _ ih =>
    intro env
    have hv := ih env
    simp only [resolveExpression]
    split
    · trivial
    · exact hv
    · trivial
  | unary _ _ ih => exact ih
  | binary _ _ _ ihLeft ihRight =>
    intro env
    have hl := ihLeft env
    have hr := ihRight env
    simp only [resolveExpression]
    split
    · exact ⟨hl, hr⟩
    · trivial
  | parenthesized _ _ _ ih => exact ih
  | call _ _ _ _ ih => exact fun env => ranged_resolveCall env _ _ (ih env)
  | noExpressions => exact fun _ => trivial
  | lastExpression _ ih => exact fun env => ⟨ih env, trivial⟩
  | expressions _ _ _ ihFirst ihMore => exact fun env => ⟨ihFirst env, ihMore env⟩
  | block _ _ _ ih => exact fun env => ih env.openBlock
  | «variable» _ _ _ _ ih => exact ih
  | conditionalElse _ _ _ _ _ ihCondition ihThen ihElse =>
    exact fun env => ⟨ihCondition env, ihThen env, ihElse _⟩
  | conditional _ _ _ ihCondition ihThen => exact fun env => ⟨ihCondition env, ihThen env, trivial⟩
  | loop _ _ _ ihCondition ihBody => exact fun env => ⟨ihCondition env, ihBody env⟩
  | returnNothing => exact fun _ => trivial
  | «return» _ _ ih => exact ih
  | expression _ ih => exact ih
  | noStatements => exact fun _ => trivial
  | statements _ _ ihFirst ihMore => exact fun env => ⟨ihFirst env, ihMore _⟩

/-- The body of a function that the grammar writes has its literals in range. -/
theorem ranged_resolveFunction {declaration : FunctionDeclaration} {ts : List Token}
    (hw : Written (.function declaration) ts) (globals : Environment) (symbol : FunctionSymbol) :
    Statement.AllRanged (resolveFunction globals symbol declaration).1.body := by
  cases hw with
  | function _ _ _ _ _ _ hbody => exact resolvesRanged_of_written hbody _

end Program

namespace Compilation

open Program (GlobalsRanged ResultRanged Statement)

variable {texts : List String} {compilation : Compilation}

/-! ## Chains -/

/-- The literals of all the code of a compilation are in range. -/
structure Ranged (compilation : Compilation) : Prop where
  functions : compilation.functions.Ranged
  statements : Statement.AllRanged compilation.program.statements

theorem ranged_empty : Ranged empty where
  functions := by
    intro id function h
    rw [getElem?_functions_empty] at h
    cases h
  statements := trivial

theorem Link.ranged {below : Compilation} {text : String}
    {declared : List (Program.FunctionSymbol × FunctionDeclaration)} {env : Program.Environment}
    (link : Link texts below text declared env compilation) (ranged : below.Ranged) :
    compilation.Ranged where
  functions := by
    intro id function h
    rcases link.cases_function h with ⟨entry, he, -, rfl⟩ | h
    · obtain ⟨ts, hw, -⟩ := link.written_declared he
      exact Program.ranged_resolveFunction hw _ _
    · exact ranged.functions id function h
  statements := by
    obtain ⟨ts, -, hw⟩ := Syntax.written_topLevelStatements link.written
    rw [link.resolves.statements]
    exact Program.resolvesRanged_of_written hw env

theorem ranged_of_clean {previous : Option Compilation} (clean : Clean texts previous) :
    (previous.getD empty).Ranged :=
  keeps_of_clean ranged_empty Link.ranged clean

/-! ## Evaluation without limits -/

/-- Runs the submission without limits, unless it has diagnostics; `none` if the fuel does not
suffice. -/
def evaluateExactly (compilation : Compilation) (fuel : Nat) (globals : Variables) :
    Option Evaluation :=
  if compilation.diagnostics.isEmpty then
    match Program.Exact.run compilation.program compilation.functions fuel globals with
    | .done value machine => some ⟨value, [], machine.globals, machine.printed⟩
    | .failed diagnostic machine => some ⟨none, [diagnostic], machine.globals, machine.printed⟩
    | .unfinished => none
  else some ⟨none, compilation.diagnostics, globals, ""⟩

theorem Clean.diagnostics (clean : Clean texts (some compilation)) :
    compilation.diagnostics = [] := by
  cases clean with
  | empty => rfl
  | text _ h => exact h

/-- An evaluation that is done has met a limit, or is what it would be without limits. -/
theorem evaluateExactly_of_evaluate (ranged : compilation.Ranged)
    (hd : compilation.diagnostics = []) {fuel : Nat} {globals : Variables}
    (hg : GlobalsRanged globals) {evaluation : Evaluation}
    (h : compilation.evaluate fuel globals = some evaluation) :
    (∃ diagnostic, evaluation.diagnostics = [diagnostic] ∧ diagnostic.AtLimit) ∨
      compilation.evaluateExactly fuel globals = some evaluation ∧
        (evaluation.diagnostics = [] →
          ResultRanged evaluation.value ∧ GlobalsRanged evaluation.globals) := by
  have lifts := Program.run_lifts ranged.functions ranged.statements fuel hg
  simp only [evaluate, evaluateExactly, hd, List.isEmpty_nil, if_true] at h ⊢
  cases hr : compilation.program.run compilation.functions fuel globals with
  | done value machine =>
    rw [hr] at lifts h
    obtain ⟨hexact, hv, hm⟩ := lifts
    cases h
    exact .inr ⟨by rw [hexact], fun _ => ⟨hv, hm.globals⟩⟩
  | failed diagnostic machine =>
    rw [hr] at lifts h
    cases h
    rcases lifts with hlimit | hexact
    · exact .inl ⟨diagnostic, rfl, hlimit⟩
    · exact .inr ⟨by rw [hexact], fun hnil => absurd hnil (List.cons_ne_nil _ _)⟩
  | unfinished => rw [hr] at h; cases h

/-- **The limits only ever end a run.** Let texts be compiled one on top of another, none with a
diagnostic, and the last be evaluated on variables in range. If that ends without a diagnostic, the
evaluation on unbounded integers, at any depth of calls, ends with the same value, variables and
printed text, and all of its integers are in range. If it ends with a diagnostic other than that a
limit was met, so does the evaluation without limits. -/
theorem evaluate_exact (clean : Clean texts (some compilation)) {fuel : Nat} {globals : Variables}
    (hg : GlobalsRanged globals) {evaluation : Evaluation}
    (h : compilation.evaluate fuel globals = some evaluation) :
    (evaluation.diagnostics = [] →
      (∀ more, fuel ≤ more → compilation.evaluateExactly more globals = some evaluation) ∧
        ResultRanged evaluation.value ∧ GlobalsRanged evaluation.globals) ∧
    ∀ diagnostic ∈ evaluation.diagnostics, ¬diagnostic.AtLimit →
      ∀ more, fuel ≤ more → compilation.evaluateExactly more globals = some evaluation := by
  have ranged : compilation.Ranged := ranged_of_clean clean
  have exact_or := fun more (hle : fuel ≤ more) =>
    evaluateExactly_of_evaluate ranged clean.diagnostics hg (evaluate_of_le hle h)
  refine ⟨fun hnil => ⟨fun more hle => ?_, ?_⟩, fun diagnostic hmem hlimit more hle => ?_⟩
  · rcases exact_or more hle with ⟨diagnostic, hone, -⟩ | ⟨hexact, -⟩
    · exact absurd (hnil.symm.trans hone) (List.cons_ne_nil _ _).symm
    · exact hexact
  · rcases exact_or fuel (Nat.le_refl _) with ⟨diagnostic, hone, -⟩ | ⟨-, hranged⟩
    · exact absurd (hnil.symm.trans hone) (List.cons_ne_nil _ _).symm
    · exact hranged hnil
  · rcases exact_or more hle with ⟨other, hone, hat⟩ | ⟨hexact, -⟩
    · rw [hone, List.mem_singleton] at hmem
      exact absurd (hmem ▸ hat) hlimit
    · exact hexact

theorem evaluate_exact_largestSquare :
    ∃ compilation, Clean ["function f(a) { return a * a }", "f(3037000499)"]
        (some compilation) ∧
      ∃ evaluation, compilation.evaluate 20 ∅ = some evaluation ∧
        evaluation.value = some (.integer 9223372030926249001) ∧
        (∀ more, 20 ≤ more → compilation.evaluateExactly more ∅ = some evaluation) ∧
          ResultRanged evaluation.value ∧ GlobalsRanged evaluation.globals := by
  have noVariables : GlobalsRanged ∅ := by
    intro id value h
    rw [Std.ExtTreeMap.getElem?_empty] at h
    cases h
  have first : Clean ["function f(a) { return a * a }"] _ :=
    .text .nothing (List.isEmpty_iff.1 (by decide +kernel))
  have both : Clean ["function f(a) { return a * a }", "f(3037000499)"] _ :=
    .text first (List.isEmpty_iff.1 (by decide +kernel))
  refine ⟨_, both, ?_⟩
  generalize hc : chain _ (Syntax.parse "f(3037000499)") = compilation at both ⊢
  have ends : (compilation.evaluate 20 ∅).any (fun evaluation =>
      evaluation.value = some (.integer 9223372030926249001) ∧ evaluation.diagnostics = []) := by
    subst hc
    decide +kernel
  obtain ⟨evaluation, h, hends⟩ := Option.any_eq_true _ _ |>.1 ends
  obtain ⟨hvalue, hnil⟩ := of_decide_eq_true hends
  exact ⟨evaluation, h, hvalue, (evaluate_exact both noVariables h).1 hnil⟩

end Compilation

end ReplayShell
