import ReplayShell.Proofs.Sessions
import ReplayShell.Proofs.TokenSpans

/-!
# Where a failure is reported

A run-time diagnostic has a span, but no record of the text that the span is in. Functions live on
under later submissions, and keep the spans of the text that they were written in.

* `Expression.isBare`: literals, and assignments of them, keep no span. `Sound.placed_span`: any
  other sound expression has the span that it was written with.
* `place_of_raises`: a moment that fails reports the span of an expression of its own code, except
  at a condition that keeps none, where it reports the empty span at 0.
* `failure_place`: the same for a submission to a shell. The text of the failing code is the
  submission itself if that has declared the function that fails.
-/
namespace ReplayShell

namespace Program

/-- Whether the expression keeps no span. -/
def Expression.isBare : Expression → Bool
  | .literal _ => true
  | .assignment _ value => value.isBare
  | _ => false

theorem Expression.span_of_isBare : ∀ expression : Expression, expression.isBare = true →
    expression.span = Span.at 0
  | .literal _, _ => rfl
  | .assignment _ value, h => span_of_isBare value h

/-- A sound expression that keeps a span has one of the places of the context. -/
theorem Sound.placed_span {context : Context} {expression : Expression}
    (h : Sound context (.expression expression)) (hb : expression.isBare = false) :
    context.placed expression.span := by
  generalize hc : Code.expression expression = code at h
  induction h generalizing expression with
  | literal =>
    cases hc
    cases hb
  | @assignment ref value _ _ ih =>
    cases hc
    have hvalue : value.isBare = false := hb
    have hp : context.placed value.span := ih hvalue rfl
    exact hp
  | «variable» _ hp | unary _ hp | binary _ _ hp | call _ _ hp =>
    cases hc
    exact hp
  | _ => cases hc

variable {functions : FunctionMap} {fuel depth : Nat} {machine machine' : Machine}

/-- Only a call may have no value. -/
theorem exists_call_of_evaluate {expression : Expression}
    (h : evaluate functions fuel depth expression machine = .done none machine') :
    ∃ name callee arguments span, expression = .call name callee arguments span := by
  cases fuel with
  | zero => cases h
  | succ fuel =>
    cases expression with
    | call name callee arguments span => exact ⟨name, callee, arguments, span, rfl⟩
    | invalid | literal => cases h
    | «variable» ref span =>
      simp only [evaluate] at h
      split at h <;> cases h
    | assignment ref value =>
      obtain ⟨result, machine₁, -, hn⟩ := Run.withValue_done h
      cases hn
    | unary op operand span =>
      obtain ⟨value, machine₁, -, hn⟩ := Run.withValue_done h
      unfold unaryResult at hn
      split at hn <;> cases hn
    | binary left op right span =>
      obtain ⟨value, machine₁, -, hn⟩ := Run.withValue_done h
      split at hn
      · cases hn
      · obtain ⟨value', machine₂, -, hn⟩ := Run.withValue_done hn
        unfold binaryResult at hn
        split at hn <;> cases hn

/-- So a missing value is reported at the call. -/
theorem missingAt_of_evaluate {context : Context} {expression : Expression} (fallback : Span)
    (nonempty : ∀ span, context.placed span → span.isEmpty = false)
    (hs : Sound context (.expression expression))
    (h : evaluate functions fuel depth expression machine = .done none machine') :
    expression.isBare = false ∧ context.placed (missingAt expression fallback) := by
  obtain ⟨name, callee, arguments, span, rfl⟩ := exists_call_of_evaluate h
  cases hs with
  | call _ _ hp =>
    have hspan : missingAt (.call name callee arguments span) fallback = span :=
      if_neg (by simp [Expression.span, nonempty span hp])
    rw [hspan]
    exact ⟨rfl, hp⟩

theorem span_of_unaryResult {op : UnaryOp} {value : Value} {span : Span} {diagnostic : Diagnostic}
    (h : unaryResult op value span machine = .failed diagnostic machine') :
    diagnostic.span = span := by
  unfold unaryResult at h
  split at h <;> cases h <;> rfl

theorem span_of_binaryResult {op : BinaryOp} {left right : Value} {span : Span}
    {diagnostic : Diagnostic}
    (h : binaryResult op left right span machine = .failed diagnostic machine') :
    diagnostic.span = span := by
  unfold binaryResult at h
  split at h <;> cases h <;> rfl

/-- Whether a condition is to be decided that keeps no span. -/
def Moment.atBareCondition (moment : Moment) : Bool :=
  match moment.task with
  | .execute (.conditional condition _ _) => condition.isBare
  | .execute (.loop condition _) => condition.isBare
  | _ => false

/-- A condition of the wrong type is reported where it was written, if it keeps a span. -/
theorem place_of_condition {context : Context} {condition : Expression}
    (hs : Sound context (.expression condition)) :
    condition.isBare = false ∧ context.placed condition.span ∨
      condition.isBare = true ∧ condition.span = Span.at 0 := by
  cases hb : condition.isBare with
  | false => exact .inl ⟨rfl, hs.placed_span hb⟩
  | true => exact .inr ⟨rfl, condition.span_of_isBare hb⟩

/-- A moment of sound code that fails reports one of the places of the code, unless it is at a
condition that keeps none. -/
theorem place_of_raises {moment : Moment} {diagnostic : Diagnostic} {context : Context}
    (nonempty : ∀ span, context.placed span → span.isEmpty = false)
    (fits : Moment.taskFits context moment.task) (h : Raises functions moment diagnostic) :
    moment.atBareCondition = false ∧ context.placed diagnostic.span ∨
      moment.atBareCondition = true ∧ diagnostic.span = Span.at 0 := by
  cases h with
  | invalid => cases fits
  | unset =>
    cases fits with
    | «variable» _ hp => exact .inl ⟨rfl, hp⟩
  | assignment he =>
    cases fits with
    | assignment _ hv => exact .inl ⟨rfl, (missingAt_of_evaluate _ nonempty hv he).2⟩
  | unaryOperand he =>
    cases fits with
    | unary ho => exact .inl ⟨rfl, (missingAt_of_evaluate _ nonempty ho he).2⟩
  | unary _ hr =>
    cases fits with
    | unary _ hp => exact .inl ⟨rfl, span_of_unaryResult hr ▸ hp⟩
  | binaryLeft he =>
    cases fits with
    | binary hl => exact .inl ⟨rfl, (missingAt_of_evaluate _ nonempty hl he).2⟩
  | binaryRight _ _ he =>
    cases fits with
    | binary _ hr => exact .inl ⟨rfl, (missingAt_of_evaluate _ nonempty hr he).2⟩
  | binary _ _ _ hb =>
    cases fits with
    | binary _ _ hp => exact .inl ⟨rfl, span_of_binaryResult hb ▸ hp⟩
  | argument he =>
    cases fits with
    | expressions hf => exact .inl ⟨rfl, (missingAt_of_evaluate _ nonempty hf he).2⟩
  | noBody => exact .inl ⟨rfl, fits.2⟩
  | tooDeep => exact .inl ⟨rfl, fits.2⟩
  | initializer he =>
    cases fits with
    | declaration _ hv => exact .inl ⟨rfl, (missingAt_of_evaluate _ nonempty hv he).2⟩
  | condition he =>
    cases fits with
    | conditional hc => exact .inl (missingAt_of_evaluate _ nonempty hc he)
    | conditionalElse hc => exact .inl (missingAt_of_evaluate _ nonempty hc he)
  | conditionType =>
    cases fits with
    | conditional hc => exact place_of_condition hc
    | conditionalElse hc => exact place_of_condition hc
  | loopCondition he =>
    cases fits with
    | loop hc => exact .inl (missingAt_of_evaluate _ nonempty hc he)
  | loopConditionType =>
    cases fits with
    | loop hc => exact place_of_condition hc

/-- What a computation reports if it fails. -/
def Run.failure? {α : Type} : Run α → Option Diagnostic
  | .failed diagnostic _ => some diagnostic
  | _ => none

theorem Run.failed_of_failure? {α : Type} {run : Run α} {diagnostic : Diagnostic}
    (h : run.failure? = some diagnostic) : ∃ machine, run = .failed diagnostic machine := by
  cases run with
  | failed _ machine =>
    cases h
    exact ⟨machine, rfl⟩
  | done | unfinished => cases h

/-- A step stays in the code of a function, or goes into that of another. -/
theorem origin_of_leads {moment moment' : Moment} (h : Leads functions moment moment') :
    moment'.origin = moment.origin ∨
      ∃ id function, moment'.origin = some id ∧ functions[id]? = some function := by
  cases h with
  | enterBody hf => exact .inr ⟨_, _, rfl, hf⟩
  | _ => exact .inl rfl

theorem origin_of_reached {moment moment' : Moment} (h : Reached functions moment moment')
    (hm : moment.origin = none) :
    moment'.origin = none ∨
      ∃ id function, moment'.origin = some id ∧ functions[id]? = some function := by
  induction h with
  | refl => exact .inl hm
  | tail _ h ih =>
    rcases origin_of_leads h with hsame | hother
    · rw [hsame]
      exact ih
    · exact .inr hother

end Program

open Program (Moment Reached Raises)
open Compilation (Clean Linked Placed chain contextOf sourceOf)

/-! ## Failures in a session -/

/-- The texts of a clean chain are faultless. -/
theorem Compilation.Clean.parse_eq_nil {texts : List String} {previous : Option Compilation}
    (clean : Clean texts previous) : ∀ text ∈ texts, (Syntax.parse text).2 = [] := by
  induction clean with
  | nothing => exact fun _ h => absurd h List.not_mem_nil
  | empty => exact fun _ h => absurd h List.not_mem_nil
  | text _ h ih =>
    intro text ht
    rcases List.mem_append.1 ht with ht | ht
    · exact ih text ht
    · rw [List.mem_singleton.1 ht]
      exact (List.append_eq_nil_iff.1 h).1

theorem Compilation.mem_of_sourceOf {texts : List String} {origin : Option FunctionId}
    {source : String} (h : sourceOf texts origin = some source) : source ∈ texts := by
  cases origin with
  | none => exact List.mem_of_getLast? h
  | some id => exact List.mem_of_getElem? h

/-- The span is that of an expression of the text; it is not empty, and inside the text. -/
def PointsInto (text : String) (span : Span) : Prop :=
  Placed text span ∧ span.Inside 0 (Text.byteSize text.toList)

theorem pointsInto_of_placed {text : String} {span : Span} (h : (Syntax.parse text).2 = [])
    (hp : Placed text span) : PointsInto text span := by
  obtain ⟨part, ho, rfl⟩ := hp
  exact ⟨⟨part, ho, rfl⟩, Syntax.span_of_parse h ho⟩

/-- A submission without a problem of its own that fails when it is run. -/
structure Session.Fails (session : Session) (fuel : Nat) (text : String)
    (diagnostic : Diagnostic) : Prop where
  faultless : (chain session.handle (Syntax.parse text)).diagnostics = []
  fails : ((chain session.handle (Syntax.parse text)).program.run
    (chain session.handle (Syntax.parse text)).functions fuel session.globals).failure? =
      some diagnostic

variable {shell : Shell} {fuel : Nat} {text : String} {diagnostic : Diagnostic}

/-- What a shell does with a submission that fails: it reports the diagnostic on the text of the
submission, and stays as it was. -/
theorem Session.Fails.evaluate (fails : shell.session.Fails fuel text diagnostic) :
    ∃ shown, ∀ keep files, shell.evaluate fuel keep files text =
      some ⟨.ok (), shown ++ report text.toList [diagnostic], shell, files⟩ := by
  obtain ⟨hd, hf⟩ := fails
  obtain ⟨machine, hr⟩ := Program.Run.failed_of_failure? hf
  refine ⟨shell.displays (Syntax.parse text).1 (chain shell.session.handle (Syntax.parse text)) ++
    Terminal.Output.plain machine.printed, fun keep files => ?_⟩
  have he : (chain shell.session.handle (Syntax.parse text)).evaluate fuel shell.session.globals =
      some ⟨none, [diagnostic], machine.globals, machine.printed⟩ := by
    rw [Compilation.evaluate, hd, hr]
    rfl
  simp only [Shell.evaluate, he]
  rfl

/-- The code that is being run was written in some text of the chain: in the last one, if it is at
the top level or in a function of the last generation. -/
theorem source_of_reached {texts : List String} {compilation : Compilation} {moment : Moment}
    {globals : Variables} (linked : Linked (texts ++ [text]) compilation)
    (h : Reached compilation.functions (compilation.start fuel globals) moment) :
    ∃ source, sourceOf (texts ++ [text]) moment.origin = some source ∧
      ((∀ id, moment.origin = some id → id.generation = compilation.generation) →
        source = text) := by
  rcases Program.origin_of_reached h rfl with hnone | ⟨id, function, horigin, hf⟩
  · rw [hnone]
    exact ⟨text, List.getLast?_concat, fun _ => rfl⟩
  · have hnumber := linked.numbered id function hf
    have hlt : id.generation - 1 < (texts ++ [text]).length := by omega
    rw [horigin]
    refine ⟨_, List.getElem?_eq_getElem hlt, fun hown => ?_⟩
    have hgeneration : id.generation = (texts ++ [text]).length :=
      (hown id rfl).trans linked.generation
    simp [hgeneration]

/-- A moment that fails, in a run of the last text of a clean chain, reports an expression of the
text that its code was written in, or comes from a condition that keeps no span. -/
theorem place_of_failure {texts : List String} {compilation : Compilation} {globals : Variables}
    {moment : Moment} (clean : Clean (texts ++ [text]) (some compilation))
    (hreached : Reached compilation.functions (compilation.start fuel globals) moment)
    (hraises : Raises compilation.functions moment diagnostic) :
    ∃ source, sourceOf (texts ++ [text]) moment.origin = some source ∧
      ((∀ id, moment.origin = some id → id.generation = compilation.generation) →
        source = text) ∧
      (PointsInto source diagnostic.span ↔ moment.atBareCondition = false) ∧
      (moment.atBareCondition = true → diagnostic.span = Span.at 0) := by
  have linked : Linked (texts ++ [text]) compilation := Compilation.linked_of_clean clean
  obtain ⟨source, hsource, hown⟩ := source_of_reached linked hreached
  refine ⟨source, hsource, hown, ?_⟩
  have points : ∀ span, (contextOf (texts ++ [text]) compilation moment.origin).placed span →
      PointsInto source span := by
    rintro span ⟨source', hs', hp⟩
    obtain rfl : source' = source := Option.some.inj (hs'.symm.trans hsource)
    exact pointsInto_of_placed (clean.parse_eq_nil _ (Compilation.mem_of_sourceOf hsource)) hp
  have nonempty : ∀ span, (contextOf (texts ++ [text]) compilation moment.origin).placed span →
      span.isEmpty = false := by
    intro span hp
    have hinside := (points span hp).2.nonempty
    exact decide_eq_false (by omega)
  have fits := Program.fits_of_reached linked.setting hreached (linked.fits_start fuel globals)
  rcases Program.place_of_raises nonempty fits.task hraises with ⟨hb, hp⟩ | ⟨hb, hs⟩
  · rw [hb]
    exact ⟨⟨fun _ => rfl, fun _ => points _ hp⟩, fun h => by cases h⟩
  · rw [hb, hs]
    exact ⟨⟨fun h => absurd h.2.nonempty (Nat.lt_irrefl 0), fun h => by cases h⟩, fun _ => rfl⟩

/-- **Where a failure is reported.** A shell, whatever it has come to, runs a submission that fails,
and reports the diagnostic on the text of the submission. It comes from some moment of the run,
whose code was written in some text: in the submission, if it is at the top level or in a function
that the submission declares, else in the earlier text that has declared the function. The
diagnostic has the span of an expression of *that* text just if it does not come from a condition
that keeps no span; from such a condition it has the empty span at 0. -/
theorem failure_place (reachable : shell.Reachable)
    (fails : shell.session.Fails fuel text diagnostic) :
    (∃ shown, ∀ keep files, shell.evaluate fuel keep files text =
      some ⟨.ok (), shown ++ report text.toList [diagnostic], shell, files⟩) ∧
    ∃ texts compilation, chain shell.session.handle (Syntax.parse text) = compilation ∧
      Clean (texts ++ [text]) (some compilation) ∧
      (∃ moment, Reached compilation.functions
          (compilation.start fuel shell.session.globals) moment ∧
        Raises compilation.functions moment diagnostic) ∧
      ∀ moment, Reached compilation.functions
          (compilation.start fuel shell.session.globals) moment →
        Raises compilation.functions moment diagnostic →
        ∃ source, sourceOf (texts ++ [text]) moment.origin = some source ∧
          ((∀ id, moment.origin = some id → id.generation = compilation.generation) →
            source = text) ∧
          (PointsInto source diagnostic.span ↔ moment.atBareCondition = false) ∧
          (moment.atBareCondition = true → diagnostic.span = Span.at 0) := by
  refine ⟨fails.evaluate, ?_⟩
  obtain ⟨texts, below⟩ := Shell.clean_of_reachable reachable
  obtain ⟨faultless, hf⟩ := fails
  obtain ⟨machine, hr⟩ := Program.Run.failed_of_failure? hf
  have clean : Clean (texts ++ [text]) (some (chain shell.session.handle (Syntax.parse text))) :=
    .text below faultless
  refine ⟨texts, _, rfl, clean, ?_, fun moment hreached hraises => ?_⟩
  · exact Program.explains_runStatements none 0 none _ _ hr
  · exact place_of_failure clean hreached hraises

/-- A function of an earlier text fails under a later one, which is too short for its span. -/
theorem failure_place_earlierFunction :
    ∃ shell : Shell, shell.Reachable ∧
      shell.session.Fails 9 "f(1)" ⟨⟨23, 28⟩, .divisionByZero⟩ ∧
      ¬PointsInto "f(1)" ⟨23, 28⟩ ∧
      (∃ shown, ∀ keep files, shell.evaluate 9 keep files "f(1)" =
        some ⟨.ok (), shown ++ report "f(1)".toList [⟨⟨23, 28⟩, .divisionByZero⟩], shell, files⟩) ∧
      ∃ texts compilation, chain shell.session.handle (Syntax.parse "f(1)") = compilation ∧
        Clean (texts ++ ["f(1)"]) (some compilation) ∧
        (∃ moment, Reached compilation.functions
            (compilation.start 9 shell.session.globals) moment ∧
          Raises compilation.functions moment ⟨⟨23, 28⟩, .divisionByZero⟩) ∧
        ∀ moment, Reached compilation.functions
            (compilation.start 9 shell.session.globals) moment →
          Raises compilation.functions moment ⟨⟨23, 28⟩, .divisionByZero⟩ →
          ∃ source, sourceOf (texts ++ ["f(1)"]) moment.origin = some source ∧
            ((∀ id, moment.origin = some id → id.generation = compilation.generation) →
              source = "f(1)") ∧
            (PointsInto source ⟨23, 28⟩ ↔ moment.atBareCondition = false) ∧
            (moment.atBareCondition = true → (⟨23, 28⟩ : Span) = Span.at 0) := by
  obtain ⟨reply, hs, hf⟩ : ∃ reply,
      (Shell.fresh "s").submit 9 .empty "function f(a) { return a / 0 }" = some reply ∧
        ((chain reply.shell.session.handle (Syntax.parse "f(1)")).diagnostics.isEmpty &&
          ((chain reply.shell.session.handle (Syntax.parse "f(1)")).program.run
            (chain reply.shell.session.handle (Syntax.parse "f(1)")).functions 9
              reply.shell.session.globals).failure? = some ⟨⟨23, 28⟩, .divisionByZero⟩) = true :=
    (Option.any_eq_true _ _).1 (by decide +kernel)
  rw [Bool.and_eq_true, List.isEmpty_iff, decide_eq_true_eq] at hf
  have reachable : reply.shell.Reachable := .submit (.fresh "s") hs
  refine ⟨reply.shell, reachable, ⟨hf.1, hf.2⟩, fun h => ?_, failure_place reachable ⟨hf.1, hf.2⟩⟩
  exact absurd h.2.stop (by decide +kernel)

end ReplayShell
