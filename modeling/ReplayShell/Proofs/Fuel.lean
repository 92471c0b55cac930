import ReplayShell.Shell.Dispatch

/-!
# More fuel, same result

A run that ends gives the same result with any greater fuel, so what a run does is a question about
the program and not about the fuel.

* `Run.Below` compares two runs: the first may only have run out of fuel earlier.
* `evaluate_below_succ` and its companions: each part of the evaluator grows with its fuel.
* `Compilation.evaluate_of_le`, `Shell.submit_of_le` and `Shell.replay_of_le` carry this up to the
  operations of the shell.
-/
namespace ReplayShell

namespace Program

/-- The same run, unless the first has run out of fuel. -/
def Run.Below {α : Type} (run more : Run α) : Prop := run = .unfinished ∨ run = more

namespace Run.Below

variable {α β : Type} {run more : Run α}

theorem refl (run : Run α) : run.Below run := .inr rfl

theorem trans {most : Run α} (h : run.Below more) (h' : more.Below most) : run.Below most := by
  rcases h with rfl | rfl
  · exact .inl rfl
  · exact h'

theorem eq (h : run.Below more) (hf : run ≠ .unfinished) : more = run :=
  (h.resolve_left hf).symm

theorem andThen {next next' : α → Machine → Run β} (h : run.Below more)
    (hn : ∀ value machine, (next value machine).Below (next' value machine)) :
    (run.andThen next).Below (more.andThen next') := by
  rcases h with rfl | rfl
  · exact .inl rfl
  · cases run with
    | done value machine => exact hn value machine
    | failed diagnostic machine => exact refl _
    | unfinished => exact refl _

theorem withValue {run more : Run (Option Value)} {next next' : Value → Machine → Run β}
    (expression : Expression) (fallback : Span) (h : run.Below more)
    (hn : ∀ value machine, (next value machine).Below (next' value machine)) :
    (run.withValue expression fallback next).Below (more.withValue expression fallback next') :=
  h.andThen fun result machine => by
    cases result with
    | some value => exact hn value machine
    | none => exact refl _

theorem withCondition {run more : Run (Option Value)} {next next' : Bool → Machine → Run β}
    (condition : Expression) (h : run.Below more)
    (hn : ∀ truth machine, (next truth machine).Below (next' truth machine)) :
    (run.withCondition condition next).Below (more.withCondition condition next') :=
  h.withValue condition _ fun value machine => by
    cases value with
    | boolean truth => exact hn truth machine
    | integer => exact refl _
    | string => exact refl _

end Run.Below

section
variable (functions : FunctionMap)

/-- What one step of fuel adds to the four parts of the evaluator. -/
structure GrowsAt (fuel : Nat) : Prop where
  evaluate : ∀ depth expression machine,
    (evaluate functions fuel depth expression machine).Below
      (evaluate functions (fuel + 1) depth expression machine)
  evaluateAll : ∀ depth span expressions machine,
    (evaluateAll functions fuel depth span expressions machine).Below
      (evaluateAll functions (fuel + 1) depth span expressions machine)
  execute : ∀ depth statement machine,
    (execute functions fuel depth statement machine).Below
      (execute functions (fuel + 1) depth statement machine)
  executeAll : ∀ depth statements machine,
    (executeAll functions fuel depth statements machine).Below
      (executeAll functions (fuel + 1) depth statements machine)

variable {functions}

theorem evaluate_below_succ {fuel : Nat} (ih : GrowsAt functions fuel) (depth : Nat)
    (expression : Expression) (machine : Machine) :
    (evaluate functions (fuel + 1) depth expression machine).Below
      (evaluate functions (fuel + 2) depth expression machine) := by
  cases expression with
  | invalid => exact .refl _
  | literal value => exact .refl _
  | «variable» ref span => exact .refl _
  | assignment ref value =>
    exact (ih.evaluate depth value machine).withValue _ _ fun _ _ => .refl _
  | unary op operand span =>
    exact (ih.evaluate depth operand machine).withValue _ _ fun _ _ => .refl _
  | binary left op right span =>
    refine (ih.evaluate depth left machine).withValue _ _ fun leftValue machine => ?_
    cases op.shortCircuit? leftValue with
    | some value => exact .refl _
    | none => exact (ih.evaluate depth right machine).withValue _ _ fun _ _ => .refl _
  | call name callee arguments span =>
    refine (ih.evaluateAll depth span arguments machine).andThen fun values machine => ?_
    cases callee with
    | print => exact .refl _
    | function id =>
      cases hf : functions[id]? with
      | none => simp only [hf]; exact .refl _
      | some function =>
        simp only [hf]
        by_cases hd : maxCallDepth ≤ depth
        · simp only [hd, ↓reduceIte]; exact .refl _
        · simp only [hd, ↓reduceIte]
          exact (ih.executeAll _ _ _).andThen fun _ _ => .refl _

theorem evaluateAll_below_succ {fuel : Nat} (ih : GrowsAt functions fuel) (depth : Nat) (span : Span)
    (expressions : List Expression) (machine : Machine) :
    (evaluateAll functions (fuel + 1) depth span expressions machine).Below
      (evaluateAll functions (fuel + 2) depth span expressions machine) := by
  cases expressions with
  | nil => exact .refl _
  | cons expression rest =>
    refine (ih.evaluate depth expression machine).withValue _ _ fun value machine => ?_
    exact (ih.evaluateAll depth span rest machine).andThen fun _ _ => .refl _

theorem execute_below_succ {fuel : Nat} (ih : GrowsAt functions fuel) (depth : Nat)
    (statement : Statement) (machine : Machine) :
    (execute functions (fuel + 1) depth statement machine).Below
      (execute functions (fuel + 2) depth statement machine) := by
  cases statement with
  | block statements => exact ih.executeAll depth statements machine
  | «variable» ref readOnly initializer =>
    exact (ih.evaluate depth initializer machine).withValue _ _ fun _ _ => .refl _
  | conditional condition thenBranch elseBranch =>
    refine (ih.evaluate depth condition machine).withCondition _ fun truth machine => ?_
    cases truth with
    | true => exact ih.execute depth thenBranch machine
    | false =>
      cases elseBranch with
      | none => exact .refl _
      | some statement => exact ih.execute depth statement machine
  | loop condition body =>
    refine (ih.evaluate depth condition machine).withCondition _ fun truth machine => ?_
    cases truth with
    | false => exact .refl _
    | true =>
      refine (ih.execute depth body machine).andThen fun flow machine => ?_
      cases flow with
      | normal => exact ih.execute depth (.loop condition body) machine
      | «return» value => exact .refl _
  | «return» value =>
    cases value with
    | none => exact .refl _
    | some value => exact (ih.evaluate depth value machine).andThen fun _ _ => .refl _
  | expression expression =>
    exact (ih.evaluate depth expression machine).andThen fun _ _ => .refl _

theorem executeAll_below_succ {fuel : Nat} (ih : GrowsAt functions fuel) (depth : Nat)
    (statements : List Statement) (machine : Machine) :
    (executeAll functions (fuel + 1) depth statements machine).Below
      (executeAll functions (fuel + 2) depth statements machine) := by
  cases statements with
  | nil => exact .refl _
  | cons statement rest =>
    refine (ih.execute depth statement machine).andThen fun flow machine => ?_
    cases flow with
    | normal => exact ih.executeAll depth rest machine
    | «return» value => exact .refl _

variable (functions)

theorem growsAt (fuel : Nat) : GrowsAt functions fuel := by
  induction fuel with
  | zero => exact ⟨fun _ _ _ => .inl rfl, fun _ _ _ _ => .inl rfl, fun _ _ _ => .inl rfl,
      fun _ _ _ => .inl rfl⟩
  | succ fuel ih => exact ⟨evaluate_below_succ ih, evaluateAll_below_succ ih,
      execute_below_succ ih, executeAll_below_succ ih⟩

/-- A run that ends does so with any greater fuel, in the same way. -/
theorem runStatements_below_succ (fuel : Nat) (last : Option Value) (statements : List Statement)
    (machine : Machine) :
    (runStatements functions fuel last statements machine).Below
      (runStatements functions (fuel + 1) last statements machine) := by
  have grows := growsAt functions fuel
  induction statements generalizing last machine with
  | nil => exact .refl _
  | cons statement rest ih =>
    cases statement with
    | expression expression =>
      exact (grows.evaluate 0 expression machine).andThen fun value machine => ih value machine
    | block | «variable» | conditional | loop | «return» =>
      exact (grows.execute 0 _ machine).andThen fun _ machine => ih last machine

theorem run_below (program : Program) (globals : Variables) {fuel fuel' : Nat} (h : fuel ≤ fuel') :
    (program.run functions fuel globals).Below (program.run functions fuel' globals) := by
  induction h with
  | refl => exact .refl _
  | step _ ih => exact ih.trans (runStatements_below_succ functions _ none _ _)

end

end Program

theorem Compilation.evaluate_of_le {compilation : Compilation} {globals : Variables}
    {evaluation : Evaluation} {fuel fuel' : Nat} (hle : fuel ≤ fuel')
    (h : compilation.evaluate fuel globals = some evaluation) :
    compilation.evaluate fuel' globals = some evaluation := by
  have below := Program.run_below compilation.functions compilation.program globals hle
  unfold Compilation.evaluate at h ⊢
  split
  · rename_i hd
    rw [if_pos hd] at h
    rw [below.eq (by intro hu; simp [hu] at h)]
    exact h
  · rename_i hd
    rwa [if_neg hd] at h

namespace Shell

variable {shell : Shell} {files : FileSystem} {fuel fuel' : Nat}

theorem evaluate_of_le {keep : Bool} {text : String} {reply : Reply Unit} (hle : fuel ≤ fuel')
    (h : shell.evaluate fuel keep files text = some reply) :
    shell.evaluate fuel' keep files text = some reply := by
  unfold Shell.evaluate at h ⊢
  dsimp only at h ⊢
  cases he : (Compilation.chain shell.session.handle (Syntax.parse text)).evaluate fuel
      shell.session.globals with
  | none => simp [he] at h
  | some evaluation =>
    rw [Compilation.evaluate_of_le hle he]
    simpa only [he] using h

theorem load_of_le {path : String} {reply : Reply Outcome} (hle : fuel ≤ fuel')
    (h : shell.load fuel files path = some reply) : shell.load fuel' files path = some reply := by
  unfold Shell.load at h ⊢
  dsimp only at h ⊢
  split
  · rename_i hf
    rw [if_pos hf] at h
    split
    · rename_i hr
      simpa only [hr] using h
    · rename_i hr
      simp only [hr, Option.map_eq_some_iff] at h ⊢
      obtain ⟨inner, hi, rfl⟩ := h
      exact ⟨inner, evaluate_of_le hle hi, rfl⟩
  · rename_i hf
    rwa [if_neg hf] at h

theorem execute_of_le {line : String} {reply : Reply Outcome} (hle : fuel ≤ fuel')
    (h : shell.execute fuel files line = some reply) :
    shell.execute fuel' files line = some reply := by
  unfold Shell.execute at h ⊢
  split
  · rename_i hr
    simpa only [hr] using h
  · rename_i hr
    simpa only [hr] using h
  · rename_i command arguments hr
    simp only [hr] at h
    cases command with
    | load => exact load_of_le hle h
    | exit | clearScreen | reset | showTree | showProgram | listSymbols | dump => exact h

/-- A submission that is done with some fuel is done with any greater one, in the same way. -/
theorem submit_of_le {text : String} {reply : Reply Outcome} (hle : fuel ≤ fuel')
    (h : shell.submit fuel files text = some reply) :
    shell.submit fuel' files text = some reply := by
  unfold Shell.submit at h ⊢
  split
  · rename_i hc
    rw [if_pos hc] at h
    exact execute_of_le hle h
  · rename_i hc
    rw [if_neg hc] at h
    split
    · rename_i hb
      rwa [if_pos hb] at h
    · rename_i hb
      simp only [if_neg hb, Option.map_eq_some_iff] at h ⊢
      obtain ⟨inner, hi, rfl⟩ := h
      exact ⟨inner, evaluate_of_le hle hi, rfl⟩

theorem replayAll_of_le {output : Terminal.Output} {texts : List String}
    {result : Shell × FileSystem × Terminal.Output} (hle : fuel ≤ fuel')
    (h : shell.replayAll fuel files output texts = some result) :
    shell.replayAll fuel' files output texts = some result := by
  induction texts generalizing shell files output with
  | nil => exact h
  | cons text rest ih =>
    unfold Shell.replayAll at h ⊢
    cases he : shell.evaluate fuel false files text with
    | none => simp [he] at h
    | some reply =>
      rw [evaluate_of_le hle he]
      simp only [he] at h
      exact ih h

/-- A replay that is done with some fuel is done with any greater one, in the same way. -/
theorem replay_of_le {reply : Reply Nat} (hle : fuel ≤ fuel')
    (h : shell.replay fuel files = some reply) : shell.replay fuel' files = some reply := by
  unfold Shell.replay at h ⊢
  split
  · rename_i ht
    simpa only [ht] using h
  · rename_i ht
    simpa only [ht] using h
  · rename_i texts hne ht
    cases texts with
    | nil => exact absurd rfl hne
    | cons text rest =>
      simp only [ht, Option.map_eq_some_iff] at h ⊢
      obtain ⟨result, hr, rfl⟩ := h
      exact ⟨result, replayAll_of_le hle hr, rfl⟩

end Shell

end ReplayShell
