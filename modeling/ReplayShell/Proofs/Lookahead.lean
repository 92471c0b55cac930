import ReplayShell.Proofs.Completeness

/-!
# What comes after a tree

Behind what it reads, the parser looks at the kind of one token. So the same tokens are read as the
same tree elsewhere, if the token after them is of the same kind, or of one that does not matter.

* `Goal.Allows` says which kinds do not matter.
* `Portable` says that a tree is read wherever its tokens stand; there is a lemma for each rule that
  reads more than one part.
* `Reads.portable`: so is all that has been read without a report.
* `Reads.end_of_return`: what does matter to a `return` without a value.
-/
namespace ReplayShell.Syntax

/-- Whether a goal may be met without a token. -/
def Goal.mayBeEmpty : Goal → Bool
  | .operators _ _ _ | .arguments _ | .statements _ | .parameters => true
  | _ => false

/-- Whether a tree ends in front of a token of the kind, whatever it has ended in front of before. A
list depends on the mark that ends it. -/
def Goal.Allows : Goal → Tree → Kind → Prop
  | .token _, _, _ => True
  | .expression _, _, after | .binary _ _, _, after | .operators _ _ _, _, after =>
    after.EndsExpression
  | .primary _, .expression (.name _), after => after ≠ .openParen
  | .primary _, _, _ => True
  | .statement _, .statement outer, after => after.EndsExpression ∧ outer.Yields after
  | _, _, _ => False

theorem Goal.allows_primary {depth : Nat} {read : Expression} {after : Kind}
    (h : after.EndsExpression) : (Goal.primary depth).Allows (.expression read) after := by
  cases read with
  | name => exact h.2.1
  | _ => trivial

variable {endOfFile : Token} {goal : Goal} {tree : Tree} {s s₁ s₂ s' t : State} {ts us : List Token}

/-! ## The same tokens ahead -/

namespace State

/-- Where the same tokens lie ahead, so does the same kind; where none does, it is that behind. -/
theorem kind_of_starts {P : Kind → Prop} (hr : s.rest = ts ++ s'.rest) (ht : t.Starts ts)
    (h : (t.beyond ts).kind = s'.kind ∨ P (t.beyond ts).kind) : t.kind = s.kind ∨ P t.kind := by
  cases ts with
  | nil =>
    have hk : s.kind = s'.kind := by rw [kind, hr]; rfl
    rw [hk]
    exact h
  | cons token ts => exact .inl (by rw [ht.kind_eq, kind, hr]; rfl)

theorem head_of_starts (hr : s.rest = ts ++ s'.rest) (ht : t.Starts ts) (hne : ts ≠ [])
    (endOfFile : Token) : t.kind = s.kind ∧ t.current endOfFile = s.current endOfFile := by
  cases ts with
  | nil => exact absurd rfl hne
  | cons token ts =>
    constructor
    · rw [ht.kind_eq, kind, hr]; rfl
    · rw [ht.current_eq, current, hr]; rfl

theorem secondKind_of_starts {P : Kind → Prop} (hr : s.rest = ts ++ s'.rest) (ht : t.Starts ts)
    (hne : ts ≠ []) (h : (t.beyond ts).kind = s'.kind ∨ P (t.beyond ts).kind) :
    t.secondKind = s.secondKind ∨ P t.secondKind := by
  cases ts with
  | nil => exact absurd rfl hne
  | cons token ts =>
    have hr' : s.advance.rest = ts ++ s'.rest := by rw [advance, hr]; rfl
    rw [← t.kind_advance, ← s.kind_advance]
    exact kind_of_starts hr' ht.advance h

/-- What stands behind a part is the next part. -/
theorem kind_of_starts_append (hr : s₁.rest = us ++ s'.rest) (hne : us ≠ [])
    (ht : t.Starts (ts ++ us)) : (t.beyond ts).kind = s₁.kind :=
  (head_of_starts hr (starts_append.1 ht).2 hne (Token.absent .endOfFile 0)).1

/-- A round that has read something skips nothing. -/
theorem skipIfStuck_of_append (hr : s.rest = ts ++ s'.rest) (hne : ts ≠ []) :
    s.skipIfStuck s' = s' := by
  have hlen := congrArg List.length hr
  have hpos := List.length_pos_iff.2 hne
  rw [List.length_append] at hlen
  exact if_neg (by omega)

end State

/-! ## Parts and wholes -/

/-- The tree is read wherever its tokens stand, if what comes after them is of the same kind there
or of one that the tree ends in front of. -/
def Portable (endOfFile : Token) (goal : Goal) (s : State) (tree : Tree) (s' : State) : Prop :=
  ∃ ts, s.rest = ts ++ s'.rest ∧ (goal.mayBeEmpty = false → ts ≠ []) ∧
    ∀ t : State, t.Starts ts →
      ((t.beyond ts).kind = s'.kind ∨ goal.Allows tree (t.beyond ts).kind) →
        Reads endOfFile goal t tree (t.beyond ts)

namespace Portable

variable {depth parent : Nat} {left right whole inner value condition : Expression}
  {arguments : List Expression} {closing identifier equals : Token}
  {outer thenBranch elseBranch body : Statement} {more : List Statement}

theorem token {kind : Kind} (hk : kind ≠ .endOfFile) (h : s.kind = kind) :
    Portable endOfFile (.token kind) s (.token (s.current endOfFile)) s.advance := by
  obtain ⟨hr, hkind⟩ := State.next_token endOfFile hk h
  refine ⟨[s.current endOfFile], hr, fun _ => List.cons_ne_nil _ _, fun t ht _ => ?_⟩
  rw [← ht.current_eq endOfFile]
  exact .found hk (ht.kind_eq.trans hkind)

/-! ### Expressions -/

theorem assignment (hd : ¬maxNestingDepth ≤ depth)
    (h : s.kind = .identifier ∧ s.secondKind = .equals)
    (hv : Portable endOfFile (.expression (depth + 1)) s.advance.advance (.expression value) s') :
    Portable endOfFile (.expression depth) s
      (.expression (.assignment (s.current endOfFile) value)) s' := by
  obtain ⟨equals, hr, hi, he⟩ := State.next_tokens endOfFile (by decide) (by decide) h
  obtain ⟨ts, hr', -, hread⟩ := hv
  refine ⟨s.current endOfFile :: equals :: ts, by rw [hr, hr']; rfl,
    fun _ => List.cons_ne_nil _ _, fun t ht hafter => ?_⟩
  rw [← ht.current_eq endOfFile]
  refine .assignment hd ⟨ht.kind_eq.trans hi, ?_⟩ (hread _ ht.advance.advance hafter)
  rw [← t.kind_advance, ht.advance.kind_eq, he]

theorem operation (hd : ¬maxNestingDepth ≤ depth)
    (h : ¬(s.kind = .identifier ∧ s.secondKind = .equals))
    (hb : Portable endOfFile (.binary (depth + 1) 0) s (.expression whole) s') :
    Portable endOfFile (.expression depth) s (.expression whole) s' := by
  obtain ⟨ts, hr, hne, hread⟩ := hb
  refine ⟨ts, hr, hne, fun t ht hafter => .operation hd ?_ (hread t ht hafter)⟩
  rw [(State.head_of_starts hr ht (hne rfl) endOfFile).1]
  rintro ⟨hi, he⟩
  -- The token after a name is looked at, and it may be the one behind the expression.
  rcases State.secondKind_of_starts hr ht (hne rfl) hafter with hk | hk
  · exact h ⟨hi, hk ▸ he⟩
  · exact hk.2.2 he

theorem unary (h : s.kind.unaryPrecedence ≠ 0 ∧ parent ≤ s.kind.unaryPrecedence)
    (hd : ¬maxNestingDepth ≤ depth)
    (ho : Portable endOfFile (.binary (depth + 1) s.kind.unaryPrecedence) s.advance
      (.expression right) s₁)
    (hr : Portable endOfFile (.operators depth parent (.unary (s.current endOfFile) right)) s₁
      (.expression whole) s') :
    Portable endOfFile (.binary depth parent) s (.expression whole) s' := by
  have hk : s.kind ≠ .endOfFile := fun hk => h.1 (by rw [hk]; rfl)
  obtain ⟨ts, hts, -, hoperand⟩ := ho
  obtain ⟨us, hus, -, hrest⟩ := hr
  have hr : s.rest = (s.current endOfFile :: (ts ++ us)) ++ s'.rest := by
    rw [s.rest_eq_cons endOfFile hk, hts, hus]
    simp
  refine ⟨_, hr, fun _ => List.cons_ne_nil _ _, fun t ht hafter => ?_⟩
  obtain ⟨hkind, hcurrent⟩ := State.head_of_starts hr ht (List.cons_ne_nil _ _) endOfFile
  obtain ⟨ht₁, ht₂⟩ := State.starts_append.1 ht.advance
  rw [State.beyond, State.beyond_append] at hafter ⊢
  rw [← hcurrent] at hrest
  rw [← hkind] at h hoperand
  exact .unary h hd (hoperand _ ht₁ (State.kind_of_starts hus ht₂ hafter)) (hrest _ ht₂ hafter)

theorem operand (h : ¬(s.kind.unaryPrecedence ≠ 0 ∧ parent ≤ s.kind.unaryPrecedence))
    (hl : Portable endOfFile (.primary depth) s (.expression left) s₁)
    (hr : Portable endOfFile (.operators depth parent left) s₁ (.expression whole) s') :
    Portable endOfFile (.binary depth parent) s (.expression whole) s' := by
  obtain ⟨ts, hts, hne, hleft⟩ := hl
  obtain ⟨us, hus, -, hrest⟩ := hr
  refine ⟨ts ++ us, by rw [hts, hus, List.append_assoc],
    fun _ => List.append_ne_nil_of_left_ne_nil (hne rfl) us, fun t ht hafter => ?_⟩
  obtain ⟨ht₁, ht₂⟩ := State.starts_append.1 ht
  rw [State.beyond_append] at hafter ⊢
  rw [← (State.head_of_starts hts ht₁ (hne rfl) endOfFile).1] at h
  have hnext := State.kind_of_starts hus ht₂ hafter
  exact .operand h (hleft _ ht₁ (hnext.imp_right Goal.allows_primary)) (hrest _ ht₂ hafter)

theorem enough (h : s.kind.binaryPrecedence = 0 ∨ s.kind.binaryPrecedence ≤ parent) :
    Portable endOfFile (.operators depth parent left) s (.expression left) s := by
  refine ⟨[], rfl, Bool.noConfusion, fun t _ hafter => .enough ?_⟩
  rcases hafter with hk | hk
  · have hk : t.kind = s.kind := hk
    rwa [hk]
  · exact .inl hk.1

theorem binary (h : ¬(s.kind.binaryPrecedence = 0 ∨ s.kind.binaryPrecedence ≤ parent))
    (ho : Portable endOfFile (.binary depth s.kind.binaryPrecedence) s.advance
      (.expression right) s₁)
    (hr : Portable endOfFile (.operators depth parent (.binary left (s.current endOfFile) right)) s₁
      (.expression whole) s') :
    Portable endOfFile (.operators depth parent left) s (.expression whole) s' := by
  have hk : s.kind ≠ .endOfFile := fun hk => h (.inl (by rw [hk]; rfl))
  obtain ⟨ts, hts, -, hright⟩ := ho
  obtain ⟨us, hus, -, hrest⟩ := hr
  have hr : s.rest = (s.current endOfFile :: (ts ++ us)) ++ s'.rest := by
    rw [s.rest_eq_cons endOfFile hk, hts, hus]
    simp
  refine ⟨_, hr, Bool.noConfusion, fun t ht hafter => ?_⟩
  obtain ⟨hkind, hcurrent⟩ := State.head_of_starts hr ht (List.cons_ne_nil _ _) endOfFile
  obtain ⟨ht₁, ht₂⟩ := State.starts_append.1 ht.advance
  rw [State.beyond, State.beyond_append] at hafter ⊢
  rw [← hcurrent] at hrest
  rw [← hkind] at h hright
  exact .binary h (hright _ ht₁ (State.kind_of_starts hus ht₂ hafter)) (hrest _ ht₂ hafter)

theorem parenthesized (h : s.kind = .openParen)
    (hi : Portable endOfFile (.expression depth) s.advance (.expression inner) s₁)
    (hc : Portable endOfFile (.token .closeParen) s₁ (.token closing) s') :
    Portable endOfFile (.primary depth) s
      (.expression (.parenthesized (s.current endOfFile) inner closing)) s' := by
  obtain ⟨hr, ho⟩ := State.next_token endOfFile (by decide) h
  obtain ⟨ts, hts, -, hinner⟩ := hi
  obtain ⟨us, hus, hne, hclosing⟩ := hc
  refine ⟨s.current endOfFile :: (ts ++ us), by rw [hr, hts, hus]; simp,
    fun _ => List.cons_ne_nil _ _, fun t ht _ => ?_⟩
  obtain ⟨ht₁, ht₂⟩ := State.starts_append.1 ht.advance
  rw [State.beyond, State.beyond_append, ← ht.current_eq endOfFile]
  exact .parenthesized (ht.kind_eq.trans ho)
    (hinner _ ht₁ (.inl (State.kind_of_starts_append hus (hne rfl) ht.advance)))
    (hclosing _ ht₂ (.inr trivial))

theorem literal
    (h : s.kind = .trueKeyword ∨ s.kind = .falseKeyword ∨ s.kind = .number ∨ s.kind = .string) :
    Portable endOfFile (.primary depth) s
      (.expression (.literal (s.current endOfFile) (literalValue (s.current endOfFile))))
      s.advance := by
  have hk : s.kind ≠ .endOfFile := by rcases h with h | h | h | h <;> simp [h]
  have hr : s.rest = [s.current endOfFile] ++ s.advance.rest := s.rest_eq_cons endOfFile hk
  refine ⟨_, hr, fun _ => List.cons_ne_nil _ _, fun t ht _ => ?_⟩
  obtain ⟨hkind, hcurrent⟩ := State.head_of_starts hr ht (List.cons_ne_nil _ _) endOfFile
  rw [← hkind] at h
  rw [← hcurrent]
  exact .literal h

theorem call (h : s.kind = .identifier ∧ s.secondKind = .openParen)
    (ha : Portable endOfFile (.arguments depth) s.advance.advance (.expressions arguments) s₁)
    (hc : Portable endOfFile (.token .closeParen) s₁ (.token closing) s') :
    Portable endOfFile (.primary depth) s
      (.expression (.call (s.current endOfFile) arguments closing)) s' := by
  obtain ⟨opening, hr, hi, ho⟩ := State.next_tokens endOfFile (by decide) (by decide) h
  obtain ⟨ts, hts, -, harguments⟩ := ha
  obtain ⟨us, hus, hne, hclosing⟩ := hc
  refine ⟨s.current endOfFile :: opening :: (ts ++ us), by rw [hr, hts, hus]; simp,
    fun _ => List.cons_ne_nil _ _, fun t ht _ => ?_⟩
  have ht' := ht.advance.advance
  obtain ⟨ht₁, ht₂⟩ := State.starts_append.1 ht'
  rw [State.beyond, State.beyond, State.beyond_append, ← ht.current_eq endOfFile]
  refine .call ⟨ht.kind_eq.trans hi, ?_⟩
    (harguments _ ht₁ (.inl (State.kind_of_starts_append hus (hne rfl) ht')))
    (hclosing _ ht₂ (.inr trivial))
  rw [← t.kind_advance, ht.advance.kind_eq, ho]

theorem name (hp : s.kind ≠ .openParen)
    (hl : ¬(s.kind = .trueKeyword ∨ s.kind = .falseKeyword ∨ s.kind = .number ∨ s.kind = .string))
    (hc : ¬(s.kind = .identifier ∧ s.secondKind = .openParen))
    (hi : Portable endOfFile (.token .identifier) s (.token identifier) s') :
    Portable endOfFile (.primary depth) s (.expression (.name identifier)) s' := by
  obtain ⟨ts, hr, hne, hread⟩ := hi
  refine ⟨ts, hr, hne, fun t ht hafter => ?_⟩
  have hkind := (State.head_of_starts hr ht (hne rfl) endOfFile).1
  rw [← hkind] at hp hl
  refine .name hp hl ?_ (hread t ht (.inr trivial))
  rintro ⟨hi, ho⟩
  rcases State.secondKind_of_starts hr ht (hne rfl) hafter with hk | hk
  · exact hc ⟨hkind ▸ hi, hk ▸ ho⟩
  · exact hk ho

theorem noArguments (h : s.kind = .closeParen ∨ s.kind = .endOfFile) :
    Portable endOfFile (.arguments depth) s (.expressions []) s := by
  refine ⟨[], rfl, Bool.noConfusion, fun t _ hafter => .noArguments ?_⟩
  have hk : t.kind = s.kind := hafter.resolve_right id
  rwa [hk]

theorem lastArgument (h : ¬(s.kind = .closeParen ∨ s.kind = .endOfFile))
    (he : Portable endOfFile (.expression depth) s (.expression value) s')
    (hk : s'.kind ≠ .comma) :
    Portable endOfFile (.arguments depth) s (.expressions [value]) s' := by
  obtain ⟨ts, hr, hne, hread⟩ := he
  refine ⟨ts, hr, Bool.noConfusion, fun t ht hafter => ?_⟩
  have hafter := hafter.resolve_right id
  rw [← (State.head_of_starts hr ht (hne rfl) endOfFile).1] at h
  rw [← hafter] at hk
  exact .lastArgument h (hread t ht (.inl hafter)) hk

theorem argument (h : ¬(s.kind = .closeParen ∨ s.kind = .endOfFile))
    (he : Portable endOfFile (.expression depth) s (.expression value) s₁) (hk : s₁.kind = .comma)
    (hm : Portable endOfFile (.arguments depth) s₁.advance (.expressions arguments) s') :
    Portable endOfFile (.arguments depth) s (.expressions (value :: arguments)) s' := by
  obtain ⟨hr, hc⟩ := State.next_token endOfFile (by decide) hk
  obtain ⟨ts, hts, hne, hfirst⟩ := he
  obtain ⟨us, hus, -, hmore⟩ := hm
  refine ⟨ts ++ s₁.current endOfFile :: us, by rw [hts, hr, hus]; simp, Bool.noConfusion,
    fun t ht hafter => ?_⟩
  obtain ⟨ht₁, ht₂⟩ := State.starts_append.1 ht
  rw [State.beyond_append, State.beyond] at hafter ⊢
  rw [← (State.head_of_starts hts ht₁ (hne rfl) endOfFile).1] at h
  have hcomma := ht₂.kind_eq.trans hc
  exact .argument h (hfirst _ ht₁ (.inl (hcomma.trans hk.symm))) hcomma
    (hmore _ ht₂.advance hafter)

/-! ### Statements -/

theorem block (hd : ¬maxNestingDepth ≤ depth) (h : s.kind = .openBrace)
    (hs : Portable endOfFile (.statements (depth + 1)) s.advance (.statements more) s₁)
    (hc : Portable endOfFile (.token .closeBrace) s₁ (.token closing) s') :
    Portable endOfFile (.statement depth) s
      (.statement (.block (s.current endOfFile) more closing)) s' := by
  obtain ⟨hr, ho⟩ := State.next_token endOfFile (by decide) h
  obtain ⟨ts, hts, -, hstatements⟩ := hs
  obtain ⟨us, hus, hne, hclosing⟩ := hc
  refine ⟨s.current endOfFile :: (ts ++ us), by rw [hr, hts, hus]; simp,
    fun _ => List.cons_ne_nil _ _, fun t ht _ => ?_⟩
  obtain ⟨ht₁, ht₂⟩ := State.starts_append.1 ht.advance
  rw [State.beyond, State.beyond_append, ← ht.current_eq endOfFile]
  exact .block hd (ht.kind_eq.trans ho)
    (hstatements _ ht₁ (.inl (State.kind_of_starts_append hus (hne rfl) ht.advance)))
    (hclosing _ ht₂ (.inr trivial))

theorem «variable» (hd : ¬maxNestingDepth ≤ depth)
    (h : s.kind = .varKeyword ∨ s.kind = .letKeyword)
    (hi : Portable endOfFile (.token .identifier) s.advance (.token identifier) s₁)
    (he : Portable endOfFile (.token .equals) s₁ (.token equals) s₂)
    (hv : Portable endOfFile (.expression (depth + 1)) s₂ (.expression value) s') :
    Portable endOfFile (.statement depth) s
      (.statement (.variable (s.current endOfFile) identifier value)) s' := by
  have hk : s.kind ≠ .endOfFile := by rcases h with h | h <;> simp [h]
  obtain ⟨ts, hts, -, hname⟩ := hi
  obtain ⟨us, hus, -, hequals⟩ := he
  obtain ⟨vs, hvs, -, hvalue⟩ := hv
  have hr : s.rest = (s.current endOfFile :: (ts ++ (us ++ vs))) ++ s'.rest := by
    rw [s.rest_eq_cons endOfFile hk, hts, hus, hvs]
    simp
  refine ⟨_, hr, fun _ => List.cons_ne_nil _ _, fun t ht hafter => ?_⟩
  obtain ⟨hkind, hcurrent⟩ := State.head_of_starts hr ht (List.cons_ne_nil _ _) endOfFile
  obtain ⟨ht₁, ht₂⟩ := State.starts_append.1 ht.advance
  obtain ⟨ht₂, ht₃⟩ := State.starts_append.1 ht₂
  rw [State.beyond, State.beyond_append, State.beyond_append] at hafter ⊢
  rw [← hkind] at h
  rw [← hcurrent]
  exact .variable hd h (hname _ ht₁ (.inr trivial)) (hequals _ ht₂ (.inr trivial))
    (hvalue _ ht₃ (hafter.imp_right And.left))

theorem conditionalElse (hd : ¬maxNestingDepth ≤ depth) (h : s.kind = .ifKeyword)
    (hc : Portable endOfFile (.expression (depth + 1)) s.advance (.expression condition) s₁)
    (ht : Portable endOfFile (.statement (depth + 1)) s₁ (.statement thenBranch) s₂)
    (hk : s₂.kind = .elseKeyword)
    (he : Portable endOfFile (.statement (depth + 1)) s₂.advance (.statement elseBranch) s') :
    Portable endOfFile (.statement depth) s
      (.statement (.conditional (s.current endOfFile) condition thenBranch (some elseBranch)))
      s' := by
  obtain ⟨hr, hi⟩ := State.next_token endOfFile (by decide) h
  obtain ⟨hr', ho⟩ := State.next_token endOfFile (by decide) hk
  obtain ⟨ts, hts, -, hcondition⟩ := hc
  obtain ⟨us, hus, hne, hthen⟩ := ht
  obtain ⟨vs, hvs, -, helse⟩ := he
  refine ⟨s.current endOfFile :: (ts ++ (us ++ s₂.current endOfFile :: vs)),
    by rw [hr, hts, hus, hr', hvs]; simp, fun _ => List.cons_ne_nil _ _, fun t ht hafter => ?_⟩
  obtain ⟨ht₁, ht₂⟩ := State.starts_append.1 ht.advance
  obtain ⟨ht₂, ht₃⟩ := State.starts_append.1 ht₂
  have hbody := (State.head_of_starts hus ht₂ (hne rfl) endOfFile).1
  have helseKind := ht₃.kind_eq.trans ho
  rw [State.beyond, State.beyond_append, State.beyond_append, State.beyond] at hafter ⊢
  rw [← ht.current_eq endOfFile]
  exact .conditionalElse hd (ht.kind_eq.trans hi) (hcondition _ ht₁ (.inl hbody))
    (hthen _ ht₂ (.inl (helseKind.trans hk.symm))) helseKind
    (helse _ ht₃.advance (hafter.imp_right fun hy =>
      ⟨hy.1, fun inner hinner => hy.2 inner (.elseBranch hinner)⟩))

theorem conditional (hd : ¬maxNestingDepth ≤ depth) (h : s.kind = .ifKeyword)
    (hc : Portable endOfFile (.expression (depth + 1)) s.advance (.expression condition) s₁)
    (ht : Portable endOfFile (.statement (depth + 1)) s₁ (.statement thenBranch) s')
    (hk : s'.kind ≠ .elseKeyword) :
    Portable endOfFile (.statement depth) s
      (.statement (.conditional (s.current endOfFile) condition thenBranch none)) s' := by
  obtain ⟨hr, hi⟩ := State.next_token endOfFile (by decide) h
  obtain ⟨ts, hts, -, hcondition⟩ := hc
  obtain ⟨us, hus, hne, hthen⟩ := ht
  refine ⟨s.current endOfFile :: (ts ++ us), by rw [hr, hts, hus]; simp,
    fun _ => List.cons_ne_nil _ _, fun t ht hafter => ?_⟩
  obtain ⟨ht₁, ht₂⟩ := State.starts_append.1 ht.advance
  rw [State.beyond, State.beyond_append] at hafter ⊢
  rw [← ht.current_eq endOfFile]
  refine .conditional hd (ht.kind_eq.trans hi)
    (hcondition _ ht₁ (.inl (State.kind_of_starts_append hus (hne rfl) ht.advance)))
    (hthen _ ht₂ (hafter.imp_right fun hy =>
      ⟨hy.1, fun inner hinner => hy.2 inner (.thenBranch hinner)⟩)) ?_
  rcases hafter with hafter | hy
  · rwa [hafter]
  · exact hy.2 _ .self

theorem loop (hd : ¬maxNestingDepth ≤ depth) (h : s.kind = .whileKeyword)
    (hc : Portable endOfFile (.expression (depth + 1)) s.advance (.expression condition) s₁)
    (hb : Portable endOfFile (.statement (depth + 1)) s₁ (.statement body) s') :
    Portable endOfFile (.statement depth) s
      (.statement (.loop (s.current endOfFile) condition body)) s' := by
  obtain ⟨hr, hw⟩ := State.next_token endOfFile (by decide) h
  obtain ⟨ts, hts, -, hcondition⟩ := hc
  obtain ⟨us, hus, hne, hbody⟩ := hb
  refine ⟨s.current endOfFile :: (ts ++ us), by rw [hr, hts, hus]; simp,
    fun _ => List.cons_ne_nil _ _, fun t ht hafter => ?_⟩
  obtain ⟨ht₁, ht₂⟩ := State.starts_append.1 ht.advance
  rw [State.beyond, State.beyond_append] at hafter ⊢
  rw [← ht.current_eq endOfFile]
  exact .loop hd (ht.kind_eq.trans hw)
    (hcondition _ ht₁ (.inl (State.kind_of_starts_append hus (hne rfl) ht.advance)))
    (hbody _ ht₂ (hafter.imp_right fun hy =>
      ⟨hy.1, fun inner hinner => hy.2 inner (.body hinner)⟩))

theorem returnNothing (hd : ¬maxNestingDepth ≤ depth) (h : s.kind = .returnKeyword)
    (hk : s.secondKind = .closeBrace ∨ s.secondKind = .endOfFile) :
    Portable endOfFile (.statement depth) s (.statement (.return (s.current endOfFile) none))
      s.advance := by
  obtain ⟨hr, hreturn⟩ := State.next_token endOfFile (by decide) h
  refine ⟨[s.current endOfFile], hr, fun _ => List.cons_ne_nil _ _, fun t ht hafter => ?_⟩
  rw [← ht.current_eq endOfFile]
  refine .returnNothing hd (ht.kind_eq.trans hreturn) ?_
  rcases State.secondKind_of_starts hr ht (List.cons_ne_nil _ _) hafter with hk' | hy
  · rwa [hk']
  · exact hy.2 _ .self

theorem «return» (hd : ¬maxNestingDepth ≤ depth) (h : s.kind = .returnKeyword)
    (hk : ¬(s.secondKind = .closeBrace ∨ s.secondKind = .endOfFile))
    (hv : Portable endOfFile (.expression (depth + 1)) s.advance (.expression value) s') :
    Portable endOfFile (.statement depth) s
      (.statement (.return (s.current endOfFile) (some value))) s' := by
  obtain ⟨hr, hreturn⟩ := State.next_token endOfFile (by decide) h
  obtain ⟨ts, hts, hne, hvalue⟩ := hv
  refine ⟨s.current endOfFile :: ts, by rw [hr, hts]; rfl, fun _ => List.cons_ne_nil _ _,
    fun t ht hafter => ?_⟩
  rw [← s.kind_advance, ← (State.head_of_starts hts ht.advance (hne rfl) endOfFile).1,
    t.kind_advance] at hk
  rw [← ht.current_eq endOfFile]
  exact .return hd (ht.kind_eq.trans hreturn) hk (hvalue _ ht.advance (hafter.imp_right And.left))

theorem evaluation (hd : ¬maxNestingDepth ≤ depth) (hb : s.kind ≠ .openBrace)
    (hv : ¬(s.kind = .varKeyword ∨ s.kind = .letKeyword)) (hi : s.kind ≠ .ifKeyword)
    (hw : s.kind ≠ .whileKeyword) (hr : s.kind ≠ .returnKeyword)
    (he : Portable endOfFile (.expression (depth + 1)) s (.expression whole) s') :
    Portable endOfFile (.statement depth) s (.statement (.expression whole)) s' := by
  obtain ⟨ts, hts, hne, hread⟩ := he
  refine ⟨ts, hts, hne, fun t ht hafter => ?_⟩
  rw [← (State.head_of_starts hts ht (hne rfl) endOfFile).1] at hb hv hi hw hr
  exact .expression hd hb hv hi hw hr (hread t ht (hafter.imp_right And.left))

theorem noStatements (h : s.kind = .closeBrace ∨ s.kind = .endOfFile) :
    Portable endOfFile (.statements depth) s (.statements []) s := by
  refine ⟨[], rfl, Bool.noConfusion, fun t _ hafter => .noStatements ?_⟩
  have hk : t.kind = s.kind := hafter.resolve_right id
  rwa [hk]

theorem statements (h : ¬(s.kind = .closeBrace ∨ s.kind = .endOfFile))
    (hf : Portable endOfFile (.statement depth) s (.statement outer) s₁)
    (hm : Portable endOfFile (.statements depth) (s.skipIfStuck s₁) (.statements more) s') :
    Portable endOfFile (.statements depth) s (.statements (outer :: more)) s' := by
  obtain ⟨ts, hts, hne, hfirst⟩ := hf
  obtain ⟨us, hus, -, hmore⟩ := hm
  rw [State.skipIfStuck_of_append hts (hne rfl)] at hus
  refine ⟨ts ++ us, by rw [hts, hus, List.append_assoc], Bool.noConfusion, fun t ht hafter => ?_⟩
  obtain ⟨ht₁, ht₂⟩ := State.starts_append.1 ht
  rw [State.beyond_append] at hafter ⊢
  rw [← (State.head_of_starts hts ht₁ (hne rfl) endOfFile).1] at h
  refine .statements h (hfirst _ ht₁ ?_) ?_
  · exact .inl ((State.kind_of_starts hus ht₂ hafter).resolve_right id)
  · rw [ht₁.skipIfStuck_beyond (hne rfl)]
    exact hmore _ ht₂ hafter

/-! ### Functions -/

theorem noParameters (h : s.kind = .closeParen ∨ s.kind = .endOfFile) :
    Portable endOfFile .parameters s (.tokens []) s := by
  refine ⟨[], rfl, Bool.noConfusion, fun t _ hafter => .noParameters ?_⟩
  have hk : t.kind = s.kind := hafter.resolve_right id
  rwa [hk]

theorem lastParameter (h : ¬(s.kind = .closeParen ∨ s.kind = .endOfFile))
    (hi : Portable endOfFile (.token .identifier) s (.token identifier) s')
    (hk : s'.kind ≠ .comma) : Portable endOfFile .parameters s (.tokens [identifier]) s' := by
  obtain ⟨ts, hr, hne, hread⟩ := hi
  refine ⟨ts, hr, Bool.noConfusion, fun t ht hafter => ?_⟩
  have hafter := hafter.resolve_right id
  rw [← (State.head_of_starts hr ht (hne rfl) endOfFile).1] at h
  rw [← hafter] at hk
  exact .lastParameter h (hread t ht (.inl hafter)) hk

theorem parameter {more : List Token} (h : ¬(s.kind = .closeParen ∨ s.kind = .endOfFile))
    (hi : Portable endOfFile (.token .identifier) s (.token identifier) s₁)
    (hk : s₁.kind = .comma) (hm : Portable endOfFile .parameters s₁.advance (.tokens more) s') :
    Portable endOfFile .parameters s (.tokens (identifier :: more)) s' := by
  obtain ⟨hr, hc⟩ := State.next_token endOfFile (by decide) hk
  obtain ⟨ts, hts, hne, hfirst⟩ := hi
  obtain ⟨us, hus, -, hmore⟩ := hm
  refine ⟨ts ++ s₁.current endOfFile :: us, by rw [hts, hr, hus]; simp, Bool.noConfusion,
    fun t ht hafter => ?_⟩
  obtain ⟨ht₁, ht₂⟩ := State.starts_append.1 ht
  rw [State.beyond_append, State.beyond] at hafter ⊢
  rw [← (State.head_of_starts hts ht₁ (hne rfl) endOfFile).1] at h
  have hcomma := ht₂.kind_eq.trans hc
  exact .parameter h (hfirst _ ht₁ (.inl (hcomma.trans hk.symm))) hcomma
    (hmore _ ht₂.advance hafter)

theorem function {s₃ s₄ s₅ s₆ s₇ : State}
    {keyword openParen closeParen opening : Token} {parameters : List Token}
    (h₁ : Portable endOfFile (.token .functionKeyword) s (.token keyword) s₁)
    (h₂ : Portable endOfFile (.token .identifier) s₁ (.token identifier) s₂)
    (h₃ : Portable endOfFile (.token .openParen) s₂ (.token openParen) s₃)
    (h₄ : Portable endOfFile .parameters s₃ (.tokens parameters) s₄)
    (h₅ : Portable endOfFile (.token .closeParen) s₄ (.token closeParen) s₅)
    (h₆ : Portable endOfFile (.token .openBrace) s₅ (.token opening) s₆)
    (h₇ : Portable endOfFile (.statements 0) s₆ (.statements more) s₇)
    (h₈ : Portable endOfFile (.token .closeBrace) s₇ (.token closing) s') :
    Portable endOfFile .function s
      (.function ⟨keyword, identifier, parameters, opening, more, closing⟩) s' := by
  obtain ⟨ts₁, hr₁, hne, read₁⟩ := h₁
  obtain ⟨ts₂, hr₂, -, read₂⟩ := h₂
  obtain ⟨ts₃, hr₃, -, read₃⟩ := h₃
  obtain ⟨ts₄, hr₄, -, read₄⟩ := h₄
  obtain ⟨ts₅, hr₅, hne₅, read₅⟩ := h₅
  obtain ⟨ts₆, hr₆, -, read₆⟩ := h₆
  obtain ⟨ts₇, hr₇, -, read₇⟩ := h₇
  obtain ⟨ts₈, hr₈, hne₈, read₈⟩ := h₈
  refine ⟨ts₁ ++ (ts₂ ++ (ts₃ ++ (ts₄ ++ (ts₅ ++ (ts₆ ++ (ts₇ ++ ts₈)))))),
    by rw [hr₁, hr₂, hr₃, hr₄, hr₅, hr₆, hr₇, hr₈]; simp,
    fun _ => List.append_ne_nil_of_left_ne_nil (hne rfl) _, fun t ht _ => ?_⟩
  simp only [State.starts_append, State.beyond_append] at ht ⊢
  obtain ⟨t₁, t₂, t₃, t₄, t₅, t₆, t₇, t₈⟩ := ht
  exact .function (read₁ _ t₁ (.inr trivial)) (read₂ _ t₂ (.inr trivial))
    (read₃ _ t₃ (.inr trivial))
    (read₄ _ t₄ (.inl (State.head_of_starts hr₅ t₅ (hne₅ rfl) endOfFile).1))
    (read₅ _ t₅ (.inr trivial)) (read₆ _ t₆ (.inr trivial))
    (read₇ _ t₇ (.inl (State.head_of_starts hr₈ t₈ (hne₈ rfl) endOfFile).1))
    (read₈ _ t₈ (.inr trivial))

theorem functionMember {declaration : FunctionDeclaration} (h : s.kind = .functionKeyword)
    (hf : Portable endOfFile .function s (.function declaration) s') :
    Portable endOfFile .member s (.member (.function declaration)) s' := by
  obtain ⟨ts, hr, hne, hread⟩ := hf
  refine ⟨ts, hr, hne, fun t ht hafter => .functionMember ?_ (hread t ht hafter)⟩
  rw [(State.head_of_starts hr ht (hne rfl) endOfFile).1, h]

theorem statementMember (h : s.kind ≠ .functionKeyword)
    (hs : Portable endOfFile (.statement 0) s (.statement outer) s') :
    Portable endOfFile .member s (.member (.statement outer)) s' := by
  obtain ⟨ts, hr, hne, hread⟩ := hs
  refine ⟨ts, hr, hne, fun t ht hafter => .statementMember ?_ (hread t ht ?_)⟩
  · rwa [(State.head_of_starts hr ht (hne rfl) endOfFile).1]
  · exact hafter.imp_right False.elim

end Portable

/-- What has been read without a report is read wherever its tokens stand. -/
theorem Reads.portable (h : Reads endOfFile goal s tree s') (hs : s'.reported = []) :
    Portable endOfFile goal s tree s' := by
  induction h with
  | absent | tooDeep | statementTooDeep => exact absurd hs (List.cons_ne_nil _ _)
  | unaryTooDeep _ _ hr => exact absurd (hr.reported_eq_nil hs) (List.cons_ne_nil _ _)
  | found hk h => exact .token hk h
  | assignment hd h _ ih => exact .assignment hd h (ih hs)
  | operation hd h _ ih => exact .operation hd h (ih hs)
  | unary h hd _ hr ihOperand ihRest =>
    exact .unary h hd (ihOperand (hr.reported_eq_nil hs)) (ihRest hs)
  | operand h _ hr ihLeft ihRest => exact .operand h (ihLeft (hr.reported_eq_nil hs)) (ihRest hs)
  | enough h => exact .enough h
  | binary h _ hr ihRight ihRest => exact .binary h (ihRight (hr.reported_eq_nil hs)) (ihRest hs)
  | parenthesized h _ hc ihInner ihClosing =>
    exact .parenthesized h (ihInner (hc.reported_eq_nil hs)) (ihClosing hs)
  | literal h => exact .literal h
  | call h _ hc ihArguments ihClosing =>
    exact .call h (ihArguments (hc.reported_eq_nil hs)) (ihClosing hs)
  | name hp hl hc _ ih => exact .name hp hl hc (ih hs)
  | noArguments h => exact .noArguments h
  | lastArgument h _ hk ih => exact .lastArgument h (ih hs) hk
  | argument h _ hk hm ihFirst ihMore =>
    exact .argument h (ihFirst (by simpa using hm.reported_eq_nil hs)) hk (ihMore hs)
  | block hd h _ hc ihStatements ihClosing =>
    exact .block hd h (ihStatements (hc.reported_eq_nil hs)) (ihClosing hs)
  | «variable» hd h _ he hv ihName ihEquals ihValue =>
    have hs₂ := hv.reported_eq_nil hs
    exact .variable hd h (ihName (he.reported_eq_nil hs₂)) (ihEquals hs₂) (ihValue hs)
  | conditionalElse hd h _ ht hk he ihCondition ihThen ihElse =>
    have hs₂ := (State.advance_reported _).symm.trans (he.reported_eq_nil hs)
    exact .conditionalElse hd h (ihCondition (ht.reported_eq_nil hs₂)) (ihThen hs₂) hk (ihElse hs)
  | conditional hd h _ ht hk ihCondition ihThen =>
    exact .conditional hd h (ihCondition (ht.reported_eq_nil hs)) (ihThen hs) hk
  | loop hd h _ hb ihCondition ihBody =>
    exact .loop hd h (ihCondition (hb.reported_eq_nil hs)) (ihBody hs)
  | returnNothing hd h hk => exact .returnNothing hd h hk
  | «return» hd h hk _ ih => exact .return hd h hk (ih hs)
  | expression hd hb hv hi hw hr _ ih => exact .evaluation hd hb hv hi hw hr (ih hs)
  | noStatements h => exact .noStatements h
  | statements h _ hm ihFirst ihMore =>
    exact .statements h (ihFirst (by simpa using hm.reported_eq_nil hs)) (ihMore hs)
  | noParameters h => exact .noParameters h
  | lastParameter h _ hk ih => exact .lastParameter h (ih hs) hk
  | parameter h _ hk hm ihFirst ihMore =>
    exact .parameter h (ihFirst (by simpa using hm.reported_eq_nil hs)) hk (ihMore hs)
  | function _ h₂ h₃ h₄ h₅ h₆ h₇ h₈ ih₁ ih₂ ih₃ ih₄ ih₅ ih₆ ih₇ ih₈ =>
    have hs₇ := h₈.reported_eq_nil hs
    have hs₆ := h₇.reported_eq_nil hs₇
    have hs₅ := h₆.reported_eq_nil hs₆
    have hs₄ := h₅.reported_eq_nil hs₅
    have hs₃ := h₄.reported_eq_nil hs₄
    have hs₂ := h₃.reported_eq_nil hs₃
    exact .function (ih₁ (h₂.reported_eq_nil hs₂)) (ih₂ hs₂) (ih₃ hs₃) (ih₄ hs₄) (ih₅ hs₅)
      (ih₆ hs₆) (ih₇ hs₇) (ih₈ hs)
  | functionMember h _ ih => exact .functionMember h (ih hs)
  | statementMember h _ ih => exact .statementMember h (ih hs)

/-! ## What does matter -/

/-- In front of anything but an end, a `return` is read with a value. -/
theorem Reads.end_of_return {depth : Nat} {outer : Statement} {keyword : Token}
    (h : Reads endOfFile (.statement depth) s (.statement outer) s')
    (he : Ends (.return keyword none) outer) :
    s'.kind = .closeBrace ∨ s'.kind = .endOfFile := by
  induction he generalizing depth s with
  | self =>
    cases h with
    | returnNothing _ _ hk => rwa [s.kind_advance]
  | thenBranch _ ih =>
    cases h with
    | conditional _ _ _ ht => exact ih ht
  | elseBranch _ ih =>
    cases h with
    | conditionalElse _ _ _ _ _ he => exact ih he
  | body _ ih =>
    cases h with
    | loop _ _ _ hb => exact ih hb

end ReplayShell.Syntax
