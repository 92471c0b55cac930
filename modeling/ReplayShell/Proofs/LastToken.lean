import ReplayShell.Proofs.Progress
import ReplayShell.Proofs.Readiness

/-!
# The last token

The parser notes the last token that it has read or found missing, and a submission carries the one
of its last member. That is the token at the right end of the tree of the member, whatever the text.

* `Tree.rightmost?` is the token at the right end, and `rightmost?_child`: it is that of the last
  child.
* `State.At` says that the token noted last is the one at the right end of a tree. `Reads.at` is the
  induction over the parser, `parseMembers_last` the same for all members.
* `Skips` says that a token is skipped, and `Skips.not_mem_kept` that it is then not in the tree.
-/
namespace ReplayShell.Syntax

variable {endOfFile : Token} {goal : Goal} {tree child : Tree} {s s' : State} {token : Token}

/-! ## The right end of a tree -/

/-- The token at the right end of a tree. -/
def Tree.rightmost? (tree : Tree) : Option Token := tree.kept.getLast?

/-- A tree ends where its last child does. -/
theorem rightmost?_child (h : tree.children.getLast? = some child)
    (hc : child.rightmost? = some token) : tree.rightmost? = some token := by
  obtain ⟨front, hfront⟩ := List.getLast?_eq_some_iff.1 h
  have hne := List.ne_nil_of_mem (List.mem_of_getLast? h)
  rw [Tree.rightmost?] at hc
  rw [Tree.rightmost?, kept_children hne, hfront, List.flatMap_append, List.flatMap_singleton,
    List.getLast?_append, hc, Option.some_or]

/-! ## The parser -/

/-- The token noted last is the one at the right end of the tree. -/
def State.At (s : State) (tree : Tree) : Prop :=
  ∃ token, s.last = some token ∧ tree.rightmost? = some token

theorem State.At.of_child (hs : s.At child) (h : tree.children.getLast? = some child) :
    s.At tree := by
  obtain ⟨token, hlast, hright⟩ := hs
  exact ⟨token, hlast, rightmost?_child h hright⟩

theorem State.at_advance (h : s.kind ≠ .endOfFile) :
    s.advance.At (.token (s.current endOfFile)) := by
  obtain ⟨token, rest, hr⟩ := List.exists_cons_of_ne_nil (State.rest_ne_nil h)
  refine ⟨token, ?_, ?_⟩
  · simp [State.advance, hr]
  · simp [State.current, hr, Tree.rightmost?, Tree.kept, Tree.pieces]

/-- Where the parser stands once it has read a goal. Operators go on from where the left operand has
ended; a list may be empty, and is never the end of a tree. -/
def Goal.EndsAt : Goal → State → Tree → State → Prop
  | .operators _ _ left, s, tree, s' => s.At (.expression left) → s'.At tree
  | .arguments _, _, _, _ | .statements _, _, _, _ | .parameters, _, _, _ => True
  | _, _, tree, s' => s'.At tree

theorem State.at_tooDeep (s : State) :
    (tooDeep endOfFile s).state.At (.expression (tooDeep endOfFile s).value) :=
  ⟨_, rfl, rfl⟩

/-- Whatever the parser reads, the token noted last is the one at the right end. -/
theorem Reads.at (h : Reads endOfFile goal s tree s') : goal.EndsAt s tree s' := by
  induction h with
  | found hk h => exact State.at_advance (by rw [h]; exact hk)
  | absent _ => exact ⟨_, rfl, rfl⟩
  | tooDeep _ => exact State.at_tooDeep _
  | assignment _ _ _ ih => exact ih.of_child rfl
  | operation _ _ _ ih => exact ih
  | unary _ _ _ _ ihOperand ihRest => exact ihRest (ihOperand.of_child rfl)
  | unaryTooDeep _ _ _ ihRest => exact ihRest ((State.at_tooDeep _).of_child rfl)
  | operand _ _ _ ihLeft ihRest => exact ihRest ihLeft
  | enough _ => exact fun h => h
  | binary _ _ _ ihRight ihRest => exact fun _ => ihRest (ihRight.of_child rfl)
  | parenthesized _ _ _ _ ihClosing => exact ihClosing.of_child rfl
  | literal h => exact (State.at_advance (Kind.ne_end_of_literal h)).of_child rfl
  | call _ _ _ _ ihClosing => exact ihClosing.of_child (by simp [List.getLast?_cons])
  | name _ _ _ _ ih => exact ih.of_child rfl
  | noArguments | lastArgument | argument | noStatements | statements | noParameters
  | lastParameter | parameter => trivial
  | statementTooDeep _ => exact (State.at_tooDeep _).of_child rfl
  | block _ _ _ _ _ ihClosing => exact ihClosing.of_child (by simp [List.getLast?_cons])
  | «variable» _ _ _ _ _ _ _ ihValue => exact ihValue.of_child rfl
  | conditionalElse _ _ _ _ _ _ _ _ ihElse => exact ihElse.of_child rfl
  | conditional _ _ _ _ _ _ ihThen => exact ihThen.of_child rfl
  | loop _ _ _ _ _ ihBody => exact ihBody.of_child rfl
  | returnNothing _ h _ => exact (State.at_advance (by simp [h])).of_child rfl
  | «return» _ _ _ _ ih => exact ih.of_child rfl
  | expression _ _ _ _ _ _ _ ih => exact ih.of_child rfl
  | function _ _ _ _ _ _ _ _ _ _ _ _ _ _ _ ihClosing =>
    exact ihClosing.of_child (by simp [List.getLast?_cons])
  | functionMember _ _ ih => exact ih.of_child rfl
  | statementMember _ _ ih => exact ih.of_child rfl

/-- After all members the token noted is the one at the right end of the last of them. -/
theorem parseMembers_last (lastToken : Option Token) (s : State) :
    (parseMembers endOfFile lastToken s).1 = [] ∧
        (parseMembers endOfFile lastToken s).2.1 = lastToken ∨
      ∃ outer token, (parseMembers endOfFile lastToken s).1.getLast? = some outer ∧
        (Tree.member outer).rightmost? = some token ∧
        (parseMembers endOfFile lastToken s).2.1 = some token := by
  induction lastToken, s using parseMembers.induct endOfFile with
  | case1 lastToken s hr =>
    rw [parseMembers, dif_pos hr]
    exact .inl ⟨rfl, rfl⟩
  | case2 lastToken s hr member s₁ le hm _ _ _ _ _ ih =>
    obtain ⟨rfl, rfl⟩ := Parsed.parts hm
    rw [parseMembers, dif_neg hr]
    dsimp only
    obtain ⟨token, hlast, hright⟩ : (parseMember endOfFile s).state.At
      (.member (parseMember endOfFile s).value) := (reads_member endOfFile s).at
    right
    -- If this member is the last, its own token is noted; else the members after it decide.
    rcases ih with ⟨hmore, hsame⟩ | ⟨outer, other, hmore, hother, hfinal⟩
    · exact ⟨_, token, by rw [hmore]; rfl, hright, hsame.trans hlast⟩
    · exact ⟨outer, other, by rw [List.getLast?_cons, hmore]; rfl, hother, hfinal⟩

/-! ## Skipped tokens -/

/-- The parser skips the token on its way through the text; there is always one, by
`exists_runsMembers`. -/
def Skips (text : String) (token : Token) : Prop :=
  ∃ moves members r', Parses text moves members r' ∧
    token ∈ (Reader.start text).tokens (tokenize text).endOfFile (· = .skip) moves

theorem Laid.nodup {start stop : Nat} {ts : List Token} (h : Laid start ts stop) : ts.Nodup := by
  induction h with
  | nil => exact .nil
  | @cons start stop token rest _ hne hr ih =>
    refine List.nodup_cons.2 ⟨fun hm => ?_, ih⟩
    have hstart := hr.start_le token hm
    omega

/-- A token that is skipped is not in the tree. -/
theorem Skips.not_mem_kept {text : String} (h : Skips text token) :
    token ∉ (Tree.members (parse text).1.members).kept := by
  obtain ⟨moves, members, r', hparses, hskipped⟩ := h
  have progress := hparses.progress
  rw [progress.tree]
  intro hm
  have hsignificant : token ∈ (tokenize text).significant := by
    rw [← progress.tokens]
    exact (Reader.tokens_sublist (by simp [Move.takes]) _ _).subset hskipped
  rcases ((RunsMembers.carries hparses rfl).kept token hm).2 with hmissing | hread
  · rw [present_of_mem_significant hsignificant] at hmissing
    cases hmissing
  · have hnodup := (laid_significant text).nodup
    rw [← progress.tokens] at hnodup
    exact Reader.not_mem_skipped hnodup hread hskipped

/-- The tree of a text keeps no end-of-file token in its members. -/
theorem kind_ne_of_mem_kept {text : String}
    (h : token ∈ (Tree.members (parse text).1.members).kept) : token.kind ≠ .endOfFile := by
  obtain ⟨moves, members, r', hparses⟩ :=
    exists_runsMembers (tokenize text).endOfFile (.start text) rfl
  rw [(Parses.progress hparses).tree] at h
  exact ((hparses.carries rfl).kept token h).1

/-- **The last token is the end of the tree.** Whatever the text, its last token is absent just if
there are no members; else it is the token at the right end of the last member. It is never an
end-of-file token, nor one that was skipped; and if it is missing, then something is reported. -/
theorem lastToken_rightmost (text : String) :
    ((parse text).1.lastToken = none ↔ (parse text).1.members = []) ∧
      (parse text).1.lastToken =
        (parse text).1.members.getLast?.bind (fun outer => (Tree.member outer).rightmost?) ∧
      ∀ token ∈ (parse text).1.lastToken,
        token.kind ≠ .endOfFile ∧ token ≠ (parse text).1.endOfFile ∧ ¬Skips text token ∧
          (token.missing = true → (parse text).2 ≠ []) := by
  have hlast : (parse text).1.members = [] ∧ (parse text).1.lastToken = none ∨
      ∃ outer token, (parse text).1.members.getLast? = some outer ∧
        (Tree.member outer).rightmost? = some token ∧ (parse text).1.lastToken = some token :=
    parseMembers_last none _
  have hmissing : ∀ token ∈ (parse text).1.lastToken, token.missing = true →
      (parse text).2 ≠ [] := by
    intro token hm hmissing hnil
    rw [lastToken_of_parse hnil token hm] at hmissing
    cases hmissing
  rcases hlast with ⟨hmembers, hnone⟩ | ⟨outer, token, hmembers, hright, hsome⟩
  · rw [hnone, hmembers]
    exact ⟨by simp, rfl, fun _ hm => (Option.not_mem_none _ hm).elim⟩
  · have hkept : token ∈ (Tree.members (parse text).1.members).kept := by
      have hpart : Part (.member outer) (.members (parse text).1.members) :=
        part_child (List.mem_map_of_mem (List.mem_of_getLast? hmembers))
      exact hpart.kept_together.subset (List.mem_of_getLast? hright)
    have hkind := kind_ne_of_mem_kept hkept
    rw [hsome] at hmissing ⊢
    refine ⟨?_, ?_, fun other hm => ?_⟩
    · have hne : (parse text).1.members ≠ [] := by
        intro hnil
        rw [hnil] at hmembers
        cases hmembers
      simp [hne]
    · rw [hmembers]
      exact hright.symm
    · obtain rfl := Option.some.inj hm
      refine ⟨hkind, fun heq => hkind (by rw [heq]; rfl), fun h => h.not_mem_kept hkept,
        hmissing _ hm⟩

/-- The parenthesis is skipped, and what is noted stands in front of it. -/
example : (parse "1 + )").1.lastToken = some (.absent .identifier 4) := by decide +kernel

end ReplayShell.Syntax
