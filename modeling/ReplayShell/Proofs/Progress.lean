import ReplayShell.Proofs.Moves
import ReplayShell.Proofs.Partition
import ReplayShell.Proofs.TreeParts

/-!
# The parser makes progress

Whatever the text, the parser comes to the end of it, and takes each of its tokens once.

* `Reader.Allows` says which moves a reader may make, `Path` that it may make some one by one.
  `Path.rest_eq`: the tokens taken on a path are those that are not left at its end.
* `Carries` is what a stretch of parsing keeps; stretches are put together with `Carries.trans`.
  `Runs.carries` is the induction over the routines.
* `Move.Begin`: what has to give something back takes a token first, or else reports one. So a round
  of a loop that is stuck has reported the token that it skips (`Carries.recovery`).
* `parse_progress` is the whole.
-/
namespace ReplayShell.Syntax

variable {endOfFile : Token} {r r₁ r' : Reader} {move : Move} {moves more : List Move}
  {ts us : List Token} {routine : Routine} {tree : Tree}

/-! ## Paths -/

/-- The move takes a token. -/
def Move.takes : Move → Bool
  | .next | .skip => true
  | .report _ _ | .enter | .leave => false

/-- The tokens that are taken by moves of a sort. -/
def Reader.tokens (endOfFile : Token) (sort : Move → Bool) : Reader → List Move → List Token
  | _, [] => []
  | r, move :: moves =>
    if sort move then r.current endOfFile :: (r.after endOfFile move).tokens endOfFile sort moves
    else (r.after endOfFile move).tokens endOfFile sort moves

/-- The reader may make the move. -/
structure Reader.Allows (endOfFile : Token) (r : Reader) (move : Move) : Prop where
  /-- The end is not taken. -/
  ahead : move.takes = true → r.kind ≠ .endOfFile
  /-- A token that is skipped has been reported. -/
  reported : move = .skip → ∃ diagnostic ∈ r.reported, diagnostic.span = (r.current endOfFile).span
  deeper : move = .enter → r.depth < maxNestingDepth
  back : move = .leave → 0 < r.depth

/-- The reader may make the moves one after another, and they lead it to the other one. -/
inductive Path (endOfFile : Token) : Reader → List Move → Reader → Prop
  | nil {r : Reader} : Path endOfFile r [] r
  | cons {r r' : Reader} {move : Move} {moves : List Move} (h : r.Allows endOfFile move)
      (hp : Path endOfFile (r.after endOfFile move) moves r') : Path endOfFile r (move :: moves) r'

theorem Reader.tokens_append (sort : Move → Bool) (r : Reader) (moves more : List Move) :
    r.tokens endOfFile sort (moves ++ more) =
      r.tokens endOfFile sort moves ++
        (r.perform endOfFile moves).tokens endOfFile sort more := by
  induction moves generalizing r with
  | nil => rfl
  | cons move moves ih =>
    rw [List.cons_append, tokens, tokens, ih]
    split <;> rfl

/-- A wider sort of moves takes more tokens. -/
theorem Reader.tokens_sublist {sort other : Move → Bool}
    (h : ∀ move, sort move = true → other move = true) (r : Reader) (moves : List Move) :
    (r.tokens endOfFile sort moves).Sublist (r.tokens endOfFile other moves) := by
  induction moves generalizing r with
  | nil => exact .slnil
  | cons move moves ih =>
    rw [tokens, tokens]
    by_cases hs : sort move = true
    · rw [if_pos hs, if_pos (h move hs)]
      exact (ih _).cons_cons _
    · rw [if_neg hs]
      split
      · exact (ih _).cons _
      · exact ih _

/-- If no token is taken twice, then none is both read and skipped. -/
theorem Reader.not_mem_skipped (h : (r.tokens endOfFile Move.takes moves).Nodup) {token : Token}
    (hm : token ∈ r.tokens endOfFile (· = .next) moves) :
    token ∉ r.tokens endOfFile (· = .skip) moves := by
  induction moves generalizing r with
  | nil => exact absurd hm List.not_mem_nil
  | cons move moves ih =>
    have hsub : ∀ {sort : Move → Bool}, (∀ move, sort move = true → move.takes = true) →
        ∀ other ∈ (r.after endOfFile move).tokens endOfFile sort moves,
          other ∈ (r.after endOfFile move).tokens endOfFile Move.takes moves :=
      fun hsort => (tokens_sublist hsort _ _).subset
    cases move with
    | next =>
      obtain ⟨hnew, hrest⟩ := List.nodup_cons.1 h
      rcases List.mem_cons.1 hm with rfl | hm
      · exact fun hs => hnew (hsub (by simp [Move.takes]) _ hs)
      · exact ih hrest hm
    | skip =>
      obtain ⟨hnew, hrest⟩ := List.nodup_cons.1 h
      refine fun hs => (List.mem_cons.1 hs).elim (fun heq => ?_) (ih hrest hm)
      rw [heq] at hm
      exact hnew (hsub (by simp [Move.takes]) _ hm)
    | report | enter | leave => exact ih h hm

theorem Reader.rest_next (h : r.kind ≠ .endOfFile) :
    r.rest = r.current endOfFile :: (r.next endOfFile).rest := by
  rw [toState_next (State.rest_ne_nil h)]
  exact State.rest_eq_cons endOfFile h

namespace Path

theorem append (h : Path endOfFile r moves r₁) (h' : Path endOfFile r₁ more r') :
    Path endOfFile r (moves ++ more) r' := by
  induction h with
  | nil => exact h'
  | cons ha _ ih => exact .cons ha (ih h')

theorem perform_eq (h : Path endOfFile r moves r') : r.perform endOfFile moves = r' := by
  induction h with
  | nil => rfl
  | cons _ _ ih => exact ih

/-- A path may be broken off anywhere. -/
theorem front (h : Path endOfFile r (moves ++ more) r') :
    Path endOfFile r moves (r.perform endOfFile moves) := by
  induction moves generalizing r with
  | nil => exact .nil
  | cons move moves ih =>
    cases h with
    | cons ha hp => exact .cons ha (ih hp)

/-- The tokens that are taken are those in front of what is left. -/
theorem rest_eq (h : Path endOfFile r moves r') :
    r.rest = r.tokens endOfFile Move.takes moves ++ r'.rest := by
  induction h with
  | nil => rfl
  | @cons r _ move moves ha _ ih =>
    cases move with
    | next | skip =>
      rw [Reader.rest_next (ha.ahead rfl)]
      exact congrArg _ ih
    | report | enter | leave => exact ih

theorem length_le (h : Path endOfFile r moves r') : r'.rest.length ≤ r.rest.length := by
  rw [h.rest_eq, List.length_append]
  exact Nat.le_add_left _ _

/-- A report is never taken back. -/
theorem reported_suffix (h : Path endOfFile r moves r') : r.reported <:+ r'.reported := by
  induction h with
  | nil => exact List.suffix_rfl
  | @cons r _ move moves _ _ ih =>
    cases move with
    | report => exact (List.suffix_cons _ _).trans ih
    | next | skip | enter | leave => exact ih

/-- The count stays below its bound. -/
theorem depth_le (h : Path endOfFile r moves r') (hd : r.depth ≤ maxNestingDepth) :
    r'.depth ≤ maxNestingDepth := by
  induction h with
  | nil => exact hd
  | @cons r _ move moves ha _ ih =>
    refine ih ?_
    cases move with
    | enter => exact ha.deeper rfl
    | leave => exact (Nat.sub_le _ _).trans hd
    | next | skip | report => exact hd

/-- Each token that is skipped has been reported. -/
theorem skipped_reported (h : Path endOfFile r moves r') :
    ∀ token ∈ r.tokens endOfFile (· = .skip) moves,
      ∃ diagnostic ∈ r'.reported, diagnostic.span = token.span := by
  induction h with
  | nil => exact fun _ hm => absurd hm List.not_mem_nil
  | @cons r _ move moves ha hp ih =>
    cases move with
    | skip =>
      refine List.forall_mem_cons.2 ⟨?_, ih⟩
      obtain ⟨diagnostic, hm, hspan⟩ := ha.reported rfl
      exact ⟨diagnostic, hp.reported_suffix.subset hm, hspan⟩
    | next | report | enter | leave => exact ih

end Path

/-! ## Stretches -/

/-- On the way to the other reader, which is on the same level, each of the tokens is read or found
missing. -/
structure Carries (endOfFile : Token) (r : Reader) (moves : List Move) (ts : List Token)
    (r' : Reader) : Prop where
  path : Path endOfFile r moves r'
  depth : r'.depth = r.depth
  kept : ∀ token ∈ ts, token.kind ≠ .endOfFile ∧
    (token.missing = true ∨ token ∈ r.tokens endOfFile (· = .next) moves)

namespace Carries

theorem refl (r : Reader) : Carries endOfFile r [] [] r :=
  ⟨.nil, rfl, fun _ hm => absurd hm List.not_mem_nil⟩

theorem trans (h : Carries endOfFile r moves ts r₁) (h' : Carries endOfFile r₁ more us r') :
    Carries endOfFile r (moves ++ more) (ts ++ us) r' where
  path := h.path.append h'.path
  depth := h'.depth.trans h.depth
  kept token hm := by
    rw [Reader.tokens_append, h.path.perform_eq]
    rcases List.mem_append.1 hm with hm | hm
    · exact (h.kept token hm).imp_right (Or.imp_right (List.mem_append_left _))
    · exact (h'.kept token hm).imp_right (Or.imp_right (List.mem_append_right _))

/-- The tree need not keep what has been read. -/
theorem drop (h : Carries endOfFile r moves ts r') : Carries endOfFile r moves [] r' :=
  ⟨h.path, h.depth, fun _ hm => absurd hm List.not_mem_nil⟩

theorem next (h : r.kind ≠ .endOfFile) :
    Carries endOfFile r [.next] [r.current endOfFile] (r.next endOfFile) where
  path := .cons ⟨fun _ => h, nofun, nofun, nofun⟩ .nil
  depth := rfl
  kept := List.forall_mem_singleton.2
    ⟨by rw [State.kind_current endOfFile h]; exact h, .inr List.mem_cons_self⟩

theorem report {kind : Kind} (problem : Problem) (h : kind ≠ .endOfFile) :
    Carries endOfFile r [.report problem kind] [.absent kind (r.current endOfFile).span.start]
      (r.report endOfFile problem kind) where
  path := .cons ⟨nofun, nofun, nofun, nofun⟩ .nil
  depth := rfl
  kept := List.forall_mem_singleton.2 ⟨h, .inl rfl⟩

/-- A level is entered and left again. -/
theorem nested (hd : ¬maxNestingDepth ≤ r.depth) (h : Carries endOfFile r.enter moves ts r') :
    Carries endOfFile r (Move.nested moves) ts r'.leave where
  path := by
    have hpos : 0 < r'.depth := by
      rw [h.depth]
      exact Nat.succ_pos _
    exact .cons ⟨nofun, nofun, fun _ => Nat.lt_of_not_le hd, nofun⟩
      (h.path.append (.cons ⟨nofun, nofun, nofun, fun _ => hpos⟩ .nil))
  depth := Reader.depth_leave h.depth
  kept token hm := by
    change _ ∧ (_ ∨ token ∈ r.enter.tokens endOfFile _ (moves ++ [.leave]))
    rw [Reader.tokens_append]
    exact (h.kept token hm).imp_right (Or.imp_right (List.mem_append_left _))

end Carries

/-! ## Reports of tokens that are skipped -/

/-- The first of the moves, but for counting levels, takes a token or reports one. -/
def Move.Begin : List Move → Prop
  | .next :: _ | .report _ _ :: _ => True
  | .enter :: moves => Begin moves
  | _ => False

theorem Move.Begin.append (h : Move.Begin moves) (more : List Move) :
    Move.Begin (moves ++ more) := by
  fun_induction Move.Begin moves with
  | case1 | case2 => trivial
  | case3 moves ih => exact ih h
  | case4 => exact h.elim

/-- The routine has to give something back, whatever comes next. -/
def Routine.Answers : Routine → Prop
  | .operators _ _ | .arguments | .statements | .parameters => False
  | _ => True

theorem Runs.begin (h : Runs endOfFile routine r moves tree r') (ha : routine.Answers) :
    Move.Begin moves := by
  induction h with
  | found | absent | tooDeep | assignment | unary | unaryTooDeep | parenthesized | literal | call
  | statementTooDeep | block | «variable» | conditionalElse | conditional | loop | returnNothing
  | «return» => trivial
  | operation _ _ _ ih | expression _ _ _ _ _ _ _ ih => exact (ih trivial).append _
  | operand _ _ _ ih | function _ _ _ _ _ _ _ _ ih => exact (ih trivial).append _
  | name _ _ _ _ ih | functionMember _ _ ih | statementMember _ _ ih => exact ih trivial
  | _ => exact ha.elim

/-- On a path that takes no token, what begins by taking or reporting one has reported it. -/
theorem Path.reported_of_begin (h : Path endOfFile r moves r') (hb : Move.Begin moves)
    (hlen : r'.rest.length = r.rest.length) :
    ∃ diagnostic ∈ r'.reported, diagnostic.span = (r.current endOfFile).span := by
  induction h with
  | nil => exact hb.elim
  | @cons r r' move moves ha hp ih =>
    cases move with
    | next =>
      have hle := hp.length_le
      rw [hlen, Reader.rest_next (ha.ahead rfl)] at hle
      exact absurd hle (Nat.not_succ_le_self _)
    | report => exact ⟨_, hp.reported_suffix.subset List.mem_cons_self, rfl⟩
    | enter => exact ih hb hlen
    | skip | leave => exact hb.elim

/-- A round of a loop that is stuck may skip the token that it found. -/
theorem Carries.recovery (h : Carries endOfFile r moves ts r₁) (hb : Move.Begin moves)
    (hk : r.kind ≠ .endOfFile) :
    Carries endOfFile r₁ (r.recovery r₁) [] (r₁.perform endOfFile (r.recovery r₁)) := by
  unfold Reader.recovery
  split
  · rename_i hlen
    have hrest : r₁.rest = r.rest := by
      have hsuffix : r₁.rest <:+ r.rest := ⟨_, h.path.rest_eq.symm⟩
      exact hsuffix.eq_of_length hlen
    have hreported := h.path.reported_of_begin hb hlen
    refine ⟨.cons ⟨fun _ => ?_, fun _ => ?_, nofun, nofun⟩ .nil, rfl,
      fun _ hm => absurd hm List.not_mem_nil⟩
    · rw [State.kind, hrest]
      exact hk
    · rw [State.current, hrest]
      exact hreported
  · exact .refl r₁

/-! ## Routines -/

/-- What the routine keeps of the tree; of operators, what comes after the left operand. -/
def Routine.Carries (endOfFile : Token) : Routine → Reader → List Move → Tree → Reader → Prop
  | .operators _ left, r, moves, tree, r' =>
    ∃ ts, tree.kept = (Tree.expression left).kept ++ ts ∧ Syntax.Carries endOfFile r moves ts r'
  | _, r, moves, tree, r' => Syntax.Carries endOfFile r moves tree.kept r'

theorem Reader.kind_next (h : r.kind ≠ .endOfFile) :
    (r.next endOfFile).kind = r.secondKind := by
  rw [toState_next (State.rest_ne_nil h), State.kind_advance]

theorem carries_tooDeep (r : Reader) :
    Carries endOfFile r [.report .nestedTooDeeply .identifier]
      (Tree.expression (tooDeep endOfFile r.toState).value).kept
      (r.report endOfFile .nestedTooDeeply .identifier) :=
  .report .nestedTooDeeply (by decide)

/-- Whatever a routine reads, it reads on a path that ends on the level where it began. -/
theorem Runs.carries (h : Runs endOfFile routine r moves tree r') (hc : routine.Callable r.depth) :
    routine.Carries endOfFile r moves tree r' := by
  have next : ∀ {r : Reader} {kind : Kind}, kind ≠ .endOfFile → r.kind = kind →
      Carries endOfFile r [.next] [r.current endOfFile] (r.next endOfFile) :=
    fun hk h => .next (by rw [h]; exact hk)
  have second : ∀ {r : Reader} {first second : Kind}, first ≠ .endOfFile → second ≠ .endOfFile →
      r.kind = first ∧ r.secondKind = second →
      Carries endOfFile (r.next endOfFile) [.next] [] ((r.next endOfFile).next endOfFile) :=
    fun h₁ h₂ h => (next h₂ ((Reader.kind_next (by rw [h.1]; exact h₁)).trans h.2)).drop
  -- Each rule is a stretch for each of its parts, as in `Reads.passes`.
  induction h with
  | found h => exact next hc h
  | absent h => exact .report _ hc
  | tooDeep => exact carries_tooDeep _
  | assignment hd h _ ih =>
    have hname := next (r := Reader.enter _) (by decide) h.1
    have hequals := second (r := Reader.enter _) (by decide) (by decide) h
    exact .nested hd (hname.trans (hequals.trans (ih trivial)))
  | operation hd _ _ ih => exact .nested hd (ih trivial)
  | @unary parent r r₁ r' moves more operand whole h hd _ _ ihOperand ihRest =>
    obtain ⟨ts, hkept, hrest⟩ := ihRest trivial
    have hoperand := (next (Kind.ne_end_of_unary h) rfl).trans (.nested hd (ihOperand trivial))
    change Syntax.Carries endOfFile r _ (Tree.expression whole).kept r'
    rw [hkept]
    exact hoperand.trans hrest
  | @unaryTooDeep parent r r' more whole h hd _ ihRest =>
    obtain ⟨ts, hkept, hrest⟩ := ihRest trivial
    have hoperand := (next (Kind.ne_end_of_unary h) rfl).trans (carries_tooDeep (r.next endOfFile))
    change Syntax.Carries endOfFile r _ (Tree.expression whole).kept r'
    rw [hkept]
    exact hoperand.trans hrest
  | @operand parent r r₁ r' moves more left whole _ _ _ ihLeft ihRest =>
    obtain ⟨ts, hkept, hrest⟩ := ihRest trivial
    change Syntax.Carries endOfFile r _ (Tree.expression whole).kept r'
    rw [hkept]
    exact (ihLeft trivial).trans hrest
  | enough _ => exact ⟨[], (List.append_nil _).symm, .refl _⟩
  | @binary parent left right whole r r₁ r' moves more h _ _ ihRight ihRest =>
    obtain ⟨ts, hkept, hrest⟩ := ihRest trivial
    refine ⟨_, ?_, ((next (Kind.ne_end_of_binary h) rfl).trans (ihRight trivial)).trans hrest⟩
    rw [hkept]
    simp [Tree.kept, Tree.pieces, Expression.pieces]
  | parenthesized h _ _ ih ihClosing =>
    have hclosing := ihClosing (callable_token (by decide))
    have h := (next (by decide) h).trans ((ih trivial).trans hclosing)
    simpa [Routine.Carries, Tree.kept, Tree.pieces, Expression.pieces] using h
  | literal h => exact next (Kind.ne_end_of_literal h) rfl
  | call h _ _ ih ihClosing =>
    have hclosing := ihClosing (callable_token (by decide))
    have h := (next (by decide) h.1).trans ((second (by decide) (by decide) h).trans
      ((ih trivial).trans hclosing))
    simpa [Routine.Carries, Tree.kept, Tree.pieces, Expression.pieces] using h
  | name _ _ _ _ ih => exact ih (callable_token (by decide))
  | noArguments _ => exact .refl _
  | lastArgument _ _ _ ih =>
    simpa [Routine.Carries, Tree.kept, Tree.pieces, argumentPieces] using ih trivial
  | argument _ _ hk _ ihFirst ihMore =>
    have h := (ihFirst trivial).trans ((next (by decide) hk).drop.trans (ihMore trivial))
    simpa [Routine.Carries, Tree.kept, Tree.pieces, argumentPieces] using h
  | statementTooDeep => exact carries_tooDeep _
  | block hd h _ _ ih ihClosing =>
    have hopening := next (r := Reader.enter _) (by decide) h
    have hclosing := ihClosing (callable_token (by decide))
    have h := hopening.trans ((ih trivial).trans hclosing)
    simpa [Routine.Carries, Tree.kept, Tree.pieces, Statement.pieces] using Carries.nested hd h
  | «variable» hd h _ _ _ ihName ihEquals ihValue =>
    have hkeyword := next (r := Reader.enter _) (Kind.ne_end_of_variable h) rfl
    have hname := ihName (callable_token (by decide))
    have hequals := ihEquals (callable_token (by decide))
    exact .nested hd (hkeyword.trans (hname.trans (hequals.drop.trans (ihValue trivial))))
  | conditionalElse hd h _ _ hk _ ihCondition ihThen ihElse =>
    have hkeyword := next (r := Reader.enter _) (by decide) h
    have h := hkeyword.trans ((ihCondition trivial).trans ((ihThen trivial).trans
      ((next (by decide) hk).drop.trans (ihElse trivial))))
    simpa [Routine.Carries, Tree.kept, Tree.pieces, Statement.pieces, elsePieces] using
      Carries.nested hd h
  | conditional hd h _ _ _ ihCondition ihThen =>
    have hkeyword := next (r := Reader.enter _) (by decide) h
    have h := hkeyword.trans ((ihCondition trivial).trans (ihThen trivial))
    simpa [Routine.Carries, Tree.kept, Tree.pieces, Statement.pieces, elsePieces] using
      Carries.nested hd h
  | loop hd h _ _ ihCondition ihBody =>
    have hkeyword := next (r := Reader.enter _) (by decide) h
    have h := hkeyword.trans ((ihCondition trivial).trans (ihBody trivial))
    simpa [Routine.Carries, Tree.kept, Tree.pieces, Statement.pieces] using Carries.nested hd h
  | returnNothing hd h _ => exact .nested hd (next (r := Reader.enter _) (by decide) h)
  | «return» hd h _ _ ih =>
    exact .nested hd ((next (r := Reader.enter _) (by decide) h).trans (ih trivial))
  | expression hd _ _ _ _ _ _ ih => exact .nested hd (ih trivial)
  | noStatements _ => exact .refl _
  | statements h hf _ ihFirst ihMore =>
    have hfirst := ihFirst trivial
    have hskip := hfirst.recovery (hf.begin trivial) fun hk => h (.inr hk)
    have h := hfirst.trans (hskip.trans (ihMore trivial))
    simpa [Routine.Carries, Tree.kept, Tree.pieces, statementPieces] using h
  | noParameters _ => exact .refl _
  | lastParameter _ _ _ ih => exact ih (callable_token (by decide))
  | parameter _ _ hk _ ihFirst ihMore =>
    have hfirst := ihFirst (callable_token (by decide))
    have h := hfirst.trans ((next (by decide) hk).drop.trans (ihMore trivial))
    simpa [Routine.Carries, Tree.kept, Tree.pieces, parameterPieces] using h
  | function _ _ _ _ _ _ _ _ ihKeyword ihName ihOpen ihParameters ihClose ihOpening ihBody
      ihClosing =>
    have hkeyword := ihKeyword (callable_token (by decide))
    have hname := ihName (callable_token (by decide))
    have hopen := (ihOpen (callable_token (by decide))).drop
    have hclose := (ihClose (callable_token (by decide))).drop
    have hopening := ihOpening (callable_token (by decide))
    have hclosing := ihClosing (callable_token (by decide))
    have h := hkeyword.trans (hname.trans (hopen.trans ((ihParameters trivial).trans
      (hclose.trans (hopening.trans ((ihBody trivial).trans hclosing))))))
    simpa [Routine.Carries, Tree.kept, Tree.pieces, FunctionDeclaration.pieces] using h
  | functionMember _ _ ih => exact ih hc
  | statementMember _ _ ih => exact ih trivial

/-- A routine makes its moves on a path that ends on the level where it began. -/
theorem Runs.path (h : Runs endOfFile routine r moves tree r') (hc : routine.Callable r.depth) :
    Path endOfFile r moves r' ∧ r'.depth = r.depth := by
  have hcarries := h.carries hc
  cases routine with
  | operators parent left =>
    obtain ⟨ts, -, hcarries⟩ := hcarries
    exact ⟨hcarries.path, hcarries.depth⟩
  | _ => exact ⟨hcarries.path, hcarries.depth⟩

/-! ## Rounds of loops -/

/-- After a round of a loop fewer tokens are left. -/
theorem Path.round_lt (h : Path endOfFile r moves r₁) (hk : r.kind ≠ .endOfFile) :
    (r₁.perform endOfFile (r.recovery r₁)).rest.length < r.rest.length := by
  have hne := State.rest_ne_nil hk
  rw [Reader.toState_recovery hne]
  exact State.length_skipIfStuck_lt hne h.length_le

/-- A round takes the token that it finds, and then those that come next, as many as it likes. -/
theorem Carries.round (h : Carries endOfFile r moves ts r₁) (hb : Move.Begin moves)
    (hk : r.kind ≠ .endOfFile) :
    ∃ token tokens, r.rest = token :: (tokens ++ (r.skipIfStuck r₁.toState).rest) := by
  have hrest := (h.path.append (h.recovery hb hk).path).rest_eq
  have hlt := h.path.round_lt hk
  rw [hrest, List.length_append, Nat.lt_add_left_iff_pos] at hlt
  obtain ⟨token, tokens, htokens⟩ := List.exists_cons_of_length_pos hlt
  rw [htokens, Reader.toState_recovery (State.rest_ne_nil hk)] at hrest
  exact ⟨token, tokens, hrest⟩

/-- A round of the loop over members. -/
theorem parseMember_round {s : State} (endOfFile : Token) (hk : s.kind ≠ .endOfFile) :
    ∃ token tokens, s.rest =
      token :: (tokens ++ (s.skipIfStuck (parseMember endOfFile s).state).rest) := by
  obtain ⟨moves, h⟩ := (reads_member endOfFile s).runs (r := ⟨s, 0⟩) rfl rfl
  exact (h.carries rfl).round (h.begin trivial) hk

/-- A round of the loop over the statements of a block. -/
theorem parseStatement_round {s : State} (endOfFile : Token) (depth : Nat)
    (hk : s.kind ≠ .endOfFile) :
    ∃ token tokens, s.rest =
      token :: (tokens ++ (s.skipIfStuck (parseStatement endOfFile depth s).state).rest) := by
  obtain ⟨moves, h⟩ := ((reads_statements endOfFile).1 depth s).runs (r := ⟨s, depth⟩) rfl rfl
  exact (h.carries trivial).round (h.begin trivial) hk

/-! ## All members -/

namespace RunsMembers

variable {members : List Member}

theorem carries (h : RunsMembers endOfFile r moves members r') (hd : r.depth = 0) :
    Carries endOfFile r moves (Tree.members members).kept r' := by
  induction h with
  | none => exact .refl _
  | member hk hf _ ih =>
    have hfirst : Carries endOfFile _ _ (Tree.member _).kept _ := hf.carries hd
    have hmore := ih ((Reader.depth_recovery _ _).trans (hfirst.depth.trans hd))
    have h := hfirst.trans ((hfirst.recovery (hf.begin trivial) hk).trans hmore)
    simpa [Tree.kept, Tree.pieces, memberPieces] using h

theorem kind_eq (h : RunsMembers endOfFile r moves members r') : r'.kind = .endOfFile := by
  induction h with
  | none h => exact h
  | member _ _ _ ih => exact ih

/-- Each member comes with a token of its own. -/
theorem length_le (h : RunsMembers endOfFile r moves members r') (hd : r.depth = 0) :
    members.length + r'.rest.length ≤ r.rest.length := by
  induction h with
  | none => exact (Nat.zero_add _).le
  | member hk hf _ ih =>
    obtain ⟨hpath, hdepth⟩ := hf.path hd
    have hmore := ih ((Reader.depth_recovery _ _).trans (hdepth.trans hd))
    have hlt := hpath.round_lt hk
    rw [List.length_cons]
    omega

/-- The moves give back what the parser gives back. -/
theorem parseMembers_eq (h : RunsMembers endOfFile r moves members r') (hd : r.depth = 0)
    (hk : ∀ token ∈ r.rest, token.kind ≠ .endOfFile) (lastToken : Option Token) :
    (parseMembers endOfFile lastToken r.toState).1 = members ∧
      (parseMembers endOfFile lastToken r.toState).2.2 = r'.toState := by
  induction h generalizing lastToken with
  | @none r h =>
    have hnil : r.rest = [] := by
      cases hr : r.rest with
      | nil => rfl
      | cons token rest =>
        rw [State.kind, hr] at h
        exact absurd h (hk token (hr ▸ List.mem_cons_self))
    rw [parseMembers, dif_pos hnil]
    exact ⟨rfl, rfl⟩
  | @member r r₁ r' moves rest first more hkind hf _ ih =>
    have hne := State.rest_ne_nil hkind
    obtain ⟨hdepth, hreads⟩ := hf.reads hd rfl rfl
    obtain ⟨hvalue, hstate⟩ := hreads.parseMember_eq
    have hround := (hf.carries hd).round (hf.begin trivial) hkind
    have hsuffix : (r.skipIfStuck r₁.toState).rest <:+ r.rest := by
      obtain ⟨token, tokens, hrest⟩ := hround
      exact ⟨token :: tokens, hrest.symm⟩
    have hmore := ih ((Reader.depth_recovery _ _).trans hdepth)
    rw [Reader.toState_recovery hne] at hmore
    obtain ⟨hmembers, hfinal⟩ := hmore (fun token hm => hk token (hsuffix.subset hm)) r₁.last
    rw [parseMembers, dif_neg hne]
    dsimp only
    rw [hvalue, hstate]
    exact ⟨congrArg _ hmembers, hfinal⟩

end RunsMembers

/-- The loop over members comes to an end. -/
theorem exists_runsMembers (endOfFile : Token) (r : Reader) (hd : r.depth = 0) :
    ∃ moves members r', RunsMembers endOfFile r moves members r' := by
  induction hn : r.rest.length using Nat.strong_induction_on generalizing r with
  | _ n ih =>
    subst hn
    by_cases hk : r.kind = .endOfFile
    · exact ⟨[], [], r, .none hk⟩
    · obtain ⟨moves, h⟩ := (reads_member endOfFile r.toState).runs rfl hd
      obtain ⟨hpath, hdepth⟩ := h.path hd
      obtain ⟨rest, more, r', hmore⟩ := ih _ (hpath.round_lt hk) _
        ((Reader.depth_recovery _ _).trans (hdepth.trans hd)) rfl
      exact ⟨_, _, r', .member hk h hmore⟩

/-! ## Texts -/

/-- The parser at the beginning of a text. -/
def Reader.start (text : String) : Reader := { rest := (tokenize text).significant, depth := 0 }

/-- The moves are those of the parser for the whole text. -/
def Parses (text : String) (moves : List Move) (members : List Member) (r' : Reader) : Prop :=
  RunsMembers (tokenize text).endOfFile (.start text) moves members r'

theorem kind_ne_of_mem_significant {text : String} {token : Token}
    (h : token ∈ (tokenize text).significant) : token.kind ≠ .endOfFile :=
  (cutFrom_of_mem_tokens (List.mem_filter.1 h).1).kind

/-- The parser's way through a whole text. -/
structure Progress (text : String) (moves : List Move) (members : List Member) (r' : Reader) :
    Prop where
  /-- It is the way of `parse`. -/
  tree : (parse text).1.members = members
  reports : (parse text).2 = (tokenize text).diagnostics ++ r'.reported.reverse
  /-- The end is never taken, and a token is skipped only when it has been reported. -/
  path : Path (tokenize text).endOfFile (.start text) moves r'
  /-- There are never too many levels. -/
  level : ∀ front back, moves = front ++ back →
    ((Reader.start text).perform (tokenize text).endOfFile front).depth ≤ maxNestingDepth
  depth : r'.depth = 0
  /-- Nothing is left, and each token has been taken once, in its turn. -/
  stop : r'.rest = []
  tokens : (Reader.start text).tokens (tokenize text).endOfFile Move.takes moves =
    (tokenize text).significant
  skipped : ∀ token ∈ (Reader.start text).tokens (tokenize text).endOfFile (· = .skip) moves,
    ∃ diagnostic ∈ r'.reported, diagnostic.span = token.span
  length : members.length ≤ (tokenize text).significant.length

theorem Parses.progress {text : String} {members : List Member}
    (h : Parses text moves members r') : Progress text moves members r' := by
  have hcarries := RunsMembers.carries h rfl
  have hrest := hcarries.path.rest_eq
  have hlength := RunsMembers.length_le h rfl
  obtain ⟨hmembers, hfinal⟩ := RunsMembers.parseMembers_eq h rfl
    (fun _ hm => kind_ne_of_mem_significant hm) none
  have hstop : r'.rest = [] := by
    cases hr : r'.rest with
    | nil => rfl
    | cons token rest =>
      have hkind := RunsMembers.kind_eq h
      rw [State.kind, hr] at hkind
      have hm : token ∈ (Reader.start text).rest := by
        rw [hrest, hr]
        exact List.mem_append_right _ List.mem_cons_self
      exact absurd hkind (kind_ne_of_mem_significant hm)
  rw [hstop, List.append_nil] at hrest
  exact {
    tree := hmembers
    reports := congrArg (fun s : State => _ ++ s.reported.reverse) hfinal
    path := hcarries.path
    level := by
      rintro front back rfl
      exact hcarries.path.front.depth_le (Nat.zero_le _)
    depth := hcarries.depth
    stop := hstop
    tokens := hrest.symm
    skipped := hcarries.path.skipped_reported
    length := (Nat.le_add_right _ _).trans hlength }

/-- **The parser makes progress.** For every text there is a way of the parser through it, and each
such way is as `Progress` says: it takes every token once, and ends where none is left. Every
routine comes to an end, wherever it is called, with what the parser computes at that depth; it ends
on the level where it has been called, and never takes the end. A round of the loop over members, or
over the statements of a block, takes at least one token of those that are left. -/
theorem parse_progress (text : String) :
    (∃ moves members r', Parses text moves members r') ∧
      (∀ moves members r', Parses text moves members r' → Progress text moves members r') ∧
      (∀ (routine : Routine) (r : Reader), routine.Callable r.depth →
        (∃ moves tree r', Runs (tokenize text).endOfFile routine r moves tree r') ∧
          ∀ moves tree r', Runs (tokenize text).endOfFile routine r moves tree r' →
            (routine.goal r.depth).run (tokenize text).endOfFile r.toState = (tree, r'.toState) ∧
              Path (tokenize text).endOfFile r moves r' ∧ r'.depth = r.depth) ∧
      (∀ s : State, s.kind ≠ .endOfFile → ∃ token tokens, s.rest = token :: (tokens ++
        (s.skipIfStuck (parseMember (tokenize text).endOfFile s).state).rest)) ∧
      ∀ (depth : Nat) (s : State), s.kind ≠ .closeBrace → s.kind ≠ .endOfFile →
        ∃ token tokens, s.rest = token :: (tokens ++
          (s.skipIfStuck (parseStatement (tokenize text).endOfFile depth s).state).rest) := by
  refine ⟨exists_runsMembers _ _ rfl, fun _ _ _ h => h.progress, fun routine r hc => ?_, ?_, ?_⟩
  · exact ⟨exists_runs hc, fun _ _ _ h => ⟨(h.reads rfl rfl hc).2.run_eq, h.path hc⟩⟩
  · exact fun s => parseMember_round _
  · exact fun depth s _ => parseStatement_round _ depth

/-- There may be as many members as tokens: no member can use either parenthesis. -/
example : (parse ") )").1.members.length = 2 ∧ (tokenize ") )").significant.length = 2 := by
  decide +kernel

end ReplayShell.Syntax
