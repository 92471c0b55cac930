import ReplayShell.Proofs.Partition
import ReplayShell.Proofs.TreeParts

/-!
# The order of spans

Whatever the text, the parser keeps tokens in the order of their spans. A missing token stands at
the start of the token that is next, so that it comes after everything that has been read.

* `Span.InText` says that a span goes forwards, inside of the text, and cuts no character.
* `InOrder`: tokens stand between two offsets, each where the one before it ends, or later.
* `Passes` says what a stretch of parsing keeps; stretches are put together with `Passes.trans`.
* `Reads.passes` is the induction over the parser, `passes_parseMembers` the same for all members.
-/
namespace ReplayShell

/-- The span goes forwards, inside of the text, and cuts no character of it. -/
structure Span.InText (text : List Char) (span : Span) : Prop where
  forwards : span.start ≤ span.stop
  inside : span.stop ≤ Text.byteSize text
  starts : Text.IsBoundary text span.start
  stops : Text.IsBoundary text span.stop

/-- The other span does not reach out of this one. -/
structure Span.Contains (outer inner : Span) : Prop where
  start : outer.start ≤ inner.start
  stop : inner.stop ≤ outer.stop

/-- The empty span at the start of another one. -/
theorem Span.InText.at {text : List Char} {span : Span} (h : span.InText text) :
    (Span.at span.start).InText text where
  forwards := Nat.le_refl _
  inside := h.forwards.trans h.inside
  starts := h.starts
  stops := h.starts

/-- The empty span at the end. -/
theorem inText_end (text : List Char) : (Span.at (Text.byteSize text)).InText text where
  forwards := Nat.le_refl _
  inside := Nat.le_refl _
  starts := ⟨text, [], (List.append_nil _).symm, rfl⟩
  stops := ⟨text, [], (List.append_nil _).symm, rfl⟩

namespace Syntax

variable {text : List Char} {start start' middle stop : Nat} {ts us : List Token}

/-- The tokens stand in the text between the offsets, each where the one before it ends, or
later. -/
inductive InOrder (text : List Char) : Nat → List Token → Nat → Prop
  | nil {start stop : Nat} (h : start ≤ stop) : InOrder text start [] stop
  | cons {start stop : Nat} {token : Token} {rest : List Token} (hs : start ≤ token.span.start)
      (ht : token.span.InText text) (hr : InOrder text token.span.stop rest stop) :
      InOrder text start (token :: rest) stop

namespace InOrder

theorem le (h : InOrder text start ts stop) : start ≤ stop := by
  induction h with
  | nil h => exact h
  | cons hs ht _ ih =>
    have hforwards := ht.forwards
    omega

theorem widen (h : InOrder text start ts stop) (hs : start' ≤ start) :
    InOrder text start' ts stop := by
  cases h with
  | nil h => exact .nil (hs.trans h)
  | cons h ht hr => exact .cons (hs.trans h) ht hr

theorem single {token : Token} (ht : token.span.InText text) (hs : start ≤ token.span.start) :
    InOrder text start [token] token.span.stop := .cons hs ht (.nil (Nat.le_refl _))

theorem append (h : InOrder text start ts middle) (h' : InOrder text middle us stop) :
    InOrder text start (ts ++ us) stop := by
  induction h with
  | nil h => exact h'.widen h
  | cons hs ht _ ih => exact .cons hs ht (ih h')

/-- Tokens after others begin where those end, or later. -/
theorem split (h : InOrder text start (ts ++ us) stop) :
    ∃ middle, InOrder text start ts middle ∧ InOrder text middle us stop := by
  induction ts generalizing start with
  | nil => exact ⟨start, .nil (Nat.le_refl _), h⟩
  | cons token rest ih =>
    cases h with
    | cons hs ht hr =>
      obtain ⟨middle, hrest, hus⟩ := ih hr
      exact ⟨middle, .cons hs ht hrest, hus⟩

/-- Tokens that stand together among others. -/
theorem among (h : InOrder text start ts stop) (hi : us <:+: ts) :
    ∃ start' stop', start ≤ start' ∧ InOrder text start' us stop' ∧ stop' ≤ stop := by
  obtain ⟨front, back, rfl⟩ := hi
  obtain ⟨stop', hfront, hback⟩ := h.split
  obtain ⟨start', hbefore, hus⟩ := hfront.split
  exact ⟨start', stop', hbefore.le, hus, hback.le⟩

theorem inText (h : InOrder text start ts stop) :
    ∀ token ∈ ts, token.span.InText text ∧ start ≤ token.span.start ∧ token.span.stop ≤ stop := by
  induction h with
  | nil => exact fun _ hm => absurd hm List.not_mem_nil
  | @cons start stop token rest hs ht hr ih =>
    refine List.forall_mem_cons.2 ⟨⟨ht, hs, hr.le⟩, fun other hm => ?_⟩
    obtain ⟨hother, hstart, hstop⟩ := ih other hm
    have hforwards := ht.forwards
    exact ⟨hother, by omega, hstop⟩

theorem pairwise (h : InOrder text start ts stop) :
    ts.Pairwise fun a b => a.span.stop ≤ b.span.start := by
  induction h with
  | nil => exact .nil
  | cons _ _ hr ih => exact .cons (fun other hm => (hr.inText other hm).2.1) ih

end InOrder

/-! ## The parser -/

variable {endOfFile : Token} {s s₁ s' : State}

/-- What is left to read begins behind the offset, and all that has been noted stands in the
text. -/
structure State.Stands (text : List Char) (position : Nat) (s : State) : Prop where
  ahead : InOrder text position s.rest (Text.byteSize text)
  reported : ∀ diagnostic ∈ s.reported, diagnostic.span.InText text
  last : ∀ token ∈ s.last, token.span.InText text

/-- Between the states the parser keeps the tokens: they stand behind what has been read before, and
in front of what is read later. -/
def Passes (text : List Char) (s : State) (ts : List Token) (s' : State) : Prop :=
  ∀ position, s.Stands text position →
    ∃ position', InOrder text position ts position' ∧ s'.Stands text position'

namespace Passes

theorem refl (s : State) : Passes text s [] s :=
  fun position h => ⟨position, .nil (Nat.le_refl _), h⟩

theorem trans (h : Passes text s ts s₁) (h' : Passes text s₁ us s') :
    Passes text s (ts ++ us) s' := by
  intro position hs
  obtain ⟨position₁, hts, hs₁⟩ := h position hs
  obtain ⟨position', hus, hs'⟩ := h' position₁ hs₁
  exact ⟨position', hts.append hus, hs'⟩

/-- The tree need not keep what has been read. -/
theorem drop (h : Passes text s ts s') : Passes text s [] s' := by
  intro position hs
  obtain ⟨position', hts, hs'⟩ := h position hs
  exact ⟨position', .nil hts.le, hs'⟩

end Passes

section
variable (hend : endOfFile.span = Span.at (Text.byteSize text))
include hend

/-- The next token stands behind what has been read. -/
theorem State.Stands.current {position : Nat} (h : s.Stands text position) :
    (s.current endOfFile).span.InText text ∧ position ≤ (s.current endOfFile).span.start := by
  have ahead := h.ahead
  rw [State.current]
  cases hr : s.rest with
  | nil =>
    rw [hr] at ahead
    rw [List.head?_nil, Option.getD_none, hend]
    exact ⟨inText_end text, ahead.le⟩
  | cons token rest =>
    rw [hr] at ahead
    cases ahead with
    | cons hs ht _ => exact ⟨ht, hs⟩

theorem passes_advance (s : State) :
    Passes text s [s.current endOfFile] s.advance := by
  intro position h
  obtain ⟨ht, hs⟩ := h.current hend
  refine ⟨(s.current endOfFile).span.stop, .single ht hs, ?_⟩
  have ahead := h.ahead
  unfold State.advance
  cases hr : s.rest with
  | nil =>
    rw [State.current, hr, List.head?_nil, Option.getD_none, hend]
    refine ⟨?_, h.reported, h.last⟩
    rw [hr]
    exact .nil (Nat.le_refl _)
  | cons token rest =>
    rw [hr] at ahead
    rw [State.current, hr]
    cases ahead with
    | cons hs ht hrest =>
      refine ⟨hrest, h.reported, fun other hm => ?_⟩
      cases hm
      exact ht

/-- A missing token stands at the start of the next one. -/
theorem passes_synthesize (problem : Problem) (kind : Kind) (s : State) :
    Passes text s [(synthesize endOfFile problem kind s).value]
      (synthesize endOfFile problem kind s).state := by
  intro position h
  obtain ⟨ht, hs⟩ := h.current hend
  have ahead := h.ahead
  refine ⟨(s.current endOfFile).span.start, .single ht.at hs, ?_, ?_, fun other hm => ?_⟩
  · change InOrder text (s.current endOfFile).span.start s.rest _
    cases hr : s.rest with
    | nil =>
      rw [State.current, hr, List.head?_nil, Option.getD_none, hend]
      exact .nil (Nat.le_refl _)
    | cons token rest =>
      rw [hr] at ahead
      rw [State.current, hr]
      cases ahead with
      | cons _ ht hrest => exact .cons (Nat.le_refl _) ht hrest
  · exact List.forall_mem_cons.2 ⟨ht, h.reported⟩
  · cases hm
    exact ht.at

theorem passes_skipIfStuck (s s₁ : State) :
    Passes text s₁ [] (s.skipIfStuck s₁) := by
  unfold State.skipIfStuck
  split
  · exact (passes_advance hend s₁).drop
  · exact .refl s₁

/-- What is kept of the tree between the states; of operators, what comes after the left operand. -/
def Goal.Passes (text : List Char) : Goal → State → Tree → State → Prop
  | .operators _ _ left, s, tree, s' =>
    ∃ ts, tree.kept = (Tree.expression left).kept ++ ts ∧ Syntax.Passes text s ts s'
  | _, s, tree, s' => Syntax.Passes text s tree.kept s'

theorem passes_tooDeep (s : State) :
    Passes text s (Tree.expression (tooDeep endOfFile s).value).kept (tooDeep endOfFile s).state :=
  passes_synthesize hend .nestedTooDeeply .identifier s

/-- Whatever the parser reads, its tokens stand in order. -/
theorem Reads.passes {goal : Goal} {tree : Tree} (h : Reads endOfFile goal s tree s') :
    goal.Passes text s tree s' := by
  have next : ∀ s : State, Passes text s [s.current endOfFile] s.advance := passes_advance hend
  have skip : ∀ s : State, Passes text s [] s.advance := fun s => (next s).drop
  -- Each rule is a stretch for each of its parts; a mark that the tree does not keep is passed over.
  induction h with
  | found _ _ => exact next _
  | absent _ => exact passes_synthesize hend _ _ _
  | tooDeep _ => exact passes_tooDeep hend _
  | assignment _ _ _ ih => exact (next _).trans ((skip _).trans ih)
  | operation _ _ _ ih => exact ih
  | @unary depth parent s s₁ s' operand whole _ _ _ _ ihOperand ihRest =>
    -- The operators go on from the operation, which is what stands in front in the whole.
    obtain ⟨ts, hkept, hrest⟩ := ihRest
    change Syntax.Passes text s (Tree.expression whole).kept s'
    rw [hkept]
    exact ((next _).trans ihOperand).trans hrest
  | @unaryTooDeep depth parent s s' whole _ _ _ ihRest =>
    obtain ⟨ts, hkept, hrest⟩ := ihRest
    change Syntax.Passes text s (Tree.expression whole).kept s'
    rw [hkept]
    exact ((next _).trans (passes_tooDeep hend _)).trans hrest
  | @operand depth parent s s₁ s' left whole _ _ _ ihLeft ihRest =>
    obtain ⟨ts, hkept, hrest⟩ := ihRest
    change Syntax.Passes text s (Tree.expression whole).kept s'
    rw [hkept]
    exact ihLeft.trans hrest
  | enough _ => exact ⟨[], (List.append_nil _).symm, .refl _⟩
  | binary _ _ _ ihRight ihRest =>
    obtain ⟨ts, hkept, hrest⟩ := ihRest
    refine ⟨_, ?_, ((next _).trans ihRight).trans hrest⟩
    rw [hkept]
    simp [Tree.kept, Tree.pieces, Expression.pieces]
  | parenthesized _ _ _ ih ihClosing =>
    have h := (next _).trans (ih.trans ihClosing)
    simpa [Goal.Passes, Tree.kept, Tree.pieces, Expression.pieces] using h
  | literal _ => exact next _
  | call _ _ _ ih ihClosing =>
    have h := (next _).trans ((skip _).trans (ih.trans ihClosing))
    simpa [Goal.Passes, Tree.kept, Tree.pieces, Expression.pieces] using h
  | name _ _ _ _ ih => exact ih
  | noArguments _ => exact .refl _
  | lastArgument _ _ _ ih =>
    simpa [Goal.Passes, Tree.kept, Tree.pieces, argumentPieces] using ih
  | argument _ _ _ _ ihFirst ihMore =>
    have h := ihFirst.trans ((skip _).trans ihMore)
    simpa [Goal.Passes, Tree.kept, Tree.pieces, argumentPieces] using h
  | statementTooDeep _ => exact passes_tooDeep hend _
  | block _ _ _ _ ih ihClosing =>
    have h := (next _).trans (ih.trans ihClosing)
    simpa [Goal.Passes, Tree.kept, Tree.pieces, Statement.pieces] using h
  | «variable» _ _ _ _ _ ihName ihEquals ihValue =>
    exact (next _).trans (ihName.trans (ihEquals.drop.trans ihValue))
  | conditionalElse _ _ _ _ _ _ ihCondition ihThen ihElse =>
    have h := (next _).trans (ihCondition.trans (ihThen.trans ((skip _).trans ihElse)))
    simpa [Goal.Passes, Tree.kept, Tree.pieces, Statement.pieces, elsePieces] using h
  | conditional _ _ _ _ _ ihCondition ihThen =>
    have h := (next _).trans (ihCondition.trans ihThen)
    simpa [Goal.Passes, Tree.kept, Tree.pieces, Statement.pieces, elsePieces] using h
  | loop _ _ _ _ ihCondition ihBody =>
    have h := (next _).trans (ihCondition.trans ihBody)
    simpa [Goal.Passes, Tree.kept, Tree.pieces, Statement.pieces] using h
  | returnNothing _ _ _ => exact next _
  | «return» _ _ _ _ ih => exact (next _).trans ih
  | expression _ _ _ _ _ _ _ ih => exact ih
  | noStatements _ => exact .refl _
  | statements _ _ _ ihFirst ihMore =>
    have h := ihFirst.trans ((passes_skipIfStuck hend _ _).trans ihMore)
    simpa [Goal.Passes, Tree.kept, Tree.pieces, statementPieces] using h
  | noParameters _ => exact .refl _
  | lastParameter _ _ _ ih => exact ih
  | parameter _ _ _ _ ihFirst ihMore =>
    have h := ihFirst.trans ((skip _).trans ihMore)
    simpa [Goal.Passes, Tree.kept, Tree.pieces, parameterPieces] using h
  | function _ _ _ _ _ _ _ _ ihKeyword ihName ihOpen ihParameters ihClose ihOpening ihBody
      ihClosing =>
    have h := ihKeyword.trans (ihName.trans (ihOpen.drop.trans (ihParameters.trans
      (ihClose.drop.trans (ihOpening.trans (ihBody.trans ihClosing))))))
    simpa [Goal.Passes, Tree.kept, Tree.pieces, FunctionDeclaration.pieces] using h
  | functionMember _ _ ih => exact ih
  | statementMember _ _ ih => exact ih

/-- The tokens of all members stand in order. -/
theorem passes_parseMembers (lastToken : Option Token) (s : State) :
    Passes text s (Tree.members (parseMembers endOfFile lastToken s).1).kept
      (parseMembers endOfFile lastToken s).2.2 := by
  induction lastToken, s using parseMembers.induct endOfFile with
  | case1 lastToken s hr =>
    rw [parseMembers, dif_pos hr]
    exact .refl s
  | case2 lastToken s hr member s₁ le hm _ _ _ _ _ ih =>
    obtain ⟨rfl, rfl⟩ := Parsed.parts hm
    rw [parseMembers, dif_neg hr]
    have hmember : Passes text s (Tree.member (parseMember endOfFile s).value).kept
      (parseMember endOfFile s).state := (reads_member endOfFile s).passes hend
    -- A token that no member could use is skipped, so that the next member stands behind it.
    have h := hmember.trans ((passes_skipIfStuck hend s _).trans ih)
    simpa [Tree.kept, Tree.pieces, memberPieces] using h

/-- The last token of the last member stands in the text. -/
theorem inText_lastToken {lastToken : Option Token}
    (hl : ∀ token ∈ lastToken, token.span.InText text) {position : Nat}
    (hs : s.Stands text position) :
    ∀ token ∈ (parseMembers endOfFile lastToken s).2.1, token.span.InText text := by
  induction lastToken, s using parseMembers.induct endOfFile generalizing position with
  | case1 lastToken s hr =>
    rw [parseMembers, dif_pos hr]
    exact hl
  | case2 lastToken s hr member s₁ le hm _ _ _ _ _ ih =>
    obtain ⟨rfl, rfl⟩ := Parsed.parts hm
    rw [parseMembers, dif_neg hr]
    have hmember : Passes text s (Tree.member (parseMember endOfFile s).value).kept
      (parseMember endOfFile s).state := (reads_member endOfFile s).passes hend
    obtain ⟨position₁, -, hs₁⟩ := hmember position hs
    obtain ⟨position₂, -, hs₂⟩ := passes_skipIfStuck hend s _ position₁ hs₁
    exact ih hs₁.last hs₂

end

/-! ## The tokens of a text -/

theorem inText_append {before between after : List Char}
    (h : text = before ++ (between ++ after)) :
    Span.InText text ⟨Text.byteSize before, Text.byteSize before + Text.byteSize between⟩ where
  forwards := Nat.le_add_right _ _
  inside := by
    rw [h, Text.byteSize_append, Text.byteSize_append]
    dsimp only
    omega
  starts := ⟨before, between ++ after, h, rfl⟩
  stops := ⟨before ++ between, after, by rw [h, List.append_assoc], Text.byteSize_append _ _⟩

/-- A string begins with its quote. -/
theorem Lexeme.quote_of_kind {c : Char} {rest : List Char} (h : (first c rest).kind = .string) :
    ∃ body, (first c rest).text = '"' :: body := by
  have hword := word_kind_ne (show Kind.string ≠ .identifier by decide) rfl
  have hpunctuation : (punctuation c rest).kind ≠ .string := by
    unfold punctuation
    split <;> exact Kind.noConfusion
  unfold first at h ⊢
  split at h
  · cases h
  split at h
  · cases h
  split at h
  · exact absurd h (hword _)
  split at h
  · rename_i hblank hdigit hletter hquote
    rw [if_neg hblank, if_neg hdigit, if_neg hletter, if_pos hquote]
    exact ⟨_, rfl⟩
  split at h
  · cases h
  · exact absurd h hpunctuation

theorem quote_of_mem_lexemes (text : List Char) :
    ∀ lexeme ∈ lexemes text, lexeme.kind = .string → ∃ body, lexeme.text = '"' :: body := by
  fun_induction lexemes text with
  | case1 => exact fun _ h => absurd h List.not_mem_nil
  | case2 c rest lexeme ih => exact List.forall_mem_cons.2 ⟨Lexeme.quote_of_kind, ih⟩

/-- A fault is reported at the whole lexeme, or at the quote in front. -/
theorem inText_faults (front : List Char) {pieces : List Lexeme}
    (h : ∀ lexeme ∈ pieces, lexeme.kind = .string → ∃ body, lexeme.text = '"' :: body)
    (ht : text = front ++ (pieces.map Lexeme.text).flatten) :
    ∀ diagnostic ∈ faults (Text.byteSize front) pieces, diagnostic.span.InText text := by
  induction pieces generalizing front with
  | nil => exact fun _ hm => absurd hm List.not_mem_nil
  | cons lexeme rest ih =>
    obtain ⟨hquote, hrest⟩ := List.forall_mem_cons.1 h
    rw [List.map_cons, List.flatten_cons] at ht
    have hspan : (lexeme.faultSpan (Text.byteSize front)).InText text := by
      unfold Lexeme.faultSpan
      split
      · rename_i hk
        obtain ⟨body, hbody⟩ := hquote hk
        have hsplit : text = front ++ (['"'] ++ (body ++ (rest.map Lexeme.text).flatten)) := by
          rw [ht, hbody]
          rfl
        exact inText_append hsplit
      · exact inText_append ht
    have hmore := ih (front ++ lexeme.text) hrest (by rw [ht, List.append_assoc])
    rw [Text.byteSize_append] at hmore
    intro diagnostic hm
    rw [faults_cons] at hm
    rcases List.mem_append.1 hm with hm | hm
    · simp only [faults] at hm
      split at hm
      · obtain rfl := List.mem_singleton.1 hm
        exact hspan
      · exact absurd hm List.not_mem_nil
    · exact hmore diagnostic hm

theorem inOrder_of_laid (h : Laid start ts stop) (hc : ∀ token ∈ ts, token.CutFrom text) :
    InOrder text start ts stop := by
  induction h with
  | nil h => exact .nil h
  | cons hs hne hr ih =>
    obtain ⟨hcut, hrest⟩ := List.forall_mem_cons.1 hc
    refine .cons hs ⟨hne.le, ?_, hcut.starts, hcut.stops⟩ (ih hrest)
    obtain ⟨before, after, htext, hsize⟩ := hcut.stops
    rw [← hsize, htext, Text.byteSize_append]
    omega

/-! ## The tree of a text -/

/-- The tokens of the tree stand in order, and all that is reported about the text stands in it. -/
theorem inOrder_parse (text : String) :
    InOrder text.toList 0 (parse text).1.kept (Text.byteSize text.toList) ∧
      (∀ token ∈ (parse text).1.lastToken, token.span.InText text.toList) ∧
      ∀ diagnostic ∈ (parse text).2, diagnostic.span.InText text.toList := by
  have hend : (tokenize text).endOfFile.span = Span.at (Text.byteSize text.toList) := rfl
  have hcut : ∀ token ∈ (tokenize text).significant, token.CutFrom text.toList := fun token hm =>
    cutFrom_of_mem_tokens (List.mem_filter.1 hm).1
  have hstart : State.Stands text.toList 0 { rest := (tokenize text).significant } :=
    ⟨inOrder_of_laid (laid_significant text) hcut, fun _ hm => absurd hm List.not_mem_nil,
      fun _ hm => (Option.not_mem_none _ hm).elim⟩
  obtain ⟨position, hmembers, hfinal⟩ := passes_parseMembers hend none _ 0 hstart
  have hkept : (parse text).1.kept =
      (Tree.members (parse text).1.members).kept ++ [(tokenize text).endOfFile] := by
    rw [Submission.kept, Submission.children, List.flatMap_append, ← kept_members]
    rfl
  have hlast : (tokenize text).endOfFile.span.InText text.toList := inText_end text.toList
  refine ⟨?_, ?_, fun diagnostic hm => ?_⟩
  · rw [hkept]
    exact hmembers.append (.single hlast hfinal.ahead.le)
  · exact inText_lastToken hend (fun _ hm => (Option.not_mem_none _ hm).elim) hstart
  · rcases List.mem_append.1 hm with hm | hm
    · exact inText_faults [] (quote_of_mem_lexemes text.toList)
        (flatten_lexemes text.toList).symm diagnostic hm
    · exact hfinal.reported diagnostic (List.mem_reverse.1 hm)

/-! ## Spans of parts -/

variable {span : Span}

/-- The range of tokens in order holds all of them. -/
theorem InOrder.spanOf (h : InOrder text start ts stop) (hs : spanOf ts = some span) :
    span.InText text ∧ (start ≤ span.start ∧ span.stop ≤ stop) ∧
      ∀ token ∈ ts, span.Contains token.span := by
  obtain ⟨first, last, hfirst, hlast, rfl⟩ := spanOf_eq_some.1 hs
  obtain ⟨rest, rfl⟩ := List.head?_eq_some_iff.1 hfirst
  obtain ⟨front, hfront⟩ := List.getLast?_eq_some_iff.1 hlast
  have hstarts : ∀ token ∈ first :: rest, first.span.start ≤ token.span.start := by
    cases h with
    | cons _ ht hr =>
      refine List.forall_mem_cons.2 ⟨Nat.le_refl _, fun token hm => ?_⟩
      exact ht.forwards.trans (hr.inText token hm).2.1
  have hstops : ∀ token ∈ first :: rest, token.span.stop ≤ last.span.stop := by
    rw [hfront] at h ⊢
    obtain ⟨middle, hbefore, hl⟩ := h.split
    have hlastIn := (hl.inText last List.mem_cons_self)
    intro token hm
    rcases List.mem_append.1 hm with hm | hm
    · have htoken := (hbefore.inText token hm).2.2
      have hforwards := hlastIn.1.forwards
      omega
    · obtain rfl := List.mem_singleton.1 hm
      exact Nat.le_refl _
  have hlastMem : last ∈ first :: rest := List.mem_of_getLast? hlast
  obtain ⟨hfirstIn, hstart, -⟩ := h.inText first List.mem_cons_self
  obtain ⟨hlastIn, -, hstop⟩ := h.inText last hlastMem
  refine ⟨⟨?_, hlastIn.inside, hfirstIn.starts, hlastIn.stops⟩, ⟨hstart, hstop⟩, fun token hm =>
    ⟨hstarts token hm, hstops token hm⟩⟩
  exact hfirstIn.forwards.trans (hstops first List.mem_cons_self)

/-- Trees whose tokens stand in order stand in order themselves. -/
theorem InOrder.siblings {trees : List Tree}
    (h : InOrder text start (trees.flatMap Tree.kept) stop) :
    (∀ span ∈ trees.filterMap Tree.span?, start ≤ span.start) ∧
      (trees.filterMap Tree.span?).Pairwise fun a b => a.stop ≤ b.start := by
  induction trees generalizing start with
  | nil => exact ⟨fun _ hm => absurd hm List.not_mem_nil, .nil⟩
  | cons tree trees ih =>
    rw [List.flatMap_cons] at h
    obtain ⟨middle, htree, htrees⟩ := h.split
    obtain ⟨hafter, hpairs⟩ := ih htrees
    have hle := htree.le
    cases hs : tree.span? with
    | none =>
      rw [List.filterMap_cons_none hs]
      exact ⟨fun span hm => hle.trans (hafter span hm), hpairs⟩
    | some span =>
      rw [List.filterMap_cons_some hs]
      obtain ⟨-, ⟨hstart, hstop⟩, -⟩ := htree.spanOf hs
      constructor
      · exact List.forall_mem_cons.2 ⟨hstart, fun span hm => hle.trans (hafter span hm)⟩
      · exact .cons (fun span hm => hstop.trans (hafter span hm)) hpairs

/-- A part of a tree whose tokens stand in order. -/
theorem InOrder.part {part tree : Tree} (h : InOrder text start tree.kept stop)
    (hp : Part part tree) (hs : tree.span? = some span) :
    ∀ inner ∈ part.span?, span.Contains inner := by
  intro inner hi
  obtain ⟨first, last, hfirst, hlast, rfl⟩ := spanOf_eq_some.1 hi
  have hall := (h.spanOf hs).2.2
  have hmem := hp.kept_together.subset
  exact ⟨(hall first (hmem (List.mem_of_head? hfirst))).start,
    (hall last (hmem (List.mem_of_getLast? hlast))).stop⟩

end Syntax
end ReplayShell
