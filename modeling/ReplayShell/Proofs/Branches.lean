import ReplayShell.Proofs.Lookahead
import ReplayShell.Proofs.Partition
import ReplayShell.Proofs.Printing
import ReplayShell.Proofs.Readiness

/-!
# Statements as branches

A condition in parentheses and two statements, each faultless on its own, make one statement when
they are put between `if` and `else`: the first statement must not take the `else` for its own, and
it must stop in front of it, which a `return` without a value does not.

* `HasTokens` says what the tokens of a text are, `ParsedAs` that it is one faultless statement.
* `HasTokens.diagnostics_eq_nil_iff`: whether tokens are faulty does not depend on the text.
* `parsedAs_iff`: a text is one faultless statement just if the parser reads that of its tokens.
* `ReadsAs.condition` and `ReadsAs.only` take out what stands between parentheses and braces.
* `parse_conditionalElse` is the whole.
-/
namespace ReplayShell.Syntax

/-- The tokens of the text are these but for their places, and for those that the parser passes
over. -/
def HasTokens (text : String) (ts : List Token) : Prop :=
  (tokenize text).significant.map Token.unplaced = ts.map Token.unplaced

/-- The text is parsed without diagnostics, as just the statement but for its places. -/
def ParsedAs (text : String) (outer : Statement) : Prop :=
  (parse text).2 = [] ∧
    (parse text).1.members.map Member.unplaced = [(Member.statement outer).unplaced]

/-! ## Faults -/

/-- There is nothing wrong with white space and with comments. -/
theorem Lexeme.fault_of_isTrivia (c : Char) (rest : List Char)
    (h : (first c rest).kind.isTrivia = true) : (first c rest).fault = none := by
  have hpunctuation : (punctuation c rest).kind.isTrivia = false := by
    unfold punctuation
    split <;> rfl
  unfold first at h ⊢
  split
  · rfl
  split
  · simp_all [number, Kind.isTrivia]
  split
  · rfl
  split
  · simp_all [string, Kind.isTrivia]
  split
  · rfl
  · simp_all

theorem fault_of_mem_lexemes (text : List Char) :
    ∀ lexeme ∈ lexemes text, lexeme.kind.isTrivia = true → lexeme.fault = none := by
  fun_induction lexemes text with
  | case1 => exact fun _ h => absurd h List.not_mem_nil
  | case2 c rest lexeme ih => exact List.forall_mem_cons.2 ⟨Lexeme.fault_of_isTrivia c rest, ih⟩

/-- A text is without faults just if each of its tokens is, but for those that the parser passes
over. -/
theorem diagnostics_eq_nil_iff (text : String) :
    (tokenize text).diagnostics = [] ↔
      ∀ token ∈ (tokenize text).significant, (tokenize token.text).diagnostics = [] := by
  have hfaults : (tokenize text).diagnostics = (tokenize text).tokens.flatMap fun token =>
      (tokenize token.text).diagnostics.map (·.moved token.span.start) :=
    faults_eq (lexemes_alone text.toList) 0
  simp only [hfaults, List.flatMap_eq_nil_iff, List.map_eq_nil_iff]
  refine ⟨fun h token hm => h token (List.mem_filter.1 hm).1, fun h token hm => ?_⟩
  by_cases htrivia : token.kind.isTrivia = true
  · obtain ⟨lexeme, hl, start, ht⟩ := exists_of_mem_layOut hm
    obtain rfl := List.singleton_inj.1 ht
    have hfault := fault_of_mem_lexemes text.toList lexeme hl htrivia
    rw [tokenize_of_alone (lexemes_alone text.toList lexeme hl)]
    simp [faults, hfault]
  · exact h token (List.mem_filter.2 ⟨hm, by simp [htrivia]⟩)

variable {text : String} {ts us : List Token}

/-- Whether tokens are faulty does not depend on the text that they are in. -/
theorem HasTokens.diagnostics_eq_nil_iff (h : HasTokens text ts) :
    (tokenize text).diagnostics = [] ↔
      ∀ token ∈ ts, (tokenize token.text).diagnostics = [] := by
  have hplaces : ∀ us : List Token, (∀ token ∈ us, (tokenize token.text).diagnostics = []) ↔
      ∀ token ∈ us.map Token.unplaced, (tokenize token.text).diagnostics = [] := fun us => by
    rw [List.forall_mem_map]
    rfl
  rw [Syntax.diagnostics_eq_nil_iff, hplaces, h, ← hplaces]

/-! ## One statement -/

variable {endOfFile : Token} {s s' : State} {outer : Statement}

/-- The parser reads all of the tokens as the one statement, without a report. -/
def ReadsAs (endOfFile : Token) (ts : List Token) (outer : Statement) : Prop :=
  ∃ s', Reads endOfFile .member { rest := ts } (.member (.statement outer)) s' ∧
    s'.rest = [] ∧ s'.reported = []

/-- The members are just one, and there is no report, if all is read as that one. -/
theorem parseMembers_single_iff (endOfFile : Token) (last : Option Token) (s : State)
    (member : Member) :
    ((parseMembers endOfFile last s).1 = [member] ∧
        (parseMembers endOfFile last s).2.2.reported = []) ↔
      ∃ s', Reads endOfFile .member s (.member member) s' ∧ s'.rest = [] ∧ s'.reported = [] := by
  constructor
  · rintro ⟨hmembers, hreported⟩
    by_cases hr : s.rest = []
    · rw [parseMembers, dif_pos hr] at hmembers
      cases hmembers
    rw [parseMembers, dif_neg hr] at hmembers hreported
    dsimp only at hmembers hreported
    obtain ⟨hvalue, hmore⟩ := List.cons.inj hmembers
    have hread := reads_member endOfFile s
    generalize (parseMember endOfFile s).state = s₁ at *
    have hrest : (s.skipIfStuck s₁).rest = [] := by
      by_contra hne
      rw [parseMembers, dif_neg hne] at hmore
      cases hmore
    rw [parseMembers, dif_pos hrest] at hreported
    rw [State.skipIfStuck_reported] at hreported
    obtain ⟨ts, hts, hne, -⟩ := hread.portable hreported
    rw [State.skipIfStuck_of_append hts (hne rfl)] at hrest
    exact ⟨s₁, hvalue ▸ hread, hrest, hreported⟩
  · rintro ⟨s', hread, hrest, hreported⟩
    obtain ⟨ts, hts, hne, -⟩ := hread.portable hreported
    obtain ⟨hvalue, hstate⟩ := hread.parseMember_eq
    have hr : s.rest ≠ [] := by
      rw [hts, hrest, List.append_nil]
      exact hne rfl
    rw [parseMembers, dif_neg hr]
    dsimp only
    rw [hvalue, hstate, State.skipIfStuck_of_append hts (hne rfl), parseMembers, dif_pos hrest]
    exact ⟨rfl, hreported⟩

/-- A text is one faultless statement just if its tokens are faultless and read as that. -/
theorem parsedAs_iff (h : HasTokens text ts) :
    ParsedAs text outer ↔ (∀ token ∈ ts, (tokenize token.text).diagnostics = []) ∧
      ReadsAs (freshToken .endOfFile "") (ts.map Token.unplaced) outer.unplaced := by
  have hplaces := parseMembers_unplaced (tokenize text).endOfFile none
    { rest := (tokenize text).significant }
  have hstate : State.unplaced { rest := (tokenize text).significant } =
      { rest := ts.map Token.unplaced } := congrArg (State.mk · [] none) h
  have hend : (tokenize text).endOfFile.unplaced = freshToken .endOfFile "" := rfl
  rw [hstate, hend, Option.map_none] at hplaces
  have hsingle := parseMembers_single_iff (freshToken .endOfFile "") none
    { rest := ts.map Token.unplaced } (Member.statement outer).unplaced
  rw [hplaces] at hsingle
  rw [ParsedAs, parse_eq_nil_iff, h.diagnostics_eq_nil_iff, and_assoc]
  refine and_congr_right fun _ => Iff.trans ?_ hsingle
  rw [and_comm]
  exact and_congr_right fun _ => List.map_eq_nil_iff.symm

/-- All of the tokens are read if nothing is behind them. -/
theorem ReadsAs.of_statement {first : Token} (hk : first.kind ≠ .functionKeyword)
    (h : ∀ s : State, s.Starts (first :: ts) → (s.beyond (first :: ts)).kind = .endOfFile →
      Reads endOfFile (.statement 0) s (.statement outer) (s.beyond (first :: ts))) :
    ReadsAs endOfFile (first :: ts) outer := by
  have hs : State.Starts { rest := first :: ts } (first :: ts) := List.prefix_rfl
  have hrest : (State.beyond { rest := first :: ts } (first :: ts)).rest = [] :=
    List.append_right_eq_self.1 hs.rest_eq.symm
  have hend : (State.beyond { rest := first :: ts } (first :: ts)).kind = .endOfFile := by
    rw [State.kind, hrest]
  exact ⟨_, .statementMember hk (h _ hs hend), hrest, State.reported_beyond _ _⟩

/-! ## What stands between marks -/

/-- With operators after it an operand becomes an operation. -/
theorem Reads.operators_cases {depth parent : Nat} {left whole : Expression}
    (h : Reads endOfFile (.operators depth parent left) s (.expression whole) s') :
    whole = left ∧ s' = s ∨ ∃ first operator second, whole = .binary first operator second := by
  generalize hg : Goal.operators depth parent left = goal at h
  generalize ht : Tree.expression whole = tree at h
  induction h generalizing left with
  | enough =>
    cases hg
    cases ht
    exact .inl ⟨rfl, rfl⟩
  | binary _ _ _ _ ih =>
    cases hg
    cases ht
    rcases ih rfl rfl with ⟨rfl, -⟩ | hbinary
    · exact .inr ⟨_, _, _, rfl⟩
    · exact .inr hbinary
  | _ => cases hg

/-- An expression in parentheses is read wherever it stands, as a condition too, if no operator
comes after it. -/
theorem ReadsAs.condition {opening closing : Token} {inner : Expression}
    (h : ReadsAs endOfFile ts (.expression (.parenthesized opening inner closing)))
    (hs : s.Starts ts) (hafter : (s.beyond ts).kind.binaryPrecedence = 0) :
    Reads endOfFile (.expression 1) s (.expression (.parenthesized opening inner closing))
      (s.beyond ts) := by
  obtain ⟨s', hread, hrest, hreported⟩ := h
  cases hread with
  | statementMember _ hread =>
  cases hread with
  | expression _ _ _ _ _ _ hread =>
  cases hread with
  | operation _ _ hread =>
  cases hread with
  | unaryTooDeep _ hd => exact absurd hd (by decide)
  | unary _ _ _ hr =>
    rcases hr.operators_cases with ⟨heq, -⟩ | ⟨_, _, _, heq⟩ <;> cases heq
  | operand _ hl hr =>
    rcases hr.operators_cases with ⟨rfl, rfl⟩ | ⟨_, _, _, heq⟩
    · obtain ⟨us, hus, hne, hportable⟩ := hl.portable hreported
      obtain rfl : ts = us := by rw [hrest, List.append_nil] at hus; exact hus
      obtain ⟨hkind, -⟩ := State.head_of_starts hus hs (hne rfl) endOfFile
      cases hl with
      | parenthesized hopen =>
        rw [hopen] at hkind
        exact .operation (by decide) (by simp [hkind])
          (.operand (by simp [hkind, Kind.unaryPrecedence]) (hportable s hs (.inr trivial))
            (.enough (.inl hafter)))
    · cases heq

/-- A statement that is the only one between braces is read wherever it stands, if it ends in front
of what comes after it. -/
theorem ReadsAs.only {before after opening closing : Token}
    (h : ReadsAs endOfFile (before :: (ts ++ [after])) (.block opening [outer] closing)) :
    (∃ first more, ts = first :: more ∧ first.kind.startsStatement = true) ∧
      ∀ s : State, s.Starts ts → (s.beyond ts).kind.EndsExpression →
        outer.Yields (s.beyond ts).kind →
          Reads endOfFile (.statement 1) s (.statement outer) (s.beyond ts) := by
  obtain ⟨s', hread, hrest, hreported⟩ := h
  cases hread with
  | statementMember _ hread =>
  cases hread with
  | block _ _ hs hc =>
  cases hs with
  | statements _ hf hm =>
  cases hm with
  | noStatements =>
  cases hc with
  | absent => exact absurd hreported (List.cons_ne_nil _ _)
  | found _ hk =>
    rw [State.advance_reported, State.skipIfStuck_reported] at hreported
    obtain ⟨us, hus, hne, hportable⟩ := hf.portable hreported
    rw [State.skipIfStuck_of_append hus (hne rfl)] at hk hrest
    obtain ⟨hlast, -⟩ := State.next_token endOfFile (by decide) hk
    rw [hrest] at hlast
    obtain ⟨vs, hvs, hw⟩ := hf.covers hreported
    obtain rfl : vs = us := List.append_cancel_right (hvs.symm.trans hus)
    rw [hlast] at hus
    obtain rfl : ts = vs := (List.append_inj_left' hus rfl :)
    obtain ⟨⟨more, hmore⟩, hstart⟩ := hw.first_statement
    exact ⟨⟨_, more, hmore, hstart⟩, fun s hs hend hyield => hportable s hs (.inr ⟨hend, hyield⟩)⟩

/-! ## The whole -/

/-- A statement leaves an `else` alone just if it ends neither in a `return` without a value nor in
an `if` without an `else`. -/
theorem Statement.yields_else_iff (outer : Statement) :
    outer.Yields .elseKeyword ↔ (∀ keyword, ¬Ends (.return keyword none) outer) ∧
      ∀ keyword condition inner, ¬Ends (.conditional keyword condition inner none) outer := by
  constructor
  · intro h
    refine ⟨fun keyword he => ?_, fun keyword condition inner he => h _ he rfl⟩
    rcases h _ he with hk | hk <;> cases hk
  · rintro ⟨hreturn, hif⟩ inner he
    match inner with
    | .return keyword none => exact absurd he (hreturn keyword)
    | .conditional keyword condition inner none => exact absurd he (hif keyword condition inner)
    | .variable _ _ _ | .return _ (some _) | .expression _ => rfl
    | .block _ _ _ | .conditional _ _ _ (some _) | .loop _ _ _ => trivial

theorem Statement.Leaves.unplaced {inner : Statement} {after : Kind} (h : inner.Leaves after) :
    inner.unplaced.Leaves after := by
  match inner with
  | .variable _ _ _ | .return _ (some _) | .expression _ | .return _ none
  | .conditional _ _ _ none => exact h
  | .block _ _ _ | .conditional _ _ _ (some _) | .loop _ _ _ => trivial

theorem Ends.unplaced {inner : Statement} (h : Ends inner outer) :
    Ends inner.unplaced outer.unplaced := by
  induction h with
  | self => exact .self
  | thenBranch _ ih => exact .thenBranch ih
  | elseBranch _ ih => exact .elseBranch ih
  | body _ ih => exact .body ih

/-- What ends with a statement without places does so with its places too. -/
theorem Ends.of_unplaced {inner : Statement} (h : Ends inner outer.unplaced) :
    ∃ placed, Ends placed outer ∧ placed.unplaced = inner := by
  generalize ho : outer.unplaced = bare at h
  induction h generalizing outer with
  | self => exact ⟨outer, .self, ho⟩
  | thenBranch _ ih =>
    cases outer with
    | conditional _ _ first other =>
      rw [Statement.unplaced, Statement.conditional.injEq] at ho
      obtain ⟨-, -, hfirst, hother⟩ := ho
      cases other with
      | some => cases hother
      | none =>
        obtain ⟨placed, he, hu⟩ := ih hfirst
        exact ⟨placed, .thenBranch he, hu⟩
    | block | «variable» | loop | «return» | expression =>
      rw [Statement.unplaced] at ho
      cases ho
  | elseBranch _ ih =>
    cases outer with
    | conditional _ _ _ other =>
      rw [Statement.unplaced, Statement.conditional.injEq] at ho
      obtain ⟨-, -, -, hother⟩ := ho
      cases other with
      | none => cases hother
      | some =>
        rw [unplacedElse, Option.some.injEq] at hother
        obtain ⟨placed, he, hu⟩ := ih hother
        exact ⟨placed, .elseBranch he, hu⟩
    | block | «variable» | loop | «return» | expression =>
      rw [Statement.unplaced] at ho
      cases ho
  | body _ ih =>
    cases outer with
    | loop =>
      rw [Statement.unplaced, Statement.loop.injEq] at ho
      obtain ⟨placed, he, hu⟩ := ih ho.2.2
      exact ⟨placed, .body he, hu⟩
    | block | «variable» | conditional | «return» | expression =>
      rw [Statement.unplaced] at ho
      cases ho

theorem Statement.Yields.unplaced {after : Kind} (h : outer.Yields after) :
    outer.unplaced.Yields after := by
  intro inner he
  obtain ⟨placed, hplaced, rfl⟩ := he.of_unplaced
  exact (h placed hplaced).unplaced

section
variable {c t u : List Token} {condition body otherwise whole : String}
  {opening closing opening₁ closing₁ opening₂ closing₂ : Token} {inner : Expression}
  {thenBranch elseBranch : Statement}

/-- What is read as a condition in parentheses and as two statements between braces is read as
branches between `if` and `else`. -/
theorem ReadsAs.branches {keyword separator before after before₁ after₁ before₂ after₂ : Token}
    (hk : keyword.kind = .ifKeyword) (ho : separator.kind = .elseKeyword)
    (hc : ReadsAs endOfFile (before :: (c ++ [after]))
      (.expression (.parenthesized opening inner closing)))
    (ht : ReadsAs endOfFile (before₁ :: (t ++ [after₁])) (.block opening₁ [thenBranch] closing₁))
    (he : ReadsAs endOfFile (before₂ :: (u ++ [after₂])) (.block opening₂ [elseBranch] closing₂))
    (hfirst : ∀ token ∈ t.head?, token.kind ≠ .plus ∧ token.kind ≠ .minus)
    (hyield : thenBranch.Yields .elseKeyword)
    (hs : s.Starts (keyword :: (before :: (c ++ [after]) ++ (t ++ separator :: u))))
    (hend : (s.beyond (keyword :: (before :: (c ++ [after]) ++ (t ++ separator :: u)))).kind =
      .endOfFile) :
    Reads endOfFile (.statement 0) s
      (.statement (.conditional keyword (.parenthesized opening inner closing) thenBranch
        (some elseBranch)))
      (s.beyond (keyword :: (before :: (c ++ [after]) ++ (t ++ separator :: u)))) := by
  obtain ⟨⟨first, more, rfl, hstart⟩, hthen⟩ := ht.only
  obtain ⟨-, helse⟩ := he.only
  obtain ⟨hs₁, hs₂⟩ := State.starts_append.1 hs.advance
  obtain ⟨hs₂, hs₃⟩ := State.starts_append.1 hs₂
  rw [State.beyond, State.beyond_append, State.beyond_append, State.beyond] at hend ⊢
  have helseKind := hs₃.kind_eq.trans ho
  have hprecedence : first.kind.binaryPrecedence = 0 := by
    obtain ⟨hplus, hminus⟩ := hfirst first rfl
    generalize first.kind = kind at *
    cases kind <;> first | rfl | exact absurd rfl hplus | exact absurd rfl hminus | cases hstart
  rw [← hs.current_eq endOfFile]
  exact .conditionalElse (by decide) (hs.kind_eq.trans hk)
    (hc.condition hs₁ (by rw [hs₂.kind_eq]; exact hprecedence))
    (hthen _ hs₂ (by rw [helseKind]; exact ⟨rfl, by decide, by decide⟩) (by rwa [helseKind]))
    helseKind
    (helse _ hs₃.advance (by rw [hend]; exact ⟨rfl, by decide, by decide⟩)
      fun inner _ => inner.leaves_end (.inr hend))

/-- A branch that is read in front of an `else` does not end in a `return` without a value. -/
theorem ReadsAs.no_return {keyword : Token} {condition : Expression}
    (h : ReadsAs endOfFile ts (.conditional keyword condition thenBranch (some elseBranch)))
    (keyword' : Token) : ¬Ends (.return keyword' none) thenBranch := by
  intro hreturn
  obtain ⟨s', hread, -⟩ := h
  cases hread with
  | statementMember _ hread =>
  cases hread with
  | conditionalElse _ _ _ ht hk _ =>
    rcases ht.end_of_return hreturn with hend | hend <;> rw [hk] at hend <;> cases hend

/-- **Statements make branches.** If `( c )` is parsed without diagnostics as an expression in
parentheses, and each of `{ t }` and `{ u }` as a block with just one statement, and the
first statement starts with no operator and ends in no `if` without an `else`, then
`if ( c ) t else u` is parsed without diagnostics as the statement with the condition and the two
branches, unless the first one ends in a `return` without a value. Then it is not. -/
theorem parse_conditionalElse
    (hcondition : HasTokens condition (mark .openParen :: (c ++ [mark .closeParen])))
    (hbody : HasTokens body (mark .openBrace :: (t ++ [mark .closeBrace])))
    (hotherwise : HasTokens otherwise (mark .openBrace :: (u ++ [mark .closeBrace])))
    (hwhole : HasTokens whole (mark .ifKeyword ::
      (mark .openParen :: (c ++ [mark .closeParen]) ++ (t ++ mark .elseKeyword :: u))))
    (hc : ParsedAs condition (.expression (.parenthesized opening inner closing)))
    (ht : ParsedAs body (.block opening₁ [thenBranch] closing₁))
    (hu : ParsedAs otherwise (.block opening₂ [elseBranch] closing₂))
    (hfirst : ∀ token ∈ t.head?, token.kind ≠ .plus ∧ token.kind ≠ .minus)
    (hif : ∀ keyword condition inner,
      ¬Ends (.conditional keyword condition inner none) thenBranch) :
    ParsedAs whole (.conditional (mark .ifKeyword) (.parenthesized opening inner closing) thenBranch
        (some elseBranch)) ↔
      ∀ keyword, ¬Ends (.return keyword none) thenBranch := by
  obtain ⟨hfaults, hc⟩ := (parsedAs_iff hcondition).1 hc
  obtain ⟨hfaults₁, ht⟩ := (parsedAs_iff hbody).1 ht
  obtain ⟨hfaults₂, hu⟩ := (parsedAs_iff hotherwise).1 hu
  rw [parsedAs_iff hwhole]
  constructor
  · rintro ⟨-, hread⟩ keyword hreturn
    exact hread.no_return keyword.unplaced hreturn.unplaced
  intro hreturn
  have hyield := ((thenBranch.yields_else_iff).2 ⟨hreturn, hif⟩).unplaced
  simp only [List.forall_mem_cons, List.forall_mem_append] at hfaults hfaults₁ hfaults₂ ⊢
  have hifMark : (tokenize (mark .ifKeyword).text).diagnostics = [] :=
    List.isEmpty_iff.1 (by decide +kernel)
  have helseMark : (tokenize (mark .elseKeyword).text).diagnostics = [] :=
    List.isEmpty_iff.1 (by decide +kernel)
  refine ⟨⟨hifMark, ⟨hfaults.1, hfaults.2⟩, hfaults₁.2.1, helseMark, hfaults₂.2.1⟩, ?_⟩
  have hfirst : ∀ token ∈ (t.map Token.unplaced).head?,
      token.kind ≠ .plus ∧ token.kind ≠ .minus := by
    rw [List.head?_map]
    intro bare hbare
    obtain ⟨token, htoken, rfl⟩ := Option.mem_map.1 hbare
    exact hfirst token htoken
  simp only [List.map_cons, List.map_append, List.map_nil] at hc ht hu ⊢
  exact ReadsAs.of_statement (by decide) fun s hs hend =>
    hc.branches rfl rfl ht hu hfirst hyield hs hend

end

/-- A text with the tokens that a statement is written with is parsed as that statement. -/
theorem parsedAs_of_written (ht : HasTokens text ts)
    (hf : (tokenize text).diagnostics.isEmpty = true) (hw : Written (.statement outer) ts)
    (hc : outer.Clear) (hg : (Tree.statement outer).Grouped)
    (hd : outer.nesting ≤ maxNestingDepth) : ParsedAs text outer := by
  have hwritten : Written (.members [.statement outer]) (ts ++ []) :=
    .members (.statementMember hw) .noMembers
  rw [List.append_nil] at hwritten
  exact parse_of_tokens ht (List.isEmpty_iff.1 hf) hwritten
    ⟨hc, fun _ h => (Option.not_mem_none _ h).elim, trivial⟩ (by simpa using hg)
    (List.forall_mem_singleton.2 hd)

theorem parse_conditionalElse_numbers :
    let condition := Expression.literal (mark .trueKeyword) (.boolean true)
    let number := Expression.literal (freshToken .number "1") (.integer 1)
    let branching (thenBranch : Statement) : Statement := .conditional (mark .ifKeyword)
      (.parenthesized (mark .openParen) condition (mark .closeParen)) thenBranch
      (some (.expression number))
    ParsedAs "if ( true ) 1 else 1" (branching (.expression number)) ∧
      ¬ParsedAs "if ( true ) return else 1" (branching (.return (mark .returnKeyword) none)) := by
  intro condition number branching
  have hnumber : Written (.expression number) [freshToken .number "1"] :=
    .literal (.inr (.inr (.inl rfl)))
  have hcondition :
      HasTokens "( true )" [mark .openParen, mark .trueKeyword, mark .closeParen] := by
    unfold HasTokens
    decide +kernel
  have hone : HasTokens "{ 1 }"
      [mark .openBrace, freshToken .number "1", mark .closeBrace] := by
    unfold HasTokens
    decide +kernel
  have hreturn : HasTokens "{ return }"
      [mark .openBrace, mark .returnKeyword, mark .closeBrace] := by
    unfold HasTokens
    decide +kernel
  have hc : ParsedAs "( true )"
      (.expression (.parenthesized (mark .openParen) condition (mark .closeParen))) :=
    parsedAs_of_written hcondition (by decide +kernel)
      (.expression (.parenthesized rfl (.literal (.inl rfl)) rfl)) trivial (by simp [condition])
      (by decide)
  have ht : ParsedAs "{ 1 }"
      (.block (mark .openBrace) [.expression number] (mark .closeBrace)) :=
    parsedAs_of_written hone (by decide +kernel)
      (.block rfl (.statements (.expression hnumber) .noStatements) rfl)
      ⟨trivial, by simp, trivial⟩ (by simp [number]) (by decide)
  have hr : ParsedAs "{ return }"
      (.block (mark .openBrace) [.return (mark .returnKeyword) none] (mark .closeBrace)) :=
    parsedAs_of_written hreturn (by decide +kernel)
      (.block rfl (.statements (.returnNothing rfl) .noStatements) rfl)
      ⟨trivial, by simp, trivial⟩ (by simp) (by decide)
  constructor
  · refine (parse_conditionalElse (c := [mark .trueKeyword]) (t := [freshToken .number "1"])
      (u := [freshToken .number "1"]) hcondition hone hone (by unfold HasTokens; decide +kernel)
      hc ht ht (by decide) ?_).2 ?_
    · rintro _ _ _ ⟨⟩
    · rintro _ ⟨⟩
  · intro h
    refine (parse_conditionalElse (c := [mark .trueKeyword]) (t := [mark .returnKeyword])
      (u := [freshToken .number "1"]) hcondition hreturn hone (by unfold HasTokens; decide +kernel)
      hc hr ht (by decide) ?_).1 h _ .self
    rintro _ _ _ ⟨⟩

end ReplayShell.Syntax
