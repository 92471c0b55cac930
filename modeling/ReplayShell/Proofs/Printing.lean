import ReplayShell.Proofs.Completeness
import ReplayShell.Proofs.Spelling

/-!
# Parsing undoes printing

* `Submission.tokens` puts the marks back between the tokens that a tree keeps;
  `Submission.printed` writes them with a space between them.
* `Submission.Printable` says what a tree needs so that the syntax can express it.
* `parse_printed`: such a tree is what the parser makes of its printed form, but for the places.
-/
namespace ReplayShell.Syntax

/-- A token that is not yet in any text. -/
def freshToken (kind : Kind) (text : String) : Token :=
  { kind := kind, text := text, span := Span.at 0 }

/-- The token of a kind that has only one text, not yet in any text. -/
def mark (kind : Kind) : Token := freshToken kind kind.spelling

/-- The token that is written for a piece; a comma that may end a list is left out. -/
def Piece.token? : Piece → Option Token
  | .kept token => some token
  | .mark kind => some (Syntax.mark kind)
  | .spare => none

theorem spelled_mark {kind : Kind} (h : kind.spelling ≠ "") :
    (freshToken kind kind.spelling).Spelled := by
  refine ⟨rfl, ?_⟩
  cases kind <;> first | exact ⟨h, rfl⟩ | exact absurd rfl h

/-- The tokens of a tree in order, its marks included. -/
def Submission.tokens (submission : Submission) : List Token :=
  (memberPieces submission.members).filterMap Piece.token?

/-- The tokens of a tree, with a space between them. -/
def Submission.printed (submission : Submission) : String :=
  " ".intercalate (submission.tokens.map Token.text)

/-- What a tree needs so that the syntax can express it. -/
structure Submission.Printable (submission : Submission) : Prop where
  /-- Each token is of a kind that its place calls for, and literals have the values that their
  tokens denote. -/
  written : Written (.members submission.members) submission.tokens
  /-- No token is missing, and each is as its kind may be. -/
  spelled : ∀ token ∈ submission.tokens, token.Spelled
  /-- Operators are nested as their precedences want it. -/
  grouped : ∀ expression, Occurs expression (.members submission.members) → expression.Grouped
  /-- The nesting is not too deep. -/
  shallow : ∀ outer ∈ submission.members, outer.nesting ≤ maxNestingDepth
  /-- No statement takes what comes after it. -/
  clear : membersClear submission.members
  /-- The last token is the one written last. -/
  lastToken : submission.lastToken = submission.tokens.getLast?
  /-- The end is an end. -/
  endOfFile : submission.endOfFile.unplaced = freshToken .endOfFile ""

theorem Submission.toList_printed (submission : Submission) :
    submission.printed.toList = spaced submission.tokens := by
  rw [Submission.printed, String.toList_intercalate, List.map_map]
  rfl

/-- Tokens that differ in their places only give the same tree but for the places, and reports in
the one case just if in the other. -/
theorem parseMembers_congr {endOfFile otherEnd : Token} {s t : State}
    (he : endOfFile.unplaced = otherEnd.unplaced) (hs : s.unplaced = t.unplaced) :
    (parseMembers endOfFile none s).1.map Member.unplaced =
        (parseMembers otherEnd none t).1.map Member.unplaced ∧
      (parseMembers endOfFile none s).2.1.map Token.unplaced =
        (parseMembers otherEnd none t).2.1.map Token.unplaced ∧
      (parseMembers endOfFile none s).2.2.reported.map Diagnostic.unplaced =
        (parseMembers otherEnd none t).2.2.reported.map Diagnostic.unplaced := by
  have h := (parseMembers_unplaced endOfFile none s).symm.trans
    (he ▸ hs ▸ parseMembers_unplaced otherEnd none t)
  obtain ⟨hmembers, hrest⟩ := Prod.mk.inj h
  obtain ⟨hlast, hstate⟩ := Prod.mk.inj hrest
  exact ⟨hmembers, hlast, congrArg State.reported hstate⟩

/-- A text without faulty tokens whose tokens are, but for their places, those that a tree is
written with is parsed as that tree, but for the places. -/
theorem parse_of_tokens {text : String} {ts : List Token} {members : List Member}
    (ht : (tokenize text).significant.map Token.unplaced = ts.map Token.unplaced)
    (hf : (tokenize text).diagnostics = []) (hw : Written (.members members) ts)
    (hc : membersClear members) (hg : (Tree.members members).Grouped)
    (hd : ∀ outer ∈ members, outer.nesting ≤ maxNestingDepth) :
    (parse text).2 = [] ∧
      (parse text).1.members.map Member.unplaced = members.map Member.unplaced := by
  have hread := parseMembers_written hw hc hg hd (tokenize text).endOfFile none { rest := ts } rfl
  have hstate : State.unplaced { rest := (tokenize text).significant } =
      State.unplaced { rest := ts } := by
    rw [State.unplaced, State.unplaced]
    exact congrArg (State.mk · [] none) ht
  have hend : (tokenize text).endOfFile.unplaced = (tokenize text).endOfFile.unplaced := rfl
  obtain ⟨hmembers, -, hreported⟩ := parseMembers_congr hend hstate
  rw [hread] at hmembers hreported
  rw [State.reported_beyond, List.map_nil, List.map_eq_nil_iff] at hreported
  exact ⟨List.append_eq_nil_iff.2 ⟨hf, List.reverse_eq_nil_iff.2 hreported⟩, hmembers⟩

/-- A text with the tokens of an expression is parsed as that expression. -/
theorem parse_of_expression {text : String} {ts : List Token} {expression : Expression}
    (ht : (tokenize text).significant.map Token.unplaced = ts.map Token.unplaced)
    (hf : (tokenize text).diagnostics = []) (hw : Written (.expression expression) ts)
    (hg : (Tree.expression expression).Grouped)
    (hd : expression.nesting + 2 ≤ maxNestingDepth) :
    (parse text).2 = [] ∧ ∃ read : Expression,
      (parse text).1.members = [.statement (.expression read)] ∧
        read.unplaced = expression.unplaced := by
  have hwritten : Written (.members [.statement (.expression expression)]) (ts ++ []) :=
    .members (.statementMember (.expression hw)) .noMembers
  rw [List.append_nil] at hwritten
  obtain ⟨hnone, hmembers⟩ := parse_of_tokens ht hf hwritten
    ⟨trivial, fun _ h => (Option.not_mem_none _ h).elim, trivial⟩ (by simpa using hg)
    (List.forall_mem_singleton.2 hd)
  obtain ⟨first, hfirst, hread⟩ := List.map_eq_singleton_iff.1 hmembers
  cases first with
  | function => cases hread
  | statement outer =>
    cases outer with
    | expression read =>
      exact ⟨hnone, read, hfirst, by simpa [Member.unplaced, Statement.unplaced] using hread⟩
    | _ => cases hread

/-- **Parsing undoes printing.** A tree that the syntax can express is what the parser makes of its
tokens with a space between them, but for the places, and there are no diagnostics. -/
theorem parse_printed {submission : Submission} (h : submission.Printable) :
    (parse submission.printed).2 = [] ∧
      (parse submission.printed).1.unplaced = submission.unplaced := by
  obtain ⟨htokens, hfaults⟩ := scan_spaced h.spelled 0
  rw [← submission.toList_printed] at htokens hfaults
  have hread := parseMembers_written h.written h.clear h.grouped
    h.shallow submission.endOfFile none { rest := submission.tokens } rfl
  have hstate : State.unplaced { rest := (tokenize submission.printed).significant } =
      State.unplaced { rest := submission.tokens } := by
    rw [State.unplaced, State.unplaced]
    exact congrArg (State.mk · [] none) htokens
  have hend : (tokenize submission.printed).endOfFile.unplaced = submission.endOfFile.unplaced :=
    h.endOfFile.symm ▸ rfl
  obtain ⟨hmembers, hlast, hreported⟩ := parseMembers_congr hend hstate
  rw [hread] at hmembers hlast hreported
  rw [State.reported_beyond, List.map_nil, List.map_eq_nil_iff] at hreported
  refine ⟨List.append_eq_nil_iff.2 ⟨hfaults, List.reverse_eq_nil_iff.2 hreported⟩, ?_⟩
  rw [Submission.unplaced, Submission.unplaced, h.lastToken, ← hend]
  rw [Option.or_none] at hlast
  exact congrArg₂ (Submission.mk · · _) hmembers hlast

/-- The tree of `if true { f(x, 1) } else -x * 2`. -/
def branching : Submission where
  members :=
    let x := freshToken .identifier "x"
    let one := freshToken .number "1"
    let two := freshToken .number "2"
    [.statement (.conditional (freshToken .ifKeyword "if")
      (.literal (freshToken .trueKeyword "true") (.boolean true))
      (.block (freshToken .openBrace "\x7b")
        [.expression (.call (freshToken .identifier "f") [.name x, .literal one (.integer 1)]
          (freshToken .closeParen ")"))]
        (freshToken .closeBrace "\x7d"))
      (some (.expression (.binary (.unary (freshToken .minus "-") (.name x))
        (freshToken .star "*") (.literal two (.integer 2))))))]
  lastToken := some (freshToken .number "2")
  endOfFile := freshToken .endOfFile ""

theorem printable_branching : branching.Printable where
  written :=
    .members (.statementMember (.conditionalElse rfl (.literal (.inl rfl))
      (.block rfl (.statements (.expression
        (.call rfl rfl (.expressions (.name rfl) rfl (.lastExpression
          (.literal (.inr (.inr (.inl rfl)))))) rfl)) .noStatements) rfl)
      rfl (.expression (.binary (.unary (by decide) (.name rfl)) (by decide)
        (.literal (.inr (.inr (.inl rfl)))))))) .noMembers
  spelled := by
    have htokens : branching.tokens = [freshToken .ifKeyword "if", freshToken .trueKeyword "true",
        freshToken .openBrace "\x7b", freshToken .identifier "f", freshToken .openParen "(",
        freshToken .identifier "x", freshToken .comma ",", freshToken .number "1",
        freshToken .closeParen ")", freshToken .closeBrace "\x7d", freshToken .elseKeyword "else",
        freshToken .minus "-", freshToken .identifier "x", freshToken .star "*",
        freshToken .number "2"] := by decide +kernel
    have hx : (freshToken .identifier "x").Spelled := ⟨rfl, by decide +kernel, rfl⟩
    have hf : (freshToken .identifier "f").Spelled := ⟨rfl, by decide +kernel, rfl⟩
    have hone : (freshToken .number "1").Spelled :=
      ⟨rfl, List.cons_ne_nil _ _, List.all_eq_true.1 (by decide), by decide⟩
    have htwo : (freshToken .number "2").Spelled :=
      ⟨rfl, List.cons_ne_nil _ _, List.all_eq_true.1 (by decide), by decide⟩
    have hmark : ∀ kind : Kind, kind.spelling ≠ "" → (freshToken kind kind.spelling).Spelled :=
      fun _ => spelled_mark
    rw [htokens]
    simp only [List.forall_mem_cons]
    exact ⟨hmark .ifKeyword (by decide), hmark .trueKeyword (by decide),
      hmark .openBrace (by decide), hf, hmark .openParen (by decide), hx, hmark .comma (by decide),
      hone, hmark .closeParen (by decide), hmark .closeBrace (by decide),
      hmark .elseKeyword (by decide), hmark .minus (by decide), hx, hmark .star (by decide), htwo,
      List.forall_mem_nil _⟩
  grouped := by
    change (Tree.members branching.members).Grouped
    simp [branching, Expression.IsOperand]
  shallow := by decide
  clear := by
    refine ⟨⟨rfl, ⟨trivial, by simp, trivial⟩, fun _ inner h => ?_, trivial⟩, by simp, trivial⟩
    cases h
    trivial
  lastToken := by decide +kernel
  endOfFile := rfl

theorem parse_printed_branching :
    branching.Printable ∧ branching.printed = "if true { f ( x , 1 ) } else - x * 2" ∧
      (parse branching.printed).2 = [] ∧
      (parse branching.printed).1.unplaced = branching.unplaced :=
  ⟨printable_branching, by decide +kernel, parse_printed printable_branching⟩

end ReplayShell.Syntax
