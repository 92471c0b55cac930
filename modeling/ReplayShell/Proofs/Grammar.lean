import ReplayShell.Proofs.Reading

/-!
# The grammar

What the parser accepts without a complaint is derived from its tokens by a grammar.

* `Written tree tokens` has a rule for each form of tree: the tokens that it is written with, the
  ones that the tree does not keep included.
* `Reads.covers`: what has been read without a report is written with the tokens read.
* `parse_written`: a submission parsed without diagnostics is written with all its tokens but the
  trivia.
* `Occurs` says that an expression is part of a tree.
-/
namespace ReplayShell.Syntax

/-- The tree is written with the tokens, in this order. -/
inductive Written : Tree → List Token → Prop
  | token (token : Token) : Written (.token token) [token]
  -- expressions
  | literal {token : Token} (h : token.kind = .trueKeyword ∨ token.kind = .falseKeyword ∨
        token.kind = .number ∨ token.kind = .string) :
      Written (.expression (.literal token (literalValue token))) [token]
  | name {identifier : Token} (h : identifier.kind = .identifier) :
      Written (.expression (.name identifier)) [identifier]
  | assignment {identifier equals : Token} {value : Expression} {ts : List Token}
      (hi : identifier.kind = .identifier) (he : equals.kind = .equals)
      (hv : Written (.expression value) ts) :
      Written (.expression (.assignment identifier value)) (identifier :: equals :: ts)
  | unary {operator : Token} {operand : Expression} {ts : List Token}
      (h : operator.kind.unaryPrecedence ≠ 0) (ho : Written (.expression operand) ts) :
      Written (.expression (.unary operator operand)) (operator :: ts)
  | binary {left right : Expression} {operator : Token} {ts us : List Token}
      (hl : Written (.expression left) ts) (h : operator.kind.binaryPrecedence ≠ 0)
      (hr : Written (.expression right) us) :
      Written (.expression (.binary left operator right)) (ts ++ operator :: us)
  | parenthesized {opening closing : Token} {inner : Expression} {ts : List Token}
      (ho : opening.kind = .openParen) (hi : Written (.expression inner) ts)
      (hc : closing.kind = .closeParen) :
      Written (.expression (.parenthesized opening inner closing)) (opening :: (ts ++ [closing]))
  | call {identifier opening closing : Token} {arguments : List Expression} {ts : List Token}
      (hi : identifier.kind = .identifier) (ho : opening.kind = .openParen)
      (ha : Written (.expressions arguments) ts) (hc : closing.kind = .closeParen) :
      Written (.expression (.call identifier arguments closing))
        (identifier :: opening :: (ts ++ [closing]))
  | noExpressions : Written (.expressions []) []
  | lastExpression {last : Expression} {ts : List Token} (h : Written (.expression last) ts) :
      Written (.expressions [last]) ts
  | expressions {first : Expression} {more : List Expression} {comma : Token} {ts us : List Token}
      (hf : Written (.expression first) ts) (hk : comma.kind = .comma)
      (hm : Written (.expressions more) us) :
      Written (.expressions (first :: more)) (ts ++ comma :: us)
  -- statements
  | block {opening closing : Token} {statements : List Statement} {ts : List Token}
      (ho : opening.kind = .openBrace) (hs : Written (.statements statements) ts)
      (hc : closing.kind = .closeBrace) :
      Written (.statement (.block opening statements closing)) (opening :: (ts ++ [closing]))
  | variable {keyword identifier equals : Token} {initializer : Expression} {ts : List Token}
      (hk : keyword.kind = .varKeyword ∨ keyword.kind = .letKeyword)
      (hi : identifier.kind = .identifier) (he : equals.kind = .equals)
      (hv : Written (.expression initializer) ts) :
      Written (.statement (.variable keyword identifier initializer))
        (keyword :: identifier :: equals :: ts)
  | conditionalElse {keyword otherwise : Token} {condition : Expression}
      {thenBranch elseBranch : Statement} {ts us vs : List Token} (hk : keyword.kind = .ifKeyword)
      (hc : Written (.expression condition) ts) (ht : Written (.statement thenBranch) us)
      (ho : otherwise.kind = .elseKeyword) (he : Written (.statement elseBranch) vs) :
      Written (.statement (.conditional keyword condition thenBranch (some elseBranch)))
        (keyword :: (ts ++ (us ++ otherwise :: vs)))
  | conditional {keyword : Token} {condition : Expression} {thenBranch : Statement}
      {ts us : List Token} (hk : keyword.kind = .ifKeyword)
      (hc : Written (.expression condition) ts) (ht : Written (.statement thenBranch) us) :
      Written (.statement (.conditional keyword condition thenBranch none)) (keyword :: (ts ++ us))
  | loop {keyword : Token} {condition : Expression} {body : Statement} {ts us : List Token}
      (hk : keyword.kind = .whileKeyword) (hc : Written (.expression condition) ts)
      (hb : Written (.statement body) us) :
      Written (.statement (.loop keyword condition body)) (keyword :: (ts ++ us))
  | returnNothing {keyword : Token} (hk : keyword.kind = .returnKeyword) :
      Written (.statement (.return keyword none)) [keyword]
  | return {keyword : Token} {value : Expression} {ts : List Token}
      (hk : keyword.kind = .returnKeyword) (hv : Written (.expression value) ts) :
      Written (.statement (.return keyword (some value))) (keyword :: ts)
  | expression {expression : Expression} {ts : List Token} (h : Written (.expression expression) ts) :
      Written (.statement (.expression expression)) ts
  | noStatements : Written (.statements []) []
  | statements {first : Statement} {more : List Statement} {ts us : List Token}
      (hf : Written (.statement first) ts) (hm : Written (.statements more) us) :
      Written (.statements (first :: more)) (ts ++ us)
  -- functions and members
  | noTokens : Written (.tokens []) []
  | lastToken {last : Token} (h : last.kind = .identifier) : Written (.tokens [last]) [last]
  | tokens {first comma : Token} {more : List Token} {ts : List Token}
      (h : first.kind = .identifier) (hk : comma.kind = .comma) (hm : Written (.tokens more) ts) :
      Written (.tokens (first :: more)) (first :: comma :: ts)
  | function {keyword identifier openParen closeParen opening closing : Token}
      {parameters : List Token} {body : List Statement} {ts us : List Token}
      (hk : keyword.kind = .functionKeyword) (hi : identifier.kind = .identifier)
      (ho : openParen.kind = .openParen) (hp : Written (.tokens parameters) ts)
      (hc : closeParen.kind = .closeParen) (hb : opening.kind = .openBrace)
      (hs : Written (.statements body) us) (he : closing.kind = .closeBrace) :
      Written (.function ⟨keyword, identifier, parameters, opening, body, closing⟩)
        (keyword :: identifier :: openParen :: (ts ++ closeParen :: opening :: (us ++ [closing])))
  | functionMember {declaration : FunctionDeclaration} {ts : List Token}
      (h : Written (.function declaration) ts) : Written (.member (.function declaration)) ts
  | statementMember {statement : Statement} {ts : List Token}
      (h : Written (.statement statement) ts) : Written (.member (.statement statement)) ts
  | noMembers : Written (.members []) []
  | members {first : Member} {more : List Member} {ts us : List Token}
      (hf : Written (.member first) ts) (hm : Written (.members more) us) :
      Written (.members (first :: more)) (ts ++ us)

/-- Whether a tree of this sort can be written with no token. -/
def Tree.isList : Tree → Bool
  | .tokens _ | .expressions _ | .statements _ | .members _ => true
  | _ => false

theorem Written.ne_nil {tree : Tree} {ts : List Token} (h : Written tree ts)
    (hl : tree.isList = false) : ts ≠ [] := by
  induction h with
  | noExpressions | lastExpression | expressions | noStatements | statements | noTokens
  | lastToken | tokens | noMembers | members => simp [Tree.isList] at hl
  | expression _ ih | functionMember _ ih | statementMember _ ih => exact ih rfl
  | binary => simp
  | token | literal | name | assignment | unary | parenthesized | call | block | «variable»
  | conditionalElse | conditional | loop | returnNothing | «return» | function =>
    exact List.cons_ne_nil _ _

/-- The tree is what was to be read, written with the tokens; operators come after what their left
operand is written with. -/
def Goal.Covers : Goal → Tree → List Token → Prop
  | .token kind, .token read, ts => ts = [read] ∧ read.kind = kind
  | .operators _ _ left, tree, ts =>
    ∀ us, Written (.expression left) us → Written tree (us ++ ts)
  | _, tree, ts => Written tree ts

variable {endOfFile : Token} {goal : Goal} {tree : Tree} {s s' : State}

/-- The next token, with its kind, where there is one. -/
theorem State.next_token {s : State} {kind : Kind} (endOfFile : Token) (hk : kind ≠ .endOfFile)
    (h : s.kind = kind) :
    s.rest = s.current endOfFile :: s.advance.rest ∧ (s.current endOfFile).kind = kind := by
  subst h
  exact ⟨s.rest_eq_cons endOfFile hk, s.kind_current endOfFile hk⟩

/-- The next two tokens, the second of a kind that is no end. -/
theorem State.next_tokens {s : State} {first second : Kind} (endOfFile : Token)
    (h₁ : first ≠ .endOfFile) (h₂ : second ≠ .endOfFile)
    (h : s.kind = first ∧ s.secondKind = second) :
    ∃ token, s.rest = s.current endOfFile :: token :: s.advance.advance.rest ∧
      (s.current endOfFile).kind = first ∧ token.kind = second := by
  obtain ⟨hr, hk⟩ := s.next_token endOfFile h₁ h.1
  have hsecond : s.advance.kind = second := s.kind_advance.trans h.2
  obtain ⟨hr', hk'⟩ := s.advance.next_token endOfFile h₂ hsecond
  exact ⟨s.advance.current endOfFile, by rw [← hr', ← hr], hk, hk'⟩

/-- What has been read without a report is written with the tokens read. -/
theorem Reads.covers (h : Reads endOfFile goal s tree s') (hs : s'.reported = []) :
    ∃ ts, s.rest = ts ++ s'.rest ∧ goal.Covers tree ts := by
  induction h with
  | absent | tooDeep | statementTooDeep => exact absurd hs (List.cons_ne_nil _ _)
  | unaryTooDeep _ _ hr =>
    exact absurd (hr.reported_eq_nil hs) (List.cons_ne_nil _ _)
  | found hk h =>
    obtain ⟨hr, hkind⟩ := State.next_token endOfFile hk h
    exact ⟨_, hr, rfl, hkind⟩
  | @literal depth s h =>
    have hk : s.kind ≠ .endOfFile := by rcases h with h | h | h | h <;> simp [h]
    refine ⟨[s.current endOfFile], s.rest_eq_cons endOfFile hk, .literal ?_⟩
    rwa [s.kind_current endOfFile hk]
  | enough => exact ⟨[], rfl, fun us hu => by rwa [List.append_nil]⟩
  | noArguments => exact ⟨[], rfl, .noExpressions⟩
  | noStatements => exact ⟨[], rfl, .noStatements⟩
  | noParameters => exact ⟨[], rfl, .noTokens⟩
  | operation _ _ _ ih => exact ih hs
  | name _ _ _ _ ih =>
    obtain ⟨ts, hr, rfl, hk⟩ := ih hs
    exact ⟨_, hr, .name hk⟩
  | lastArgument _ _ _ ih =>
    obtain ⟨ts, hr, hw⟩ := ih hs
    exact ⟨ts, hr, .lastExpression hw⟩
  | lastParameter _ _ _ ih =>
    obtain ⟨ts, hr, rfl, hk⟩ := ih hs
    exact ⟨_, hr, .lastToken hk⟩
  | expression _ _ _ _ _ _ _ ih =>
    obtain ⟨ts, hr, hw⟩ := ih hs
    exact ⟨ts, hr, .expression hw⟩
  | functionMember _ _ ih =>
    obtain ⟨ts, hr, hw⟩ := ih hs
    exact ⟨ts, hr, .functionMember hw⟩
  | statementMember _ _ ih =>
    obtain ⟨ts, hr, hw⟩ := ih hs
    exact ⟨ts, hr, .statementMember hw⟩
  | assignment _ h _ ih =>
    obtain ⟨equals, hr, hi, he⟩ := State.next_tokens endOfFile (by decide) (by decide) h
    obtain ⟨ts, hr', hw⟩ := ih hs
    exact ⟨_ :: equals :: ts, by rw [hr, hr']; rfl, .assignment hi he hw⟩
  | @unary depth parent s s₁ s' operand whole h _ ho hr ihOperand ihRest =>
    have hk : s.kind ≠ .endOfFile := fun hk => h.1 (by rw [hk]; rfl)
    obtain ⟨ts, hts, hw⟩ := ihOperand (hr.reported_eq_nil hs)
    obtain ⟨us, hus, hw'⟩ := ihRest hs
    refine ⟨s.current endOfFile :: ts ++ us, ?_, hw' _ (.unary ?_ hw)⟩
    · rw [s.rest_eq_cons endOfFile hk, hts, hus, List.cons_append, List.cons_append,
        List.append_assoc]
    · rw [s.kind_current endOfFile hk]
      exact h.1
  | operand _ hl hr ihLeft ihRest =>
    obtain ⟨ts, hts, hw⟩ := ihLeft (hr.reported_eq_nil hs)
    obtain ⟨us, hus, hw'⟩ := ihRest hs
    exact ⟨ts ++ us, by rw [hts, hus, List.append_assoc], hw' ts hw⟩
  | @binary depth parent left right whole s s₁ s' h ho hr ihRight ihRest =>
    have hb : s.kind.binaryPrecedence ≠ 0 := fun hb => h (.inl hb)
    have hk : s.kind ≠ .endOfFile := fun hk => hb (by rw [hk]; rfl)
    obtain ⟨ts, hts, hw⟩ := ihRight (hr.reported_eq_nil hs)
    obtain ⟨us, hus, hw'⟩ := ihRest hs
    refine ⟨s.current endOfFile :: ts ++ us, ?_, fun vs hv => ?_⟩
    · rw [s.rest_eq_cons endOfFile hk, hts, hus, List.cons_append, List.cons_append,
        List.append_assoc]
    · rw [← List.append_assoc]
      refine hw' _ (.binary hv ?_ hw)
      rw [s.kind_current endOfFile hk]
      exact hb
  | parenthesized h hi hc ihInner ihClosing =>
    obtain ⟨hr, ho⟩ := State.next_token endOfFile (by decide) h
    obtain ⟨ts, hts, hw⟩ := ihInner (hc.reported_eq_nil hs)
    obtain ⟨us, hus, rfl, hk⟩ := ihClosing hs
    exact ⟨_ :: (ts ++ [_]), by rw [hr, hts, hus]; simp, .parenthesized ho hw hk⟩
  | call h ha hc ihArguments ihClosing =>
    obtain ⟨opening, hr, hi, ho⟩ := State.next_tokens endOfFile (by decide) (by decide) h
    obtain ⟨ts, hts, hw⟩ := ihArguments (hc.reported_eq_nil hs)
    obtain ⟨us, hus, rfl, hk⟩ := ihClosing hs
    exact ⟨_ :: opening :: (ts ++ [_]), by rw [hr, hts, hus]; simp, .call hi ho hw hk⟩
  | argument _ he hk hm ihFirst ihMore =>
    obtain ⟨hr, hc⟩ := State.next_token endOfFile (by decide) hk
    obtain ⟨us, hus, hw'⟩ := ihMore hs
    obtain ⟨ts, hts, hw⟩ := ihFirst (by simpa using hm.reported_eq_nil hs)
    exact ⟨ts ++ _ :: us, by rw [hts, hr, hus]; simp, .expressions hw hc hw'⟩
  | block _ h hst hc ihStatements ihClosing =>
    obtain ⟨hr, ho⟩ := State.next_token endOfFile (by decide) h
    obtain ⟨ts, hts, hw⟩ := ihStatements (hc.reported_eq_nil hs)
    obtain ⟨us, hus, rfl, hk⟩ := ihClosing hs
    exact ⟨_ :: (ts ++ [_]), by rw [hr, hts, hus]; simp, .block ho hw hk⟩
  | @«variable» depth s s₁ s₂ s' identifier equals initializer _ h hi he hv ihName ihEquals
      ihValue =>
    have hk : s.kind ≠ .endOfFile := by rcases h with h | h <;> simp [h]
    have hs₂ := hv.reported_eq_nil hs
    obtain ⟨ts, hts, rfl, hn⟩ := ihName (he.reported_eq_nil hs₂)
    obtain ⟨us, hus, rfl, heq⟩ := ihEquals hs₂
    obtain ⟨vs, hvs, hw⟩ := ihValue hs
    refine ⟨s.current endOfFile :: identifier :: equals :: vs, ?_, .variable ?_ hn heq hw⟩
    · rw [s.rest_eq_cons endOfFile hk, hts, hus, hvs]
      rfl
    · rwa [s.kind_current endOfFile hk]
  | @conditionalElse depth s s₁ s₂ s' condition thenBranch elseBranch _ h hc ht hk he ihCondition
      ihThen ihElse =>
    obtain ⟨hr, hi⟩ := State.next_token endOfFile (by decide) h
    obtain ⟨hr', ho⟩ := State.next_token endOfFile (by decide) hk
    have hs₂ : s₂.reported = [] := by simpa using he.reported_eq_nil hs
    obtain ⟨ts, hts, hw⟩ := ihCondition (ht.reported_eq_nil hs₂)
    obtain ⟨us, hus, hw'⟩ := ihThen hs₂
    obtain ⟨vs, hvs, hw''⟩ := ihElse hs
    exact ⟨_ :: (ts ++ (us ++ _ :: vs)), by rw [hr, hts, hus, hr', hvs]; simp,
      .conditionalElse hi hw hw' ho hw''⟩
  | conditional _ h hc ht hk ihCondition ihThen =>
    obtain ⟨hr, hi⟩ := State.next_token endOfFile (by decide) h
    obtain ⟨ts, hts, hw⟩ := ihCondition (ht.reported_eq_nil hs)
    obtain ⟨us, hus, hw'⟩ := ihThen hs
    exact ⟨_ :: (ts ++ us), by rw [hr, hts, hus]; simp, .conditional hi hw hw'⟩
  | loop _ h hc hb ihCondition ihBody =>
    obtain ⟨hr, hi⟩ := State.next_token endOfFile (by decide) h
    obtain ⟨ts, hts, hw⟩ := ihCondition (hb.reported_eq_nil hs)
    obtain ⟨us, hus, hw'⟩ := ihBody hs
    exact ⟨_ :: (ts ++ us), by rw [hr, hts, hus]; simp, .loop hi hw hw'⟩
  | returnNothing _ h _ =>
    obtain ⟨hr, hi⟩ := State.next_token endOfFile (by decide) h
    exact ⟨_, hr, .returnNothing hi⟩
  | «return» _ h _ hv ih =>
    obtain ⟨hr, hi⟩ := State.next_token endOfFile (by decide) h
    obtain ⟨ts, hts, hw⟩ := ih hs
    exact ⟨_ :: ts, by rw [hr, hts]; rfl, .return hi hw⟩
  | @statements depth s s₁ s' first more _ hf hm ihFirst ihMore =>
    have hs₁ : s₁.reported = [] := by simpa using hm.reported_eq_nil hs
    obtain ⟨ts, hts, hw⟩ := ihFirst hs₁
    obtain ⟨us, hus, hw'⟩ := ihMore hs
    have hne := hw.ne_nil rfl
    -- A statement without a report has read a token, so none is skipped.
    have hstuck : s.skipIfStuck s₁ = s₁ := by
      refine if_neg fun hlen => hne (List.length_eq_zero_iff.1 ?_)
      rw [hts, List.length_append] at hlen
      omega
    rw [hstuck] at hus
    exact ⟨ts ++ us, by rw [hts, hus, List.append_assoc], .statements hw hw'⟩
  | parameter _ hi hk hm ihFirst ihMore =>
    obtain ⟨hr, hc⟩ := State.next_token endOfFile (by decide) hk
    obtain ⟨us, hus, hw'⟩ := ihMore hs
    obtain ⟨ts, hts, rfl, hn⟩ := ihFirst (by simpa using hm.reported_eq_nil hs)
    exact ⟨_ :: _ :: us, by rw [hts, hr, hus]; rfl, .tokens hn hc hw'⟩
  | function hk hi ho hp hc hb hst he ihKeyword ihName ihOpen ihParameters ihClose ihOpening ihBody
      ihClosing =>
    have h₇ := he.reported_eq_nil hs
    have h₆ := hst.reported_eq_nil h₇
    have h₅ := hb.reported_eq_nil h₆
    have h₄ := hc.reported_eq_nil h₅
    have h₃ := hp.reported_eq_nil h₄
    have h₂ := ho.reported_eq_nil h₃
    obtain ⟨_, e₁, rfl, k₁⟩ := ihKeyword (hi.reported_eq_nil h₂)
    obtain ⟨_, e₂, rfl, k₂⟩ := ihName h₂
    obtain ⟨_, e₃, rfl, k₃⟩ := ihOpen h₃
    obtain ⟨ts, e₄, hw⟩ := ihParameters h₄
    obtain ⟨_, e₅, rfl, k₅⟩ := ihClose h₅
    obtain ⟨_, e₆, rfl, k₆⟩ := ihOpening h₆
    obtain ⟨us, e₇, hw'⟩ := ihBody h₇
    obtain ⟨_, e₈, rfl, k₈⟩ := ihClosing hs
    refine ⟨_, ?_, .function k₁ k₂ k₃ hw k₅ k₆ hw' k₈⟩
    rw [e₁, e₂, e₃, e₄, e₅, e₆, e₇, e₈]
    simp

/-- Members parsed without a report are written with all the tokens that were left. -/
theorem written_parseMembers (lastToken : Option Token) (s : State)
    (h : (parseMembers endOfFile lastToken s).2.2.reported = []) :
    s.reported = [] ∧ Written (.members (parseMembers endOfFile lastToken s).1) s.rest := by
  induction lastToken, s using parseMembers.induct endOfFile with
  | case1 lastToken s hr =>
    rw [parseMembers, dif_pos hr] at h ⊢
    rw [hr]
    exact ⟨h, .noMembers⟩
  | case2 lastToken s hr member s₁ le hm _ _ _ _ _ ih =>
    obtain ⟨rfl, rfl⟩ := Parsed.parts hm
    rw [parseMembers, dif_neg hr] at h ⊢
    dsimp only at h ⊢
    obtain ⟨hs₁, more⟩ := ih h
    rw [State.skipIfStuck_reported] at hs₁
    have first := reads_member endOfFile s
    obtain ⟨ts, hts, hw⟩ := first.covers hs₁
    have hne := hw.ne_nil rfl
    have hstuck : s.skipIfStuck (parseMember endOfFile s).state =
        (parseMember endOfFile s).state := by
      refine if_neg fun hlen => hne (List.length_eq_zero_iff.1 ?_)
      rw [hts, List.length_append] at hlen
      omega
    rw [hstuck] at more ⊢
    rw [hts]
    exact ⟨first.reported_eq_nil hs₁, .members hw more⟩

/-- A submission without diagnostics is written with all its tokens but the trivia. -/
theorem parse_written {text : String} (h : (parse text).2 = []) :
    Written (.members (parse text).1.members) (tokenize text).significant := by
  have hr := (List.append_eq_nil_iff.1 h).2
  exact (written_parseMembers none _ (List.reverse_eq_nil_iff.1 hr)).2

/-- It has no faulty token either. -/
theorem tokenize_diagnostics_of_parse {text : String} (h : (parse text).2 = []) :
    (tokenize text).diagnostics = [] :=
  (List.append_eq_nil_iff.1 h).1

/-- No token of a text is missing. -/
theorem present_of_mem_significant {text : String} {token : Token}
    (h : token ∈ (tokenize text).significant) : token.missing = false := by
  have present : ∀ (pieces : List Lexeme) (position : Nat), ∀ token ∈ layOut position pieces,
      token.missing = false := by
    intro pieces
    induction pieces with
    | nil => exact fun _ _ h => absurd h List.not_mem_nil
    | cons lexeme rest ih =>
      intro position token h
      rcases List.mem_cons.1 h with rfl | h
      · rfl
      · exact ih _ token h
  exact present _ _ token (List.mem_filter.1 h).1

/-! ## Parts of trees -/

/-- The expression is the tree or a part of it. -/
inductive Occurs (expression : Expression) : Tree → Prop
  | self : Occurs expression (.expression expression)
  | assignment {identifier : Token} {value : Expression} (h : Occurs expression (.expression value)) :
      Occurs expression (.expression (.assignment identifier value))
  | unary {operator : Token} {operand : Expression} (h : Occurs expression (.expression operand)) :
      Occurs expression (.expression (.unary operator operand))
  | binaryLeft {left right : Expression} {operator : Token}
      (h : Occurs expression (.expression left)) :
      Occurs expression (.expression (.binary left operator right))
  | binaryRight {left right : Expression} {operator : Token}
      (h : Occurs expression (.expression right)) :
      Occurs expression (.expression (.binary left operator right))
  | parenthesized {opening closing : Token} {inner : Expression}
      (h : Occurs expression (.expression inner)) :
      Occurs expression (.expression (.parenthesized opening inner closing))
  | argument {identifier closing : Token} {arguments : List Expression}
      (h : Occurs expression (.expressions arguments)) :
      Occurs expression (.expression (.call identifier arguments closing))
  | firstExpression {first : Expression} {more : List Expression}
      (h : Occurs expression (.expression first)) : Occurs expression (.expressions (first :: more))
  | moreExpressions {first : Expression} {more : List Expression}
      (h : Occurs expression (.expressions more)) : Occurs expression (.expressions (first :: more))
  | block {opening closing : Token} {statements : List Statement}
      (h : Occurs expression (.statements statements)) :
      Occurs expression (.statement (.block opening statements closing))
  | initializer {keyword identifier : Token} {initializer : Expression}
      (h : Occurs expression (.expression initializer)) :
      Occurs expression (.statement (.variable keyword identifier initializer))
  | condition {keyword : Token} {condition : Expression} {thenBranch : Statement}
      {elseBranch : Option Statement} (h : Occurs expression (.expression condition)) :
      Occurs expression (.statement (.conditional keyword condition thenBranch elseBranch))
  | thenBranch {keyword : Token} {condition : Expression} {thenBranch : Statement}
      {elseBranch : Option Statement} (h : Occurs expression (.statement thenBranch)) :
      Occurs expression (.statement (.conditional keyword condition thenBranch elseBranch))
  | elseBranch {keyword : Token} {condition : Expression} {thenBranch elseBranch : Statement}
      (h : Occurs expression (.statement elseBranch)) :
      Occurs expression (.statement (.conditional keyword condition thenBranch (some elseBranch)))
  | loopCondition {keyword : Token} {condition : Expression} {body : Statement}
      (h : Occurs expression (.expression condition)) :
      Occurs expression (.statement (.loop keyword condition body))
  | loopBody {keyword : Token} {condition : Expression} {body : Statement}
      (h : Occurs expression (.statement body)) :
      Occurs expression (.statement (.loop keyword condition body))
  | returned {keyword : Token} {value : Expression} (h : Occurs expression (.expression value)) :
      Occurs expression (.statement (.return keyword (some value)))
  | evaluated {evaluated : Expression} (h : Occurs expression (.expression evaluated)) :
      Occurs expression (.statement (.expression evaluated))
  | firstStatement {first : Statement} {more : List Statement}
      (h : Occurs expression (.statement first)) : Occurs expression (.statements (first :: more))
  | moreStatements {first : Statement} {more : List Statement}
      (h : Occurs expression (.statements more)) : Occurs expression (.statements (first :: more))
  | body {declaration : FunctionDeclaration} (h : Occurs expression (.statements declaration.body)) :
      Occurs expression (.function declaration)
  | functionMember {declaration : FunctionDeclaration} (h : Occurs expression (.function declaration)) :
      Occurs expression (.member (.function declaration))
  | statementMember {statement : Statement} (h : Occurs expression (.statement statement)) :
      Occurs expression (.member (.statement statement))
  | member {member : Member} {members : List Member} (hm : member ∈ members)
      (h : Occurs expression (.member member)) : Occurs expression (.members members)

/-- Each of written members is written with some of the tokens. -/
theorem written_of_mem {members : List Member} {ts : List Token} {member : Member}
    (h : Written (.members members) ts) (hm : member ∈ members) :
    ∃ us, us.Sublist ts ∧ Written (.member member) us := by
  induction members generalizing ts with
  | nil => exact absurd hm List.not_mem_nil
  | cons first more ih =>
    cases h with
    | members hf hmore =>
      rcases List.mem_cons.1 hm with rfl | hm
      · exact ⟨_, List.sublist_append_left _ _, hf⟩
      · obtain ⟨us, hsub, hw⟩ := ih hmore hm
        exact ⟨us, hsub.trans (List.sublist_append_right _ _), hw⟩

end ReplayShell.Syntax
