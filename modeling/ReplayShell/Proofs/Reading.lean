import ReplayShell.Syntax.Parser

/-!
# What the parser does, as a relation

The parser is a family of functions. Here they are one relation with a rule for every branch, so
that a property of all of them is one induction over the rules.

* `Goal` says what is to be read, `Tree` is what has been read.
* `Reads` relates a goal and a state to a tree and the state afterwards.
* `reads_expressions`, `reads_statements` and their companions: the functions do what the rules
  say.
-/
namespace ReplayShell.Syntax

/-- What the parser can be asked to read. -/
inductive Goal where
  | token (kind : Kind)
  | expression (depth : Nat)
  | binary (depth parent : Nat)
  /-- The operators after a left operand. -/
  | operators (depth parent : Nat) (left : Expression)
  | primary (depth : Nat)
  | arguments (depth : Nat)
  | statement (depth : Nat)
  | statements (depth : Nat)
  | parameters
  | function
  | member

/-- What the parser gives back. -/
inductive Tree where
  | token (token : Token)
  | tokens (tokens : List Token)
  | expression (expression : Expression)
  | expressions (expressions : List Expression)
  | statement (statement : Statement)
  | statements (statements : List Statement)
  | function (declaration : FunctionDeclaration)
  | member (member : Member)
  | members (members : List Member)

section
variable (endOfFile : Token)

/-- One rule for each branch of the parser. -/
inductive Reads : Goal → State → Tree → State → Prop
  -- tokens
  | found {kind : Kind} {s : State} (hk : kind ≠ .endOfFile) (h : s.kind = kind) :
      Reads (.token kind) s (.token (s.current endOfFile)) s.advance
  | absent {kind : Kind} {s : State} (h : s.kind ≠ kind) :
      Reads (.token kind) s
        (.token (synthesize endOfFile
          (.unexpectedToken (s.current endOfFile).kind kind) kind s).value)
        (synthesize endOfFile (.unexpectedToken (s.current endOfFile).kind kind) kind s).state
  -- expressions
  | tooDeep {depth : Nat} {s : State} (hd : maxNestingDepth ≤ depth) :
      Reads (.expression depth) s (.expression (tooDeep endOfFile s).value)
        (tooDeep endOfFile s).state
  | assignment {depth : Nat} {s s' : State} {value : Expression} (hd : ¬maxNestingDepth ≤ depth)
      (h : s.kind = .identifier ∧ s.secondKind = .equals)
      (hv : Reads (.expression (depth + 1)) s.advance.advance (.expression value) s') :
      Reads (.expression depth) s (.expression (.assignment (s.current endOfFile) value)) s'
  | operation {depth : Nat} {s s' : State} {expression : Expression}
      (hd : ¬maxNestingDepth ≤ depth) (h : ¬(s.kind = .identifier ∧ s.secondKind = .equals))
      (hb : Reads (.binary (depth + 1) 0) s (.expression expression) s') :
      Reads (.expression depth) s (.expression expression) s'
  | unary {depth parent : Nat} {s s₁ s' : State} {operand whole : Expression}
      (h : s.kind.unaryPrecedence ≠ 0 ∧ parent ≤ s.kind.unaryPrecedence)
      (hd : ¬maxNestingDepth ≤ depth)
      (ho : Reads (.binary (depth + 1) s.kind.unaryPrecedence) s.advance (.expression operand) s₁)
      (hr : Reads (.operators depth parent (.unary (s.current endOfFile) operand)) s₁
        (.expression whole) s') :
      Reads (.binary depth parent) s (.expression whole) s'
  | unaryTooDeep {depth parent : Nat} {s s' : State} {whole : Expression}
      (h : s.kind.unaryPrecedence ≠ 0 ∧ parent ≤ s.kind.unaryPrecedence)
      (hd : maxNestingDepth ≤ depth)
      (hr : Reads (.operators depth parent
          (.unary (s.current endOfFile) (Syntax.tooDeep endOfFile s.advance).value))
        (Syntax.tooDeep endOfFile s.advance).state (.expression whole) s') :
      Reads (.binary depth parent) s (.expression whole) s'
  | operand {depth parent : Nat} {s s₁ s' : State} {left whole : Expression}
      (h : ¬(s.kind.unaryPrecedence ≠ 0 ∧ parent ≤ s.kind.unaryPrecedence))
      (hl : Reads (.primary depth) s (.expression left) s₁)
      (hr : Reads (.operators depth parent left) s₁ (.expression whole) s') :
      Reads (.binary depth parent) s (.expression whole) s'
  | enough {depth parent : Nat} {left : Expression} {s : State}
      (h : s.kind.binaryPrecedence = 0 ∨ s.kind.binaryPrecedence ≤ parent) :
      Reads (.operators depth parent left) s (.expression left) s
  | binary {depth parent : Nat} {left right whole : Expression} {s s₁ s' : State}
      (h : ¬(s.kind.binaryPrecedence = 0 ∨ s.kind.binaryPrecedence ≤ parent))
      (ho : Reads (.binary depth s.kind.binaryPrecedence) s.advance (.expression right) s₁)
      (hr : Reads (.operators depth parent (.binary left (s.current endOfFile) right)) s₁
        (.expression whole) s') :
      Reads (.operators depth parent left) s (.expression whole) s'
  | parenthesized {depth : Nat} {s s₁ s' : State} {inner : Expression} {closing : Token}
      (h : s.kind = .openParen)
      (hi : Reads (.expression depth) s.advance (.expression inner) s₁)
      (hc : Reads (.token .closeParen) s₁ (.token closing) s') :
      Reads (.primary depth) s
        (.expression (.parenthesized (s.current endOfFile) inner closing)) s'
  | literal {depth : Nat} {s : State}
      (h : s.kind = .trueKeyword ∨ s.kind = .falseKeyword ∨ s.kind = .number ∨ s.kind = .string) :
      Reads (.primary depth) s
        (.expression (.literal (s.current endOfFile) (literalValue (s.current endOfFile))))
        s.advance
  | call {depth : Nat} {s s₁ s' : State} {arguments : List Expression} {closing : Token}
      (h : s.kind = .identifier ∧ s.secondKind = .openParen)
      (ha : Reads (.arguments depth) s.advance.advance (.expressions arguments) s₁)
      (hc : Reads (.token .closeParen) s₁ (.token closing) s') :
      Reads (.primary depth) s (.expression (.call (s.current endOfFile) arguments closing)) s'
  | name {depth : Nat} {s s' : State} {identifier : Token} (hp : s.kind ≠ .openParen)
      (hl : ¬(s.kind = .trueKeyword ∨ s.kind = .falseKeyword ∨ s.kind = .number ∨
        s.kind = .string))
      (hc : ¬(s.kind = .identifier ∧ s.secondKind = .openParen))
      (hi : Reads (.token .identifier) s (.token identifier) s') :
      Reads (.primary depth) s (.expression (.name identifier)) s'
  | noArguments {depth : Nat} {s : State} (h : s.kind = .closeParen ∨ s.kind = .endOfFile) :
      Reads (.arguments depth) s (.expressions []) s
  | lastArgument {depth : Nat} {s s' : State} {last : Expression}
      (h : ¬(s.kind = .closeParen ∨ s.kind = .endOfFile))
      (he : Reads (.expression depth) s (.expression last) s') (hk : s'.kind ≠ .comma) :
      Reads (.arguments depth) s (.expressions [last]) s'
  | argument {depth : Nat} {s s₁ s' : State} {first : Expression} {more : List Expression}
      (h : ¬(s.kind = .closeParen ∨ s.kind = .endOfFile))
      (he : Reads (.expression depth) s (.expression first) s₁) (hk : s₁.kind = .comma)
      (hm : Reads (.arguments depth) s₁.advance (.expressions more) s') :
      Reads (.arguments depth) s (.expressions (first :: more)) s'
  -- statements
  | statementTooDeep {depth : Nat} {s : State} (hd : maxNestingDepth ≤ depth) :
      Reads (.statement depth) s (.statement (.expression (Syntax.tooDeep endOfFile s).value))
        (Syntax.tooDeep endOfFile s).state
  | block {depth : Nat} {s s₁ s' : State} {statements : List Statement} {closing : Token}
      (hd : ¬maxNestingDepth ≤ depth) (h : s.kind = .openBrace)
      (hs : Reads (.statements (depth + 1)) s.advance (.statements statements) s₁)
      (hc : Reads (.token .closeBrace) s₁ (.token closing) s') :
      Reads (.statement depth) s (.statement (.block (s.current endOfFile) statements closing)) s'
  | variable {depth : Nat} {s s₁ s₂ s' : State} {identifier equals : Token}
      {initializer : Expression} (hd : ¬maxNestingDepth ≤ depth)
      (h : s.kind = .varKeyword ∨ s.kind = .letKeyword)
      (hi : Reads (.token .identifier) s.advance (.token identifier) s₁)
      (he : Reads (.token .equals) s₁ (.token equals) s₂)
      (hv : Reads (.expression (depth + 1)) s₂ (.expression initializer) s') :
      Reads (.statement depth) s
        (.statement (.variable (s.current endOfFile) identifier initializer)) s'
  | conditionalElse {depth : Nat} {s s₁ s₂ s' : State} {condition : Expression}
      {thenBranch elseBranch : Statement} (hd : ¬maxNestingDepth ≤ depth) (h : s.kind = .ifKeyword)
      (hc : Reads (.expression (depth + 1)) s.advance (.expression condition) s₁)
      (ht : Reads (.statement (depth + 1)) s₁ (.statement thenBranch) s₂)
      (hk : s₂.kind = .elseKeyword)
      (he : Reads (.statement (depth + 1)) s₂.advance (.statement elseBranch) s') :
      Reads (.statement depth) s
        (.statement (.conditional (s.current endOfFile) condition thenBranch (some elseBranch))) s'
  | conditional {depth : Nat} {s s₁ s' : State} {condition : Expression} {thenBranch : Statement}
      (hd : ¬maxNestingDepth ≤ depth) (h : s.kind = .ifKeyword)
      (hc : Reads (.expression (depth + 1)) s.advance (.expression condition) s₁)
      (ht : Reads (.statement (depth + 1)) s₁ (.statement thenBranch) s')
      (hk : s'.kind ≠ .elseKeyword) :
      Reads (.statement depth) s
        (.statement (.conditional (s.current endOfFile) condition thenBranch none)) s'
  | loop {depth : Nat} {s s₁ s' : State} {condition : Expression} {body : Statement}
      (hd : ¬maxNestingDepth ≤ depth) (h : s.kind = .whileKeyword)
      (hc : Reads (.expression (depth + 1)) s.advance (.expression condition) s₁)
      (hb : Reads (.statement (depth + 1)) s₁ (.statement body) s') :
      Reads (.statement depth) s (.statement (.loop (s.current endOfFile) condition body)) s'
  | returnNothing {depth : Nat} {s : State} (hd : ¬maxNestingDepth ≤ depth)
      (h : s.kind = .returnKeyword)
      (hk : s.secondKind = .closeBrace ∨ s.secondKind = .endOfFile) :
      Reads (.statement depth) s (.statement (.return (s.current endOfFile) none)) s.advance
  | return {depth : Nat} {s s' : State} {value : Expression} (hd : ¬maxNestingDepth ≤ depth)
      (h : s.kind = .returnKeyword)
      (hk : ¬(s.secondKind = .closeBrace ∨ s.secondKind = .endOfFile))
      (hv : Reads (.expression (depth + 1)) s.advance (.expression value) s') :
      Reads (.statement depth) s (.statement (.return (s.current endOfFile) (some value))) s'
  | expression {depth : Nat} {s s' : State} {expression : Expression}
      (hd : ¬maxNestingDepth ≤ depth) (hb : s.kind ≠ .openBrace)
      (hv : ¬(s.kind = .varKeyword ∨ s.kind = .letKeyword)) (hi : s.kind ≠ .ifKeyword)
      (hw : s.kind ≠ .whileKeyword) (hr : s.kind ≠ .returnKeyword)
      (he : Reads (.expression (depth + 1)) s (.expression expression) s') :
      Reads (.statement depth) s (.statement (.expression expression)) s'
  | noStatements {depth : Nat} {s : State} (h : s.kind = .closeBrace ∨ s.kind = .endOfFile) :
      Reads (.statements depth) s (.statements []) s
  | statements {depth : Nat} {s s₁ s' : State} {first : Statement} {more : List Statement}
      (h : ¬(s.kind = .closeBrace ∨ s.kind = .endOfFile))
      (hf : Reads (.statement depth) s (.statement first) s₁)
      (hm : Reads (.statements depth) (s.skipIfStuck s₁) (.statements more) s') :
      Reads (.statements depth) s (.statements (first :: more)) s'
  -- functions and members
  | noParameters {s : State} (h : s.kind = .closeParen ∨ s.kind = .endOfFile) :
      Reads .parameters s (.tokens []) s
  | lastParameter {s s' : State} {last : Token}
      (h : ¬(s.kind = .closeParen ∨ s.kind = .endOfFile))
      (hi : Reads (.token .identifier) s (.token last) s') (hk : s'.kind ≠ .comma) :
      Reads .parameters s (.tokens [last]) s'
  | parameter {s s₁ s' : State} {first : Token} {more : List Token}
      (h : ¬(s.kind = .closeParen ∨ s.kind = .endOfFile))
      (hi : Reads (.token .identifier) s (.token first) s₁) (hk : s₁.kind = .comma)
      (hm : Reads .parameters s₁.advance (.tokens more) s') :
      Reads .parameters s (.tokens (first :: more)) s'
  | function {s s₁ s₂ s₃ s₄ s₅ s₆ s₇ s' : State}
      {keyword identifier openParen closeParen opening closing : Token} {parameters : List Token}
      {body : List Statement}
      (hk : Reads (.token .functionKeyword) s (.token keyword) s₁)
      (hi : Reads (.token .identifier) s₁ (.token identifier) s₂)
      (ho : Reads (.token .openParen) s₂ (.token openParen) s₃)
      (hp : Reads .parameters s₃ (.tokens parameters) s₄)
      (hc : Reads (.token .closeParen) s₄ (.token closeParen) s₅)
      (hb : Reads (.token .openBrace) s₅ (.token opening) s₆)
      (hs : Reads (.statements 0) s₆ (.statements body) s₇)
      (he : Reads (.token .closeBrace) s₇ (.token closing) s') :
      Reads .function s (.function ⟨keyword, identifier, parameters, opening, body, closing⟩) s'
  | functionMember {s s' : State} {declaration : FunctionDeclaration}
      (h : s.kind = .functionKeyword) (hf : Reads .function s (.function declaration) s') :
      Reads .member s (.member (.function declaration)) s'
  | statementMember {s s' : State} {statement : Statement} (h : s.kind ≠ .functionKeyword)
      (hs : Reads (.statement 0) s (.statement statement) s') :
      Reads .member s (.member (.statement statement)) s'

/-! ## The functions follow the rules -/

theorem reads_token {kind : Kind} (hk : kind ≠ .endOfFile) (s : State) :
    Reads endOfFile (.token kind) s (.token (expect endOfFile kind s).value)
      (expect endOfFile kind s).state := by
  unfold expect
  by_cases h : s.kind = kind
  · rw [if_pos h]
    exact .found hk h
  · rw [if_neg h]
    exact .absent h

/-- A result taken apart is its own parts. -/
theorem Parsed.parts {s s' : State} {α : Type} {parsed : Parsed s α} {value : α}
    {le : s'.rest.length ≤ s.rest.length} (h : parsed = ⟨value, s', le⟩) :
    value = parsed.value ∧ s' = parsed.state := by
  subst h
  exact ⟨rfl, rfl⟩

/-- The parser of expressions and its companions. -/
theorem reads_expressions :
    (∀ depth s, Reads endOfFile (.expression depth) s
        (.expression (parseExpression endOfFile depth s).value)
        (parseExpression endOfFile depth s).state) ∧
      (∀ depth parent s, Reads endOfFile (.binary depth parent) s
        (.expression (parseBinary endOfFile depth parent s).value)
        (parseBinary endOfFile depth parent s).state) ∧
      (∀ depth s, Reads endOfFile (.primary depth) s
        (.expression (parsePrimary endOfFile depth s).value)
        (parsePrimary endOfFile depth s).state) ∧
      (∀ depth s, Reads endOfFile (.arguments depth) s
        (.expressions (parseArguments endOfFile depth s).value)
        (parseArguments endOfFile depth s).state) ∧
      (∀ depth parent left s, Reads endOfFile (.operators depth parent left) s
        (.expression (parseOperators endOfFile depth parent left s).value)
        (parseOperators endOfFile depth parent left s).state) := by
  apply parseExpression.mutual_induct endOfFile
  case case1 =>
    intro depth s hd
    rw [parseExpression, if_pos hd]
    exact .tooDeep hd
  case case2 =>
    intro depth s hd h _ _ value s₁ _ _ ih
    rw [parseExpression, if_neg hd, dif_pos h]
    exact .assignment hd h ih
  case case3 =>
    intro depth s hd h ih
    rw [parseExpression, if_neg hd, dif_neg h]
    exact .operation hd h ih
  case case4 =>
    intro depth parent s h _ operand s₁ _ ho ihOperand ihRest
    rw [parseBinary, dif_pos h]
    dsimp only
    generalize hp : (if maxNestingDepth ≤ depth then tooDeep endOfFile s.advance
      else parseBinary endOfFile (depth + 1) s.kind.unaryPrecedence s.advance) = parsed
    by_cases hd : maxNestingDepth ≤ depth
    · rw [dif_pos hd] at ho
      rw [if_pos hd] at hp
      obtain ⟨rfl, rfl⟩ := Parsed.parts ho
      subst hp
      exact .unaryTooDeep h hd ihRest
    · rw [dif_neg hd] at ho
      rw [if_neg hd] at hp
      obtain ⟨rfl, rfl⟩ := Parsed.parts ho
      subst hp
      exact .unary h hd ihOperand ihRest
  case case5 =>
    intro depth parent s h left s₁ _ hl ihLeft ihRest
    obtain ⟨rfl, rfl⟩ := Parsed.parts hl
    rw [parseBinary, dif_neg h]
    exact .operand h ihLeft ihRest
  case case6 =>
    intro depth s h _ inner s₁ _ hi _ _ _ _ ih
    obtain ⟨rfl, rfl⟩ := Parsed.parts hi
    rw [parsePrimary, dif_pos h]
    exact .parenthesized h ih (reads_token endOfFile (by decide) _)
  case case7 =>
    intro depth s hp h
    rw [parsePrimary, dif_neg hp, if_pos h]
    exact .literal h
  case case8 =>
    intro depth s hp hl h _ _ arguments s₁ _ ha _ _ _ _ ih
    obtain ⟨rfl, rfl⟩ := Parsed.parts ha
    rw [parsePrimary, dif_neg hp, if_neg hl, dif_pos h]
    exact .call h ih (reads_token endOfFile (by decide) _)
  case case9 =>
    intro depth s hp hl hc _ _ _ _
    rw [parsePrimary, dif_neg hp, if_neg hl, dif_neg hc]
    exact .name hp hl hc (reads_token endOfFile (by decide) s)
  case case10 =>
    intro depth s h
    rw [parseArguments, if_pos h]
    exact .noArguments h
  case case11 =>
    intro depth s h first s₁ _ hf hk _ _ _ _ _ ihFirst ihMore
    obtain ⟨rfl, rfl⟩ := Parsed.parts hf
    rw [parseArguments, if_neg h]
    simp only [dif_pos hk]
    exact .argument h ihFirst hk ihMore
  case case12 =>
    intro depth s h last s₁ _ hf hk ih
    obtain ⟨rfl, rfl⟩ := Parsed.parts hf
    rw [parseArguments, if_neg h]
    simp only [dif_neg hk]
    exact .lastArgument h ih hk
  case case13 =>
    intro depth parent left s h
    rw [parseOperators, dif_pos h]
    exact .enough h
  case case14 =>
    intro depth parent left s h _ right s₁ _ ho ihRight ihRest
    obtain ⟨rfl, rfl⟩ := Parsed.parts ho
    rw [parseOperators, dif_neg h]
    exact .binary h ihRight ihRest

theorem reads_expression (depth : Nat) (s : State) :
    Reads endOfFile (.expression depth) s (.expression (parseExpression endOfFile depth s).value)
      (parseExpression endOfFile depth s).state :=
  (reads_expressions endOfFile).1 depth s

/-- The parser of statements and its companion. -/
theorem reads_statements :
    (∀ depth s, Reads endOfFile (.statement depth) s
        (.statement (parseStatement endOfFile depth s).value)
        (parseStatement endOfFile depth s).state) ∧
      (∀ depth s, Reads endOfFile (.statements depth) s
        (.statements (parseStatements endOfFile depth s).value)
        (parseStatements endOfFile depth s).state) := by
  apply parseStatement.mutual_induct endOfFile
  case case1 =>
    intro depth s hd _ _ _ _
    rw [parseStatement, if_pos hd]
    exact .statementTooDeep hd
  case case2 =>
    intro depth s hd h _ statements s₁ _ hs _ _ _ _ ih
    obtain ⟨rfl, rfl⟩ := Parsed.parts hs
    rw [parseStatement, if_neg hd, dif_pos h]
    exact .block hd h ih (reads_token endOfFile (by decide) _)
  case case3 =>
    intro depth s hd hb h _ _ _ _ _ _ _ _ _ _ _ _ _
    rw [parseStatement, if_neg hd, dif_neg hb, if_pos h]
    exact .variable hd h (reads_token endOfFile (by decide) _) (reads_token endOfFile (by decide) _)
      (reads_expression endOfFile _ _)
  case case4 =>
    intro depth s hd hb hv h _ condition s₁ _ hc thenBranch s₂ _ ht hk _ _ _ _ _ ihThen ihElse
    obtain ⟨rfl, rfl⟩ := Parsed.parts hc
    obtain ⟨rfl, rfl⟩ := Parsed.parts ht
    rw [parseStatement, if_neg hd, dif_neg hb, if_neg hv, dif_pos h]
    simp only [if_pos hk]
    exact .conditionalElse hd h (reads_expression endOfFile _ _) ihThen hk ihElse
  case case5 =>
    intro depth s hd hb hv h _ condition s₁ _ hc thenBranch s₂ _ ht hk ihThen
    obtain ⟨rfl, rfl⟩ := Parsed.parts hc
    obtain ⟨rfl, rfl⟩ := Parsed.parts ht
    rw [parseStatement, if_neg hd, dif_neg hb, if_neg hv, dif_pos h]
    simp only [if_neg hk]
    exact .conditional hd h (reads_expression endOfFile _ _) ihThen hk
  case case6 =>
    intro depth s hd hb hv hi h _ condition s₁ _ hc _ _ _ _ ih
    obtain ⟨rfl, rfl⟩ := Parsed.parts hc
    rw [parseStatement, if_neg hd, dif_neg hb, if_neg hv, dif_neg hi, dif_pos h]
    exact .loop hd h (reads_expression endOfFile _ _) ih
  case case7 =>
    intro depth s hd hb hv hi hw h _ hk
    rw [parseStatement, if_neg hd, dif_neg hb, if_neg hv, dif_neg hi, dif_neg hw, if_pos h]
    simp only [if_pos hk]
    exact .returnNothing hd h hk
  case case8 =>
    intro depth s hd hb hv hi hw h _ hk _ _ _ _
    rw [parseStatement, if_neg hd, dif_neg hb, if_neg hv, dif_neg hi, dif_neg hw, if_pos h]
    simp only [if_neg hk]
    exact .return hd h hk (reads_expression endOfFile _ _)
  case case9 =>
    intro depth s hd hb hv hi hw hr _ _ _ _
    rw [parseStatement, if_neg hd, dif_neg hb, if_neg hv, dif_neg hi, dif_neg hw, if_neg hr]
    exact .expression hd hb hv hi hw hr (reads_expression endOfFile _ _)
  case case10 =>
    intro depth s h
    rw [parseStatements, dif_pos h]
    exact .noStatements h
  case case11 =>
    intro depth s h first s₁ _ hf _ _ _ _ _ ihFirst ihMore
    obtain ⟨rfl, rfl⟩ := Parsed.parts hf
    rw [parseStatements, dif_neg h]
    exact .statements h ihFirst ihMore

theorem reads_parameters (s : State) :
    Reads endOfFile .parameters s (.tokens (parseParameters endOfFile s).value)
      (parseParameters endOfFile s).state := by
  induction s using parseParameters.induct endOfFile with
  | case1 s h =>
    rw [parseParameters, if_pos h]
    exact .noParameters h
  | case2 s h first s₁ _ hf hk _ _ _ _ _ ih =>
    obtain ⟨rfl, rfl⟩ := Parsed.parts hf
    rw [parseParameters, if_neg h]
    simp only [dif_pos hk]
    exact .parameter h (reads_token endOfFile (by decide) s) hk ih
  | case3 s h last s₁ _ hf hk =>
    obtain ⟨rfl, rfl⟩ := Parsed.parts hf
    rw [parseParameters, if_neg h]
    simp only [dif_neg hk]
    exact .lastParameter h (reads_token endOfFile (by decide) s) hk

theorem reads_function (s : State) :
    Reads endOfFile .function s (.function (parseFunction endOfFile s).value)
      (parseFunction endOfFile s).state :=
  .function (reads_token endOfFile (by decide) _) (reads_token endOfFile (by decide) _)
    (reads_token endOfFile (by decide) _) (reads_parameters endOfFile _)
    (reads_token endOfFile (by decide) _) (reads_token endOfFile (by decide) _)
    ((reads_statements endOfFile).2 0 _) (reads_token endOfFile (by decide) _)

theorem reads_member (s : State) :
    Reads endOfFile .member s (.member (parseMember endOfFile s).value)
      (parseMember endOfFile s).state := by
  unfold parseMember
  by_cases h : s.kind = .functionKeyword
  · rw [if_pos h]
    exact .functionMember h (reads_function endOfFile s)
  · rw [if_neg h]
    exact .statementMember h ((reads_statements endOfFile).1 0 s)

end

/-! ## Reports and tokens -/

variable {endOfFile : Token} {goal : Goal} {tree : Tree} {s s' : State}

@[simp] theorem State.advance_reported (s : State) : s.advance.reported = s.reported := by
  unfold State.advance
  split <;> rfl

@[simp] theorem State.skipIfStuck_reported (start s : State) :
    (start.skipIfStuck s).reported = s.reported := by
  unfold State.skipIfStuck
  split
  · exact s.advance_reported
  · rfl

/-- The next token, where there is one, and those after it. -/
theorem State.rest_eq_cons {s : State} (endOfFile : Token) (h : s.kind ≠ .endOfFile) :
    s.rest = s.current endOfFile :: s.advance.rest := by
  cases hr : s.rest with
  | nil => exact absurd hr (State.rest_ne_nil h)
  | cons token rest => simp [State.current, State.advance, hr]

theorem State.kind_current {s : State} (endOfFile : Token) (h : s.kind ≠ .endOfFile) :
    (s.current endOfFile).kind = s.kind := by
  cases hr : s.rest with
  | nil => exact absurd hr (State.rest_ne_nil h)
  | cons token rest => simp [State.current, State.kind, hr]

/-- What comes second comes next once a token is read. -/
theorem State.kind_advance (s : State) : s.advance.kind = s.secondKind := by
  obtain ⟨rest, reported, last⟩ := s
  match rest with
  | [] => rfl
  | [_] => rfl
  | _ :: _ :: _ => rfl

/-- A report is never taken back. -/
theorem Reads.reported_eq_nil (h : Reads endOfFile goal s tree s') (hs : s'.reported = []) :
    s.reported = [] := by
  induction h with
  | found | literal | returnNothing => simpa using hs
  | absent | tooDeep | statementTooDeep => exact absurd hs (List.cons_ne_nil _ _)
  | enough | noArguments | noStatements | noParameters => exact hs
  | operation _ _ _ ih | name _ _ _ _ ih | lastArgument _ _ _ ih | lastParameter _ _ _ ih
  | expression _ _ _ _ _ _ _ ih | functionMember _ _ ih | statementMember _ _ ih => exact ih hs
  | assignment _ _ _ ih | «return» _ _ _ _ ih => simpa using ih hs
  | unary _ _ _ _ ih₁ ih₂ | parenthesized _ _ _ ih₁ ih₂ | call _ _ _ ih₁ ih₂
  | binary _ _ _ ih₁ ih₂ | block _ _ _ _ ih₁ ih₂ | conditional _ _ _ _ _ ih₁ ih₂
  | loop _ _ _ _ ih₁ ih₂ => simpa using ih₁ (ih₂ hs)
  | unaryTooDeep _ _ _ ih => exact absurd (ih hs) (List.cons_ne_nil _ _)
  | operand _ _ _ ih₁ ih₂ => exact ih₁ (ih₂ hs)
  | argument _ _ _ _ ih₁ ih₂ | statements _ _ _ ih₁ ih₂ | parameter _ _ _ _ ih₁ ih₂ =>
    exact ih₁ (by simpa using ih₂ hs)
  | «variable» _ _ _ _ _ ih₁ ih₂ ih₃ => simpa using ih₁ (ih₂ (ih₃ hs))
  | conditionalElse _ _ _ _ _ _ ih₁ ih₂ ih₃ => simpa using ih₁ (ih₂ (by simpa using ih₃ hs))
  | function _ _ _ _ _ _ _ _ ih₁ ih₂ ih₃ ih₄ ih₅ ih₆ ih₇ ih₈ =>
    exact ih₁ (ih₂ (ih₃ (ih₄ (ih₅ (ih₆ (ih₇ (ih₈ hs)))))))

end ReplayShell.Syntax
