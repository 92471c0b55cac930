import ReplayShell.Syntax.Tree

/-!
# The parser

Parsing never fails. Where a token is absent the parser reports it and puts a missing token into
the tree, which is how an unfinished submission is told from a finished one.

* `State` is what is left to read, with the diagnostics so far and the last token read or found
  missing. `Parsed s α` is a result together with a state that has no more tokens than `s`.
* `parseExpression` and `parseStatement` descend at most `maxNestingDepth` levels; deeper input is
  reported and not read.
* Every loop reads a token in each round, or skips one that no rule could use, so the number of
  tokens left, with a rank for the function, decreases with every call.
* `parse` is the whole: tree and diagnostics of a text, those of the tokens first.
-/
namespace ReplayShell.Syntax

/-- The deepest nesting of statements and expressions. -/
def maxNestingDepth : Nat := 128

/-- Where the parser stands. -/
structure State where
  /-- The tokens not yet read, without trivia and without the end-of-file token. -/
  rest : List Token
  /-- The diagnostics so far, the newest first. -/
  reported : List Diagnostic := []
  /-- The last token read or found missing. -/
  last : Option Token := none

namespace State

/-- The token to be read next; `endOfFile` when none is left. -/
def current (endOfFile : Token) (s : State) : Token := s.rest.head?.getD endOfFile

/-- The kind of the token to be read next. -/
def kind (s : State) : Kind :=
  match s.rest with
  | [] => .endOfFile
  | token :: _ => token.kind

/-- The kind of the token after that. -/
def secondKind (s : State) : Kind :=
  match s.rest with
  | _ :: token :: _ => token.kind
  | _ => .endOfFile

/-- Reads one token. -/
def advance (s : State) : State :=
  match s.rest with
  | [] => s
  | token :: rest => { s with rest := rest, last := some token }

/-- Whether some token is left. -/
theorem rest_ne_nil {s : State} (h : s.kind ≠ .endOfFile) : s.rest ≠ [] := by
  intro hr
  exact h (by simp [kind, hr])

theorem length_advance_le (s : State) : s.advance.rest.length ≤ s.rest.length := by
  unfold advance
  split <;> rename_i h <;> simp [h]

theorem length_advance_lt {s : State} (h : s.kind ≠ .endOfFile) :
    s.advance.rest.length < s.rest.length := by
  have hr := rest_ne_nil h
  unfold advance
  split <;> rename_i h' <;> simp_all

/-- Where to go on after a round of a loop that began at `start`: a round that read nothing skips a
token. -/
def skipIfStuck (start s : State) : State :=
  if s.rest.length = start.rest.length then s.advance else s

theorem length_skipIfStuck_lt {start s : State} (hstart : start.rest ≠ [])
    (hle : s.rest.length ≤ start.rest.length) :
    (skipIfStuck start s).rest.length < start.rest.length := by
  have hpos : 0 < start.rest.length := List.length_pos_iff.2 hstart
  unfold skipIfStuck
  split
  · unfold advance
    split <;> rename_i h <;> simp only [h, List.length_nil, List.length_cons] at * <;> omega
  · omega

end State

/-- A result and the state after it; no token comes back. -/
structure Parsed (s : State) (α : Type) where
  value : α
  state : State
  le : state.rest.length ≤ s.rest.length

/-- The result as one of an earlier state. -/
def Parsed.after {s t : State} {α : Type} (parsed : Parsed t α)
    (h : t.rest.length ≤ s.rest.length) : Parsed s α :=
  ⟨parsed.value, parsed.state, Nat.le_trans parsed.le h⟩

/-- Reports a problem at the next token and puts a missing token of the kind there. -/
def synthesize (endOfFile : Token) (problem : Problem) (kind : Kind) (s : State) : Parsed s Token :=
  let span := (s.current endOfFile).span
  let token := Token.absent kind span.start
  ⟨token, { s with reported := ⟨span, problem⟩ :: s.reported, last := some token }, Nat.le_refl _⟩

/-- Reads a token of the kind, or finds it missing. -/
def expect (endOfFile : Token) (kind : Kind) (s : State) : Parsed s Token :=
  if s.kind = kind then ⟨s.current endOfFile, s.advance, s.length_advance_le⟩
  else synthesize endOfFile (.unexpectedToken (s.current endOfFile).kind kind) kind s

/-- Stands for an expression nested too deeply; nothing is read. -/
def tooDeep (endOfFile : Token) (s : State) : Parsed s Expression :=
  let token := synthesize endOfFile .nestedTooDeeply .identifier s
  ⟨.name token.value, token.state, token.le⟩

/-- Resolves the escapes of a string literal without its quotes. -/
def unescape : List Char → List Char
  | [] => []
  | '\\' :: [] => []
  | '\\' :: 'n' :: rest => '\n' :: unescape rest
  | '\\' :: 't' :: rest => '\t' :: unescape rest
  | '\\' :: c :: rest => c :: unescape rest
  | c :: rest => c :: unescape rest

/-- The text that a string literal denotes; its closing quote may be absent. -/
def stringValue (literal : List Char) : String :=
  let body := match literal with
    | '"' :: rest => rest
    | text => text
  String.ofList (unescape (if body.getLast? = some '"' then body.dropLast else body))

/-- The value of a literal token. A number out of range, already reported with the tokens, counts
as 0. -/
def literalValue (token : Token) : Value :=
  match token.kind with
  | .number =>
    let value : Int := decimalValue token.text.toList
    .integer (if value ≤ maxInteger then value else 0)
  | .string => .string (stringValue token.text.toList)
  | kind => .boolean (kind = .trueKeyword)

mutual

/-- An assignment or an operator expression. -/
def parseExpression (endOfFile : Token) (depth : Nat) (s : State) : Parsed s Expression :=
  if maxNestingDepth ≤ depth then tooDeep endOfFile s
  else if h : s.kind = .identifier ∧ s.secondKind = .equals then
    have h₁ := s.length_advance_lt (by simp [h.1])
    have h₂ := s.advance.length_advance_le
    let ⟨value, s₁, h₃⟩ := parseExpression endOfFile (depth + 1) s.advance.advance
    ⟨.assignment (s.current endOfFile) value, s₁, by omega⟩
  else parseBinary endOfFile (depth + 1) 0 s
termination_by s.rest.length * 8 + 2

/-- An operand and the operators after it that bind more tightly than `parent`. -/
def parseBinary (endOfFile : Token) (depth parent : Nat) (s : State) : Parsed s Expression :=
  if h : s.kind.unaryPrecedence ≠ 0 ∧ parent ≤ s.kind.unaryPrecedence then
    have h₁ := s.length_advance_lt (by intro hk; simp [hk, Kind.unaryPrecedence] at h)
    let ⟨operand, s₁, h₂⟩ : Parsed s.advance Expression :=
      if maxNestingDepth ≤ depth then tooDeep endOfFile s.advance
      else parseBinary endOfFile (depth + 1) s.kind.unaryPrecedence s.advance
    (parseOperators endOfFile depth parent (.unary (s.current endOfFile) operand) s₁).after
      (by omega)
  else
    let ⟨left, s₁, h₁⟩ := parsePrimary endOfFile depth s
    (parseOperators endOfFile depth parent left s₁).after h₁
termination_by s.rest.length * 8 + 1

/-- The operators after a left operand that bind more tightly than `parent`, with their right
operands. -/
def parseOperators (endOfFile : Token) (depth parent : Nat) (left : Expression) (s : State) :
    Parsed s Expression :=
  if h : s.kind.binaryPrecedence = 0 ∨ s.kind.binaryPrecedence ≤ parent then
    ⟨left, s, Nat.le_refl _⟩
  else
    have h₁ := s.length_advance_lt (by intro hk; simp [hk, Kind.binaryPrecedence] at h)
    let ⟨right, s₁, h₂⟩ := parseBinary endOfFile depth s.kind.binaryPrecedence s.advance
    (parseOperators endOfFile depth parent (.binary left (s.current endOfFile) right) s₁).after
      (by omega)
termination_by s.rest.length * 8

/-- An operand without operators. -/
def parsePrimary (endOfFile : Token) (depth : Nat) (s : State) : Parsed s Expression :=
  if h : s.kind = .openParen then
    have h₁ := s.length_advance_lt (by simp [h])
    let ⟨inner, s₁, h₂⟩ := parseExpression endOfFile depth s.advance
    let ⟨closing, s₂, h₃⟩ := expect endOfFile .closeParen s₁
    ⟨.parenthesized (s.current endOfFile) inner closing, s₂, by omega⟩
  else if s.kind = .trueKeyword ∨ s.kind = .falseKeyword ∨ s.kind = .number ∨ s.kind = .string then
    ⟨.literal (s.current endOfFile) (literalValue (s.current endOfFile)), s.advance,
      s.length_advance_le⟩
  else if h : s.kind = .identifier ∧ s.secondKind = .openParen then
    have h₁ := s.length_advance_lt (by simp [h.1])
    have h₂ := s.advance.length_advance_le
    let ⟨arguments, s₁, h₃⟩ := parseArguments endOfFile depth s.advance.advance
    let ⟨closing, s₂, h₄⟩ := expect endOfFile .closeParen s₁
    ⟨.call (s.current endOfFile) arguments closing, s₂, by omega⟩
  else
    let ⟨identifier, s₁, h₁⟩ := expect endOfFile .identifier s
    ⟨.name identifier, s₁, h₁⟩
termination_by s.rest.length * 8

/-- Expressions with commas between them; one comma may end the list. -/
def parseArguments (endOfFile : Token) (depth : Nat) (s : State) : Parsed s (List Expression) :=
  if s.kind = .closeParen ∨ s.kind = .endOfFile then ⟨[], s, Nat.le_refl _⟩
  else
    let ⟨first, s₁, h₁⟩ := parseExpression endOfFile depth s
    if h : s₁.kind = .comma then
      have h₂ := s₁.length_advance_lt (by simp [h])
      let ⟨more, s₂, h₃⟩ := parseArguments endOfFile depth s₁.advance
      ⟨first :: more, s₂, by omega⟩
    else ⟨[first], s₁, h₁⟩
termination_by s.rest.length * 8 + 3

end

mutual

/-- A statement. -/
def parseStatement (endOfFile : Token) (depth : Nat) (s : State) : Parsed s Statement :=
  if maxNestingDepth ≤ depth then
    let ⟨expression, s₁, h₁⟩ := tooDeep endOfFile s
    ⟨.expression expression, s₁, h₁⟩
  else if h : s.kind = .openBrace then
    have h₁ := s.length_advance_lt (by simp [h])
    let ⟨statements, s₁, h₂⟩ := parseStatements endOfFile (depth + 1) s.advance
    let ⟨closing, s₂, h₃⟩ := expect endOfFile .closeBrace s₁
    ⟨.block (s.current endOfFile) statements closing, s₂, by omega⟩
  else if s.kind = .varKeyword ∨ s.kind = .letKeyword then
    have h₁ := s.length_advance_le
    let ⟨identifier, s₁, h₂⟩ := expect endOfFile .identifier s.advance
    let ⟨_, s₂, h₃⟩ := expect endOfFile .equals s₁
    let ⟨initializer, s₃, h₄⟩ := parseExpression endOfFile (depth + 1) s₂
    ⟨.variable (s.current endOfFile) identifier initializer, s₃, by omega⟩
  else if h : s.kind = .ifKeyword then
    have h₁ := s.length_advance_lt (by simp [h])
    let ⟨condition, s₁, h₂⟩ := parseExpression endOfFile (depth + 1) s.advance
    let ⟨thenBranch, s₂, h₃⟩ := parseStatement endOfFile (depth + 1) s₁
    if s₂.kind = .elseKeyword then
      have h₄ := s₂.length_advance_le
      let ⟨elseBranch, s₃, h₅⟩ := parseStatement endOfFile (depth + 1) s₂.advance
      ⟨.conditional (s.current endOfFile) condition thenBranch (some elseBranch), s₃, by omega⟩
    else ⟨.conditional (s.current endOfFile) condition thenBranch none, s₂, by omega⟩
  else if h : s.kind = .whileKeyword then
    have h₁ := s.length_advance_lt (by simp [h])
    let ⟨condition, s₁, h₂⟩ := parseExpression endOfFile (depth + 1) s.advance
    let ⟨body, s₂, h₃⟩ := parseStatement endOfFile (depth + 1) s₁
    ⟨.loop (s.current endOfFile) condition body, s₂, by omega⟩
  else if s.kind = .returnKeyword then
    have h₁ := s.length_advance_le
    if s.secondKind = .closeBrace ∨ s.secondKind = .endOfFile then
      ⟨.return (s.current endOfFile) none, s.advance, h₁⟩
    else
      let ⟨value, s₁, h₂⟩ := parseExpression endOfFile (depth + 1) s.advance
      ⟨.return (s.current endOfFile) (some value), s₁, by omega⟩
  else
    let ⟨expression, s₁, h₁⟩ := parseExpression endOfFile (depth + 1) s
    ⟨.expression expression, s₁, h₁⟩
termination_by s.rest.length * 8

/-- Statements up to a closing brace. A token that no statement could use is skipped. -/
def parseStatements (endOfFile : Token) (depth : Nat) (s : State) : Parsed s (List Statement) :=
  if h : s.kind = .closeBrace ∨ s.kind = .endOfFile then ⟨[], s, Nat.le_refl _⟩
  else
    let ⟨first, s₁, h₁⟩ := parseStatement endOfFile depth s
    have h₂ := State.length_skipIfStuck_lt (State.rest_ne_nil fun hk => h (.inr hk)) h₁
    let ⟨more, s₂, h₃⟩ := parseStatements endOfFile depth (s.skipIfStuck s₁)
    ⟨first :: more, s₂, by omega⟩
termination_by s.rest.length * 8 + 1

end

/-- Identifiers with commas between them; one comma may end the list. -/
def parseParameters (endOfFile : Token) (s : State) : Parsed s (List Token) :=
  if s.kind = .closeParen ∨ s.kind = .endOfFile then ⟨[], s, Nat.le_refl _⟩
  else
    let ⟨first, s₁, h₁⟩ := expect endOfFile .identifier s
    if h : s₁.kind = .comma then
      have h₂ := s₁.length_advance_lt (by simp [h])
      let ⟨more, s₂, h₃⟩ := parseParameters endOfFile s₁.advance
      ⟨first :: more, s₂, by omega⟩
    else ⟨[first], s₁, h₁⟩
termination_by s.rest.length

/-- A function declaration, from its keyword on. -/
def parseFunction (endOfFile : Token) (s : State) : Parsed s FunctionDeclaration :=
  let ⟨keyword, s₁, h₁⟩ := expect endOfFile .functionKeyword s
  let ⟨identifier, s₂, h₂⟩ := expect endOfFile .identifier s₁
  let ⟨_, s₃, h₃⟩ := expect endOfFile .openParen s₂
  let ⟨parameters, s₄, h₄⟩ := parseParameters endOfFile s₃
  let ⟨_, s₅, h₅⟩ := expect endOfFile .closeParen s₄
  let ⟨opening, s₆, h₆⟩ := expect endOfFile .openBrace s₅
  let ⟨body, s₇, h₇⟩ := parseStatements endOfFile 0 s₆
  let ⟨closing, s₈, h₈⟩ := expect endOfFile .closeBrace s₇
  ⟨⟨keyword, identifier, parameters, opening, body, closing⟩, s₈, by omega⟩

/-- A member of a submission. -/
def parseMember (endOfFile : Token) (s : State) : Parsed s Member :=
  if s.kind = .functionKeyword then
    let ⟨declaration, s₁, h₁⟩ := parseFunction endOfFile s
    ⟨.function declaration, s₁, h₁⟩
  else
    let ⟨statement, s₁, h₁⟩ := parseStatement endOfFile 0 s
    ⟨.statement statement, s₁, h₁⟩

/-- The members up to the end, the last token of the last one, and the state at the end. A token
that no member could use is skipped. -/
def parseMembers (endOfFile : Token) (lastToken : Option Token) (s : State) :
    List Member × Option Token × State :=
  if h : s.rest = [] then ([], lastToken, s)
  else
    let ⟨member, s₁, h₁⟩ := parseMember endOfFile s
    have _h₂ := State.length_skipIfStuck_lt h h₁
    let (members, last, final) := parseMembers endOfFile s₁.last (s.skipIfStuck s₁)
    (member :: members, last, final)
termination_by s.rest.length

/-- The tree of a text, with the diagnostics of its tokens and then of its grammar. -/
def parse (text : String) : Submission × List Diagnostic :=
  let scanned := tokenize text
  let (members, lastToken, final) :=
    parseMembers scanned.endOfFile none { rest := scanned.significant }
  (⟨members, lastToken, scanned.endOfFile⟩, scanned.diagnostics ++ final.reported.reverse)

end ReplayShell.Syntax
