import ReplayShell.Proofs.Determined

/-!
# The parser, move by move

The functions of the parser hand the depth of nesting down to each other. Here the parser is one
reader that keeps count of it, and that makes one move after another.

* `Move` is what the reader can do at once, and `Reader.after` what it comes to.
* `Routine` is a goal without its depth. `Runs` has a rule for each branch of the parser: the moves
  that a routine makes, and what it gives back. No rule puts the count back to what it was.
* `Runs.reads`: a routine puts it back, and does what the parser does at that depth. `Reads.runs`:
  whatever the parser does, there are moves to do it.
* `exists_runs`: so a routine comes to an end, wherever it is called.
* `RunsMembers` is the loop over all members.
-/
namespace ReplayShell.Syntax

/-- What the parser does at once. -/
inductive Move where
  /-- Takes the next token. -/
  | next
  /-- Takes the next token because no rule could use it. -/
  | skip
  /-- Reports a problem at the next token, and finds a token of the kind missing there. -/
  | report (problem : Problem) (kind : Kind)
  /-- Counts one level more. -/
  | enter
  /-- Counts one level less. -/
  | leave
  deriving DecidableEq, Repr

/-- Moves on a level of their own. -/
def Move.nested (moves : List Move) : List Move := .enter :: (moves ++ [.leave])

/-- The parser between two moves, with its count of levels. -/
structure Reader extends State where
  depth : Nat

namespace Reader

/-- Takes the next token. At the end that is the end-of-file token, which is never used up. -/
def next (endOfFile : Token) (r : Reader) : Reader :=
  { r with rest := r.rest.tail, last := some (r.current endOfFile) }

/-- Reports a problem at the next token, and finds a token of the kind missing there. -/
def report (endOfFile : Token) (problem : Problem) (kind : Kind) (r : Reader) : Reader :=
  { r with toState := (synthesize endOfFile problem kind r.toState).state }

def enter (r : Reader) : Reader := { r with depth := r.depth + 1 }

def leave (r : Reader) : Reader := { r with depth := r.depth - 1 }

@[simp] theorem toState_enter (r : Reader) : r.enter.toState = r.toState := rfl

/-- What a move comes to. -/
def after (endOfFile : Token) (r : Reader) : Move → Reader
  | .next | .skip => r.next endOfFile
  | .report problem kind => r.report endOfFile problem kind
  | .enter => r.enter
  | .leave => r.leave

/-- What moves come to, one after another. -/
def perform (endOfFile : Token) (r : Reader) (moves : List Move) : Reader :=
  moves.foldl (after endOfFile) r

/-- The move that ends a round of a loop: a round without progress skips a token. -/
def recovery (start r : Reader) : List Move :=
  if r.rest.length = start.rest.length then [.skip] else []

end Reader

/-- What the parser can be asked to do; the depth is for the reader to know. -/
inductive Routine where
  | token (kind : Kind)
  | expression
  | binary (parent : Nat)
  | operators (parent : Nat) (left : Expression)
  | primary
  | arguments
  | statement
  | statements
  | parameters
  | function
  | member

section
variable (endOfFile : Token)

/-- The moves of a routine, what it gives back, and the reader after it: a rule for each branch. -/
inductive Runs : Routine → Reader → List Move → Tree → Reader → Prop
  -- tokens
  | found {kind : Kind} {r : Reader} (h : r.kind = kind) :
      Runs (.token kind) r [.next] (.token (r.current endOfFile)) (r.next endOfFile)
  | absent {kind : Kind} {r : Reader} (h : r.kind ≠ kind) :
      Runs (.token kind) r [.report (.unexpectedToken (r.current endOfFile).kind kind) kind]
        (.token (.absent kind (r.current endOfFile).span.start))
        (r.report endOfFile (.unexpectedToken (r.current endOfFile).kind kind) kind)
  -- expressions
  | tooDeep {r : Reader} (hd : maxNestingDepth ≤ r.depth) :
      Runs .expression r [.report .nestedTooDeeply .identifier]
        (.expression (tooDeep endOfFile r.toState).value)
        (r.report endOfFile .nestedTooDeeply .identifier)
  | assignment {r r' : Reader} {moves : List Move} {value : Expression}
      (hd : ¬maxNestingDepth ≤ r.depth) (h : r.kind = .identifier ∧ r.secondKind = .equals)
      (hv : Runs .expression ((r.enter.next endOfFile).next endOfFile) moves (.expression value)
        r') :
      Runs .expression r (Move.nested (.next :: .next :: moves))
        (.expression (.assignment (r.current endOfFile) value)) r'.leave
  | operation {r r' : Reader} {moves : List Move} {expression : Expression}
      (hd : ¬maxNestingDepth ≤ r.depth) (h : ¬(r.kind = .identifier ∧ r.secondKind = .equals))
      (hb : Runs (.binary 0) r.enter moves (.expression expression) r') :
      Runs .expression r (Move.nested moves) (.expression expression) r'.leave
  | unary {parent : Nat} {r r₁ r' : Reader} {moves more : List Move} {operand whole : Expression}
      (h : r.kind.unaryPrecedence ≠ 0 ∧ parent ≤ r.kind.unaryPrecedence)
      (hd : ¬maxNestingDepth ≤ r.depth)
      (ho : Runs (.binary r.kind.unaryPrecedence) (r.next endOfFile).enter moves
        (.expression operand) r₁)
      (hr : Runs (.operators parent (.unary (r.current endOfFile) operand)) r₁.leave more
        (.expression whole) r') :
      Runs (.binary parent) r (.next :: (Move.nested moves ++ more)) (.expression whole) r'
  | unaryTooDeep {parent : Nat} {r r' : Reader} {more : List Move} {whole : Expression}
      (h : r.kind.unaryPrecedence ≠ 0 ∧ parent ≤ r.kind.unaryPrecedence)
      (hd : maxNestingDepth ≤ r.depth)
      (hr : Runs (.operators parent
          (.unary (r.current endOfFile)
            (Syntax.tooDeep endOfFile (r.next endOfFile).toState).value))
        ((r.next endOfFile).report endOfFile .nestedTooDeeply .identifier) more
        (.expression whole) r') :
      Runs (.binary parent) r (.next :: .report .nestedTooDeeply .identifier :: more)
        (.expression whole) r'
  | operand {parent : Nat} {r r₁ r' : Reader} {moves more : List Move} {left whole : Expression}
      (h : ¬(r.kind.unaryPrecedence ≠ 0 ∧ parent ≤ r.kind.unaryPrecedence))
      (hl : Runs .primary r moves (.expression left) r₁)
      (hr : Runs (.operators parent left) r₁ more (.expression whole) r') :
      Runs (.binary parent) r (moves ++ more) (.expression whole) r'
  | enough {parent : Nat} {left : Expression} {r : Reader}
      (h : r.kind.binaryPrecedence = 0 ∨ r.kind.binaryPrecedence ≤ parent) :
      Runs (.operators parent left) r [] (.expression left) r
  | binary {parent : Nat} {left right whole : Expression} {r r₁ r' : Reader}
      {moves more : List Move}
      (h : ¬(r.kind.binaryPrecedence = 0 ∨ r.kind.binaryPrecedence ≤ parent))
      (ho : Runs (.binary r.kind.binaryPrecedence) (r.next endOfFile) moves (.expression right) r₁)
      (hr : Runs (.operators parent (.binary left (r.current endOfFile) right)) r₁ more
        (.expression whole) r') :
      Runs (.operators parent left) r (.next :: (moves ++ more)) (.expression whole) r'
  | parenthesized {r r₁ r' : Reader} {moves more : List Move} {inner : Expression}
      {closing : Token} (h : r.kind = .openParen)
      (hi : Runs .expression (r.next endOfFile) moves (.expression inner) r₁)
      (hc : Runs (.token .closeParen) r₁ more (.token closing) r') :
      Runs .primary r (.next :: (moves ++ more))
        (.expression (.parenthesized (r.current endOfFile) inner closing)) r'
  | literal {r : Reader}
      (h : r.kind = .trueKeyword ∨ r.kind = .falseKeyword ∨ r.kind = .number ∨ r.kind = .string) :
      Runs .primary r [.next]
        (.expression (.literal (r.current endOfFile) (literalValue (r.current endOfFile))))
        (r.next endOfFile)
  | call {r r₁ r' : Reader} {moves more : List Move} {arguments : List Expression}
      {closing : Token} (h : r.kind = .identifier ∧ r.secondKind = .openParen)
      (ha : Runs .arguments ((r.next endOfFile).next endOfFile) moves (.expressions arguments) r₁)
      (hc : Runs (.token .closeParen) r₁ more (.token closing) r') :
      Runs .primary r (.next :: .next :: (moves ++ more))
        (.expression (.call (r.current endOfFile) arguments closing)) r'
  | name {r r' : Reader} {moves : List Move} {identifier : Token} (hp : r.kind ≠ .openParen)
      (hl : ¬(r.kind = .trueKeyword ∨ r.kind = .falseKeyword ∨ r.kind = .number ∨
        r.kind = .string))
      (hc : ¬(r.kind = .identifier ∧ r.secondKind = .openParen))
      (hi : Runs (.token .identifier) r moves (.token identifier) r') :
      Runs .primary r moves (.expression (.name identifier)) r'
  | noArguments {r : Reader} (h : r.kind = .closeParen ∨ r.kind = .endOfFile) :
      Runs .arguments r [] (.expressions []) r
  | lastArgument {r r' : Reader} {moves : List Move} {last : Expression}
      (h : ¬(r.kind = .closeParen ∨ r.kind = .endOfFile))
      (he : Runs .expression r moves (.expression last) r') (hk : r'.kind ≠ .comma) :
      Runs .arguments r moves (.expressions [last]) r'
  | argument {r r₁ r' : Reader} {moves rest : List Move} {first : Expression}
      {more : List Expression} (h : ¬(r.kind = .closeParen ∨ r.kind = .endOfFile))
      (he : Runs .expression r moves (.expression first) r₁) (hk : r₁.kind = .comma)
      (hm : Runs .arguments (r₁.next endOfFile) rest (.expressions more) r') :
      Runs .arguments r (moves ++ .next :: rest) (.expressions (first :: more)) r'
  -- statements
  | statementTooDeep {r : Reader} (hd : maxNestingDepth ≤ r.depth) :
      Runs .statement r [.report .nestedTooDeeply .identifier]
        (.statement (.expression (Syntax.tooDeep endOfFile r.toState).value))
        (r.report endOfFile .nestedTooDeeply .identifier)
  | block {r r₁ r' : Reader} {moves more : List Move} {statements : List Statement}
      {closing : Token} (hd : ¬maxNestingDepth ≤ r.depth) (h : r.kind = .openBrace)
      (hs : Runs .statements (r.enter.next endOfFile) moves (.statements statements) r₁)
      (hc : Runs (.token .closeBrace) r₁ more (.token closing) r') :
      Runs .statement r (Move.nested (.next :: (moves ++ more)))
        (.statement (.block (r.current endOfFile) statements closing)) r'.leave
  | variable {r r₁ r₂ r' : Reader} {moves more rest : List Move} {identifier equals : Token}
      {initializer : Expression} (hd : ¬maxNestingDepth ≤ r.depth)
      (h : r.kind = .varKeyword ∨ r.kind = .letKeyword)
      (hi : Runs (.token .identifier) (r.enter.next endOfFile) moves (.token identifier) r₁)
      (he : Runs (.token .equals) r₁ more (.token equals) r₂)
      (hv : Runs .expression r₂ rest (.expression initializer) r') :
      Runs .statement r (Move.nested (.next :: (moves ++ (more ++ rest))))
        (.statement (.variable (r.current endOfFile) identifier initializer)) r'.leave
  | conditionalElse {r r₁ r₂ r' : Reader} {moves more rest : List Move} {condition : Expression}
      {thenBranch elseBranch : Statement} (hd : ¬maxNestingDepth ≤ r.depth)
      (h : r.kind = .ifKeyword)
      (hc : Runs .expression (r.enter.next endOfFile) moves (.expression condition) r₁)
      (ht : Runs .statement r₁ more (.statement thenBranch) r₂) (hk : r₂.kind = .elseKeyword)
      (he : Runs .statement (r₂.next endOfFile) rest (.statement elseBranch) r') :
      Runs .statement r (Move.nested (.next :: (moves ++ (more ++ .next :: rest))))
        (.statement (.conditional (r.current endOfFile) condition thenBranch (some elseBranch)))
        r'.leave
  | conditional {r r₁ r' : Reader} {moves more : List Move} {condition : Expression}
      {thenBranch : Statement} (hd : ¬maxNestingDepth ≤ r.depth) (h : r.kind = .ifKeyword)
      (hc : Runs .expression (r.enter.next endOfFile) moves (.expression condition) r₁)
      (ht : Runs .statement r₁ more (.statement thenBranch) r') (hk : r'.kind ≠ .elseKeyword) :
      Runs .statement r (Move.nested (.next :: (moves ++ more)))
        (.statement (.conditional (r.current endOfFile) condition thenBranch none)) r'.leave
  | loop {r r₁ r' : Reader} {moves more : List Move} {condition : Expression} {body : Statement}
      (hd : ¬maxNestingDepth ≤ r.depth) (h : r.kind = .whileKeyword)
      (hc : Runs .expression (r.enter.next endOfFile) moves (.expression condition) r₁)
      (hb : Runs .statement r₁ more (.statement body) r') :
      Runs .statement r (Move.nested (.next :: (moves ++ more)))
        (.statement (.loop (r.current endOfFile) condition body)) r'.leave
  | returnNothing {r : Reader} (hd : ¬maxNestingDepth ≤ r.depth) (h : r.kind = .returnKeyword)
      (hk : r.secondKind = .closeBrace ∨ r.secondKind = .endOfFile) :
      Runs .statement r (Move.nested [.next])
        (.statement (.return (r.current endOfFile) none)) (r.enter.next endOfFile).leave
  | return {r r' : Reader} {moves : List Move} {value : Expression}
      (hd : ¬maxNestingDepth ≤ r.depth) (h : r.kind = .returnKeyword)
      (hk : ¬(r.secondKind = .closeBrace ∨ r.secondKind = .endOfFile))
      (hv : Runs .expression (r.enter.next endOfFile) moves (.expression value) r') :
      Runs .statement r (Move.nested (.next :: moves))
        (.statement (.return (r.current endOfFile) (some value))) r'.leave
  | expression {r r' : Reader} {moves : List Move} {expression : Expression}
      (hd : ¬maxNestingDepth ≤ r.depth) (hb : r.kind ≠ .openBrace)
      (hv : ¬(r.kind = .varKeyword ∨ r.kind = .letKeyword)) (hi : r.kind ≠ .ifKeyword)
      (hw : r.kind ≠ .whileKeyword) (hr : r.kind ≠ .returnKeyword)
      (he : Runs .expression r.enter moves (.expression expression) r') :
      Runs .statement r (Move.nested moves) (.statement (.expression expression)) r'.leave
  | noStatements {r : Reader} (h : r.kind = .closeBrace ∨ r.kind = .endOfFile) :
      Runs .statements r [] (.statements []) r
  | statements {r r₁ r' : Reader} {moves rest : List Move} {first : Statement}
      {more : List Statement} (h : ¬(r.kind = .closeBrace ∨ r.kind = .endOfFile))
      (hf : Runs .statement r moves (.statement first) r₁)
      (hm : Runs .statements (r₁.perform endOfFile (r.recovery r₁)) rest (.statements more) r') :
      Runs .statements r (moves ++ (r.recovery r₁ ++ rest)) (.statements (first :: more)) r'
  -- functions and members
  | noParameters {r : Reader} (h : r.kind = .closeParen ∨ r.kind = .endOfFile) :
      Runs .parameters r [] (.tokens []) r
  | lastParameter {r r' : Reader} {moves : List Move} {last : Token}
      (h : ¬(r.kind = .closeParen ∨ r.kind = .endOfFile))
      (hi : Runs (.token .identifier) r moves (.token last) r') (hk : r'.kind ≠ .comma) :
      Runs .parameters r moves (.tokens [last]) r'
  | parameter {r r₁ r' : Reader} {moves rest : List Move} {first : Token} {more : List Token}
      (h : ¬(r.kind = .closeParen ∨ r.kind = .endOfFile))
      (hi : Runs (.token .identifier) r moves (.token first) r₁) (hk : r₁.kind = .comma)
      (hm : Runs .parameters (r₁.next endOfFile) rest (.tokens more) r') :
      Runs .parameters r (moves ++ .next :: rest) (.tokens (first :: more)) r'
  | function {r r₁ r₂ r₃ r₄ r₅ r₆ r₇ r' : Reader}
      {keywordMoves nameMoves openMoves parameterMoves closeMoves openingMoves bodyMoves
        closingMoves : List Move}
      {keyword identifier openParen closeParen opening closing : Token} {parameters : List Token}
      {body : List Statement}
      (hk : Runs (.token .functionKeyword) r keywordMoves (.token keyword) r₁)
      (hi : Runs (.token .identifier) r₁ nameMoves (.token identifier) r₂)
      (ho : Runs (.token .openParen) r₂ openMoves (.token openParen) r₃)
      (hp : Runs .parameters r₃ parameterMoves (.tokens parameters) r₄)
      (hc : Runs (.token .closeParen) r₄ closeMoves (.token closeParen) r₅)
      (hb : Runs (.token .openBrace) r₅ openingMoves (.token opening) r₆)
      (hs : Runs .statements r₆ bodyMoves (.statements body) r₇)
      (he : Runs (.token .closeBrace) r₇ closingMoves (.token closing) r') :
      Runs .function r
        (keywordMoves ++ (nameMoves ++ (openMoves ++ (parameterMoves ++ (closeMoves ++
          (openingMoves ++ (bodyMoves ++ closingMoves)))))))
        (.function ⟨keyword, identifier, parameters, opening, body, closing⟩) r'
  | functionMember {r r' : Reader} {moves : List Move} {declaration : FunctionDeclaration}
      (h : r.kind = .functionKeyword) (hf : Runs .function r moves (.function declaration) r') :
      Runs .member r moves (.member (.function declaration)) r'
  | statementMember {r r' : Reader} {moves : List Move} {statement : Statement}
      (h : r.kind ≠ .functionKeyword) (hs : Runs .statement r moves (.statement statement) r') :
      Runs .member r moves (.member (.statement statement)) r'

/-- The moves through all members that are left, and the reader at the end. -/
inductive RunsMembers : Reader → List Move → List Member → Reader → Prop
  | none {r : Reader} (h : r.kind = .endOfFile) : RunsMembers r [] [] r
  | member {r r₁ r' : Reader} {moves rest : List Move} {first : Member} {more : List Member}
      (h : r.kind ≠ .endOfFile) (hf : Runs endOfFile .member r moves (.member first) r₁)
      (hm : RunsMembers (r₁.perform endOfFile (r.recovery r₁)) rest more r') :
      RunsMembers r (moves ++ (r.recovery r₁ ++ rest)) (first :: more) r'

end

/-! ## The parser makes these moves -/

/-- What the routine is for the parser at a depth. -/
def Routine.goal (depth : Nat) : Routine → Goal
  | .token kind => .token kind
  | .expression => .expression depth
  | .binary parent => .binary depth parent
  | .operators parent left => .operators depth parent left
  | .primary => .primary depth
  | .arguments => .arguments depth
  | .statement => .statement depth
  | .statements => .statements depth
  | .parameters => .parameters
  | .function => .function
  | .member => .member

/-- The parser never asks for the end, and a function stands on no level but the outermost. -/
def Routine.Callable (depth : Nat) : Routine → Prop
  | .token kind => kind ≠ .endOfFile
  | .function | .member => depth = 0
  | _ => True

/-- A goal without its depth. -/
def Goal.routine : Goal → Routine
  | .token kind => .token kind
  | .expression _ => .expression
  | .binary _ parent => .binary parent
  | .operators _ parent left => .operators parent left
  | .primary _ => .primary
  | .arguments _ => .arguments
  | .statement _ => .statement
  | .statements _ => .statements
  | .parameters => .parameters
  | .function => .function
  | .member => .member

/-- The reader counts as many levels as the goal says. -/
def Goal.CountedAs (depth : Nat) : Goal → Prop
  | .expression level | .binary level _ | .operators level _ _ | .primary level | .arguments level
  | .statement level | .statements level => level = depth
  | .function | .member => depth = 0
  | .token _ | .parameters => True

variable {endOfFile : Token} {routine : Routine} {r r₁ r' : Reader} {moves : List Move}
  {tree : Tree}

/-! What comes next is not the end, if a branch of the parser looks for something else. -/

theorem Kind.ne_end_of_unary {kind : Kind} {parent : Nat}
    (h : kind.unaryPrecedence ≠ 0 ∧ parent ≤ kind.unaryPrecedence) : kind ≠ .endOfFile := by
  rintro rfl
  exact h.1 rfl

theorem Kind.ne_end_of_binary {kind : Kind} {parent : Nat}
    (h : ¬(kind.binaryPrecedence = 0 ∨ kind.binaryPrecedence ≤ parent)) : kind ≠ .endOfFile := by
  rintro rfl
  exact h (.inl rfl)

theorem Kind.ne_end_of_literal {kind : Kind}
    (h : kind = .trueKeyword ∨ kind = .falseKeyword ∨ kind = .number ∨ kind = .string) :
    kind ≠ .endOfFile := by
  rcases h with rfl | rfl | rfl | rfl <;> exact Kind.noConfusion

theorem Kind.ne_end_of_variable {kind : Kind} (h : kind = .varKeyword ∨ kind = .letKeyword) :
    kind ≠ .endOfFile := by
  rcases h with rfl | rfl <;> exact Kind.noConfusion

theorem callable_token {kind : Kind} {depth : Nat} (h : kind ≠ .endOfFile) :
    (Routine.token kind).Callable depth := h

theorem Reader.next_eq (h : r.rest ≠ []) :
    r.next endOfFile = { r with toState := r.advance } := by
  obtain ⟨token, rest, hr⟩ := List.exists_cons_of_ne_nil h
  simp [Reader.next, State.advance, State.current, hr]

theorem Reader.toState_next (h : r.rest ≠ []) : (r.next endOfFile).toState = r.advance := by
  rw [next_eq h]

theorem next_taken {kind : Kind} (hk : kind ≠ .endOfFile) (h : r.kind = kind) :
    r.next endOfFile = { r with toState := r.advance } :=
  Reader.next_eq (State.rest_ne_nil (by rw [h]; exact hk))

theorem toState_taken {kind : Kind} (hk : kind ≠ .endOfFile) (h : r.kind = kind) :
    (r.next endOfFile).toState = r.advance :=
  Reader.toState_next (State.rest_ne_nil (by rw [h]; exact hk))

/-- Two tokens, where the second is not the end. -/
theorem Reader.toState_next_next {first second : Kind} (h₁ : first ≠ .endOfFile)
    (h₂ : second ≠ .endOfFile) (h : r.kind = first ∧ r.secondKind = second) :
    ((r.next endOfFile).next endOfFile).toState = r.advance.advance := by
  have hfirst : (r.next endOfFile).toState = r.advance :=
    toState_next (State.rest_ne_nil (by rw [h.1]; exact h₁))
  have hsecond : r.advance.rest ≠ [] :=
    State.rest_ne_nil (by rw [State.kind_advance, h.2]; exact h₂)
  rw [toState_next (by rw [hfirst]; exact hsecond), hfirst]

@[simp] theorem Reader.depth_recovery (start r : Reader) :
    (r.perform endOfFile (start.recovery r)).depth = r.depth := by
  unfold Reader.recovery
  split <;> rfl

/-- A round that read nothing skips the token that it found. -/
theorem Reader.toState_recovery {start r : Reader} (h : start.rest ≠ []) :
    (r.perform endOfFile (start.recovery r)).toState = start.skipIfStuck r.toState := by
  unfold Reader.recovery State.skipIfStuck
  split
  · rename_i hlen
    refine toState_next fun hr => h (List.length_eq_zero_iff.1 ?_)
    rw [← hlen, hr, List.length_nil]
  · rfl

theorem Reader.depth_leave {depth : Nat} (h : r.depth = depth + 1) : r.leave.depth = depth := by
  rw [Reader.leave, h, Nat.add_sub_cancel]

/-- A routine leaves the count of levels as it was, and does what the parser does at that depth. -/
theorem Runs.reads (h : Runs endOfFile routine r moves tree r') {depth : Nat} {s : State}
    (hdepth : r.depth = depth) (hs : r.toState = s) (hc : routine.Callable depth) :
    r'.depth = depth ∧ Reads endOfFile (routine.goal depth) s tree r'.toState := by
  induction h generalizing depth s with subst hdepth hs
  | found h =>
    refine ⟨rfl, ?_⟩
    rw [toState_taken hc h]
    exact .found hc h
  | absent h => exact ⟨rfl, .absent h⟩
  | tooDeep hd => exact ⟨rfl, .tooDeep hd⟩
  | assignment hd h _ ih =>
    obtain ⟨hdepth, hv⟩ := ih rfl (Reader.toState_next_next (by decide) (by decide) h) trivial
    exact ⟨Reader.depth_leave hdepth, .assignment hd h hv⟩
  | operation hd h _ ih =>
    obtain ⟨hdepth, hb⟩ := ih rfl rfl trivial
    exact ⟨Reader.depth_leave hdepth, .operation hd h hb⟩
  | unary h hd _ _ ihOperand ihRest =>
    obtain ⟨hdepth, ho⟩ := ihOperand rfl (toState_taken (Kind.ne_end_of_unary h) rfl) trivial
    obtain ⟨hdepth', hr⟩ := ihRest (Reader.depth_leave hdepth) rfl trivial
    exact ⟨hdepth', .unary h hd ho hr⟩
  | @unaryTooDeep parent r r' more whole h hd _ ih =>
    have hnext : (r.next endOfFile).toState = r.advance :=
      toState_taken (Kind.ne_end_of_unary h) rfl
    rw [Reader.report, hnext] at ih
    obtain ⟨hdepth, hr⟩ := ih rfl rfl trivial
    exact ⟨hdepth, .unaryTooDeep h hd hr⟩
  | operand h _ _ ihLeft ihRest =>
    obtain ⟨hdepth, hl⟩ := ihLeft rfl rfl trivial
    obtain ⟨hdepth', hr⟩ := ihRest hdepth rfl trivial
    exact ⟨hdepth', .operand h hl hr⟩
  | enough h => exact ⟨rfl, .enough h⟩
  | binary h _ _ ihRight ihRest =>
    obtain ⟨hdepth, ho⟩ := ihRight rfl (toState_taken (Kind.ne_end_of_binary h) rfl) trivial
    obtain ⟨hdepth', hr⟩ := ihRest hdepth rfl trivial
    exact ⟨hdepth', .binary h ho hr⟩
  | parenthesized h _ _ ihInner ihClosing =>
    obtain ⟨hdepth, hi⟩ := ihInner rfl (toState_taken (by decide) h) trivial
    obtain ⟨hdepth', hc⟩ := ihClosing hdepth rfl (callable_token (by decide))
    exact ⟨hdepth', .parenthesized h hi hc⟩
  | literal h =>
    refine ⟨rfl, ?_⟩
    rw [toState_taken (Kind.ne_end_of_literal h) rfl]
    exact .literal h
  | call h _ _ ihArguments ihClosing =>
    obtain ⟨hdepth, ha⟩ :=
      ihArguments rfl (Reader.toState_next_next (by decide) (by decide) h) trivial
    obtain ⟨hdepth', hc⟩ := ihClosing hdepth rfl (callable_token (by decide))
    exact ⟨hdepth', .call h ha hc⟩
  | name hp hl hcall _ ih =>
    obtain ⟨hdepth, hi⟩ := ih rfl rfl (callable_token (by decide))
    exact ⟨hdepth, .name hp hl hcall hi⟩
  | noArguments h => exact ⟨rfl, .noArguments h⟩
  | lastArgument h _ hk ih =>
    obtain ⟨hdepth, he⟩ := ih rfl rfl trivial
    exact ⟨hdepth, .lastArgument h he hk⟩
  | argument h _ hk _ ihFirst ihMore =>
    obtain ⟨hdepth, he⟩ := ihFirst rfl rfl trivial
    obtain ⟨hdepth', hm⟩ := ihMore hdepth (toState_taken (by decide) hk) trivial
    exact ⟨hdepth', .argument h he hk hm⟩
  | statementTooDeep hd => exact ⟨rfl, .statementTooDeep hd⟩
  | block hd h _ _ ihStatements ihClosing =>
    obtain ⟨hdepth, hs⟩ := ihStatements rfl (toState_taken (by decide) h) trivial
    obtain ⟨hdepth', hc⟩ := ihClosing hdepth rfl (callable_token (by decide))
    exact ⟨Reader.depth_leave hdepth', .block hd h hs hc⟩
  | «variable» hd h _ _ _ ihName ihEquals ihValue =>
    obtain ⟨hdepth, hi⟩ :=
      ihName rfl (toState_taken (Kind.ne_end_of_variable h) rfl) (callable_token (by decide))
    obtain ⟨hdepth', he⟩ := ihEquals hdepth rfl (callable_token (by decide))
    obtain ⟨hdepth'', hv⟩ := ihValue hdepth' rfl trivial
    exact ⟨Reader.depth_leave hdepth'', .variable hd h hi he hv⟩
  | conditionalElse hd h _ _ hk _ ihCondition ihThen ihElse =>
    obtain ⟨hdepth, hc⟩ := ihCondition rfl (toState_taken (by decide) h) trivial
    obtain ⟨hdepth', ht⟩ := ihThen hdepth rfl trivial
    obtain ⟨hdepth'', he⟩ := ihElse hdepth' (toState_taken (by decide) hk) trivial
    exact ⟨Reader.depth_leave hdepth'', .conditionalElse hd h hc ht hk he⟩
  | conditional hd h _ _ hk ihCondition ihThen =>
    obtain ⟨hdepth, hc⟩ := ihCondition rfl (toState_taken (by decide) h) trivial
    obtain ⟨hdepth', ht⟩ := ihThen hdepth rfl trivial
    exact ⟨Reader.depth_leave hdepth', .conditional hd h hc ht hk⟩
  | loop hd h _ _ ihCondition ihBody =>
    obtain ⟨hdepth, hc⟩ := ihCondition rfl (toState_taken (by decide) h) trivial
    obtain ⟨hdepth', hb⟩ := ihBody hdepth rfl trivial
    exact ⟨Reader.depth_leave hdepth', .loop hd h hc hb⟩
  | @returnNothing r hd h hk =>
    refine ⟨rfl, ?_⟩
    change Reads endOfFile _ _ _ (r.next endOfFile).toState
    rw [toState_taken (by decide) h]
    exact .returnNothing hd h hk
  | «return» hd h hk _ ih =>
    obtain ⟨hdepth, hv⟩ := ih rfl (toState_taken (by decide) h) trivial
    exact ⟨Reader.depth_leave hdepth, .return hd h hk hv⟩
  | expression hd hb hv hi hw hr _ ih =>
    obtain ⟨hdepth, he⟩ := ih rfl rfl trivial
    exact ⟨Reader.depth_leave hdepth, .expression hd hb hv hi hw hr he⟩
  | noStatements h => exact ⟨rfl, .noStatements h⟩
  | statements h _ _ ihFirst ihMore =>
    obtain ⟨hdepth, hf⟩ := ihFirst rfl rfl trivial
    have hne := State.rest_ne_nil fun hk => h (.inr hk)
    obtain ⟨hdepth', hm⟩ :=
      ihMore (by rw [Reader.depth_recovery, hdepth]) (Reader.toState_recovery hne) trivial
    exact ⟨hdepth', .statements h hf hm⟩
  | noParameters h => exact ⟨rfl, .noParameters h⟩
  | lastParameter h _ hk ih =>
    obtain ⟨hdepth, hi⟩ := ih rfl rfl (callable_token (by decide))
    exact ⟨hdepth, .lastParameter h hi hk⟩
  | parameter h _ hk _ ihFirst ihMore =>
    obtain ⟨hdepth, hi⟩ := ihFirst rfl rfl (callable_token (by decide))
    obtain ⟨hdepth', hm⟩ := ihMore hdepth (toState_taken (by decide) hk) trivial
    exact ⟨hdepth', .parameter h hi hk hm⟩
  | function _ _ _ _ _ _ _ _ ihKeyword ihName ihOpen ihParameters ihClose ihOpening ihBody
      ihClosing =>
    obtain ⟨d₁, hk⟩ := ihKeyword rfl rfl (callable_token (by decide))
    obtain ⟨d₂, hi⟩ := ihName d₁ rfl (callable_token (by decide))
    obtain ⟨d₃, ho⟩ := ihOpen d₂ rfl (callable_token (by decide))
    obtain ⟨d₄, hp⟩ := ihParameters d₃ rfl trivial
    obtain ⟨d₅, hcl⟩ := ihClose d₄ rfl (callable_token (by decide))
    obtain ⟨d₆, hb⟩ := ihOpening d₅ rfl (callable_token (by decide))
    obtain ⟨d₇, hs⟩ := ihBody d₆ rfl trivial
    obtain ⟨d₈, he⟩ := ihClosing d₇ rfl (callable_token (by decide))
    rw [Routine.goal, hc] at hs
    exact ⟨d₈, .function hk hi ho hp hcl hb hs he⟩
  | functionMember h _ ih =>
    obtain ⟨hdepth, hf⟩ := ih rfl rfl hc
    exact ⟨hdepth, .functionMember h hf⟩
  | statementMember h _ ih =>
    obtain ⟨hdepth, hs⟩ := ih rfl rfl trivial
    rw [Routine.goal, hc] at hs
    exact ⟨hdepth, .statementMember h hs⟩

/-! ## There are moves for all that the parser does -/

/-- Whatever the parser does, a reader that counts its depth does by some moves. -/
theorem Reads.runs {goal : Goal} {s s' : State} (h : Reads endOfFile goal s tree s') {r : Reader}
    (hs : r.toState = s) (hd : goal.CountedAs r.depth) :
    ∃ moves, Runs endOfFile goal.routine r moves tree { r with toState := s' } := by
  induction h generalizing r with subst hs
  | found hk h =>
    rw [← next_taken hk h]
    exact ⟨_, .found h⟩
  | absent h => exact ⟨_, .absent h⟩
  | tooDeep hd' =>
    subst hd
    exact ⟨_, .tooDeep hd'⟩
  | assignment hd' h _ ih =>
    subst hd
    obtain ⟨moves, hv⟩ := ih (r := (r.enter.next endOfFile).next endOfFile)
      (Reader.toState_next_next (by decide) (by decide) h) rfl
    exact ⟨_, .assignment hd' h hv⟩
  | operation hd' h _ ih =>
    subst hd
    obtain ⟨moves, hb⟩ := ih (r := r.enter) rfl rfl
    exact ⟨_, .operation hd' h hb⟩
  | unary h hd' _ _ ihOperand ihRest =>
    subst hd
    obtain ⟨moves, ho⟩ := ihOperand (r := (r.next endOfFile).enter)
      (toState_taken (Kind.ne_end_of_unary h) rfl) rfl
    obtain ⟨more, hr⟩ := ihRest (r := ⟨_, r.depth⟩) rfl rfl
    exact ⟨_, .unary h hd' ho hr⟩
  | unaryTooDeep h hd' _ ih =>
    subst hd
    obtain ⟨more, hr⟩ := ih (r := ⟨_, r.depth⟩) rfl rfl
    refine ⟨.next :: .report .nestedTooDeeply .identifier :: more, .unaryTooDeep h hd' ?_⟩
    rw [next_taken (Kind.ne_end_of_unary h) rfl]
    exact hr
  | operand h _ _ ihLeft ihRest =>
    subst hd
    obtain ⟨moves, hl⟩ := ihLeft (r := r) rfl rfl
    obtain ⟨more, hr⟩ := ihRest (r := ⟨_, r.depth⟩) rfl rfl
    exact ⟨_, .operand h hl hr⟩
  | enough h => exact ⟨_, .enough h⟩
  | binary h _ _ ihRight ihRest =>
    subst hd
    obtain ⟨moves, ho⟩ := ihRight (r := r.next endOfFile)
      (toState_taken (Kind.ne_end_of_binary h) rfl) rfl
    obtain ⟨more, hr⟩ := ihRest (r := ⟨_, r.depth⟩) rfl rfl
    exact ⟨_, .binary h ho hr⟩
  | parenthesized h _ _ ihInner ihClosing =>
    subst hd
    obtain ⟨moves, hi⟩ := ihInner (r := r.next endOfFile) (toState_taken (by decide) h) rfl
    obtain ⟨more, hc⟩ := ihClosing (r := ⟨_, r.depth⟩) rfl trivial
    exact ⟨_, .parenthesized h hi hc⟩
  | literal h =>
    rw [← next_taken (Kind.ne_end_of_literal h) rfl]
    exact ⟨_, .literal h⟩
  | call h _ _ ihArguments ihClosing =>
    subst hd
    obtain ⟨moves, ha⟩ := ihArguments (r := (r.next endOfFile).next endOfFile)
      (Reader.toState_next_next (by decide) (by decide) h) rfl
    obtain ⟨more, hc⟩ := ihClosing (r := ⟨_, r.depth⟩) rfl trivial
    exact ⟨_, .call h ha hc⟩
  | name hp hl hc _ ih =>
    obtain ⟨moves, hi⟩ := ih (r := r) rfl trivial
    exact ⟨_, .name hp hl hc hi⟩
  | noArguments h => exact ⟨_, .noArguments h⟩
  | lastArgument h _ hk ih =>
    obtain ⟨moves, he⟩ := ih (r := r) rfl hd
    exact ⟨_, .lastArgument h he hk⟩
  | argument h _ hk _ ihFirst ihMore =>
    obtain ⟨moves, he⟩ := ihFirst (r := r) rfl hd
    obtain ⟨rest, hm⟩ := ihMore (r := Reader.next endOfFile ⟨_, r.depth⟩)
      (toState_taken (r := ⟨_, r.depth⟩) (by decide) hk) hd
    exact ⟨_, .argument h he hk hm⟩
  | statementTooDeep hd' =>
    subst hd
    exact ⟨_, .statementTooDeep hd'⟩
  | block hd' h _ _ ihStatements ihClosing =>
    subst hd
    obtain ⟨moves, hs⟩ := ihStatements (r := r.enter.next endOfFile)
      (toState_taken (by decide) h) rfl
    obtain ⟨more, hc⟩ := ihClosing (r := ⟨_, r.depth + 1⟩) rfl trivial
    exact ⟨_, .block hd' h hs hc⟩
  | «variable» hd' h _ _ _ ihName ihEquals ihValue =>
    subst hd
    obtain ⟨moves, hi⟩ := ihName (r := r.enter.next endOfFile)
      (toState_taken (Kind.ne_end_of_variable h) rfl) trivial
    obtain ⟨more, he⟩ := ihEquals (r := ⟨_, r.depth + 1⟩) rfl trivial
    obtain ⟨rest, hv⟩ := ihValue (r := ⟨_, r.depth + 1⟩) rfl rfl
    exact ⟨_, .variable hd' h hi he hv⟩
  | conditionalElse hd' h _ _ hk _ ihCondition ihThen ihElse =>
    subst hd
    obtain ⟨moves, hc⟩ := ihCondition (r := r.enter.next endOfFile)
      (toState_taken (by decide) h) rfl
    obtain ⟨more, ht⟩ := ihThen (r := ⟨_, r.depth + 1⟩) rfl rfl
    obtain ⟨rest, he⟩ := ihElse (r := Reader.next endOfFile ⟨_, r.depth + 1⟩)
      (toState_taken (r := ⟨_, r.depth + 1⟩) (by decide) hk) rfl
    exact ⟨_, .conditionalElse hd' h hc ht hk he⟩
  | conditional hd' h _ _ hk ihCondition ihThen =>
    subst hd
    obtain ⟨moves, hc⟩ := ihCondition (r := r.enter.next endOfFile)
      (toState_taken (by decide) h) rfl
    obtain ⟨more, ht⟩ := ihThen (r := ⟨_, r.depth + 1⟩) rfl rfl
    exact ⟨_, .conditional hd' h hc ht hk⟩
  | loop hd' h _ _ ihCondition ihBody =>
    subst hd
    obtain ⟨moves, hc⟩ := ihCondition (r := r.enter.next endOfFile)
      (toState_taken (by decide) h) rfl
    obtain ⟨more, hb⟩ := ihBody (r := ⟨_, r.depth + 1⟩) rfl rfl
    exact ⟨_, .loop hd' h hc hb⟩
  | returnNothing hd' h hk =>
    subst hd
    have run := @Runs.returnNothing endOfFile r hd' h hk
    rw [next_taken (r := r.enter) (by decide) h] at run
    exact ⟨_, run⟩
  | «return» hd' h hk _ ih =>
    subst hd
    obtain ⟨moves, hv⟩ := ih (r := r.enter.next endOfFile)
      (toState_taken (by decide) h) rfl
    exact ⟨_, .return hd' h hk hv⟩
  | expression hd' hb hv hi hw hr _ ih =>
    subst hd
    obtain ⟨moves, he⟩ := ih (r := r.enter) rfl rfl
    exact ⟨_, .expression hd' hb hv hi hw hr he⟩
  | noStatements h => exact ⟨_, .noStatements h⟩
  | @statements depth s s₁ s' first more h _ _ ihFirst ihMore =>
    subst hd
    have hne := State.rest_ne_nil fun hk => h (.inr hk)
    obtain ⟨moves, hf⟩ := ihFirst (r := r) rfl rfl
    obtain ⟨rest, hm⟩ := ihMore
      (r := Reader.perform endOfFile ⟨s₁, r.depth⟩ (r.recovery ⟨s₁, r.depth⟩))
      (Reader.toState_recovery hne) (by rw [Reader.depth_recovery]; rfl)
    rw [Reader.depth_recovery] at hm
    exact ⟨_, .statements h hf hm⟩
  | noParameters h => exact ⟨_, .noParameters h⟩
  | lastParameter h _ hk ih =>
    obtain ⟨moves, hi⟩ := ih (r := r) rfl trivial
    exact ⟨_, .lastParameter h hi hk⟩
  | parameter h _ hk _ ihFirst ihMore =>
    obtain ⟨moves, hi⟩ := ihFirst (r := r) rfl trivial
    obtain ⟨rest, hm⟩ := ihMore (r := Reader.next endOfFile ⟨_, r.depth⟩)
      (toState_taken (r := ⟨_, r.depth⟩) (by decide) hk) trivial
    exact ⟨_, .parameter h hi hk hm⟩
  | function _ _ _ _ _ _ _ _ ihKeyword ihName ihOpen ihParameters ihClose ihOpening ihBody
      ihClosing =>
    obtain ⟨_, hk⟩ := ihKeyword (r := r) rfl trivial
    obtain ⟨_, hi⟩ := ihName (r := ⟨_, r.depth⟩) rfl trivial
    obtain ⟨_, ho⟩ := ihOpen (r := ⟨_, r.depth⟩) rfl trivial
    obtain ⟨_, hp⟩ := ihParameters (r := ⟨_, r.depth⟩) rfl trivial
    obtain ⟨_, hc⟩ := ihClose (r := ⟨_, r.depth⟩) rfl trivial
    obtain ⟨_, hb⟩ := ihOpening (r := ⟨_, r.depth⟩) rfl trivial
    obtain ⟨_, hs⟩ := ihBody (r := ⟨_, r.depth⟩) rfl hd.symm
    obtain ⟨_, he⟩ := ihClosing (r := ⟨_, r.depth⟩) rfl trivial
    exact ⟨_, .function hk hi ho hp hc hb hs he⟩
  | functionMember h _ ih =>
    obtain ⟨moves, hf⟩ := ih (r := r) rfl hd
    exact ⟨_, .functionMember h hf⟩
  | statementMember h _ ih =>
    obtain ⟨moves, hs⟩ := ih (r := r) rfl hd.symm
    exact ⟨_, .statementMember h hs⟩

/-- There is nothing that the parser cannot be asked to read, but for the end. -/
theorem exists_reads {goal : Goal} (hk : goal ≠ .token .endOfFile) (s : State) :
    ∃ tree s', Reads endOfFile goal s tree s' := by
  obtain ⟨hexpression, hbinary, hprimary, harguments, hoperators⟩ := reads_expressions endOfFile
  obtain ⟨hstatement, hstatements⟩ := reads_statements endOfFile
  cases goal with
  | token kind => exact ⟨_, _, reads_token endOfFile (fun h => hk (by rw [h])) s⟩
  | expression depth => exact ⟨_, _, hexpression depth s⟩
  | binary depth parent => exact ⟨_, _, hbinary depth parent s⟩
  | operators depth parent left => exact ⟨_, _, hoperators depth parent left s⟩
  | primary depth => exact ⟨_, _, hprimary depth s⟩
  | arguments depth => exact ⟨_, _, harguments depth s⟩
  | statement depth => exact ⟨_, _, hstatement depth s⟩
  | statements depth => exact ⟨_, _, hstatements depth s⟩
  | parameters => exact ⟨_, _, reads_parameters endOfFile s⟩
  | function => exact ⟨_, _, reads_function endOfFile s⟩
  | member => exact ⟨_, _, reads_member endOfFile s⟩

/-- A routine comes to an end, wherever it is called. -/
theorem exists_runs (hc : routine.Callable r.depth) :
    ∃ moves tree r', Runs endOfFile routine r moves tree r' := by
  have hk : routine.goal r.depth ≠ .token .endOfFile := by
    cases routine with
    | token kind => exact fun h => hc (Goal.token.inj h)
    | _ => exact fun h => nomatch h
  have hcounted : (routine.goal r.depth).CountedAs r.depth := by
    cases routine <;> first | exact hc | exact trivial | rfl
  have hroutine : (routine.goal r.depth).routine = routine := by cases routine <;> rfl
  obtain ⟨tree, s', h⟩ : ∃ tree s', Reads endOfFile (routine.goal r.depth) r.toState tree s' :=
    exists_reads hk _
  obtain ⟨moves, run⟩ := h.runs rfl hcounted
  rw [hroutine] at run
  exact ⟨moves, tree, _, run⟩

end ReplayShell.Syntax
