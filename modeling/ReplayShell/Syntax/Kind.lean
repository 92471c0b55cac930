/-!
# Kinds of tokens

* `Kind` tells the tokens of the language apart, `Kind.name` is its name in messages and trees.
* `Kind.category` is the coarser class that highlighting goes by.
* `Kind.keyword?` recognises the reserved words.
* `Kind.unaryPrecedence` and `Kind.binaryPrecedence` hold the precedence table; 0 means that the
  token is no operator of that sort.
-/
namespace ReplayShell.Syntax

/-- The kinds of tokens. -/
inductive Kind where
  | endOfFile
  | bad
  | whitespace
  | comment
  | number
  | string
  | identifier
  | plus
  | minus
  | star
  | slash
  | percent
  | bang
  | equals
  | equalsEquals
  | bangEquals
  | less
  | lessEquals
  | greater
  | greaterEquals
  | ampersandAmpersand
  | pipePipe
  | openParen
  | closeParen
  | openBrace
  | closeBrace
  | comma
  | varKeyword
  | letKeyword
  | functionKeyword
  | returnKeyword
  | ifKeyword
  | elseKeyword
  | whileKeyword
  | trueKeyword
  | falseKeyword
  deriving DecidableEq, Repr

/-- The display classes of tokens. -/
inductive Category where
  | keyword
  | identifier
  | number
  | string
  | punctuation
  | whitespace
  | comment
  | bad
  | endOfFile
  deriving DecidableEq, Repr

namespace Kind

/-- The name of the kind in diagnostics and printed trees. -/
def name : Kind → String
  | .endOfFile => "EndOfFile"
  | .bad => "BadToken"
  | .whitespace => "Whitespace"
  | .comment => "Comment"
  | .number => "Number"
  | .string => "String"
  | .identifier => "Identifier"
  | .plus => "Plus"
  | .minus => "Minus"
  | .star => "Star"
  | .slash => "Slash"
  | .percent => "Percent"
  | .bang => "Bang"
  | .equals => "Equals"
  | .equalsEquals => "EqualsEquals"
  | .bangEquals => "BangEquals"
  | .less => "Less"
  | .lessEquals => "LessEquals"
  | .greater => "Greater"
  | .greaterEquals => "GreaterEquals"
  | .ampersandAmpersand => "AmpersandAmpersand"
  | .pipePipe => "PipePipe"
  | .openParen => "OpenParen"
  | .closeParen => "CloseParen"
  | .openBrace => "OpenBrace"
  | .closeBrace => "CloseBrace"
  | .comma => "Comma"
  | .varKeyword => "VarKeyword"
  | .letKeyword => "LetKeyword"
  | .functionKeyword => "FunctionKeyword"
  | .returnKeyword => "ReturnKeyword"
  | .ifKeyword => "IfKeyword"
  | .elseKeyword => "ElseKeyword"
  | .whileKeyword => "WhileKeyword"
  | .trueKeyword => "TrueKeyword"
  | .falseKeyword => "FalseKeyword"

/-- The kind of a reserved word. -/
def keyword? (word : String) : Option Kind :=
  match word with
  | "var" => some .varKeyword
  | "let" => some .letKeyword
  | "function" => some .functionKeyword
  | "return" => some .returnKeyword
  | "if" => some .ifKeyword
  | "else" => some .elseKeyword
  | "while" => some .whileKeyword
  | "true" => some .trueKeyword
  | "false" => some .falseKeyword
  | _ => none

/-- Whether the kind is a reserved word's. -/
def isKeyword : Kind → Bool
  | .varKeyword | .letKeyword | .functionKeyword | .returnKeyword | .ifKeyword | .elseKeyword
  | .whileKeyword | .trueKeyword | .falseKeyword => true
  | _ => false

/-- Whether the parser passes over tokens of the kind. -/
def isTrivia : Kind → Bool
  | .whitespace | .comment => true
  | _ => false

/-- The display class of the kind. -/
def category : Kind → Category
  | .endOfFile => .endOfFile
  | .bad => .bad
  | .whitespace => .whitespace
  | .comment => .comment
  | .number => .number
  | .string => .string
  | .identifier => .identifier
  | kind => if kind.isKeyword then .keyword else .punctuation

/-- How tightly the token binds the operand after it when it starts an operand. -/
def unaryPrecedence : Kind → Nat
  | .plus | .minus | .bang => 6
  | _ => 0

/-- How tightly the token binds the operands on its two sides. -/
def binaryPrecedence : Kind → Nat
  | .star | .slash | .percent => 5
  | .plus | .minus => 4
  | .equalsEquals | .bangEquals | .less | .lessEquals | .greater | .greaterEquals => 3
  | .ampersandAmpersand => 2
  | .pipePipe => 1
  | _ => 0

theorem binaryPrecedence_lt_unaryPrecedence {unary binary : Kind}
    (h : unary.unaryPrecedence ≠ 0) : binary.binaryPrecedence < unary.unaryPrecedence := by
  have hu : unary.unaryPrecedence = 6 := by
    cases unary <;> first | rfl | exact absurd rfl h
  rw [hu]
  cases binary <;> decide

theorem isKeyword_of_keyword? {word : String} {kind : Kind} (h : keyword? word = some kind) :
    kind.isKeyword = true := by
  unfold keyword? at h
  split at h <;> first | (cases h; rfl) | cases h

end Kind

/-- The name of the display class. -/
def Category.name : Category → String
  | .keyword => "Keyword"
  | .identifier => "Identifier"
  | .number => "Number"
  | .string => "String"
  | .punctuation => "Punctuation"
  | .whitespace => "Whitespace"
  | .comment => "Comment"
  | .bad => "Bad"
  | .endOfFile => "EndOfFile"

end ReplayShell.Syntax
