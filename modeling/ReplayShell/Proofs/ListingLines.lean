import ReplayShell.Program.Listing

/-!
# The lines of a listing

What a listing holds, without the functions that write it: one rule for each form of an expression
or a statement.

* `Line` is a line with its indentation, `written` the text of lines.
* `Shows` are the texts of expressions, `Lines` the lines of a statement, `Function.Lines` those of
  a function: its head, its body four columns further in, and a closing line.
* `shows_text`, `listing_lines` and `listing_function`: a listing is written so.
-/
namespace ReplayShell.Program

/-! ## Expressions -/

mutual

/-- The text that an expression is shown by. -/
inductive Shows : Expression → String → Prop
  | invalid : Shows .invalid "?"
  | integer (value : Int) : Shows (.literal (.integer value)) (toString value)
  | boolean (value : Bool) : Shows (.literal (.boolean value)) (if value then "true" else "false")
  | string (value : String) : Shows (.literal (.string value)) (Text.quote value)
  | variable (ref : VariableRef) (span : Span) : Shows (.variable ref span) ref.name
  | assignment {value : Expression} {text : String} (ref : VariableRef) (h : Shows value text) :
      Shows (.assignment ref value) (ref.name ++ " = " ++ text)
  | unary {operand : Expression} {text : String} (op : UnaryOp) (span : Span)
      (h : Shows operand text) : Shows (.unary op operand span) (op.symbol ++ text)
  | binary {left right : Expression} {first second : String} (op : BinaryOp) (span : Span)
      (hl : Shows left first) (hr : Shows right second) :
      Shows (.binary left op right span) ("(" ++ first ++ " " ++ op.symbol ++ " " ++ second ++ ")")
  | call {arguments : List Expression} {texts : List String} (name : String) (callee : Callee)
      (span : Span) (h : ShowsAll arguments texts) :
      Shows (.call name callee arguments span) (name ++ "(" ++ ", ".intercalate texts ++ ")")

/-- The texts that expressions are shown by, one after the other. -/
inductive ShowsAll : List Expression → List String → Prop
  | nil : ShowsAll [] []
  | cons {first : Expression} {rest : List Expression} {text : String} {texts : List String}
      (h : Shows first text) (hm : ShowsAll rest texts) : ShowsAll (first :: rest) (text :: texts)

end

mutual

theorem shows_text : ∀ expression : Expression, Shows expression expression.text
  | .invalid => .invalid
  | .literal (.integer value) => .integer value
  | .literal (.boolean true) => .boolean true
  | .literal (.boolean false) => .boolean false
  | .literal (.string value) => .string value
  | .variable ref span => .variable ref span
  | .assignment ref value => .assignment ref (shows_text value)
  | .unary op operand span => .unary op span (shows_text operand)
  | .binary left op right span => .binary op span (shows_text left) (shows_text right)
  | .call name callee arguments span => .call name callee span (showsAll_texts arguments)

theorem showsAll_texts : ∀ expressions : List Expression,
    ShowsAll expressions (expressionTexts expressions)
  | [] => .nil
  | first :: rest => .cons (shows_text first) (showsAll_texts rest)

end

/-! ## Statements -/

/-- A line of a listing. -/
structure Line where
  indent : Nat
  text : String

/-- The text of lines: each comes after its spaces and ends with a line feed. -/
def written : List Line → String
  | [] => ""
  | line :: rest =>
    String.ofList (List.replicate line.indent ' ') ++ line.text ++ "\n" ++ written rest

theorem written_append (lines more : List Line) :
    written (lines ++ more) = written lines ++ written more := by
  induction lines with
  | nil => simp [written]
  | cons line rest ih => rw [List.cons_append, written, written, ih, ← String.append_assoc]

/-- How far a statement below a condition is indented: a block as far as the condition, any other
statement four columns further. -/
inductive Nested (indent : Nat) : Statement → Nat → Prop
  | block (statements : List Statement) : Nested indent (.block statements) indent
  | other {statement : Statement} (h : ∀ statements, statement ≠ .block statements) :
      Nested indent statement (indent + 4)

mutual

/-- The lines of a statement that is indented so far. -/
inductive Lines : Nat → Statement → List Line → Prop
  -- A brace that stands alone in a text is written by its code.
  | block {indent : Nat} {statements : List Statement} {lines : List Line}
      (h : LinesOfAll (indent + 4) statements lines) :
      Lines indent (.block statements) (⟨indent, "\x7b"⟩ :: (lines ++ [⟨indent, "\x7d"⟩]))
  | variable {indent : Nat} {initializer : Expression} {text : String} (ref : VariableRef)
      (readOnly : Bool) (h : Shows initializer text) :
      Lines indent (.variable ref readOnly initializer)
        [⟨indent, (if readOnly then "let " else "var ") ++ ref.name ++ " = " ++ text⟩]
  | conditional {indent inner : Nat} {condition : Expression} {thenBranch : Statement}
      {text : String} {lines : List Line} (hc : Shows condition text)
      (hn : Nested indent thenBranch inner) (h : Lines inner thenBranch lines) :
      Lines indent (.conditional condition thenBranch none) (⟨indent, "if " ++ text⟩ :: lines)
  | conditionalElse {indent inner inner' : Nat} {condition : Expression}
      {thenBranch elseBranch : Statement} {text : String} {lines lines' : List Line}
      (hc : Shows condition text) (hn : Nested indent thenBranch inner)
      (h : Lines inner thenBranch lines) (hn' : Nested indent elseBranch inner')
      (h' : Lines inner' elseBranch lines') :
      Lines indent (.conditional condition thenBranch (some elseBranch))
        (⟨indent, "if " ++ text⟩ :: (lines ++ ⟨indent, "else"⟩ :: lines'))
  | loop {indent inner : Nat} {condition : Expression} {body : Statement} {text : String}
      {lines : List Line} (hc : Shows condition text) (hn : Nested indent body inner)
      (h : Lines inner body lines) :
      Lines indent (.loop condition body) (⟨indent, "while " ++ text⟩ :: lines)
  | leave {indent : Nat} : Lines indent (.return none) [⟨indent, "return"⟩]
  | return {indent : Nat} {value : Expression} {text : String} (h : Shows value text) :
      Lines indent (.return (some value)) [⟨indent, "return " ++ text⟩]
  | expression {indent : Nat} {expression : Expression} {text : String}
      (h : Shows expression text) : Lines indent (.expression expression) [⟨indent, text⟩]

/-- The lines of statements, one after the other. -/
inductive LinesOfAll : Nat → List Statement → List Line → Prop
  | nil {indent : Nat} : LinesOfAll indent [] []
  | cons {indent : Nat} {first : Statement} {rest : List Statement} {lines more : List Line}
      (h : Lines indent first lines) (hm : LinesOfAll indent rest more) :
      LinesOfAll indent (first :: rest) (lines ++ more)

end

/-- The lines of a function: one with its name and its parameters, its body, and a closing line. -/
inductive Function.Lines (function : Function) : List Line → Prop
  | body {lines : List Line} (h : LinesOfAll 4 function.body lines) :
      function.Lines
        (⟨0, "function " ++ function.symbol.name ++ "(" ++
            ", ".intercalate function.symbol.parameters ++ ") \x7b"⟩ :: (lines ++ [⟨0, "\x7d"⟩]))

theorem nested_nestedIndent (indent : Nat) (statement : Statement) :
    Nested indent statement (nestedIndent indent statement) := by
  cases statement with
  | block statements => exact .block statements
  | _ => exact .other (by simp)

theorem indentedLine_eq (indent : Nat) (text : String) :
    Text.indentedLine indent text = written [⟨indent, text⟩] := by
  simp [Text.indentedLine, written]

/-- A line and then others. -/
theorem written_cons (line : Line) (lines : List Line) :
    written (line :: lines) = Text.indentedLine line.indent line.text ++ written lines := rfl

mutual

/-- The listing of a statement consists of its lines. -/
theorem listing_lines (indent : Nat) : ∀ statement : Statement,
    ∃ lines, Lines indent statement lines ∧ statement.listing indent = written lines
  | .block statements => by
    obtain ⟨lines, h, hw⟩ := listStatements_lines (indent + 4) statements
    refine ⟨_, .block h, ?_⟩
    rw [Statement.listing, hw, written_cons, written_append, indentedLine_eq indent "\x7d",
      String.append_assoc]
  | .variable ref readOnly initializer =>
    ⟨_, .variable ref readOnly (shows_text initializer), indentedLine_eq _ _⟩
  | .conditional condition thenBranch none => by
    obtain ⟨lines, h, hw⟩ := listing_lines (nestedIndent indent thenBranch) thenBranch
    refine ⟨_, .conditional (shows_text condition) (nested_nestedIndent _ _) h, ?_⟩
    rw [Statement.listing, hw, written_cons, listElse, String.append_empty]
  | .conditional condition thenBranch (some elseBranch) => by
    obtain ⟨lines, h, hw⟩ := listing_lines (nestedIndent indent thenBranch) thenBranch
    obtain ⟨lines', h', hw'⟩ := listing_lines (nestedIndent indent elseBranch) elseBranch
    refine ⟨_, .conditionalElse (shows_text condition) (nested_nestedIndent _ _) h
      (nested_nestedIndent _ _) h', ?_⟩
    rw [Statement.listing, listElse, hw, hw', written_cons, written_append, written_cons,
      String.append_assoc]
  | .loop condition body => by
    obtain ⟨lines, h, hw⟩ := listing_lines (nestedIndent indent body) body
    refine ⟨_, .loop (shows_text condition) (nested_nestedIndent _ _) h, ?_⟩
    rw [Statement.listing, hw, written_cons]
  | .return none => ⟨_, .leave, indentedLine_eq _ _⟩
  | .return (some value) => by
    refine ⟨_, .return (shows_text value), ?_⟩
    rw [Statement.listing, ← String.append_assoc]
    exact indentedLine_eq _ _
  | .expression expression => ⟨_, .expression (shows_text expression), indentedLine_eq _ _⟩

theorem listStatements_lines (indent : Nat) : ∀ statements : List Statement,
    ∃ lines, LinesOfAll indent statements lines ∧ listStatements indent statements = written lines
  | [] => ⟨[], .nil, rfl⟩
  | first :: rest => by
    obtain ⟨lines, h, hw⟩ := listing_lines indent first
    obtain ⟨more, hm, hw'⟩ := listStatements_lines indent rest
    refine ⟨_, .cons h hm, ?_⟩
    rw [listStatements, hw, hw', written_append]

end

/-- The listing of a function consists of its lines. -/
theorem listing_function (function : Function) :
    ∃ lines, function.Lines lines ∧ function.listing = written lines := by
  obtain ⟨lines, h, hw⟩ := listStatements_lines 4 function.body
  refine ⟨_, .body h, ?_⟩
  rw [Function.listing, FunctionSymbol.signature, hw, written_cons, written_append]
  simp [written, Text.indentedLine, String.append_assoc]

/-- A function of three lines. -/
example : written [⟨0, "function f() \x7b"⟩, ⟨4, "return 1"⟩, ⟨0, "\x7d"⟩] =
    "function f() \x7b\n    return 1\n\x7d\n" := by decide

end ReplayShell.Program
