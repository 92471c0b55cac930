import ReplayShell.Proofs.Printing
import ReplayShell.Proofs.Recasting

/-!
# Listed expressions as syntax

A listing puts parentheses around binary operators and around nothing else.

* `Expression.displayed` is the tree that a listed expression should be read as, and
  `Expression.displayTokens` its tokens.
* `Legible` says that the names of an expression stand for what it uses, and that its literals are
  such as the language has. `legible_of_written`: so it is of what was resolved from a text.
* `written_displayed`, `resolve_displayed`: the tree is written with the tokens, and is resolved to
  the expression.
* `Expression.Explicit`: no assignment is an operand. `grouped_displayed`: then the tree is grouped
  as the syntax wants it.
-/
namespace ReplayShell

open Syntax (Kind Token Written Occurs freshToken mark)

/-- The kind of token that writes the operator. -/
def UnaryOp.kind : UnaryOp → Kind
  | .identity => .plus
  | .negate => .minus
  | .not => .bang

theorem UnaryOp.spelling_kind (op : UnaryOp) : op.kind.spelling = op.symbol := by
  cases op <;> rfl

theorem UnaryOp.ofKind_kind (op : UnaryOp) : ofKind op.kind = op := by
  cases op <;> rfl

/-- The kind of token that writes the operator. -/
def BinaryOp.kind : BinaryOp → Kind
  | .add => .plus
  | .subtract => .minus
  | .multiply => .star
  | .divide => .slash
  | .remainder => .percent
  | .equals => .equalsEquals
  | .notEquals => .bangEquals
  | .less => .less
  | .lessOrEquals => .lessEquals
  | .greater => .greater
  | .greaterOrEquals => .greaterEquals
  | .and => .ampersandAmpersand
  | .or => .pipePipe

theorem BinaryOp.spelling_kind (op : BinaryOp) : op.kind.spelling = op.symbol := by
  cases op <;> rfl

theorem BinaryOp.ofKind?_kind (op : BinaryOp) : ofKind? op.kind = some op := by
  cases op <;> rfl

namespace Program

/-! ## Trees and tokens -/

/-- The token of a literal. -/
def literalToken (value : Value) : Token :=
  freshToken
    (match value with
      | .integer _ => .number
      | .boolean true => .trueKeyword
      | .boolean false => .falseKeyword
      | .string _ => .string)
    (literalText value)

mutual

/-- The tree that the listed expression should be read as. -/
def Expression.displayed : Expression → Syntax.Expression
  | .invalid => .name (freshToken .bad "?")
  | .literal value => .literal (literalToken value) value
  | .variable ref _ => .name (freshToken .identifier ref.name)
  | .assignment ref value => .assignment (freshToken .identifier ref.name) value.displayed
  | .unary op operand _ => .unary (mark op.kind) operand.displayed
  | .binary left op right _ =>
    .parenthesized (mark .openParen) (.binary left.displayed (mark op.kind) right.displayed)
      (mark .closeParen)
  | .call name _ arguments _ =>
    .call (freshToken .identifier name) (displayedAll arguments) (mark .closeParen)

/-- The trees that listed arguments should be read as. -/
def displayedAll : List Expression → List Syntax.Expression
  | [] => []
  | first :: rest => first.displayed :: displayedAll rest

end

mutual

/-- The tokens of a listed expression. -/
def Expression.displayTokens : Expression → List Token
  | .invalid => [freshToken .bad "?"]
  | .literal value => [literalToken value]
  | .variable ref _ => [freshToken .identifier ref.name]
  | .assignment ref value => freshToken .identifier ref.name :: mark .equals :: value.displayTokens
  | .unary op operand _ => mark op.kind :: operand.displayTokens
  | .binary left op right _ =>
    mark .openParen ::
      (left.displayTokens ++ mark op.kind :: right.displayTokens ++ [mark .closeParen])
  | .call name _ arguments _ =>
    freshToken .identifier name :: mark .openParen ::
      (argumentTokens arguments ++ [mark .closeParen])

/-- The tokens of listed arguments, with commas between them. -/
def argumentTokens : List Expression → List Token
  | [] => []
  | [last] => last.displayTokens
  | first :: next :: rest =>
    first.displayTokens ++ mark .comma :: argumentTokens (next :: rest)

end

/-! ## Expressions that can be listed -/

/-- A character that stands for itself between quotes, or is written as a short escape. -/
def IsPlain (c : Char) : Prop := c = '\t' ∨ c = '\n' ∨ (' ' ≤ c ∧ c ≤ '~')

instance : DecidablePred IsPlain := fun _ => inferInstanceAs (Decidable (_ ∨ _ ∨ _))

/-- In the environment names stand for what the code uses, and literals are values that the
language has. -/
inductive Legible (env : Environment) : Code → Prop
  | integer {n : Int} (hn : 0 ≤ n) (h : n ≤ maxInteger) :
      Legible env (.expression (.literal (.integer n)))
  | boolean (b : Bool) : Legible env (.expression (.literal (.boolean b)))
  | string {text : String} (h : ∀ c ∈ text.toList, IsPlain c) :
      Legible env (.expression (.literal (.string text)))
  | variable {ref : VariableRef} {readOnly : Bool} (span : Span)
      (hs : Kind.identifier.Spells ref.name.toList)
      (hl : env.lookupVariable ref.name = some (ref.slot, readOnly)) :
      Legible env (.expression (.variable ref span))
  | assignment {ref : VariableRef} {value : Expression}
      (hs : Kind.identifier.Spells ref.name.toList)
      (hl : env.lookupVariable ref.name = some (ref.slot, false))
      (hv : Legible env (.expression value)) : Legible env (.expression (.assignment ref value))
  | unary {operand : Expression} (op : UnaryOp) (span : Span)
      (ho : Legible env (.expression operand)) :
      Legible env (.expression (.unary op operand span))
  | binary {left right : Expression} (op : BinaryOp) (span : Span)
      (hl : Legible env (.expression left)) (hr : Legible env (.expression right)) :
      Legible env (.expression (.binary left op right span))
  | call {name : String} {callee : Callee} {arguments : List Expression} (span : Span)
      (hs : Kind.identifier.Spells name.toList)
      (hl : env.lookupCallee name = some (callee, arguments.length))
      (ha : Legible env (.expressions arguments)) :
      Legible env (.expression (.call name callee arguments span))
  | noExpressions : Legible env (.expressions [])
  | expressions {first : Expression} {rest : List Expression}
      (hf : Legible env (.expression first)) (hr : Legible env (.expressions rest)) :
      Legible env (.expressions (first :: rest))

variable {env : Environment}

mutual

theorem displayed_unplaced : ∀ expression : Expression,
    expression.displayed.unplaced = expression.displayed
  | .invalid | .literal _ | .variable _ _ => rfl
  | .assignment _ value =>
    congrArg (Syntax.Expression.assignment _) (displayed_unplaced value)
  | .unary _ operand _ => congrArg (Syntax.Expression.unary _) (displayed_unplaced operand)
  | .binary left _ right _ =>
    congrArg₂ (fun left right => Syntax.Expression.parenthesized (mark .openParen)
      (.binary left _ right) (mark .closeParen))
      (displayed_unplaced left) (displayed_unplaced right)
  | .call _ _ arguments _ =>
    congrArg (Syntax.Expression.call _ · (mark .closeParen)) (displayedAll_unplaced arguments)

theorem displayedAll_unplaced : ∀ arguments : List Expression,
    Syntax.unplacedExpressions (displayedAll arguments) = displayedAll arguments
  | [] => rfl
  | first :: rest => congrArg₂ List.cons (displayed_unplaced first) (displayedAll_unplaced rest)

end

/-- The tree that a listed expression should be read as is resolved to it, but for the places. -/
def Restores (env : Environment) : Code → Prop
  | .expression code => resolveExpression env code.displayed = (code.recast id, [])
  | .expressions code =>
    resolveExpressions env (displayedAll code) = (recastExpressions id code, [])
  | _ => True

theorem span_displayed (expression : Expression) : expression.displayed.span = ⟨0, 0⟩ := by
  rw [← displayed_unplaced, span_unplaced]

theorem resolve_displayed {code : Code} (h : Legible env code) : Restores env code := by
  induction h with
  | integer | boolean | string | noExpressions => rfl
  | «variable» span _ hl =>
    simp only [Restores, Expression.displayed, resolveExpression, freshToken, hl]
    rfl
  | assignment _ hl _ ih =>
    simp only [Restores, Expression.displayed, resolveExpression, freshToken, hl] at ih ⊢
    rw [ih]
    rfl
  | unary op span _ ih =>
    simp only [Restores, Expression.displayed, resolveExpression, span_displayed] at ih ⊢
    rw [ih]
    exact congrArg (fun op => (Expression.unary op _ _, [])) op.ofKind_kind
  | binary op span _ _ ihLeft ihRight =>
    have hkind : BinaryOp.ofKind? (mark op.kind).kind = some op := op.ofKind?_kind
    simp only [Restores, Expression.displayed, resolveExpression, span_displayed, hkind] at *
    rw [ihLeft, ihRight]
    rfl
  | @call name callee arguments span _ hl _ ih =>
    have hlength : (recastExpressions id arguments).length = arguments.length :=
      length_recastExpressions arguments
    simp only [Restores, Expression.displayed, resolveExpression, freshToken] at ih ⊢
    simp only [ih, resolveCall, hl, hlength, if_true]
    cases callee <;> rfl
  | expressions _ _ ihFirst ihRest =>
    simp only [Restores, displayedAll, resolveExpressions] at ihFirst ihRest ⊢
    rw [ihFirst, ihRest]
    rfl

/-! ## Literals -/

theorem isPrintable_of_ascii {c : Char} (hlo : ' ' ≤ c) (hhi : c ≤ '~') :
    Text.isPrintable c = true := by
  have hc : Text.Ranges.covers [(0x20, 0x7e)] c = true :=
    Text.Ranges.covers_iff.2 ⟨_, List.mem_singleton_self _, hlo, hhi⟩
  have hfree : ∀ other : Text.Ranges, Text.Ranges.apart [(0x20, 0x7e)] other = true →
      other.covers c = false := fun _ h => Text.Ranges.covers_eq_false h hc
  rw [Text.isPrintable, hfree Text.unprintableRanges (by decide +kernel),
    hfree Text.fillerRanges (by decide +kernel), hfree Text.extenderRanges (by decide +kernel)]
  exact ite_self _

/-- A plain character between quotes: a short escape, or itself. -/
theorem escapeChar_cases {c : Char} (h : IsPlain c) :
    (c = '\n' ∧ Text.escapeChar c = ['\\', 'n']) ∨ (c = '\t' ∧ Text.escapeChar c = ['\\', 't']) ∨
      ((c = '\\' ∨ c = '"') ∧ Text.escapeChar c = ['\\', c]) ∨
      ((c ≠ '"' ∧ c ≠ '\\' ∧ c ≠ '\n' ∧ c ≠ '\r') ∧ Text.escapeChar c = [c]) := by
  rcases h with rfl | rfl | ⟨hlo, hhi⟩
  · exact .inr (.inl ⟨rfl, rfl⟩)
  · exact .inl ⟨rfl, rfl⟩
  · have hp := isPrintable_of_ascii hlo hhi
    have hcontrol : ∀ d : Char, d.toNat < 32 → c ≠ d := by
      rintro d hd rfl
      exact absurd hd (Nat.not_lt.2 hlo)
    have hzero := hcontrol '\x00' (by decide)
    have htab := hcontrol '\t' (by decide)
    have hreturn := hcontrol '\r' (by decide)
    have hfeed := hcontrol '\n' (by decide)
    by_cases hq : c = '\\' ∨ c = '"'
    · exact .inr (.inr (.inl ⟨hq, by simp [Text.escapeChar, hzero, htab, hreturn, hfeed, hq]⟩))
    · obtain ⟨hbackslash, hquote⟩ := not_or.1 hq
      refine .inr (.inr (.inr ⟨⟨hquote, hbackslash, hfeed, hreturn⟩, ?_⟩))
      simp [Text.escapeChar, hzero, htab, hreturn, hfeed, hq, hp]

theorem unescape_escapeChar {c : Char} (h : IsPlain c) (rest : List Char) :
    Syntax.unescape (Text.escapeChar c ++ rest) = c :: Syntax.unescape rest := by
  rcases escapeChar_cases h with ⟨rfl, he⟩ | ⟨rfl, he⟩ | ⟨hc, he⟩ | ⟨⟨-, hb, -, -⟩, he⟩
  · rw [he]
    rfl
  · rw [he]
    rfl
  · rw [he]
    rcases hc with rfl | rfl <;> rfl
  · rw [he, List.singleton_append, Syntax.unescape]
    all_goals simp [hb]

/-- A plain text between quotes is read as itself. -/
theorem stringValue_quote {text : String} (h : ∀ c ∈ text.toList, IsPlain c) :
    Syntax.stringValue (Text.quote text).toList = text := by
  have hunescape : ∀ cs : List Char, (∀ c ∈ cs, IsPlain c) →
      Syntax.unescape (cs.flatMap Text.escapeChar) = cs := by
    intro cs hcs
    induction cs with
    | nil => rfl
    | cons c cs ih =>
      obtain ⟨hc, hcs⟩ := List.forall_mem_cons.1 hcs
      rw [List.flatMap_cons, unescape_escapeChar hc, ih hcs]
  have hquote : (Text.quote text).toList =
      '"' :: (text.toList.flatMap Text.escapeChar ++ ['"']) := String.toList_ofList
  rw [hquote, Syntax.stringValue]
  simp only [List.getLast?_concat, if_true, List.dropLast_concat]
  rw [hunescape _ h, String.ofList_toList]

/-- The digits of a number are read as it. -/
theorem decimalValue_toDigits (n : Nat) : Syntax.decimalValue (Nat.toDigits 10 n) = n := by
  rw [Syntax.decimalValue, ← Nat.ofDigitChars_eq_foldl]
  exact Nat.ofDigitChars_toDigits (by omega) (by omega)

theorem toList_literalText_natCast (n : Nat) :
    (literalText (.integer n)).toList = Nat.toDigits 10 n :=
  Nat.toList_repr

/-- A listed literal is read as itself. -/
theorem literalValue_literalToken {value : Value} (h : Legible env (.expression (.literal value))) :
    Syntax.literalValue (literalToken value) = value := by
  cases h with
  | @integer n hn h =>
    obtain ⟨n, rfl⟩ := Int.eq_ofNat_of_zero_le hn
    have hvalue : Syntax.decimalValue (literalText (.integer n)).toList = n := by
      rw [toList_literalText_natCast, decimalValue_toDigits]
    simp only [Syntax.literalValue, literalToken, freshToken, hvalue, if_pos h]
  | boolean b => cases b <;> rfl
  | string h => exact congrArg Value.string (stringValue_quote h)

/-! ## How the trees are written -/

/-- The tree of listed code is written with its tokens. -/
def WrittenOut : Code → Prop
  | .expression code => Written (.expression code.displayed) code.displayTokens
  | .expressions code => Written (.expressions (displayedAll code)) (argumentTokens code)
  | _ => True

theorem written_displayed {code : Code} (h : Legible env code) : WrittenOut code := by
  have literal : ∀ value, Legible env (.expression (.literal value)) →
      WrittenOut (.expression (.literal value)) := by
    intro value h
    have hw : Written (.expression (.literal (literalToken value)
        (Syntax.literalValue (literalToken value)))) [literalToken value] := by
      refine .literal ?_
      cases h with
      | integer => exact .inr (.inr (.inl rfl))
      | boolean b => cases b <;> simp [literalToken, freshToken]
      | string => exact .inr (.inr (.inr rfl))
    rwa [literalValue_literalToken h] at hw
  induction h with
  | integer hn h => exact literal _ (.integer hn h)
  | boolean b => exact literal _ (.boolean b)
  | string h => exact literal _ (.string h)
  | «variable» => exact .name rfl
  | assignment _ _ _ ih => exact .assignment rfl rfl ih
  | unary op _ _ ih => exact .unary (by cases op <;> decide) ih
  | binary op _ _ _ ihLeft ihRight =>
    exact .parenthesized rfl (.binary ihLeft (by cases op <;> decide) ihRight) rfl
  | call _ _ _ _ ih => exact .call rfl rfl ih rfl
  | noExpressions => exact .noExpressions
  | @expressions first rest _ _ ihFirst ihRest =>
    cases rest with
    | nil => exact .lastExpression ihFirst
    | cons next rest => exact .expressions ihFirst rfl ihRest

/-! ## What texts are resolved to -/

/-- If there is no problem with the code of the tree, it is legible. -/
def Becomes (env : Environment) : Syntax.Tree → Prop
  | .expression part => (resolveExpression env part).2 = [] →
    Legible env (.expression (resolveExpression env part).1)
  | .expressions parts => (resolveExpressions env parts).2 = [] →
    Legible env (.expressions (resolveExpressions env parts).1)
  | _ => True

/-- No token is missing, names are spelled as names are, and literals of text are plain. -/
structure Plain (tree : Syntax.Tree) (ts : List Token) : Prop where
  present : ∀ token ∈ ts, token.missing = false
  spelled : ∀ token ∈ ts, token.kind = .identifier → Kind.identifier.Spells token.text.toList
  literals : ∀ token text, Occurs (.literal token (.string text)) tree →
    ∀ c ∈ text.toList, IsPlain c

theorem Plain.part {tree tree' : Syntax.Tree} {ts us : List Token} (h : Plain tree ts)
    (hsub : us ⊆ ts) (ho : ∀ part, Occurs part tree' → Occurs part tree) : Plain tree' us where
  present token ht := h.present token (hsub ht)
  spelled token ht := h.spelled token (hsub ht)
  literals token text hl := h.literals token text (ho _ hl)

theorem literalValue_bounds {token : Token} {n : Int}
    (h : Syntax.literalValue token = .integer n) : 0 ≤ n ∧ n ≤ maxInteger := by
  unfold Syntax.literalValue at h
  split at h
  · obtain rfl := Value.integer.inj h
    split
    · rename_i hle
      exact ⟨Int.natCast_nonneg _, hle⟩
    · decide
  · cases h
  · cases h

/-- What is written in a text is legible once it is resolved. -/
theorem legible_of_written {tree : Syntax.Tree} {ts : List Token} (h : Written tree ts)
    (hp : Plain tree ts) : Becomes env tree := by
  induction h with
  | @literal token _ =>
    intro _
    change Legible env (.expression (.literal (Syntax.literalValue token)))
    cases hv : Syntax.literalValue token with
    | integer n =>
      obtain ⟨hn, hle⟩ := literalValue_bounds hv
      exact .integer hn hle
    | boolean b => exact .boolean b
    | string text => exact .string (hp.literals token text (hv ▸ .self))
  | @name identifier hk =>
    intro h
    have hpresent : identifier.missing = false := hp.present identifier (by simp)
    simp only [resolveExpression, hpresent, Bool.false_eq_true, if_false] at h ⊢
    split at h
    · rename_i slot readOnly hl
      exact .variable _ (hp.spelled identifier (by simp) hk) hl
    · cases h
  | @assignment identifier equals value ts hk _ _ ih =>
    intro h
    simp only [resolveExpression] at h ⊢
    split at h
    · exact absurd h (by simp)
    · rename_i slot hl
      have hvalue := ih (hp.part (by simp) fun _ => .assignment) h
      exact .assignment (hp.spelled identifier (by simp) hk) hl hvalue
    · exact absurd h (by simp)
  | unary _ _ ih => exact fun h => .unary _ _ (ih (hp.part (by simp) fun _ => .unary) h)
  | @binary left right operator ts us _ hb _ ihLeft ihRight =>
    intro h
    simp only [resolveExpression] at h ⊢
    obtain ⟨op, hop⟩ := Option.isSome_iff_exists.1 ((BinaryOp.ofKind?_isSome_iff _).2 hb)
    rw [hop] at h ⊢
    obtain ⟨hl, hr⟩ := List.append_eq_nil_iff.1 h
    exact .binary _ _ (ihLeft (hp.part (by simp) fun _ => .binaryLeft) hl)
      (ihRight (hp.part (by simp) fun _ => .binaryRight) hr)
  | parenthesized _ _ _ ih => exact ih (hp.part (by simp) fun _ => .parenthesized)
  | @call identifier opening closing arguments ts hk _ _ _ ih =>
    intro h
    simp only [resolveExpression] at h ⊢
    obtain ⟨ha, hc⟩ := List.append_eq_nil_iff.1 h
    have harguments := ih (hp.part (fun _ ht => by simp [ht]) fun _ => .argument) ha
    unfold resolveCall at hc ⊢
    dsimp only at hc ⊢
    split at hc
    · cases hc
    · rename_i callee arity hl
      split at hc
      · rename_i hlength
        rw [if_pos hlength]
        exact .call _ (hp.spelled identifier (by simp) hk) (hlength ▸ hl) harguments
      · cases hc
  | noExpressions => exact fun _ => .noExpressions
  | lastExpression _ ih =>
    intro h
    obtain ⟨hf, -⟩ := List.append_eq_nil_iff.1 h
    exact .expressions (ih (hp.part (fun _ ht => ht) fun _ => .firstExpression) hf) .noExpressions
  | expressions _ _ _ ihFirst ihMore =>
    intro h
    obtain ⟨hf, hm⟩ := List.append_eq_nil_iff.1 h
    exact .expressions (ihFirst (hp.part (by simp) fun _ => .firstExpression) hf)
      (ihMore (hp.part (by simp) fun _ => .moreExpressions) hm)
  | _ => trivial

/-! ## Operands -/

/-- Whether the expression is an assignment. -/
def Expression.isAssignment : Expression → Bool
  | .assignment _ _ => true
  | _ => false

mutual

/-- No assignment is an operand, here or further down. -/
def Expression.Explicit : Expression → Prop
  | .invalid | .literal _ | .variable _ _ => True
  | .assignment _ value => value.Explicit
  | .unary _ operand _ => operand.isAssignment = false ∧ operand.Explicit
  | .binary left _ right _ =>
    (left.isAssignment = false ∧ right.isAssignment = false) ∧ left.Explicit ∧ right.Explicit
  | .call _ _ arguments _ => explicitAll arguments

/-- The same of each of the arguments. -/
def explicitAll : List Expression → Prop
  | [] => True
  | first :: rest => first.Explicit ∧ explicitAll rest

end

mutual

instance decidableExplicit : ∀ expression : Expression, Decidable expression.Explicit
  | .invalid | .literal _ | .variable _ _ => .isTrue trivial
  | .assignment _ value => decidableExplicit value
  | .unary _ operand _ => @instDecidableAnd _ _ _ (decidableExplicit operand)
  | .binary left _ right _ =>
    @instDecidableAnd _ _ instDecidableAnd
      (@instDecidableAnd _ _ (decidableExplicit left) (decidableExplicit right))
  | .call _ _ arguments _ => decidableExplicitAll arguments

instance decidableExplicitAll : ∀ arguments : List Expression, Decidable (explicitAll arguments)
  | [] => .isTrue trivial
  | first :: rest => @instDecidableAnd _ _ (decidableExplicit first) (decidableExplicitAll rest)

end

/-- Only an assignment is displayed as one. Binary operators have parentheses around them. -/
theorem isOperand_displayed {expression : Expression} (h : expression.isAssignment = false)
    (allowed : Nat → Prop) : expression.displayed.IsOperand allowed := by
  cases expression with
  | assignment => cases h
  | invalid | literal | «variable» | unary | binary | call => trivial

mutual

theorem grouped_displayed : ∀ expression : Expression, expression.Explicit →
    (Syntax.Tree.expression expression.displayed).Grouped
  | .invalid, _ | .variable _ _, _ => Syntax.Tree.grouped_name
  | .literal _, _ => Syntax.Tree.grouped_literal
  | .assignment _ value, h => Syntax.Tree.grouped_assignment.2 (grouped_displayed value h)
  | .unary _ operand _, ⟨ho, h⟩ =>
    Syntax.Tree.grouped_unary.2 ⟨isOperand_displayed ho _, grouped_displayed operand h⟩
  | .binary left _ right _, ⟨⟨hl, hr⟩, hleft, hright⟩ =>
    Syntax.Tree.grouped_parenthesized.2 (Syntax.Tree.grouped_binary.2
      ⟨⟨isOperand_displayed hl _, isOperand_displayed hr _⟩, grouped_displayed left hleft,
        grouped_displayed right hright⟩)
  | .call _ _ arguments _, h => Syntax.Tree.grouped_call.2 (grouped_displayedAll arguments h)

theorem grouped_displayedAll : ∀ arguments : List Expression, explicitAll arguments →
    (Syntax.Tree.expressions (displayedAll arguments)).Grouped
  | [], _ => Syntax.Tree.grouped_noExpressions
  | first :: rest, ⟨hf, hr⟩ =>
    Syntax.Tree.grouped_expressions.2 ⟨grouped_displayed first hf, grouped_displayedAll rest hr⟩

end

end Program

end ReplayShell
