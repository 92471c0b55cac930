import ReplayShell.Proofs.DisplayTokens
import ReplayShell.Proofs.Recasting
import ReplayShell.Proofs.TokenSpans

/-!
# Listed expressions read back

A listing shows an expression so that it can be read back, but for an assignment that is an operand:
its parentheses are lost.

* `WritableAs` says of which kinds the tokens are that code may be written with.
  `writableAs_of_written`: so is what was resolved from a text.
* `WritableAs.forced`: where these are the tokens of the listing, no assignment is an operand.
* `ReadsBack`: the listed expression is parsed and resolved to the same again.
* `readsBack_iff`: it is, just if no assignment is an operand in it.
-/
namespace ReplayShell

/-- Whether it is a parenthesis. -/
def Syntax.Kind.isBracket (kind : Kind) : Bool := kind = .openParen || kind = .closeParen

theorem UnaryOp.isBracket_kind (op : UnaryOp) : op.kind.isBracket = false := by
  cases op <;> rfl

theorem BinaryOp.isBracket_kind (op : BinaryOp) : op.kind.isBracket = false := by
  cases op <;> rfl

namespace Program

open Syntax (Kind Token Tree Written Occurs)

/-! ## Kinds of tokens -/

/-- How many of the kinds are no parentheses. -/
def marks (kinds : List Kind) : Nat := kinds.countP (!·.isBracket)

/-- As many parentheses are opened as are closed. -/
def Balanced (kinds : List Kind) : Prop := kinds.count .openParen = kinds.count .closeParen

/-- The kinds of the tokens of a listed expression. -/
def Expression.kinds (expression : Expression) : List Kind :=
  expression.displayTokens.map Token.kind

/-- The kinds of the tokens of listed arguments. -/
def argumentKinds (arguments : List Expression) : List Kind :=
  (argumentTokens arguments).map Token.kind

/-- The code may be written with tokens of the kinds. An assignment that is an operand has
parentheses around it. -/
inductive WritableAs : Code → List Kind → Prop
  | invalid : WritableAs (.expression .invalid) [.identifier]
  | literal (value : Value) {kind : Kind} (hk : kind.isBracket = false) :
      WritableAs (.expression (.literal value)) [kind]
  | variable (ref : VariableRef) (span : Span) :
      WritableAs (.expression (.variable ref span)) [.identifier]
  | assignment (ref : VariableRef) {value : Expression} {ks : List Kind}
      (hv : WritableAs (.expression value) ks) :
      WritableAs (.expression (.assignment ref value)) (.identifier :: .equals :: ks)
  | unary (op : UnaryOp) {operand : Expression} (span : Span) {kind : Kind} {ks : List Kind}
      (hk : kind.isBracket = false) (ho : WritableAs (.expression operand) ks)
      (hb : operand.isAssignment = true → ks.head? = some .openParen) :
      WritableAs (.expression (.unary op operand span)) (kind :: ks)
  | binary {left right : Expression} (op : BinaryOp) (span : Span) {kind : Kind} {ks ls : List Kind}
      (hk : kind.isBracket = false) (hl : WritableAs (.expression left) ks)
      (hr : WritableAs (.expression right) ls)
      (hbl : left.isAssignment = true → ks.head? = some .openParen)
      (hbr : right.isAssignment = true → ls.head? = some .openParen) :
      WritableAs (.expression (.binary left op right span)) (ks ++ kind :: ls)
  | parenthesized {inner : Expression} {ks : List Kind} (h : WritableAs (.expression inner) ks) :
      WritableAs (.expression inner) (.openParen :: (ks ++ [.closeParen]))
  | call (name : String) (callee : Callee) {arguments : List Expression} (span : Span)
      {ks : List Kind} (ha : WritableAs (.expressions arguments) ks) :
      WritableAs (.expression (.call name callee arguments span))
        (.identifier :: .openParen :: (ks ++ [.closeParen]))
  | noExpressions : WritableAs (.expressions []) []
  | lastExpression {last : Expression} {ks : List Kind} (h : WritableAs (.expression last) ks) :
      WritableAs (.expressions [last]) ks
  | expressions {first : Expression} {more : List Expression} {ks ls : List Kind}
      (hf : WritableAs (.expression first) ks) (hm : WritableAs (.expressions more) ls) :
      WritableAs (.expressions (first :: more)) (ks ++ .comma :: ls)

/-- Two lists with as many marks up to a mark have the same before it and the same after it. -/
theorem append_cons_inj {ks ls ks' ls' : List Kind} {kind kind' : Kind}
    (hk : kind.isBracket = false) (hk' : kind'.isBracket = false) (hm : marks ks = marks ks')
    (h : ks ++ kind :: ls = ks' ++ kind' :: ls') : ks = ks' ∧ ls = ls' := by
  have longer : ∀ (ks more : List Kind) (kind : Kind), kind.isBracket = false →
      marks (ks ++ kind :: more) ≠ marks ks := by
    intro ks more kind hk
    simp [marks, hk]
  rcases List.append_eq_append_iff.1 h with ⟨more, rfl, hrest⟩ | ⟨more, rfl, hrest⟩
  · cases more with
    | nil =>
      rw [List.append_nil]
      exact ⟨rfl, (List.cons.inj hrest).2⟩
    | cons first more =>
      obtain ⟨rfl, -⟩ := List.cons.inj hrest
      exact absurd hm.symm (longer ks more kind hk)
  · cases more with
    | nil =>
      rw [List.append_nil]
      exact ⟨rfl, (List.cons.inj hrest).2.symm⟩
    | cons first more =>
      obtain ⟨rfl, -⟩ := List.cons.inj hrest
      exact absurd hm (longer ks' more kind' hk')

/-! ## Written and resolved -/

/-- Code without problems may be written with the kinds of the tokens of its tree. -/
def Keeps (env : Environment) : Tree → List Token → Prop
  | .expression part, ts => (resolveExpression env part).2 = [] →
    WritableAs (.expression (resolveExpression env part).1) (ts.map Token.kind)
  | .expressions parts, ts => (resolveExpressions env parts).2 = [] →
    WritableAs (.expressions (resolveExpressions env parts).1) (ts.map Token.kind)
  | _, _ => True

variable {env : Environment}

theorem isBracket_of_precedence {kind : Kind}
    (h : kind.unaryPrecedence ≠ 0 ∨ kind.binaryPrecedence ≠ 0) : kind.isBracket = false := by
  cases kind with
  | openParen | closeParen => simp [Kind.unaryPrecedence, Kind.binaryPrecedence] at h
  | _ => rfl

/-- An operand that is resolved to an assignment is written with parentheses around it. -/
theorem head_of_operand {operand : Syntax.Expression} {ts : List Token} {allowed : Nat → Prop}
    (h : Written (.expression operand) ts) (ho : operand.IsOperand allowed)
    (ha : (resolveExpression env operand).1.isAssignment = true) :
    (ts.map Token.kind).head? = some .openParen := by
  cases h with
  | assignment => cases ho
  | parenthesized hopen => exact congrArg some hopen
  | literal => cases ha
  | name =>
    simp only [resolveExpression] at ha
    split at ha
    · cases ha
    · split at ha <;> cases ha
  | unary => cases ha
  | binary =>
    simp only [resolveExpression] at ha
    split at ha <;> cases ha
  | call =>
    simp only [resolveExpression, resolveCall] at ha
    split at ha
    · cases ha
    · split at ha <;> cases ha

theorem writableAs_of_written {tree : Tree} {ts : List Token} (h : Written tree ts)
    (hg : tree.Grouped) : Keeps env tree ts := by
  induction h with
  | @literal token hk =>
    intro _
    refine .literal _ ?_
    rcases hk with hk | hk | hk | hk <;> rw [hk] <;> rfl
  | @name identifier hk =>
    intro _
    simp only [resolveExpression]
    rw [List.map_singleton, hk]
    split
    · exact .invalid
    · cases env.lookupVariable identifier.text with
      | none => exact .invalid
      | some found => exact .variable _ _
  | @assignment identifier equals value ts hi he _ ih =>
    intro h
    simp only [resolveExpression] at h ⊢
    rw [List.map_cons, List.map_cons, hi, he]
    split at h
    · exact absurd h (by simp)
    · exact .assignment _ (ih (Tree.grouped_assignment.1 hg) h)
    · exact absurd h (by simp)
  | unary hk hw ih =>
    obtain ⟨ho, hg⟩ := Tree.grouped_unary.1 hg
    exact fun h => .unary _ _ (isBracket_of_precedence (.inl hk)) (ih hg h) (head_of_operand hw ho)
  | @binary left right operator ts us hwl hk hwr ihLeft ihRight =>
    intro h
    obtain ⟨⟨hol, hor⟩, hgl, hgr⟩ := Tree.grouped_binary.1 hg
    simp only [resolveExpression] at h ⊢
    obtain ⟨op, hop⟩ := Option.isSome_iff_exists.1 ((BinaryOp.ofKind?_isSome_iff _).2 hk)
    rw [hop] at h ⊢
    obtain ⟨hl, hr⟩ := List.append_eq_nil_iff.1 h
    rw [List.map_append]
    exact .binary _ _ (isBracket_of_precedence (.inr hk)) (ihLeft hgl hl) (ihRight hgr hr)
      (head_of_operand hwl hol) (head_of_operand hwr hor)
  | parenthesized ho _ hc ih =>
    intro h
    rw [List.map_cons, List.map_append, List.map_singleton, ho, hc]
    exact .parenthesized (ih (Tree.grouped_parenthesized.1 hg) h)
  | @call identifier opening closing arguments ts hi ho _ hc ih =>
    intro h
    simp only [resolveExpression] at h ⊢
    obtain ⟨ha, hcall⟩ := List.append_eq_nil_iff.1 h
    have harguments := ih (Tree.grouped_call.1 hg) ha
    rw [List.map_cons, List.map_cons, List.map_append, List.map_singleton, hi, ho, hc]
    unfold resolveCall at hcall ⊢
    dsimp only at hcall ⊢
    split at hcall
    · cases hcall
    · split at hcall
      · rename_i hlength
        rw [if_pos hlength]
        exact .call _ _ _ harguments
      · cases hcall
  | noExpressions => exact fun _ => .noExpressions
  | lastExpression _ ih =>
    intro h
    obtain ⟨hf, -⟩ := List.append_eq_nil_iff.1 h
    exact .lastExpression (ih (Tree.grouped_expressions.1 hg).1 hf)
  | expressions _ hk _ ihFirst ihMore =>
    intro h
    obtain ⟨hf, hm⟩ := List.append_eq_nil_iff.1 h
    obtain ⟨hgf, hgm⟩ := Tree.grouped_expressions.1 hg
    rw [List.map_append, List.map_cons, hk]
    exact .expressions (ihFirst hgf hf) (ihMore hgm hm)
  | _ => trivial

/-! ## Listings among what code may be written with -/

section

variable (ref : VariableRef) (span : Span) (left right value : Expression)

theorem kinds_assignment :
    (Expression.assignment ref value).kinds = .identifier :: .equals :: value.kinds := rfl

theorem kinds_unary (op : UnaryOp) :
    (Expression.unary op value span).kinds = op.kind :: value.kinds := rfl

theorem kinds_binary (op : BinaryOp) : (Expression.binary left op right span).kinds =
    .openParen :: (left.kinds ++ op.kind :: right.kinds ++ [.closeParen]) := by
  simp [Expression.kinds, Expression.displayTokens, Syntax.mark, Syntax.freshToken]

theorem kinds_call (name : String) (callee : Callee) (arguments : List Expression) :
    (Expression.call name callee arguments span).kinds =
      .identifier :: .openParen :: (argumentKinds arguments ++ [.closeParen]) := by
  simp [Expression.kinds, argumentKinds, Expression.displayTokens, Syntax.mark, Syntax.freshToken]

theorem argumentKinds_cons (first next : Expression) (rest : List Expression) :
    argumentKinds (first :: next :: rest) =
      first.kinds ++ .comma :: argumentKinds (next :: rest) := by
  simp [Expression.kinds, argumentKinds, argumentTokens, Syntax.mark, Syntax.freshToken]

end

variable {code : Code} {kinds : List Kind} {kind : Kind}

theorem marks_append (ks ls : List Kind) : marks (ks ++ ls) = marks ks + marks ls :=
  List.countP_append

theorem marks_mark (hk : kind.isBracket = false) (ks : List Kind) :
    marks (kind :: ks) = marks ks + 1 := by
  rw [marks, List.countP_cons_of_pos (by rw [hk]; rfl), marks]

theorem marks_bracket (hk : kind.isBracket = true) (ks : List Kind) :
    marks (kind :: ks) = marks ks := by
  rw [marks, List.countP_cons_of_neg (by rw [hk]; decide), marks]

theorem marks_replicate (hk : kind.isBracket = true) (n : Nat) :
    marks (List.replicate n kind) = 0 := by
  simp [marks, List.countP_replicate, hk]

theorem marks_wrap (ks : List Kind) : marks (.openParen :: (ks ++ [.closeParen])) = marks ks := by
  rw [marks_bracket rfl, marks_append, marks_bracket rfl]
  rfl

/-- The marks of a listing are among those that the code may be written with. -/
def MarksWithin : Code → List Kind → Prop
  | .expression code, kinds => marks code.kinds ≤ marks kinds
  | .expressions code, kinds => marks (argumentKinds code) ≤ marks kinds
  | _, _ => True

theorem WritableAs.marks_within (h : WritableAs code kinds) : MarksWithin code kinds := by
  induction h with
  | invalid | «variable» => exact Nat.le_refl 1
  | literal value hk =>
    rw [MarksWithin, marks_mark hk]
    cases value with
    | boolean b => cases b <;> exact Nat.le_refl 1
    | _ => exact Nat.le_refl 1
  | assignment ref _ ih =>
    rw [MarksWithin, kinds_assignment, marks_mark rfl, marks_mark rfl, marks_mark rfl,
      marks_mark rfl]
    exact Nat.add_le_add_right ih 2
  | unary op span hk _ _ ih =>
    rw [MarksWithin, kinds_unary, marks_mark op.isBracket_kind, marks_mark hk]
    exact Nat.add_le_add_right ih 1
  | binary op span hk _ _ _ _ ihLeft ihRight =>
    rw [MarksWithin, kinds_binary, marks_wrap, marks_append, marks_append,
      marks_mark op.isBracket_kind, marks_mark hk]
    exact Nat.add_le_add ihLeft (Nat.add_le_add_right ihRight 1)
  | parenthesized _ ih =>
    rw [MarksWithin, marks_wrap]
    exact ih
  | call name callee span _ ih =>
    rw [MarksWithin, kinds_call, marks_mark rfl, marks_wrap, marks_mark rfl, marks_wrap]
    exact Nat.add_le_add_right ih 1
  | noExpressions => exact Nat.le_refl 0
  | lastExpression _ ih => exact ih
  | @expressions first more ks ls _ _ ihFirst ihMore =>
    rw [MarksWithin, marks_append, marks_mark rfl]
    cases more with
    | nil => exact Nat.le_add_right_of_le ihFirst
    | cons next rest =>
      rw [argumentKinds_cons, marks_append, marks_mark rfl]
      exact Nat.add_le_add ihFirst (Nat.add_le_add_right ihMore 1)

namespace Balanced

variable {ks ls : List Kind}

theorem append (h : Balanced ks) (h' : Balanced ls) : Balanced (ks ++ ls) := by
  rw [Balanced, List.count_append, List.count_append, h, h']

theorem mark (hk : kind.isBracket = false) (h : Balanced ks) : Balanced (kind :: ks) := by
  simp only [Kind.isBracket, Bool.or_eq_false_iff, decide_eq_false_iff_not] at hk
  rw [Balanced, List.count_cons_of_ne hk.1, List.count_cons_of_ne hk.2, h]

theorem wrap (h : Balanced ks) : Balanced (.openParen :: (ks ++ [.closeParen])) := by
  have h : ks.count .openParen = ks.count .closeParen := h
  simp [Balanced, List.count_append, h]

end Balanced

theorem WritableAs.balanced (h : WritableAs code kinds) : Balanced kinds := by
  induction h with
  | invalid | «variable» | noExpressions => rfl
  | literal _ hk => exact .mark hk rfl
  | assignment _ _ ih => exact .mark rfl (.mark rfl ih)
  | unary _ _ hk _ _ ih => exact .mark hk ih
  | binary _ _ hk _ _ _ _ ihLeft ihRight => exact ihLeft.append (.mark hk ihRight)
  | parenthesized _ ih => exact ih.wrap
  | call _ _ _ _ ih => exact .mark rfl ih.wrap
  | lastExpression _ ih => exact ih
  | expressions _ _ ihFirst ihMore => exact ihFirst.append (.mark rfl ihMore)

mutual

theorem balanced_kinds : ∀ expression : Expression, Balanced expression.kinds
  | .invalid | .variable _ _ => rfl
  | .literal value => by
    cases value with
    | boolean b => cases b <;> rfl
    | _ => rfl
  | .assignment _ value => .mark rfl (.mark rfl (balanced_kinds value))
  | .unary op operand _ => .mark op.isBracket_kind (balanced_kinds operand)
  | .binary left op right _ => by
    rw [kinds_binary]
    exact ((balanced_kinds left).append (.mark op.isBracket_kind (balanced_kinds right))).wrap
  | .call _ _ arguments _ => by
    rw [kinds_call]
    exact .mark rfl (balanced_argumentKinds arguments).wrap

theorem balanced_argumentKinds : ∀ arguments : List Expression, Balanced (argumentKinds arguments)
  | [] => rfl
  | [last] => balanced_kinds last
  | first :: next :: rest => by
    rw [argumentKinds_cons]
    exact (balanced_kinds first).append (.mark rfl (balanced_argumentKinds (next :: rest)))

end

/-- Where the code may be written with the tokens of its listing, no assignment is an operand in it.
Parentheses around the expression are brought together on the outside. -/
def Forced : Code → List Kind → Prop
  | .expression code, kinds => ∀ outer,
    List.replicate outer .openParen ++ kinds ++ List.replicate outer .closeParen = code.kinds →
      code.Explicit
  | .expressions code, kinds => kinds = argumentKinds code → explicitAll code
  | _, _ => True

/-- An operand that is listed as it may be written is no assignment. -/
theorem not_assignment_of_head {operand : Expression}
    (h : operand.isAssignment = true → operand.kinds.head? = some .openParen) :
    operand.isAssignment = false := by
  cases operand with
  | assignment => cases h rfl
  | _ => rfl

theorem Forced.explicit {expression : Expression} (h : Forced (.expression expression) kinds)
    (hk : kinds = expression.kinds) : expression.Explicit :=
  h 0 (by simpa using hk)

/-- There are no parentheses around what starts with a mark. -/
theorem unwrapped {outer : Nat} {ks more : List Kind} (hk : kind.isBracket = false)
    (h : List.replicate outer .openParen ++ ks ++ List.replicate outer .closeParen = kind :: more) :
    ks = kind :: more := by
  cases outer with
  | zero => simpa using h
  | succ outer =>
    rw [List.replicate_succ, List.cons_append, List.cons_append] at h
    rw [← (List.cons.inj h).1] at hk
    cases hk

/-- What is balanced stands between parentheses on its own. -/
theorem wrapped_once {outer : Nat} {ks ks' : List Kind} (h : Balanced ks) (h' : Balanced ks')
    (heq : List.replicate outer .openParen ++ ks = .openParen :: ks') : outer = 1 := by
  have hopen := congrArg (List.count .openParen) heq
  have hclose := congrArg (List.count .closeParen) heq
  have hne : Kind.openParen ≠ .closeParen := by decide
  rw [List.count_append, List.count_replicate_self, List.count_cons_self, h, h'] at hopen
  rw [List.count_append, List.count_replicate, List.count_cons_of_ne hne, if_neg (by decide)]
    at hclose
  omega

theorem WritableAs.forced (h : WritableAs code kinds) : Forced code kinds := by
  induction h with
  | invalid | literal | «variable» => exact fun _ _ => trivial
  | assignment ref _ ih =>
    intro outer h
    rw [kinds_assignment] at h
    obtain ⟨-, h⟩ := List.cons.inj (unwrapped rfl h)
    exact ih.explicit (List.cons.inj h).2
  | unary op span hk _ hb ih =>
    intro outer h
    rw [kinds_unary] at h
    obtain ⟨-, rfl⟩ := List.cons.inj (unwrapped op.isBracket_kind h)
    exact ⟨not_assignment_of_head hb, ih.explicit rfl⟩
  | @binary left right op span kind ks ls hk hl hr hbl hbr ihLeft ihRight =>
    intro outer h
    have hwhole : (List.replicate outer .openParen ++ ks) ++
          kind :: (ls ++ List.replicate outer .closeParen) =
        (.openParen :: left.kinds) ++ op.kind :: (right.kinds ++ [.closeParen]) := by
      rw [kinds_binary] at h
      simpa using h
    -- Neither operand has fewer marks than its listing, so each has as many, and both lists are cut
    -- at the same operator.
    have hleft : marks left.kinds ≤ marks ks := hl.marks_within
    have hright : marks right.kinds ≤ marks ls := hr.marks_within
    have hmarks := congrArg marks hwhole
    have hclose : marks [.closeParen] = 0 := rfl
    have hopening : marks (List.replicate outer .openParen) = 0 := marks_replicate rfl outer
    have hclosing : marks (List.replicate outer .closeParen) = 0 := marks_replicate rfl outer
    have hleading : marks (.openParen :: left.kinds) = marks left.kinds := marks_bracket rfl _
    simp only [marks_append, marks_mark hk, marks_mark op.isBracket_kind, hopening, hclosing,
      hleading, hclose] at hmarks
    have hbefore : marks (List.replicate outer .openParen ++ ks) =
        marks (.openParen :: left.kinds) := by
      rw [marks_append, hopening, hleading]
      omega
    obtain ⟨hks, hls⟩ := append_cons_inj hk op.isBracket_kind hbefore hwhole
    -- Only now are the parentheses around the whole known to be one pair.
    obtain rfl := wrapped_once hl.balanced (balanced_kinds left) hks
    obtain rfl := (List.cons.inj hks).2
    obtain rfl := List.append_cancel_right hls
    exact ⟨⟨not_assignment_of_head hbl, not_assignment_of_head hbr⟩, ihLeft.explicit rfl,
      ihRight.explicit rfl⟩
  | parenthesized _ ih =>
    intro outer h
    refine ih (outer + 1) ?_
    rw [← h, List.replicate_succ', List.replicate_succ]
    simp
  | call name callee span _ ih =>
    intro outer h
    rw [kinds_call] at h
    obtain ⟨-, h⟩ := List.cons.inj (unwrapped rfl h)
    exact ih (List.append_cancel_right (List.cons.inj h).2)
  | noExpressions => exact fun _ => trivial
  | lastExpression _ ih => exact fun h => ⟨ih.explicit h, trivial⟩
  | @expressions first more ks ls hf hm ihFirst ihMore =>
    intro h
    have hfirst : marks first.kinds ≤ marks ks := hf.marks_within
    have hmarks := congrArg marks h
    rw [marks_append, marks_mark rfl] at hmarks
    cases more with
    | nil =>
      -- A comma after the last argument is one mark too many.
      have hone : argumentKinds [first] = first.kinds := rfl
      rw [hone] at hmarks
      omega
    | cons next rest =>
      have hmore : marks (argumentKinds (next :: rest)) ≤ marks ls := hm.marks_within
      rw [argumentKinds_cons] at h hmarks
      rw [marks_append, marks_mark rfl] at hmarks
      obtain ⟨hks, hls⟩ := append_cons_inj rfl rfl (by omega) h
      exact ⟨ihFirst.explicit hks, ihMore hls⟩

/-! ## Places do not matter -/

mutual

theorem displayTokens_recast (σ : FunctionId → FunctionId) : ∀ expression : Expression,
    (expression.recast σ).displayTokens = expression.displayTokens
  | .invalid | .literal _ | .variable _ _ => rfl
  | .assignment _ value => by
    simp only [Expression.recast, Expression.displayTokens, displayTokens_recast σ value]
  | .unary _ operand _ => by
    simp only [Expression.recast, Expression.displayTokens, displayTokens_recast σ operand]
  | .binary left _ right _ => by
    simp only [Expression.recast, Expression.displayTokens, displayTokens_recast σ left,
      displayTokens_recast σ right]
  | .call _ _ arguments _ => by
    simp only [Expression.recast, Expression.displayTokens, argumentTokens_recast σ arguments]

theorem argumentTokens_recast (σ : FunctionId → FunctionId) : ∀ arguments : List Expression,
    argumentTokens (recastExpressions σ arguments) = argumentTokens arguments
  | [] => rfl
  | [last] => displayTokens_recast σ last
  | first :: next :: rest => by
    have ih := argumentTokens_recast σ (next :: rest)
    simp only [recastExpressions, argumentTokens, displayTokens_recast σ first] at ih ⊢
    rw [ih]

end

theorem isAssignment_recast (σ : FunctionId → FunctionId) (expression : Expression) :
    (expression.recast σ).isAssignment = expression.isAssignment := by
  cases expression <;> rfl

mutual

theorem explicit_recast (σ : FunctionId → FunctionId) : ∀ expression : Expression,
    (expression.recast σ).Explicit ↔ expression.Explicit
  | .invalid | .literal _ | .variable _ _ => .rfl
  | .assignment _ value => explicit_recast σ value
  | .unary _ operand _ => by
    simp only [Expression.recast, Expression.Explicit, isAssignment_recast,
      explicit_recast σ operand]
  | .binary left _ right _ => by
    simp only [Expression.recast, Expression.Explicit, isAssignment_recast,
      explicit_recast σ left, explicit_recast σ right]
  | .call _ _ arguments _ => explicitAll_recast σ arguments

theorem explicitAll_recast (σ : FunctionId → FunctionId) : ∀ arguments : List Expression,
    explicitAll (recastExpressions σ arguments) ↔ explicitAll arguments
  | [] => .rfl
  | first :: rest => and_congr (explicit_recast σ first) (explicitAll_recast σ rest)

end

/-! ## Texts -/

/-- An expression of a faultless text is legible once it is resolved, if its texts are plain. -/
theorem legible_of_occurs {text : String} {part : Syntax.Expression}
    (h : (Syntax.parse text).2 = []) (ho : Occurs part (.members (Syntax.parse text).1.members))
    (hp : ∀ token value, Occurs (.literal token (.string value)) (.expression part) →
      ∀ c ∈ value.toList, IsPlain c)
    (hr : (resolveExpression env part).2 = []) :
    Legible env (.expression (resolveExpression env part).1) := by
  obtain ⟨ts, hsub, hw⟩ := (Syntax.parse_written h).of_occurs ho
  have hplain : Plain (.expression part) ts :=
    { present := fun _ ht => Syntax.present_of_mem_significant (hsub.subset ht)
      spelled := fun _ ht => Syntax.spells_of_mem_significant (hsub.subset ht)
      literals := hp }
  exact legible_of_written hw hplain hr

/-- The listed expression is parsed, and resolved to the same again but for the places, without a
complaint. -/
def ReadsBack (env : Environment) (expression : Expression) : Prop :=
  (Syntax.parse expression.text).2 = [] ∧
    ∃ read again, (Syntax.parse expression.text).1.members = [.statement (.expression read)] ∧
      resolveExpression env read = (again, []) ∧ again.recast id = expression.recast id

theorem readsBack_of_explicit {expression : Expression}
    (hl : Legible env (.expression expression)) (he : expression.Explicit)
    (hd : expression.displayed.nesting + 2 ≤ Syntax.maxNestingDepth) :
    ReadsBack env expression := by
  obtain ⟨htokens, hfaults⟩ := tokenize_displayed hl
  obtain ⟨hnone, read, hmembers, hread⟩ := Syntax.parse_of_expression htokens hfaults
    (written_displayed hl) (grouped_displayed expression he) hd
  have hresolve : resolveExpression env read.unplaced = (expression.recast id, []) := by
    rw [hread, displayed_unplaced]
    exact resolve_displayed hl
  rw [resolveExpression_recast (.refl env)] at hresolve
  obtain ⟨hagain, hproblems⟩ := Prod.mk.inj hresolve
  exact ⟨hnone, read, _, hmembers, Prod.ext rfl (List.map_eq_nil_iff.1 hproblems), hagain⟩

theorem written_of_single {expression : Syntax.Expression} {ts : List Token}
    (h : Written (.members [.statement (.expression expression)]) ts) :
    Written (.expression expression) ts := by
  cases h with
  | members hf hm =>
    cases hm
    cases hf with
    | statementMember hs =>
      cases hs with
      | expression h =>
        rw [List.append_nil]
        exact h

theorem explicit_of_readsBack {expression : Expression} (hl : Legible env (.expression expression))
    (h : ReadsBack env expression) : expression.Explicit := by
  obtain ⟨hnone, read, again, hmembers, hresolve, hagain⟩ := h
  have hw := Syntax.parse_written hnone
  have hg := Syntax.grouped_parse expression.text
  rw [hmembers] at hw hg
  have hread := written_of_single hw
  have hgrouped : (Tree.expression read).Grouped := by simpa using hg
  have hkinds : (Syntax.tokenize expression.text).significant.map Token.kind = again.kinds := by
    have htokens := congrArg (List.map Token.kind) (tokenize_displayed hl).1
    rw [List.map_map, List.map_map] at htokens
    rw [Expression.kinds, ← displayTokens_recast id again, hagain, displayTokens_recast]
    exact htokens
  have hwritable : Keeps env (.expression read) (Syntax.tokenize expression.text).significant :=
    writableAs_of_written hread hgrouped
  simp only [Keeps, hresolve, true_implies] at hwritable
  rw [← explicit_recast id, ← hagain, explicit_recast]
  exact hwritable.forced.explicit hkinds

/-! ## Texts of one expression -/

/-- The expression that is all of the text. -/
def onlyExpression (text : String) : Option Syntax.Expression :=
  match (Syntax.parse text).1.members with
  | [.statement (.expression expression)] => some expression
  | _ => none

theorem occurs_onlyExpression {text : String} {part : Syntax.Expression}
    (h : onlyExpression text = some part) :
    Occurs part (.members (Syntax.parse text).1.members) := by
  unfold onlyExpression at h
  split at h
  · rename_i hmembers
    obtain rfl := Option.some.inj h
    rw [hmembers]
    exact .member List.mem_cons_self (.statementMember (.evaluated .self))
  · cases h

/-- Whether the literals of the text are plain. -/
def plainLiterals (text : String) : Bool :=
  (Syntax.tokenize text).significant.all fun token =>
    match Syntax.literalValue token with
    | .string value => value.toList.all (IsPlain ·)
    | _ => true

theorem plain_of_plainLiterals {text : String} {part : Syntax.Expression}
    (h : (Syntax.parse text).2 = []) (ho : Occurs part (.members (Syntax.parse text).1.members))
    (hp : plainLiterals text = true) (token : Token) (value : String)
    (hl : Occurs (.literal token (.string value)) (.expression part)) :
    ∀ c ∈ value.toList, IsPlain c := by
  have literal : ∀ {ts value}, Written (.expression (.literal token value)) ts →
      ts = [token] ∧ Syntax.literalValue token = value := by
    intro ts value h
    cases h
    exact ⟨rfl, rfl⟩
  obtain ⟨ts, hsub, hw⟩ := (Syntax.parse_written h).of_occurs ho
  obtain ⟨us, hsub', hw⟩ := hw.of_occurs hl
  obtain ⟨rfl, hvalue⟩ := literal hw
  have hmem := (hsub'.trans hsub).subset (List.mem_singleton_self token)
  have hplain := List.all_eq_true.1 hp token hmem
  rw [hvalue] at hplain
  exact fun c hc => of_decide_eq_true (List.all_eq_true.1 hplain c hc)

/-- Names after a submission that declares a variable. -/
def oneVariable : Environment where
  generation := 1
  globals := { vars := (∅ : NameMap GlobalVariable).insert "a" ⟨⟨0, 0⟩, false⟩ }

/-! ## What reads back -/

/-- **Listings keep all grouping but that of assignments.** Take an expression of a faultless text
that is resolved without a problem, with no texts in it but plain ones, and whose listing is not
nested too deeply. If the listing is parsed and resolved in the same environment, there are no
diagnostics and the same expression results, but for the places, just if no assignment is an operand
in it. The listing leaves out the parentheses that such an assignment was written with. -/
theorem readsBack_iff {text : String} {part : Syntax.Expression} {expression : Expression}
    (h : (Syntax.parse text).2 = []) (ho : Occurs part (.members (Syntax.parse text).1.members))
    (hr : resolveExpression env part = (expression, []))
    (hp : ∀ token value, Occurs (.literal token (.string value)) (.expression part) →
      ∀ c ∈ value.toList, IsPlain c)
    (hd : expression.displayed.nesting + 2 ≤ Syntax.maxNestingDepth) :
    ReadsBack env expression ↔ expression.Explicit := by
  have hl : Legible env (.expression expression) := by
    have hlegible : Legible env (.expression (resolveExpression env part).1) :=
      legible_of_occurs h ho hp (by rw [hr])
    rwa [hr] at hlegible
  exact ⟨explicit_of_readsBack hl, fun he => readsBack_of_explicit hl he hd⟩

theorem readsBack_iff_assignedOperand :
    let listed (text : String) : Option Expression :=
      (onlyExpression text).map fun part => (resolveExpression oneVariable part).1
    (∃ kept, listed "a = \"\\t\" + (1 - -a)" = some kept ∧
        kept.text = "a = (\"\\t\" + (1 - -a))" ∧ ReadsBack oneVariable kept) ∧
      ∃ lost, listed "(a = 1) + 2" = some lost ∧ lost.text = "(a = 1 + 2)" ∧
        ¬ReadsBack oneVariable lost := by
  intro listed
  have judged : ∀ text listing explicit,
      ((Syntax.parse text).2.isEmpty && plainLiterals text) = true →
      ((onlyExpression text).any fun part =>
        let found := resolveExpression oneVariable part
        found.2.isEmpty && found.1.displayed.nesting + 2 ≤ Syntax.maxNestingDepth &&
          found.1.text == listing && found.1.Explicit == explicit) = true →
      ∃ expression, listed text = some expression ∧ expression.text = listing ∧
        (ReadsBack oneVariable expression ↔ explicit = true) := by
    intro text listing explicit htext hfound
    obtain ⟨part, hpart, hjudged⟩ := (Option.any_eq_true _ _).1 hfound
    obtain ⟨hparse, hplain⟩ := (Bool.and_eq_true _ _).mp htext
    simp only [Bool.and_eq_true, List.isEmpty_iff, decide_eq_true_eq, beq_iff_eq] at hparse hjudged
    obtain ⟨⟨⟨hproblems, hnesting⟩, hlisting⟩, hexplicit⟩ := hjudged
    have ho := occurs_onlyExpression hpart
    have hiff := readsBack_iff hparse ho (Prod.ext rfl hproblems)
      (plain_of_plainLiterals hparse ho hplain) hnesting
    refine ⟨_, congrArg (Option.map _) hpart, hlisting, hiff.trans ?_⟩
    rw [← hexplicit, decide_eq_true_eq]
  obtain ⟨kept, hkept, hkeptText, hkeptBack⟩ :=
    judged "a = \"\\t\" + (1 - -a)" "a = (\"\\t\" + (1 - -a))" true
      (by decide +kernel) (by decide +kernel)
  obtain ⟨lost, hlost, hlostText, hlostBack⟩ :=
    judged "(a = 1) + 2" "(a = 1 + 2)" false (by decide +kernel) (by decide +kernel)
  exact ⟨⟨kept, hkept, hkeptText, hkeptBack.2 rfl⟩, lost, hlost, hlostText,
    fun h => Bool.false_ne_true (hlostBack.1 h)⟩

end Program

end ReplayShell
