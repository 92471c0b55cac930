import ReplayShell.Proofs.Grammar

/-!
# The tokens of a tree

A tree keeps most of the tokens that it was read from, but not the marks between them.

* `Piece` is what stands at one place: a token that the tree keeps, a mark of a known kind, or a
  comma that may end a list. `Tree.pieces` reads a tree in order, and puts the marks back.
* `Matches` says that tokens are what pieces call for.
* `Written.matches`: whatever tree the grammar derives from some tokens, its pieces call for them.
-/
namespace ReplayShell.Syntax

/-- What a tree says of one place in the text. -/
inductive Piece where
  | kept (token : Token)
  /-- A mark that the tree does not keep. -/
  | mark (kind : Kind)
  /-- The comma that may end a list. -/
  | spare
  deriving DecidableEq, Repr

/-- What stands after an element of a list: a comma, which may be left out if it is the last. -/
def Piece.separator (last : Bool) : Piece := if last then .spare else .mark .comma

mutual

/-- The pieces of an expression. -/
def Expression.pieces : Expression → List Piece
  | .literal token _ => [.kept token]
  | .name identifier => [.kept identifier]
  | .assignment identifier value => .kept identifier :: .mark .equals :: value.pieces
  | .unary operator operand => .kept operator :: operand.pieces
  | .binary left operator right => left.pieces ++ .kept operator :: right.pieces
  | .parenthesized opening inner closing => .kept opening :: (inner.pieces ++ [.kept closing])
  | .call identifier arguments closing =>
    .kept identifier :: .mark .openParen :: (argumentPieces arguments ++ [.kept closing])

/-- The pieces of arguments, with the commas after them. -/
def argumentPieces : List Expression → List Piece
  | [] => []
  | first :: more => first.pieces ++ Piece.separator more.isEmpty :: argumentPieces more

end

mutual

/-- The pieces of a statement. -/
def Statement.pieces : Statement → List Piece
  | .block opening statements closing =>
    .kept opening :: (statementPieces statements ++ [.kept closing])
  | .variable keyword identifier initializer =>
    .kept keyword :: .kept identifier :: .mark .equals :: initializer.pieces
  | .conditional keyword condition thenBranch elseBranch =>
    .kept keyword :: (condition.pieces ++ (thenBranch.pieces ++ elsePieces elseBranch))
  | .loop keyword condition body => .kept keyword :: (condition.pieces ++ body.pieces)
  | .return keyword none => [.kept keyword]
  | .return keyword (some value) => .kept keyword :: value.pieces
  | .expression expression => expression.pieces

/-- The pieces of statements, one after the other. -/
def statementPieces : List Statement → List Piece
  | [] => []
  | first :: more => first.pieces ++ statementPieces more

/-- The pieces of an else branch, if there is one. -/
def elsePieces : Option Statement → List Piece
  | none => []
  | some elseBranch => .mark .elseKeyword :: elseBranch.pieces

end

/-- The pieces of parameters, with the commas after them. -/
def parameterPieces : List Token → List Piece
  | [] => []
  | first :: more => .kept first :: Piece.separator more.isEmpty :: parameterPieces more

/-- The pieces of a function declaration. -/
def FunctionDeclaration.pieces (declaration : FunctionDeclaration) : List Piece :=
  .kept declaration.keyword :: .kept declaration.identifier :: .mark .openParen ::
    (parameterPieces declaration.parameters ++ .mark .closeParen :: .kept declaration.opening ::
      (statementPieces declaration.body ++ [.kept declaration.closing]))

/-- The pieces of a member. -/
def Member.pieces : Member → List Piece
  | .function declaration => declaration.pieces
  | .statement outer => outer.pieces

/-- The pieces of members, one after the other. -/
def memberPieces : List Member → List Piece
  | [] => []
  | first :: more => first.pieces ++ memberPieces more

/-- The pieces of a whole tree, the end included. -/
def Submission.pieces (submission : Submission) : List Piece :=
  memberPieces submission.members ++ [.kept submission.endOfFile]

/-- The pieces of a tree of any sort. -/
def Tree.pieces : Tree → List Piece
  | .token read => [.kept read]
  | .tokens read => parameterPieces read
  | .expression read => read.pieces
  | .expressions read => argumentPieces read
  | .statement read => read.pieces
  | .statements read => statementPieces read
  | .function read => read.pieces
  | .member read => read.pieces
  | .members read => memberPieces read

/-- The tokens are what the pieces call for, in this order. -/
inductive Matches : List Piece → List Token → Prop
  | nil : Matches [] []
  | kept {token : Token} {ps : List Piece} {ts : List Token} (h : Matches ps ts) :
      Matches (.kept token :: ps) (token :: ts)
  | mark {token : Token} {kind : Kind} {ps : List Piece} {ts : List Token}
      (hk : token.kind = kind) (h : Matches ps ts) : Matches (.mark kind :: ps) (token :: ts)
  | spare {comma : Token} {ps : List Piece} {ts : List Token} (hk : comma.kind = .comma)
      (h : Matches ps ts) : Matches (.spare :: ps) (comma :: ts)
  | noSpare {ps : List Piece} {ts : List Token} (h : Matches ps ts) : Matches (.spare :: ps) ts

namespace Matches

variable {ps qs : List Piece} {ts us : List Token} {token : Token}

theorem append (h : Matches ps ts) (h' : Matches qs us) : Matches (ps ++ qs) (ts ++ us) := by
  induction h with
  | nil => exact h'
  | kept _ ih => exact .kept ih
  | mark hk _ ih => exact .mark hk ih
  | spare hk _ ih => exact .spare hk ih
  | noSpare _ ih => exact .noSpare ih

theorem single (token : Token) : Matches [.kept token] [token] := .kept .nil

/-- The comma after an element is there, whether it had to be or not. -/
theorem separator {comma : Token} (last : Bool) (hk : comma.kind = .comma) (h : Matches ps ts) :
    Matches (Piece.separator last :: ps) (comma :: ts) := by
  cases last with
  | true => exact .spare hk h
  | false => exact .mark hk h

/-- A token that the tree keeps is one of the tokens. -/
theorem mem_of_kept (h : Matches ps ts) (hm : .kept token ∈ ps) : token ∈ ts := by
  induction h with
  | nil => exact absurd hm List.not_mem_nil
  | kept _ ih =>
    rcases List.mem_cons.1 hm with heq | hm
    · cases heq
      exact List.mem_cons_self
    · exact List.mem_cons_of_mem _ (ih hm)
  | mark _ _ ih | spare _ _ ih =>
    rcases List.mem_cons.1 hm with heq | hm
    · cases heq
    · exact List.mem_cons_of_mem _ (ih hm)
  | noSpare _ ih =>
    rcases List.mem_cons.1 hm with heq | hm
    · cases heq
    · exact ih hm

end Matches

/-- The pieces of a tree call for the tokens that it is written with. -/
theorem Written.matches {tree : Tree} {ts : List Token} (h : Written tree ts) :
    Matches tree.pieces ts := by
  induction h with
  | token token => exact .single token
  | literal | name => exact .single _
  | lastToken => exact .kept (.noSpare .nil)
  | noExpressions | noStatements | noTokens | noMembers => exact .nil
  | assignment _ he _ ih => exact .kept (.mark he ih)
  | unary _ _ ih => exact .kept ih
  | binary _ _ _ ihLeft ihRight => exact ihLeft.append (.kept ihRight)
  | parenthesized _ _ _ ih => exact .kept (ih.append (.single _))
  | call _ ho _ _ ih => exact .kept (.mark ho (ih.append (.single _)))
  | @lastExpression last ts _ ih =>
    rw [← List.append_nil ts]
    exact ih.append (.noSpare .nil)
  | expressions _ hk _ ihFirst ihMore => exact ihFirst.append (.separator _ hk ihMore)
  | block _ _ _ ih => exact .kept (ih.append (.single _))
  | «variable» _ _ he _ ih => exact .kept (.kept (.mark he ih))
  | conditionalElse _ _ _ ho _ ihCondition ihThen ihElse =>
    exact .kept (ihCondition.append (ihThen.append (.mark ho ihElse)))
  | @conditional keyword condition thenBranch ts us _ _ _ ihCondition ihThen =>
    rw [← List.append_nil us]
    exact .kept (ihCondition.append (ihThen.append .nil))
  | loop _ _ _ ihCondition ihBody => exact .kept (ihCondition.append ihBody)
  | returnNothing => exact .single _
  | «return» _ _ ih => exact .kept ih
  | expression _ ih | functionMember _ ih | statementMember _ ih => exact ih
  | statements _ _ ihFirst ihMore | members _ _ ihFirst ihMore => exact ihFirst.append ihMore
  | tokens _ hk _ ih => exact .kept (.separator _ hk ih)
  | function _ _ ho _ hc _ _ _ ihParameters ihBody =>
    exact .kept (.kept (.mark ho (ihParameters.append (.mark hc (.kept
      (ihBody.append (.single _)))))))

end ReplayShell.Syntax
