import Mathlib.Data.List.Nodup
import ReplayShell.Proofs.Assignment

/-!
# Every local variable has a place of its own

A frame holds the parameters first, then every local variable that is declared in the code.

* `Statement.allPlaces` are the places that the code declares, in the order of the text.
* `resolveStatement_takes`: resolving takes the next places of the frame, one after another.
* `placesOf_eq_range`: the places of the variables of a function, or of the top level, are those of
  its frame, so no two variables share one; `count_placesOf`.
-/
namespace ReplayShell

namespace Program

open Syntax (Token FunctionDeclaration)

mutual

/-- The places of the variables that are declared in the statement, in the order of the text. -/
def Statement.places : Statement → List Nat
  | .block statements => Statement.allPlaces statements
  | .variable ref _ _ => ref.slot.places
  | .conditional _ thenBranch elseBranch => thenBranch.places ++ Statement.elsePlaces elseBranch
  | .loop _ body => body.places
  | .return _ | .expression _ => []

/-- So are those of an else branch, if there is one. -/
def Statement.elsePlaces : Option Statement → List Nat
  | none => []
  | some statement => statement.places

/-- So are those of all the statements. -/
def Statement.allPlaces : List Statement → List Nat
  | [] => []
  | first :: rest => first.places ++ Statement.allPlaces rest

end

namespace Environment

/-- The places are the next ones of the frame, one after another. -/
def Takes (env env' : Environment) (places : List Nat) : Prop :=
  ∃ count, env'.frameSize = env.frameSize + count ∧ places = List.range' env.frameSize count

variable {env env' env'' : Environment} {places places' : List Nat}

theorem Takes.refl (env : Environment) : env.Takes env [] := ⟨0, rfl, rfl⟩

theorem Takes.trans (h : env.Takes env' places) (h' : env'.Takes env'' places') :
    env.Takes env'' (places ++ places') := by
  obtain ⟨count, hs, rfl⟩ := h
  obtain ⟨count', hs', rfl⟩ := h'
  refine ⟨count + count', by omega, ?_⟩
  rw [hs, List.range'_append_1]

theorem takes_declareVariable (env : Environment) (identifier : Token) (readOnly : Bool) :
    env.Takes (env.declareVariable identifier readOnly).2.1
      (env.declareVariable identifier readOnly).1.places := by
  unfold declareVariable
  split
  · exact ⟨1, rfl, rfl⟩
  · exact ⟨0, rfl, rfl⟩

end Environment

mutual

theorem resolveStatement_takes (env : Environment) : ∀ statement,
    env.Takes (resolveStatement env statement).2.1 (resolveStatement env statement).1.places
  | .block _ statements _ => resolveStatements_takes env.openBlock statements
  | .variable keyword identifier _ =>
    env.takes_declareVariable identifier (keyword.kind = .letKeyword)
  | .conditional _ _ thenBranch elseBranch =>
    (resolveStatement_takes env thenBranch).trans (resolveElse_takes _ elseBranch)
  | .loop _ _ body => resolveStatement_takes env body
  | .return _ none => .refl env
  | .return _ (some _) => .refl env
  | .expression _ => .refl env

theorem resolveStatements_takes (env : Environment) : ∀ statements,
    env.Takes (resolveStatements env statements).2.1
      (Statement.allPlaces (resolveStatements env statements).1)
  | [] => .refl env
  | statement :: rest =>
    (resolveStatement_takes env statement).trans (resolveStatements_takes _ rest)

theorem resolveElse_takes (env : Environment) : ∀ statement,
    env.Takes (resolveElse env statement).2.1
      (Statement.elsePlaces (resolveElse env statement).1)
  | none => .refl env
  | some statement => resolveStatement_takes env statement

end

/-- Functions take no place. -/
theorem frameSize_declareFunctions (env : Environment) (ordinal : Nat)
    (declarations : List FunctionDeclaration) :
    (declareFunctions env ordinal declarations).2.1.frameSize = env.frameSize := by
  induction declarations generalizing env ordinal with
  | nil => rfl
  | cons declaration rest ih =>
    simp only [declareFunctions, Environment.declareFunction]
    by_cases hm : declaration.identifier.missing = true
    · simpa only [if_pos hm] using ih env ordinal
    by_cases ht : env.declared.contains declaration.identifier.text = true
    · simpa only [if_neg hm, if_pos ht] using ih env ordinal
    simp only [if_neg hm, if_neg ht]
    exact ih _ (ordinal + 1)

/-- The statements of a submission take the whole frame. -/
theorem allPlaces_resolve (scope : GlobalScope) (generation : Nat)
    (submission : Syntax.Submission) :
    Statement.allPlaces (resolve scope generation submission).statements =
      List.range (resolve scope generation submission).frameSize := by
  have empty := frameSize_declareFunctions { generation := generation, globals := scope } 0
    (functionDeclarations submission.members)
  obtain ⟨count, hs, hp⟩ := resolveStatements_takes
    (declareFunctions { generation := generation, globals := scope } 0
      (functionDeclarations submission.members)).2.1 (topLevelStatements submission.members)
  rw [empty, Nat.zero_add] at hs
  rw [empty] at hp
  calc Statement.allPlaces (resolve scope generation submission).statements
      = List.range' 0 count := hp
    _ = List.range (resolve scope generation submission).frameSize := by
        rw [← List.range_eq_range']
        exact congrArg List.range hs.symm

/-- The body of a function takes what the parameters leave of the frame. -/
theorem range_resolveFunction {declaration : FunctionDeclaration} {ts : List Token}
    (hw : Syntax.Written (.function declaration) ts) (hm : ∀ token ∈ ts, token.missing = false)
    (globals : Environment) (symbol : FunctionSymbol) :
    List.range declaration.parameters.length ++
        Statement.allPlaces (resolveFunction globals symbol declaration).1.body =
      List.range (resolveFunction globals symbol declaration).1.frameSize := by
  cases hw with
  | @function _ _ _ _ _ _ parameters body ts us _ _ _ hparameters _ _ hbody _ =>
    have present : ∀ parameter ∈ parameters, parameter.missing = false := by
      intro parameter hp
      exact hm parameter (by simp [mem_of_written hparameters parameter hp])
    have size : (declareParameters globals.enter parameters).1.frameSize = 0 + parameters.length :=
      globals.enter.frameSize_declareParameters (List.cons_ne_nil _ _) present
    obtain ⟨count, hs, hp⟩ := resolveStatements_takes
      (declareParameters globals.enter parameters).1.openBlock body
    have hopen : (declareParameters globals.enter parameters).1.openBlock.frameSize =
        0 + parameters.length := size
    rw [hopen] at hs hp
    calc List.range parameters.length ++ Statement.allPlaces
          (resolveStatements (declareParameters globals.enter parameters).1.openBlock body).1
        = List.range' 0 parameters.length ++ List.range' (0 + parameters.length) count := by
          rw [hp, List.range_eq_range']
      _ = List.range (0 + parameters.length + count) := by
          rw [List.range'_append_1, List.range_eq_range', Nat.zero_add]
      _ = _ := congrArg List.range hs.symm

end Program

namespace Compilation

open Program (Function Statement)

variable {texts : List String} {compilation : Compilation}

/-- The code of a function, or of the top level. -/
def codeOf (compilation : Compilation) : Option FunctionId → List Statement
  | none => compilation.program.statements
  | some id => (compilation.functions[id]?.map Function.body).getD []

/-- The places of the variables of a function, or of the top level: of its parameters, and of what
its code declares. -/
def placesOf (compilation : Compilation) (origin : Option FunctionId) : List Nat :=
  (match origin with
    | none => []
    | some id =>
      List.range ((compilation.functions[id]?.map (·.symbol.parameters.length)).getD 0)) ++
    Statement.allPlaces (compilation.codeOf origin)

/-- The variables of every function take the places of its frame. -/
def Spread (compilation : Compilation) : Prop :=
  ∀ (id : FunctionId) (function : Function), compilation.functions[id]? = some function →
    List.range function.symbol.parameters.length ++ Statement.allPlaces function.body =
      List.range function.frameSize

theorem spread_empty : Spread empty := by
  intro id function h
  rw [getElem?_functions_empty] at h
  cases h

theorem Link.spread {below : Compilation} {text : String}
    {declared : List (Program.FunctionSymbol × Syntax.FunctionDeclaration)}
    {env : Program.Environment} (link : Link texts below text declared env compilation)
    (spread : below.Spread) : compilation.Spread := by
  intro id function h
  rcases link.cases_function h with ⟨entry, he, -, rfl⟩ | h
  · obtain ⟨ts, hw, hm, hlength⟩ := link.written_declared he
    have range := Program.range_resolveFunction hw hm (Link.after text env) entry.1
    rw [← hlength] at range
    exact range
  · exact spread id function h

theorem spread_of_clean {previous : Option Compilation} (clean : Clean texts previous) :
    (previous.getD empty).Spread :=
  keeps_of_clean spread_empty Link.spread clean

/-- The places of the variables are those of the frame. -/
theorem placesOf_eq_range (clean : Clean texts (some compilation)) (origin : Option FunctionId) :
    compilation.placesOf origin = List.range (contextOf texts compilation origin).size := by
  cases origin with
  | none =>
    cases clean with
    | empty => rfl
    | text => exact Program.allPlaces_resolve _ _ _
  | some id =>
    have spread : compilation.Spread := spread_of_clean clean
    simp only [placesOf, codeOf, contextOf]
    cases h : compilation.functions[id]? with
    | none => rfl
    | some function => exact spread id function h

/-- One variable, and no other, has the place. -/
theorem count_placesOf (clean : Clean texts (some compilation)) {origin : Option FunctionId}
    {index : Nat} (h : index < (contextOf texts compilation origin).size) :
    (compilation.placesOf origin).count index = 1 := by
  rw [placesOf_eq_range clean]
  exact List.count_eq_one_of_mem List.nodup_range (List.mem_range.2 h)

end Compilation

end ReplayShell
