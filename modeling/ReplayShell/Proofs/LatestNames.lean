import ReplayShell.Proofs.ListingLines
import ReplayShell.Proofs.Meanings
import ReplayShell.Proofs.Symbols

/-!
# The latest declaration of each name

* `membersDeclarations` are the declarations of a submission in the order of its text,
  `declarationsOf` those of texts compiled one on top of another.
* `declarations_perm`: a submission without a diagnostic declares all of them, each name once.
  So it does not matter that functions are declared before variables.
* `meaning_of_clean`: on a clean chain every name stands for its latest declaration.
* `Unaliased` and `Listed` are what any chain promises of its names and of their listing.
-/
namespace ReplayShell

namespace Program

open Syntax (Token FunctionDeclaration Member Written)

/-! ## Declarations in the order of the text -/

/-- A function as it is declared with a number. -/
def functionEntry (generation ordinal : Nat) (declaration : FunctionDeclaration) :
    String × Meaning :=
  (declaration.identifier.text, .function ⟨⟨generation, ordinal⟩, declaration.identifier.text,
    declaration.parameters.map Token.text⟩)

/-- The declarations of members in order. Functions and variables are numbered apart. -/
def membersDeclarations (generation : Nat) : (function global : Nat) → List Member →
    List (String × Meaning)
  | _, _, [] => []
  | function, global, .function declaration :: rest =>
    functionEntry generation function declaration ::
      membersDeclarations generation (function + 1) global rest
  | function, global, .statement statement :: rest =>
    variableMeanings generation global statement.globals ++
      membersDeclarations generation function (global + statement.globals.length) rest

/-- The declarations of functions alone, numbered from `ordinal`. -/
def functionEntries (generation : Nat) : (ordinal : Nat) → List FunctionDeclaration →
    List (String × Meaning)
  | _, [] => []
  | ordinal, declaration :: rest =>
    functionEntry generation ordinal declaration :: functionEntries generation (ordinal + 1) rest

theorem variableMeanings_append (generation ordinal : Nat) (globals more : List (Token × Bool)) :
    variableMeanings generation ordinal (globals ++ more) =
      variableMeanings generation ordinal globals ++
        variableMeanings generation (ordinal + globals.length) more := by
  induction globals generalizing ordinal with
  | nil => rfl
  | cons entry rest ih =>
    rw [List.cons_append, variableMeanings, variableMeanings, ih, List.cons_append,
      List.length_cons, Nat.add_right_comm, Nat.add_assoc]

/-- Functions first and then variables, or in the order of the text: the declarations are the
same. -/
theorem membersDeclarations_perm (generation function global : Nat) (members : List Member) :
    (membersDeclarations generation function global members).Perm
      (functionEntries generation function (functionDeclarations members) ++
        variableMeanings generation global
          ((topLevelStatements members).flatMap Syntax.Statement.globals)) := by
  induction members generalizing function global with
  | nil => exact .refl _
  | cons first rest ih =>
    cases first with
    | function declaration => exact (ih (function + 1) global).cons _
    | statement statement =>
      refine ((ih function (global + statement.globals.length)).append_left _).trans ?_
      refine (List.perm_append_comm_assoc _ _ _).trans ?_
      exact .of_eq (congrArg _ (variableMeanings_append generation global statement.globals _).symm)

theorem latest_perm {declared declared' : List (String × Meaning)} (h : declared.Perm declared')
    (hd : (declared.map Prod.fst).Nodup) (name : String) :
    latest declared name = latest declared' name := by
  have hd' : (declared'.map Prod.fst).Nodup := (h.map Prod.fst).nodup_iff.1 hd
  refine Option.ext fun meaning => ?_
  rw [latest_eq_some_iff hd, latest_eq_some_iff hd', h.mem_iff]

/-! ## A submission without a diagnostic -/

namespace DeclaresInTurn

variable {env env' : Environment} {ordinal : Nat} {declarations : List FunctionDeclaration}
  {declared : List (FunctionSymbol × FunctionDeclaration)} {problems : List Diagnostic}

/-- Where nothing is wrong with them, all functions are declared. -/
theorem complete (h : DeclaresInTurn env ordinal declarations declared env' problems)
    (hm : ∀ declaration ∈ declarations, declaration.identifier.missing = false)
    (hp : problems = []) :
    functionMeanings declared = functionEntries env.generation ordinal declarations := by
  induction h with
  | nil => rfl
  | @skip _ _ _ declaration _ _ _ h _ _ =>
    have hpresent : declaration.identifier.missing = false := hm declaration List.mem_cons_self
    simp [Environment.duplicate, hpresent] at hp
  | declare _ _ _ ih =>
    exact congrArg _ (ih (fun other ho => hm other (List.mem_cons_of_mem _ ho)) hp)

/-- Declaring functions takes their names. -/
theorem taken (h : DeclaresInTurn env ordinal declarations declared env' problems) :
    env'.declared = ((functionMeanings declared).map Prod.fst).reverse ++ env.declared := by
  induction h with
  | nil => rfl
  | skip _ _ ih => exact ih
  | declare _ _ _ ih =>
    rw [ih]
    simp [functionMeanings, Environment.addFunction]

end DeclaresInTurn

/-- Declaring variables that have names takes those. -/
theorem declared_foldl_declare {env : Environment} {globals : List (Token × Bool)}
    (hm : ∀ entry ∈ globals, entry.1.missing = false) :
    (globals.foldl Environment.declare env).declared =
      (globals.map fun entry => entry.1.text).reverse ++ env.declared := by
  induction globals generalizing env with
  | nil => rfl
  | cons entry rest ih =>
    have hpresent : entry.1.missing = false := hm entry List.mem_cons_self
    rw [List.foldl_cons, ih fun other ho => hm other (List.mem_cons_of_mem _ ho)]
    simp [Environment.declare, Environment.declareGlobal, hpresent]

variable {scope : GlobalScope} {generation : Nat} {submission : Syntax.Submission}
  {ts : List Token}

/-- What is declared has a name. -/
theorem present_functions (hw : Written (.members submission.members) ts)
    (hm : ∀ token ∈ ts, token.missing = false) :
    ∀ declaration ∈ functionDeclarations submission.members,
      declaration.identifier.missing = false := by
  intro declaration hd
  obtain ⟨us, hsub, hw⟩ := Syntax.written_functionDeclaration hw hd
  cases hw with
  | function => exact hm _ (hsub.subset (by simp))

theorem present_globals (hw : Written (.members submission.members) ts)
    (hm : ∀ token ∈ ts, token.missing = false) :
    ∀ entry ∈ submission.globals, entry.1.missing = false := by
  intro entry he
  obtain ⟨us, hsub, hw⟩ := Syntax.written_topLevelStatements hw
  exact hm _ (hsub.subset (Syntax.mem_of_globals hw entry he))

/-- A submission without a diagnostic declares everything that its text does. -/
theorem declarations_perm (hw : Written (.members submission.members) ts)
    (hm : ∀ token ∈ ts, token.missing = false)
    (h : (resolve scope generation submission).diagnostics = []) :
    (membersDeclarations generation 0 0 submission.members).Perm
      (declarations scope generation submission) := by
  refine (membersDeclarations_perm generation 0 0 submission.members).trans (.of_eq ?_)
  have hfunctions := (inTurn_afterFunctions scope generation submission).complete
    (present_functions hw hm) (List.append_eq_nil_iff.1 h).1
  rw [declarations, hfunctions]
  rfl

/-- It declares no name twice. -/
theorem nodup_declarations (hw : Written (.members submission.members) ts)
    (hm : ∀ token ∈ ts, token.missing = false)
    (h : (resolve scope generation submission).diagnostics = []) :
    ((declarations scope generation submission).map Prod.fst).Nodup := by
  have hfunctions : (afterFunctions scope generation submission).declared =
      ((functionMeanings (declaredFunctions scope generation submission)).map
        Prod.fst).reverse := by
    rw [(inTurn_afterFunctions scope generation submission).taken, List.append_nil]
  have hdeclared : (afterStatements scope generation submission).declared =
      (submission.globals.map fun entry => entry.1.text).reverse ++
        (afterFunctions scope generation submission).declared := by
    have houtside := congrArg (fun env => env.declared)
      (outside_afterStatements scope generation submission)
    exact houtside.trans (declared_foldl_declare (present_globals hw hm))
  have hnodup : (afterStatements scope generation submission).declared.Nodup := by
    refine (declaring_afterStatements scope generation submission).nodup ?_ ?_
    · exact (List.append_eq_nil_iff.1 (List.append_eq_nil_iff.1 h).2).1
    · rw [hfunctions, (List.reverse_perm _).nodup_iff]
      exact (inTurn_afterFunctions scope generation submission).nodup
  rw [hdeclared, hfunctions, ← List.reverse_append, (List.reverse_perm _).nodup_iff] at hnodup
  rw [declarations, List.map_append, map_fst_variableMeanings]
  exact hnodup

theorem latest_declarations (hw : Written (.members submission.members) ts)
    (hm : ∀ token ∈ ts, token.missing = false)
    (h : (resolve scope generation submission).diagnostics = []) (name : String) :
    latest (declarations scope generation submission) name =
      latest (membersDeclarations generation 0 0 submission.members) name :=
  latest_perm (declarations_perm hw hm h).symm (nodup_declarations hw hm h) name

/-- What is wrong with a submission that is a single name. -/
theorem diagnostics_of_name (scope : GlobalScope) (generation : Nat) {identifier : Token}
    (h : submission.members = [.statement (.expression (.name identifier))])
    (hm : identifier.missing = false) :
    (resolve scope generation submission).diagnostics =
      if (scope.vars[identifier.text]?).isSome then []
      else [⟨identifier.span, .unknownVariable identifier.text⟩] := by
  have hlookup : Environment.lookupVariable { generation := generation, globals := scope }
      identifier.text = (scope.vars[identifier.text]?).map fun found =>
        (.global found.id, found.readOnly) := rfl
  simp only [resolve, h, functionDeclarations, topLevelStatements, List.filterMap_cons,
    List.filterMap_nil, declareFunctions, resolveStatements, resolveStatement, resolveExpression,
    resolveFunctions, hm, Bool.false_eq_true, if_false, List.nil_append, List.append_nil, hlookup]
  cases scope.vars[identifier.text]? <;> rfl

end Program

namespace Compilation

open Program (FunctionSymbol GlobalVariable latest membersDeclarations)
open Terminal (Output)

/-! ## A chain without a diagnostic -/

/-- The declarations of texts compiled one on top of another, in order. -/
def declarationsOf (texts : List String) : List (String × Program.Meaning) :=
  (texts.zipIdx 1).flatMap fun entry =>
    membersDeclarations entry.2 0 0 (Syntax.parse entry.1).1.members

theorem declarationsOf_concat (texts : List String) (text : String) :
    declarationsOf (texts ++ [text]) = declarationsOf texts ++
      membersDeclarations (texts.length + 1) 0 0 (Syntax.parse text).1.members := by
  rw [declarationsOf, List.zipIdx_append, List.flatMap_append, Nat.add_comm 1]
  exact congrArg _ (List.flatMap_singleton _ _)

/-- On a clean chain every name stands for its latest declaration. -/
theorem meaning_of_clean {texts : List String} {previous : Option Compilation}
    (clean : Clean texts previous) (name : String) :
    (previous.getD empty).program.scope.meaning name = latest (declarationsOf texts) name := by
  induction clean with
  | nothing => rfl
  | empty => rfl
  | @text texts previous text below h ih =>
    obtain ⟨hparse, hresolve⟩ := List.append_eq_nil_iff.1 h
    have hwritten := Syntax.parse_written hparse
    have hlatest := Program.latest_declarations hwritten
      (fun token ht => Syntax.present_of_mem_significant ht) hresolve name
    rw [declarationsOf_concat, Program.latest_append, ← (linked_of_clean below).generation, ← ih,
      ← hlatest]
    exact Program.meaning_resolve _ _ _ name

/-! ## Any chain -/

/-- No name stands for two things, and no thing for two names; what can be called is there. -/
structure Unaliased (compilation : Compilation) : Prop where
  apart : ∀ (name : String) (symbol : FunctionSymbol) (found : GlobalVariable),
    compilation.program.scope.functions[name]? = some symbol →
      compilation.program.scope.vars[name]? ≠ some found
  vars : ∀ (name name' : String) (found found' : GlobalVariable),
    compilation.program.scope.vars[name]? = some found →
      compilation.program.scope.vars[name']? = some found' → found.id = found'.id → name = name'
  functions : ∀ (name name' : String) (symbol symbol' : FunctionSymbol),
    compilation.program.scope.functions[name]? = some symbol →
      compilation.program.scope.functions[name']? = some symbol' →
        symbol.id = symbol'.id → name = name'
  bodies : ∀ (name : String) (symbol : FunctionSymbol),
    compilation.program.scope.functions[name]? = some symbol →
      ∃ function, compilation.functions[symbol.id]? = some function ∧ function.symbol = symbol

/-- A name is among the symbols, as a function or as a variable. -/
def Lists (compilation : Compilation) (kind : SymbolKind) (name : String) : Prop :=
  ∃ symbol ∈ compilation.symbols, symbol.kind = kind ∧ symbol.name = name

/-- What can be told from the listing of the names. -/
structure Listed (compilation : Compilation) : Prop where
  distinct : compilation.symbols.Pairwise fun a b => a.name ≠ b.name
  ordered : compilation.symbols.Pairwise fun a b => a.order b = .lt
  /-- Sorting does nothing. -/
  sorted : ∀ shell : Shell, shell.session.compilation = compilation →
    shell.sortedSymbols = compilation.symbols
  /-- `:dump` writes a listed function: a line with its name and its parameters, the lines of its
  body, and a closing line. No name is ambiguous. -/
  dump : ∀ (shell : Shell) (files : FileSystem) (name : String),
    shell.session.compilation = compilation →
      (compilation.Lists .function name ∧ ∃ symbol function lines,
          compilation.program.scope.functions[name]? = some symbol ∧
            compilation.functions[symbol.id]? = some function ∧ function.symbol = symbol ∧
              function.Lines lines ∧ shell.dump files name =
                some ⟨.ok .continue, Output.plain (Program.written lines), shell, files⟩) ∨
        ¬compilation.Lists .function name ∧ shell.dump files name = some ⟨.ok .continue,
          Output.paintedLine .red ("error: function '" ++ name ++ "' does not exist"), shell, files⟩
  /-- A single name can be submitted if it is listed as a variable. -/
  single : ∀ (previous : Option Compilation) (text : String) (identifier : Syntax.Token),
    previous.getD empty = compilation →
      (Syntax.parse text).1.members = [.statement (.expression (.name identifier))] →
        identifier.missing = false →
          (compilation.Lists .variable identifier.text ∧
              (chain previous (Syntax.parse text)).program.diagnostics = []) ∨
            ¬compilation.Lists .variable identifier.text ∧
              (chain previous (Syntax.parse text)).program.diagnostics =
                [⟨identifier.span, .unknownVariable identifier.text⟩]

variable {compilation : Compilation} {name : String}

theorem Coherent.unaliased (coherent : Coherent compilation) : Unaliased compilation where
  apart := by
    intro name symbol found hf hv
    rw [coherent.tidy.apart name symbol hf] at hv
    cases hv
  vars := fun name name' found found' => coherent.tidy.distinct name name' found found'
  functions := fun _ _ _ _ => coherent.function_distinct
  bodies := coherent.visible

theorem Coherent.lists_function (coherent : Coherent compilation) :
    compilation.Lists .function name ↔
      ∃ symbol, compilation.program.scope.functions[name]? = some symbol := by
  constructor
  · rintro ⟨symbol, hm, hk, rfl⟩
    rcases (mem_symbols coherent).1 hm with ⟨found, hf, -⟩ | ⟨found, -, hs⟩
    · exact ⟨found, hf⟩
    · rw [hs] at hk
      cases hk
  · rintro ⟨found, hf⟩
    exact ⟨⟨.function, name, found.signature⟩, (mem_symbols coherent).2 (.inl ⟨found, hf, rfl⟩),
      rfl, rfl⟩

theorem Coherent.lists_variable (coherent : Coherent compilation) :
    compilation.Lists .variable name ↔
      ∃ found, compilation.program.scope.vars[name]? = some found := by
  constructor
  · rintro ⟨symbol, hm, hk, rfl⟩
    rcases (mem_symbols coherent).1 hm with ⟨found, -, hs⟩ | ⟨found, hv, -⟩
    · rw [hs] at hk
      cases hk
    · exact ⟨found, hv⟩
  · rintro ⟨found, hv⟩
    exact ⟨⟨.variable, name, (if found.readOnly then "let " else "var ") ++ name⟩,
      (mem_symbols coherent).2 (.inr ⟨found, hv, rfl⟩), rfl, rfl⟩

theorem Coherent.listed (coherent : Coherent compilation) : Listed compilation where
  distinct := symbols_distinct coherent
  ordered := symbols_ordered coherent
  sorted := by
    rintro shell rfl
    exact Shell.sortedSymbols_eq coherent
  dump := by
    rintro shell files name rfl
    rw [coherent.lists_function]
    cases hs : shell.session.compilation.program.scope.functions[name]? with
    | some symbol =>
      obtain ⟨function, hf, hsymbol⟩ := coherent.visible name symbol hs
      obtain ⟨lines, hlines, hlisting⟩ := Program.listing_function function
      exact .inl ⟨⟨symbol, rfl⟩, symbol, function, lines, rfl, hf, hsymbol, hlines,
        hlisting ▸ Shell.dump_function coherent files hs hf⟩
    | none =>
      refine .inr ⟨?_, Shell.dump_unknown coherent files hs⟩
      rintro ⟨symbol, hsymbol⟩
      cases hsymbol
  single := by
    rintro previous text identifier rfl hmembers hm
    have hdiagnostics : (chain previous (Syntax.parse text)).program.diagnostics = _ :=
      Program.diagnostics_of_name _ _ hmembers hm
    rw [coherent.lists_variable, hdiagnostics]
    cases hv : (previous.getD empty).program.scope.vars[identifier.text]? with
    | some found => exact .inl ⟨⟨found, rfl⟩, rfl⟩
    | none =>
      refine .inr ⟨?_, rfl⟩
      rintro ⟨found, hfound⟩
      cases hfound

end Compilation

end ReplayShell
