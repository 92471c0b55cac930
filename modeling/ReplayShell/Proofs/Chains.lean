import ReplayShell.Compilation
import ReplayShell.Proofs.Binding

/-!
# Clean chains

A session builds only on submissions without a diagnostic.

* `Clean` says that a compilation is that of texts, one on top of another, all without a diagnostic.
* `Declares` is what declaring the functions of a submission does.
* `contextOf` is what the code of each function, and of the top level, may rely on. `Linked` is the
  invariant of a clean chain: no code asks for more. `Link.linked_concat` is the step,
  `linked_of_clean` the whole chain.
* `resolution_sound`: no run on a clean chain does what resolved code must never do.
-/
namespace ReplayShell

/-! ## Members and their parts -/

namespace Syntax

open Program (functionDeclarations topLevelStatements)

variable {members : List Member} {ts : List Token} {part : Expression}

theorem mem_of_functionDeclarations {declaration : FunctionDeclaration}
    (hd : declaration ∈ functionDeclarations members) : .function declaration ∈ members := by
  obtain ⟨first, hm, hf⟩ := List.mem_filterMap.1 hd
  cases first with
  | function =>
    cases hf
    exact hm
  | statement => cases hf

/-- The statements among members are written with some of their tokens. -/
theorem written_topLevelStatements (h : Written (.members members) ts) :
    ∃ us, us.Sublist ts ∧ Written (.statements (topLevelStatements members)) us := by
  induction members generalizing ts with
  | nil => exact ⟨[], List.nil_sublist _, .noStatements⟩
  | cons first more ih =>
    cases h with
    | @members _ _ ts' us' hf hm =>
      obtain ⟨us, hsub, hw⟩ := ih hm
      cases hf with
      | functionMember => exact ⟨us, hsub.trans (List.sublist_append_right _ _), hw⟩
      | statementMember hs => exact ⟨ts' ++ us, hsub.append_left ts', .statements hs hw⟩

/-- So is each of the functions. -/
theorem written_functionDeclaration {declaration : FunctionDeclaration}
    (h : Written (.members members) ts) (hd : declaration ∈ functionDeclarations members) :
    ∃ us, us.Sublist ts ∧ Written (.function declaration) us := by
  obtain ⟨us, hsub, hw⟩ := written_of_mem h (mem_of_functionDeclarations hd)
  cases hw with
  | functionMember hw => exact ⟨us, hsub, hw⟩

theorem occurs_of_topLevelStatements
    (h : Occurs part (.statements (topLevelStatements members))) :
    Occurs part (.members members) := by
  have statement : ∃ statement, .statement statement ∈ members ∧
      Occurs part (.statement statement) := by
    induction members with
    | nil => cases h
    | cons first more ih =>
      have later : Occurs part (.statements (topLevelStatements more)) →
          ∃ statement, .statement statement ∈ first :: more ∧ Occurs part (.statement statement) := by
        intro h
        obtain ⟨statement, hm, ho⟩ := ih h
        exact ⟨statement, List.mem_cons_of_mem _ hm, ho⟩
      cases first with
      | function => exact later h
      | statement =>
        cases h with
        | firstStatement h => exact ⟨_, List.mem_cons_self, h⟩
        | moreStatements h => exact later h
  obtain ⟨statement, hm, ho⟩ := statement
  exact .member hm (.statementMember ho)

theorem occurs_of_functionDeclaration {declaration : FunctionDeclaration}
    (hd : declaration ∈ functionDeclarations members) (h : Occurs part (.function declaration)) :
    Occurs part (.members members) :=
  .member (mem_of_functionDeclarations hd) (.functionMember h)

end Syntax

namespace Program

open Syntax (Token FunctionDeclaration)

/-! ## What a submission declares -/

/-- What declaring functions, numbered from `ordinal`, does to an environment. -/
structure Declares (env : Environment) (ordinal : Nat) (declarations : List FunctionDeclaration)
    (declared : List (FunctionSymbol × FunctionDeclaration)) (env' : Environment) : Prop where
  generation : ∀ entry ∈ declared, entry.1.id.generation = env.generation
  fresh : ∀ entry ∈ declared, ordinal ≤ entry.1.id.ordinal
  distinct : declared.Pairwise fun entry entry' => entry.1.id ≠ entry'.1.id
  parameters : ∀ entry ∈ declared, entry.1.parameters = entry.2.parameters.map Token.text
  mem : ∀ entry ∈ declared, entry.2 ∈ declarations
  functions : ∀ (name : String) (symbol : FunctionSymbol),
    env'.globals.functions[name]? = some symbol →
      env.globals.functions[name]? = some symbol ∨ ∃ entry ∈ declared, entry.1 = symbol
  blocks : env'.blocks = env.blocks
  env_generation : env'.generation = env.generation
  inFunction : env'.inFunction = env.inFunction

variable {env env' : Environment} {ordinal : Nat} {declaration : FunctionDeclaration}
  {declarations : List FunctionDeclaration} {declared : List (FunctionSymbol × FunctionDeclaration)}

theorem Declares.skip (h : Declares env ordinal declarations declared env')
    (declaration : FunctionDeclaration) :
    Declares env ordinal (declaration :: declarations) declared env' :=
  { h with mem := fun entry he => List.mem_cons_of_mem _ (h.mem entry he) }

/-- A function that is declared comes first, with the number that is next. -/
theorem Declares.declare {env₁ : Environment} {symbol : FunctionSymbol}
    (h : Declares env₁ (ordinal + 1) declarations declared env')
    (hid : symbol.id = ⟨env.generation, ordinal⟩)
    (hp : symbol.parameters = declaration.parameters.map Token.text)
    (hs : env₁.globals.functions = env.globals.functions.insert symbol.name symbol)
    (hb : env₁.blocks = env.blocks) (hg : env₁.generation = env.generation)
    (hi : env₁.inFunction = env.inFunction) :
    Declares env ordinal (declaration :: declarations) ((symbol, declaration) :: declared) env' where
  generation := by
    rintro entry he
    rcases List.mem_cons.1 he with rfl | he
    · rw [hid]
    · rw [h.generation entry he, hg]
  fresh := by
    rintro entry he
    rcases List.mem_cons.1 he with rfl | he
    · exact Nat.le_of_eq (congrArg DeclarationId.ordinal hid).symm
    · exact Nat.le_of_succ_le (h.fresh entry he)
  distinct := by
    refine List.pairwise_cons.2 ⟨fun entry he heq => ?_, h.distinct⟩
    have hlt : ordinal < entry.1.id.ordinal := h.fresh entry he
    have ho : entry.1.id.ordinal = ordinal := by rw [← heq, hid]
    omega
  parameters := by
    rintro entry he
    rcases List.mem_cons.1 he with rfl | he
    · exact hp
    · exact h.parameters entry he
  mem := by
    rintro entry he
    rcases List.mem_cons.1 he with rfl | he
    · exact List.mem_cons_self
    · exact List.mem_cons_of_mem _ (h.mem entry he)
  functions := by
    intro name symbol' hf
    rcases h.functions name symbol' hf with hf | ⟨entry, he, hsymbol⟩
    · rw [hs, Std.ExtTreeMap.getElem?_insert] at hf
      by_cases hn : compare symbol.name name = .eq
      · rw [if_pos hn] at hf
        exact .inr ⟨(symbol, declaration), List.mem_cons_self, Option.some.inj hf⟩
      · rw [if_neg hn] at hf
        exact .inl hf
    · exact .inr ⟨entry, List.mem_cons_of_mem _ he, hsymbol⟩
  blocks := h.blocks.trans hb
  env_generation := h.env_generation.trans hg
  inFunction := h.inFunction.trans hi

theorem declares_declareFunctions (env : Environment) (ordinal : Nat)
    (declarations : List FunctionDeclaration) :
    Declares env ordinal declarations (declareFunctions env ordinal declarations).1
      (declareFunctions env ordinal declarations).2.1 := by
  induction declarations generalizing env ordinal with
  | nil =>
    refine ⟨?_, ?_, .nil, ?_, ?_, fun _ _ h => .inl h, rfl, rfl, rfl⟩ <;>
      exact fun entry he => absurd he List.not_mem_nil
  | cons declaration rest ih =>
    have skip := (ih env ordinal).skip declaration
    simp only [declareFunctions, Environment.declareFunction]
    by_cases hm : declaration.identifier.missing = true
    · simpa only [if_pos hm] using skip
    by_cases ht : env.declared.contains declaration.identifier.text = true
    · simpa only [if_neg hm, if_pos ht] using skip
    simp only [if_neg hm, if_neg ht]
    exact (ih _ (ordinal + 1)).declare rfl rfl rfl rfl rfl rfl

theorem resolveFunctions_eq (globals : Environment)
    (declared : List (FunctionSymbol × FunctionDeclaration)) :
    resolveFunctions globals declared =
      (declared.map fun entry => (resolveFunction globals entry.1 entry.2).1,
        declared.flatMap fun entry => (resolveFunction globals entry.1 entry.2).2) := by
  induction declared with
  | nil => rfl
  | cons entry rest ih => rw [resolveFunctions, ih, List.map_cons, List.flatMap_cons]

/-- How a submission without a problem is resolved: its functions are declared, then its statements
are resolved, then the bodies of its functions. -/
structure Resolves (scope : GlobalScope) (generation : Nat) (members : List Syntax.Member)
    (declared : List (FunctionSymbol × FunctionDeclaration)) (env : Environment)
    (program : Program) : Prop where
  declares : Declares { generation := generation, globals := scope } 0
    (functionDeclarations members) declared env
  scope : program.scope = (resolveStatements env (topLevelStatements members)).2.1.globals
  functions : program.functions = declared.map fun entry =>
    (resolveFunction (resolveStatements env (topLevelStatements members)).2.1 entry.1 entry.2).1
  statements : program.statements = (resolveStatements env (topLevelStatements members)).1
  frameSize : program.frameSize =
    (resolveStatements env (topLevelStatements members)).2.1.frameSize
  noProblem : (resolveStatements env (topLevelStatements members)).2.2 = []
  noFunctionProblem : ∀ entry ∈ declared, (resolveFunction
    (resolveStatements env (topLevelStatements members)).2.1 entry.1 entry.2).2 = []

theorem resolves_resolve {scope : GlobalScope} {generation : Nat} {submission : Syntax.Submission}
    (h : (resolve scope generation submission).diagnostics = []) :
    ∃ declared env, Resolves scope generation submission.members declared env
      (resolve scope generation submission) := by
  have declares := declares_declareFunctions { generation := generation, globals := scope } 0
    (functionDeclarations submission.members)
  obtain ⟨-, hrest⟩ := List.append_eq_nil_iff.1 h
  obtain ⟨hstatements, hfunctions⟩ := List.append_eq_nil_iff.1 hrest
  rw [resolveFunctions_eq, List.flatMap_eq_nil_iff] at hfunctions
  refine ⟨_, _, declares, rfl, ?_, rfl, rfl, hstatements, hfunctions⟩
  simp only [resolve, resolveFunctions_eq]

/-- What the functions of a submission make of those below. -/
theorem getElem?_foldl_insert {functions : List Function} {below : FunctionMap}
    (hd : functions.Pairwise fun f g => f.symbol.id ≠ g.symbol.id) (id : FunctionId)
    (function : Function) :
    (functions.foldl (fun functions function => functions.insert function.symbol.id function)
        below)[id]? = some function ↔
      (function ∈ functions ∧ function.symbol.id = id) ∨
        ((∀ f ∈ functions, f.symbol.id ≠ id) ∧ below[id]? = some function) := by
  induction functions generalizing below with
  | nil => simp
  | cons first rest ih =>
    obtain ⟨hfirst, hrest⟩ := List.pairwise_cons.1 hd
    rw [List.foldl_cons, ih hrest, Std.ExtTreeMap.getElem?_insert]
    by_cases hid : first.symbol.id = id
    · rw [if_pos (Std.LawfulEqCmp.compare_eq_iff_eq.2 hid)]
      constructor
      · rintro (⟨hm, he⟩ | ⟨-, hf⟩)
        · exact .inl ⟨List.mem_cons_of_mem _ hm, he⟩
        · obtain rfl := Option.some.inj hf
          exact .inl ⟨List.mem_cons_self, hid⟩
      · rintro (⟨hm, he⟩ | ⟨hne, -⟩)
        · rcases List.mem_cons.1 hm with rfl | hm
          · exact .inr ⟨fun f hf heq => hfirst f hf (hid.trans heq.symm), rfl⟩
          · exact .inl ⟨hm, he⟩
        · exact absurd hid (hne first List.mem_cons_self)
    · rw [if_neg fun h => hid (Std.LawfulEqCmp.compare_eq_iff_eq.1 h)]
      constructor
      · rintro (⟨hm, he⟩ | ⟨hne, hf⟩)
        · exact .inl ⟨List.mem_cons_of_mem _ hm, he⟩
        · refine .inr ⟨fun f hm => ?_, hf⟩
          rcases List.mem_cons.1 hm with rfl | hm
          · exact hid
          · exact hne f hm
      · rintro (⟨hm, he⟩ | ⟨hne, hf⟩)
        · rcases List.mem_cons.1 hm with rfl | hm
          · exact absurd he hid
          · exact .inl ⟨hm, he⟩
        · exact .inr ⟨fun f hm => hne f (List.mem_cons_of_mem _ hm), hf⟩

end Program

namespace Compilation

open Program (Context Sound Setting Function FunctionSymbol FunctionMap Moment Reached Environment)

/-! ## The invariant of a clean chain -/

/-- The compilation of texts, one on top of another, none of which has a diagnostic. -/
inductive Clean : List String → Option Compilation → Prop
  | nothing : Clean [] none
  | empty : Clean [] (some empty)
  | text {texts : List String} {previous : Option Compilation} {text : String}
      (below : Clean texts previous) (h : (chain previous (Syntax.parse text)).diagnostics = []) :
      Clean (texts ++ [text]) (some (chain previous (Syntax.parse text)))

/-- The text that a function, or the top level, was written in. -/
def sourceOf (texts : List String) : Option FunctionId → Option String
  | none => texts.getLast?
  | some id => texts[id.generation - 1]?

/-- The place is that of an expression of the text. -/
def Placed (text : String) (span : Span) : Prop :=
  ∃ part, Syntax.Occurs part (.members (Syntax.parse text).1.members) ∧ part.span = span

/-- What the code of a function, or of the top level, may rely on. -/
def contextOf (texts : List String) (compilation : Compilation) (origin : Option FunctionId) :
    Context where
  size := match origin with
    | none => compilation.program.frameSize
    | some id => (compilation.functions[id]?.map Function.frameSize).getD 0
  arity := compilation.functions.arity
  inFunction := origin.isSome
  placed := fun span => ∃ text, sourceOf texts origin = some text ∧ Placed text span

/-- The names and the code of a chain of texts fit together. -/
structure Linked (texts : List String) (compilation : Compilation) : Prop where
  generation : compilation.generation = texts.length
  /-- Functions have numbers of the generations up to this one. -/
  numbered : ∀ (id : FunctionId) (function : Function),
    compilation.functions[id]? = some function → 1 ≤ id.generation ∧ id.generation ≤ texts.length
  /-- A visible function has a body. -/
  visible : ∀ (name : String) (symbol : FunctionSymbol),
    compilation.program.scope.functions[name]? = some symbol →
      compilation.functions.arity symbol.id = some symbol.parameters.length
  parameters : ∀ (id : FunctionId) (function : Function),
    compilation.functions[id]? = some function →
      function.symbol.parameters.length ≤ function.frameSize
  body : ∀ (id : FunctionId) (function : Function), compilation.functions[id]? = some function →
    Sound (contextOf texts compilation (some id)) (.statements function.body)
  statements : Sound (contextOf texts compilation none) (.statements compilation.program.statements)

theorem getElem?_functions_empty (id : FunctionId) : empty.functions[id]? = none :=
  Std.ExtTreeMap.getElem?_empty

theorem linked_empty : Linked [] empty := by
  have none_known : ∀ (id : FunctionId) (function : Function),
      ¬empty.functions[id]? = some function := by
    intro id function h
    rw [getElem?_functions_empty] at h
    cases h
  refine ⟨rfl, ?_, ?_, ?_, ?_, .noStatements⟩
  · exact fun id function h => absurd h (none_known id function)
  · intro name symbol h
    rw [empty, Std.ExtTreeMap.getElem?_empty] at h
    cases h
  · exact fun id function h => absurd h (none_known id function)
  · exact fun id function h => absurd h (none_known id function)

/-- The setting of a run. -/
theorem Linked.setting {texts : List String} {compilation : Compilation}
    (linked : Linked texts compilation) :
    Setting compilation.functions (contextOf texts compilation) where
  arity := fun _ => rfl
  inFunction := fun _ h => h
  size := by
    intro id function h
    simp only [contextOf, h, Option.map_some, Option.getD_some]
  parameters := linked.parameters
  body := linked.body

/-- A submission without a diagnostic on top of a chain. -/
structure Link (texts : List String) (below : Compilation) (text : String)
    (declared : List (FunctionSymbol × Syntax.FunctionDeclaration)) (env : Environment)
    (compilation : Compilation) : Prop where
  linked : Linked texts below
  generation : compilation.generation = texts.length + 1
  written : Syntax.Written (.members (Syntax.parse text).1.members)
    (Syntax.tokenize text).significant
  resolves : Program.Resolves below.program.scope (texts.length + 1)
    (Syntax.parse text).1.members declared env compilation.program
  /-- The functions are its own and those below. -/
  functions : ∀ (id : FunctionId) (function : Function),
    compilation.functions[id]? = some function ↔
      (function ∈ compilation.program.functions ∧ function.symbol.id = id) ∨
        below.functions[id]? = some function

variable {texts : List String} {below compilation : Compilation} {text : String}
  {declared : List (FunctionSymbol × Syntax.FunctionDeclaration)} {env : Environment}

theorem link_chain {previous : Option Compilation} (linked : Linked texts (previous.getD empty))
    (h : (chain previous (Syntax.parse text)).diagnostics = []) :
    ∃ declared env,
      Link texts (previous.getD empty) text declared env (chain previous (Syntax.parse text)) := by
  obtain ⟨hparse, hresolve⟩ := List.append_eq_nil_iff.1 h
  rw [linked.generation] at hresolve
  obtain ⟨declared, env, resolves⟩ := Program.resolves_resolve hresolve
  have hprogram : (chain previous (Syntax.parse text)).program = Program.resolve
      (previous.getD empty).program.scope (texts.length + 1) (Syntax.parse text).1 := by
    rw [← linked.generation]
    rfl
  rw [← hprogram] at resolves
  refine ⟨declared, env, linked, congrArg (· + 1) linked.generation, Syntax.parse_written hparse,
    resolves, fun id function => ?_⟩
  have distinct : (chain previous (Syntax.parse text)).program.functions.Pairwise
      fun f g => f.symbol.id ≠ g.symbol.id := by
    rw [resolves.functions, List.pairwise_map]
    exact resolves.declares.distinct
  refine (Program.getElem?_foldl_insert distinct id function).trans (or_congr_right ?_)
  refine ⟨And.right, fun hbelow => ⟨fun f hf heq => ?_, hbelow⟩⟩
  -- A new function has a number of the new generation.
  rw [resolves.functions] at hf
  obtain ⟨entry, he, rfl⟩ := List.mem_map.1 hf
  have hnew : id.generation = texts.length + 1 := by
    rw [← heq]
    exact resolves.declares.generation entry he
  have hold := (linked.numbered id function hbelow).2
  omega

namespace Link

/-- The names after the statements of the submission. -/
abbrev after (text : String) (env : Environment) : Environment :=
  (Program.resolveStatements env
    (Program.topLevelStatements (Syntax.parse text).1.members)).2.1

/-- A function of the chain is one that the submission declares, or one from below. -/
theorem cases_function (link : Link texts below text declared env compilation) {id : FunctionId}
    {function : Function} (h : compilation.functions[id]? = some function) :
    (∃ entry ∈ declared, entry.1.id = id ∧
        function = (Program.resolveFunction (after text env) entry.1 entry.2).1) ∨
      below.functions[id]? = some function := by
  refine ((link.functions id function).1 h).imp_left fun ⟨hm, hid⟩ => ?_
  rw [link.resolves.functions] at hm
  obtain ⟨entry, he, rfl⟩ := List.mem_map.1 hm
  exact ⟨entry, he, hid, rfl⟩

theorem function_of_declared (link : Link texts below text declared env compilation)
    {entry : FunctionSymbol × Syntax.FunctionDeclaration} (he : entry ∈ declared) :
    compilation.functions[entry.1.id]? =
      some (Program.resolveFunction (after text env) entry.1 entry.2).1 := by
  refine (link.functions _ _).2 (.inl ⟨?_, rfl⟩)
  rw [link.resolves.functions]
  exact List.mem_map.2 ⟨entry, he, rfl⟩

/-- Functions from below go on taking as many arguments. -/
theorem arity (link : Link texts below text declared env compilation) (id : FunctionId)
    (given : Nat) (h : below.functions.arity id = some given) :
    compilation.functions.arity id = some given := by
  obtain ⟨function, hf, rfl⟩ := Option.map_eq_some_iff.1 h
  rw [FunctionMap.arity, (link.functions id function).2 (.inr hf)]
  rfl

/-- What is known of functions, before and after the statements of the submission. -/
theorem known (link : Link texts below text declared env compilation) (name : String)
    (symbol : FunctionSymbol) (h : env.globals.functions[name]? = some symbol) :
    compilation.functions.arity symbol.id = some symbol.parameters.length := by
  rcases link.resolves.declares.functions name symbol h with h | ⟨entry, he, rfl⟩
  · exact link.arity _ _ (link.linked.visible name symbol h)
  · rw [FunctionMap.arity, link.function_of_declared he]
    rfl

theorem known_after (link : Link texts below text declared env compilation) (name : String)
    (symbol : FunctionSymbol) (h : (after text env).globals.functions[name]? = some symbol) :
    compilation.functions.arity symbol.id = some symbol.parameters.length :=
  link.known name symbol ((Program.resolveStatements_grows env _).functions name symbol h)

theorem numbered (link : Link texts below text declared env compilation) (id : FunctionId)
    (function : Function) (h : compilation.functions[id]? = some function) :
    1 ≤ id.generation ∧ id.generation ≤ texts.length + 1 := by
  rcases link.cases_function h with ⟨entry, he, rfl, -⟩ | h
  · have hnew : entry.1.id.generation = texts.length + 1 :=
      link.resolves.declares.generation entry he
    omega
  · have hold := link.linked.numbered id function h
    omega

/-- The code of a function from below may rely on what it did, and more. -/
theorem extends_contextOf (link : Link texts below text declared env compilation) {id : FunctionId}
    {function : Function} (h : below.functions[id]? = some function) :
    (contextOf texts below (some id)).Extends
      (contextOf (texts ++ [text]) compilation (some id)) where
  size := by
    simp only [contextOf, h, (link.functions id function).2 (.inr h), Nat.le_refl]
  arity := link.arity
  inFunction := fun h => h
  placed := by
    rintro span ⟨source, hs, hp⟩
    refine ⟨source, ?_, hp⟩
    obtain ⟨hlt, -⟩ := List.getElem?_eq_some_iff.1 hs
    exact (List.getElem?_append_left hlt).trans hs

/-- A declared function is written in the text, and has the parameters of its declaration. -/
theorem written_declared (link : Link texts below text declared env compilation)
    {entry : FunctionSymbol × Syntax.FunctionDeclaration} (he : entry ∈ declared) :
    ∃ ts, Syntax.Written (.function entry.2) ts ∧ (∀ token ∈ ts, token.missing = false) ∧
      entry.1.parameters.length = entry.2.parameters.length := by
  have declares := link.resolves.declares
  obtain ⟨ts, hsub, hw⟩ :=
    Syntax.written_functionDeclaration link.written (declares.mem entry he)
  refine ⟨ts, hw, fun token ht => Syntax.present_of_mem_significant (hsub.subset ht), ?_⟩
  rw [declares.parameters entry he, List.length_map]

/-- A declared function has room for its parameters, and sound code. -/
theorem sound_declared (link : Link texts below text declared env compilation)
    {entry : FunctionSymbol × Syntax.FunctionDeclaration} (he : entry ∈ declared) :
    entry.1.parameters.length ≤
        (Program.resolveFunction (after text env) entry.1 entry.2).1.frameSize ∧
      Sound (contextOf (texts ++ [text]) compilation (some entry.1.id))
        (.statements (Program.resolveFunction (after text env) entry.1 entry.2).1.body) := by
  have declares := link.resolves.declares
  obtain ⟨ts, hw, hm, hlength⟩ := link.written_declared he
  have hsize : (Program.resolveFunction (after text env) entry.1 entry.2).1.frameSize =
      (contextOf (texts ++ [text]) compilation (some entry.1.id)).size := by
    simp only [contextOf, link.function_of_declared he, Option.map_some, Option.getD_some]
  have hsource : sourceOf (texts ++ [text]) (some entry.1.id) = some text := by
    rw [sourceOf, declares.generation entry he]
    simp
  rw [hlength, hsize]
  refine Program.sound_resolveFunction hw hm (fun part ho => ?_) link.known_after rfl hsize
    (link.resolves.noFunctionProblem entry he)
  exact ⟨text, hsource, part,
    Syntax.occurs_of_functionDeclaration (declares.mem entry he) ho, rfl⟩

theorem sound_statements (link : Link texts below text declared env compilation) :
    Sound (contextOf (texts ++ [text]) compilation none)
      (.statements compilation.program.statements) := by
  have resolves := link.resolves
  obtain ⟨ts, hsub, hw⟩ := Syntax.written_topLevelStatements link.written
  have fits : env.Fits (contextOf (texts ++ [text]) compilation none) := by
    refine ⟨fun block hb => ?_, link.known, fun hf => ?_⟩
    · rw [resolves.declares.blocks] at hb
      exact absurd hb List.not_mem_nil
    · rw [resolves.declares.inFunction] at hf
      cases hf
  rw [resolves.statements]
  refine Program.binds_of_written hw
    (fun token ht => Syntax.present_of_mem_significant (hsub.subset ht)) env _ (fun part ho => ?_)
    fits (Nat.le_of_eq resolves.frameSize.symm) resolves.noProblem
  exact ⟨text, List.getLast?_concat, part, Syntax.occurs_of_topLevelStatements ho, rfl⟩

end Link

/-- A clean link on top of a chain makes a chain. -/
theorem Link.linked_concat (link : Link texts below text declared env compilation) :
    Linked (texts ++ [text]) compilation where
  generation := by rw [link.generation, List.length_append, List.length_singleton]
  numbered := by
    rw [List.length_append, List.length_singleton]
    exact link.numbered
  visible := by
    rw [link.resolves.scope]
    exact link.known_after
  parameters := by
    intro id function h
    rcases link.cases_function h with ⟨entry, he, rfl, rfl⟩ | h
    · exact (link.sound_declared he).1
    · exact link.linked.parameters id function h
  body := by
    intro id function h
    rcases link.cases_function h with ⟨entry, he, rfl, rfl⟩ | h
    · exact (link.sound_declared he).2
    · exact (link.linked.body id function h).extend (link.extends_contextOf h)
  statements := link.sound_statements

/-- A clean chain fits together. -/
theorem linked_of_clean {previous : Option Compilation} (clean : Clean texts previous) :
    Linked texts (previous.getD empty) := by
  induction clean with
  | nothing => exact linked_empty
  | empty => exact linked_empty
  | text _ h ih =>
    obtain ⟨declared, env, link⟩ := link_chain ih h
    exact link.linked_concat

/-- What holds of no code, and of each link if it holds of what is below, holds of a clean chain. -/
theorem keeps_of_clean {motive : Compilation → Prop} (none : motive empty)
    (next : ∀ {texts : List String} {below : Compilation} {text : String}
      {declared : List (FunctionSymbol × Syntax.FunctionDeclaration)} {env : Environment}
      {compilation : Compilation},
      Link texts below text declared env compilation → motive below → motive compilation)
    {previous : Option Compilation} (clean : Clean texts previous) :
    motive (previous.getD empty) := by
  induction clean with
  | nothing => exact none
  | empty => exact none
  | text below h ih =>
    obtain ⟨declared, env, link⟩ := link_chain (linked_of_clean below) h
    exact next link ih

/-! ## Runs on a clean chain -/

/-- The beginning of a run. -/
def start (compilation : Compilation) (fuel : Nat) (globals : Variables) : Moment where
  origin := none
  depth := 0
  fuel := fuel
  task := .run none compilation.program.statements
  machine :=
    { globals := globals, frame := List.replicate compilation.program.frameSize none, printed := "" }

theorem Linked.fits_start (linked : Linked texts compilation) (fuel : Nat) (globals : Variables) :
    (compilation.start fuel globals).Fits (contextOf texts compilation) :=
  ⟨List.length_replicate, linked.statements⟩

/-- A safe moment does not fail for the lack of code. -/
theorem problem_of_safe {functions : FunctionMap} {moment : Moment} {diagnostic : Diagnostic}
    (h : Program.Raises functions moment diagnostic) (safe : moment.Safe functions) :
    diagnostic.problem ≠ .invalidCode ∧
      ∀ name, diagnostic.problem ≠ .functionWithoutBody name := by
  cases h with
  | invalid => exact safe.elim
  | noBody hf =>
    obtain ⟨function, hfound, -⟩ := safe
    rw [hf] at hfound
    cases hfound
  | unary _ hr =>
    unfold Program.unaryResult at hr
    split at hr <;> cases hr <;> exact ⟨by simp, by simp⟩
  | binary _ _ _ hb =>
    unfold Program.binaryResult at hb
    split at hb <;> cases hb <;> exact ⟨by simp, by simp⟩
  | _ => exact ⟨by simp, by simp⟩

/-- **Resolution is sound.** Let texts be compiled one on top of another, none with a diagnostic, and
the last be run on any variables. Every moment of the run is safe, in its own statements and in the
functions of whichever text it calls; so it never fails for the lack of code. -/
theorem resolution_sound (clean : Clean texts (some compilation)) (fuel : Nat)
    (globals : Variables) :
    (∀ moment, Reached compilation.functions (compilation.start fuel globals) moment →
      moment.Safe compilation.functions) ∧
    ∀ diagnostic machine,
      compilation.program.run compilation.functions fuel globals = .failed diagnostic machine →
        diagnostic.problem ≠ .invalidCode ∧
          ∀ name, diagnostic.problem ≠ .functionWithoutBody name := by
  have linked : Linked texts compilation := linked_of_clean clean
  have safe : ∀ moment, Reached compilation.functions (compilation.start fuel globals) moment →
      moment.Safe compilation.functions := by
    intro moment h
    have fits := Program.fits_of_reached linked.setting h (linked.fits_start fuel globals)
    exact fits.safe linked.setting
  refine ⟨safe, fun diagnostic machine h => ?_⟩
  obtain ⟨moment, hreached, hraises⟩ := Program.explains_runStatements none 0 none _ _ h
  exact problem_of_safe hraises (safe moment hreached)

theorem resolution_sound_acrossSubmissions :
    ∃ compilation, Clean ["function f(a) { return a }", "f(1)"] (some compilation) ∧
      ∀ fuel globals,
        (∀ moment, Reached compilation.functions (compilation.start fuel globals) moment →
          moment.Safe compilation.functions) ∧
        ∀ diagnostic machine,
          compilation.program.run compilation.functions fuel globals = .failed diagnostic machine →
            diagnostic.problem ≠ .invalidCode ∧
              ∀ name, diagnostic.problem ≠ .functionWithoutBody name := by
  have first : Clean ["function f(a) { return a }"] _ :=
    .text .nothing (List.isEmpty_iff.1 (by decide +kernel))
  have both : Clean ["function f(a) { return a }", "f(1)"] _ :=
    .text first (List.isEmpty_iff.1 (by decide +kernel))
  exact ⟨_, both, resolution_sound both⟩

end Compilation

end ReplayShell
