import ReplayShell.Proofs.Links
import ReplayShell.Proofs.StoreRecords
import ReplayShell.Shell.Dispatch

/-!
# Listed names

* `symbols_ordered`, `symbols_distinct`: the symbols of a compilation come in the order of a
  listing, each under a name of its own. So sorting them does nothing.
* `filter_symbols` is the search for a function that `:dump` makes, `dump_function` and
  `dump_unknown` what comes of it.
-/
namespace ReplayShell

open Program (Function FunctionSymbol GlobalVariable)

instance : Std.OrientedOrd SymbolKind where
  eq_swap {a b} := by cases a <;> cases b <;> rfl

namespace Symbol

theorem order_of_kind {a b : Symbol} (h : a.kind = b.kind) :
    a.order b = compare a.name b.name := by
  rw [order, h, Std.ReflOrd.compare_self]
  rfl

theorem order_asymm {a b : Symbol} (h : a.order b = .lt) : ¬b.order a = .lt := by
  have hswap : b.order a = (a.order b).swap := by
    simp only [order, Ordering.swap_then]
    rw [← Std.OrientedOrd.eq_swap, ← Std.OrientedOrd.eq_swap]
  rw [hswap, h]
  exact Ordering.noConfusion

end Symbol

namespace Compilation

variable {compilation : Compilation}

theorem mem_symbols (coherent : Coherent compilation) {symbol : Symbol} :
    symbol ∈ compilation.symbols ↔
      (∃ found : FunctionSymbol, compilation.program.scope.functions[symbol.name]? = some found ∧
          symbol = ⟨.function, symbol.name, found.signature⟩) ∨
        ∃ found : GlobalVariable, compilation.program.scope.vars[symbol.name]? = some found ∧
          symbol = ⟨.variable, symbol.name,
            (if found.readOnly then "let " else "var ") ++ symbol.name⟩ := by
  simp only [symbols, List.mem_append, List.mem_map, Prod.exists,
    Std.ExtTreeMap.mem_toList_iff_getElem?_eq_some]
  refine or_congr ⟨?_, ?_⟩ ⟨?_, ?_⟩
  · rintro ⟨name, found, hf, rfl⟩
    rw [← coherent.tidy.named name found hf] at hf
    exact ⟨found, hf, rfl⟩
  · rintro ⟨found, hf, hs⟩
    exact ⟨symbol.name, found, hf, by rw [hs, coherent.tidy.named _ found hf]⟩
  · rintro ⟨name, found, hf, rfl⟩
    exact ⟨found, hf, rfl⟩
  · rintro ⟨found, hf, hs⟩
    exact ⟨symbol.name, found, hf, hs.symm⟩

theorem symbols_ordered (coherent : Coherent compilation) :
    compilation.symbols.Pairwise fun a b => a.order b = .lt := by
  refine List.pairwise_append.2 ⟨?_, ?_, ?_⟩
  · refine List.pairwise_map.2 (Std.ExtTreeMap.ordered_keys_toList.imp_of_mem ?_)
    rintro ⟨name, found⟩ ⟨name', found'⟩ hm hm' hlt
    rw [Std.ExtTreeMap.mem_toList_iff_getElem?_eq_some] at hm hm'
    refine (Symbol.order_of_kind (by rfl)).trans ?_
    simpa only [coherent.tidy.named name found hm, coherent.tidy.named name' found' hm'] using hlt
  · refine List.pairwise_map.2 (Std.ExtTreeMap.ordered_keys_toList.imp ?_)
    exact fun hlt => (Symbol.order_of_kind (by rfl)).trans hlt
  · intro a ha b hb
    obtain ⟨_, -, rfl⟩ := List.mem_map.1 ha
    obtain ⟨_, -, rfl⟩ := List.mem_map.1 hb
    rfl

theorem symbols_distinct (coherent : Coherent compilation) :
    compilation.symbols.Pairwise fun a b => a.name ≠ b.name := by
  refine (symbols_ordered coherent).imp_of_mem fun {a b} ha hb hlt hn => ?_
  rcases (mem_symbols coherent).1 ha with ⟨f, hf, hsa⟩ | ⟨v, hv, hsa⟩ <;>
    rcases (mem_symbols coherent).1 hb with ⟨g, hg, hsb⟩ | ⟨w, hw, hsb⟩
  · rw [Symbol.order_of_kind (by rw [hsa, hsb]), hn, Std.ReflOrd.compare_self] at hlt
    cases hlt
  · have hnone := coherent.tidy.apart _ _ hf
    rw [hn, hw] at hnone
    cases hnone
  · have hnone := coherent.tidy.apart _ _ hg
    rw [← hn, hv] at hnone
    cases hnone
  · rw [Symbol.order_of_kind (by rw [hsa, hsb]), hn, Std.ReflOrd.compare_self] at hlt
    cases hlt

/-- The functions of a name among the symbols: the visible one, if there is one. -/
theorem filter_symbols (coherent : Coherent compilation) (name : String) :
    (compilation.symbols.filter fun symbol => symbol.kind = .function ∧ symbol.name = name) =
      (compilation.program.scope.functions[name]?.map fun found =>
        (⟨.function, name, found.signature⟩ : Symbol)).toList := by
  refine Store.eq_of_same_members Symbol.order_asymm ((symbols_ordered coherent).filter _) ?_ ?_
  · cases compilation.program.scope.functions[name]? <;> simp
  · intro symbol
    simp only [List.mem_filter, mem_symbols coherent, decide_eq_true_eq, Option.mem_toList,
      Option.map_eq_some_iff]
    constructor
    · rintro ⟨⟨found, hf, hs⟩ | ⟨found, hf, hs⟩, hk, rfl⟩
      · exact ⟨found, hf, hs.symm⟩
      · rw [hs] at hk
        cases hk
    · rintro ⟨found, hf, rfl⟩
      exact ⟨.inl ⟨found, hf, rfl⟩, rfl, rfl⟩

theorem functionListing_eq {name : String} {symbol : FunctionSymbol} {function : Function}
    (hs : compilation.program.scope.functions[name]? = some symbol)
    (hf : compilation.functions[symbol.id]? = some function) :
    compilation.functionListing name = function.listing := by
  simp only [functionListing, hs, Option.bind_some, hf]

end Compilation

/-! ## Commands that list names -/

namespace Shell

open Terminal (Output)

variable {shell : Shell}

/-- The symbols need no sorting. -/
theorem sortedSymbols_eq (coherent : shell.session.compilation.Coherent) :
    shell.sortedSymbols = shell.session.compilation.symbols := by
  refine List.mergeSort_of_pairwise ((Compilation.symbols_ordered coherent).imp fun {a b} hlt => ?_)
  rw [hlt]
  rfl

/-- `:dump` of a visible function writes its body. -/
theorem dump_function (coherent : shell.session.compilation.Coherent) (files : FileSystem)
    {name : String} {symbol : FunctionSymbol} {function : Function}
    (hs : shell.session.compilation.program.scope.functions[name]? = some symbol)
    (hf : shell.session.compilation.functions[symbol.id]? = some function) :
    shell.dump files name = shell.answer files (Output.plain function.listing) := by
  rw [dump, sortedSymbols_eq coherent, Compilation.filter_symbols coherent, hs]
  exact congrArg (fun text => shell.answer files (Output.plain text))
    (Compilation.functionListing_eq hs hf)

/-- `:dump` of anything else says that there is no such function. -/
theorem dump_unknown (coherent : shell.session.compilation.Coherent) (files : FileSystem)
    {name : String} (hs : shell.session.compilation.program.scope.functions[name]? = none) :
    shell.dump files name =
      shell.complain files ("error: function '" ++ name ++ "' does not exist") := by
  rw [dump, sortedSymbols_eq coherent, Compilation.filter_symbols coherent, hs]
  rfl

end Shell

end ReplayShell
