import Mathlib.Data.List.TakeWhile
import ReplayShell.Proofs.Boundaries
import ReplayShell.Proofs.TokenSpans

/-!
# Tokens divide a text

Cutting a text into tokens loses nothing, and where a token ends does not depend on what comes after
the characters that it is made of.

* `Lexeme.first_alone`: a lexeme is the first one of its own text; `lexemes_alone`: and the only
  one.
* `Joined` says that tokens stand in a row, each where the one before it ends; `Token.CutFrom` that
  a token is the part of a text that its span says.
* `faults_eq`: the faults of a text are those of its tokens, each cut out on its own.
* `tokenize_partition` is the whole.
-/
namespace ReplayShell

/-- The span so many bytes further on. -/
def Span.moved (offset : Nat) (span : Span) : Span := ⟨offset + span.start, offset + span.stop⟩

/-- Whether the span starts inside of the other one. -/
def Span.startsIn (outer span : Span) : Bool :=
  outer.start ≤ span.start && span.start < outer.stop

/-- The diagnostic so many bytes further on. -/
def Diagnostic.moved (offset : Nat) (diagnostic : Diagnostic) : Diagnostic :=
  { diagnostic with span := diagnostic.span.moved offset }

namespace Syntax

/-! ## A lexeme on its own -/

/-- The rest of a string ends where it ended, with or without a closing quote. -/
theorem stringBody_alone (rest : List Char) : stringBody (stringBody rest).1 = stringBody rest := by
  fun_induction stringBody rest with
  | case1 => rfl
  | case2 => rfl
  | case3 => rfl
  | case4 => rfl
  | case5 => rfl
  | case6 => rfl
  | case7 c rest hc body closed h ih =>
    rw [h] at ih
    rw [stringBody, ih]
    exact hc
  | case8 c rest hq hn hr hnil _ hcons body closed h ih =>
    have hbackslash : c ≠ '\\' := by
      intro hc
      cases rest with
      | nil => exact hnil hc rfl
      | cons d rest => exact hcons d rest hc rfl
    rw [h] at ih
    rw [stringBody, ih]
    · exact hq
    · exact hn
    · exact hr
    · exact fun hc => absurd hc hbackslash
    · exact fun _ hc => absurd hc hbackslash
    · exact fun _ _ hc => absurd hc hbackslash

namespace Lexeme

open Text (isBlank isDigit isLetter)

theorem run_alone (c : Char) (rest : List Char) (p : Char → Bool) :
    run c (run c rest p).tail p = run c rest p := by
  rw [run, run, List.tail_cons, List.takeWhile_idem]

theorem punctuation_cases (c : Char) (rest : List Char) :
    (punctuation c rest).text = [c] ∧ punctuation c [] = punctuation c rest ∨
      ∃ d, rest.head? = some d ∧ d ≠ '/' ∧ (punctuation c rest).text = [c, d] := by
  unfold punctuation
  split
  case h_1 h | h_2 h | h_3 h | h_4 h | h_5 h | h_6 h => exact .inr ⟨_, h, by decide, rfl⟩
  case h_21 => exact .inl ⟨rfl, by split <;> simp_all⟩
  all_goals exact .inl ⟨rfl, rfl⟩

/-- Punctuation is the first of its own text, where no comment starts. -/
theorem punctuation_alone (c : Char) (rest : List Char) :
    punctuation c (punctuation c rest).text.tail = punctuation c rest ∧
      (punctuation c rest).text.tail.head? ≠ some '/' := by
  rcases punctuation_cases c rest with ⟨ht, hp⟩ | ⟨d, hd, hne, ht⟩
  · rw [ht]
    exact ⟨hp, by simp⟩
  · rw [ht]
    refine ⟨?_, by simpa using hne⟩
    unfold punctuation
    rw [hd]
    rfl

/-- A lexeme is the first of its own text. -/
theorem first_alone (c : Char) (rest : List Char) :
    first c (first c rest).text.tail = first c rest := by
  by_cases hblank : isBlank c = true
  · simp only [first, if_pos hblank, run_alone]
  by_cases hdigit : isDigit c = true
  · simp only [first, if_neg hblank, if_pos hdigit, number, run_alone]
  by_cases hletter : (isLetter c || c == '_') = true
  · simp only [first, if_neg hblank, if_neg hdigit, if_pos hletter, word, run_alone]
  by_cases hquote : c = '"'
  · simp only [first, if_neg hblank, if_neg hdigit, if_neg hletter, if_pos hquote, string,
      List.tail_cons, stringBody_alone]
  by_cases hcomment : c = '/' ∧ rest.head? = some '/'
  · have hstart : c = '/' ∧ (run c rest (· != '\n')).tail.head? = some '/' := by
      obtain ⟨more, rfl⟩ := List.head?_eq_some_iff.1 hcomment.2
      exact ⟨hcomment.1, by simp [run]⟩
    simp only [first, if_neg hblank, if_neg hdigit, if_neg hletter, if_neg hquote,
      if_pos hcomment, if_pos hstart, run_alone]
  · obtain ⟨hp, hstart⟩ := punctuation_alone c rest
    have hstart : ¬(c = '/' ∧ (punctuation c rest).text.tail.head? = some '/') :=
      fun h => hstart h.2
    simp only [first, if_neg hblank, if_neg hdigit, if_neg hletter, if_neg hquote,
      if_neg hcomment, if_neg hstart, hp]

theorem head_text (c : Char) (rest : List Char) :
    (first c rest).text = c :: (first c rest).text.tail := by
  obtain ⟨tail, h⟩ := first_text_isPrefix c rest
  have hne := first_text_ne_nil c rest
  cases ht : (first c rest).text with
  | nil => exact absurd ht hne
  | cons d ds =>
    rw [ht] at h
    rw [(List.cons.inj h).1]
    rfl

end Lexeme

theorem lexemes_first (c : Char) (rest : List Char) :
    lexemes (Lexeme.first c rest).text = [Lexeme.first c rest] := by
  rw [Lexeme.head_text, lexemes, Lexeme.first_alone]
  rw [show (Lexeme.first c rest).text.tail.drop ((Lexeme.first c rest).text.length - 1) = [] from
    List.drop_eq_nil_of_le (by simp), lexemes]

/-- A lexeme of a text is what its own text is cut into. -/
theorem lexemes_alone (text : List Char) :
    ∀ lexeme ∈ lexemes text, lexemes lexeme.text = [lexeme] := by
  fun_induction lexemes text with
  | case1 => exact fun _ h => absurd h List.not_mem_nil
  | case2 c rest lexeme ih =>
    intro other h
    rcases List.mem_cons.1 h with rfl | h
    · exact lexemes_first c rest
    · exact ih other h

/-! ## Tokens in a row -/

/-- The tokens stand in a row between the offsets, each where the one before it ends. -/
def Joined : Nat → List Token → Nat → Prop
  | start, [], stop => start = stop
  | start, token :: rest, stop => token.span.start = start ∧ Joined token.span.stop rest stop

/-- The token is the part of the text that its span says, and no empty one. -/
structure Token.CutFrom (token : Token) (text : List Char) : Prop where
  nonempty : token.span.start < token.span.stop
  starts : Text.IsBoundary text token.span.start
  stops : Text.IsBoundary text token.span.stop
  slice : Text.slice? text token.span.start token.span.stop = some token.text.toList
  kind : token.kind ≠ .endOfFile
  present : token.missing = false

theorem joined_layOut (pieces : List Lexeme) (start stop : Nat) (last : Token)
    (hlast : last.span = ⟨start + Text.byteSize (pieces.map Lexeme.text).flatten, stop⟩) :
    Joined start (layOut start pieces ++ [last]) stop := by
  induction pieces generalizing start with
  | nil => exact ⟨by simp [hlast, Text.byteSize], by simp [Joined, hlast]⟩
  | cons lexeme rest ih =>
    refine ⟨rfl, ih _ ?_⟩
    rw [hlast, List.map_cons, List.flatten_cons, Text.byteSize_append, ← Nat.add_assoc]

/-- A word is a name, or it is reserved. -/
theorem Lexeme.word_kind_ne {kind : Kind} (hi : kind ≠ .identifier) (hk : kind.isKeyword = false)
    (letters : List Char) : (word letters).kind ≠ kind := by
  intro hw
  change (Kind.keyword? (String.ofList letters)).getD .identifier = kind at hw
  cases hkey : Kind.keyword? (String.ofList letters) with
  | none =>
    rw [hkey] at hw
    exact hi hw.symm
  | some other =>
    rw [hkey, Option.getD_some] at hw
    have hkeyword := Kind.isKeyword_of_keyword? hkey
    rw [hw, hk] at hkeyword
    cases hkeyword

theorem Lexeme.first_kind_ne (c : Char) (rest : List Char) : (first c rest).kind ≠ .endOfFile := by
  have hword := word_kind_ne (show Kind.endOfFile ≠ .identifier by decide) rfl
  have hpunctuation : (punctuation c rest).kind ≠ .endOfFile := by
    unfold punctuation
    split <;> exact Kind.noConfusion
  unfold first
  split
  · exact Kind.noConfusion
  split
  · exact Kind.noConfusion
  split
  · exact hword _
  split
  · exact Kind.noConfusion
  split
  · exact Kind.noConfusion
  · exact hpunctuation

theorem kind_ne_of_mem_lexemes (text : List Char) :
    ∀ lexeme ∈ lexemes text, lexeme.kind ≠ .endOfFile := by
  fun_induction lexemes text with
  | case1 => exact fun _ h => absurd h List.not_mem_nil
  | case2 c rest lexeme ih => exact List.forall_mem_cons.2 ⟨Lexeme.first_kind_ne c rest, ih⟩

theorem cutFrom_layOut {text : List Char} (front : List Char) {pieces : List Lexeme}
    (h : ∀ lexeme ∈ pieces, lexeme.text ≠ [] ∧ lexeme.kind ≠ .endOfFile)
    (ht : text = front ++ (pieces.map Lexeme.text).flatten) :
    ∀ token ∈ layOut (Text.byteSize front) pieces, token.CutFrom text := by
  induction pieces generalizing front with
  | nil => exact fun _ h => absurd h List.not_mem_nil
  | cons lexeme rest ih =>
    obtain ⟨⟨hne, hk⟩, hrest⟩ := List.forall_mem_cons.1 h
    rw [List.map_cons, List.flatten_cons] at ht
    intro token hm
    rcases List.mem_cons.1 hm with rfl | hm
    · have hpos := byteSize_pos hne
      have hslice := Text.slice?_append front lexeme.text (rest.map Lexeme.text).flatten
      rw [← ht] at hslice
      exact {
        nonempty := Nat.lt_add_of_pos_right hpos
        starts := ⟨front, _, ht, rfl⟩
        stops := ⟨front ++ lexeme.text, _, by rw [ht, List.append_assoc],
          Text.byteSize_append _ _⟩
        slice := by rw [hslice, String.toList_ofList]
        kind := hk
        present := rfl }
    · rw [← Text.byteSize_append] at hm
      exact ih _ hrest (by rw [ht, List.append_assoc]) token hm

theorem cutFrom_of_mem_tokens {text : String} {token : Token}
    (h : token ∈ (tokenize text).tokens) : token.CutFrom text.toList :=
  cutFrom_layOut [] (fun lexeme hl => ⟨text_ne_nil_of_mem_lexemes text.toList lexeme hl,
    kind_ne_of_mem_lexemes text.toList lexeme hl⟩) (flatten_lexemes text.toList).symm token h

/-! ## Faults -/

/-- The diagnostics of a text that has just the one lexeme. -/
theorem faults_single (lexeme : Lexeme) (position : Nat) :
    faults position [lexeme] = (faults 0 [lexeme]).map (·.moved position) := by
  simp only [faults]
  cases lexeme.fault with
  | none => rfl
  | some problem =>
    simp only [List.map_singleton, Diagnostic.moved, Lexeme.faultSpan, Span.moved]
    split <;> simp

theorem faults_cons (lexeme : Lexeme) (rest : List Lexeme) (position : Nat) :
    faults position (lexeme :: rest) = faults position [lexeme] ++
      faults (position + Text.byteSize lexeme.text) rest := by
  simp only [faults]
  cases lexeme.fault <;> rfl

theorem tokenize_of_alone {lexeme : Lexeme} (h : lexemes lexeme.text = [lexeme]) :
    tokenize (String.ofList lexeme.text) =
      { tokens := layOut 0 [lexeme]
        endOfFile := { kind := .endOfFile, text := "", span := Span.at (Text.byteSize lexeme.text) }
        diagnostics := faults 0 [lexeme] } := by
  rw [tokenize, String.toList_ofList, h]

/-- The faults of lexemes are those of each on its own, at its place. -/
theorem faults_eq {pieces : List Lexeme} (h : ∀ lexeme ∈ pieces, lexemes lexeme.text = [lexeme])
    (position : Nat) :
    faults position pieces = (layOut position pieces).flatMap fun token =>
      (tokenize token.text).diagnostics.map (·.moved token.span.start) := by
  induction pieces generalizing position with
  | nil => rfl
  | cons lexeme rest ih =>
    obtain ⟨halone, hrest⟩ := List.forall_mem_cons.1 h
    rw [faults_cons, ih hrest, layOut, List.flatMap_cons, tokenize_of_alone halone, faults_single]

/-- A fault is reported inside of its lexeme. -/
theorem inside_of_mem_faults {lexeme : Lexeme} (hne : lexeme.text ≠ []) (position : Nat) :
    ∀ diagnostic ∈ faults position [lexeme],
      diagnostic.span.Inside position (position + Text.byteSize lexeme.text) := by
  have hpos := byteSize_pos hne
  simp only [faults]
  cases lexeme.fault with
  | none => exact fun _ h => absurd h List.not_mem_nil
  | some problem =>
    refine List.forall_mem_singleton.2 ?_
    dsimp only [Lexeme.faultSpan]
    split
    · exact ⟨Nat.le_refl _, Nat.lt_succ_self _, Nat.add_le_add_left hpos position⟩
    · exact ⟨Nat.le_refl _, Nat.lt_add_of_pos_right hpos, Nat.le_refl _⟩

theorem Laid.start_le {start stop : Nat} {ts : List Token} (h : Laid start ts stop) :
    ∀ token ∈ ts, start ≤ token.span.start := by
  induction h with
  | nil => exact fun _ h => absurd h List.not_mem_nil
  | cons hs hne _ ih =>
    refine List.forall_mem_cons.2 ⟨hs, fun token hm => ?_⟩
    have := ih token hm
    omega

/-- If all that is reported about a token lies inside of it, then what lies inside of it is all that
is reported about it. -/
theorem Laid.filter_startsIn {start stop : Nat} {ts : List Token} (h : Laid start ts stop)
    {own : Token → List Diagnostic}
    (hown : ∀ token ∈ ts, ∀ diagnostic ∈ own token,
      diagnostic.span.Inside token.span.start token.span.stop) :
    ∀ token ∈ ts, (ts.flatMap own).filter (token.span.startsIn ·.span) = own token := by
  induction h with
  | nil => exact fun _ h => absurd h List.not_mem_nil
  | @cons start stop first rest hs hne hr ih =>
    obtain ⟨hfirst, hrest⟩ := List.forall_mem_cons.1 hown
    refine List.forall_mem_cons.2 ⟨?_, fun token hm => ?_⟩
    · have none_later : (rest.flatMap own).filter (first.span.startsIn ·.span) = [] := by
        refine List.filter_eq_nil_iff.2 fun diagnostic hd => ?_
        obtain ⟨token, hm, hd⟩ := List.mem_flatMap.1 hd
        have hlater := hr.start_le token hm
        have hstart := (hrest token hm diagnostic hd).start
        simp only [Span.startsIn, Bool.and_eq_true, decide_eq_true_eq]
        omega
      have all_own : (own first).filter (first.span.startsIn ·.span) = own first := by
        refine List.filter_eq_self.2 fun diagnostic hd => ?_
        obtain ⟨hstart, hlt, hstop⟩ := hfirst diagnostic hd
        simp only [Span.startsIn, Bool.and_eq_true, decide_eq_true_eq]
        omega
      rw [List.flatMap_cons, List.filter_append, all_own, none_later, List.append_nil]
    · have none_before : (own first).filter (token.span.startsIn ·.span) = [] := by
        refine List.filter_eq_nil_iff.2 fun diagnostic hd => ?_
        have hlater := hr.start_le token hm
        obtain ⟨hstart, hlt, hstop⟩ := hfirst diagnostic hd
        simp only [Span.startsIn, Bool.and_eq_true, decide_eq_true_eq]
        omega
      rw [List.flatMap_cons, List.filter_append, none_before, List.nil_append, ih hrest token hm]

/-! ## The whole -/

/-- The tokens of lexemes carry their texts. -/
theorem join_layOut (pieces : List Lexeme) (position : Nat) :
    ((layOut position pieces).map fun token => token.text.toList).flatten =
      (pieces.map Lexeme.text).flatten := by
  induction pieces generalizing position with
  | nil => rfl
  | cons lexeme rest ih =>
    rw [layOut, List.map_cons, List.flatten_cons, ih, String.toList_ofList, List.map_cons,
      List.flatten_cons]

/-- Every token is a lexeme, laid out somewhere. -/
theorem exists_of_mem_layOut {pieces : List Lexeme} {position : Nat} {token : Token}
    (h : token ∈ layOut position pieces) :
    ∃ lexeme ∈ pieces, ∃ start, layOut start [lexeme] = [token] := by
  induction pieces generalizing position with
  | nil => exact absurd h List.not_mem_nil
  | cons lexeme rest ih =>
    rcases List.mem_cons.1 h with rfl | h
    · exact ⟨lexeme, List.mem_cons_self, position, rfl⟩
    · obtain ⟨other, hm, ho⟩ := ih h
      exact ⟨other, List.mem_cons_of_mem _ hm, ho⟩

/-- A token of a text is what its own text is cut into. -/
theorem tokenize_alone {text : String} {token : Token} (h : token ∈ (tokenize text).tokens) :
    (tokenize token.text).tokens =
      [{ token with span := ⟨0, Text.byteSize token.text.toList⟩ }] := by
  obtain ⟨lexeme, hm, start, ht⟩ := exists_of_mem_layOut h
  obtain rfl := List.singleton_inj.1 ht
  rw [tokenize_of_alone (lexemes_alone text.toList lexeme hm)]
  simp [layOut]

/-- What is reported about it then lies inside of it, at its place in the text. -/
theorem inside_of_mem_alone {text : String} {token : Token} (h : token ∈ (tokenize text).tokens) :
    ∀ diagnostic ∈ (tokenize token.text).diagnostics.map (·.moved token.span.start),
      diagnostic.span.Inside token.span.start token.span.stop := by
  obtain ⟨lexeme, hm, start, ht⟩ := exists_of_mem_layOut h
  obtain rfl := List.singleton_inj.1 ht
  rw [tokenize_of_alone (lexemes_alone text.toList lexeme hm), ← faults_single]
  exact inside_of_mem_faults (text_ne_nil_of_mem_lexemes text.toList lexeme hm) start

/-- **Tokens divide a text.** The tokens of a text, the end-of-file token included, stand in a row
from its beginning to its end, and their texts put together are the text. Each of them, but for the
last, is a part of the text between two boundaries, and no empty one. On its own it is cut into
itself, and what is reported then is what was reported inside of it; all that is reported about a
text is reported so. -/
theorem tokenize_partition (text : String) :
    Joined 0 (tokenize text).all (Text.byteSize text.toList) ∧
      (tokenize text).endOfFile =
        { kind := .endOfFile, text := "", span := Span.at (Text.byteSize text.toList) } ∧
      ((tokenize text).all.map fun token => token.text.toList).flatten = text.toList ∧
      (∀ token ∈ (tokenize text).tokens, token.CutFrom text.toList ∧
        (tokenize token.text).all =
          [{ token with span := ⟨0, Text.byteSize token.text.toList⟩ },
            { kind := .endOfFile, text := "", span := Span.at (Text.byteSize token.text.toList) }] ∧
        (tokenize token.text).diagnostics.map (·.moved token.span.start) =
          (tokenize text).diagnostics.filter (token.span.startsIn ·.span)) ∧
      (tokenize text).diagnostics = (tokenize text).tokens.flatMap fun token =>
        (tokenize token.text).diagnostics.map (·.moved token.span.start) := by
  have hflat := flatten_lexemes text.toList
  have hne := text_ne_nil_of_mem_lexemes text.toList
  have hfaults : (tokenize text).diagnostics = (tokenize text).tokens.flatMap fun token =>
      (tokenize token.text).diagnostics.map (·.moved token.span.start) :=
    faults_eq (lexemes_alone text.toList) 0
  refine ⟨?_, rfl, ?_, fun token hm => ⟨?_, ?_, ?_⟩, hfaults⟩
  · exact joined_layOut _ 0 _ _ (by rw [hflat, Nat.zero_add]; rfl)
  · rw [Tokens.all, List.map_append, List.flatten_append, tokenize, join_layOut, hflat]
    exact List.append_nil _
  · exact cutFrom_layOut [] (fun lexeme hl => ⟨hne lexeme hl,
      kind_ne_of_mem_lexemes text.toList lexeme hl⟩) hflat.symm token hm
  · rw [Tokens.all, tokenize_alone hm]
    rfl
  · rw [hfaults]
    exact ((laid_layOut hne 0).filter_startsIn (fun _ => inside_of_mem_alone) token hm).symm

/-- A backslash takes the next character with it, but for a line feed. -/
example : (tokenize "\"\\\r\\\n").tokens.map (fun token => (token.kind, token.span)) =
    [(.string, ⟨0, 4⟩), (.whitespace, ⟨4, 5⟩)] := by decide +kernel

end Syntax
end ReplayShell
