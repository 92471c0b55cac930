import Mathlib.Data.List.TakeWhile
import ReplayShell.Shell.Command
import ReplayShell.Syntax.Token

/-!
# Texts cut at a line feed

Only white space goes on over a line feed. So the tokens of a text cut there are the first tokens of
the text, if one does not count the white space.

* `takeWhile_lineFeed`, `stringBody_lineFeed`: a run of characters ends at the line feed at the
  latest. `first_lineFeed`: so does every lexeme that begins with no white space.
* `scan_lineFeed`: what is seen and what is wrong before the line feed.
* `significantFrom_blank`, `faults_command`: a text of nothing but white space has no token to be
  seen, and a command is not faultless.
-/
namespace ReplayShell.Syntax

/-- The tokens that the grammar is about, of lexemes that start at a byte offset. -/
def significantFrom (position : Nat) (pieces : List Lexeme) : List Token :=
  (layOut position pieces).filter fun token => !token.kind.isTrivia

theorem takeWhile_lineFeed {p : Char → Bool} (hp : p '\n' = false) (line later : List Char) :
    (line ++ '\n' :: later).takeWhile p = line.takeWhile p := by
  induction line with
  | nil => rw [List.nil_append, List.takeWhile_cons, hp, List.takeWhile_nil]; rfl
  | cons c rest ih =>
    rw [List.cons_append, List.takeWhile_cons, List.takeWhile_cons, ih]

theorem stringBody_lineFeed (line later : List Char) :
    stringBody (line ++ '\n' :: later) = stringBody line := by
  fun_induction stringBody line with
  | case1 => rfl
  | case2 => rfl
  | case3 => rfl
  | case4 => rfl
  | case5 => rfl
  | case6 => rfl
  | case7 c rest hc body closed h ih =>
    rw [List.cons_append, List.cons_append, stringBody, ih, h]
    exact hc
  | case8 c rest hq hn hr hnil _ hcons body closed h ih =>
    have hbackslash : c ≠ '\\' := by
      intro hc
      cases rest with
      | nil => exact hnil hc rfl
      | cons d rest => exact hcons d rest hc rfl
    rw [List.cons_append, stringBody, ih, h]
    · exact hq
    · exact hn
    · exact hr
    · exact fun hc => absurd hc hbackslash
    · exact fun _ hc => absurd hc hbackslash
    · exact fun _ _ hc => absurd hc hbackslash

namespace Lexeme

theorem punctuation_lineFeed (c : Char) (line later : List Char) :
    punctuation c (line ++ '\n' :: later) = punctuation c line := by
  cases line with
  | cons d rest => rfl
  | nil =>
    unfold punctuation
    simp only [List.nil_append, List.head?_cons, List.head?_nil]
    split <;> simp_all

/-- A lexeme that is no white space ends at the line feed at the latest. -/
theorem first_lineFeed {c : Char} (hc : Text.isBlank c = false) (line later : List Char) :
    first c (line ++ '\n' :: later) = first c line := by
  have hhead : (line ++ '\n' :: later).head? = some '/' ↔ line.head? = some '/' := by
    cases line with
    | nil => simp
    | cons d rest => rfl
  unfold first
  rw [hc]
  simp only [Bool.false_eq_true, if_false, hhead, run, string, stringBody_lineFeed,
    punctuation_lineFeed]
  rw [takeWhile_lineFeed (by decide), takeWhile_lineFeed (by decide +kernel),
    takeWhile_lineFeed (by decide)]

/-- A lexeme of white space goes on as long as there is white space. -/
theorem first_blank {c : Char} (hc : Text.isBlank c = true) (rest : List Char) :
    first c rest = { kind := .whitespace, text := c :: rest.takeWhile Text.isBlank } := by
  rw [first, if_pos hc, run]

end Lexeme

theorem lexemes_cons (c : Char) (rest : List Char) :
    lexemes (c :: rest) =
      Lexeme.first c rest :: lexemes (rest.drop ((Lexeme.first c rest).text.length - 1)) := by
  rw [lexemes]

theorem lexemes_blank {c : Char} (hc : Text.isBlank c = true) (rest : List Char) :
    lexemes (c :: rest) =
      { kind := .whitespace, text := c :: rest.takeWhile Text.isBlank } ::
        lexemes (rest.dropWhile Text.isBlank) := by
  have hdrop : rest.drop (rest.takeWhile Text.isBlank).length = rest.dropWhile Text.isBlank :=
    calc rest.drop (rest.takeWhile Text.isBlank).length
        = (rest.takeWhile Text.isBlank ++ rest.dropWhile Text.isBlank).drop
            (rest.takeWhile Text.isBlank).length := by rw [List.takeWhile_append_dropWhile]
      _ = rest.dropWhile Text.isBlank := List.drop_left
  rw [lexemes_cons, Lexeme.first_blank hc, List.length_cons, Nat.add_sub_cancel, hdrop]

/-- The first lexeme is the same, unless there is nothing but white space before the line feed. -/
theorem first_lineFeed_or (c : Char) (line later : List Char) :
    Lexeme.first c (line ++ '\n' :: later) = Lexeme.first c line ∨
      Text.isBlank c = true ∧ line.dropWhile Text.isBlank = [] := by
  cases hc : Text.isBlank c with
  | false => exact .inl (Lexeme.first_lineFeed hc line later)
  | true =>
    by_cases hd : line.dropWhile Text.isBlank = []
    · exact .inr ⟨rfl, hd⟩
    · left
      have hlength : (line.takeWhile Text.isBlank).length ≠ line.length := by
        intro hl
        have hall := congrArg List.length
          (List.takeWhile_append_dropWhile (p := Text.isBlank) (l := line))
        rw [List.length_append] at hall
        exact hd (List.length_eq_zero_iff.1 (by omega))
      rw [Lexeme.first_blank hc, Lexeme.first_blank hc, List.takeWhile_append, if_neg hlength]

/-- The tokens to be seen of a text cut at a line feed, and its faults, are the first ones of the
text. -/
theorem scan_lineFeed (position : Nat) (line later : List Char) :
    ∃ tokens problems,
      significantFrom position (lexemes (line ++ '\n' :: later)) =
        significantFrom position (lexemes line) ++ tokens ∧
      faults position (lexemes (line ++ '\n' :: later)) =
        faults position (lexemes line) ++ problems := by
  fun_induction lexemes line generalizing position with
  | case1 => exact ⟨_, _, rfl, rfl⟩
  | case2 c rest lexeme ih =>
    rcases first_lineFeed_or c rest later with hfirst | ⟨hc, hd⟩
    · have hle : lexeme.text.length - 1 ≤ rest.length := by
        have hprefix := (Lexeme.first_text_isPrefix c rest).length_le
        rw [List.length_cons] at hprefix
        exact Nat.sub_le_of_le_add hprefix
      obtain ⟨tokens, problems, ht, hp⟩ := ih (position + Text.byteSize lexeme.text)
      have hlexeme : Lexeme.first c rest = lexeme := rfl
      rw [List.cons_append, lexemes_cons, hfirst, hlexeme, List.drop_append_of_le_length hle]
      refine ⟨tokens, problems, ?_, ?_⟩
      · simp only [significantFrom, layOut, List.filter_cons] at ht ⊢
        rw [ht]
        split <;> rfl
      · simp only [faults]
        rw [hp]
        cases lexeme.fault <;> rfl
    · have hlexeme : lexeme =
          { kind := .whitespace, text := c :: rest.takeWhile Text.isBlank } :=
        Lexeme.first_blank hc rest
      have hrest : lexemes (rest.drop (lexeme.text.length - 1)) = [] := by
        have hb := lexemes_blank hc rest
        rw [lexemes_cons, hd] at hb
        exact (List.cons.inj hb).2.trans (by rw [lexemes])
      rw [hrest, hlexeme]
      exact ⟨_, _, rfl, rfl⟩

/-! ## White space and commands -/

theorem significantFrom_blank {text : List Char} (h : Text.isBlankText text = true)
    (position : Nat) : significantFrom position (lexemes text) = [] := by
  cases text with
  | nil => rw [lexemes]; rfl
  | cons c rest =>
    rw [Text.isBlankText, List.all_cons, Bool.and_eq_true, List.all_eq_true] at h
    rw [lexemes_blank h.1, List.dropWhile_eq_nil_iff.2 h.2, lexemes]
    rfl

/-- A command line is not a faultless text. -/
theorem faults_command {text : List Char} (h : isCommand text = true) (position : Nat) :
    faults position (lexemes text) ≠ [] := by
  have colon : ∀ (rest : List Char) (position : Nat),
      faults position (lexemes (':' :: rest)) ≠ [] := by
    intro rest position
    have hbad : Lexeme.first ':' rest =
        { kind := .bad, text := [':'], fault := some (.badCharacter ':') } := by
      have hblank : Text.isBlank ':' = false := by decide
      have hletter : Text.isLetter ':' = false := by decide +kernel
      simp [Lexeme.first, hblank, hletter, Text.isDigit, Lexeme.punctuation]
    rw [lexemes_cons, hbad]
    exact List.cons_ne_nil _ _
  have hhead : (text.dropWhile Text.isBlank).head? = some ':' := of_decide_eq_true h
  obtain ⟨rest, hr⟩ := List.head?_eq_some_iff.1 hhead
  cases text with
  | nil => cases hr
  | cons c line =>
    cases hc : Text.isBlank c with
    | true =>
      rw [List.dropWhile_cons_of_pos hc] at hr
      rw [lexemes_blank hc, hr]
      exact colon rest _
    | false =>
      rw [List.dropWhile_cons_of_neg (by simp [hc])] at hr
      rw [hr]
      exact colon rest position

end ReplayShell.Syntax
