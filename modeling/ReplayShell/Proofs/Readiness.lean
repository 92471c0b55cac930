import ReplayShell.Proofs.LineCuts
import ReplayShell.Proofs.Prefixes
import ReplayShell.Shell.Readiness

/-!
# Readiness is exact

The last token tells a finished text from an unfinished one only if the text is right so far. For a
faultless text that is read line by line it does so exactly.

* `lastToken_of_parse`: the last token of a faultless text is not missing.
* `parse_or_missing`: a text cut at a line feed is faultless too, or its last token is missing.
* `isReady_iff`: a line of a faultless text is where one may stop just if the text so far is
  faultless.
-/
namespace ReplayShell

namespace Syntax

theorem parse_eq_nil_iff (text : String) :
    (parse text).2 = [] ↔ (tokenize text).diagnostics = [] ∧
      (parseMembers (tokenize text).endOfFile none
        { rest := (tokenize text).significant }).2.2.reported = [] := by
  rw [parse, List.append_eq_nil_iff, List.reverse_eq_nil_iff]

/-- The last token of a faultless text is not missing. -/
theorem lastToken_of_parse {text : String} (h : (parse text).2 = []) :
    ∀ token, (parse text).1.lastToken = some token → token.missing = false := by
  have honest : State.Honest { rest := (tokenize text).significant } :=
    ⟨fun token ht => present_of_mem_significant ht, fun _ _ hl => by cases hl⟩
  exact parseMembers_honest honest (fun _ hl => by cases hl) ((parse_eq_nil_iff text).1 h).2

/-- What is seen of a text before a line feed is the beginning of what is seen of the text; and its
faults are among those of the text. -/
theorem tokenize_lineFeed (line later : String) :
    ∃ tokens problems,
      (tokenize (line ++ "\n" ++ later)).significant = (tokenize line).significant ++ tokens ∧
      (tokenize (line ++ "\n" ++ later)).diagnostics =
        (tokenize line).diagnostics ++ problems := by
  have htext : (line ++ "\n" ++ later).toList = line.toList ++ '\n' :: later.toList := by simp
  obtain ⟨tokens, problems, ht, hp⟩ := scan_lineFeed 0 line.toList later.toList
  rw [← htext] at ht hp
  exact ⟨tokens, problems, ht, hp⟩

/-- The beginning of a faultless text up to a line feed is faultless too, or its last token is
missing. -/
theorem parse_or_missing {line later : String} (h : (parse (line ++ "\n" ++ later)).2 = []) :
    (parse line).2 = [] ∨
      ∃ token, (parse line).1.lastToken = some token ∧ token.missing = true := by
  obtain ⟨hfaults, hreported⟩ := (parse_eq_nil_iff _).1 h
  obtain ⟨tokens, problems, htokens, hproblems⟩ := tokenize_lineFeed line later
  rw [hfaults] at hproblems
  have hline : (tokenize line).diagnostics = [] := (List.append_eq_nil_iff.1 hproblems.symm).1
  by_cases hs : (tokenize line).significant = []
  · refine .inl ((parse_eq_nil_iff line).2 ⟨hline, ?_⟩)
    rw [parseMembers, dif_pos hs]
  · have going : Going tokens { rest := (tokenize (line ++ "\n" ++ later)).significant }
        { rest := (tokenize line).significant } := ⟨htokens, hs, rfl⟩
    exact (parseMembers_abreast none going hreported).imp_left
      fun hr => (parse_eq_nil_iff line).2 ⟨hline, hr⟩

/-- A text without a faulty token is no command. -/
theorem not_isCommand_of_diagnostics {text : String} (h : (tokenize text).diagnostics = []) :
    isCommand text.toList = false := by
  cases hc : isCommand text.toList with
  | false => rfl
  | true => exact absurd h (faults_command hc 0)

/-- White space is faultless unless it has a faulty token, which it has not. -/
theorem parse_blank {text : String} (hb : Text.isBlankText text.toList = true)
    (h : (tokenize text).diagnostics = []) : (parse text).2 = [] := by
  refine (parse_eq_nil_iff text).2 ⟨h, ?_⟩
  have hs : (tokenize text).significant = [] := significantFrom_blank hb 0
  rw [parseMembers, dif_pos hs]

end Syntax

open Syntax (parse tokenize)

/-- A faultless text is ready. -/
theorem isReady_of_parse {text : String} (h : (parse text).2 = []) :
    isReady text.toList = true := by
  unfold isReady
  by_cases hb : Text.isBlankText text.toList = true
  · rw [if_pos hb]
  by_cases hc : isCommand text.toList = true
  · rw [if_neg hb, if_pos hc]
  by_cases he : endsWithTwoEmptyLines text.toList = true
  · rw [if_neg hb, if_neg hc, if_pos he]
  rw [if_neg hb, if_neg hc, if_neg he, String.ofList_toList]
  cases hl : (parse text).1.lastToken with
  | none => rfl
  | some token => simp [Syntax.lastToken_of_parse h token hl]

theorem endsWithTwoEmptyLines_iff (text : List Char) :
    endsWithTwoEmptyLines text = true ↔
      ∃ front, (Text.splitLines text).map Text.dropReturn = front ++ [[], []] := by
  unfold endsWithTwoEmptyLines
  constructor
  · intro h
    split at h
    · rename_i front hr
      refine ⟨front.reverse, ?_⟩
      rw [← List.reverse_reverse ((Text.splitLines text).map Text.dropReturn), hr]
      simp
    · cases h
  · rintro ⟨front, hf⟩
    rw [hf, List.reverse_append]
    rfl

/-- Each of the last two lines has nothing, or nothing but the carriage return of its end. -/
theorem endsWithTwoEmptyLines_iff_lines (text : List Char) :
    endsWithTwoEmptyLines text = true ↔
      ∃ front first second, Text.splitLines text = front ++ [first, second] ∧
        (first = [] ∨ first = ['\r']) ∧ (second = [] ∨ second = ['\r']) := by
  simp only [endsWithTwoEmptyLines_iff, List.map_eq_append_iff, List.map_eq_cons_iff,
    List.map_eq_nil_iff, ← Text.dropReturn_eq_nil_iff]
  constructor
  · rintro ⟨-, front, -, htext, -, first, -, rfl, hfirst, second, -, rfl, hsecond, rfl⟩
    exact ⟨front, first, second, htext, hfirst, hsecond⟩
  · rintro ⟨front, first, second, htext, hfirst, hsecond⟩
    exact ⟨_, front, _, htext, rfl, first, _, rfl, hfirst, second, _, rfl, hsecond, rfl⟩

/-- **Readiness is exact.** Let a faultless text be read line by line. What has been read is ready
just if it is faultless, or its last two lines are empty. -/
theorem isReady_iff {whole part : String} (h : (parse whole).2 = [])
    (hpart : part = whole ∨ ∃ later, whole = part ++ "\n" ++ later) :
    isReady part.toList = true ↔ (parse part).2 = [] ∨
      ∃ front, (Text.splitLines part.toList).map Text.dropReturn = front ++ [[], []] := by
  rw [← endsWithTwoEmptyLines_iff]
  rcases hpart with rfl | ⟨later, rfl⟩
  · exact ⟨fun _ => .inl h, fun _ => isReady_of_parse h⟩
  obtain ⟨tokens, problems, -, hproblems⟩ := Syntax.tokenize_lineFeed part later
  rw [Syntax.tokenize_diagnostics_of_parse h] at hproblems
  have hfaults : (tokenize part).diagnostics = [] := (List.append_eq_nil_iff.1 hproblems.symm).1
  have hc : isCommand part.toList = false := Syntax.not_isCommand_of_diagnostics hfaults
  constructor
  · intro hready
    by_cases he : endsWithTwoEmptyLines part.toList = true
    · exact .inr he
    left
    by_cases hb : Text.isBlankText part.toList = true
    · exact Syntax.parse_blank hb hfaults
    rcases Syntax.parse_or_missing h with hparse | ⟨token, hl, hm⟩
    · exact hparse
    · simp [isReady, hb, hc, he, String.ofList_toList, hl, hm] at hready
  · rintro (hparse | he)
    · exact isReady_of_parse hparse
    · unfold isReady
      by_cases hb : Text.isBlankText part.toList = true
      · rw [if_pos hb]
      · rw [if_neg hb, hc, if_neg Bool.false_ne_true, if_pos he]

/-- Before the last line of a function the text is not ready. -/
theorem isReady_iff_openBlock :
    (parse "function f(a) \x7b\nreturn a\n\x7d").2 = [] ∧
      (isReady "function f(a) \x7b\nreturn a".toList = true ↔
        (parse "function f(a) \x7b\nreturn a").2 = [] ∨
          ∃ front, (Text.splitLines "function f(a) \x7b\nreturn a".toList).map Text.dropReturn =
            front ++ [[], []]) ∧
      isReady "function f(a) \x7b\nreturn a".toList = false := by
  have h : (parse "function f(a) \x7b\nreturn a\n\x7d").2 = [] :=
    List.isEmpty_iff.1 (by decide +kernel)
  exact ⟨h, isReady_iff h (.inr ⟨"\x7d", by decide +kernel⟩), by decide +kernel⟩

end ReplayShell
