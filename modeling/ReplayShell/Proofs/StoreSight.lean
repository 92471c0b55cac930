import ReplayShell.Proofs.StoreRecords

/-!
# What a store lists and what lies in it

A path can name a directory that is full of records and still not be followed: a directory on its
way may be missing, or the path may be empty. Its records are then out of sight until `append` makes
the directories on the way, which it does for every path but the empty one.

* `InSight`: the path is not empty, and the texts that the store lists are those that lie where it
  leads.
* `texts_append_lying`: after `append` the store lists what lay there before and the new text, so it
  has gained exactly the new text if and only if it was in sight (`texts_append_iff`). Under the
  empty path it lists nothing ever (`texts_emptyPath`).
* `texts_of_clear`: after `clear` the store lists nothing, whatever it was before.

None of this asks that the numbers of the records differ.
-/
namespace ReplayShell.Store

/-! ## Sorting by number -/

/-- A record is sorted in between those of smaller numbers and all others. -/
theorem bySequence_cons (record : String × Filed) (records : List (String × Filed)) :
    ∃ smaller others, bySequence (record :: records) = smaller ++ record :: others ∧
      bySequence records = smaller ++ others ∧
      (∀ other ∈ smaller, other.2.sequence < record.2.sequence) ∧
      ∀ other ∈ others, record.2.sequence ≤ other.2.sequence := by
  obtain ⟨smaller, others, hs, ho, hlt⟩ :=
    @List.mergeSort_cons (String × Filed) (fun a b => a.2.sequence ≤ b.2.sequence)
      (fun a b c => by simp only [decide_eq_true_eq]; omega)
      (fun a b => by simp only [Bool.or_eq_true, decide_eq_true_eq]; omega) record records
  refine ⟨smaller, others, hs, ho, fun other hm => ?_, fun other hm => ?_⟩
  · have h := hlt other hm
    simpa using h
  · have sorted := pairwise_bySequence (record :: records)
    rw [bySequence, hs] at sorted
    exact (List.pairwise_cons.1 (List.pairwise_append.1 sorted).2.1).1 other hm

/-- A record with the greatest number comes last, wherever it was put in. -/
theorem bySequence_of_last {last : String × Filed} (before after : List (String × Filed))
    (h : ∀ record ∈ before ++ after, record.2.sequence < last.2.sequence) :
    bySequence (before ++ last :: after) = bySequence (before ++ after) ++ [last] := by
  induction before with
  | nil =>
    obtain ⟨smaller, others, hs, ho, -, hle⟩ := bySequence_cons last after
    have none : others = [] := by
      refine List.eq_nil_iff_forall_not_mem.2 fun other hm => ?_
      have hother : other ∈ after := List.mem_mergeSort.1 (ho ▸ List.mem_append_right _ hm)
      exact Nat.not_lt.2 (hle other hm) (h other hother)
    subst none
    rw [List.append_nil] at ho
    rw [List.nil_append, List.nil_append, hs, ho]
  | cons record before ih =>
    have ih := ih fun other hm => h other (List.mem_cons_of_mem _ hm)
    obtain ⟨smaller, others, hs, ho, hlt, hle⟩ := bySequence_cons record (before ++ last :: after)
    obtain ⟨smaller', others', hs', ho', hlt', hle'⟩ := bySequence_cons record (before ++ after)
    -- Both lists are cut where the numbers reach that of the record, and the last is beyond.
    have hcut : smaller ++ others = smaller' ++ (others' ++ [last]) := by
      rw [← ho, ih, ho', List.append_assoc]
    have keep : ∀ {l : List (String × Filed)},
        (∀ other ∈ l, other.2.sequence < record.2.sequence) →
        l.filter (fun other => other.2.sequence < record.2.sequence) = l := fun hl =>
      List.filter_eq_self.2 fun other hm => decide_eq_true (hl other hm)
    have drop : ∀ {l : List (String × Filed)},
        (∀ other ∈ l, record.2.sequence ≤ other.2.sequence) →
        l.filter (fun other => other.2.sequence < record.2.sequence) = [] := fun hl =>
      List.filter_eq_nil_iff.2 fun other hm => by
        rw [decide_eq_true_eq]
        exact Nat.not_lt.2 (hl other hm)
    have hlast : ∀ other ∈ others' ++ [last], record.2.sequence ≤ other.2.sequence := by
      intro other hm
      rcases List.mem_append.1 hm with hm | hm
      · exact hle' other hm
      · rw [List.mem_singleton.1 hm]
        exact Nat.le_of_lt (h record List.mem_cons_self)
    have hsmaller : smaller = smaller' := by
      have hf := congrArg (List.filter fun other => other.2.sequence < record.2.sequence) hcut
      rwa [List.filter_append, List.filter_append, keep hlt, keep hlt', drop hle, drop hlast,
        List.append_nil, List.append_nil] at hf
    subst hsmaller
    have hothers := List.append_cancel_left hcut
    rw [List.cons_append, List.cons_append, hs, hs', hothers, List.append_assoc, List.cons_append]

/-- A list in a strict order that has one member more is the other list with the member put in. -/
theorem exists_of_one_more {α : Type} {before : α → α → Prop}
    (asymm : ∀ {x y}, before x y → ¬before y x) {a b : List α} (ha : a.Pairwise before)
    (hb : b.Pairwise before) (new : α) (hnew : new ∉ a) (h : ∀ x, x ∈ b ↔ x ∈ a ∨ x = new) :
    ∃ front back, b = front ++ new :: back ∧ a = front ++ back := by
  obtain ⟨front, back, rfl⟩ := List.append_of_mem ((h new).2 (.inr rfl))
  have hrest := hb.sublist ((List.sublist_cons_self new back).append_left front)
  refine ⟨front, back, rfl, eq_of_same_members asymm ha hrest fun x => ?_⟩
  obtain ⟨-, hback, hfront⟩ := List.pairwise_append.1 hb
  have hx := h x
  simp only [List.mem_append, List.mem_cons] at hx ⊢
  constructor
  · intro hm
    have hne : x ≠ new := fun heq => hnew (heq ▸ hm)
    exact (hx.2 (.inl hm)).imp_right fun hor => hor.resolve_left hne
  · intro hm
    refine (hx.1 (hm.imp_right .inr)).resolve_right ?_
    rintro rfl
    rcases hm with hm | hm
    · exact asymm (hfront x hm x List.mem_cons_self) (hfront x hm x List.mem_cons_self)
    · exact asymm ((List.pairwise_cons.1 hback).1 x hm) ((List.pairwise_cons.1 hback).1 x hm)

variable {files files' made : FileSystem} {directory text : String} {sequence : Nat}

/-- A record with a number after all others comes last. -/
theorem lyingRecords_appended (hs : sequence ≤ maxSequence)
    (hnew : ∀ name record, RecordAt made directory name record → record.sequence < sequence) :
    lyingRecords (appended made directory text sequence) directory =
      lyingRecords made directory ++ [(recordName sequence, ⟨sequence, text.toUTF8⟩)] := by
  have hplace : (appended made directory text sequence).placeOf directory =
      made.placeOf directory := rfl
  obtain ⟨front, back, hafter, hbefore⟩ := exists_of_one_more NameBefore.asymm
    (pairwise_filed made (made.placeOf directory))
    (pairwise_filed (appended made directory text sequence) (made.placeOf directory))
    (recordName sequence, ⟨sequence, text.toUTF8⟩)
    (fun hm => Nat.lt_irrefl _ (hnew _ _ (mem_filed.1 hm)))
    (fun (name, record) => by
      rw [← hplace, mem_filed, hplace, mem_filed, recordAt_appended hs hnew, Prod.mk.injEq])
  have hmem : ∀ record ∈ front ++ back, record.2.sequence < sequence := by
    rintro ⟨name, record⟩ hm
    rw [← hbefore] at hm
    exact hnew name record (mem_filed.1 hm)
  rw [lyingRecords, lyingRecords, hplace, hafter, hbefore, bySequence_of_last _ _ hmem]

/-- The record of a text that has been added can be read. -/
theorem Slot.legible (slot : Slot made directory sequence) (text : String) :
    Store.legible directory (recordName sequence, ⟨sequence, text.toUTF8⟩) = some text := by
  rw [Store.legible, if_pos ⟨slot.record.path, slot.record.short⟩, fromUTF8?_toUTF8]

theorem Slot.lying (slot : Slot made directory sequence) (text : String) :
    Store.lying (appended made directory text sequence) directory =
      Store.lying made directory ++ [text] := by
  rw [Store.lying, lyingRecords_appended slot.bound slot.next.after, List.filterMap_append,
    List.filterMap_cons, slot.legible text]
  rfl

/-! ## Stores in sight -/

/-- The store lists what lies where its path leads, and it can be added to. -/
structure InSight (files : FileSystem) (directory : String) : Prop where
  named : directory ≠ ""
  listed : texts files directory = .ok (lying files directory)

theorem inSight_of_directory {place : Place}
    (h : files.locate directory = .ok (place, .directory)) : InSight files directory :=
  ⟨named_of_locate h, texts_of_directory h⟩

/-- Where there is nothing, nothing is out of sight. -/
theorem inSight_of_no_record (hd : directory ≠ "")
    (h : ∀ name record, ¬RecordAt files directory name record)
    (hs : (texts files directory).isOk = true) : InSight files directory := by
  refine ⟨hd, ?_⟩
  cases hstored : texts files directory with
  | error failure => simp [hstored, Except.isOk, Except.toBool] at hs
  | ok stored =>
    rcases texts_ok hstored with ⟨-, rfl⟩ | ⟨-, rfl⟩
    · rfl
    · rw [lying_of_no_record h]

/-- Adding a text brings all that lies there into sight. -/
theorem texts_append_lying (hd : directory ≠ "")
    (h : append files directory text = (.ok (), files')) :
    InSight files' directory ∧ lying files' directory = lying files directory ++ [text] := by
  obtain ⟨made, sequence, adds, slot, rfl⟩ := append_ok hd h
  exact ⟨inSight_of_directory (slot.located text), by rw [slot.lying text, lying_of_adds adds]⟩

/-- A store gains the text that is added, and nothing else, if and only if it was in sight. -/
theorem texts_append_iff {stored : List String} (hs : texts files directory = .ok stored)
    (h : append files directory text = (.ok (), files')) :
    texts files' directory = .ok (stored ++ [text]) ↔ InSight files directory := by
  by_cases hd : directory = ""
  · subst hd
    rw [texts_emptyPath]
    exact ⟨fun heq => by simp at heq, fun sight => absurd rfl sight.named⟩
  · obtain ⟨sight', hlying⟩ := texts_append_lying hd h
    rw [sight'.listed, hlying, Except.ok.injEq, List.append_cancel_right_eq]
    constructor
    · intro heq
      exact ⟨hd, by rw [hs, heq]⟩
    · intro sight
      exact Except.ok.inj (sight.listed.symm.trans hs)

/-- After the records have been removed the store lists nothing. -/
theorem records_of_clear (h : clear files directory = (.ok (), files')) :
    records files' directory = .ok [] := by
  have missing : files'.locate directory = .error .notFound →
      records files' directory = .ok [] := by
    intro hl
    simp only [records, FileSystem.entries, hl]
  rcases clear_ok h with ⟨-, hnone, ⟨place, hl⟩ | hl⟩ | ⟨hl, rfl⟩
  · rw [records_of_directory hl, lyingRecords_of_no_record hnone, List.map_nil]
  · exact missing hl
  · exact missing hl

theorem texts_of_clear (h : clear files directory = (.ok (), files')) :
    texts files' directory = .ok [] ∧ (InSight files directory → InSight files' directory) := by
  have hs : texts files' directory = .ok [] := by
    rw [texts, records_of_clear h]
    rfl
  refine ⟨hs, fun sight => ?_⟩
  rcases clear_ok h with ⟨-, hnone, -⟩ | ⟨-, rfl⟩
  · exact inSight_of_no_record sight.named hnone (by rw [hs]; rfl)
  · exact sight

end ReplayShell.Store
