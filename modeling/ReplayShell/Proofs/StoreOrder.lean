import ReplayShell.Proofs.StoreSight

/-!
# Stores in order

`Orderly`: every record in the directory can be read, and no two have the same number. What else the
directory holds does not matter.

* `Orderly.inSight`: the records of an orderly store that can be listed are in sight.
* `texts_append`: after `append` the new text comes last; `texts_clear`: after `clear` there is
  none. Both leave the store orderly.
-/
namespace ReplayShell.Store

open FileSystem (AddsDirectories)

/-- A store whose records can be read and have numbers of their own. A path that cannot be followed
is in order only if no record lies at its end, out of sight. -/
structure Orderly (files : FileSystem) (directory : String) : Prop where
  readable : ∀ name record, RecordAt files directory name record →
    files.read (Path.join directory name) = .ok record.content
  distinct : ∀ name name' record record', RecordAt files directory name record →
    RecordAt files directory name' record' → record.sequence = record'.sequence → name = name'

variable {files files' made : FileSystem} {directory text : String} {sequence : Nat}

/-- If there is a record to be seen, the path of its directory can be followed. -/
theorem Orderly.locate (hd : directory ≠ "") (ordered : Orderly files directory) {name : String}
    {record : Filed} (h : RecordAt files directory name record) :
    files.locate directory = .ok (files.placeOf directory, .directory) := by
  have hn := isName_of_sequenceOf? h.number
  obtain ⟨hc, hf, hdir, -⟩ :=
    (FileSystem.read_join_iff hd hn _).1 (ordered.readable name record h)
  exact FileSystem.locate_directory (FileSystem.checkPath_of_join hd hn hc) hf hdir

theorem Orderly.of_no_record (hnone : ∀ name record, ¬RecordAt files directory name record) :
    Orderly files directory :=
  ⟨fun name record hr => (hnone name record hr).elim,
    fun name _ record _ hr => (hnone name record hr).elim⟩

/-- An orderly store that can be listed is in sight. -/
theorem Orderly.inSight {stored : List String} (hd : directory ≠ "")
    (ordered : Orderly files directory) (hs : texts files directory = .ok stored) :
    InSight files directory := by
  by_cases hl : files.locate directory = .error .notFound
  · refine inSight_of_no_record hd (fun name record hr => ?_) (by rw [hs]; rfl)
    rw [ordered.locate hd hr] at hl
    cases hl
  · rcases texts_ok hs with ⟨-, rfl⟩ | ⟨hmissing, -⟩
    · exact ⟨hd, hs⟩
    · exact absurd hmissing hl

/-! ## Adding a text -/

theorem Orderly.of_adds (hd : directory ≠ "") (ordered : Orderly files directory)
    (adds : AddsDirectories files files') : Orderly files' directory := by
  refine ⟨fun name record hr => ?_, fun name name' record record' hr hr' heq => ?_⟩
  · have hr₀ := (recordAt_of_adds adds name record).1 hr
    exact FileSystem.read_join_of_keeps hd (isName_of_sequenceOf? hr.number)
      adds.workingDirectory adds.keeps (ordered.readable name record hr₀) hr.node
  · exact ordered.distinct name name' record record' ((recordAt_of_adds adds name record).1 hr)
      ((recordAt_of_adds adds name' record').1 hr') heq

theorem Orderly.appended (hd : directory ≠ "") (ordered : Orderly made directory)
    (slot : Slot made directory sequence) (text : String) :
    Orderly (appended made directory text sequence) directory := by
  have hrecords := fun name record =>
    @recordAt_appended made directory text sequence slot.bound slot.next.after name record
  refine ⟨fun name record hr => ?_, fun name name' record record' hr hr' heq => ?_⟩
  · rcases (hrecords name record).1 hr with hold | ⟨rfl, rfl⟩
    · have hw : (Store.appended made directory text sequence).workingDirectory =
          made.workingDirectory := rfl
      exact FileSystem.read_join_of_keeps hd (isName_of_sequenceOf? hr.number) hw (slot.keeps text)
        (ordered.readable name record hold) hr.node
    · obtain ⟨-, hf, hdir⟩ := FileSystem.locate_ok (slot.located text)
      exact (FileSystem.read_join_iff hd (isName_recordName sequence) _).2
        ⟨slot.record.path, hf, hdir, slot.record.short, hr.node⟩
  · rcases (hrecords name record).1 hr with hold | ⟨rfl, rfl⟩ <;>
      rcases (hrecords name' record').1 hr' with hold' | ⟨rfl, rfl⟩
    · exact ordered.distinct name name' record record' hold hold' heq
    · exact absurd heq (Nat.ne_of_lt (slot.next.after name record hold))
    · exact absurd heq (Nat.ne_of_gt (slot.next.after name' record' hold'))
    · rfl

/-- A text that has been added is read back after all others. -/
theorem texts_append {stored : List String} (hd : directory ≠ "")
    (ordered : Orderly files directory) (hs : texts files directory = .ok stored)
    (h : append files directory text = (.ok (), files')) :
    Orderly files' directory ∧ texts files' directory = .ok (stored ++ [text]) := by
  refine ⟨?_, (texts_append_iff hs h).2 (ordered.inSight hd hs)⟩
  obtain ⟨made, sequence, adds, slot, rfl⟩ := append_ok hd h
  exact (ordered.of_adds hd adds).appended hd slot text

/-! ## Removing all texts -/

/-- After the records have been removed there is none. -/
theorem texts_clear (hd : directory ≠ "") (ordered : Orderly files directory)
    (h : clear files directory = (.ok (), files')) :
    Orderly files' directory ∧ texts files' directory = .ok [] := by
  refine ⟨.of_no_record fun name record hat => ?_, (texts_of_clear h).1⟩
  rcases clear_ok h with ⟨-, hnone, -⟩ | ⟨hl, rfl⟩
  · exact hnone name record hat
  · rw [ordered.locate hd hat] at hl
    cases hl

end ReplayShell.Store
