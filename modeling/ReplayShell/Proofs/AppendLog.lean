import ReplayShell.Proofs.MadeDirectories
import ReplayShell.Proofs.StoreSight

/-!
# The store is an append-only log

A text is added in steps, and the medium may break off any of them: making the temporary file,
writing to it with any bytes left in it, getting them to the medium, and giving it the name of the
record.

* `Added` is what a text that has been added has changed, `NotAdded` what one that could not be
  added has: of the files at most the temporary one, which is no record (`texts_put_temporary`).
* `Settled` stores list the same before and after directories have been made: those that are
  there, and those under a direct path into a tree. The others can come into sight with the first
  text that is added.
* `appendAll` adds texts one after the other. In a `Writable` directory, on a medium that breaks off
  none of the steps, it goes on until the numbers are exhausted (`appendAll_writable`).

`append_log` puts it together.
-/
namespace ReplayShell.Store

open FileSystem (KeepsDirectories AddsDirectories)

variable {files files' made : FileSystem} {directory text : String} {sequence : Nat}

/-! ## A text that has been added -/

/-- What was there is there still, but for one file that may have changed or be gone. -/
structure KeptExcept (files files' : FileSystem) (spare : Place) : Prop where
  named : ∀ place node, files.node? place = some node →
    files'.node? place = some node ∨ place = spare ∧ ∃ content, node = .file content
  nameless : files'.nameless = files.nameless

theorem KeptExcept.of_adds {spare : Place} (adds : AddsDirectories files made)
    (kept : KeptExcept made files' spare) : KeptExcept files files' spare :=
  ⟨fun place node h => kept.named place node (adds.node h), kept.nameless.trans adds.nameless⟩

theorem KeptExcept.refl (files : FileSystem) (spare : Place) : KeptExcept files files spare :=
  ⟨fun _ _ h => .inl h, rfl⟩

/-- The root is always there, and only files have changed. -/
theorem KeptExcept.of_node {spare : Place} (hfree : files.node? spare ≠ some .directory)
    (hnameless : files'.nameless = files.nameless)
    (h : ∀ place node, place ≠ [] → place ≠ spare → files.node? place = some node →
      files'.node? place = some node) : KeptExcept files files' spare := by
  refine ⟨fun place node hn => ?_, hnameless⟩
  by_cases hroot : place = []
  · subst hroot
    exact .inl hn
  by_cases hspare : place = spare
  · refine .inr ⟨hspare, ?_⟩
    cases node with
    | file content => exact ⟨content, rfl⟩
    | directory => exact absurd (hspare ▸ hn) hfree
  · exact .inl (h place node hroot hspare hn)

/-- What a text that has been added has changed: there is one file more, its record, with a number
of its own after all others. -/
structure Added (files files' : FileSystem) (directory text : String) (sequence : Nat) : Prop where
  next : NextNumber files directory sequence
  bound : sequence ≤ maxSequence
  free : files.node? (files.placeOf directory ++ [recordName sequence]) = none
  record : files'.node? (files.placeOf directory ++ [recordName sequence]) =
    some (.file text.toUTF8)
  kept : KeptExcept files files' (files.placeOf directory ++ [temporaryName sequence])
  noMore : ∀ place content, files'.node? place = some (.file content) →
    files.node? place = some (.file content) ∨
      place = files.placeOf directory ++ [recordName sequence]

theorem Slot.keptExcept (slot : Slot made directory sequence) (text : String) :
    KeptExcept made (appended made directory text sequence)
      (made.placeOf directory ++ [temporaryName sequence]) := by
  refine .of_node slot.temporary.free rfl fun place node hroot hspare hn => ?_
  rw [node?_appended _ _ _ _ hroot, if_neg, if_neg (Ne.symm hspare)]
  · exact hn
  · rintro rfl
    rw [slot.free] at hn
    cases hn

/-- The files after a text has been added: its record, and those that were there before. -/
theorem file_of_appended {place : Place} {content : ByteArray}
    (h : (appended made directory text sequence).node? place = some (.file content)) :
    made.node? place = some (.file content) ∨
      place = made.placeOf directory ++ [recordName sequence] := by
  by_cases hroot : place = []
  · subst hroot
    cases h
  rw [node?_appended _ _ _ _ hroot] at h
  split at h
  · exact .inr (Eq.symm ‹_›)
  split at h
  · cases h
  · exact .inl h

theorem added_of_append (hd : directory ≠ "")
    (h : append files directory text = (.ok (), files')) :
    ∃ sequence, Added files files' directory text sequence := by
  obtain ⟨made, sequence, adds, slot, rfl⟩ := append_ok hd h
  have hplace := FileSystem.placeOf_of_workingDirectory adds.workingDirectory directory
  have hfree := slot.free
  refine ⟨sequence, (nextNumber_of_adds adds).1 slot.next, slot.bound, ?_, ?_, ?_, ?_⟩
  · cases hn : files.node? (files.placeOf directory ++ [recordName sequence]) with
    | none => rfl
    | some node =>
      rw [hplace, adds.node hn] at hfree
      cases hfree
  · rw [← hplace, node?_appended _ _ _ _ (by simp), if_pos rfl]
  · rw [← hplace]
    exact .of_adds adds (slot.keptExcept text)
  · intro place content hn
    rw [← hplace]
    exact (file_of_appended hn).imp_left (adds.sameFiles place content).1

/-! ## A text that could not be added -/

/-- What a text that could not be added has changed: directories may have been made, and there may
be a temporary file of the next record, with any bytes in it. -/
structure NotAdded (files files' : FileSystem) (directory : String) (sequence : Nat) : Prop where
  next : NextNumber files directory sequence
  kept : KeptExcept files files' (files.placeOf directory ++ [temporaryName sequence])
  noMore : ∀ place content, files'.node? place = some (.file content) →
    files.node? place = some (.file content) ∨
      place = files.placeOf directory ++ [temporaryName sequence]

theorem keptExcept_put {spare : Place} (hfree : made.node? spare ≠ some .directory)
    (left : ByteArray) : KeptExcept made (made.put spare (.file left)) spare := by
  refine .of_node hfree rfl fun place node hroot hspare hn => ?_
  rw [FileSystem.node?_put _ _ _ hroot, if_neg (Ne.symm hspare)]
  exact hn

/-- The files after one has been put somewhere: this one, and those that were there before. -/
theorem file_of_put {spare place : Place} {left content : ByteArray}
    (h : (made.put spare (.file left)).node? place = some (.file content)) :
    made.node? place = some (.file content) ∨ place = spare := by
  by_cases hroot : place = []
  · subst hroot
    cases h
  rw [FileSystem.node?_put _ _ _ hroot] at h
  split at h
  · exact .inr (Eq.symm ‹_›)
  · exact .inl h

/-- Whatever the temporary file holds, the list is the same. -/
theorem texts_put_temporary (room : made.Room directory (temporaryName sequence))
    (content : ByteArray) :
    texts (made.put (made.placeOf directory ++ [temporaryName sequence]) (.file content))
        directory = texts made directory := by
  have keeps := FileSystem.keepsDirectories_put content room.free
  have hlocate := FileSystem.locate_of_keeps keeps rfl room.located
  have hplace : (made.put (made.placeOf directory ++ [temporaryName sequence])
      (.file content)).placeOf directory = made.placeOf directory := rfl
  rw [texts_of_directory room.located, texts_of_directory hlocate, lying, lying,
    lyingRecords_congr hplace]
  intro name record
  have hnode : sequenceOf? name = some record.sequence →
      (made.put (made.placeOf directory ++ [temporaryName sequence]) (.file content)).node?
        (made.placeOf directory ++ [name]) = made.node? (made.placeOf directory ++ [name]) := by
    intro hs
    rw [FileSystem.node?_put _ _ _ (by simp), if_neg]
    intro heq
    rw [← (List.cons.inj (List.append_cancel_left heq)).1, sequenceOf?_temporary] at hs
    cases hs
  constructor
  · rintro ⟨hs, hn⟩
    exact ⟨hs, (hnode hs).symm.trans hn⟩
  · rintro ⟨hs, hn⟩
    exact ⟨hs, (hnode hs).trans hn⟩

theorem texts_of_append_error {failure : Failure}
    (h : append files directory text = (.error failure, files')) :
    texts files' directory = texts (files.makeDirectories directory).2 directory := by
  by_cases hd : directory = ""
  · subst hd
    rfl
  obtain ⟨made, rfl, rfl | ⟨sequence, left, rfl, -, room⟩⟩ := append_error hd h
  · rfl
  · exact texts_put_temporary room left

theorem notAdded_of_append (hd : directory ≠ "") {failure : Failure}
    (h : append files directory text = (.error failure, files')) :
    ∃ sequence, NotAdded files files' directory sequence := by
  have adds := FileSystem.makeDirectories_adds files directory
  have hplace := FileSystem.placeOf_of_workingDirectory adds.workingDirectory directory
  obtain ⟨made, rfl, rfl | ⟨sequence, left, rfl, next, room⟩⟩ := append_error hd h
  · exact ⟨_, nextNumber_last files directory, .of_adds adds (.refl _ _),
      fun place content hn => .inl ((adds.sameFiles place content).1 hn)⟩
  · refine ⟨sequence, (nextNumber_of_adds adds).1 next, .of_adds adds ?_,
      fun place content hn => ?_⟩
    · rw [← hplace]
      exact keptExcept_put room.free left
    · rw [← hplace]
      exact (file_of_put hn).imp_left (adds.sameFiles place content).1

/-- In a directory that is there, with a number left, `append` only writes a record. -/
theorem append_of_save {place : Place} {saved : Except FileError Unit}
    (hl : files.locate directory = .ok (place, .directory))
    (next : NextNumber files directory sequence) (bound : sequence ≤ maxSequence)
    (hs : save files directory sequence text = (saved, files')) :
    append files directory text = (saved.mapError .file, files') := by
  have found : files.isDirectory directory = true := by rw [FileSystem.isDirectory, hl]
  unfold append
  rw [FileSystem.makeDirectories_eq_of_isDirectory found]
  simp only [nextSequence_of_number hl next, if_pos bound, hs]

/-- What is in the temporary file when the medium has broken off writing to it, or getting its
bytes to the medium. -/
theorem append_of_broken {fault : Fault} {left : ByteArray}
    (room : files.Room directory (temporaryName sequence))
    (next : NextNumber files directory sequence) (bound : sequence ≤ maxSequence)
    (hcreate : files.medium.create (Path.join directory (temporaryName sequence)) = none)
    (hbroken : files.medium.write (Path.join directory (temporaryName sequence)) text.toUTF8 =
        some (fault, left) ∨
      files.medium.write (Path.join directory (temporaryName sequence)) text.toUTF8 = none ∧
        files.medium.sync (Path.join directory (temporaryName sequence)) = some (fault, left)) :
    append files directory text = (.error (.file (.medium fault)),
      files.put (files.placeOf directory ++ [temporaryName sequence]) (.file left)) := by
  have hwrite : files.writeThrough (Path.join directory (temporaryName sequence)) text.toUTF8 =
      (.error (.medium fault),
        files.put (files.placeOf directory ++ [temporaryName sequence]) (.file left)) := by
    rw [FileSystem.writeThrough_of_room (named_of_locate room.located) (isName_temporary sequence)
      room, hcreate]
    rcases hbroken with hwrite | ⟨hwrite, hsync⟩
    · rw [hwrite]
    · rw [hwrite, hsync]
  have hsave : save files directory sequence text = (.error (.medium fault),
      files.put (files.placeOf directory ++ [temporaryName sequence]) (.file left)) := by
    unfold save
    simp only [hwrite]
  exact append_of_save room.located next bound hsave

/-! ## Stores that list the same once directories have been made -/

/-- A store that is found, or lies at the end of a direct path into a tree. -/
structure Settled (files : FileSystem) (directory : String) : Prop where
  named : directory ≠ ""
  found : files.locate directory ≠ .error .notFound ∨
    FileSystem.Rooted files ∧ FileSystem.Direct directory

theorem Settled.missing (settled : Settled files directory)
    (h : files.locate directory = .error .notFound) (name : String) (record : Filed) :
    ¬RecordAt files directory name record := by
  intro hr
  obtain ⟨rooted, direct⟩ := settled.found.resolve_left (absurd h)
  have hmissing := (FileSystem.missing_of_direct rooted (.refl files) settled.named direct h).1
  have hnode := hr.node
  rw [rooted.missing_below hmissing] at hnode
  cases hnode

theorem Settled.inSight {stored : List String} (settled : Settled files directory)
    (hs : texts files directory = .ok stored) : InSight files directory := by
  by_cases hl : files.locate directory = .error .notFound
  · exact inSight_of_no_record settled.named (settled.missing hl) (by rw [hs]; rfl)
  · rcases texts_ok hs with ⟨-, rfl⟩ | ⟨hmissing, -⟩
    · exact ⟨settled.named, hs⟩
    · exact absurd hmissing hl

theorem Settled.texts_of_adds (settled : Settled files directory)
    (adds : AddsDirectories files made) : texts made directory = texts files directory := by
  by_cases hl : files.locate directory = .error .notFound
  · obtain ⟨rooted, direct⟩ := settled.found.resolve_left (absurd hl)
    rw [texts_of_notFound hl]
    rcases (FileSystem.missing_of_direct rooted adds settled.named direct hl).2 with hl' | hl'
    · rw [texts_of_directory hl', lying_of_adds adds, lying_of_no_record (settled.missing hl)]
    · exact texts_of_notFound hl'
  · have hl' := FileSystem.locate_of_adds adds hl
    cases hfound : files.locate directory with
    | error error => cases error <;> simp [texts, records, FileSystem.entries, hl', hfound]
    | ok found =>
      obtain ⟨place, node⟩ := found
      cases node with
      | file content => simp only [texts, records, FileSystem.entries, hl', hfound]
      | directory =>
        rw [texts_of_directory hfound, texts_of_directory (hl'.trans hfound), lying_of_adds adds]

/-- What a store listed before a text was added to it. -/
theorem Settled.texts_of_append (settled : Settled files directory)
    (h : append files directory text = (.ok (), files')) :
    texts files directory = .ok (lying files directory) := by
  obtain ⟨made, sequence, adds, slot, -⟩ := append_ok settled.named h
  rw [← settled.texts_of_adds adds, texts_of_directory slot.record.located, lying_of_adds adds]

/-! ## Texts one after the other -/

/-- Adds texts one after the other, until one cannot be added. -/
def appendAll (files : FileSystem) (directory : String) :
    List String → Except Failure Unit × FileSystem
  | [] => (.ok (), files)
  | text :: rest =>
    match append files directory text with
    | (.ok (), files) => appendAll files directory rest
    | (.error failure, files) => (.error failure, files)

/-- Texts that have been added are listed as they were added, after the old ones. -/
theorem appendAll_ok {added : List String} (sight : InSight files directory)
    (h : appendAll files directory added = (.ok (), files')) :
    InSight files' directory ∧ lying files' directory = lying files directory ++ added := by
  induction added generalizing files with
  | nil =>
    cases h
    exact ⟨sight, (List.append_nil _).symm⟩
  | cons text rest ih =>
    unfold appendAll at h
    split at h
    · rename_i next ha
      obtain ⟨sight', hlying⟩ := texts_append_lying sight.named ha
      obtain ⟨sight'', hlying'⟩ := ih sight' h
      refine ⟨sight'', ?_⟩
      rw [hlying', hlying, List.append_assoc, List.singleton_append]
    · cases h

/-- The medium breaks off none of the steps by which records get into a directory. -/
structure Takes (medium : Medium) (directory : String) : Prop where
  create : ∀ sequence, medium.create (Path.join directory (temporaryName sequence)) = none
  write : ∀ sequence content,
    medium.write (Path.join directory (temporaryName sequence)) content = none
  sync : ∀ sequence, medium.sync (Path.join directory (temporaryName sequence)) = none
  rename : ∀ sequence, medium.rename (Path.join directory (temporaryName sequence))
    (Path.join directory (recordName sequence)) = none

/-- A directory where every record can be written: its path has room for their names, no directory
is in the way, and the medium carries it out. -/
structure Writable (files : FileSystem) (directory : String) : Prop where
  found : files.isDirectory directory = true
  room : FileSystem.checkPath (Path.join directory (temporaryName maxSequence)) = .ok ()
  free : ∀ sequence,
    files.node? (files.placeOf directory ++ [recordName sequence]) ≠ some .directory ∧
      files.node? (files.placeOf directory ++ [temporaryName sequence]) ≠ some .directory
  takes : Takes files.medium directory

theorem Writable.locate (writable : Writable files directory) :
    files.locate directory = .ok (files.placeOf directory, .directory) := by
  have h := writable.found
  unfold FileSystem.isDirectory at h
  split at h
  · rename_i place hl
    obtain ⟨-, hf, -⟩ := FileSystem.locate_ok hl
    have hplace : place = files.placeOf directory := FileSystem.follow_eq_walk hf
    exact hplace ▸ hl
  · cases h

theorem Writable.slot (writable : Writable files directory)
    (next : NextNumber files directory sequence) (bound : sequence ≤ maxSequence) :
    Slot files directory sequence := by
  have hd := named_of_locate writable.locate
  have hlong := isName_temporary maxSequence
  obtain ⟨hle, hmax, hlen⟩ := byteSize_temporaryName_le bound
  obtain ⟨hnul, hnul'⟩ := nul_not_mem_temporaryName sequence
  obtain ⟨hrecord, htemporary⟩ := writable.free sequence
  have hpath := FileSystem.checkPath_join_of_le hd (isName_temporary sequence) hlong hnul' hmax
    writable.room
  have hpath' := FileSystem.checkPath_join_of_le hd (isName_recordName sequence) hlong hnul
    (Nat.le_trans hle hmax) writable.room
  exact ⟨next, bound, ⟨writable.locate, hpath, hlen, htemporary⟩,
    ⟨writable.locate, hpath', Nat.le_trans hle hlen, hrecord⟩⟩

/-- The last step: the temporary file gets the name of the record. -/
theorem Slot.rename (slot : Slot files directory sequence) (takes : Takes files.medium directory) :
    (files.put (files.placeOf directory ++ [temporaryName sequence]) (.file text.toUTF8)).rename
        (Path.join directory (temporaryName sequence)) (Path.join directory (recordName sequence)) =
      .ok (appended files directory text sequence) := by
  have hd := named_of_locate slot.record.located
  have hn := isName_temporary sequence
  have room := slot.temporary.put text.toUTF8
  obtain ⟨-, hf, hdir⟩ := FileSystem.locate_ok room.located
  refine FileSystem.rename_join hd hn (isName_recordName sequence) room.located ?_
    slot.record.path slot.record.short (fun hfree => ?_) (takes.rename sequence)
  · refine (FileSystem.read_join_iff hd hn _).2 ⟨room.path, hf, hdir, room.short, ?_⟩
    exact (FileSystem.node?_put _ _ _ (by simp)).trans (if_pos rfl)
  · exact slot.record.free ((node?_put_temporary files directory _).symm.trans hfree)

/-- On a medium that breaks off none of its steps a record is written. -/
theorem Slot.save (slot : Slot files directory sequence) (takes : Takes files.medium directory) :
    Store.save files directory sequence text =
      (.ok (), appended files directory text sequence) := by
  have hwrite : files.writeThrough (Path.join directory (temporaryName sequence)) text.toUTF8 =
      (.ok (), files.put (files.placeOf directory ++ [temporaryName sequence])
        (.file text.toUTF8)) := by
    rw [FileSystem.writeThrough_of_room (named_of_locate slot.record.located)
      (isName_temporary sequence) slot.temporary, takes.create sequence, takes.write sequence,
      takes.sync sequence]
  unfold Store.save
  simp only [hwrite, slot.rename takes]

/-- Nothing keeps a text from being added but the numbers. -/
theorem append_writable (writable : Writable files directory)
    (next : NextNumber files directory sequence) :
    append files directory text =
      if sequence ≤ maxSequence then (.ok (), appended files directory text sequence)
      else (.error .sequenceExhausted, files) := by
  by_cases bound : sequence ≤ maxSequence
  · have slot := writable.slot next bound
    rw [append_of_save writable.locate next bound (slot.save writable.takes), if_pos bound]
    rfl
  · unfold append
    rw [FileSystem.makeDirectories_eq_of_isDirectory writable.found]
    simp only [nextSequence_of_number writable.locate next, if_neg bound]

theorem Writable.appended (writable : Writable files directory)
    (slot : Slot files directory sequence) (text : String) :
    Writable (appended files directory text sequence) directory := by
  refine ⟨?_, writable.room, fun other => ?_, writable.takes⟩
  · rw [FileSystem.isDirectory, slot.located text]
  · have same : ∀ name, files.node? (files.placeOf directory ++ [name]) ≠ some .directory →
        (Store.appended files directory text sequence).node? (files.placeOf directory ++ [name]) ≠
          some .directory := by
      intro name hn
      rw [node?_appended _ _ _ _ (by simp)]
      split
      · simp
      split
      · simp
      · exact hn
    exact ⟨same _ (writable.free other).1, same _ (writable.free other).2⟩

theorem NextNumber.appended (next : NextNumber files directory sequence)
    (hs : sequence ≤ maxSequence) :
    NextNumber (appended files directory text sequence) directory (sequence + 1) := by
  have hrecords : ∀ name record, RecordAt (Store.appended files directory text sequence) directory
      name record ↔ RecordAt files directory name record ∨
        (name = recordName sequence ∧ record = ⟨sequence, text.toUTF8⟩) :=
    recordAt_appended hs next.after
  refine ⟨fun name record hr => ?_, .inr ⟨recordName sequence, ⟨sequence, text.toUTF8⟩, ?_, rfl⟩⟩
  · rcases (hrecords name record).1 hr with hold | ⟨-, rfl⟩
    · exact Nat.lt_succ_of_lt (next.after name record hold)
    · exact Nat.lt_succ_self sequence
  · exact (hrecords _ _).2 (.inr ⟨rfl, rfl⟩)

/-- As long as there are numbers every text is added. -/
theorem appendAll_writable (added : List String) (writable : Writable files directory)
    (next : NextNumber files directory sequence)
    (hlen : sequence + added.length ≤ maxSequence + 1) :
    ∃ files', appendAll files directory added = (.ok (), files') ∧ Writable files' directory ∧
      NextNumber files' directory (sequence + added.length) := by
  induction added generalizing files sequence with
  | nil => exact ⟨files, rfl, writable, next⟩
  | cons text rest ih =>
    rw [List.length_cons] at hlen
    have bound : sequence ≤ maxSequence := by omega
    have happend : append files directory text =
        (.ok (), appended files directory text sequence) :=
      (append_writable writable next).trans (if_pos bound)
    obtain ⟨files', hall, writable', next'⟩ :=
      ih (writable.appended (writable.slot next bound) text) (next.appended bound) (by omega)
    refine ⟨files', ?_, writable', ?_⟩
    · rw [appendAll, happend]
      exact hall
    · rw [List.length_cons, Nat.add_comm rest.length, ← Nat.add_assoc]
      exact next'

/-- Directories that are missing are made with the first text. -/
theorem append_of_made (hm : files.makeDirectories directory = (.ok (), made))
    (found : made.isDirectory directory = true) :
    append files directory text = append made directory text := by
  unfold append
  rw [hm, FileSystem.makeDirectories_eq_of_isDirectory found]

/-- Texts added to an empty store are listed as they were added, up to the last number. -/
theorem appendAll_empty {added : List String}
    (hm : files.makeDirectories directory = (.ok (), made)) (writable : Writable made directory)
    (sight : InSight files directory) (empty : ∀ name record, ¬RecordAt files directory name record)
    (hlen : added.length ≤ maxSequence + 1) :
    ∃ files', appendAll files directory added = (.ok (), files') ∧
      texts files' directory = .ok added ∧
      (added.length = maxSequence + 1 → ∀ text,
        append files' directory text = (.error .sequenceExhausted, files')) := by
  have adds := FileSystem.makeDirectories_adds files directory
  rw [hm] at adds
  obtain ⟨files', hall, writable', next⟩ := appendAll_writable added writable
    ((nextNumber_of_adds adds).2 (nextNumber_zero.2 empty)) (by omega)
  rw [Nat.zero_add] at next
  cases added with
  | nil =>
    refine ⟨files, rfl, ?_, fun hfull => by cases hfull⟩
    rw [sight.listed, lying_of_no_record empty]
  | cons text rest =>
    have hall' : appendAll files directory (text :: rest) = (.ok (), files') := by
      rw [appendAll, append_of_made hm writable.found]
      exact hall
    refine ⟨files', hall', ?_, fun hfull text => ?_⟩
    · obtain ⟨sight', hlying⟩ := appendAll_ok sight hall'
      rw [sight'.listed, hlying, lying_of_no_record empty, List.nil_append]
    · rw [append_writable writable' next, hfull, if_neg (by omega)]

/-! ## Starting again -/

theorem Settled.empty_of_clear (settled : Settled files directory)
    (h : clear files directory = (.ok (), files')) (name : String) (record : Filed) :
    ¬RecordAt files' directory name record := by
  rcases clear_ok h with ⟨-, hnone, -⟩ | ⟨hl, rfl⟩
  · exact hnone name record
  · exact settled.missing hl name record

theorem nextSequence_of_clear (h : clear files directory = (.ok (), files')) :
    nextSequence files' directory = .ok 0 := by
  rw [nextSequence, records_of_clear h]
  rfl

/-- A store that has been cleared is empty, and the next text is its first record. -/
theorem Settled.inSight_of_clear (settled : Settled files directory)
    (h : clear files directory = (.ok (), files')) : InSight files' directory :=
  inSight_of_no_record settled.named (settled.empty_of_clear h) (by
    rw [(texts_of_clear h).1]
    rfl)

/-! ## The log -/

/-- A store lists the text that has been added after the old ones exactly if it was in sight. -/
theorem texts_append_exact (h : append files directory text = (.ok (), files')) :
    (∃ stored, texts files directory = .ok stored ∧
      texts files' directory = .ok (stored ++ [text])) ↔ InSight files directory :=
  ⟨fun ⟨_, hs, h'⟩ => (texts_append_iff hs h).1 h',
    fun sight => ⟨_, sight.listed, (texts_append_iff sight.listed h).2 sight⟩⟩

theorem texts_appendAll {added : List String} (sight : InSight files directory)
    (h : appendAll files directory added = (.ok (), files')) :
    ∃ stored, texts files directory = .ok stored ∧
      texts files' directory = .ok (stored ++ added) := by
  obtain ⟨sight', hlying⟩ := appendAll_ok sight h
  exact ⟨_, sight.listed, hlying ▸ sight'.listed⟩

theorem added_of_clear (settled : Settled files directory)
    (h : clear files directory = (.ok (), made))
    (happend : append made directory text = (.ok (), files')) :
    Added made files' directory text 0 ∧ texts files' directory = .ok [text] := by
  have sight := settled.inSight_of_clear h
  obtain ⟨sequence, added⟩ := added_of_append settled.named happend
  obtain rfl : sequence = 0 := added.next.unique (nextNumber_zero.2 (settled.empty_of_clear h))
  exact ⟨added, (texts_append_iff (texts_of_clear h).1 happend).2 sight⟩

/-- The store as a log, whatever its directory holds and at whatever step the medium breaks off.
Under a path that leads to the store or straight to nothing, a text that is added is listed after
the old ones, and one that cannot be added leaves the list as it was. Under any path but the empty
one the record has the next number, and no file is touched but its temporary one. The store lists
what has been added exactly if it was in sight, which it never is under the empty path. -/
theorem append_log (files : FileSystem) (directory text : String) :
    (Settled files directory →
      (∀ files', append files directory text = (.ok (), files') →
        ∃ stored, texts files directory = .ok stored ∧
          texts files' directory = .ok (stored ++ [text])) ∧
      ∀ failure files', append files directory text = (.error failure, files') →
        texts files' directory = texts files directory) ∧
    (directory ≠ "" →
      (∀ files', append files directory text = (.ok (), files') →
        ∃ sequence, Added files files' directory text sequence) ∧
      ∀ failure files', append files directory text = (.error failure, files') →
        ∃ sequence, NotAdded files files' directory sequence) ∧
    (∀ files', append files directory text = (.ok (), files') →
      ((∃ stored, texts files directory = .ok stored ∧
        texts files' directory = .ok (stored ++ [text])) ↔ InSight files directory)) ∧
    (∀ failure files', append files directory text = (.error failure, files') →
      texts files' directory = texts (files.makeDirectories directory).2 directory) ∧
    -- A write that is broken off leaves its bytes in the temporary file, and only there.
    (∀ sequence fault left, files.Room directory (temporaryName sequence) →
      NextNumber files directory sequence → sequence ≤ maxSequence →
      files.medium.create (Path.join directory (temporaryName sequence)) = none →
      (files.medium.write (Path.join directory (temporaryName sequence)) text.toUTF8 =
          some (fault, left) ∨
        files.medium.write (Path.join directory (temporaryName sequence)) text.toUTF8 = none ∧
          files.medium.sync (Path.join directory (temporaryName sequence)) = some (fault, left)) →
      append files directory text = (.error (.file (.medium fault)),
        files.put (files.placeOf directory ++ [temporaryName sequence]) (.file left))) ∧
    -- Many texts, one after the other, and as many as there are numbers into an empty store.
    (∀ added files', InSight files directory →
      appendAll files directory added = (.ok (), files') →
      ∃ stored, texts files directory = .ok stored ∧
        texts files' directory = .ok (stored ++ added)) ∧
    (∀ made added, files.makeDirectories directory = (.ok (), made) → Writable made directory →
      InSight files directory → (∀ name record, ¬RecordAt files directory name record) →
      added.length ≤ maxSequence + 1 →
      ∃ files', appendAll files directory added = (.ok (), files') ∧
        texts files' directory = .ok added ∧
        (added.length = maxSequence + 1 → ∀ text,
          append files' directory text = (.error .sequenceExhausted, files'))) ∧
    -- A store that has been cleared is empty.
    ∀ cleared, clear files directory = (.ok (), cleared) →
      texts cleared directory = .ok [] ∧ nextSequence cleared directory = .ok 0 ∧
        (Settled files directory →
          InSight cleared directory ∧
            (∀ name record, ¬RecordAt cleared directory name record) ∧
            ∀ files', append cleared directory text = (.ok (), files') →
              Added cleared files' directory text 0 ∧ texts files' directory = .ok [text]) := by
  refine ⟨fun settled => ⟨fun files' h => ?_, fun failure files' h => ?_⟩,
    fun hd => ⟨fun files' h => added_of_append hd h,
      fun failure files' h => notAdded_of_append hd h⟩,
    fun files' h => texts_append_exact h, fun failure files' h => texts_of_append_error h,
    fun sequence fault left room next bound hcreate hbroken =>
      append_of_broken room next bound hcreate hbroken,
    fun added files' sight h => texts_appendAll sight h,
    fun made added hm writable sight empty hlen => appendAll_empty hm writable sight empty hlen,
    fun cleared h => ⟨(texts_of_clear h).1, nextSequence_of_clear h, fun settled =>
      ⟨settled.inSight_of_clear h, settled.empty_of_clear h,
        fun files' happend => added_of_clear settled h happend⟩⟩⟩
  · exact (texts_append_exact h).2 (settled.inSight (settled.texts_of_append h))
  · rw [texts_of_append_error h]
    exact settled.texts_of_adds (FileSystem.makeDirectories_adds files directory)

/-- An empty store on a medium that is full as soon as some bytes have been written. -/
def fullStore (left : ByteArray) : FileSystem :=
  { FileSystem.empty with medium := { write := fun _ _ => some (.noSpace, left) } }.put
    ["s"] .directory

/-- Texts go into a store that is not there yet. They do not go where there is a file in its place,
nor to a medium that is full. -/
theorem append_log_newStore :
    Settled .empty "s" ∧
      (∃ files', append .empty "s" "1" = (.ok (), files') ∧
        (∃ stored, texts .empty "s" = .ok stored ∧ texts files' "s" = .ok (stored ++ ["1"])) ∧
        ∃ sequence, Added .empty files' "s" "1" sequence) ∧
      (∃ files', appendAll .empty "s" ["1", "2"] = (.ok (), files') ∧
        texts files' "s" = .ok ["1", "2"]) ∧
      (∃ cleared, clear .empty "s" = (.ok (), cleared) ∧ nextSequence cleared "s" = .ok 0) ∧
      (∃ failure files',
        append (FileSystem.empty.put ["s"] (.file ByteArray.empty)) "s" "1" =
            (.error failure, files') ∧
          texts files' "s" = texts (FileSystem.empty.put ["s"] (.file ByteArray.empty)) "s") ∧
      ∀ left, ∃ files',
        append (fullStore left) "s" "1" = (.error (.file (.medium .noSpace)), files') ∧
          files'.node? ["s", "submission0000.tmp"] = some (.file left) ∧
          texts files' "s" = texts (fullStore left) "s" ∧
          NotAdded (fullStore left) files' "s" 0 := by
  have settled : Settled .empty "s" := by
    refine ⟨by decide, .inr ⟨fun place name hs => ?_, by decide +kernel, by decide +kernel⟩⟩
    rw [FileSystem.node?_empty] at hs
    cases hs
  have empty := not_recordAt_empty "s"
  have free : ∀ name, (FileSystem.empty.put ["s"] .directory).node? (["s"] ++ [name]) = none := by
    intro name
    rw [FileSystem.node?_put _ _ _ (by simp), if_neg (by simp), FileSystem.node?_empty]
  have writable : Writable (FileSystem.empty.put ["s"] .directory) "s" := by
    refine ⟨by decide +kernel, by decide +kernel, fun sequence => ⟨?_, ?_⟩,
      ⟨fun _ => rfl, fun _ _ => rfl, fun _ => rfl, fun _ => rfl⟩⟩
    · exact fun h => by cases (free _).symm.trans h
    · exact fun h => by cases (free _).symm.trans h
  have settled' : Settled (FileSystem.empty.put ["s"] (.file ByteArray.empty)) "s" :=
    ⟨by decide, .inl fun h => by cases h⟩
  have next : NextNumber (FileSystem.empty.put ["s"] .directory) "s" 0 :=
    (nextNumber_of_adds (.put rfl)).2 (nextNumber_zero.2 empty)
  have happend : append .empty "s" "1" =
      (.ok (), appended (FileSystem.empty.put ["s"] .directory) "s" "1" 0) :=
    (append_of_made rfl writable.found).trans
      ((append_writable writable next).trans (if_pos (Nat.zero_le _)))
  obtain ⟨failure, blocked, hblocked⟩ : ∃ failure files',
      append (FileSystem.empty.put ["s"] (.file ByteArray.empty)) "s" "1" =
        (.error failure, files') := ⟨_, _, rfl⟩
  obtain ⟨listed, changed, -, -, -, -, many, cleared⟩ := append_log .empty "s" "1"
  obtain ⟨after, hafter, hlisted, -⟩ := many _ ["1", "2"] rfl writable
    (inSight_of_no_record (by decide) empty rfl) empty (by decide)
  refine ⟨settled, ⟨_, happend, (listed settled).1 _ happend, (changed (by decide)).1 _ happend⟩,
    ⟨after, hafter, hlisted⟩, ⟨_, rfl, (cleared _ rfl).2.1⟩,
    ⟨failure, blocked, hblocked, ((append_log _ "s" "1").1 settled').2 failure blocked hblocked⟩,
    fun left => ?_⟩
  -- The full medium holds what the writable store holds.
  have room : (fullStore left).Room "s" (temporaryName 0) :=
    ⟨rfl, by decide +kernel, by decide +kernel, (writable.free 0).2⟩
  have next' : NextNumber (fullStore left) "s" 0 :=
    nextNumber_zero.2 fun name record hr => nextNumber_zero.1 next name record ⟨hr.number, hr.node⟩
  obtain ⟨listed, changed, -, -, broken, -⟩ := append_log (fullStore left) "s" "1"
  have hbroken := broken 0 .noSpace left room next' (Nat.zero_le _) rfl (.inl rfl)
  obtain ⟨sequence, notAdded⟩ := (changed (by decide)).2 _ _ hbroken
  obtain rfl : sequence = 0 := notAdded.next.unique next'
  have found : (fullStore left).locate "s" ≠ .error .notFound := fun h => by cases h
  refine ⟨_, hbroken, ?_, (listed ⟨by decide, .inl found⟩).2 _ _ hbroken, notAdded⟩
  exact (FileSystem.node?_put _ _ _ (by simp)).trans (if_pos rfl)

/-- Under the empty path a text is written, and never listed. -/
example : append .empty "" "1" = (.ok (), appended .empty "." "1" 0) ∧
    texts (appended .empty "." "1" 0) "" = .ok [] :=
  ⟨rfl, rfl⟩

end ReplayShell.Store
