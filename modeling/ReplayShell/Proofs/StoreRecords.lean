import Mathlib.Data.List.Basic
import ReplayShell.Proofs.FileChanges
import ReplayShell.Proofs.RecordNames

/-!
# What lies in a store

* `RecordAt`: a record lies in a directory under a name, whether or not its path can be followed or
  it can be read. `lyingRecords` are those of a directory by number, `lying` the texts of those that
  can be read.
* `records_of_directory` and `texts_of_directory`: in a directory that is found the store lists what
  lies there.
* `NextNumber` is the number after those of all records; `number_of_nextSequence` and
  `nextSequence_of_number`: that is the one `nextSequence` gives, as long as there is one.
* `append_ok` and `clear_ok` are what `append` and `clear` have done when they succeed.
-/
namespace ReplayShell.Store

open FileSystem (KeepsDirectories AddsDirectories)

/-- What a record is made of: its number and its bytes. -/
structure Filed where
  sequence : Nat
  content : ByteArray

/-- A record, with the name under which it lies in the directory that a path names. -/
structure RecordAt (files : FileSystem) (directory name : String) (record : Filed) : Prop where
  number : sequenceOf? name = some record.sequence
  node : files.node? (files.placeOf directory ++ [name]) = some (.file record.content)

variable {files files' made : FileSystem} {directory text : String} {sequence : Nat}

/-! ## The entries of a directory -/

theorem mem_children {place : Place} {name : String} {node : Node} :
    (name, node) ∈ files.children place ↔ files.node? (place ++ [name]) = some node := by
  rw [FileSystem.node?_eq_getElem? _ (by simp), FileSystem.children, List.mem_filterMap,
    ← Std.ExtTreeMap.mem_toList_iff_getElem?_eq_some]
  constructor
  · rintro ⟨⟨other, found⟩, hm, ho⟩
    dsimp only at ho
    split at ho
    · rename_i last hl
      obtain ⟨front, rfl⟩ := List.getLast?_eq_some_iff.1 hl
      rw [List.dropLast_concat] at ho
      split at ho
      · rename_i hp
        cases ho
        exact hp ▸ hm
      · cases ho
    · cases ho
  · intro hm
    exact ⟨_, hm, by simp⟩

/-- The entries of a directory come in the order of their names. -/
theorem ordered_children (files : FileSystem) (place : Place) :
    (files.children place).Pairwise fun a b =>
      compare (place ++ [a.1]) (place ++ [b.1]) = .lt := by
  rw [FileSystem.children, List.pairwise_filterMap]
  refine (Std.ExtTreeMap.ordered_keys_toList (t := files.nodes)).imp ?_
  rintro ⟨a, node⟩ ⟨b, node'⟩ hab ⟨name, _⟩ ha ⟨name', _⟩ hb
  dsimp only at ha hb
  split at ha <;> split at hb <;> try contradiction
  rename_i hla _ _ hlb
  split at ha <;> split at hb <;> try contradiction
  rename_i hda hdb
  cases ha
  cases hb
  obtain ⟨front, rfl⟩ := List.getLast?_eq_some_iff.1 hla
  obtain ⟨front', rfl⟩ := List.getLast?_eq_some_iff.1 hlb
  rw [List.dropLast_concat] at hda hdb
  rw [hda, hdb] at hab
  exact hab

/-- A list in a strict order is determined by its members. -/
theorem eq_of_same_members {α : Type} {before : α → α → Prop}
    (asymm : ∀ {x y}, before x y → ¬before y x) {a b : List α} (ha : a.Pairwise before)
    (hb : b.Pairwise before) (h : ∀ x, x ∈ a ↔ x ∈ b) : a = b := by
  have nodup : ∀ {l : List α}, l.Pairwise before → l.Nodup := fun hl => hl.imp <| by
    rintro x _ hlt rfl
    exact asymm hlt hlt
  have perm := (List.perm_ext_iff_of_nodup (nodup ha) (nodup hb)).2 h
  exact perm.eq_of_pairwise (fun _ _ _ _ hab hba => absurd hba (asymm hab)) ha hb

/-! ## The records of a directory -/

/-- The record that an entry is, with its name. -/
def filedOf? : String × Node → Option (String × Filed)
  | (name, .file content) => (sequenceOf? name).map fun sequence => (name, ⟨sequence, content⟩)
  | (_, .directory) => none

theorem filedOf?_eq_some {entry : String × Node} {name : String} {record : Filed} :
    filedOf? entry = some (name, record) ↔
      sequenceOf? name = some record.sequence ∧ entry = (name, .file record.content) := by
  obtain ⟨given, node⟩ := entry
  obtain ⟨sequence, bytes⟩ := record
  cases node with
  | directory => simp [filedOf?]
  | file content =>
    simp only [filedOf?, Option.map_eq_some_iff, Prod.mk.injEq, Filed.mk.injEq, Node.file.injEq]
    constructor
    · rintro ⟨number, hs, rfl, rfl, rfl⟩
      exact ⟨hs, rfl, rfl⟩
    · rintro ⟨hs, rfl, rfl⟩
      exact ⟨_, hs, rfl, rfl, rfl⟩

/-- The records at a place with their names, in the order of the names. -/
def filed (files : FileSystem) (place : Place) : List (String × Filed) :=
  (files.children place).filterMap filedOf?

theorem mem_filed {name : String} {record : Filed} :
    (name, record) ∈ filed files (files.placeOf directory) ↔
      RecordAt files directory name record := by
  unfold filed
  rw [List.mem_filterMap]
  constructor
  · rintro ⟨entry, hm, hr⟩
    obtain ⟨hs, rfl⟩ := filedOf?_eq_some.1 hr
    exact ⟨hs, mem_children.1 hm⟩
  · rintro ⟨hs, hn⟩
    exact ⟨_, mem_children.2 hn, filedOf?_eq_some.2 ⟨hs, rfl⟩⟩

/-- Names that come one before the other at a place. -/
def NameBefore (place : Place) (a b : String × Filed) : Prop :=
  compare (place ++ [a.1]) (place ++ [b.1]) = .lt

theorem NameBefore.asymm {place : Place} {a b : String × Filed} (h : NameBefore place a b) :
    ¬NameBefore place b a :=
  Std.OrientedCmp.not_lt_of_lt h

theorem pairwise_filed (files : FileSystem) (place : Place) :
    (filed files place).Pairwise (NameBefore place) := by
  rw [filed, List.pairwise_filterMap]
  refine (ordered_children files place).imp ?_
  rintro entry entry' hlt ⟨name, record⟩ hr ⟨name', record'⟩ hr'
  obtain ⟨-, rfl⟩ := filedOf?_eq_some.1 hr
  obtain ⟨-, rfl⟩ := filedOf?_eq_some.1 hr'
  exact hlt

/-- Records by number; those of one number stay in their order. -/
abbrev bySequence (records : List (String × Filed)) : List (String × Filed) :=
  records.mergeSort fun a b => a.2.sequence ≤ b.2.sequence

theorem pairwise_bySequence (records : List (String × Filed)) :
    (bySequence records).Pairwise fun a b => a.2.sequence ≤ b.2.sequence := by
  have sorted := @List.pairwise_mergeSort (String × Filed)
    (fun a b => a.2.sequence ≤ b.2.sequence)
    (fun a b c => by simp only [decide_eq_true_eq]; omega)
    (fun a b => by simp only [Bool.or_eq_true, decide_eq_true_eq]; omega) records
  exact sorted.imp fun h => of_decide_eq_true h

/-- The records that lie where a path leads, by number. -/
def lyingRecords (files : FileSystem) (directory : String) : List (String × Filed) :=
  bySequence (filed files (files.placeOf directory))

/-- The text of a record that can be read: its path can be had, and its bytes are UTF-8. -/
def legible (directory : String) : String × Filed → Option String
  | (name, record) =>
    if FileSystem.checkPath (Path.join directory name) = .ok () ∧
        Text.byteSize name.toList ≤ FileSystem.maxNameSize then
      String.fromUTF8? record.content
    else none

/-- The texts that lie where a path leads, whether or not it can be followed. -/
def lying (files : FileSystem) (directory : String) : List String :=
  (lyingRecords files directory).filterMap (legible directory)

theorem mem_lyingRecords {name : String} {record : Filed} :
    (name, record) ∈ lyingRecords files directory ↔ RecordAt files directory name record := by
  rw [lyingRecords, List.mem_mergeSort, mem_filed]

theorem lyingRecords_of_no_record (h : ∀ name record, ¬RecordAt files directory name record) :
    lyingRecords files directory = [] :=
  List.eq_nil_iff_forall_not_mem.2 fun (name, record) hm => h name record (mem_lyingRecords.1 hm)

theorem lying_of_no_record (h : ∀ name record, ¬RecordAt files directory name record) :
    lying files directory = [] := by
  rw [lying, lyingRecords_of_no_record h, List.filterMap_nil]

/-- The list of records depends on the records only. -/
theorem lyingRecords_congr (hplace : files'.placeOf directory = files.placeOf directory)
    (h : ∀ name record,
      RecordAt files' directory name record ↔ RecordAt files directory name record) :
    lyingRecords files' directory = lyingRecords files directory := by
  have hfiled : filed files' (files.placeOf directory) = filed files (files.placeOf directory) := by
    refine eq_of_same_members NameBefore.asymm (pairwise_filed _ _) (pairwise_filed _ _) ?_
    rintro ⟨name, record⟩
    rw [mem_filed, ← hplace, mem_filed]
    exact h name record
  rw [lyingRecords, lyingRecords, hplace, hfiled]

theorem not_recordAt_empty (directory name : String) (record : Filed) :
    ¬RecordAt .empty directory name record := by
  intro hr
  have hn := hr.node
  rw [FileSystem.node?_empty] at hn
  cases hn

/-- Making directories adds no record and takes none away. -/
theorem recordAt_of_adds (adds : AddsDirectories files files') (name : String) (record : Filed) :
    RecordAt files' directory name record ↔ RecordAt files directory name record := by
  have hplace := FileSystem.placeOf_of_workingDirectory adds.workingDirectory directory
  constructor
  · rintro ⟨hs, hn⟩
    exact ⟨hs, (adds.sameFiles _ _).1 (hplace ▸ hn)⟩
  · rintro ⟨hs, hn⟩
    exact ⟨hs, hplace ▸ (adds.sameFiles _ _).2 hn⟩

theorem lyingRecords_of_adds (adds : AddsDirectories files made) :
    lyingRecords made directory = lyingRecords files directory :=
  lyingRecords_congr (FileSystem.placeOf_of_workingDirectory adds.workingDirectory directory)
    (recordAt_of_adds adds)

theorem lying_of_adds (adds : AddsDirectories files made) :
    lying made directory = lying files directory := by
  rw [lying, lying, lyingRecords_of_adds adds]

/-! ## What is listed -/

/-- A record as it is listed: by its number and its path. -/
def listedAs (directory : String) : String × Filed → Record
  | (name, record) => ⟨record.sequence, Path.join directory name⟩

/-- Of the entries only files with the names of records are records. -/
theorem filterMap_recordOf? (files : FileSystem) (directory : String) (place : Place) :
    ((files.children place).map fun (name, node) => (⟨some name, node⟩ : Entry)).filterMap
        (recordOf? directory) = (filed files place).map (listedAs directory) := by
  rw [filed, List.filterMap_map, List.map_filterMap]
  refine congrArg (List.filterMap · _) (funext fun (name, node) => ?_)
  cases node with
  | directory => rfl
  | file content =>
    simp only [Function.comp_apply, recordOf?, filedOf?]
    cases sequenceOf? name <;> rfl

/-- What has a name that is not text is no record. -/
theorem filterMap_recordOf?_nameless (directory : String) (nodes : List Node) :
    (nodes.map fun node => (⟨none, node⟩ : Entry)).filterMap (recordOf? directory) = [] := by
  rw [List.filterMap_map]
  exact List.filterMap_eq_nil_iff.2 fun node _ => rfl

theorem records_of_directory {place : Place}
    (h : files.locate directory = .ok (place, .directory)) :
    records files directory = .ok ((lyingRecords files directory).map (listedAs directory)) := by
  obtain ⟨-, hf, -⟩ := FileSystem.locate_ok h
  obtain rfl : place = files.placeOf directory := FileSystem.follow_eq_walk hf
  simp only [records, FileSystem.entries, h, List.filterMap_append, filterMap_recordOf?,
    filterMap_recordOf?_nameless, List.append_nil]
  refine congrArg Except.ok (Eq.symm (List.map_mergeSort ?_))
  intro a _ b _
  rfl

theorem entries_of_list_error {error : FileError} (h : files.list directory = .error error) :
    files.entries directory = .error error := by
  unfold FileSystem.list at h
  unfold FileSystem.entries
  split at h
  · cases h
    rfl
  · cases h
    rfl
  · cases h

/-- The entries are what is listed, and more that have no names. -/
theorem entries_of_list_ok {found : List (String × Node)} (h : files.list directory = .ok found) :
    ∃ nodes : List Node, files.entries directory =
      .ok (found.map (fun (name, node) => (⟨some name, node⟩ : Entry)) ++
        nodes.map fun node => ⟨none, node⟩) := by
  unfold FileSystem.list at h
  unfold FileSystem.entries
  split at h
  · cases h
  · cases h
  · rename_i place _
    cases h
    exact ⟨files.nameless place, rfl⟩

/-- The records are those among the entries that are listed. -/
theorem records_congr (h : files'.list directory = files.list directory) :
    records files' directory = records files directory := by
  unfold records
  cases hlist : files.list directory with
  | error error =>
    rw [entries_of_list_error (h.trans hlist), entries_of_list_error hlist]
  | ok found =>
    obtain ⟨nodes', hentries'⟩ := entries_of_list_ok (h.trans hlist)
    obtain ⟨nodes, hentries⟩ := entries_of_list_ok hlist
    simp only [hentries', hentries, List.filterMap_append, filterMap_recordOf?_nameless]

/-- Records are listed by the paths of entries. -/
theorem path_of_records {listed : List Record} {record : Record}
    (h : records files directory = .ok listed) (hm : record ∈ listed) :
    ∃ name, record.path = Path.join directory name := by
  unfold records at h
  split at h
  · cases h
    obtain ⟨entry, -, hr⟩ := List.mem_filterMap.1 (List.mem_mergeSort.1 hm)
    unfold recordOf? at hr
    split at hr
    · obtain ⟨sequence, -, rfl⟩ := Option.map_eq_some_iff.1 hr
      exact ⟨_, rfl⟩
    · cases hr
  · cases h
    cases hm
  · cases h

theorem named_of_locate {found : Place × Node} (h : files.locate directory = .ok found) :
    directory ≠ "" := by
  rintro rfl
  cases h

theorem readText_toOption {place : Place} {name : String} {record : Filed}
    (h : files.locate directory = .ok (place, .directory))
    (hr : RecordAt files directory name record) :
    (files.readText (Path.join directory name)).toOption = legible directory (name, record) := by
  have hd := named_of_locate h
  have hn := isName_of_sequenceOf? hr.number
  obtain ⟨-, hf, hdir⟩ := FileSystem.locate_ok h
  obtain rfl : place = files.placeOf directory := FileSystem.follow_eq_walk hf
  unfold legible FileSystem.readText
  dsimp only
  split
  · rename_i error he
    rw [if_neg]
    · rfl
    · rintro ⟨hc, hlen⟩
      rw [(FileSystem.read_join_iff hd hn _).2 ⟨hc, hf, hdir, hlen, hr.node⟩] at he
      cases he
  · rename_i content he
    obtain ⟨hc, -, -, hlen, hnode⟩ := (FileSystem.read_join_iff hd hn _).1 he
    rw [hr.node] at hnode
    cases hnode
    rw [if_pos ⟨hc, hlen⟩]
    cases String.fromUTF8? record.content <;> rfl

theorem texts_of_directory {place : Place} (h : files.locate directory = .ok (place, .directory)) :
    texts files directory = .ok (lying files directory) := by
  simp only [texts, records_of_directory h, lying, List.filterMap_map]
  refine congrArg Except.ok (List.filterMap_congr fun (name, record) hm => ?_)
  exact readText_toOption h (mem_lyingRecords.1 hm)

/-- A store that can be listed lists what lies there, or it is not found and lists nothing. -/
theorem texts_ok {stored : List String} (h : texts files directory = .ok stored) :
    files.isDirectory directory = true ∧ stored = lying files directory ∨
      files.locate directory = .error .notFound ∧ stored = [] := by
  cases hl : files.locate directory with
  | ok found =>
    obtain ⟨place, node⟩ := found
    cases node with
    | file content => simp [texts, records, FileSystem.entries, hl] at h
    | directory =>
      rw [texts_of_directory hl] at h
      refine .inl ⟨?_, (Except.ok.inj h).symm⟩
      rw [FileSystem.isDirectory, hl]
  | error error =>
    cases error <;> simp [texts, records, FileSystem.entries, hl] at h
    exact .inr ⟨rfl, h⟩

/-- Under the empty path nothing is ever listed. -/
theorem texts_emptyPath (files : FileSystem) : texts files "" = .ok [] := rfl

theorem texts_of_notFound (h : files.locate directory = .error .notFound) :
    texts files directory = .ok [] := by
  simp only [texts, records, FileSystem.entries, h, List.filterMap_nil]

/-- A record has the text that it was written with. -/
theorem fromUTF8?_toUTF8 (text : String) : String.fromUTF8? text.toUTF8 = some text :=
  dif_pos text.isValidUTF8

/-! ## The next number -/

/-- The number after those of all records in the directory, readable or not; 0 if there is none. -/
structure NextNumber (files : FileSystem) (directory : String) (sequence : Nat) : Prop where
  after : ∀ name record, RecordAt files directory name record → record.sequence < sequence
  least : sequence = 0 ∨
    ∃ name record, RecordAt files directory name record ∧ record.sequence + 1 = sequence

theorem NextNumber.unique {other : Nat} (next : NextNumber files directory sequence)
    (next' : NextNumber files directory other) : sequence = other := by
  have le : ∀ {a b : Nat}, NextNumber files directory a → NextNumber files directory b → a ≤ b := by
    intro a b ha hb
    rcases ha.least with rfl | ⟨name, record, hr, rfl⟩
    · exact Nat.zero_le b
    · exact hb.after name record hr
  exact Nat.le_antisymm (le next next') (le next' next)

theorem nextNumber_last (files : FileSystem) (directory : String) :
    NextNumber files directory
      ((lyingRecords files directory).getLast?.elim 0 fun last => last.2.sequence + 1) := by
  cases hlast : (lyingRecords files directory).getLast? with
  | none =>
    have hnil := List.getLast?_eq_none_iff.1 hlast
    refine ⟨fun name record hr => ?_, .inl rfl⟩
    have hm := mem_lyingRecords.2 hr
    rw [hnil] at hm
    exact absurd hm List.not_mem_nil
  | some last =>
    obtain ⟨front, hl⟩ := List.getLast?_eq_some_iff.1 hlast
    have hsorted := pairwise_bySequence (filed files (files.placeOf directory))
    rw [← lyingRecords, hl] at hsorted
    refine ⟨fun name record hr => Nat.lt_succ_of_le ?_,
      .inr ⟨last.1, last.2, mem_lyingRecords.1 (List.mem_of_getLast? hlast), rfl⟩⟩
    have hm := mem_lyingRecords.2 hr
    rw [hl] at hm
    rcases List.mem_append.1 hm with hm | hm
    · exact (List.pairwise_append.1 hsorted).2.2 _ hm last (List.mem_singleton_self last)
    · rw [← List.mem_singleton.1 hm]

theorem nextSequence_of_number {place : Place}
    (hl : files.locate directory = .ok (place, .directory))
    (next : NextNumber files directory sequence) :
    nextSequence files directory =
      if sequence ≤ maxSequence then .ok sequence else .error .sequenceExhausted := by
  rw [next.unique (nextNumber_last files directory), nextSequence, records_of_directory hl]
  simp only [List.getLast?_map]
  cases (lyingRecords files directory).getLast? with
  | none => rfl
  | some last => rfl

theorem number_of_nextSequence {place : Place}
    (hl : files.locate directory = .ok (place, .directory))
    (h : nextSequence files directory = .ok sequence) :
    NextNumber files directory sequence ∧ sequence ≤ maxSequence := by
  have next := nextNumber_last files directory
  rw [nextSequence_of_number hl next] at h
  split at h
  · cases h
    exact ⟨next, ‹_›⟩
  · cases h

theorem nextNumber_of_adds (adds : AddsDirectories files made) :
    NextNumber made directory sequence ↔ NextNumber files directory sequence := by
  have same : ∀ name record, RecordAt made directory name record ↔
      RecordAt files directory name record := recordAt_of_adds adds
  constructor
  · rintro ⟨after, least⟩
    exact ⟨fun name record hr => after name record ((same name record).2 hr),
      least.imp_right fun ⟨name, record, hr, hs⟩ => ⟨name, record, (same name record).1 hr, hs⟩⟩
  · rintro ⟨after, least⟩
    exact ⟨fun name record hr => after name record ((same name record).1 hr),
      least.imp_right fun ⟨name, record, hr, hs⟩ => ⟨name, record, (same name record).2 hr, hs⟩⟩

theorem nextNumber_zero :
    NextNumber files directory 0 ↔ ∀ name record, ¬RecordAt files directory name record :=
  ⟨fun next name record hr => Nat.not_lt_zero _ (next.after name record hr),
    fun none => ⟨fun name record hr => absurd hr (none name record), .inl rfl⟩⟩

/-! ## Adding a record -/

/-- The files after a text has been put under a record's name, by way of its temporary one. -/
abbrev appended (made : FileSystem) (directory text : String) (sequence : Nat) : FileSystem :=
  let temporary := made.placeOf directory ++ [temporaryName sequence]
  (made.put temporary (.file text.toUTF8)).move temporary
    (made.placeOf directory ++ [recordName sequence]) (.file text.toUTF8)

theorem node?_appended (made : FileSystem) (directory text : String) (sequence : Nat)
    {other : Place} (h : other ≠ []) :
    (appended made directory text sequence).node? other =
      if made.placeOf directory ++ [recordName sequence] = other then some (.file text.toUTF8)
      else if made.placeOf directory ++ [temporaryName sequence] = other then none
      else made.node? other := by
  rw [appended, FileSystem.node?_move _ _ _ _ _ h, FileSystem.node?_put _ _ _ h]
  split
  · rfl
  split <;> rfl

theorem keepsDirectories_appended
    (htemporary : made.node? (made.placeOf directory ++ [temporaryName sequence]) ≠
      some .directory)
    (hrecord : made.node? (made.placeOf directory ++ [recordName sequence]) ≠ some .directory) :
    KeepsDirectories made (appended made directory text sequence) := by
  intro place hp
  by_cases hne : place = []
  · subst hne
    rfl
  rw [node?_appended made directory text sequence hne]
  split
  · rename_i heq
    exact absurd (heq ▸ hp) hrecord
  split
  · rename_i heq
    exact absurd (heq ▸ hp) htemporary
  · exact hp

/-- What has been done where a text has been added: the number is the next one, its path and that
of its temporary file can be had, and both are put where no directory is. -/
structure Slot (made : FileSystem) (directory : String) (sequence : Nat) : Prop where
  next : NextNumber made directory sequence
  bound : sequence ≤ maxSequence
  temporary : made.Room directory (temporaryName sequence)
  record : made.Room directory (recordName sequence)

/-- What is put under the temporary name does not lie under the record's. -/
theorem node?_put_temporary (made : FileSystem) (directory : String) (node : Node) :
    (made.put (made.placeOf directory ++ [temporaryName sequence]) node).node?
        (made.placeOf directory ++ [recordName sequence]) =
      made.node? (made.placeOf directory ++ [recordName sequence]) := by
  rw [FileSystem.node?_put _ _ _ (by simp), if_neg]
  intro heq
  exact recordName_ne_temporary (List.cons.inj (List.append_cancel_left heq)).1.symm

/-- A record that has been written lies under its name, and its temporary file is gone. -/
theorem save_ok (hd : directory ≠ "")
    (h : save made directory sequence text = (.ok (), files')) :
    made.Room directory (temporaryName sequence) ∧ made.Room directory (recordName sequence) ∧
      files' = appended made directory text sequence := by
  unfold save at h
  dsimp only at h
  split at h
  · cases h
  rename_i written hw
  split at h
  · cases h
  rename_i renamed hr
  cases h
  obtain ⟨room, rfl⟩ := FileSystem.writeThrough_join_ok hd (isName_temporary sequence) hw
  obtain ⟨node, hnode, hfree, hc, hlen, -, rfl⟩ :=
    FileSystem.rename_join_ok hd (isName_temporary sequence) (isName_recordName sequence) hr
  obtain rfl : node = .file text.toUTF8 := by
    change (made.put (made.placeOf directory ++ [temporaryName sequence]) _).node?
      (made.placeOf directory ++ [temporaryName sequence]) = some node at hnode
    rw [FileSystem.node?_put _ _ _ (by simp), if_pos rfl] at hnode
    exact (Option.some.inj hnode).symm
  exact ⟨room, ⟨room.located, hc, hlen,
    fun hn => hfree ((node?_put_temporary made directory _).trans hn)⟩, rfl⟩

/-- Where a record could not be written there is nothing new, or its temporary file with whatever
has got into it. -/
theorem save_error {error : FileError} (hd : directory ≠ "")
    (h : save made directory sequence text = (.error error, files')) :
    files' = made ∨ made.Room directory (temporaryName sequence) ∧ ∃ left,
      files' = made.put (made.placeOf directory ++ [temporaryName sequence]) (.file left) := by
  have hn := isName_temporary sequence
  unfold save at h
  dsimp only at h
  split at h
  · rename_i broken hw
    cases h
    exact FileSystem.writeThrough_join_error hd hn hw
  rename_i written hw
  split at h
  · cases h
    obtain ⟨room, rfl⟩ := FileSystem.writeThrough_join_ok hd hn hw
    exact .inr ⟨room, _, rfl⟩
  · cases h

/-- What `append` does: it makes directories, and writes the next record if there is a number
left. -/
theorem append_cases {result : Except Failure Unit}
    (h : append files directory text = (result, files')) :
    ∃ made, (files.makeDirectories directory).2 = made ∧
      ((∃ failure, result = .error failure) ∧ files' = made ∨
        ∃ sequence saved, nextSequence made directory = .ok sequence ∧
          save made directory sequence text = (saved, files') ∧ result = saved.mapError .file) := by
  unfold append at h
  rcases hm : files.makeDirectories directory with ⟨made?, made⟩
  rw [hm] at h
  refine ⟨made, rfl, ?_⟩
  cases made? with
  | error error =>
    cases h
    exact .inl ⟨⟨_, rfl⟩, rfl⟩
  | ok _ =>
    dsimp only at h
    split at h
    · cases h
      exact .inl ⟨⟨_, rfl⟩, rfl⟩
    · rename_i sequence hseq
      rcases hs : save made directory sequence text with ⟨saved, after⟩
      rw [hs] at h
      cases h
      exact .inr ⟨sequence, saved, hseq, hs, rfl⟩

/-- What `append` has done when it succeeds: directories made, then the text put under the name of
the next record. -/
theorem append_ok (hd : directory ≠ "") (h : append files directory text = (.ok (), files')) :
    ∃ made sequence, AddsDirectories files made ∧ Slot made directory sequence ∧
      files' = appended made directory text sequence := by
  obtain ⟨made, rfl, ⟨⟨failure, hfailure⟩, -⟩ | ⟨sequence, saved, hseq, hs, hsaved⟩⟩ :=
    append_cases h
  · cases hfailure
  · cases saved with
    | error error => cases hsaved
    | ok _ =>
      obtain ⟨htemporary, hrecord, rfl⟩ := save_ok hd hs
      obtain ⟨next, bound⟩ := number_of_nextSequence hrecord.located hseq
      exact ⟨_, sequence, FileSystem.makeDirectories_adds files directory,
        ⟨next, bound, htemporary, hrecord⟩, rfl⟩

/-- What `append` has done when it fails at any of its steps: directories made, and perhaps the
temporary file of the next record, with whatever has got into it. -/
theorem append_error {failure : Failure} (hd : directory ≠ "")
    (h : append files directory text = (.error failure, files')) :
    ∃ made, (files.makeDirectories directory).2 = made ∧ (files' = made ∨ ∃ sequence left,
      files' = made.put (made.placeOf directory ++ [temporaryName sequence]) (.file left) ∧
        NextNumber made directory sequence ∧ made.Room directory (temporaryName sequence)) := by
  obtain ⟨made, rfl, ⟨-, rfl⟩ | ⟨sequence, saved, hseq, hs, hsaved⟩⟩ := append_cases h
  · exact ⟨_, rfl, .inl rfl⟩
  · cases saved with
    | error error =>
      refine ⟨_, rfl, (save_error hd hs).imp_right fun ⟨room, left, hleft⟩ => ?_⟩
      exact ⟨sequence, left, hleft, (number_of_nextSequence room.located hseq).1, room⟩
    | ok _ => cases hsaved

theorem Slot.keeps (slot : Slot made directory sequence) (text : String) :
    KeepsDirectories made (appended made directory text sequence) :=
  keepsDirectories_appended slot.temporary.free slot.record.free

theorem Slot.located (slot : Slot made directory sequence) (text : String) :
    (appended made directory text sequence).locate directory =
      .ok (made.placeOf directory, .directory) :=
  FileSystem.locate_of_keeps (slot.keeps text) rfl slot.record.located

/-- There is nothing under the name of the next record. -/
theorem Slot.free (slot : Slot made directory sequence) :
    made.node? (made.placeOf directory ++ [recordName sequence]) = none := by
  cases hn : made.node? (made.placeOf directory ++ [recordName sequence]) with
  | none => rfl
  | some node =>
    cases node with
    | directory => exact absurd hn slot.record.free
    | file content =>
      exact absurd (slot.next.after _ ⟨sequence, content⟩ ⟨sequenceOf?_recordName slot.bound, hn⟩)
        (Nat.lt_irrefl _)

/-- The records after a text has been put under a new number. -/
theorem recordAt_appended (hs : sequence ≤ maxSequence)
    (hnew : ∀ name record, RecordAt made directory name record → record.sequence < sequence)
    (name : String) (record : Filed) :
    RecordAt (appended made directory text sequence) directory name record ↔
      RecordAt made directory name record ∨
        (name = recordName sequence ∧ record = ⟨sequence, text.toUTF8⟩) := by
  have hne : made.placeOf directory ++ [name] ≠ [] := by simp
  have hnodes := node?_appended made directory text sequence hne
  simp only [List.append_cancel_left_eq, List.cons.injEq, and_true] at hnodes
  constructor
  · rintro ⟨hnumber, hnode⟩
    change (appended made directory text sequence).node? (made.placeOf directory ++ [name]) = _
      at hnode
    rw [hnodes] at hnode
    split at hnode
    · rename_i heq
      subst heq
      rw [sequenceOf?_recordName hs] at hnumber
      obtain ⟨number, content⟩ := record
      cases hnumber
      cases hnode
      exact .inr ⟨rfl, rfl⟩
    split at hnode
    · cases hnode
    · exact .inl ⟨hnumber, hnode⟩
  · rintro (hr | ⟨rfl, rfl⟩)
    · refine ⟨hr.number, hnodes.trans ?_⟩
      rw [if_neg, if_neg]
      · exact hr.node
      · rintro rfl
        exact absurd hr.number (by simp [sequenceOf?_temporary])
      · rintro rfl
        have hnumber := hr.number
        rw [sequenceOf?_recordName hs] at hnumber
        exact Nat.lt_irrefl _ ((Option.some.inj hnumber) ▸ hnew _ record hr)
    · exact ⟨sequenceOf?_recordName hs, hnodes.trans (if_pos rfl)⟩

/-! ## Removing all records -/

/-- What `clear` has done when it succeeds: the directory was there and nothing is left in it, or
it was not there. -/
theorem clear_ok (h : clear files directory = (.ok (), files')) :
    files.locate directory = .ok (files.placeOf directory, .directory) ∧
        (∀ name record, ¬RecordAt files' directory name record) ∧
        ((∃ place, files'.locate directory = .ok (place, .directory)) ∨
          files'.locate directory = .error .notFound) ∨
      files.locate directory = .error .notFound ∧ files' = files := by
  unfold clear at h
  split at h
  · rename_i removed hr
    cases h
    obtain ⟨place, hl, shrinks, hgone⟩ := FileSystem.removeAll_ok hr
    obtain ⟨-, hf, -⟩ := FileSystem.locate_ok hl
    obtain rfl := FileSystem.follow_eq_walk hf
    refine .inl ⟨hl, fun name record hat => ?_, ?_⟩
    · have hnode := hat.node
      rw [FileSystem.placeOf_of_workingDirectory shrinks.workingDirectory] at hnode
      exact absurd (hnode.symm.trans (hgone name)) (by simp)
    · exact (FileSystem.locate_of_shrinks shrinks hl).imp_left fun hl => ⟨_, hl⟩
  · rename_i removed hr
    cases h
    exact .inr (FileSystem.removeAll_notFound hr)
  · cases h

end ReplayShell.Store
