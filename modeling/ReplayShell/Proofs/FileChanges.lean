import ReplayShell.Proofs.Places

/-!
# What changes of files leave alone

* `AddsDirectories`: a change that makes directories and does nothing else, as `makeDirectories`
  does even if it fails.
* `Room`: right below a directory a file can be written under a name. `writeThrough_join_ok` and
  `writeThrough_join_error` say what it comes to on any medium: the whole file, or an error, and
  then the file may be there with any bytes in it.
* `rename_join_ok`: what has been changed, and what was there, when a file right below a directory
  could be renamed; `rename_join`: when it can be.
* `removeAll_ok`: after a directory has been removed nothing is below it; by `locate_of_shrinks` its
  path leads to an empty directory or nowhere.
-/
namespace ReplayShell.FileSystem

variable {files files' : FileSystem}

theorem node?_eq_getElem? (files : FileSystem) {place : Place} (h : place ≠ []) :
    files.node? place = files.nodes[place]? := if_neg h

theorem node?_empty (place : Place) (name : String) : empty.node? (place ++ [name]) = none := by
  rw [node?_eq_getElem? _ (by simp)]
  simp [empty]

/-- A change of the file system that can be undone by removing directories. -/
structure AddsDirectories (files files' : FileSystem) : Prop where
  workingDirectory : files'.workingDirectory = files.workingDirectory
  nameless : files'.nameless = files.nameless
  medium : files'.medium = files.medium
  sameFiles : ∀ place content,
    files'.node? place = some (.file content) ↔ files.node? place = some (.file content)
  keeps : KeepsDirectories files files'

namespace AddsDirectories

theorem refl (files : FileSystem) : AddsDirectories files files :=
  ⟨rfl, rfl, rfl, fun _ _ => .rfl, .refl files⟩

theorem trans {a b c : FileSystem} (h : AddsDirectories a b) (h' : AddsDirectories b c) :
    AddsDirectories a c :=
  ⟨h'.workingDirectory.trans h.workingDirectory, h'.nameless.trans h.nameless,
    h'.medium.trans h.medium,
    fun place content => (h'.sameFiles place content).trans (h.sameFiles place content),
    h.keeps.trans h'.keeps⟩

theorem put {place : Place} (hfree : (files.node? place).isNone) :
    AddsDirectories files (files.put place .directory) := by
  refine ⟨rfl, rfl, rfl, fun other content => ?_, fun other hd => ?_⟩
  · by_cases ho : other = []
    · subst ho
      exact Iff.rfl
    rw [node?_put _ _ _ ho]
    by_cases hp : place = other
    · subst hp
      rw [if_pos rfl, Option.isNone_iff_eq_none.1 hfree]
      simp
    · rw [if_neg hp]
  · by_cases ho : other = []
    · subst ho
      exact hd
    rw [node?_put _ _ _ ho]
    by_cases hp : place = other
    · rw [if_pos hp]
    · rw [if_neg hp, hd]

end AddsDirectories

theorem makeDirectory_adds {path : String} (h : files.makeDirectory path = .ok files') :
    AddsDirectories files files' := by
  unfold makeDirectory at h
  split at h
  · cases h
  split at h
  · cases h
  split at h
  · cases h
  rename_i hs
  split at h
  · cases h
  · cases h
    exact .put (Option.not_isSome_iff_eq_none.1 hs ▸ rfl)

theorem makeAncestors_adds (files : FileSystem) (paths : List String) :
    AddsDirectories files (files.makeAncestors paths).2 := by
  induction paths generalizing files with
  | nil => exact .refl files
  | cons path above ih =>
    unfold makeAncestors
    split
    · rename_i h
      exact makeDirectory_adds h
    · have above := ih files
      revert above
      rcases makeAncestors files above with ⟨result, files₁⟩
      intro above
      cases result with
      | error error => exact above
      | ok _ =>
        dsimp only
        split
        · rename_i h
          exact above.trans (makeDirectory_adds h)
        · exact above
    · exact .refl files

theorem makeDirectories_adds (files : FileSystem) (path : String) :
    AddsDirectories files (files.makeDirectories path).2 := by
  unfold makeDirectories
  split
  · exact .refl files
  · exact makeAncestors_adds files _

/-- A directory that is there need not be made. -/
theorem makeDirectories_eq_of_isDirectory {path : String} (h : files.isDirectory path = true) :
    files.makeDirectories path = (.ok (), files) := by
  have hmake : files.makeDirectory path = .error .exists := by
    unfold isDirectory at h
    unfold makeDirectory
    split at h
    · rename_i hl
      rw [hl]
    · cases h
  unfold makeDirectories
  split
  · rfl
  · simp only [Path.ancestors, makeAncestors, hmake, h, if_true]

theorem makeDirectories_of_isDirectory {path : String} (h : files.isDirectory path = true) :
    (files.makeDirectories path).2 = files := by
  rw [makeDirectories_eq_of_isDirectory h]

section
variable {directory name : String}

theorem placeOf_of_workingDirectory (h : files'.workingDirectory = files.workingDirectory)
    (path : String) : files'.placeOf path = files.placeOf path := by
  unfold placeOf start
  rw [h]

/-- A file right below a directory can still be read after a change that keeps the directories and
the file. -/
theorem read_join_of_keeps (hd : directory ≠ "") (hn : Path.IsName name)
    (hw : files'.workingDirectory = files.workingDirectory) (keeps : KeepsDirectories files files')
    {content : ByteArray} (h : files.read (Path.join directory name) = .ok content)
    (hnode : files'.node? (files'.placeOf directory ++ [name]) = some (.file content)) :
    files'.read (Path.join directory name) = .ok content := by
  obtain ⟨hc, hf, hdir, hl, -⟩ := (read_join_iff hd hn content).1 h
  have hplace := placeOf_of_workingDirectory hw directory
  have hstart : files'.start directory = files.start directory := by rw [start, start, hw]
  refine (read_join_iff hd hn content).2 ⟨hc, ?_, ?_, hl, hnode⟩
  · rw [hstart, hplace]
    exact follow_of_keeps keeps hf hdir
  · rw [hplace]
    exact keeps _ hdir

theorem locateParent_join_ok (hd : directory ≠ "") (hn : Path.IsName name) {parent : Place}
    {last : String} (h : files.locateParent (Path.join directory name) = .ok (parent, last)) :
    last = name ∧ parent = files.placeOf directory ∧
      checkPath (Path.join directory name) = .ok () ∧
      files.follow (files.start directory) (Path.rawComponents directory) = .ok parent ∧
      files.node? parent = some .directory ∧ Text.byteSize name.toList ≤ maxNameSize := by
  obtain ⟨hc, hl, hf, hdir, hlen⟩ := locateParent_ok h
  rw [Path.rawComponents_join hd hn, List.getLast?_concat, Option.some.injEq] at hl
  subst hl
  rw [Path.rawComponents_join hd hn, List.dropLast_concat, start_join hd hn] at hf
  exact ⟨rfl, follow_eq_walk hf, hc, hf, hdir, hlen⟩

theorem locate_join_ok (hd : directory ≠ "") (hn : Path.IsName name) {place : Place} {node : Node}
    (h : files.locate (Path.join directory name) = .ok (place, node)) :
    place = files.placeOf directory ++ [name] ∧ files.node? place = some node := by
  obtain ⟨-, hf, hnode⟩ := locate_ok h
  exact ⟨(follow_eq_walk hf).trans (placeOf_join files hd hn), hnode⟩

theorem rename_join_ok {target : String} (hd : directory ≠ "") (hn : Path.IsName name)
    (ht : Path.IsName target)
    (h : files.rename (Path.join directory name) (Path.join directory target) = .ok files') :
    ∃ node, files.node? (files.placeOf directory ++ [name]) = some node ∧
      files.node? (files.placeOf directory ++ [target]) ≠ some .directory ∧
      checkPath (Path.join directory target) = .ok () ∧
      Text.byteSize target.toList ≤ maxNameSize ∧
      files.medium.rename (Path.join directory name) (Path.join directory target) = none ∧
      files' = files.move (files.placeOf directory ++ [name])
        (files.placeOf directory ++ [target]) node := by
  unfold rename at h
  split at h
  · cases h
  rename_i place node hl
  obtain ⟨rfl, hnode⟩ := locate_join_ok hd hn hl
  split at h
  · cases h
  rename_i parent last hp
  obtain ⟨rfl, rfl, hc, -, -, hlen⟩ := locateParent_join_ok hd ht hp
  split at h
  · cases h
  · cases h
  · rename_i htaken hfree
    cases h
    exact ⟨node, hnode, fun hdir => hfree hdir, hc, hlen, htaken, rfl⟩

/-! The same the other way: what can be done right below a directory that is there. -/

theorem locateParent_join {place : Place} (hd : directory ≠ "") (hn : Path.IsName name)
    (h : files.locate directory = .ok (place, .directory))
    (hc : checkPath (Path.join directory name) = .ok ())
    (hlen : Text.byteSize name.toList ≤ maxNameSize) :
    files.locateParent (Path.join directory name) = .ok (files.placeOf directory, name) := by
  obtain ⟨-, hf, hdir⟩ := locate_ok h
  obtain rfl : place = files.placeOf directory := follow_eq_walk hf
  unfold locateParent
  simp only [hc, Path.rawComponents_join hd hn, List.getLast?_concat, List.dropLast_concat,
    start_join hd hn, hf, requireDirectory_ok.2 hdir, if_neg (Nat.not_lt.2 hlen)]

theorem rename_join {target : String} {place : Place} {content : ByteArray} (hd : directory ≠ "")
    (hn : Path.IsName name) (ht : Path.IsName target)
    (h : files.locate directory = .ok (place, .directory))
    (hread : files.read (Path.join directory name) = .ok content)
    (hc : checkPath (Path.join directory target) = .ok ())
    (hlen : Text.byteSize target.toList ≤ maxNameSize)
    (hfree : files.node? (files.placeOf directory ++ [target]) ≠ some .directory)
    (htakes : files.medium.rename (Path.join directory name) (Path.join directory target) = none) :
    files.rename (Path.join directory name) (Path.join directory target) =
      .ok (files.move (files.placeOf directory ++ [name]) (files.placeOf directory ++ [target])
        (.file content)) := by
  have hlocate : files.locate (Path.join directory name) =
      .ok (files.placeOf directory ++ [name], .file content) := by
    unfold read at hread
    split at hread
    · cases hread
    · cases hread
    · rename_i found _ hl
      cases hread
      obtain ⟨rfl, -⟩ := locate_join_ok hd hn hl
      exact hl
  unfold rename
  simp only [hlocate, locateParent_join hd ht h hc hlen, htakes]

end

/-- What is where after something has been taken from one place and put at another. -/
theorem node?_move (files : FileSystem) (source target other : Place) (node : Node)
    (h : other ≠ []) :
    (files.move source target node).node? other =
      if target = other then some node
      else if source = other then none else files.node? other := by
  rw [node?_eq_getElem? _ h, node?_eq_getElem? _ h]
  simp only [move, Std.ExtTreeMap.getElem?_insert, Std.ExtTreeMap.getElem?_erase,
    Std.compare_eq_iff_eq]

/-- What is put at a place takes the place of what has been put there before. -/
theorem put_put (files : FileSystem) (place : Place) (node node' : Node) :
    (files.put place node).put place node' = files.put place node' := by
  have hnodes : (files.nodes.insert place node).insert place node' =
      files.nodes.insert place node' := by
    refine Std.ExtTreeMap.ext_getElem? fun other => ?_
    simp only [Std.ExtTreeMap.getElem?_insert]
    split <;> rfl
  simp only [put, hnodes]

/-! ## Writing a file through to the medium -/

/-- A directory where a file can be written under a name: the paths of both can be had, and no
directory is in the way. -/
structure Room (files : FileSystem) (directory name : String) : Prop where
  located : files.locate directory = .ok (files.placeOf directory, .directory)
  path : checkPath (Path.join directory name) = .ok ()
  short : Text.byteSize name.toList ≤ maxNameSize
  free : files.node? (files.placeOf directory ++ [name]) ≠ some .directory

theorem keepsDirectories_put {place : Place} (content : ByteArray)
    (h : files.node? place ≠ some .directory) :
    KeepsDirectories files (files.put place (.file content)) := by
  intro other hdir
  by_cases hroot : other = []
  · subst hroot
    rfl
  rw [node?_put _ _ _ hroot, if_neg]
  · exact hdir
  · rintro rfl
    exact h hdir

/-- A directory is found where it was after a change that keeps the directories. -/
theorem locate_of_keeps {directory : String} (keeps : KeepsDirectories files files')
    (hw : files'.workingDirectory = files.workingDirectory)
    (h : files.locate directory = .ok (files.placeOf directory, .directory)) :
    files'.locate directory = .ok (files'.placeOf directory, .directory) := by
  obtain ⟨hc, hf, hdir⟩ := locate_ok h
  have hstart : files'.start directory = files.start directory := by rw [start, start, hw]
  rw [placeOf_of_workingDirectory hw]
  exact locate_directory hc (hstart ▸ follow_of_keeps keeps hf hdir) (keeps _ hdir)

section
variable {directory name : String} {content : ByteArray}

theorem Room.put (room : Room files directory name) (content : ByteArray) :
    Room (files.put (files.placeOf directory ++ [name]) (.file content)) directory name := by
  have keeps := keepsDirectories_put content room.free
  refine ⟨locate_of_keeps keeps rfl room.located, room.path, room.short, ?_⟩
  change node? (files.put _ _) (files.placeOf directory ++ [name]) ≠ _
  rw [node?_put _ _ _ (by simp), if_pos rfl]
  simp

theorem write_join (hd : directory ≠ "") (hn : Path.IsName name)
    (room : Room files directory name) (content : ByteArray) :
    files.write (Path.join directory name) content =
      .ok (files.put (files.placeOf directory ++ [name]) (.file content)) := by
  have hfree := room.free
  unfold write
  simp only [locateParent_join hd hn room.located room.path room.short,
    Path.not_namesDirectory_join hd hn, hn.ne_dot, hn.ne_dots, decide_false, Bool.or_false,
    Bool.false_eq_true, if_false]

theorem write_join_ok (hd : directory ≠ "") (hn : Path.IsName name)
    (h : files.write (Path.join directory name) content = .ok files') :
    Room files directory name := by
  unfold write at h
  split at h
  · cases h
  rename_i parent last hp
  obtain ⟨rfl, rfl, hc, hf, hdir, hlen⟩ := locateParent_join_ok hd hn hp
  split at h
  · cases h
  split at h
  · cases h
  · rename_i hnode
    exact ⟨locate_directory (checkPath_of_join hd hn hc) hf hdir, hc, hlen, fun hn => hnode hn⟩

/-- Writing to a file that has been made: nothing keeps it from being there but the medium. -/
theorem writeThrough_of_room (hd : directory ≠ "") (hn : Path.IsName name)
    (room : Room files directory name) (content : ByteArray) :
    files.writeThrough (Path.join directory name) content =
      match files.medium.create (Path.join directory name),
          files.medium.write (Path.join directory name) content,
          files.medium.sync (Path.join directory name) with
      | some fault, _, _ => (.error (.medium fault), files)
      | none, some (fault, left), _ =>
        (.error (.medium fault), files.put (files.placeOf directory ++ [name]) (.file left))
      | none, none, some (fault, left) =>
        (.error (.medium fault), files.put (files.placeOf directory ++ [name]) (.file left))
      | none, none, none =>
        (.ok (), files.put (files.placeOf directory ++ [name]) (.file content)) := by
  have again : ∀ old new : ByteArray,
      (files.put (files.placeOf directory ++ [name]) (.file old)).write (Path.join directory name)
        new = .ok (files.put (files.placeOf directory ++ [name]) (.file new)) := by
    intro old new
    rw [write_join hd hn (room.put old), ← put_put files _ (.file old) (.file new)]
    rfl
  have hmedium : ∀ node, (files.put (files.placeOf directory ++ [name]) node).medium =
      files.medium := fun _ => rfl
  simp only [writeThrough, create, write_join hd hn room]
  cases files.medium.create (Path.join directory name) with
  | some fault => rfl
  | none =>
    simp only [fill, hmedium]
    cases files.medium.write (Path.join directory name) content with
    | some broken => simp only [struck, again]
    | none =>
      simp only [again, sync, hmedium]
      cases files.medium.sync (Path.join directory name) with
      | some broken => simp only [struck, again]
      | none => rfl

theorem writeThrough_without_room (hd : directory ≠ "") (hn : Path.IsName name)
    (h : ¬Room files directory name) (content : ByteArray) :
    ∃ error, files.writeThrough (Path.join directory name) content = (.error error, files) := by
  cases hw : files.write (Path.join directory name) ByteArray.empty with
  | ok made => exact absurd (write_join_ok hd hn hw) h
  | error error => exact ⟨error, by simp only [writeThrough, create, hw]⟩

/-- A file that has got through to the medium has all its bytes. -/
theorem writeThrough_join_ok (hd : directory ≠ "") (hn : Path.IsName name)
    (h : files.writeThrough (Path.join directory name) content = (.ok (), files')) :
    Room files directory name ∧
      files' = files.put (files.placeOf directory ++ [name]) (.file content) := by
  by_cases room : Room files directory name
  · rw [writeThrough_of_room hd hn room] at h
    refine ⟨room, ?_⟩
    split at h <;> cases h
    rfl
  · obtain ⟨error, he⟩ := writeThrough_without_room hd hn room content
    rw [he] at h
    cases h

/-- Where a file could not be written there is nothing new, or the file with any bytes in it. -/
theorem writeThrough_join_error {error : FileError} (hd : directory ≠ "") (hn : Path.IsName name)
    (h : files.writeThrough (Path.join directory name) content = (.error error, files')) :
    files' = files ∨ Room files directory name ∧
      ∃ left, files' = files.put (files.placeOf directory ++ [name]) (.file left) := by
  by_cases room : Room files directory name
  · rw [writeThrough_of_room hd hn room] at h
    split at h <;> cases h
    · exact .inl rfl
    · exact .inr ⟨room, _, rfl⟩
    · exact .inr ⟨room, _, rfl⟩
  · obtain ⟨error, he⟩ := writeThrough_without_room hd hn room content
    rw [he] at h
    cases h
    exact .inl rfl

end

/-! ## Removing -/

/-- A change that only removes. -/
structure Shrinks (files files' : FileSystem) : Prop where
  workingDirectory : files'.workingDirectory = files.workingDirectory
  node : ∀ place, files'.node? place = files.node? place ∨ files'.node? place = none

theorem Shrinks.trans {a b c : FileSystem} (h : Shrinks a b) (h' : Shrinks b c) : Shrinks a c := by
  refine ⟨h'.workingDirectory.trans h.workingDirectory, fun place => ?_⟩
  rcases h'.node place with hc | hc
  · rw [hc]
    exact h.node place
  · exact .inr hc

theorem shrinks_removeBelow (files : FileSystem) (place : Place) :
    Shrinks files (files.removeBelow place) := by
  refine ⟨rfl, fun other => ?_⟩
  by_cases ho : other = []
  · subst ho
    exact .inl rfl
  rw [node?_eq_getElem? _ ho, node?_eq_getElem? _ ho, removeBelow, removeSome,
    Std.ExtTreeMap.getElem?_filter']
  cases files.nodes[other]? with
  | none => exact .inr rfl
  | some node =>
    rw [Option.filter_some]
    split
    · exact .inl rfl
    · exact .inr rfl

theorem node?_removeBelow (files : FileSystem) (place : Place) (name : String) :
    (files.removeBelow place).node? (place ++ [name]) = none := by
  rw [node?_eq_getElem? _ (by simp), removeBelow, removeSome, Std.ExtTreeMap.getElem?_filter']
  cases files.nodes[place ++ [name]]? <;> simp

theorem shrinks_removeDirectory {path : String} (h : files.removeDirectory path = .ok files') :
    Shrinks files files' := by
  have erased : ∀ place,
      Shrinks files { files with nodes := files.nodes.erase place } := by
    refine fun place => ⟨rfl, fun other => ?_⟩
    by_cases ho : other = []
    · subst ho
      exact .inl rfl
    rw [node?_eq_getElem? _ ho, node?_eq_getElem? _ ho, Std.ExtTreeMap.getElem?_erase]
    split
    · exact .inr rfl
    · exact .inl rfl
  unfold removeDirectory at h
  split at h
  · cases h
  · cases h
  · split at h <;> cases h
  · split at h
    · cases h
    · cases h
      exact erased _

/-- What is left of a directory that has been removed: nothing right below it. -/
theorem removeAll_ok {path : String} (h : files.removeAll path = (.ok (), files')) :
    ∃ place, files.locate path = .ok (place, .directory) ∧ Shrinks files files' ∧
      ∀ name, files'.node? (place ++ [name]) = none := by
  unfold removeAll at h
  split at h
  · cases h
  · cases h
  rename_i place hl
  refine ⟨place, hl, ?_⟩
  have below := shrinks_removeBelow files place
  have gone := node?_removeBelow files place
  split at h
  · cases h
  dsimp only at h
  split at h
  · rename_i hr
    cases h
    have more := shrinks_removeDirectory hr
    refine ⟨below.trans more, fun name => ?_⟩
    rcases more.node (place ++ [name]) with hn | hn
    · rw [hn, gone]
    · exact hn
  · cases h
    exact ⟨below, gone⟩
  · cases h

/-- Only a path that leads nowhere is not found when it is to be removed. -/
theorem removeAll_notFound {path : String} (h : files.removeAll path = (.error .notFound, files')) :
    files.locate path = .error .notFound ∧ files' = files := by
  unfold removeAll at h
  split at h
  · rename_i hl
    cases h
    exact ⟨hl, rfl⟩
  · cases h
  · split at h
    · cases h
    dsimp only at h
    split at h
    · cases h
    · cases h
    · rename_i hne hr
      cases h
      exact (hne rfl).elim

/-- A path to a directory that may have lost some of its directories. -/
theorem follow_of_shrinks (shrinks : Shrinks files files') {place target : Place}
    {names : List String} (h : files.follow place names = .ok target) :
    files'.follow place names = .ok target ∨ files'.follow place names = .error .notFound := by
  induction names generalizing place with
  | nil => exact .inl h
  | cons name rest ih =>
    obtain ⟨hp, hstep⟩ := follow_cons_ok h
    rcases shrinks.node place with hs | hs
    · rw [follow, requireDirectory, hs, hp]
      rcases hstep with ⟨rfl, hr⟩ | ⟨rfl, hr⟩ | ⟨h₁, h₂, hl, -, hr⟩
      · exact ih hr
      · exact ih hr
      · simp only [if_neg h₁, if_neg h₂, if_neg (Nat.not_lt.2 hl)]
        split
        · exact ih hr
        · exact .inr rfl
    · right
      rw [follow, requireDirectory, hs]

theorem locate_of_shrinks (shrinks : Shrinks files files') {path : String} {place : Place}
    (h : files.locate path = .ok (place, .directory)) :
    files'.locate path = .ok (place, .directory) ∨ files'.locate path = .error .notFound := by
  obtain ⟨hc, hf, hn⟩ := locate_ok h
  have hstart : files'.start path = files.start path := by
    rw [start, start, shrinks.workingDirectory]
  rw [← hstart] at hf
  unfold locate
  rw [hc]
  rcases follow_of_shrinks shrinks hf with hf' | hf'
  · rw [hf']
    rcases shrinks.node place with hs | hs
    · left
      simp only [hs, hn]
    · right
      simp only [hs]
  · right
    simp only [hf']

end ReplayShell.FileSystem
