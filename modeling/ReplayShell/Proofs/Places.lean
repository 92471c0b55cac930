import ReplayShell.Files.FileSystem

/-!
# Following paths

Where a path leads depends on its names alone; the files only decide whether it can be followed.
So a path that can still be followed after a change leads where it led before.

* `Place.walk` goes along names without looking, `FileSystem.placeOf` along those of a path.
* `Path.IsName` are the names of single entries; `rawComponents_join` puts one below a path.
* `follow_eq_walk`, `follow_of_keeps`: a path that can be followed leads to its place, and a change
  that keeps every directory leaves it so.
* `read_join_iff` says when a file right below a directory can be read.
-/
namespace ReplayShell

/-! ## Names and paths -/

namespace Path

/-- A name that says one thing: an entry of the directory where it is looked up. -/
structure IsName (name : String) : Prop where
  ne_empty : name ≠ ""
  no_slash : '/' ∉ name.toList
  ne_dot : name ≠ "."
  ne_dots : name ≠ ".."

theorem cut_append (separator : Char) (a b : List Char) :
    Text.cut separator (a ++ separator :: b) = Text.cut separator a ++ Text.cut separator b := by
  induction a with
  | nil => simp [Text.cut]
  | cons c a ih =>
    simp only [List.cons_append, Text.cut]
    by_cases hc : c = separator
    · rw [if_pos hc, if_pos hc, ih, List.cons_append]
    · rw [if_neg hc, if_neg hc, ih]
      cases ha : Text.cut separator a with
      | nil => exact absurd ha (Text.cut_ne_nil separator a)
      | cons piece pieces => rfl

theorem cut_of_not_mem {separator : Char} {a : List Char} (h : separator ∉ a) :
    Text.cut separator a = [a] := by
  induction a with
  | nil => rfl
  | cons c a ih =>
    rw [List.mem_cons, not_or] at h
    rw [Text.cut, if_neg (Ne.symm h.1), ih h.2]

/-- The components of two texts with a slash between them. -/
theorem rawComponents_slash (a b : List Char) :
    rawComponents (String.ofList (a ++ '/' :: b)) =
      rawComponents (String.ofList a) ++ rawComponents (String.ofList b) := by
  simp only [rawComponents, String.toList_ofList, cut_append, List.map_append, List.filter_append]

theorem rawComponents_name {name : String} (h : IsName name) : rawComponents name = [name] := by
  have hne : name ≠ "" := h.ne_empty
  rw [rawComponents, cut_of_not_mem h.no_slash]
  simp [String.ofList_toList, hne]

theorem not_isAbsolute_name {name : String} (h : IsName name) : isAbsolute name = false := by
  refine decide_eq_false fun hd => h.no_slash ?_
  exact List.mem_of_mem_head? hd

/-- The text of a path with an entry below it: the slash is that of the path or a new one. -/
theorem toList_join {directory name : String} (hd : directory ≠ "") (h : IsName name) :
    ∃ front, (join directory name).toList = front ++ '/' :: name.toList ∧
      (directory.toList = front ∨ directory.toList = front ++ ['/']) := by
  unfold join
  rw [if_neg (by simp [not_isAbsolute_name h, hd])]
  split
  · rename_i hs
    have hl : directory.toList.getLast? = some '/' := of_decide_eq_true hs
    obtain ⟨front, hf⟩ := List.getLast?_eq_some_iff.1 hl
    exact ⟨front, by simp [String.toList_append, hf], .inr hf⟩
  · exact ⟨directory.toList, by simp [String.toList_append], .inl rfl⟩

/-- All entries of a directory come after the same text. -/
theorem toList_join_base {directory : String} (hd : directory ≠ "") :
    ∃ base, ∀ {name : String}, IsName name →
      (join directory name).toList = base ++ name.toList := by
  refine ⟨if namesDirectory directory then directory.toList else directory.toList ++ ['/'],
    fun {name} h => ?_⟩
  unfold join
  rw [if_neg (by simp [not_isAbsolute_name h, hd])]
  split <;> simp [String.toList_append]

theorem rawComponents_join {directory name : String} (hd : directory ≠ "") (h : IsName name) :
    rawComponents (join directory name) = rawComponents directory ++ [name] := by
  obtain ⟨front, hj, hf⟩ := toList_join hd h
  have hjoin : rawComponents (join directory name) = rawComponents (String.ofList front) ++ [name] := by
    rw [← String.ofList_toList (s := join directory name), hj, rawComponents_slash,
      String.ofList_toList, rawComponents_name h]
  rw [hjoin, ← String.ofList_toList (s := directory)]
  rcases hf with hf | hf
  · rw [hf]
  · rw [hf, rawComponents_slash, show rawComponents (String.ofList []) = [] from rfl,
      List.append_nil]

theorem isAbsolute_join {directory name : String} (hd : directory ≠ "") (h : IsName name) :
    isAbsolute (join directory name) = isAbsolute directory := by
  have hne : directory.toList ≠ [] := fun hn => hd (String.toList_eq_nil_iff.1 hn)
  obtain ⟨front, hj, hf⟩ := toList_join hd h
  unfold isAbsolute
  rw [hj]
  rcases hf with hf | hf
  · rw [hf]
    cases front with
    | nil => exact absurd hf hne
    | cons c front => rfl
  · rw [hf]
    cases front <;> rfl

/-- A path that ends with a name can lead to a file. -/
theorem not_namesDirectory_join {directory name : String} (hd : directory ≠ "") (h : IsName name) :
    namesDirectory (join directory name) = false := by
  obtain ⟨front, hj, -⟩ := toList_join hd h
  refine decide_eq_false fun hl => h.no_slash ?_
  have hne : name.toList ≠ [] := fun hn => h.ne_empty (String.toList_eq_nil_iff.1 hn)
  rw [hj, List.getLast?_append, List.getLast?_cons_of_ne_nil hne] at hl
  rw [List.getLast?_eq_some_getLast hne] at hl
  have hslash : name.toList.getLast hne = '/' := by simpa using hl
  exact hslash ▸ List.getLast_mem hne

end Path

/-! ## Following -/

/-- Where names lead from a place, whatever is there. -/
def Place.walk (place : Place) : List String → Place
  | [] => place
  | name :: rest =>
    if name = "." then walk place rest
    else if name = ".." then walk place.dropLast rest
    else walk (place ++ [name]) rest

theorem Place.walk_append (place : Place) (names more : List String) :
    Place.walk place (names ++ more) = Place.walk (Place.walk place names) more := by
  induction names generalizing place with
  | nil => rfl
  | cons name rest ih =>
    simp only [List.cons_append, walk]
    split
    · exact ih _
    split
    · exact ih _
    · exact ih _

namespace FileSystem

/-- The place that a path names. -/
def placeOf (files : FileSystem) (path : String) : Place :=
  Place.walk (files.start path) (Path.rawComponents path)

/-- What one step along a path does, if it can be done. -/
theorem follow_cons_ok {files : FileSystem} {place target : Place} {name : String}
    {rest : List String} (h : files.follow place (name :: rest) = .ok target) :
    files.node? place = some .directory ∧
      ((name = "." ∧ files.follow place rest = .ok target) ∨
        (name = ".." ∧ files.follow place.dropLast rest = .ok target) ∨
        (name ≠ "." ∧ name ≠ ".." ∧ Text.byteSize name.toList ≤ maxNameSize ∧
          (files.node? (place ++ [name])).isSome ∧
          files.follow (place ++ [name]) rest = .ok target)) := by
  unfold follow requireDirectory at h
  cases hn : files.node? place with
  | none => simp [hn] at h
  | some node =>
    cases node with
    | file content => simp [hn] at h
    | directory =>
      simp only [hn] at h
      refine ⟨rfl, ?_⟩
      split at h
      · exact .inl ⟨‹_›, h⟩
      split at h
      · exact .inr (.inl ⟨‹_›, h⟩)
      split at h
      · cases h
      split at h
      · exact .inr (.inr ⟨‹_›, ‹_›, by omega, ‹_›, h⟩)
      · cases h

theorem follow_eq_walk {files : FileSystem} {place target : Place} {names : List String}
    (h : files.follow place names = .ok target) : target = Place.walk place names := by
  induction names generalizing place with
  | nil => cases h; rfl
  | cons name rest ih =>
    obtain ⟨-, ⟨rfl, hr⟩ | ⟨rfl, hr⟩ | ⟨h₁, h₂, -, -, hr⟩⟩ := follow_cons_ok h
    · exact ih hr
    · exact ih hr
    · rw [Place.walk, if_neg h₁, if_neg h₂]
      exact ih hr

theorem follow_append (files : FileSystem) (place : Place) (names more : List String) :
    files.follow place (names ++ more) =
      match files.follow place names with
      | .error error => .error error
      | .ok target => files.follow target more := by
  induction names generalizing place with
  | nil => rfl
  | cons name rest ih =>
    simp only [List.cons_append, follow]
    cases files.requireDirectory place with
    | error error => rfl
    | ok _ =>
      dsimp only
      by_cases h₁ : name = "."
      · simp only [if_pos h₁, ih]
      by_cases h₂ : name = ".."
      · simp only [if_neg h₁, if_pos h₂, ih]
      by_cases h₃ : maxNameSize < Text.byteSize name.toList
      · simp only [if_neg h₁, if_neg h₂, if_pos h₃]
      by_cases h₄ : (files.node? (place ++ [name])).isSome = true
      · simp only [if_neg h₁, if_neg h₂, if_neg h₃, if_pos h₄, ih]
      · simp only [if_neg h₁, if_neg h₂, if_neg h₃, if_neg h₄]

/-- Every directory of the first is one of the second. -/
def KeepsDirectories (files files' : FileSystem) : Prop :=
  ∀ place, files.node? place = some .directory → files'.node? place = some .directory

theorem KeepsDirectories.refl (files : FileSystem) : KeepsDirectories files files :=
  fun _ h => h

theorem KeepsDirectories.trans {a b c : FileSystem} (h : KeepsDirectories a b)
    (h' : KeepsDirectories b c) : KeepsDirectories a c :=
  fun place hp => h' place (h place hp)

/-- A path to a directory leads through directories only, so it survives while they do. -/
theorem follow_of_keeps {files files' : FileSystem} (keeps : KeepsDirectories files files')
    {place target : Place} {names : List String} (h : files.follow place names = .ok target)
    (ht : files.node? target = some .directory) : files'.follow place names = .ok target := by
  induction names generalizing place with
  | nil => exact h
  | cons name rest ih =>
    obtain ⟨hp, hstep⟩ := follow_cons_ok h
    have hp' : files'.requireDirectory place = .ok () := by
      rw [requireDirectory, keeps place hp]
    rw [follow, hp']
    rcases hstep with ⟨rfl, hr⟩ | ⟨rfl, hr⟩ | ⟨h₁, h₂, hl, -, hr⟩
    · exact ih hr
    · exact ih hr
    · have hnext : (files'.node? (place ++ [name])).isSome := by
        cases rest with
        | nil =>
          cases hr
          rw [keeps _ ht]
          rfl
        | cons name' rest =>
          rw [keeps _ (follow_cons_ok hr).1]
          rfl
      simp only [if_neg h₁, if_neg h₂, if_neg (Nat.not_lt.2 hl), if_pos hnext]
      exact ih hr

/-! ## What is found at the end of a path -/

variable {files : FileSystem}

theorem requireDirectory_ok {place : Place} :
    files.requireDirectory place = .ok () ↔ files.node? place = some .directory := by
  unfold requireDirectory
  cases files.node? place with
  | none => simp
  | some node => cases node <;> simp

theorem node?_put (place other : Place) (node : Node) (h : other ≠ []) :
    (files.put place node).node? other = if place = other then some node else files.node? other := by
  simp only [node?, put, if_neg h, Std.ExtTreeMap.getElem?_insert, Std.compare_eq_iff_eq]

theorem locate_ok {path : String} {place : Place} {node : Node}
    (h : files.locate path = .ok (place, node)) :
    checkPath path = .ok () ∧
      files.follow (files.start path) (Path.rawComponents path) = .ok place ∧
      files.node? place = some node := by
  unfold locate at h
  split at h
  · cases h
  rename_i hc
  split at h
  · cases h
  rename_i target hf
  refine ⟨hc, ?_⟩
  split at h
  · cases h
  · rename_i hn
    cases h
    exact ⟨hf, hn⟩
  · rename_i content hn
    split at h
    · cases h
    · cases h
      exact ⟨hf, hn⟩

theorem locate_directory {path : String} {place : Place} (hc : checkPath path = .ok ())
    (hf : files.follow (files.start path) (Path.rawComponents path) = .ok place)
    (hn : files.node? place = some .directory) : files.locate path = .ok (place, .directory) := by
  simp only [locate, hc, hf, hn]

theorem locateParent_ok {path name : String} {parent : Place}
    (h : files.locateParent path = .ok (parent, name)) :
    checkPath path = .ok () ∧ (Path.rawComponents path).getLast? = some name ∧
      files.follow (files.start path) (Path.rawComponents path).dropLast = .ok parent ∧
      files.node? parent = some .directory ∧ Text.byteSize name.toList ≤ maxNameSize := by
  unfold locateParent at h
  split at h
  · cases h
  rename_i hc
  dsimp only at h
  split at h
  · cases h
  rename_i last hl
  split at h
  · cases h
  rename_i target hf
  split at h
  · cases h
  rename_i hd
  split at h
  · cases h
  · cases h
    exact ⟨hc, hl, hf, requireDirectory_ok.1 hd, by omega⟩

variable {directory name : String}

theorem start_join (hd : directory ≠ "") (h : Path.IsName name) :
    files.start (Path.join directory name) = files.start directory := by
  rw [start, start, Path.isAbsolute_join hd h]

theorem placeOf_join (files : FileSystem) (hd : directory ≠ "") (h : Path.IsName name) :
    files.placeOf (Path.join directory name) = files.placeOf directory ++ [name] := by
  rw [placeOf, start_join hd h, Path.rawComponents_join hd h, Place.walk_append, ← placeOf,
    Place.walk, if_neg h.ne_dot, if_neg h.ne_dots, Place.walk]

/-- A directory above a path that a file can have is such a path. -/
theorem checkPath_of_join (hd : directory ≠ "") (h : Path.IsName name)
    (hc : checkPath (Path.join directory name) = .ok ()) : checkPath directory = .ok () := by
  obtain ⟨front, hj, hf⟩ := Path.toList_join hd h
  unfold checkPath at hc ⊢
  rw [hj] at hc
  have hmem : ∀ c, c ∈ directory.toList → c ∈ front ++ '/' :: name.toList := by
    intro c hm
    rcases hf with hf | hf <;> rw [hf] at hm <;> simp only [List.mem_append, List.mem_cons] at hm ⊢
    · exact .inl hm
    · rcases hm with hm | hm | hm
      · exact .inl hm
      · exact .inr (.inl hm)
      · cases hm
  have hsize : Text.byteSize directory.toList ≤ Text.byteSize (front ++ '/' :: name.toList) := by
    rcases hf with hf | hf <;> rw [hf] <;> simp only [Text.byteSize_append, Text.byteSize] <;> omega
  split at hc
  · cases hc
  rename_i hnul
  split at hc
  · cases hc
  split at hc
  · cases hc
  rename_i hlong
  rw [if_neg fun hn => hnul (List.contains_iff_mem.2 (hmem _ (List.contains_iff_mem.1 hn))),
    if_neg hd, if_neg fun hn => hlong (Nat.le_trans hn hsize)]

/-- A name that is no longer than one with which a path can be had can be put in its place. -/
theorem checkPath_join_of_le {long : String} (hd : directory ≠ "") (h : Path.IsName name)
    (hl : Path.IsName long) (hnul : '\x00' ∉ name.toList)
    (hle : Text.byteSize name.toList ≤ Text.byteSize long.toList)
    (hc : checkPath (Path.join directory long) = .ok ()) :
    checkPath (Path.join directory name) = .ok () := by
  obtain ⟨base, hbase⟩ := Path.toList_join_base hd
  have hne : Path.join directory name ≠ "" := fun he => by
    have htext := hbase h
    rw [he] at htext
    exact h.ne_empty (String.toList_eq_nil_iff.1 (List.append_eq_nil_iff.1 htext.symm).2)
  unfold checkPath at hc ⊢
  rw [hbase hl] at hc
  rw [hbase h, if_neg hne]
  split at hc
  · cases hc
  rename_i hclean
  split at hc
  · cases hc
  split at hc
  · cases hc
  rename_i hroom
  rw [Text.byteSize_append] at hroom
  rw [if_neg, if_neg]
  · rw [Text.byteSize_append]
    omega
  · simp only [List.contains_iff_mem, List.mem_append] at hclean ⊢
    exact fun hm => hm.elim (fun hb => hclean (.inl hb)) hnul

/-- When the file of a name can be read in a directory. -/
theorem read_join_iff (hd : directory ≠ "") (h : Path.IsName name) (content : ByteArray) :
    files.read (Path.join directory name) = .ok content ↔
      checkPath (Path.join directory name) = .ok () ∧
        files.follow (files.start directory) (Path.rawComponents directory) =
          .ok (files.placeOf directory) ∧
        files.node? (files.placeOf directory) = some .directory ∧
        Text.byteSize name.toList ≤ maxNameSize ∧
        files.node? (files.placeOf directory ++ [name]) = some (.file content) := by
  constructor
  · intro hr
    unfold read at hr
    split at hr
    · cases hr
    · cases hr
    rename_i place found hl
    cases hr
    obtain ⟨hc, hf, hn⟩ := locate_ok hl
    rw [start_join hd h, Path.rawComponents_join hd h, follow_append] at hf
    split at hf
    · cases hf
    rename_i target ht
    obtain rfl := follow_eq_walk ht
    obtain ⟨hdir, ⟨hdot, -⟩ | ⟨hdots, -⟩ | ⟨-, -, hlen, -, hlast⟩⟩ := follow_cons_ok hf
    · exact absurd hdot h.ne_dot
    · exact absurd hdots h.ne_dots
    · cases hlast
      exact ⟨hc, ht, hdir, hlen, hn⟩
  · rintro ⟨hc, hf, hdir, hlen, hn⟩
    have hfollow : files.follow (files.start (Path.join directory name))
        (Path.rawComponents (Path.join directory name)) =
          .ok (files.placeOf directory ++ [name]) := by
      rw [start_join hd h, Path.rawComponents_join hd h, follow_append, hf]
      simp only [follow, requireDirectory, hdir, if_neg h.ne_dot, if_neg h.ne_dots,
        if_neg (Nat.not_lt.2 hlen), hn, Option.isSome_some, if_true]
    simp [read, locate, hc, hfollow, hn, Path.not_namesDirectory_join hd h]

end FileSystem

end ReplayShell
