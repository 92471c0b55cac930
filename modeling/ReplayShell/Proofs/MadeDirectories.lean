import ReplayShell.Proofs.FileChanges

/-!
# Paths after directories have been made

Making directories never changes what a path leads to, if it led anywhere (`locate_of_adds`). A
path that led nowhere may lead somewhere now, and with two dots in it that can be any place: once
`gone` has been made, `gone/../store` is `store`.

* `Rooted` file systems are trees; `Direct` paths never go up.
* `missing_of_direct`: where a direct path into a tree leads nowhere nothing lies at its end, and
  when directories have been made it leads to one of them or nowhere still.
-/
namespace ReplayShell.FileSystem

variable {files files' : FileSystem}

theorem AddsDirectories.node {place : Place} {node : Node} (adds : AddsDirectories files files')
    (h : files.node? place = some node) : files'.node? place = some node := by
  cases node with
  | file content => exact (adds.sameFiles place content).2 h
  | directory => exact adds.keeps place h

theorem AddsDirectories.start (adds : AddsDirectories files files') (path : String) :
    files'.start path = files.start path := by
  rw [FileSystem.start, FileSystem.start, adds.workingDirectory]

theorem follow_of_adds (adds : AddsDirectories files files') {place : Place} {names : List String}
    (h : files.follow place names ≠ .error .notFound) :
    files'.follow place names = files.follow place names := by
  induction names generalizing place with
  | nil => rfl
  | cons name rest ih =>
    unfold follow requireDirectory at h ⊢
    cases hp : files.node? place with
    | none => simp [hp] at h
    | some node =>
      rw [adds.node hp]
      cases node with
      | file content => rfl
      | directory =>
        simp only [hp] at h ⊢
        by_cases hdot : name = "."
        · simp only [if_pos hdot] at h ⊢
          exact ih h
        by_cases hdots : name = ".."
        · simp only [if_neg hdot, if_pos hdots] at h ⊢
          exact ih h
        by_cases hlong : maxNameSize < Text.byteSize name.toList
        · simp only [if_neg hdot, if_neg hdots, if_pos hlong]
        simp only [if_neg hdot, if_neg hdots, if_neg hlong] at h ⊢
        cases hn : files.node? (place ++ [name]) with
        | none => simp [hn] at h
        | some next =>
          simp only [hn, adds.node hn, Option.isSome_some, if_true] at h ⊢
          exact ih h

/-- What a path leads to it still leads to when directories have been made. -/
theorem locate_of_adds (adds : AddsDirectories files files') {path : String}
    (h : files.locate path ≠ .error .notFound) : files'.locate path = files.locate path := by
  unfold locate at h ⊢
  cases hc : checkPath path with
  | error error => rfl
  | ok _ =>
    simp only [hc] at h ⊢
    have hf : files.follow (files.start path) (Path.rawComponents path) ≠ .error .notFound := by
      intro hf
      rw [hf] at h
      exact h rfl
    rw [adds.start, follow_of_adds adds hf]
    cases hr : files.follow (files.start path) (Path.rawComponents path) with
    | error error => rfl
    | ok place =>
      simp only [hr] at h ⊢
      cases hn : files.node? place with
      | none => simp [hn] at h
      | some node => rw [adds.node hn]

/-! ## Trees and paths that never go up -/

/-- A file system that is a tree: whatever is there lies in a directory. -/
def Rooted (files : FileSystem) : Prop :=
  ∀ place name, (files.node? (place ++ [name])).isSome → files.node? place = some .directory

/-- A path without two dots, of names that files can have. -/
structure Direct (path : String) : Prop where
  down : ".." ∉ Path.rawComponents path
  short : ∀ name ∈ Path.rawComponents path, Text.byteSize name.toList ≤ maxNameSize

theorem Rooted.missing_below (rooted : Rooted files) {place : Place}
    (h : files.node? place = none) (name : String) : files.node? (place ++ [name]) = none := by
  refine Option.not_isSome_iff_eq_none.1 fun hs => ?_
  rw [rooted place name hs] at h
  cases h

theorem Rooted.missing_walk (rooted : Rooted files) {place : Place} {names : List String}
    (down : ".." ∉ names) (h : files.node? place = none) :
    files.node? (place.walk names) = none := by
  induction names generalizing place with
  | nil => exact h
  | cons name rest ih =>
    rw [List.mem_cons, not_or] at down
    rw [Place.walk]
    split
    · exact ih down.2 h
    · rw [if_neg (Ne.symm down.1)]
      exact ih down.2 (rooted.missing_below h name)

/-- Where there was nothing there are only new directories. -/
theorem follow_of_missing (rooted : Rooted files) (adds : AddsDirectories files files')
    {place : Place} {names : List String} (down : ".." ∉ names)
    (short : ∀ name ∈ names, Text.byteSize name.toList ≤ maxNameSize)
    (h : files.node? place = none) :
    files'.follow place names = .ok (place.walk names) ∨
      files'.follow place names = .error .notFound := by
  induction names generalizing place with
  | nil => exact .inl rfl
  | cons name rest ih =>
    rw [List.mem_cons, not_or] at down
    have hlen := short name List.mem_cons_self
    have ih := fun {place} => @ih place down.2 fun name hm => short name (List.mem_cons_of_mem _ hm)
    unfold follow requireDirectory
    cases hp : files'.node? place with
    | none => exact .inr rfl
    | some node =>
      cases node with
      | file content =>
        rw [(adds.sameFiles place content).1 hp] at h
        cases h
      | directory =>
        dsimp only
        rw [Place.walk]
        by_cases hdot : name = "."
        · rw [if_pos hdot, if_pos hdot]
          exact ih h
        rw [if_neg hdot, if_neg hdot, if_neg (Ne.symm down.1), if_neg (Ne.symm down.1),
          if_neg (Nat.not_lt.2 hlen)]
        split
        · exact ih (rooted.missing_below h name)
        · exact .inr rfl

/-- At the end of a path that leads nowhere there is nothing, and then at most a new directory. -/
theorem follow_of_notFound (rooted : Rooted files) (adds : AddsDirectories files files')
    {place : Place} {names : List String} (down : ".." ∉ names)
    (short : ∀ name ∈ names, Text.byteSize name.toList ≤ maxNameSize)
    (h : files.follow place names = .error .notFound) :
    files.node? (place.walk names) = none ∧
      (files'.follow place names = .ok (place.walk names) ∨
        files'.follow place names = .error .notFound) := by
  induction names generalizing place with
  | nil => cases h
  | cons name rest ih =>
    cases hp : files.node? place with
    | none => exact ⟨rooted.missing_walk down hp, follow_of_missing rooted adds down short hp⟩
    | some node =>
      rw [List.mem_cons, not_or] at down
      have hlen := short name List.mem_cons_self
      have hrest : ∀ name ∈ rest, Text.byteSize name.toList ≤ maxNameSize :=
        fun name hm => short name (List.mem_cons_of_mem _ hm)
      rw [follow, requireDirectory, hp] at h
      rw [follow, requireDirectory, adds.node hp, Place.walk]
      cases node with
      | file content => cases h
      | directory =>
        dsimp only at h ⊢
        by_cases hdot : name = "."
        · simp only [if_pos hdot] at h ⊢
          exact ih down.2 hrest h
        simp only [if_neg hdot, if_neg (Ne.symm down.1), if_neg (Nat.not_lt.2 hlen)] at h ⊢
        cases hn : files.node? (place ++ [name]) with
        | some node =>
          rw [hn, Option.isSome_some, if_pos rfl] at h
          rw [adds.node hn, Option.isSome_some, if_pos rfl]
          exact ih down.2 hrest h
        | none =>
          refine ⟨rooted.missing_walk down.2 hn, ?_⟩
          split
          · exact follow_of_missing rooted adds down.2 hrest hn
          · exact .inr rfl

theorem checkPath_ne_notFound {path : String} (named : path ≠ "") :
    checkPath path ≠ .error .notFound := by
  unfold checkPath
  split
  · simp
  · split <;> simp

/-- Where a direct path into a tree leads nowhere nothing lies, and only a directory can come. -/
theorem missing_of_direct (rooted : Rooted files) (adds : AddsDirectories files files')
    {path : String} (named : path ≠ "") (direct : Direct path)
    (h : files.locate path = .error .notFound) :
    files.node? (files.placeOf path) = none ∧
      (files'.locate path = .ok (files.placeOf path, .directory) ∨
        files'.locate path = .error .notFound) := by
  have hc : checkPath path = .ok () := by
    cases hc : checkPath path with
    | ok _ => rfl
    | error error =>
      simp only [locate, hc, Except.error.injEq] at h
      exact absurd (h ▸ hc) (checkPath_ne_notFound named)
  have hmissing : files.node? (files.placeOf path) = none ∧
      (files'.follow (files.start path) (Path.rawComponents path) = .ok (files.placeOf path) ∨
        files'.follow (files.start path) (Path.rawComponents path) = .error .notFound) := by
    unfold locate at h
    simp only [hc] at h
    cases hf : files.follow (files.start path) (Path.rawComponents path) with
    | error error =>
      simp only [hf] at h
      cases h
      exact follow_of_notFound rooted adds direct.down direct.short hf
    | ok place =>
      have hplace : place = files.placeOf path := follow_eq_walk hf
      subst hplace
      refine ⟨?_, .inl ((follow_of_adds adds (by simp [hf])).trans hf)⟩
      simp only [hf] at h
      split at h
      · assumption
      · cases h
      · split at h <;> cases h
  refine ⟨hmissing.1, ?_⟩
  unfold locate
  rw [hc, adds.start]
  rcases hmissing.2 with hf | hf
  · simp only [hf]
    cases hn : files'.node? (files.placeOf path) with
    | none => exact .inr rfl
    | some node =>
      cases node with
      | directory => exact .inl rfl
      | file content =>
        have hfile := (adds.sameFiles _ _).1 hn
        rw [hmissing.1] at hfile
        cases hfile
  · simp only [hf, or_true]

end ReplayShell.FileSystem
