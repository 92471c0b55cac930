import Mathlib.Data.List.Nodup
import ReplayShell.Program.Resolution

/-!
# What names stand for, by the text alone

Which declaration a name stands for can be told from the text before it: it is the nearest one of
the name whose block is still open. No table of names is kept for that; the text is looked through
backwards.

* `Scoping` is what matters of a text: where blocks are opened and closed, where names are declared
  and where they are used.
* `slotOf` counts the declarations before one and so numbers it, `nearest` finds the declaration for
  a use, `sitesOf` does both for a whole text.
* `Site` is a place of a resolved program where a variable stands.
* `Lexical` says that the variables of a resolved text are those found so, that no two declarations
  share a slot and that the frame has room for all; `Lexical.of_agrees`: the first is enough.
-/
namespace ReplayShell.Program

/-- What a text does to names. -/
inductive Scoping where
  | opens
  | closes
  | declares (name : String)
  | uses (name : String)
  deriving DecidableEq, Repr

/-- What the text of a frame starts from: the submission that it belongs to, the number of the next
global variable, and what the names stand for that the text itself does not declare. -/
structure Origin where
  generation : Nat
  first : Nat := 0
  earlier : String → Option Slot

/-! ## Looking backwards

The text before a place is given with its end first. -/

/-- How many blocks are open. -/
def depth : List Scoping → Nat
  | [] => 0
  | .opens :: behind => depth behind + 1
  | .closes :: behind => depth behind - 1
  | .declares _ :: behind | .uses _ :: behind => depth behind

/-- How many variables have been declared in blocks. -/
def localCount : List Scoping → Nat
  | [] => 0
  | .declares _ :: behind => if depth behind = 0 then localCount behind else localCount behind + 1
  | .opens :: behind | .closes :: behind | .uses _ :: behind => localCount behind

/-- How many variables have been declared outside of blocks. -/
def globalCount : List Scoping → Nat
  | [] => 0
  | .declares _ :: behind => if depth behind = 0 then globalCount behind + 1 else globalCount behind
  | .opens :: behind | .closes :: behind | .uses _ :: behind => globalCount behind

/-- The slot of the variable that is declared next: it is numbered by the declarations before it. -/
def slotOf (origin : Origin) (behind : List Scoping) : Slot :=
  if depth behind = 0 then .global ⟨origin.generation, origin.first + globalCount behind⟩
  else .local (localCount behind)

/-- The slot of the nearest declaration of the name whose block is still open. As many blocks as
given have been passed that were closed again, and what they declare does not count. -/
def nearest (origin : Origin) (name : String) : List Scoping → Nat → Option Slot
  | [], _ => none
  | .closes :: behind, closed => nearest origin name behind (closed + 1)
  | .opens :: behind, closed => nearest origin name behind (closed - 1)
  | .uses _ :: behind, closed => nearest origin name behind closed
  | .declares other :: behind, closed =>
    if closed = 0 ∧ other = name then some (slotOf origin behind)
    else nearest origin name behind closed

/-- What a name stands for behind a text. -/
def lookup (origin : Origin) (behind : List Scoping) (name : String) : Option Slot :=
  (nearest origin name behind 0).or (origin.earlier name)

/-- What a text starts from that comes behind another. -/
def Origin.after (origin : Origin) (text : List Scoping) : Origin where
  generation := origin.generation
  first := origin.first + globalCount text.reverse
  earlier := lookup origin text.reverse

/-! ## Places where variables stand -/

/-- A place of a resolved program where a variable stands. -/
inductive Site where
  | declared (ref : VariableRef)
  | used (ref : VariableRef)
  deriving DecidableEq, Repr

/-- The slot of the variable. -/
def Site.slot : Site → Slot
  | .declared ref | .used ref => ref.slot

/-- The slot of the variable that is declared there. -/
def Site.newSlot? : Site → Option Slot
  | .declared ref => some ref.slot
  | .used _ => none

/-- The places of a text behind another, in order; nothing for a name that stands for nothing. -/
def sitesOf (origin : Origin) : List Scoping → List Scoping → List (Option Site)
  | _, [] => []
  | behind, .opens :: ahead => sitesOf origin (.opens :: behind) ahead
  | behind, .closes :: ahead => sitesOf origin (.closes :: behind) ahead
  | behind, .declares name :: ahead =>
    some (.declared ⟨name, slotOf origin behind⟩) :: sitesOf origin (.declares name :: behind) ahead
  | behind, .uses name :: ahead =>
    (lookup origin behind name).map (fun slot => .used ⟨name, slot⟩) ::
      sitesOf origin (.uses name :: behind) ahead

/-- The variables of a resolved text are those that the text itself tells; no two declarations share
a slot; and a frame of the size has room for all of them. -/
structure Lexical (origin : Origin) (text : List Scoping) (sites : List Site) (size : Nat) :
    Prop where
  agrees : sites.map some = sitesOf origin [] text
  apart : (sites.filterMap Site.newSlot?).Nodup
  below : ∀ site ∈ sites, ∀ index, site.slot = .local index → index < size

variable {origin : Origin} {name : String} {behind ahead : List Scoping} {index : Nat}

theorem sitesOf_append (origin : Origin) (behind text ahead : List Scoping) :
    sitesOf origin behind (text ++ ahead) =
      sitesOf origin behind text ++ sitesOf origin (text.reverse ++ behind) ahead := by
  induction text generalizing behind with
  | nil => rfl
  | cons mark text ih => cases mark <;> simp [sitesOf, ih]

/-! ## Slots are counted up -/

/-- The slot is not taken yet. -/
def Free (origin : Origin) (behind : List Scoping) : Slot → Prop
  | .local index => localCount behind ≤ index
  | .global id => origin.first + globalCount behind ≤ id.ordinal

theorem free_slotOf (origin : Origin) (behind : List Scoping) :
    Free origin behind (slotOf origin behind) := by
  unfold slotOf
  split <;> exact Nat.le_refl _

/-- A slot that is not taken later was not taken before. -/
theorem free_cons {mark : Scoping} {slot : Slot} (h : Free origin (mark :: behind) slot) :
    Free origin behind slot := by
  cases mark <;> cases slot <;> simp only [Free, localCount, globalCount] at h ⊢
  all_goals first | exact h | (split at h <;> omega)

theorem not_free_slotOf (origin : Origin) (name : String) (behind : List Scoping) :
    ¬Free origin (.declares name :: behind) (slotOf origin behind) := by
  unfold slotOf
  split <;> rename_i hd <;> simp [Free, localCount, globalCount, hd]

/-- What a text declares was not taken before it. -/
theorem free_sitesOf (origin : Origin) (behind ahead : List Scoping) :
    ∀ site, some site ∈ sitesOf origin behind ahead → ∀ slot, site.newSlot? = some slot →
      Free origin behind slot := by
  induction ahead generalizing behind with
  | nil => exact fun _ h => absurd h List.not_mem_nil
  | cons mark ahead ih =>
    intro site hm slot hs
    have later : some site ∈ sitesOf origin (mark :: behind) ahead → Free origin behind slot :=
      fun h => free_cons (ih _ site h slot hs)
    cases mark with
    | opens | closes => exact later hm
    | declares name =>
      rcases List.mem_cons.1 hm with heq | hm
      · cases heq
        cases hs
        exact free_slotOf origin behind
      · exact later hm
    | uses name =>
      rcases List.mem_cons.1 hm with heq | hm
      · obtain ⟨_, -, rfl⟩ := Option.map_eq_some_iff.1 heq.symm
        cases hs
      · exact later hm

/-- A declaration that is found has been counted. -/
theorem lt_localCount_of_nearest {closed : Nat}
    (h : nearest origin name behind closed = some (.local index)) : index < localCount behind := by
  induction behind generalizing closed with
  | nil => cases h
  | cons mark behind ih =>
    cases mark with
    | opens | closes | uses => exact ih h
    | declares other =>
      rw [nearest] at h
      rw [localCount]
      split at h
      · rw [slotOf] at h
        split at h
        · cases h
        · rename_i hd
          cases h
          rw [if_neg hd]
          exact Nat.lt_succ_self _
      · have := ih h
        split <;> omega

theorem localCount_le_append (behind : List Scoping) :
    ∀ text : List Scoping, localCount behind ≤ localCount (text ++ behind)
  | [] => Nat.le_refl _
  | mark :: text => by
    have := localCount_le_append behind text
    cases mark <;> simp only [List.cons_append, localCount]
    all_goals first | exact this | (split <;> omega)

/-- The frame has room for all variables of a text. -/
theorem below_sitesOf (hlocal : ∀ name index, origin.earlier name ≠ some (.local index))
    (behind ahead : List Scoping) :
    ∀ site, some site ∈ sitesOf origin behind ahead → ∀ index, site.slot = .local index →
      index < localCount (ahead.reverse ++ behind) := by
  induction ahead generalizing behind with
  | nil => exact fun _ h => absurd h List.not_mem_nil
  | cons mark ahead ih =>
    intro site hm index hs
    have hend : (mark :: ahead).reverse ++ behind = ahead.reverse ++ mark :: behind := by simp
    rw [hend]
    have later : some site ∈ sitesOf origin (mark :: behind) ahead →
        index < localCount (ahead.reverse ++ mark :: behind) := fun h => ih _ site h index hs
    have hle := localCount_le_append (mark :: behind) ahead.reverse
    cases mark with
    | opens | closes => exact later hm
    | declares name =>
      rcases List.mem_cons.1 hm with heq | hm
      · cases heq
        have hslot : slotOf origin behind = .local index := hs
        rw [slotOf] at hslot
        split at hslot
        · cases hslot
        · rename_i hd
          cases hslot
          rw [localCount, if_neg hd] at hle
          omega
      · exact later hm
    | uses name =>
      rcases List.mem_cons.1 hm with heq | hm
      · obtain ⟨slot, hslot, rfl⟩ := Option.map_eq_some_iff.1 heq.symm
        have hs : slot = .local index := hs
        subst hs
        rcases Option.or_eq_some_iff.1 hslot with hn | ⟨-, he⟩
        · exact Nat.lt_of_lt_of_le (lt_localCount_of_nearest hn) hle
        · exact absurd he (hlocal name index)
      · exact later hm

/-- No two declarations of a text share a slot. -/
theorem apart_sitesOf (origin : Origin) (behind ahead : List Scoping) (sites : List Site)
    (h : sites.map some = sitesOf origin behind ahead) :
    (sites.filterMap Site.newSlot?).Nodup := by
  induction ahead generalizing behind sites with
  | nil =>
    rw [List.map_eq_nil_iff.1 h]
    exact List.nodup_nil
  | cons mark ahead ih =>
    cases mark with
    | opens | closes => exact ih _ sites h
    | declares name =>
      obtain ⟨site, more, rfl, hsite, hmore⟩ := List.map_eq_cons_iff.1 h
      cases hsite
      refine List.nodup_cons.2 ⟨fun hm => ?_, ih _ more hmore⟩
      obtain ⟨other, ho, hs⟩ := List.mem_filterMap.1 hm
      have ho : some other ∈ sitesOf origin (.declares name :: behind) ahead :=
        hmore ▸ List.mem_map_of_mem ho
      exact not_free_slotOf origin name behind (free_sitesOf _ _ _ other ho _ hs)
    | uses name =>
      obtain ⟨site, more, rfl, hsite, hmore⟩ := List.map_eq_cons_iff.1 h
      obtain ⟨_, -, rfl⟩ := Option.map_eq_some_iff.1 hsite.symm
      exact ih _ more hmore

/-- It is enough that the variables are those that the text tells. -/
theorem Lexical.of_agrees {text : List Scoping} {sites : List Site} {size : Nat}
    (hlocal : ∀ name index, origin.earlier name ≠ some (.local index))
    (hsize : size = localCount text.reverse) (h : sites.map some = sitesOf origin [] text) :
    Lexical origin text sites size where
  agrees := h
  apart := apart_sitesOf origin [] text sites h
  below site hm index hs := by
    have := below_sitesOf hlocal [] text site (h ▸ List.mem_map_of_mem hm) index hs
    rwa [List.append_nil, ← hsize] at this

end ReplayShell.Program
