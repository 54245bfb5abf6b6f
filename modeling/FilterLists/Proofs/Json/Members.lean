/-
This file is about objects whose members are written in any order, with members among them that
the object does not know. A known member is looked up by its name, and the lookup takes all members
of that name into account, so what it finds is the same for every order, and the same with or
without members of other names.
-/

import FilterLists.Json.Definite
import Mathlib.Data.List.Basic

namespace FilterLists.Json

/-! ### Foreign members -/

/-- A string that says something, a truth value or null. -/
inductive Value.IsSimple : Value → Prop
  | text (content : String) : IsSimple (.text content)
  | boolean (value : Bool) : IsSimple (.boolean value)
  | null : IsSimple .null

/-- A member of a name that is not among the known ones, with a simple value. -/
structure IsForeign (known : List String) (found : Content × Value) : Prop where
  unknown : ∃ name, found.1 = some name ∧ name ∉ known
  simple : found.2.IsSimple

/-- Members in any order, with any foreign members among them. -/
def Scattered (known : List String) (members found : List (Content × Value)) : Prop :=
  ∃ foreign, (∀ other ∈ foreign, IsForeign known other) ∧ found.Perm (members ++ foreign)

theorem IsForeign.isSome {known : List String} {found : Content × Value}
    (isForeign : IsForeign known found) : found.1.isSome = true := by
  obtain ⟨name, named, _⟩ := isForeign.unknown
  rw [named]
  rfl

theorem IsForeign.fits {known : List String} {found : Content × Value}
    (isForeign : IsForeign known found) :
    found.2.isDefinite = true ∧ found.2.depth = 0 := by
  obtain ⟨name, value⟩ := found
  cases isForeign.simple with
  | text content => exact ⟨rfl, rfl⟩
  | boolean truth => exact ⟨rfl, rfl⟩
  | null => exact ⟨rfl, rfl⟩

/-! ### Lookup -/

theorem unique?_eq_of_perm {name : String} {members found : List (Content × Value)}
    (perm : (found.filter fun member => member.1 == some name).Perm
      (members.filter fun member => member.1 == some name)) :
    Value.unique? name found = Value.unique? name members := by
  unfold Value.unique?
  generalize members.filter (fun member => member.1 == some name) = ofName at perm ⊢
  generalize found.filter (fun member => member.1 == some name) = foundOfName at perm ⊢
  match ofName, perm with
  | [], perm => rw [perm.eq_nil]
  | [only], perm => rw [perm.eq_singleton]
  | _ :: _ :: _, perm =>
    match foundOfName, perm.length_eq with
    | _ :: _ :: _, _ => rfl

namespace Scattered

variable {known : List String} {members found : List (Content × Value)}

theorem refl (known : List String) (members : List (Content × Value)) :
    Scattered known members members :=
  ⟨[], fun _ isOther => absurd isOther List.not_mem_nil, by rw [List.append_nil]⟩

/-- Members of which some are dropped by a condition on them that holds for no foreign member stay
the same members, without the foreign ones. -/
theorem filter_perm (scattered : Scattered known members found) {keeps : Content × Value → Bool}
    (drops : ∀ other, IsForeign known other → keeps other = false) :
    (found.filter keeps).Perm (members.filter keeps) := by
  obtain ⟨foreign, areForeign, perm⟩ := scattered
  have none_kept : foreign.filter keeps = [] :=
    List.filter_eq_nil_iff.mpr fun other isOther => by simp [drops other (areForeign other isOther)]
  have kept := perm.filter keeps
  rwa [List.filter_append, none_kept, List.append_nil] at kept

theorem filter (scattered : Scattered known members found) (keeps : Content × Value → Bool) :
    Scattered known (members.filter keeps) (found.filter keeps) := by
  obtain ⟨foreign, areForeign, perm⟩ := scattered
  refine ⟨foreign.filter keeps, fun other isOther => ?_, ?_⟩
  · exact areForeign other (List.mem_of_mem_filter isOther)
  · rw [← List.filter_append]
    exact perm.filter keeps

theorem unique?_eq (scattered : Scattered known members found) {name : String}
    (isKnown : name ∈ known) : Value.unique? name found = Value.unique? name members := by
  refine unique?_eq_of_perm (scattered.filter_perm fun other isForeign => ?_)
  obtain ⟨otherName, named, unknown⟩ := isForeign.unknown
  have different : otherName ≠ name := by
    rintro rfl
    exact unknown isKnown
  simp [named, different]

theorem forall_mem (scattered : Scattered known members found) {holds : Content × Value → Prop}
    (forForeign : ∀ other, IsForeign known other → holds other)
    (forMembers : ∀ member ∈ members, holds member) : ∀ member ∈ found, holds member := by
  obtain ⟨foreign, areForeign, perm⟩ := scattered
  intro member isMember
  obtain known | isOther := List.mem_append.mp (perm.mem_iff.mp isMember)
  · exact forMembers member known
  · exact forForeign member (areForeign member isOther)

theorem mapM_congr {Item Kept : Type} {read? other? : Item → Option Kept} {items : List Item}
    (same : ∀ item ∈ items, read? item = other? item) : items.mapM read? = items.mapM other? := by
  induction items with
  | nil => rfl
  | cons item rest inductionHypothesis =>
    obtain ⟨itemSame, restSame⟩ := List.forall_mem_cons.mp same
    rw [List.mapM_cons, List.mapM_cons, itemSame, inductionHypothesis restSame]

/-- The known fields of an object are found wherever they stand, and nothing else is. -/
theorem fields?_eq (scattered : Scattered known members found) {names : List String}
    (areKnown : ∀ name ∈ names, name ∈ known)
    (named : ∀ member ∈ members, member.1.isSome = true) :
    (Value.object found).fields? names = names.mapM fun name => Value.unique? name members := by
  have foundNamed : (found.all fun member => member.1.isSome) = true :=
    List.all_eq_true.mpr (scattered.forall_mem (fun _ isForeign => isForeign.isSome) named)
  rw [Value.fields?, if_pos foundNamed]
  exact mapM_congr fun name isName => scattered.unique?_eq (areKnown name isName)

end Scattered

/-! ### What can be held -/

theorem membersAreDefinite_iff {members : List (Content × Value)} :
    membersAreDefinite members = true ↔
      ∀ member ∈ members, member.1.isSome = true ∧ member.2.isDefinite = true := by
  induction members with
  | nil => simp [membersAreDefinite]
  | cons member rest inductionHypothesis => simp [membersAreDefinite, inductionHypothesis]

theorem depthOfMembers_le_iff {members : List (Content × Value)} {bound : Nat} :
    depthOfMembers members ≤ bound ↔ ∀ member ∈ members, member.2.depth ≤ bound := by
  induction members with
  | nil => simp [depthOfMembers]
  | cons member rest inductionHypothesis =>
    rw [depthOfMembers, Nat.max_le, inductionHypothesis, List.forall_mem_cons]

/-- Foreign members are strings that say something or have nothing inside, so an object can be held
with them if it can be held without them. -/
theorem Scattered.fits {known : List String} {members found : List (Content × Value)}
    {bound : Nat} (scattered : Scattered known members found)
    (fit : ∀ member ∈ members,
      member.1.isSome = true ∧ member.2.isDefinite = true ∧ member.2.depth ≤ bound) :
    (Value.object found).isDefinite = true ∧ (Value.object found).depth ≤ bound + 1 := by
  have each := scattered.forall_mem
    (fun other isForeign => ⟨isForeign.isSome, isForeign.fits.1,
      isForeign.fits.2 ▸ Nat.zero_le bound⟩) fit
  refine ⟨membersAreDefinite_iff.mpr fun member isMember => ?_,
    Nat.add_le_add_right (depthOfMembers_le_iff.mpr fun member isMember => ?_) 1⟩
  · exact ⟨(each member isMember).1, (each member isMember).2.1⟩
  · exact (each member isMember).2.2

end FilterLists.Json
