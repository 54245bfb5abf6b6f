/-
This file shows how paths are made up. The directories that a path leads through are given by what
stands before its slashes, and paths that only differ in how their last name ends lead through
the same directories.
-/

import FilterLists.Files.Path
import FilterLists.Proofs.Text.Split

namespace FilterLists.Path

/-! ### Names -/

theorem names_append_cons (front back : List Char) :
    names (front ++ '/' :: back) = names front ++ names back := by
  unfold names
  rw [Text.splitOn_append_cons, List.filter_append]

/-- How a name can end that certainly is no name of a directory that is always there: neither
with a slash nor with nothing but dots. -/
structure IsEnding (ending : String) : Prop where
  slash_not_mem : '/' ∉ ending.toList
  long : 2 < ending.toList.length

/-- The names of a path, and of the path with more at its end: only the last name differs, which is
empty if the path ends with a slash. -/
theorem exists_names (base : String) :
    ∃ front last, names base.toList = front ++ [last].filter (fun name => !name.isEmpty) ∧
      ∀ ending, IsEnding ending →
        names (base ++ ending).toList = front ++ [last ++ ending.toList] := by
  obtain ⟨front, last, splits⟩ := Text.exists_splitOn_append '/' base.toList
  refine ⟨front.filter fun name => !name.isEmpty, last, ?_, fun ending isEnding => ?_⟩
  · have split := splits [] List.not_mem_nil
    rw [List.append_nil, List.append_nil] at split
    unfold names
    rw [split, List.filter_append]
  · have long := isEnding.long
    have nonempty : last ++ ending.toList ≠ [] := by
      intro empty
      have lengths := congrArg List.length empty
      simp only [List.length_append, List.length_nil] at lengths
      omega
    unfold names
    rw [String.toList_append, splits _ isEnding.slash_not_mem, List.filter_append]
    simp [nonempty]

theorem exists_names_append (base : String) :
    ∃ front last, ∀ ending, IsEnding ending →
      names (base ++ ending).toList = front ++ [last ++ ending.toList] := by
  obtain ⟨front, last, -, appended⟩ := exists_names base
  exact ⟨front, last, appended⟩

theorem IsEnding.append_ne_dots {ending : String} (isEnding : IsEnding ending)
    (last : List Char) : last ++ ending.toList ≠ ['.'] ∧ last ++ ending.toList ≠ ['.', '.'] := by
  have long := isEnding.long
  constructor <;> intro same <;> have lengths := congrArg List.length same <;>
    simp only [List.length_append, List.length_cons, List.length_nil] at lengths <;> omega

/-! ### Absolute and joined paths -/

theorem isAbsolute_append_of_ne_nil {front : List Char} (nonempty : front ≠ [])
    (back : List Char) : isAbsolute (front ++ back) = isAbsolute front := by
  obtain ⟨character, rest, rfl⟩ := List.exists_cons_of_ne_nil nonempty
  by_cases slash : character = '/'
  · simp [isAbsolute, slash]
  · simp [isAbsolute, slash]

theorem isAbsolute_append (front : List Char) {back : List Char}
    (isRelative : isAbsolute back = false) : isAbsolute (front ++ back) = isAbsolute front := by
  by_cases empty : front = []
  · rw [empty, List.nil_append, isRelative]
    rfl
  · exact isAbsolute_append_of_ne_nil empty back

theorem IsEnding.isRelative {ending : String} (isEnding : IsEnding ending) :
    isAbsolute ending.toList = false := by
  have slashNotMem := isEnding.slash_not_mem
  unfold isAbsolute
  split
  next same => exact absurd (same ▸ List.mem_cons_self) slashNotMem
  next => rfl

/-- What a name is followed by follows the joined path. -/
theorem join_append (directory name : String) {ending : String} (isEnding : IsEnding ending) :
    join directory (name ++ ending) = join directory name ++ ending := by
  have sameKind : isAbsolute (name ++ ending).toList = isAbsolute name.toList := by
    rw [String.toList_append, isAbsolute_append _ isEnding.isRelative]
  unfold join
  rw [sameKind]
  split
  · rfl
  · split <;> simp only [String.append_assoc]

theorem exists_join_eq_append (directory : String) :
    ∃ base, ∀ name, isAbsolute name.toList = false → join directory name = base ++ name := by
  by_cases joined : directory.isEmpty ∨ directory.toList.getLast? = some '/'
  · refine ⟨directory, fun name relative => ?_⟩
    rw [join, if_neg (Bool.eq_false_iff.mp relative), if_pos joined]
  · refine ⟨directory ++ "/", fun name relative => ?_⟩
    rw [join, if_neg (Bool.eq_false_iff.mp relative), if_neg joined]

/-! ### Directories on the way -/

theorem name_mem_of_mem_partsFrom {start : Nat} {pieces : List (List Char)} {part : Part}
    (member : part ∈ partsFrom start pieces) : part.name ∈ pieces := by
  induction pieces generalizing start with
  | nil => simp [partsFrom] at member
  | cons piece rest inductionHypothesis =>
    obtain rfl | later := List.mem_cons.mp member
    · exact List.mem_cons_self
    · exact List.mem_cons_of_mem _ (inductionHypothesis later)

theorem length_name_le_stop {start : Nat} {pieces : List (List Char)} {part : Part}
    (member : part ∈ partsFrom start pieces) : part.name.length ≤ part.stop := by
  induction pieces generalizing start with
  | nil => simp [partsFrom] at member
  | cons piece rest inductionHypothesis =>
    obtain rfl | later := List.mem_cons.mp member
    · simp
    · exact inductionHypothesis later

/-- A part with another one behind it stops at a slash. -/
theorem exists_append_of_sublist_partsFrom {part next : Part} (text piece : List Char)
    (start : Nat)
    (inOrder : [part, next].Sublist (partsFrom start (Text.splitFrom '/' piece text))) :
    ∃ front back, text = front ++ '/' :: back ∧
      part.stop = start + piece.length + front.length ∧ next.name ∈ Text.splitOn '/' back := by
  induction text generalizing piece start with
  | nil =>
    have short := inOrder.length_le
    simp [Text.splitFrom, partsFrom] at short
  | cons character rest inductionHypothesis =>
    by_cases slash : character = '/'
    · subst slash
      rw [Text.splitFrom, if_pos rfl, partsFrom] at inOrder
      obtain later | ⟨_, ⟨rfl, rfl⟩, after⟩ := List.sublist_cons_iff.mp inOrder
      · obtain ⟨front, back, rfl, stop, member⟩ := inductionHypothesis [] _ later
        refine ⟨'/' :: front, back, rfl, ?_, member⟩
        rw [stop]
        simp
        omega
      · refine ⟨[], rest, rfl, by simp, ?_⟩
        exact name_mem_of_mem_partsFrom (List.singleton_sublist.mp after)
    · rw [Text.splitFrom, if_neg slash] at inOrder
      obtain ⟨front, back, rfl, stop, member⟩ := inductionHypothesis _ _ inOrder
      refine ⟨character :: front, back, rfl, ?_, member⟩
      rw [stop]
      simp
      omega

theorem parts_sublist (path : List Char) :
    (parts path).Sublist (partsFrom 0 (Text.splitOn '/' path)) := by
  unfold parts
  split
  next none => exact List.nil_sublist _
  next first rest found =>
    rw [found]
    split
    · exact List.Sublist.cons _ List.filter_sublist
    · exact List.Sublist.cons_cons _ List.filter_sublist

theorem name_ne_nil_of_mem_parts {path : List Char} {part : Part} (member : part ∈ parts path) :
    part.name ≠ [] := by
  unfold parts at member
  split at member
  · simp at member
  · obtain first | later := List.mem_append.mp member
    · split at first
      · simp at first
      · rw [List.mem_singleton.mp first]
        assumption
    · have kept := (List.mem_filter.mp later).2
      simp only [Bool.and_eq_true, bne_iff_ne] at kept
      exact kept.1

theorem sublist_of_mem_dropLast {Item : Type} {items : List Item} {item : Item}
    (member : item ∈ items.dropLast) : ∃ next, [item, next].Sublist items ∧ next ∈ items := by
  have nonempty : items ≠ [] := by
    rintro rfl
    simp at member
  refine ⟨items.getLast nonempty, ?_, List.getLast_mem nonempty⟩
  have inOrder : ([item] ++ [items.getLast nonempty]).Sublist
      (items.dropLast ++ [items.getLast nonempty]) :=
    (List.singleton_sublist.mpr member).append (List.Sublist.refl _)
  rw [List.dropLast_concat_getLast nonempty] at inOrder
  exact inOrder

/-- A directory on the way is what stands before a slash of the path. A name follows, so the path
leads on from there. -/
theorem exists_append_of_mem_ancestors {path directory : String}
    (member : directory ∈ ancestors path) :
    directory.toList ≠ [] ∧
      ∃ back, path.toList = directory.toList ++ '/' :: back ∧ names back ≠ [] := by
  obtain ⟨part, inside, rfl⟩ := List.mem_map.mp member
  obtain ⟨next, inOrder, nextMember⟩ := sublist_of_mem_dropLast (List.mem_reverse.mp inside)
  have partMember : part ∈ parts path.toList := inOrder.subset List.mem_cons_self
  obtain ⟨front, back, split, stop, nameMember⟩ :=
    exists_append_of_sublist_partsFrom path.toList [] 0 (inOrder.trans (parts_sublist _))
  have stopEq : part.stop = front.length := by simpa using stop
  have taken : path.toList.take part.stop = front := by rw [split, stopEq]; simp
  rw [taken, String.toList_ofList]
  refine ⟨?_, back, split, ?_⟩
  · rintro rfl
    have short := length_name_le_stop ((parts_sublist _).subset partMember)
    rw [stopEq, List.length_nil, Nat.le_zero] at short
    exact name_ne_nil_of_mem_parts partMember (List.eq_nil_of_length_eq_zero short)
  · intro none
    have named : next.name ∈ names back :=
      List.mem_filter.mpr ⟨nameMember, by simp [name_ne_nil_of_mem_parts nextMember]⟩
    rw [none] at named
    exact List.not_mem_nil named

end FilterLists.Path
