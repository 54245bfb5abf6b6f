/-
This file shows in which order the lists of a selection can be converted. A list is looked up by
its standard file, and this may be the file for another tier of another list: converting the list
`base` leaves the file `base_advanced.json`, which says of a list `base_advanced` that it has
been converted. A list that is shadowed so gets rules of the list that was converted before it.

In an order where no list shadows a later one, every list gets the rules of its own source, and
put in the order of the selection they are the rules of all the sources. In any other order some
list does not.
-/

import FilterLists.Publication
import FilterLists.Proofs.Lists.Folder
import FilterLists.Proofs.Rule.Record

namespace FilterLists

namespace ListFolder

/-! ### Shadows -/

/-- Whether the file for a tier of a list is taken for the standard file of another list. -/
def ShadowsAt (folder : ListFolder) (disk : Disk) (name : String) (tier : Tier)
    (other : String) : Prop :=
  ∃ location, disk.locate (folder.convertedPath name tier) = .ok location ∧
    disk.locate (folder.convertedPath other .standard) = .ok location

/-- Whether another list seems to have been converted once a list has been converted. -/
def Shadows (folder : ListFolder) (disk : Disk) (name other : String) : Prop :=
  ∃ tier, folder.ShadowsAt disk name tier other

/-- In a folder, a list with a plain name only shadows the lists whose names are its own name with
the mark of another tier. -/
theorem shadowsAt_iff_of_plain {folder : ListFolder} {disk : Disk} {name other : String}
    {tier : Tier} {location : Location} (plain : '/' ∉ name.toList)
    (otherPlain : '/' ∉ other.toList)
    (located : disk.locate (folder.convertedPath other .standard) = .ok location) :
    folder.ShadowsAt disk name tier other ↔ name ++ suffix tier = other ++ suffix .standard := by
  refine ⟨?_, fun same => ⟨location, ?_, located⟩⟩
  · rintro ⟨shared, here, there⟩
    exact append_suffix_eq_of_plain plain otherPlain here there
  · unfold convertedPath
    rw [same]
    exact located

theorem eq_of_shadows_of_plain {folder : ListFolder} {disk : Disk} {name other : String}
    (plain : '/' ∉ name.toList) (otherPlain : '/' ∉ other.toList) (different : name ≠ other)
    (shadows : folder.Shadows disk name other) :
    other = name ++ "_advanced" ∨ other = name ++ "_scriptlets" := by
  obtain ⟨tier, location, here, located⟩ := shadows
  have same := (shadowsAt_iff_of_plain plain otherPlain located).mp ⟨location, here, located⟩
  have marked : name ++ mark tier = other := by
    rw [append_mark_eq same]
    exact String.append_empty
  cases tier with
  | standard => exact absurd (String.append_empty.symm.trans marked) different
  | advanced => exact .inl marked.symm
  | scriptlet => exact .inr marked.symm

/-! ### A disk while lists are converted -/

/-- What a disk looks like after the lists `done` have been converted: each of their files holds the
rules of a tier of one of them, and everything else is as it was. -/
structure Kept (folder : ListFolder) (texts : String → String) (before : Disk)
    (done : List String) (current : Disk) : Prop where
  sameDirectories : Disk.SameDirectories before current
  located : ∀ name ∈ done, ∀ tier,
    ∃ location, before.locate (folder.convertedPath name tier) = .ok location
  written : ∀ name ∈ done, ∀ tier location,
    before.locate (folder.convertedPath name tier) = .ok location →
    ∃ writer ∈ done, ∃ writerTier,
      before.locate (folder.convertedPath writer writerTier) = .ok location ∧
      current.get? location = some (.file
        (Rule.encode ((Document.convert (texts writer)).rules.get writerTier)).toUTF8)
  unchanged : ∀ location,
    (∀ name ∈ done, ∀ tier, before.locate (folder.convertedPath name tier) ≠ .ok location) →
    current.get? location = before.get? location

variable {folder : ListFolder} {texts : String → String} {before current after : Disk}
  {done : List String} {name other text : String} {rules : List Rule}

namespace Kept

theorem start (folder : ListFolder) (texts : String → String) (disk : Disk) :
    Kept folder texts disk [] disk :=
  ⟨.refl disk, by simp, by simp, fun _ _ => rfl⟩

/-- Converting one more list keeps what is said of the disk. -/
theorem add (kept : Kept folder texts before done current)
    (saved : Saved folder name (Document.convert (texts name)).rules savingOrder current after) :
    Kept folder texts before (done ++ [name]) after := by
  have there : ∀ {path : String} {location : Location},
      current.locate path = .ok location ↔ before.locate path = .ok location :=
    kept.sameDirectories.locate_eq_ok
  refine ⟨kept.sameDirectories.trans saved.sameDirectories, ?_, ?_, ?_⟩
  · intro other member tier
    obtain earlier | same := List.mem_append.mp member
    · exact kept.located other earlier tier
    · obtain rfl := List.mem_singleton.mp same
      obtain ⟨location, located⟩ := saved.located tier (mem_savingOrder tier)
      exact ⟨location, there.mp located⟩
  · intro other member tier location located
    by_cases overwritten :
        ∃ newTier, before.locate (folder.convertedPath name newTier) = .ok location
    · obtain ⟨newTier, here⟩ := overwritten
      exact ⟨name, by simp, newTier, here,
        saved.written newTier (mem_savingOrder newTier) location (there.mpr here)⟩
    · rw [not_exists] at overwritten
      obtain earlier | same := List.mem_append.mp member
      · obtain ⟨writer, writerMember, writerTier, here, found⟩ :=
          kept.written other earlier tier location located
        refine ⟨writer, by simp [writerMember], writerTier, here, ?_⟩
        rw [saved.unchanged location fun newTier _ same => overwritten newTier (there.mp same),
          found]
      · obtain rfl := List.mem_singleton.mp same
        exact absurd located (overwritten tier)
  · intro location elsewhere
    have notNew : ∀ tier ∈ savingOrder,
        current.locate (folder.convertedPath name tier) ≠ .ok location :=
      fun tier _ same => elsewhere name (by simp) tier (there.mp same)
    rw [saved.unchanged location notNew]
    exact kept.unchanged location fun other member => elsewhere other (by simp [member])

/-- Sources stay as they were. -/
theorem source (kept : Kept folder texts before done current)
    (holds : before.HoldsText (folder.sourcePath other) text) :
    current.HoldsText (folder.sourcePath other) text :=
  holdsText_source_of_unchanged kept.sameDirectories (fun location elsewhere =>
    kept.unchanged location fun name _ tier => elsewhere name tier) holds

/-- Just the lists that are shadowed seem to have been converted. -/
theorem isPresent_iff (kept : Kept folder texts before done current)
    (fresh : ¬before.IsPresent (folder.convertedPath other .standard)) :
    current.IsPresent (folder.convertedPath other .standard) ↔
      ∃ name ∈ done, folder.Shadows before name other := by
  have plain := folder.insistsOnDirectory_convertedPath other .standard
  rw [Disk.isPresent_iff plain]
  refine ⟨?_, ?_⟩
  · rintro ⟨location, located, present⟩
    rw [kept.sameDirectories.locate_eq_ok] at located
    refine Classical.byContradiction fun unshadowed => ?_
    have same : current.get? location = before.get? location :=
      kept.unchanged location fun name member tier here =>
        unshadowed ⟨name, member, tier, location, here, located⟩
    exact fresh ((Disk.isPresent_iff plain).mpr ⟨location, located, same ▸ present⟩)
  · rintro ⟨name, member, tier, location, here, located⟩
    obtain ⟨_, _, _, _, found⟩ := kept.written name member tier location here
    exact ⟨location, kept.sameDirectories.locate_eq_ok.mpr located, by simp [found]⟩

/-- A list that is shadowed gets rules of a list that shadows it. -/
theorem exists_shadowsAt_of_areIn (kept : Kept folder texts before done current)
    (shadowed : ∃ name ∈ done, folder.Shadows before name other)
    (areIn : Rule.AreIn rules current (folder.convertedPath other .standard)) :
    ∃ writer ∈ done, ∃ tier, folder.ShadowsAt before writer tier other ∧
      rules = ((Document.convert (texts writer)).rules.get tier).map Rule.withoutMark := by
  have plain := folder.insistsOnDirectory_convertedPath other .standard
  obtain ⟨name, member, tier, location, here, located⟩ := shadowed
  obtain ⟨writer, writerMember, writerTier, writerHere, found⟩ :=
    kept.written name member tier location here
  refine ⟨writer, writerMember, writerTier, ⟨location, writerHere, located⟩, ?_⟩
  obtain ⟨content, holds, decoded⟩ := areIn
  have written := Disk.holdsText_of_get? plain (kept.sameDirectories.locate_eq_ok.mpr located) found
  obtain rfl := Except.ok.inj (holds.symm.trans written)
  rw [Rule.decode?_encode] at decoded
  exact (Option.some.inj decoded).symm

end Kept

end ListFolder

/-! ### Loading lists one after the other -/

namespace Selection

variable {folder : ListFolder} {texts : String → String} {before : Disk} {world after : World}
  {done order names : List String} {outcomes : List (String × Outcome)}

theorem run_loadEach_cons {name : String} {outcome : Outcome}
    (first : (folder.load name).runIn world = (outcome, after)) (rest : List String) :
    ((loadEach folder (name :: rest)).run world).1 =
      (name, outcome) :: ((loadEach folder rest).run after).1 := by
  have ranFirst : (ExceptT.run (folder.load name)).run world = (outcome, after) := first
  unfold loadEach
  rw [List.mapM_cons, Program.run_bind, Program.run_bind, Program.run_bind, ranFirst]
  rfl

/-- Whether none of some lists is shadowed by one before it or by one of the lists `done`. -/
def Unshadowed (folder : ListFolder) (disk : Disk) (done order : List String) : Prop :=
  (∀ name ∈ done, ∀ other ∈ order, ¬folder.Shadows disk name other) ∧
    order.Pairwise fun name other => ¬folder.Shadows disk name other

theorem unshadowed_nil_iff :
    Unshadowed folder before [] order ↔
      order.Pairwise fun name other => ¬folder.Shadows before name other := by
  simp [Unshadowed]

theorem unshadowed_cons_iff {name : String} {rest : List String} :
    Unshadowed folder before done (name :: rest) ↔
      (¬∃ earlier ∈ done, folder.Shadows before earlier name) ∧
        Unshadowed folder before (done ++ [name]) rest := by
  unfold Unshadowed
  rw [List.pairwise_cons]
  refine ⟨fun ⟨apart, later, inOrder⟩ => ⟨?_, ?_, inOrder⟩,
    fun ⟨apart, later, inOrder⟩ => ⟨?_, ?_, inOrder⟩⟩
  · rintro ⟨earlier, member, shadows⟩
    exact apart earlier member name List.mem_cons_self shadows
  · intro earlier member other otherMember
    obtain isDone | same := List.mem_append.mp member
    · exact apart earlier isDone other (List.mem_cons_of_mem _ otherMember)
    · rw [List.mem_singleton.mp same]
      exact later other otherMember
  · intro earlier member other otherMember shadows
    obtain rfl | inRest := List.mem_cons.mp otherMember
    · exact apart ⟨earlier, member, shadows⟩
    · exact later earlier (List.mem_append_left _ member) other inRest shadows
  · intro other otherMember
    exact later name (by simp) other otherMember

/-- Where no list is shadowed by one before it, each list gets the rules of its source. -/
theorem loadEach_of_unshadowed (kept : folder.Kept texts before done world.disk)
    (sources : ∀ name ∈ order, before.HoldsText (folder.sourcePath name) (texts name))
    (fresh : ∀ name ∈ order, ¬before.IsPresent (folder.convertedPath name .standard))
    (unshadowed : Unshadowed folder before done order)
    (ran : ((loadEach folder order).run world).1 = outcomes)
    (succeeded : ∀ entry ∈ outcomes, ∃ loaded, entry.2 = .ok loaded) :
    outcomes =
      order.map fun name => (name, .ok (some (Document.convert (texts name)).rules)) := by
  induction order generalizing done world outcomes with
  | nil =>
    subst ran
    rfl
  | cons name rest inductionHypothesis =>
    obtain ⟨outcome, between, first⟩ : ∃ outcome between,
        (folder.load name).runIn world = (outcome, between) := ⟨_, _, rfl⟩
    rw [run_loadEach_cons first] at ran
    subst ran
    obtain ⟨loaded, rfl⟩ := succeeded _ List.mem_cons_self
    obtain ⟨unshadowedNow, unshadowedLater⟩ := unshadowed_cons_iff.mp unshadowed
    have isConverted := kept.isPresent_iff (fresh name List.mem_cons_self)
    obtain ⟨rfl, saved⟩ :=
      ListFolder.load_eq_ok_of_source (fun there => unshadowedNow (isConverted.mp there))
        (kept.source (sources name List.mem_cons_self)) first
    have later := inductionHypothesis (kept.add saved)
      (fun other member => sources other (List.mem_cons_of_mem _ member))
      (fun other member => fresh other (List.mem_cons_of_mem _ member))
      unshadowedLater rfl (fun entry member => succeeded entry (List.mem_cons_of_mem _ member))
    rw [List.map_cons, ← later]

/-- Where a list is shadowed by one before it, some list gets rules of one before it. -/
theorem exists_of_loadEach_of_shadowed (kept : folder.Kept texts before done world.disk)
    (sources : ∀ name ∈ order, before.HoldsText (folder.sourcePath name) (texts name))
    (fresh : ∀ name ∈ order, ¬before.IsPresent (folder.convertedPath name .standard))
    (shadowed : ¬Unshadowed folder before done order)
    (ran : ((loadEach folder order).run world).1 = outcomes)
    (succeeded : ∀ entry ∈ outcomes, ∃ loaded, entry.2 = .ok loaded) :
    ∃ writer other tier rules, [writer, other].Sublist (done ++ order) ∧
      folder.ShadowsAt before writer tier other ∧ (other, .ok (some rules)) ∈ outcomes ∧
      rules.standard =
        ((Document.convert (texts writer)).rules.get tier).map Rule.withoutMark := by
  induction order generalizing done world outcomes with
  | nil => exact absurd ⟨by simp, List.Pairwise.nil⟩ shadowed
  | cons name rest inductionHypothesis =>
    obtain ⟨outcome, between, first⟩ : ∃ outcome between,
        (folder.load name).runIn world = (outcome, between) := ⟨_, _, rfl⟩
    rw [run_loadEach_cons first] at ran
    subst ran
    obtain ⟨loaded, rfl⟩ := succeeded _ List.mem_cons_self
    have isConverted := kept.isPresent_iff (fresh name List.mem_cons_self)
    by_cases shadowedNow : ∃ earlier ∈ done, folder.Shadows before earlier name
    · obtain ⟨-, rules, rfl, holds⟩ :=
        ListFolder.load_eq_ok_of_converted (isConverted.mpr shadowedNow) first
      obtain ⟨writer, member, tier, shadows, same⟩ :=
        kept.exists_shadowsAt_of_areIn shadowedNow holds.standard
      refine ⟨writer, name, tier, rules, ?_, shadows, ?_, same⟩
      · exact (List.singleton_sublist.mpr member).append
          (List.singleton_sublist.mpr List.mem_cons_self)
      · exact List.mem_cons_self
    · obtain ⟨rfl, saved⟩ :=
        ListFolder.load_eq_ok_of_source (fun there => shadowedNow (isConverted.mp there))
          (kept.source (sources name List.mem_cons_self)) first
      have shadowedLater : ¬Unshadowed folder before (done ++ [name]) rest :=
        fun unshadowed => shadowed (unshadowed_cons_iff.mpr ⟨shadowedNow, unshadowed⟩)
      obtain ⟨writer, other, tier, rules, inOrder, shadows, member, same⟩ :=
        inductionHypothesis (kept.add saved)
          (fun other member => sources other (List.mem_cons_of_mem _ member))
          (fun other member => fresh other (List.mem_cons_of_mem _ member))
          shadowedLater rfl
          (fun entry member => succeeded entry (List.mem_cons_of_mem _ member))
      rw [List.append_assoc] at inOrder
      exact ⟨writer, other, tier, rules, inOrder, shadows, List.mem_cons_of_mem _ member, same⟩

/-! ### Loading a selection -/

theorem map_fst_loadEach (folder : ListFolder) (order : List String) (world : World) :
    ((loadEach folder order).run world).1.map Prod.fst = order := by
  induction order generalizing world with
  | nil => rfl
  | cons name rest inductionHypothesis =>
    rw [run_loadEach_cons rfl, List.map_cons, inductionHypothesis]

theorem lookup_of_mem {name : String} {outcome : Outcome} (distinct : (outcomes.map Prod.fst).Nodup)
    (member : (name, outcome) ∈ outcomes) : outcomes.lookup name = some outcome := by
  induction outcomes with
  | nil => simp at member
  | cons entry rest inductionHypothesis =>
    rw [List.map_cons, List.nodup_cons] at distinct
    rw [List.lookup_cons]
    obtain rfl | later := List.mem_cons.mp member
    · simp
    · have different : name ≠ entry.1 := by
        rintro rfl
        exact distinct.1 (List.mem_map.mpr ⟨_, later, rfl⟩)
      rw [beq_eq_false_iff_ne.mpr different]
      exact inductionHypothesis distinct.2 later

theorem collect_eq_ok {report : Progress → Program Unit} {total count : Nat}
    {ended : List Outcome} {loaded : List (Option TieredRules)}
    (ran : (collect report total count ended).runIn world = (.ok loaded, after)) :
    ended = loaded.map .ok := by
  induction ended generalizing count loaded world after with
  | nil =>
    obtain ⟨rfl, -⟩ := Job.eq_of_runIn_pure ran
    rfl
  | cons outcome rest inductionHypothesis =>
    cases outcome with
    | error failure => cases ran
    | ok first =>
      unfold collect at ran
      obtain ⟨⟨⟩, reported, -, ran⟩ := Job.exists_of_runIn_bind ran
      obtain ⟨later, collected, ranLater, returned⟩ := Job.exists_of_runIn_bind ran
      obtain ⟨rfl, -⟩ := Job.eq_of_runIn_pure returned
      rw [inductionHypothesis ranLater, List.map_cons]

theorem filterMap_of_found {lookup : String → Option Outcome} {result : String → Option TieredRules}
    (found : ∀ name ∈ names, lookup name = some (.ok (result name))) :
    names.filterMap lookup = (names.map result).map .ok := by
  induction names with
  | nil => rfl
  | cons name rest inductionHypothesis =>
    rw [List.filterMap_cons_some (found name List.mem_cons_self), List.map_cons, List.map_cons,
      inductionHypothesis fun name member => found name (List.mem_cons_of_mem _ member)]

theorem eq_map_of_filterMap_eq {lookup : String → Option Outcome}
    {loaded : List (Option TieredRules)} {result : String → Option TieredRules}
    (collected : names.filterMap lookup = loaded.map .ok)
    (found : ∀ name ∈ names, lookup name = some (.ok (result name))) :
    loaded = names.map result :=
  (List.map_inj_right fun _ _ => Except.ok.inj).mp
    (collected.symm.trans (filterMap_of_found found))

/-- In whatever order lists are loaded, what stands for a list in the order of the selection is what
its own loading ended with. -/
theorem load_eq_ok {report : Progress → Program Unit} {loaded : List (Option TieredRules)}
    (distinct : names.Nodup) (sameNames : order.Perm names)
    (ran : (load report folder order names).runIn world = (.ok loaded, after)) :
    ∃ result : String → Option TieredRules, loaded = names.map result ∧
      ∀ entry ∈ ((loadEach folder order).run world).1, entry.2 = .ok (result entry.1) := by
  unfold load at ran
  rw [Job.runIn_bind_lift] at ran
  have collected := collect_eq_ok ran
  have keys := map_fst_loadEach folder order world
  generalize ((loadEach folder order).run world).1 = outcomes at collected keys ⊢
  have looked : ∀ {name : String} {outcome : Outcome}, (name, outcome) ∈ outcomes →
      outcomes.lookup name = some outcome :=
    fun member => lookup_of_mem (keys ▸ sameNames.nodup_iff.mpr distinct) member
  have found : ∀ name, ∃ result, name ∈ names → outcomes.lookup name = some (.ok result) := by
    intro name
    by_cases member : name ∈ names
    · obtain ⟨⟨same, outcome⟩, entryMember, rfl⟩ :=
        List.mem_map.mp (keys ▸ sameNames.mem_iff.mpr member)
      have kept : outcome ∈ loaded.map Except.ok :=
        collected ▸ List.mem_filterMap.mpr ⟨same, member, looked entryMember⟩
      obtain ⟨result, -, rfl⟩ := List.mem_map.mp kept
      exact ⟨result, fun _ => looked entryMember⟩
    · exact ⟨none, fun present => absurd present member⟩
  obtain ⟨result, isResult⟩ := Classical.skolem.mp found
  refine ⟨result, eq_map_of_filterMap_eq collected isResult, ?_⟩
  rintro ⟨name, outcome⟩ member
  have named : name ∈ order := keys ▸ List.mem_map.mpr ⟨_, member, rfl⟩
  have same := (looked member).symm.trans (isResult name (sameNames.mem_iff.mp named))
  exact Option.some.inj same

theorem join_of_own {result : String → Option TieredRules}
    (own : ∀ name ∈ names, result name = some (Document.convert (texts name)).rules) :
    TieredRules.join ((names.map result).filterMap id) =
      Document.convertAll (names.map texts) := by
  rw [List.map_congr_left own, List.filterMap_map]
  unfold Document.convertAll
  rw [List.map_map]
  exact congrArg TieredRules.join (congrFun List.filterMap_eq_map' names)

section

variable {report : Progress → Program Unit} {loaded : List (Option TieredRules)}
  (distinct : names.Nodup) (sameNames : order.Perm names)
  (sources : ∀ name ∈ names, world.disk.HoldsText (folder.sourcePath name) (texts name))
  (fresh : ∀ name ∈ names, ¬world.disk.IsPresent (folder.convertedPath name .standard))
  (ran : (load report folder order names).runIn world = (.ok loaded, after))

include distinct sameNames sources fresh ran

theorem join_loaded_of_unshadowed
    (inOrder : order.Pairwise fun name other => ¬folder.Shadows world.disk name other) :
    TieredRules.join (loaded.filterMap id) = Document.convertAll (names.map texts) := by
  obtain ⟨result, rfl, ended⟩ := load_eq_ok distinct sameNames ran
  have converted := loadEach_of_unshadowed (ListFolder.Kept.start folder texts world.disk)
    (fun name member => sources name (sameNames.mem_iff.mp member))
    (fun name member => fresh name (sameNames.mem_iff.mp member))
    (unshadowed_nil_iff.mpr inOrder) rfl (fun entry member => ⟨_, ended entry member⟩)
  refine join_of_own fun name member => ?_
  have entry : (name, .ok (some (Document.convert (texts name)).rules)) ∈
      ((loadEach folder order).run world).1 := by
    rw [converted]
    exact List.mem_map.mpr ⟨name, sameNames.mem_iff.mpr member, rfl⟩
  exact (Except.ok.inj (ended _ entry)).symm

theorem exists_loaded_of_shadowed
    (notInOrder : ¬order.Pairwise fun name other => ¬folder.Shadows world.disk name other) :
    ∃ writer other tier rules, [writer, other].Sublist order ∧
      folder.ShadowsAt world.disk writer tier other ∧ (other, some rules) ∈ names.zip loaded ∧
      rules.standard =
        ((Document.convert (texts writer)).rules.get tier).map Rule.withoutMark := by
  obtain ⟨result, rfl, ended⟩ := load_eq_ok distinct sameNames ran
  obtain ⟨writer, other, tier, rules, sublist, shadows, member, same⟩ :=
    exists_of_loadEach_of_shadowed (ListFolder.Kept.start folder texts world.disk)
      (fun name member => sources name (sameNames.mem_iff.mp member))
      (fun name member => fresh name (sameNames.mem_iff.mp member))
      (fun unshadowed => notInOrder (unshadowed_nil_iff.mp unshadowed)) rfl
      (fun entry member => ⟨_, ended entry member⟩)
  have named : other ∈ names := sameNames.mem_iff.mp (sublist.subset (by simp))
  refine ⟨writer, other, tier, rules, sublist, shadows, ?_, same⟩
  rw [← List.map_prod_left_eq_zip]
  exact List.mem_map.mpr ⟨other, named, by rw [Except.ok.inj (ended _ member)]⟩

/-- Lists are loaded in any order, and their rules are put in the order of the selection. If no list
is shadowed by one before it, the rules are those of all the sources. Otherwise some list gets
rules of a list before it that shadows it. -/
theorem join_loaded_or_shadowed :
    ((order.Pairwise fun name other => ¬folder.Shadows world.disk name other) →
      TieredRules.join (loaded.filterMap id) = Document.convertAll (names.map texts)) ∧
    ((¬order.Pairwise fun name other => ¬folder.Shadows world.disk name other) →
      ∃ writer other tier rules, [writer, other].Sublist order ∧
        folder.ShadowsAt world.disk writer tier other ∧ (other, some rules) ∈ names.zip loaded ∧
        rules.standard =
          ((Document.convert (texts writer)).rules.get tier).map Rule.withoutMark) :=
  ⟨join_loaded_of_unshadowed distinct sameNames sources fresh ran,
    exists_loaded_of_shadowed distinct sameNames sources fresh ran⟩

/-- Lists with plain names can be loaded in every order, unless the name of one is the name of
another with the mark of a tier behind it. -/
theorem join_loaded_of_plain (plain : ∀ name ∈ names, '/' ∉ name.toList)
    (apart : ∀ name ∈ names, name ++ "_advanced" ∉ names ∧ name ++ "_scriptlets" ∉ names) :
    TieredRules.join (loaded.filterMap id) = Document.convertAll (names.map texts) := by
  refine join_loaded_of_unshadowed distinct sameNames sources fresh ran ?_
  refine (sameNames.nodup_iff.mpr distinct).imp_of_mem ?_
  intro name other member otherMember different shadows
  rw [sameNames.mem_iff] at member otherMember
  obtain rfl | rfl := ListFolder.eq_of_shadows_of_plain (plain name member)
    (plain other otherMember) different shadows
  · exact (apart name member).1 otherMember
  · exact (apart name member).2 otherMember

end

/-! ### Two lists, one of which shadows the other -/

/-- A folder with an empty list `base`, and a list `base_advanced` with one rule. -/
def sampleWorld : World where
  disk := {
    home := []
    entries := [
      (["lists"], .directory),
      (["lists", "base.txt"], .file "".toUTF8),
      (["lists", "base_advanced.txt"], .file "ads".toUTF8)] }

def sampleFolder : ListFolder where
  directory := "lists"

def sampleTexts (name : String) : String :=
  if name = "base" then "" else "ads"

/-- Loads the two lists in an order, without a report. -/
def loadSample (order : List String) : Job (List (Option TieredRules)) :=
  load (fun _ => pure ()) sampleFolder order ["base", "base_advanced"]

theorem sources_sample (name : String) (member : name ∈ ["base", "base_advanced"]) :
    sampleWorld.disk.HoldsText (sampleFolder.sourcePath name) (sampleTexts name) := by
  simp only [List.mem_cons, List.not_mem_nil, or_false] at member
  obtain rfl | rfl := member <;> rfl

theorem fresh_sample (name : String) (member : name ∈ ["base", "base_advanced"]) :
    ¬sampleWorld.disk.IsPresent (sampleFolder.convertedPath name .standard) := by
  have missing : sampleWorld.disk.inspect (sampleFolder.convertedPath name .standard) =
      .error .notFound := by
    simp only [List.mem_cons, List.not_mem_nil, or_false] at member
    obtain rfl | rfl := member <;> rfl
  exact Disk.not_isPresent missing

/-- The list `base_advanced` can be converted before `base`, but not after it. -/
theorem sample_depends_on_order :
    (∃ loaded after,
      (loadSample ["base_advanced", "base"]).runIn sampleWorld = (.ok loaded, after) ∧
      TieredRules.join (loaded.filterMap id) = Document.convertAll ["", "ads"]) ∧
    ∃ loaded after,
      (loadSample ["base", "base_advanced"]).runIn sampleWorld = (.ok loaded, after) ∧
      ∃ writer other tier rules, [writer, other].Sublist ["base", "base_advanced"] ∧
        sampleFolder.ShadowsAt sampleWorld.disk writer tier other ∧
        (other, some rules) ∈ ["base", "base_advanced"].zip loaded ∧
        rules.standard = ((Document.convert (sampleTexts writer)).rules.get tier).map
          Rule.withoutMark := by
  have distinct : ["base", "base_advanced"].Nodup := by decide
  refine ⟨?_, ?_⟩
  · have succeeds :
        ((loadSample ["base_advanced", "base"]).runIn sampleWorld).1.toOption.isSome = true := by
      decide +kernel
    obtain ⟨loaded, after, ran⟩ := Job.exists_of_isSome succeeds
    refine ⟨loaded, after, ran, ?_⟩
    refine (join_loaded_or_shadowed distinct (by decide) sources_sample fresh_sample ran).1 ?_
    rw [List.pairwise_pair]
    rintro ⟨tier, shadows⟩
    have located : sampleWorld.disk.locate (sampleFolder.convertedPath "base" .standard) =
        .ok ["lists", "base.json"] := rfl
    rw [ListFolder.shadowsAt_iff_of_plain (by decide) (by decide) located] at shadows
    cases tier <;> exact absurd shadows (by decide)
  · have succeeds :
        ((loadSample ["base", "base_advanced"]).runIn sampleWorld).1.toOption.isSome = true := by
      decide +kernel
    obtain ⟨loaded, after, ran⟩ := Job.exists_of_isSome succeeds
    refine ⟨loaded, after, ran, ?_⟩
    refine (join_loaded_or_shadowed distinct (by decide) sources_sample fresh_sample ran).2 ?_
    rw [List.pairwise_pair, Classical.not_not]
    exact ⟨.advanced, ["lists", "base_advanced.json"], rfl, rfl⟩

/-- After `base`, the list `base_advanced` has no rules any more. -/
theorem sample_loses_rules :
    ((loadSample ["base", "base_advanced"]).runIn sampleWorld).1.toOption.map
        (fun loaded => TieredRules.join (loaded.filterMap id)) = some {} ∧
      Document.convertAll ["", "ads"] ≠ {} := by
  decide +kernel

end Selection

end FilterLists
