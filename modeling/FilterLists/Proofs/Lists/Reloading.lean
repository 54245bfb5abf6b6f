/-
This file shows that the files of converted rules can stand for the source. A list that gave its
rules once gives them again, now from these files, and nothing changes on the disk. If it had to be
converted the first time, the files hold just the text of the rules of its source.

What the files do not hold are first party marks. So the rules lose their marks on the way through
the files, and nothing else: they keep their order, their tiers and all that the engine reads.
-/

import FilterLists.Proofs.Lists.Folder
import FilterLists.Proofs.Rule.Record

namespace FilterLists

variable {world after : World} {disk : Disk} {path name : String} {rules : List Rule}

/-- The rules as they come back from files, where first party marks are not written. -/
def TieredRules.withoutMarks (rules : TieredRules) : TieredRules where
  standard := rules.standard.map Rule.withoutMark
  advanced := rules.advanced.map Rule.withoutMark
  scriptlet := rules.scriptlet.map Rule.withoutMark

/-! ### Files of rules -/

namespace Rule

theorem areIn_of_holdsText (holds : disk.HoldsText path (encode rules)) :
    AreIn (rules.map withoutMark) disk path :=
  ⟨encode rules, holds, decode?_encode rules⟩

theorem AreIn.map_withoutMark (areIn : AreIn rules disk path) : rules.map withoutMark = rules := by
  obtain ⟨text, -, decoded⟩ := areIn
  exact map_withoutMark_of_decode? decoded

theorem MayBeIn.map_withoutMark (mayBeIn : MayBeIn rules disk path) :
    rules.map withoutMark = rules := by
  obtain areIn | ⟨-, rfl⟩ := mayBeIn
  · exact areIn.map_withoutMark
  · rfl

theorem AreIn.isPresent (areIn : AreIn rules disk path)
    (plain : Disk.insistsOnDirectory path = false) : disk.IsPresent path := by
  obtain ⟨text, holds, -⟩ := areIn
  exact holds.isPresent plain

theorem AreIn.runIn_loadAll (areIn : AreIn rules world.disk path) :
    (loadAll path).runIn world = (.ok rules, world) := by
  obtain ⟨text, holds, decoded⟩ := areIn
  unfold loadAll
  rw [Job.runIn_bind_of_ok (Files.load_eq_ok_iff.mpr ⟨rfl, holds⟩), decoded]
  rfl

theorem MayBeIn.runIn_loadAllIfPresent (mayBeIn : MayBeIn rules world.disk path)
    (plain : Disk.insistsOnDirectory path = false) :
    (loadAllIfPresent path).runIn world = (.ok rules, world) := by
  unfold loadAllIfPresent
  obtain areIn | ⟨missing, rfl⟩ := mayBeIn
  · rw [Files.runIn_bind_isPresent_of_present (areIn.isPresent plain)]
    exact areIn.runIn_loadAll
  · rw [Files.runIn_bind_isPresent_of_missing missing]
    rfl

end Rule

namespace ListFolder

variable {folder : ListFolder} {rules : TieredRules} {before : Disk} {text : String}

/-! ### Files of a list -/

theorem Holds.withoutMarks_eq (holds : Holds folder name rules disk) :
    rules.withoutMarks = rules := by
  unfold TieredRules.withoutMarks
  rw [holds.standard.map_withoutMark, holds.advanced.map_withoutMark,
    holds.scriptlet.map_withoutMark]

theorem Holds.isPresent (holds : Holds folder name rules disk) :
    disk.IsPresent (folder.convertedPath name .standard) :=
  holds.standard.isPresent (folder.insistsOnDirectory_convertedPath name .standard)

theorem Holds.runIn_loadConverted (holds : Holds folder name rules world.disk) :
    (folder.loadConverted name).runIn world = (.ok rules, world) := by
  have plain := folder.insistsOnDirectory_convertedPath name
  unfold loadConverted
  rw [Job.runIn_bind_of_ok holds.standard.runIn_loadAll,
    Job.runIn_bind_of_ok (holds.advanced.runIn_loadAllIfPresent (plain .advanced)),
    Job.runIn_bind_of_ok (holds.scriptlet.runIn_loadAllIfPresent (plain .scriptlet))]
  rfl

theorem Holds.runIn_load (holds : Holds folder name rules world.disk) :
    (folder.load name).runIn world = (.ok (some rules), world) := by
  unfold load isConverted
  rw [Files.runIn_bind_isPresent_of_present holds.isPresent]
  exact Job.runIn_bind_of_ok holds.runIn_loadConverted _

theorem holds_of_holdsText (holds : ∀ tier,
      disk.HoldsText (folder.convertedPath name tier) (Rule.encode (rules.get tier))) :
    Holds folder name rules.withoutMarks disk :=
  ⟨Rule.areIn_of_holdsText (holds .standard), .inl (Rule.areIn_of_holdsText (holds .advanced)),
    .inl (Rule.areIn_of_holdsText (holds .scriptlet))⟩

theorem Saved.holdsText {tiers : List Tier} {tier : Tier}
    (saved : Saved folder name rules tiers before disk) (member : tier ∈ tiers) :
    disk.HoldsText (folder.convertedPath name tier) (Rule.encode (rules.get tier)) := by
  obtain ⟨location, located⟩ := saved.located tier member
  exact Disk.holdsText_of_get? (folder.insistsOnDirectory_convertedPath name tier)
    (saved.sameDirectories.locate_eq_ok.mpr located) (saved.written tier member location located)

/-! ### Loading a list again -/

/-- A list that has given rules gives them again, but for their marks, and nothing changes. If the
list had to be converted for them, they are those of its source, and its files hold their text. -/
theorem load_again (ran : (folder.load name).runIn world = (.ok (some rules), after)) :
    (folder.load name).runIn after = (.ok (some rules.withoutMarks), after) ∧
      (¬world.disk.IsPresent (folder.convertedPath name .standard) →
        ∃ text, world.disk.HoldsText (folder.sourcePath name) text ∧
          rules = (Document.convert text).rules ∧
          ∀ tier, after.disk.HoldsText (folder.convertedPath name tier)
            (Rule.encode (rules.get tier))) := by
  by_cases converted : world.disk.IsPresent (folder.convertedPath name .standard)
  · obtain ⟨rfl, found, same, holds⟩ := load_eq_ok_of_converted converted ran
    obtain rfl := Option.some.inj same
    refine ⟨?_, fun fresh => absurd converted fresh⟩
    rw [holds.withoutMarks_eq]
    exact ran
  · obtain ⟨nothing, -⟩ | ⟨text, source, same, saved⟩ := load_eq_ok_of_fresh converted ran
    · cases nothing
    · obtain rfl := Option.some.inj same
      have inFiles := fun tier => saved.holdsText (mem_savingOrder tier)
      exact ⟨(holds_of_holdsText inFiles).runIn_load, fun _ => ⟨text, source, rfl, inFiles⟩⟩

/-! ### A list with a first party mark -/

/-- A folder with a list that blocks loads from a page's own site, hides an element and calls a
scriptlet, and with an old file of scriptlet rules. -/
def markedWorld : World where
  disk := {
    home := []
    entries := [
      (["lists"], .directory),
      (["lists", "marked.txt"], .file "ads$1p\n##.banner\n##+js(log, x)".toUTF8),
      (["lists", "marked_scriptlets.json"], .file "[".toUTF8)] }

/-- The list loses its mark when it is loaded for the second time. -/
theorem marked_load_again :
    ∃ rules after,
      (load { directory := "lists" } "marked").runIn markedWorld = (.ok (some rules), after) ∧
      rules.withoutMarks ≠ rules ∧
      (load { directory := "lists" } "marked").runIn after =
        (.ok (some rules.withoutMarks), after) := by
  have succeeds : ((load { directory := "lists" } "marked").runIn markedWorld).1.toOption =
      some (some (Document.convert "ads$1p\n##.banner\n##+js(log, x)").rules) := by
    decide +kernel
  cases ran : (load { directory := "lists" } "marked").runIn markedWorld with
  | mk outcome after =>
    rw [ran] at succeeds
    cases outcome with
    | error failure => cases succeeds
    | ok loaded =>
      obtain rfl := Option.some.inj succeeds
      exact ⟨_, after, rfl, by decide +kernel, (load_again ran).1⟩

end ListFolder

end FilterLists
