/-
This file shows that the number of rules that is given for a list agrees with the rules that loading
it gives. The number comes from the files of converted rules, or else from the source, whose
candidate lines are counted without being read as rules; the rules come from the files as well, or
else from a conversion.

While a list has not been converted, the number may be too high, by as many lines as the conversion
will reject. Once it has been converted, the number is exact. Giving the number changes nothing,
whatever goes wrong.
-/

import FilterLists.Proofs.Accounting

namespace FilterLists

variable {world : World} {name text : String}

/-! ### Requests that only look -/

/-- Whether a request is for a text or for what is known of a path. -/
def Request.OnlyLooks : Request → Prop
  | read _ | inspect _ => True
  | _ => False

theorem World.answer_of_onlyLooks {request : Request} (onlyLooks : request.OnlyLooks)
    (world : World) : (world.answer request).2 = world := by
  cases request <;> first | rfl | exact onlyLooks.elim

theorem TieredRules.size_withoutMarks (rules : TieredRules) :
    rules.withoutMarks.size = rules.size := by
  simp only [size, withoutMarks, List.length_map]

namespace ListFolder

variable {folder : ListFolder} {rules : TieredRules}

theorem asks_countRules (folder : ListFolder) (name : String) :
    (folder.countRules name).Asks Request.OnlyLooks := by
  refine (Job.asks_lift (Files.asks_isPresent trivial)).bind fun answer => ?_
  cases answer with
  | true =>
    have loads : (folder.loadConverted name).Asks Request.OnlyLooks :=
      asks_loadConverted (fun _ => trivial) fun _ => trivial
    exact loads.bind fun _ => Job.asks_pure _
  | false =>
    refine (Job.asks_lift (Files.asks_isPresent trivial)).bind fun answer => ?_
    cases answer with
    | true =>
      have reads : (Files.load (folder.sourcePath name)).Asks Request.OnlyLooks :=
        Files.asks_load trivial
      exact reads.bind fun _ => Job.asks_pure _
    | false => exact Job.asks_pure 0

theorem attempt_countRules (folder : ListFolder) (name : String) (fates : List Fate)
    (world : World) : ((folder.countRules name).attempt fates world).2 = world :=
  (asks_countRules folder name).attempt_keeps (· = world)
    (fun _ between onlyLooks same => (between.answer_of_onlyLooks onlyLooks).trans same) rfl rfl

/-! ### Where the number comes from -/

theorem Holds.runIn_countRules (holds : Holds folder name rules world.disk) :
    (folder.countRules name).runIn world = (.ok rules.size, world) := by
  unfold countRules isConverted
  rw [Files.runIn_bind_isPresent_of_present holds.isPresent]
  exact Job.runIn_bind_of_ok holds.runIn_loadConverted _

section

variable (fresh : ¬world.disk.IsPresent (folder.convertedPath name .standard))

include fresh

theorem runIn_countRules_of_source (source : world.disk.HoldsText (folder.sourcePath name) text) :
    (folder.countRules name).runIn world =
      (.ok (Document.candidates text.toList).length, world) := by
  have there := source.isPresent (folder.insistsOnDirectory_sourcePath name)
  have isRead : (Files.load (folder.sourcePath name)).runIn world = (.ok text, world) :=
    Files.load_eq_ok_iff.mpr ⟨rfl, source⟩
  unfold countRules isConverted
  rw [Files.runIn_bind_isPresent_of_missing fresh]
  simp only [Bool.false_eq_true, if_false]
  rw [Files.runIn_bind_isPresent_of_present there]
  exact Job.runIn_bind_of_ok isRead _

theorem runIn_countRules_of_missing (missing : ¬world.disk.IsPresent (folder.sourcePath name)) :
    (folder.countRules name).runIn world = (.ok 0, world) := by
  unfold countRules isConverted
  rw [Files.runIn_bind_isPresent_of_missing fresh]
  simp only [Bool.false_eq_true, if_false]
  rw [Files.runIn_bind_isPresent_of_missing missing]
  rfl

end

/-! ### The number and the rules -/

/-- A list that has been converted has as many rules as loading it gives. One that has only a source
is said to have as many as there are candidate lines; when loading it has given its rules, their
number is given, which is less by the lines that stand for no rule. One that has neither has no
rules, and loading it gives none. In all cases nothing is changed by giving the number. -/
theorem countRules_agrees (folder : ListFolder) (name : String) (world : World) :
    (world.disk.IsPresent (folder.convertedPath name .standard) →
      ∀ rules after, (folder.load name).runIn world = (.ok (some rules), after) →
        (folder.countRules name).runIn world = (.ok rules.size, world) ∧ after = world) ∧
    (¬world.disk.IsPresent (folder.convertedPath name .standard) →
      ∀ text, world.disk.HoldsText (folder.sourcePath name) text →
        (folder.countRules name).runIn world =
          (.ok (Document.candidates text.toList).length, world) ∧
        ∀ rules after, (folder.load name).runIn world = (.ok (some rules), after) →
          (folder.countRules name).runIn after = (.ok rules.size, after) ∧
          (Document.candidates text.toList).length =
            rules.size + (Document.unparsed text.toList).length) ∧
    (¬world.disk.IsPresent (folder.convertedPath name .standard) →
      ¬world.disk.IsPresent (folder.sourcePath name) →
        (folder.countRules name).runIn world = (.ok 0, world) ∧
        (folder.load name).runIn world =
          (.ok none, { world with journal := world.journal ++ [folder.missingEntry name] })) ∧
    ∀ fates, ((folder.countRules name).attempt fates world).2 = world := by
  refine ⟨?_, ?_, fun fresh missing =>
    ⟨runIn_countRules_of_missing fresh missing, runIn_load_of_missing fresh missing⟩,
    fun fates => attempt_countRules folder name fates world⟩
  · intro converted rules after ran
    obtain ⟨rfl, found, same, holds⟩ := load_eq_ok_of_converted converted ran
    obtain rfl := Option.some.inj same
    exact ⟨holds.runIn_countRules, rfl⟩
  · intro fresh text source
    refine ⟨runIn_countRules_of_source fresh source, fun rules after ran => ?_⟩
    obtain ⟨same, saved⟩ := load_eq_ok_of_source fresh source ran
    obtain rfl := Option.some.inj same
    have holds := holds_of_holdsText fun tier => saved.holdsText (mem_savingOrder tier)
    have counted := holds.runIn_countRules
    rw [TieredRules.size_withoutMarks] at counted
    refine ⟨counted, ?_⟩
    rw [Document.length_candidates, Document.size_rules_convert, Document.rejected_convert]

open Document (raggedFolder raggedText raggedWorld)

/-- A list is said to have five rules until it has been converted, and three from then on. -/
theorem ragged_countRules :
    (raggedFolder.countRules "ragged").runIn raggedWorld = (.ok 5, raggedWorld) ∧
      (∃ rules after,
        (raggedFolder.load "ragged").runIn raggedWorld = (.ok (some rules), after) ∧
        (raggedFolder.countRules "ragged").runIn after = (.ok 3, after)) ∧
      (raggedFolder.countRules "absent").runIn raggedWorld = (.ok 0, raggedWorld) := by
  have source : raggedWorld.disk.HoldsText (raggedFolder.sourcePath "ragged") raggedText := rfl
  have candidates : (Document.candidates raggedText.toList).length = 5 := by decide +kernel
  have left : (Document.unparsed raggedText.toList).length = 2 := by decide +kernel
  have succeeds : ((raggedFolder.load "ragged").runIn raggedWorld).1.toOption =
      some (some (Document.convert raggedText).rules) := by
    decide +kernel
  obtain ⟨-, fromSource, -⟩ := countRules_agrees raggedFolder "ragged" raggedWorld
  obtain ⟨-, -, nothing, -⟩ := countRules_agrees raggedFolder "absent" raggedWorld
  obtain ⟨before, later⟩ := fromSource (Disk.not_isPresent rfl) raggedText source
  obtain ⟨none, -⟩ := nothing (Disk.not_isPresent rfl) (Disk.not_isPresent rfl)
  rw [candidates] at before later
  rw [left] at later
  cases ran : (raggedFolder.load "ragged").runIn raggedWorld with
  | mk outcome after =>
    rw [ran] at succeeds
    cases outcome with
    | error failure => cases succeeds
    | ok loaded =>
      obtain rfl := Option.some.inj succeeds
      obtain ⟨counted, total⟩ := later _ after ran
      have three : (Document.convert raggedText).rules.size = 3 := by omega
      rw [three] at counted
      exact ⟨before, ⟨_, after, rfl, counted⟩, none⟩

end ListFolder

end FilterLists
