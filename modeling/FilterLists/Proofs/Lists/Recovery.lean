/-
This file shows that a conversion that did not come to its end never passes for a finished one,
whatever goes wrong: any request can be the last one, and any change of files can be refused.

The files of a list are written one after the other, and the standard file, which says that the list
has been converted, is the last of them. So at each moment the standard file is not there, or all
files hold the rules of the source. Both are kept by loading the list, in whichever way that ends,
and in both cases a list that does get loaded has the rules of its source. Old files of the other
tiers do not matter, for without the standard file they are written again.
-/

import FilterLists.Proofs.Lists.Reloading
import FilterLists.Proofs.Program.Attempts

namespace FilterLists

namespace ListFolder

variable {folder : ListFolder} {name text : String} {world after : World} {disk before : Disk}
  {location : Location} {rules : TieredRules} {fates : List Fate}

/-! ### Saving the files of a list -/

/-- Saves the rules of some tiers of a list, one file after the other. -/
def saveTiers (folder : ListFolder) (name : String) (rules : TieredRules) : List Tier → Job Unit
  | [] => pure ()
  | tier :: rest => do
    Rule.saveAll (folder.convertedPath name tier) (rules.get tier)
    folder.saveTiers name rules rest

theorem saveConverted_eq (folder : ListFolder) (name : String) (rules : TieredRules) :
    folder.saveConverted name rules =
      folder.saveTiers name rules savingOrder >>= fun _ =>
        Job.noteAll [savedEntry name rules] := by
  simp only [saveConverted, savingOrder, saveTiers, bind_assoc, pure_bind]
  rfl

/-- However things go, some tiers have been saved and the rest has not. Only if none is left, saving
has come to its end. -/
theorem Saved.attempt_saveTiers {done rest : List Tier} {ended : Option (Except Failure Unit)}
    (saved : Saved folder name rules done before world.disk)
    (located : before.locate (folder.sourcePath name) = .ok location)
    (distinct : (done ++ rest).Nodup)
    (attempted : (folder.saveTiers name rules rest).attempt fates world = (ended, after)) :
    ∃ written left, rest = written ++ left ∧
      Saved folder name rules (done ++ written) before after.disk ∧
      (left = [] ↔ ended = some (.ok ())) := by
  -- The first file that is not written is where saving ends, so what is written stays in front.
  induction rest generalizing done fates world with
  | nil =>
    cases attempted
    exact ⟨[], [], rfl, by simpa using saved, by simp⟩
  | cons tier rest inductionHypothesis =>
    have there := isDirectory_of_mem_ancestors (saved.sameDirectories.locate_eq_ok.mpr located) tier
    have isNew : tier ∉ done := fun member =>
      (List.nodup_append.mp distinct).2.2 tier member tier List.mem_cons_self rfl
    obtain ⟨rfl, first⟩ | ⟨failure, rfl, first⟩ | ⟨⟨⟩, later, between, first, attempted⟩ :=
      Job.attempt_bind attempted
    · cases Files.attempt_save there first with
      | brokenOff unchanged =>
        exact ⟨[], tier :: rest, rfl, by simpa [unchanged] using saved, by simp⟩
    · cases Files.attempt_save there first with
      | failed _ unchanged =>
        exact ⟨[], tier :: rest, rfl, by simpa [unchanged] using saved, by simp⟩
    · cases Files.attempt_save there first with
      | done isWritten =>
        obtain ⟨written, left, rfl, savedAll, isEnd⟩ :=
          inductionHypothesis (saved.add isNew isWritten) (by simpa using distinct) attempted
        exact ⟨tier :: written, left, rfl, by simpa using savedAll, isEnd⟩

/-- Of a list whose tiers are not all saved, the standard tier is not saved. -/
theorem standard_not_mem {written left : List Tier} (split : savingOrder = written ++ left)
    (isLeft : left ≠ []) : Tier.standard ∉ written := by
  obtain rfl | ⟨others, last, rfl⟩ := List.eq_nil_or_concat left
  · exact absurd rfl isLeft
  · have early : [Tier.advanced, .scriptlet] = written ++ others := by
      have lasts : [Tier.advanced, .scriptlet] ++ [.standard] = written ++ others ++ [last] :=
        split.trans (by simp)
      exact (List.append_inj' lasts rfl).1
    intro member
    have isEarly : Tier.standard ∈ [Tier.advanced, .scriptlet] :=
      early ▸ List.mem_append_left others member
    exact absurd isEarly (by decide)

/-- Saving other tiers does not bring the file for a tier about. -/
theorem Saved.isPresent_iff {tier : Tier} {tiers : List Tier}
    (saved : Saved folder name rules tiers before disk) (notSaved : tier ∉ tiers) :
    disk.IsPresent (folder.convertedPath name tier) ↔
      before.IsPresent (folder.convertedPath name tier) := by
  have plain := folder.insistsOnDirectory_convertedPath name tier
  rw [Disk.isPresent_iff plain, Disk.isPresent_iff plain]
  refine exists_congr fun location => ?_
  rw [saved.sameDirectories.locate_eq_ok]
  refine and_congr_right fun located => ?_
  rw [saved.unchanged location fun other member there =>
    notSaved (tier_eq_of_locate located there ▸ member)]

/-! ### Reading the source of a list -/

/-- What is done when a list is converted before anything is saved. -/
def readSource (folder : ListFolder) (name : String) : Job String := do
  Job.noteAll [convertingEntry name]
  let text ← Files.load (folder.sourcePath name)
  Job.noteAll (Document.convert text).journal
  return text

theorem convert_eq (folder : ListFolder) (name : String) :
    folder.convert name = folder.readSource name >>= fun text =>
      folder.saveConverted name (Document.convert text).rules >>= fun _ =>
        pure (Document.convert text).rules := by
  simp only [convert, readSource, bind_assoc, pure_bind]

theorem asks_readSource (folder : ListFolder) (name : String) :
    (folder.readSource name).Asks Request.KeepsFiles := by
  have notes : ∀ entries, (Job.noteAll entries).Asks Request.KeepsFiles :=
    Job.asks_noteAll fun _ => trivial
  have reads : (Files.load (folder.sourcePath name)).Asks Request.KeepsFiles :=
    Files.asks_load trivial
  exact (notes _).bind fun _ => reads.bind fun text => (notes _).bind fun _ => Job.asks_pure text

theorem runIn_readSource (source : world.disk.HoldsText (folder.sourcePath name) text) :
    (folder.readSource name).runIn world =
      (.ok text, { world with
        journal := world.journal ++ convertingEntry name :: (Document.convert text).journal }) := by
  have isRead : ∀ journal, (Files.load (folder.sourcePath name)).runIn { world with journal } =
      (.ok text, { world with journal }) :=
    fun _ => Files.load_eq_ok_iff.mpr ⟨rfl, source⟩
  unfold readSource
  rw [Job.runIn_bind_of_ok (Job.runIn_noteAll _ _), Job.runIn_bind_of_ok (isRead _),
    Job.runIn_bind_of_ok (Job.runIn_noteAll _ _), Job.runIn_pure, List.append_assoc,
    List.singleton_append]

/-! ### What is kept -/

/-- Whether a list can still be loaded rightly: it has its source, and if it is said to have been
converted, its files hold the rules of the source. -/
structure Recoverable (folder : ListFolder) (name text : String) (disk : Disk) : Prop where
  source : disk.HoldsText (folder.sourcePath name) text
  finished : disk.IsPresent (folder.convertedPath name .standard) →
    ∀ tier, disk.HoldsText (folder.convertedPath name tier)
      (Rule.encode ((Document.convert text).rules.get tier))

theorem recoverable_of_fresh
    (fresh : ¬disk.IsPresent (folder.convertedPath name .standard))
    (source : disk.HoldsText (folder.sourcePath name) text) :
    Recoverable folder name text disk :=
  ⟨source, fun there => absurd there fresh⟩

/-- What may be left behind by work on a list, in whichever way it has ended: the list can still be
loaded rightly, and it is said to have been converted if the work has succeeded, but not if it
has failed. -/
structure Settles {α : Type} (folder : ListFolder) (name text : String) (right : α → Prop)
    (ended : Option (Except Failure α)) (disk : Disk) : Prop where
  recoverable : Recoverable folder name text disk
  failed : ∀ failure, ended = some (.error failure) →
    ¬disk.IsPresent (folder.convertedPath name .standard)
  succeeded : ∀ value, ended = some (.ok value) →
    disk.IsPresent (folder.convertedPath name .standard) ∧ right value

theorem Recoverable.settles {α : Type} {right : α → Prop}
    (recoverable : Recoverable folder name text disk) :
    Settles folder name text right none disk :=
  ⟨recoverable, by simp, by simp⟩

theorem Settles.map {α β : Type} {right : α → Prop} {result : β → Prop} {change : α → β}
    {ended : Option (Except Failure α)} (settles : Settles folder name text right ended disk)
    (isRight : ∀ value, right value → result (change value)) :
    Settles folder name text result (ended.map fun outcome => outcome.map change) disk := by
  refine ⟨settles.recoverable, ?_, ?_⟩
  · intro failure failed
    obtain ⟨outcome, rfl, same⟩ := Option.map_eq_some_iff.mp failed
    cases outcome with
    | error other => exact settles.failed other rfl
    | ok value => cases same
  · intro result succeeded
    obtain ⟨outcome, rfl, same⟩ := Option.map_eq_some_iff.mp succeeded
    cases outcome with
    | error failure => cases same
    | ok value =>
      obtain rfl := Except.ok.inj same
      obtain ⟨there, valueIsRight⟩ := settles.succeeded value rfl
      exact ⟨there, isRight value valueIsRight⟩

section

variable (fresh : ¬world.disk.IsPresent (folder.convertedPath name .standard))
  (source : world.disk.HoldsText (folder.sourcePath name) text)

include fresh source

theorem settles_of_attempt_saveTiers {ended : Option (Except Failure Unit)}
    (attempted : (folder.saveTiers name (Document.convert text).rules savingOrder).attempt fates
      world = (ended, after)) :
    Settles folder name text (fun _ => True) ended after.disk := by
  obtain ⟨location, -, located, -, -⟩ :=
    Disk.get?_of_holdsText (folder.insistsOnDirectory_sourcePath name) source
  obtain ⟨written, left, split, saved, isEnd⟩ :=
    (Saved.start folder name _ world.disk).attempt_saveTiers located (by decide) attempted
  by_cases isLeft : left = []
  · obtain rfl : savingOrder = written := by simpa [isLeft] using split
    obtain rfl := isEnd.mp isLeft
    have inFiles := fun tier => saved.holdsText (mem_savingOrder tier)
    have there := (inFiles .standard).isPresent
      (folder.insistsOnDirectory_convertedPath name .standard)
    exact ⟨⟨saved.source source, fun _ => inFiles⟩, by simp, fun _ _ => ⟨there, trivial⟩⟩
  · have stillFresh : ¬after.disk.IsPresent (folder.convertedPath name .standard) :=
      fun there => fresh ((saved.isPresent_iff (standard_not_mem split isLeft)).mp there)
    exact ⟨recoverable_of_fresh stillFresh (saved.source source), fun _ _ => stillFresh,
      fun _ isDone => absurd (isEnd.mpr isDone) isLeft⟩

theorem settles_of_attempt_saveConverted {ended : Option (Except Failure Unit)}
    (attempted : (folder.saveConverted name (Document.convert text).rules).attempt fates world =
      (ended, after)) :
    Settles folder name text (fun _ => True) ended after.disk := by
  rw [saveConverted_eq] at attempted
  obtain ⟨rfl, first⟩ | ⟨failure, rfl, first⟩ | ⟨⟨⟩, rest, between, first, attempted⟩ :=
    Job.attempt_bind attempted
  all_goals have settles := settles_of_attempt_saveTiers fresh source first
  · exact settles
  · exact settles
  · obtain ⟨unchanged, rfl | rfl⟩ := Job.attempt_noteAll attempted
    · rw [unchanged]
      exact settles.recoverable.settles
    · rw [unchanged]
      exact settles

theorem settles_of_attempt_convert {ended : Option (Except Failure TieredRules)}
    (attempted : (folder.convert name).attempt fates world = (ended, after)) :
    Settles folder name text (· = (Document.convert text).rules) ended after.disk := by
  rw [convert_eq] at attempted
  obtain ⟨rfl, unchanged⟩ | ⟨left, between, unchanged, attempted⟩ :=
    Job.attempt_bind_of_keepsFiles (asks_readSource folder name)
      (congrArg Prod.fst (runIn_readSource source)) attempted
  · rw [unchanged]
    exact (recoverable_of_fresh fresh source).settles
  · obtain ⟨saved, attemptedSave, rfl⟩ := Job.attempt_bind_pure attempted
    rw [← unchanged] at fresh source
    exact (settles_of_attempt_saveConverted fresh source attemptedSave).map fun _ _ => rfl

end

/-! ### Loading a list -/

/-- Whether loading a list gives what its source does, but for first party marks. -/
def GivesSource (text : String) (loaded : Option TieredRules) : Prop :=
  ∃ rules, loaded = some rules ∧ rules.withoutMarks = (Document.convert text).rules.withoutMarks

theorem settles_of_attempt_loadConverted {ended : Option (Except Failure (Option TieredRules))}
    (recoverable : Recoverable folder name text world.disk)
    (there : world.disk.IsPresent (folder.convertedPath name .standard))
    (attempted : (folder.loadConverted name >>= fun rules => pure (some rules)).attempt fates
      world = (ended, after)) :
    Settles folder name text (GivesSource text) ended after.disk := by
  have holds := holds_of_holdsText (recoverable.finished there)
  have asks : (folder.loadConverted name).Asks Request.KeepsFiles :=
    asks_loadConverted (fun _ => trivial) (fun _ => trivial)
  obtain ⟨first, attemptedLoad, rfl⟩ := Job.attempt_bind_pure attempted
  obtain ⟨unchanged, ends⟩ := asks.attempt_of_keepsFiles attemptedLoad
  have loads : Settles folder name text (· = (Document.convert text).rules.withoutMarks) first
      after.disk := by
    rw [unchanged]
    have ran := holds.runIn_loadConverted
    refine ⟨recoverable, ?_, ?_⟩
    · rintro failure rfl
      rw [ends _ rfl] at ran
      cases ran
    · rintro rules rfl
      rw [ends _ rfl] at ran
      exact ⟨there, Except.ok.inj (congrArg Prod.fst ran)⟩
  exact loads.map fun rules same => ⟨rules, rfl, by rw [same, holds.withoutMarks_eq]⟩

/-- Loading a list, in whichever way it ends, leaves a list that can be loaded rightly. -/
theorem settles_of_attempt_load {ended : Option (Except Failure (Option TieredRules))}
    (recoverable : Recoverable folder name text world.disk)
    (attempted : (folder.load name).attempt fates world = (ended, after)) :
    Settles folder name text (GivesSource text) ended after.disk := by
  unfold load at attempted
  obtain ⟨rfl, unchanged⟩ | ⟨answer, left, looked, isConverted, unchanged, attempted⟩ :=
    Files.attempt_bind_isPresent attempted
  · rw [unchanged]
    exact recoverable.settles
  rw [← unchanged] at recoverable isConverted
  cases answer with
  | true =>
    -- The converted files are read and nothing else, so they cannot be damaged.
    simp only [if_true] at attempted
    exact settles_of_attempt_loadConverted recoverable (isConverted.mp rfl) attempted
  | false =>
    simp only [Bool.false_eq_true, if_false] at attempted
    have fresh : ¬looked.disk.IsPresent (folder.convertedPath name .standard) :=
      fun there => Bool.false_ne_true (isConverted.mpr there)
    obtain ⟨rfl, unchanged⟩ | ⟨sourceAnswer, left, lookedAgain, isThere, unchanged, attempted⟩ :=
      Files.attempt_bind_isPresent attempted
    · rw [unchanged]
      exact recoverable.settles
    obtain rfl : sourceAnswer = true := isThere.mpr
      (recoverable.source.isPresent (folder.insistsOnDirectory_sourcePath name))
    obtain ⟨first, attemptedConvert, rfl⟩ := Job.attempt_bind_pure attempted
    rw [← unchanged] at fresh recoverable
    have converts := settles_of_attempt_convert fresh recoverable.source attemptedConvert
    exact converts.map fun rules same => ⟨rules, rfl, congrArg TieredRules.withoutMarks same⟩

/-- The world after a list has been loaded again and again, in whichever ways that has ended. -/
def afterLoads (folder : ListFolder) (name : String) : List (List Fate) → World → World
  | [], world => world
  | fates :: later, world =>
    folder.afterLoads name later ((folder.load name).attempt fates world).2

theorem Recoverable.afterLoads (recoverable : Recoverable folder name text world.disk)
    (attempts : List (List Fate)) :
    Recoverable folder name text (folder.afterLoads name attempts world).disk := by
  induction attempts generalizing world with
  | nil => exact recoverable
  | cons fates later inductionHypothesis =>
    exact inductionHypothesis (settles_of_attempt_load recoverable rfl).recoverable

/-- A list that has not been converted is not said to have been if loading it fails. If its rules
are saved, however far that gets, and the list is then loaded until that succeeds, it gives what
its source does, and its files hold just that. -/
theorem load_recovers (fresh : ¬world.disk.IsPresent (folder.convertedPath name .standard))
    (source : world.disk.HoldsText (folder.sourcePath name) text) :
    (∀ fates failure after,
      (folder.load name).attempt fates world = (some (.error failure), after) →
      ¬after.disk.IsPresent (folder.convertedPath name .standard)) ∧
    ∀ fates ended cut,
      (folder.saveConverted name (Document.convert text).rules).attempt fates world =
        (ended, cut) →
      ∀ attempts lastFates loaded after,
        (folder.load name).attempt lastFates (folder.afterLoads name attempts cut) =
          (some (.ok loaded), after) →
        GivesSource text loaded ∧
          ∀ tier, after.disk.HoldsText (folder.convertedPath name tier)
            (Rule.encode ((Document.convert text).rules.get tier)) := by
  refine ⟨?_, ?_⟩
  · intro fates failure after attempted
    have settles := settles_of_attempt_load (recoverable_of_fresh fresh source) attempted
    exact settles.failed failure rfl
  · intro fates ended cut attemptedSave attempts lastFates loaded after attempted
    have saved := settles_of_attempt_saveConverted fresh source attemptedSave
    have settles :=
      settles_of_attempt_load (saved.recoverable.afterLoads attempts) attempted
    obtain ⟨there, gives⟩ := settles.succeeded loaded rfl
    exact ⟨gives, settles.recoverable.finished there⟩

/-! ### A list with old files -/

def staleText : String :=
  "ads$1p\n##.banner\n##+js(log, x)"

/-- A folder with a list that has not been converted, and with old files for two of its tiers. -/
def staleWorld : World where
  disk := {
    home := []
    entries := [
      (["lists"], .directory),
      (["lists", "stale.txt"], .file staleText.toUTF8),
      (["lists", "stale_advanced.json"], .file "[]".toUTF8),
      (["lists", "stale_scriptlets.json"], .file "[".toUTF8)] }

def staleFolder : ListFolder where
  directory := "lists"

/-- Loading the list fails if the last file cannot be written. If saving its rules is broken off
before the last file and a first attempt to load it before the second, the next one succeeds. -/
theorem stale_load_recovers :
    (∃ failure after,
      (staleFolder.load "stale").attempt (List.replicate 13 .answered ++ [.refused .busy])
        staleWorld = (some (.error failure), after) ∧
      ¬after.disk.IsPresent (staleFolder.convertedPath "stale" .standard)) ∧
    ∃ cut loaded after,
      (staleFolder.saveConverted "stale" (Document.convert staleText).rules).attempt
        (List.replicate 8 .answered) staleWorld = (none, cut) ∧
      (staleFolder.load "stale").attempt (List.replicate 15 .answered)
        (staleFolder.afterLoads "stale" [List.replicate 10 .answered] cut) =
          (some (.ok loaded), after) ∧
      GivesSource staleText loaded ∧
      ∀ tier, after.disk.HoldsText (staleFolder.convertedPath "stale" tier)
        (Rule.encode ((Document.convert staleText).rules.get tier)) := by
  have missing : staleWorld.disk.inspect (staleFolder.convertedPath "stale" .standard) =
      .error .notFound := rfl
  have fresh := Disk.not_isPresent missing
  have source : staleWorld.disk.HoldsText (staleFolder.sourcePath "stale") staleText := rfl
  obtain ⟨failing, recovering⟩ := load_recovers fresh source
  refine ⟨?_, ?_⟩
  · have fails : ((staleFolder.load "stale").attempt
        (List.replicate 13 .answered ++ [.refused .busy]) staleWorld).1.map Except.toOption =
          some none := by
      decide +kernel
    obtain ⟨outcome, ended, isError⟩ := Option.map_eq_some_iff.mp fails
    cases outcome with
    | ok loaded => cases isError
    | error failure =>
      have attempted := Job.attempt_eq ended
      exact ⟨failure, _, attempted, failing _ failure _ attempted⟩
  · have brokenOff : ((staleFolder.saveConverted "stale" (Document.convert staleText).rules).attempt
        (List.replicate 8 .answered) staleWorld).1 = none := by
      decide +kernel
    have succeeds : ((staleFolder.load "stale").attempt (List.replicate 15 .answered)
        (staleFolder.afterLoads "stale" [List.replicate 10 .answered]
          ((staleFolder.saveConverted "stale" (Document.convert staleText).rules).attempt
            (List.replicate 8 .answered) staleWorld).2)).1.map Except.toOption =
          some (some (some (Document.convert staleText).rules)) := by
      decide +kernel
    obtain ⟨outcome, ended, isLoaded⟩ := Option.map_eq_some_iff.mp succeeds
    cases outcome with
    | error failure => cases isLoaded
    | ok loaded =>
      have attemptedSave := Job.attempt_eq brokenOff
      have attempted := Job.attempt_eq ended
      exact ⟨_, loaded, _, attemptedSave, attempted,
        recovering _ _ _ attemptedSave _ _ loaded _ attempted⟩

end ListFolder

end FilterLists
