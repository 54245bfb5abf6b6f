/-
This file shows that a conversion accounts for every line of its document. Four numbers are counted
on the way, rules are sorted into three lists, and what is left out is written to the journal; and
how many rules a document may have is told by a count of its own, which reads no rule. All of them
are read off the verdicts on the lines. A line gets one verdict, so it is counted once, and what
gets a verdict other than being skipped is a candidate line.

How many lines there are is told by the line feeds. Text after the last of them is one line more.
-/

import FilterLists.Proofs.Candidates
import FilterLists.Proofs.Lists.Recovery

namespace FilterLists

/-! ### The number of lines -/

namespace Text

theorem length_splitFrom (separator : Char) (piece text : List Char) :
    (splitFrom separator piece text).length = text.count separator + 1 := by
  induction text generalizing piece with
  | nil => rfl
  | cons character rest inductionHypothesis =>
    by_cases separates : character = separator
    · simp [splitFrom, separates, inductionHypothesis]
    · simp [splitFrom, separates, inductionHypothesis]

theorem length_splitOn (separator : Char) (text : List Char) :
    (splitOn separator text).length = text.count separator + 1 :=
  length_splitFrom separator [] text

/-- Every piece is a line, but the last only if something stands in it. -/
theorem length_linesOfPieces (pieces : List (List Char)) (last : List Char) :
    (linesOfPieces (pieces ++ [last])).length = pieces.length + if last = [] then 0 else 1 := by
  induction pieces with
  | nil => by_cases empty : last = [] <;> simp [linesOfPieces, empty]
  | cons piece rest inductionHypothesis =>
    obtain ⟨next, others, parts⟩ : ∃ next others, rest ++ [last] = next :: others :=
      List.exists_cons_of_ne_nil (by simp)
    rw [List.cons_append, parts, linesOfPieces, List.length_cons, ← parts, inductionHypothesis,
      List.length_cons]
    omega

end Text

namespace Document

instance (text : List Char) : Decidable (StartsLine text) :=
  decidable_of_iff (text = [] ∨ text.getLast? = some '\n')
    (or_congr_right List.getLast?_eq_some_iff)

theorem length_lines (text : List Char) :
    (Text.lines text).length = text.count '\n' + if StartsLine text then 0 else 1 := by
  obtain rfl | ⟨front, last, rfl⟩ := List.eq_nil_or_concat text
  · rfl
  rw [List.concat_eq_append]
  by_cases newline : last = '\n'
  · subst newline
    have pieces : Text.splitOn '\n' (front ++ ['\n']) = Text.splitOn '\n' front ++ [[]] :=
      Text.splitOn_append_cons front []
    have starts : StartsLine (front ++ ['\n']) := .inr ⟨front, rfl⟩
    rw [Text.lines, pieces, Text.length_linesOfPieces, Text.length_splitOn, if_pos rfl,
      if_pos starts, List.count_append, List.count_singleton_self]
  · obtain ⟨pieces, tail, splits⟩ := Text.exists_splitOn_append '\n' front
    have before := congrArg List.length (splits [] List.not_mem_nil)
    have whole := splits [last] (by simp [Ne.symm newline])
    have goesOn : ¬ StartsLine (front ++ [last]) := by
      rintro (empty | ⟨other, same⟩)
      · simp at empty
      · exact newline (List.singleton_inj.mp (List.append_inj' same rfl).2)
    rw [List.append_nil, Text.length_splitOn, List.length_append] at before
    rw [Text.lines, whole, Text.length_linesOfPieces, if_neg (by simp), if_neg goesOn,
      List.count_append, List.count_eq_zero_of_not_mem (by simp [Ne.symm newline] : '\n' ∉ [last])]
    simpa using before.symm

/-! ### What the lines come to -/

/-- The candidate lines of a document that stand for no rule. -/
def unparsed (text : List Char) : List (List Char) :=
  (candidates text).filter fun line => (Rule.ofChars? line).isNone

theorem rejectedLine?_ofLine (line : List Char) :
    (Verdict.ofLine line).rejectedLine? =
      if isCandidate line ∧ (Rule.ofChars? line).isNone then some (.ofList line) else none := by
  unfold Verdict.ofLine
  by_cases candidate : isCandidate line
  · cases Rule.ofChars? line <;> simp [candidate, Verdict.rejectedLine?]
  · simp [candidate, Verdict.rejectedLine?]

theorem rejectedLines_convert (text : String) :
    (convert text).rejectedLines = (unparsed text.toList).map String.ofList := by
  show ((trimmedLines text.toList).map Verdict.ofLine).filterMap Verdict.rejectedLine? = _
  unfold unparsed candidates
  rw [List.filterMap_map, List.filter_filter, ← List.filterMap_eq_map, List.filterMap_filter]
  refine congrArg (List.filterMap · _) (funext fun line => ?_)
  rw [Function.comp_apply, rejectedLine?_ofLine]
  simp [and_comm]

theorem isSkipped_ofLine (line : List Char) :
    (Verdict.ofLine line).isSkipped = !isCandidate line := by
  unfold Verdict.ofLine
  by_cases candidate : isCandidate line
  · cases Rule.ofChars? line <;> simp [candidate, Verdict.isSkipped]
  · simp [candidate, Verdict.isSkipped]

theorem skipped_convert (text : String) :
    (convert text).skipped = (trimmedLines text.toList).countP fun line => !isCandidate line := by
  show ((trimmedLines text.toList).map Verdict.ofLine).countP Verdict.isSkipped = _
  rw [List.countP_map]
  exact congrArg (List.countP · _) (funext isSkipped_ofLine)

theorem isAccepted_eq (verdict : Verdict) : verdict.isAccepted = verdict.rule?.isSome := by
  cases verdict <;> rfl

theorem accepted_convert (text : String) :
    (convert text).accepted =
      (candidates text.toList).countP fun line => (Rule.ofChars? line).isSome := by
  show (verdicts text.toList).countP Verdict.isAccepted = _
  rw [funext isAccepted_eq, ← List.length_filterMap_eq_countP, filterMap_rule?_verdicts,
    List.length_filterMap_eq_countP]

theorem size_rules_convert (text : String) :
    (convert text).rules.size = (convert text).accepted := by
  rw [rules_convert, TieredRules.size_ofList, accepted_convert, rulesOf,
    List.length_filterMap_eq_countP]

theorem rejected_convert (text : String) :
    (convert text).rejected = (unparsed text.toList).length := by
  rw [Conversion.rejected, rejectedLines_convert, List.length_map]

/-- Every candidate line stands for a rule or is left out. -/
theorem length_candidates (text : String) :
    (candidates text.toList).length = (convert text).accepted + (convert text).rejected := by
  rw [accepted_convert, rejected_convert, unparsed, ← List.countP_eq_length_filter,
    List.length_eq_countP_add_countP fun line => (Rule.ofChars? line).isSome]
  refine congrArg (_ + List.countP · _) (funext fun line => ?_)
  cases Rule.ofChars? line <;> rfl

/-- Every line is skipped or is a candidate line. -/
theorem lines_convert (text : String) :
    (convert text).lines = (convert text).skipped + (candidates text.toList).length := by
  show ((trimmedLines text.toList).map Verdict.ofLine).length = _
  rw [List.length_map, skipped_convert, candidates, ← List.countP_eq_length_filter,
    List.length_eq_countP_add_countP isCandidate, Nat.add_comm]
  simp

/-! ### What is reported -/

/-- The report on a line that is left out. -/
def rejectionEntry (line : List Char) : Journal.Entry where
  level := .debug
  target := .conversion
  message := "Skipping unsupported line: " ++ .ofList line

/-- The report on a whole document. -/
def summaryEntry (lines rejected : Nat) (rules : TieredRules) : Journal.Entry where
  level := .info
  target := .conversion
  message := s!"Converted {lines} lines: {rules.standard.length} standard, " ++
    s!"{rules.advanced.length} advanced, {rules.scriptlet.length} scriptlet rules " ++
    s!"({rejected} rejected)"

theorem journal_convert (text : String) :
    (convert text).journal =
      (unparsed text.toList).map rejectionEntry ++
        [summaryEntry (convert text).lines (convert text).rejected (convert text).rules] := by
  unfold Conversion.journal
  rw [rejectedLines_convert, List.map_map]
  refine congrArg (_ ++ [·]) ?_
  unfold summaryEntry
  simp only [String.append_assoc]
  rfl

end Document

/-! ### Jobs that report nothing -/

/-- Whether a request is not to note anything. -/
def Request.IsSilent : Request → Prop
  | note _ => False
  | _ => True

variable {α : Type} {world : World} {folder : ListFolder} {name text : String}

theorem World.journal_withDisk (world : World) (outcome : Except Cause Disk) :
    (world.withDisk outcome).2.journal = world.journal := by
  cases outcome <;> rfl

theorem World.journal_answer {request : Request} (silent : request.IsSilent) (world : World) :
    (world.answer request).2.journal = world.journal := by
  cases request <;> first | rfl | exact world.journal_withDisk _ | exact silent.elim

theorem Job.Asks.journal_runIn {job : Job α} (asks : job.Asks Request.IsSilent) (world : World) :
    (job.runIn world).2.journal = world.journal := by
  obtain ⟨fates, attempted⟩ := Program.exists_attempt_eq_run (ExceptT.run job) world
  exact asks.attempt_keeps (fun later => later.journal = world.journal)
    (fun request between silent same => (between.journal_answer silent).trans same) rfl attempted

namespace ListFolder

theorem asks_saveTiers (folder : ListFolder) (name : String) (rules : TieredRules)
    (tiers : List Tier) : (folder.saveTiers name rules tiers).Asks Request.IsSilent := by
  induction tiers with
  | nil => exact Job.asks_pure ()
  | cons tier rest inductionHypothesis =>
    have saves : (Rule.saveAll (folder.convertedPath name tier) (rules.get tier)).Asks
        Request.IsSilent :=
      Files.asks_save trivial fun _ _ => ⟨trivial, trivial⟩
    exact saves.bind fun _ => inductionHypothesis

/-- Only if all rules of a list have been saved, this is reported. -/
theorem journal_saveConverted (folder : ListFolder) (name : String) (rules : TieredRules)
    (world : World) :
    ((folder.saveConverted name rules).runIn world).2.journal =
      world.journal ++
        (((folder.saveConverted name rules).runIn world).1.toOption.map fun _ =>
          savedEntry name rules).toList := by
  have silent := (asks_saveTiers folder name rules savingOrder).journal_runIn world
  rw [saveConverted_eq]
  cases ran : (folder.saveTiers name rules savingOrder).runIn world with
  | mk outcome between =>
    rw [ran] at silent
    cases outcome with
    | error failure =>
      rw [Job.runIn_bind_of_error ran, silent]
      exact (List.append_nil _).symm
    | ok _ =>
      rw [Job.runIn_bind_of_ok ran, Job.runIn_noteAll, silent]
      rfl

/-- A list whose source can be read is reported line by line, and then whether its rules have been
saved. -/
theorem journal_convert (source : world.disk.HoldsText (folder.sourcePath name) text) :
    ((folder.convert name).runIn world).2.journal =
      world.journal ++ convertingEntry name :: (Document.convert text).journal ++
        (((folder.convert name).runIn world).1.toOption.map (savedEntry name)).toList := by
  rw [convert_eq, Job.runIn_bind_of_ok (runIn_readSource source)]
  have saves := journal_saveConverted folder name (Document.convert text).rules
    { world with
      journal := world.journal ++ convertingEntry name :: (Document.convert text).journal }
  cases ran : (folder.saveConverted name (Document.convert text).rules).runIn _ with
  | mk outcome after =>
    rw [ran] at saves
    cases outcome with
    | error failure =>
      rw [Job.runIn_bind_of_error ran]
      exact saves
    | ok _ =>
      rw [Job.runIn_bind_of_ok ran]
      exact saves

end ListFolder

/-! ### The account of a conversion -/

namespace Document

/-- A conversion accounts for every line: it is skipped, it stands for a rule, or it is rejected.
There are as many rules as there are lines that stand for one, and the estimate is too high by the
number of rejected lines. These are reported in the order of the document, and after them all the
numbers. Where a list is converted, nothing is reported in between. -/
theorem conversion_accounts (text : String) :
    ((convert text).lines = text.toList.count '\n' + if StartsLine text.toList then 0 else 1) ∧
    ((convert text).lines =
      (convert text).skipped + (convert text).rejected + (convert text).accepted) ∧
    ((convert text).skipped =
      (trimmedLines text.toList).countP fun line => !isCandidate line) ∧
    ((convert text).accepted = (convert text).rules.size ∧
      (convert text).accepted =
        (candidates text.toList).countP fun line => (Rule.ofChars? line).isSome) ∧
    ((convert text).rejected = (unparsed text.toList).length) ∧
    (estimate text = (convert text).accepted + (convert text).rejected ∧
      (convert text).rules.size ≤ estimate text) ∧
    ((convert text).journal =
      (unparsed text.toList).map rejectionEntry ++
        [summaryEntry (convert text).lines (convert text).rejected (convert text).rules]) ∧
    ∀ (folder : ListFolder) (name : String) (world : World),
      world.disk.HoldsText (folder.sourcePath name) text →
      ((folder.convert name).runIn world).2.journal =
        world.journal ++ ListFolder.convertingEntry name :: (convert text).journal ++
          (((folder.convert name).runIn world).1.toOption.map
            (ListFolder.savedEntry name)).toList := by
  have ofLines : (convert text).lines = (Text.lines text.toList).length := by
    show ((trimmedLines text.toList).map Verdict.ofLine).length = _
    rw [List.length_map, trimmedLines, List.length_map]
  have estimated : estimate text = (convert text).accepted + (convert text).rejected :=
    length_candidates text
  have sorted := size_rules_convert text
  refine ⟨?_, ?_, skipped_convert text, ⟨sorted.symm, accepted_convert text⟩,
    rejected_convert text, ⟨estimated, ?_⟩, journal_convert text, ?_⟩
  · rw [ofLines, length_lines]
  · rw [lines_convert, length_candidates]
    omega
  · omega
  · exact fun _ _ _ source => ListFolder.journal_convert source

/-! ### A document with rejected lines -/

/-- A document with lines of all kinds and with different line ends. -/
def raggedText : String :=
  "[Adblock]\n\n  ads$1p \n ## \n##+js(log, x)\r\n$\n##.banner"

/-- A folder with a list that has not been converted. -/
def raggedWorld : World where
  disk := {
    home := []
    entries := [
      (["lists"], .directory),
      (["lists", "ragged.txt"], .file raggedText.toUTF8)] }

def raggedFolder : ListFolder where
  directory := "lists"

/-- Of the seven lines two are skipped, three accepted, and two rejected; both of these are reported
when the list is converted. -/
theorem ragged_accounts :
    (convert raggedText).lines = 7 ∧ (convert raggedText).skipped = 2 ∧
      (convert raggedText).accepted = 3 ∧ (convert raggedText).rejected = 2 ∧
      raggedWorld.disk.HoldsText (raggedFolder.sourcePath "ragged") raggedText ∧
      ((raggedFolder.convert "ragged").runIn raggedWorld).2.journal =
        ListFolder.convertingEntry "ragged" ::
          ([rejectionEntry ['#', '#'], rejectionEntry ['$'],
            summaryEntry 7 2 (convert raggedText).rules] ++
          [ListFolder.savedEntry "ragged" (convert raggedText).rules]) := by
  have source : raggedWorld.disk.HoldsText (raggedFolder.sourcePath "ragged") raggedText := rfl
  obtain ⟨-, -, -, -, rejected, -, reports, logs⟩ := conversion_accounts raggedText
  have lines : (convert raggedText).lines = 7 := by decide +kernel
  have left : unparsed raggedText.toList = [['#', '#'], ['$']] := by decide +kernel
  have saved : ((raggedFolder.convert "ragged").runIn raggedWorld).1.toOption =
      some (convert raggedText).rules := by
    decide +kernel
  rw [left] at rejected
  refine ⟨lines, by decide +kernel, by decide +kernel, rejected, source, ?_⟩
  rw [logs raggedFolder "ragged" raggedWorld source, saved, reports, left, lines, rejected]
  rfl

end Document

end FilterLists
