/-
This file says which rules documents are converted to: those of their candidate lines, document by
document and line by line, sorted by tier. Sorting the rules of each document and joining what
comes out is the same as sorting the rules of all documents, and so is taking the rules one by one.
-/

import FilterLists.Document

namespace FilterLists

theorem TieredRules.join_map_ofList (lists : List (List Rule)) :
    join (lists.map ofList) = ofList lists.flatten := by
  have sorted : ∀ tier, ((lists.map ofList).flatMap fun rules => rules.get tier) =
      (ofList lists.flatten).get tier := by
    intro tier
    rw [List.flatMap_map, List.flatMap_def]
    cases tier <;> exact List.filter_flatten.symm
  show mk _ _ _ = mk _ _ _
  rw [mk.injEq]
  exact ⟨sorted .standard, sorted .advanced, sorted .scriptlet⟩

namespace Rule

theorem tier_eq_standard_iff {rule : Rule} : rule.tier = .standard ↔ rule.action = .block := by
  unfold tier
  cases rule.action <;> simp [Action.tier]

theorem tier_eq_advanced_iff {rule : Rule} :
    rule.tier = .advanced ↔
      rule.action = .ignorePrevious ∨ ∃ selector, rule.action = .hide selector := by
  unfold tier
  cases rule.action <;> simp [Action.tier]

theorem tier_eq_scriptlet_iff {rule : Rule} :
    rule.tier = .scriptlet ↔ ∃ name arguments, rule.action = .scriptlet name arguments := by
  unfold tier
  cases rule.action <;> simp [Action.tier]

end Rule

namespace Document

/-- The rules that the lines of a document stand for, in the order of the lines. -/
def rulesOf (text : String) : List Rule :=
  (candidates text.toList).filterMap Rule.ofChars?

theorem rule?_ofLine (line : List Char) :
    (Verdict.ofLine line).rule? = if isCandidate line then Rule.ofChars? line else none := by
  unfold Verdict.ofLine
  by_cases candidate : isCandidate line
  · rw [if_pos candidate, if_pos candidate]
    cases Rule.ofChars? line <;> rfl
  · rw [if_neg candidate, if_neg candidate]
    rfl

theorem filterMap_rule?_verdicts (text : List Char) :
    (verdicts text).filterMap Verdict.rule? = (candidates text).filterMap Rule.ofChars? := by
  unfold verdicts candidates
  rw [List.filterMap_map, List.filterMap_filter]
  exact congrArg (List.filterMap · _) (funext rule?_ofLine)

theorem rules_convert (text : String) : (convert text).rules = .ofList (rulesOf text) :=
  congrArg TieredRules.ofList (filterMap_rule?_verdicts text.toList)

/-- Documents are converted to the rules of all their lines, sorted by tier. -/
theorem convertAll_eq_ofList (texts : List String) :
    convertAll texts = .ofList (texts.flatMap rulesOf) := by
  unfold convertAll
  rw [List.map_congr_left fun text _ => rules_convert text, List.flatMap_def,
    ← TieredRules.join_map_ofList, List.map_map]
  rfl

/-- Documents can be converted by putting one rule after the other at the end of its tier. -/
theorem convertAll_eq_foldl_push (texts : List String) :
    convertAll texts = (texts.flatMap rulesOf).foldl TieredRules.push {} := by
  rw [convertAll_eq_ofList, TieredRules.foldl_push, TieredRules.empty_append]

end Document

end FilterLists
