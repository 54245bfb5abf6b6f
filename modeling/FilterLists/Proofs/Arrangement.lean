/-
This file shows where the rules of documents come to lie. Which container a rule goes to is decided
by its tier alone, and its tier by its action alone. So each container holds rules of known
kinds only, in runs, and in each run the rules stand in the order of the documents.

The generated hiding rule is the last one of the third container if it finds room there, and it
never takes the place of a scriptlet rule. It is written out here once more, so that what is said of
the third container does not depend on what happens to be generated.
-/

import FilterLists.Proofs.Containers
import FilterLists.Proofs.Document

namespace FilterLists

variable {capacity : Nat} {found : List Rule}

theorem Supplement.action_of_mem_blockRules {rule : Rule} (member : rule ∈ blockRules) :
    rule.action = .block := by
  obtain endpoint | urlFilter := List.mem_append.mp member
  · obtain ⟨_, -, rfl⟩ := List.mem_map.mp endpoint
    rfl
  · obtain ⟨_, -, rfl⟩ := List.mem_map.mp urlFilter
    rfl

namespace Plan

/-- All rules that block loads: those that were found, and then the supplementary ones. -/
def blockingRules (found : List Rule) : List Rule :=
  (found.filter fun rule => rule.action = .block) ++ Supplement.blockRules

/-- The rule that is generated: on the video site, whatever is loaded, it hides the elements that
show advertisements. -/
def hidingRule : Rule where
  action := .hide (".video-ads, .ytp-ad-module, .ytp-ad-player-overlay, #masthead-ad, " ++
    "ytd-promoted-video-renderer, ytd-display-ad-renderer, ytd-promoted-sparkles-web-renderer, " ++
    "#player-ads")
  trigger := { urlFilter := ".*", ifDomain := ["youtube.com", "youtu.be", "youtube-nocookie.com"] }

theorem hidingRules_eq : Supplement.hidingRules = [hidingRule] := by
  decide +kernel

/-- Whether the rules that were found in documents lie in the containers by kind and in order. -/
structure Arranges (capacity : Nat) (found : List Rule) (plan : Plan) : Prop where
  first : ∀ rule ∈ plan.first, rule.action = .block
  second : ∃ blocking others, plan.second = blocking ++ others ∧
    (∀ rule ∈ blocking, rule.action = .block) ∧
    (∀ rule ∈ others, rule.action = .ignorePrevious ∨ ∃ selector, rule.action = .hide selector) ∧
    plan.first ++ blocking =
      (blockingRules found).take (min (2 * capacity) (blockingRules found).length) ∧
    others <+: found.filter fun rule => rule.tier = .advanced
  third : ∃ calls last, plan.third = calls ++ last ∧
    (∀ rule ∈ calls, ∃ name arguments, rule.action = .scriptlet name arguments) ∧
    calls <+: (found.filter fun rule => rule.tier = .scriptlet) ∧
    (last = [hidingRule] ∨ last = [] ∧ calls.length = capacity)

theorem action_of_mem_blockingRules {rule : Rule} (member : rule ∈ blockingRules found) :
    rule.action = .block := by
  obtain inFound | supplementary := List.mem_append.mp member
  · simpa using (List.mem_filter.mp inFound).2
  · exact Supplement.action_of_mem_blockRules supplementary

theorem standard_supplemented (found : List Rule) :
    (TieredRules.ofList found).supplemented.standard = blockingRules found := by
  simp only [TieredRules.supplemented, TieredRules.ofList, blockingRules,
    Rule.tier_eq_standard_iff]

theorem arranges_fill (capacity : Nat) (found : List Rule) :
    (fill capacity (TieredRules.ofList found).supplemented Supplement.hidingRules).Arranges
      capacity found where
  first := by
    intro rule member
    simp only [fill, standard_supplemented] at member
    exact action_of_mem_blockingRules (List.mem_of_mem_take member)
  second := by
    refine ⟨((blockingRules found).drop capacity).take capacity,
      (TieredRules.ofList found).advanced.take
        (capacity - ((blockingRules found).drop capacity).length), ?_, ?_, ?_, ?_, ?_⟩
    · simp only [fill, standard_supplemented]
      exact List.take_append
    · intro rule member
      exact action_of_mem_blockingRules (List.mem_of_mem_drop (List.mem_of_mem_take member))
    · intro rule member
      have advanced := (List.mem_filter.mp (List.mem_of_mem_take member)).2
      exact Rule.tier_eq_advanced_iff.mp (of_decide_eq_true advanced)
    · simp only [fill, standard_supplemented]
      rw [← List.take_eq_take_min, Nat.two_mul, List.take_add]
    · exact List.take_prefix _ _
  third := by
    rw [hidingRules_eq]
    refine ⟨(TieredRules.ofList found).scriptlet.take capacity,
      [hidingRule].take (capacity - (TieredRules.ofList found).scriptlet.length),
      List.take_append, ?_, List.take_prefix _ _, ?_⟩
    · intro rule member
      have scriptlet := (List.mem_filter.mp (List.mem_of_mem_take member)).2
      exact Rule.tier_eq_scriptlet_iff.mp (of_decide_eq_true scriptlet)
    · by_cases room : (TieredRules.ofList found).scriptlet.length < capacity
      · left
        refine List.take_of_length_le ?_
        show 1 ≤ _
        omega
      · right
        rw [Nat.sub_eq_zero_of_le (Nat.le_of_not_lt room), List.length_take]
        exact ⟨rfl, Nat.min_eq_left (Nat.le_of_not_lt room)⟩

end Plan

/-- Whatever documents hold, their rules can be distributed over containers that take any rules at
all, and then they lie there by kind and in the order of the documents. -/
theorem documents_arranged (positive : 0 < capacity) (texts : List String) :
    ∃ plan, distributeSupplemented { capacity } (Document.convertAll texts) = .ok plan ∧
      plan.Arranges capacity (texts.flatMap Document.rulesOf) := by
  refine ⟨_, distribute_eq_fill positive rfl _ _, ?_⟩
  rw [Document.convertAll_eq_ofList]
  exact Plan.arranges_fill capacity _

def sampleDocuments : List String :=
  ["ads\n@@good", "##.banner\n##+js(log)"]

/-- In containers for 12 rules each, the 23 blocking rules leave room for one of two other rules,
and the rule for a scriptlet leaves room for the one that is generated. -/
theorem sample_documents_arranged :
    0 < 12 ∧ ∃ plan,
      distributeSupplemented { capacity := 12 } (Document.convertAll sampleDocuments) = .ok plan ∧
      plan.Arranges 12 (sampleDocuments.flatMap Document.rulesOf) ∧
      plan.first.map (fun rule => rule.trigger.urlFilter) =
        ["ads", ".*doubleclick\\.net", ".*googleadservices\\.com", ".*googlesyndication\\.com",
          ".*google-analytics\\.com", ".*googletagmanager\\.com", ".*googletagservices\\.com",
          ".*youtube\\.com/api/stats/ads", ".*youtube\\.com/api/stats/qoe",
          ".*youtube\\.com/pagead", ".*youtube\\.com/ptracking",
          ".*youtube\\.com/get_midroll_info"] ∧
      plan.second.map (fun rule => rule.action) = List.replicate 11 .block ++ [.ignorePrevious] ∧
      plan.third.map (fun rule => rule.action) =
        [.scriptlet "log" [],
          .hide (".video-ads, .ytp-ad-module, .ytp-ad-player-overlay, #masthead-ad, " ++
            "ytd-promoted-video-renderer, ytd-display-ad-renderer, " ++
            "ytd-promoted-sparkles-web-renderer, #player-ads")] ∧
      plan.dropped.advanced = 1 := by
  obtain ⟨plan, distributed, arranges⟩ :=
    documents_arranged (show 0 < 12 by decide) sampleDocuments
  have filled : distributeSupplemented { capacity := 12 } (Document.convertAll sampleDocuments) =
      .ok (.fill 12 (Document.convertAll sampleDocuments).supplemented Supplement.hidingRules) :=
    distribute_eq_fill (by decide) rfl _ _
  obtain rfl := Except.ok.inj (filled.symm.trans distributed)
  exact ⟨by decide, _, distributed, arranges, by decide +kernel⟩

end FilterLists
