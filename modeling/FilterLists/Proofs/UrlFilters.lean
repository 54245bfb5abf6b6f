/-
This file shows that the engine can read every rule that it is given. One URL filter that it cannot
read makes it refuse a whole container, so there must be none, whatever the documents hold.

Rules come from lines of documents and from the supplementary rules, and the URL filter of each of
them translates some pattern that is not empty, that of a rule for all addresses included. So what
is known of translated patterns is known of all rules, and no distribution adds any.
-/

import FilterLists.Proofs.Containers
import FilterLists.Proofs.Document
import FilterLists.Proofs.Pattern.Grammar

namespace FilterLists

variable {capacity : Nat} {rules : TieredRules} {generated found : List Rule} {rule : Rule}

/-! ### Rules with a pattern -/

/-- Whether the URL filter of a rule is the translation of a pattern that is not empty. -/
def Rule.HasPattern (rule : Rule) : Prop :=
  ∃ pattern : List Char, pattern ≠ [] ∧
    rule.trigger.urlFilter = .ofList (Pattern.print (Pattern.pieces pattern))

theorem Rule.HasPattern.isUrlFilter (hasPattern : rule.HasPattern) :
    Pattern.IsUrlFilter rule.trigger.urlFilter.toList := by
  obtain ⟨pattern, nonempty, translated⟩ := hasPattern
  rw [translated, String.toList_ofList]
  exact Pattern.isUrlFilter_print_pieces nonempty

/-- A rule for every address has the pattern that is one wildcard. -/
theorem Rule.HasPattern.ofEveryAddress (every : rule.trigger.urlFilter = everyAddress) :
    rule.HasPattern :=
  ⟨['*'], List.cons_ne_nil _ _, every⟩

/-! ### Lines -/

namespace Rule

theorem urlFilter_scriptletTrigger (name : String) :
    (scriptletTrigger name).urlFilter = everyAddress := by
  unfold scriptletTrigger
  split <;> rfl

theorem hasPattern_ofCall? {call : List Char} (accepted : ofCall? call = some rule) :
    rule.HasPattern := by
  obtain ⟨⟨inside, _⟩, -, read⟩ := Option.bind_eq_some_iff.mp accepted
  simp only at read
  split at read
  · cases read
  · cases read
  · cases read
    exact .ofEveryAddress (urlFilter_scriptletTrigger _)

theorem hasPattern_hiding? {domains selector : List Char}
    (accepted : hiding? domains selector = some rule) : rule.HasPattern := by
  unfold hiding? at accepted
  split at accepted
  · cases accepted
  · cases accepted
    exact .ofEveryAddress rfl

theorem urlFilter_trigger (options : LineOptions) (urlFilter : String) :
    (options.trigger urlFilter).urlFilter = urlFilter := by
  unfold LineOptions.trigger
  cases options.domains <;> rfl

/-- A pattern of which nothing is left translates to nothing, and then there is no rule. -/
theorem hasPattern_network? {action : Action} {line : List Char}
    (accepted : network? action line = some rule) : rule.HasPattern := by
  simp only [network?] at accepted
  split at accepted
  · cases accepted
  · rename_i printed
    refine ⟨unescapeDollars (splitOptions line).1, fun empty => printed ?_, ?_⟩
    · rw [empty]
      rfl
    · cases accepted
      exact urlFilter_trigger _ _

theorem hasPattern_ofChars? {line : List Char} (accepted : ofChars? line = some rule) :
    rule.HasPattern := by
  unfold ofChars? at accepted
  split at accepted
  · exact hasPattern_ofCall? accepted
  · split at accepted
    · exact hasPattern_hiding? accepted
    · split at accepted
      · exact hasPattern_network? accepted
      · exact hasPattern_network? accepted

end Rule

theorem Document.hasPattern_of_mem_rulesOf {text : String} (member : rule ∈ rulesOf text) :
    rule.HasPattern := by
  obtain ⟨line, -, accepted⟩ := List.mem_filterMap.mp member
  exact Rule.hasPattern_ofChars? accepted

/-! ### Supplementary rules -/

namespace Supplement

/-- An endpoint is blocked as the pattern of a wildcard and the endpoint would block it. -/
theorem hasPattern_endpointRule {endpoint : String} (member : endpoint ∈ endpoints) :
    (endpointRule endpoint).HasPattern := by
  refine ⟨'*' :: endpoint.toList, List.cons_ne_nil _ _, ?_⟩
  have translated : ∀ endpoint ∈ endpoints, (endpointRule endpoint).trigger.urlFilter =
      .ofList (Pattern.print (Pattern.pieces ('*' :: endpoint.toList))) := by
    decide +kernel
  exact translated endpoint member

/-- The patterns that the URL filters for addresses translate. -/
def addressPatterns : List String :=
  ["*/pagead/", "*/get_video_info*adformat", "*/stats/ads", "*/api/stats/qoe*adformat",
    "*youtube.com*/ad_companion", "*youtube.com*/generate_204", "*youtube.com*/get_midroll_",
    "*youtube.com/api/stats/playback*ad", "*googlevideo.com/videoplayback*ctier=L",
    "*youtube.com/youtubei/v1/player/ad_break", "*/youtubei/v1/log_event*adformat"]

theorem urlFilters_eq_map : urlFilters = addressPatterns.map Pattern.translate := by
  decide +kernel

theorem hasPattern_urlFilterRule {urlFilter : String} (member : urlFilter ∈ urlFilters) :
    (urlFilterRule urlFilter).HasPattern := by
  rw [urlFilters_eq_map] at member
  obtain ⟨pattern, isPattern, rfl⟩ := List.mem_map.mp member
  have nonempty : ∀ pattern ∈ addressPatterns, pattern.toList ≠ [] := by decide +kernel
  exact ⟨pattern.toList, nonempty pattern isPattern, rfl⟩

theorem hasPattern_of_mem_blockRules (member : rule ∈ blockRules) : rule.HasPattern := by
  obtain endpoint | address := List.mem_append.mp member
  · obtain ⟨endpoint, isEndpoint, rfl⟩ := List.mem_map.mp endpoint
    exact hasPattern_endpointRule isEndpoint
  · obtain ⟨urlFilter, isFilter, rfl⟩ := List.mem_map.mp address
    exact hasPattern_urlFilterRule isFilter

theorem hasPattern_of_mem_hidingRules (member : rule ∈ hidingRules) : rule.HasPattern := by
  obtain rfl := List.mem_singleton.mp member
  exact .ofEveryAddress rfl

end Supplement

/-! ### Containers -/

/-- A container holds no rules but those that were distributed. -/
theorem Plan.mem_of_mem_fill {container : List Rule}
    (isContainer : container ∈ (fill capacity rules generated).containers)
    (member : rule ∈ container) :
    rule ∈ rules.standard ∨ rule ∈ rules.advanced ∨ rule ∈ rules.scriptlet ∨ rule ∈ generated := by
  simp only [containers, fill, List.mem_cons, List.not_mem_nil, or_false] at isContainer
  obtain rfl | rfl | rfl := isContainer
  · exact .inl (List.mem_of_mem_take member)
  · obtain standard | advanced := List.mem_append.mp (List.mem_of_mem_take member)
    · exact .inl (List.mem_of_mem_drop standard)
    · exact .inr (.inl advanced)
  · exact .inr (.inr (List.mem_append.mp (List.mem_of_mem_take member)))

theorem Plan.hasPattern_of_mem_fill {container : List Rule}
    (each : ∀ rule ∈ found, rule.HasPattern)
    (isContainer : container ∈
      (fill capacity (TieredRules.ofList found).supplemented Supplement.hidingRules).containers)
    (member : rule ∈ container) : rule.HasPattern := by
  obtain standard | advanced | scriptlet | generated := mem_of_mem_fill isContainer member
  · obtain inFound | supplementary := List.mem_append.mp standard
    · exact each rule (List.mem_of_mem_filter inFound)
    · exact Supplement.hasPattern_of_mem_blockRules supplementary
  · exact each rule (List.mem_of_mem_filter advanced)
  · exact each rule (List.mem_of_mem_filter scriptlet)
  · exact Supplement.hasPattern_of_mem_hidingRules generated

/-- Whatever documents hold, the URL filter of each rule in the containers is a row of known items
between anchors, and so a regular expression. -/
theorem containers_readable (positive : 0 < capacity) (texts : List String) :
    ∃ plan, distributeSupplemented { capacity } (Document.convertAll texts) = .ok plan ∧
      ∀ container ∈ plan.containers, ∀ rule ∈ container,
        Pattern.IsUrlFilter rule.trigger.urlFilter.toList ∧
          ∃ expression, Regex.read? rule.trigger.urlFilter = some expression := by
  refine ⟨_, distribute_eq_fill positive rfl _ _, ?_⟩
  rw [Document.convertAll_eq_ofList]
  intro container isContainer rule member
  have hasPattern : rule.HasPattern := by
    refine Plan.hasPattern_of_mem_fill (fun rule inFound => ?_) isContainer member
    obtain ⟨text, -, inText⟩ := List.mem_flatMap.mp inFound
    exact Document.hasPattern_of_mem_rulesOf inText
  have isUrlFilter := hasPattern.isUrlFilter
  obtain ⟨expression, read⟩ := isUrlFilter.exists_read
  rw [String.ofList_toList] at read
  exact ⟨isUrlFilter, expression, read⟩

/-- Lines of nothing but anchors, wildcards, backslashes and special characters make rules whose
URL filters are readable. -/
theorem degenerate_containers_readable :
    0 < 7 ∧ ∃ plan, distributeSupplemented { capacity := 7 }
        (Document.convertAll ["||\n|\n||||\n\\", "*$\n(|\n+\\$"]) = .ok plan ∧
      (∀ container ∈ plan.containers, ∀ rule ∈ container,
        Pattern.IsUrlFilter rule.trigger.urlFilter.toList ∧
          ∃ expression, Regex.read? rule.trigger.urlFilter = some expression) ∧
      plan.first.map (fun rule => rule.trigger.urlFilter) =
        ["^(?:[a-z][a-z0-9+.-]*://)?(?:[a-z0-9_-]+\\.)*", "^",
          "^(?:[a-z][a-z0-9+.-]*://)?(?:[a-z0-9_-]+\\.)*\\|$", "\\\\", ".*", "\\($", "\\+\\$"] := by
  obtain ⟨plan, distributed, readable⟩ :=
    containers_readable (show 0 < 7 by decide) ["||\n|\n||||\n\\", "*$\n(|\n+\\$"]
  refine ⟨by decide, plan, distributed, readable, ?_⟩
  have filters : (distributeSupplemented { capacity := 7 }
      (Document.convertAll ["||\n|\n||||\n\\", "*$\n(|\n+\\$"])).toOption.map
        (fun plan => plan.first.map fun rule => rule.trigger.urlFilter) =
      some ["^(?:[a-z][a-z0-9+.-]*://)?(?:[a-z0-9_-]+\\.)*", "^",
        "^(?:[a-z][a-z0-9+.-]*://)?(?:[a-z0-9_-]+\\.)*\\|$", "\\\\", ".*", "\\($", "\\+\\$"] := by
    decide +kernel
  rw [distributed] at filters
  exact Option.some.inj filters

end FilterLists
