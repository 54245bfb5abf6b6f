/-
This file shows what a distribution owes to the rules that it is made from. A container takes rules
from the front of what is offered to it and keeps their order. So what is dropped is always the
end of what a container was offered, and it is dropped only where that container is full. A rule
is in a container or counted as dropped, never both and never neither.

These laws leave no choice: of all plans, just one fulfils them. The supplementary rules obey them
as any other rules do.
-/

import FilterLists.Supplement.Rules

namespace FilterLists

/-! ### What a plan owes to its rules -/

namespace Plan

variable {capacity : Nat} {rules : TieredRules} {generated : List Rule} {plan : Plan}

/-- Whether a plan for containers of a capacity keeps rules in order, loses none of them without
counting it, and drops none that would have fitted. -/
structure Conserves (capacity : Nat) (rules : TieredRules) (generated : List Rule) (plan : Plan) :
    Prop where
  fits : ∀ container ∈ plan.containers, container.length ≤ capacity
  first_of_standard : plan.first <+: rules.standard
  chain : ∃ lost, plan.first ++ plan.second ++ lost = rules.standard ++ rules.advanced ∧
    lost.length = plan.dropped.advanced
  third : ∃ lost, plan.third ++ lost = rules.scriptlet ++ generated ∧
    lost.length = plan.dropped.scriptlet
  /-- Unless the first container is full, no standard rule is in the second one. -/
  spill : plan.first.length ≠ capacity →
    plan.first = rules.standard ∧ plan.second <+: rules.advanced
  full_second : 0 < plan.dropped.advanced → plan.second.length = capacity
  full_third : 0 < plan.dropped.scriptlet → plan.third.length = capacity

/-- What is left of a list when its end is lost, which happens only to a list that is too long. -/
theorem eq_take_of_append {Item : Type} {kept lost items : List Item}
    (split : kept ++ lost = items) (fits : kept.length ≤ capacity)
    (full : 0 < lost.length → kept.length = capacity) :
    kept = items.take capacity ∧ lost = items.drop capacity := by
  subst split
  cases lost with
  | nil =>
    rw [List.append_nil, List.take_of_length_le fits, List.drop_of_length_le fits]
    exact ⟨rfl, rfl⟩
  | cons item rest =>
    have isFull := full (by simp)
    rw [← isFull, List.take_left, List.drop_left]
    exact ⟨rfl, rfl⟩

theorem conserves_fill (capacity : Nat) (rules : TieredRules) (generated : List Rule) :
    (fill capacity rules generated).Conserves capacity rules generated where
  fits := by
    intro container member
    simp only [containers, fill, List.mem_cons, List.not_mem_nil, or_false] at member
    obtain rfl | rfl | rfl := member <;> exact List.length_take_le _ _
  first_of_standard := List.take_prefix _ _
  chain := by
    refine ⟨(rules.standard.drop capacity ++ rules.advanced).drop capacity, ?_, ?_⟩
    · show rules.standard.take capacity ++
        (rules.standard.drop capacity ++ rules.advanced).take capacity ++ _ = _
      rw [List.append_assoc, List.take_append_drop, ← List.append_assoc, List.take_append_drop]
    · exact List.length_drop
  third := ⟨(rules.scriptlet ++ generated).drop capacity, List.take_append_drop _ _,
    List.length_drop⟩
  spill := by
    intro notFull
    have short : rules.standard.length ≤ capacity := by
      simp only [fill, List.length_take] at notFull
      omega
    refine ⟨List.take_of_length_le short, ?_⟩
    show (rules.standard.drop capacity ++ rules.advanced).take capacity <+: rules.advanced
    rw [List.drop_of_length_le short, List.nil_append]
    exact List.take_prefix _ _
  full_second := by
    intro dropped
    simp only [fill] at dropped ⊢
    rw [List.length_take]
    omega
  full_third := by
    intro dropped
    simp only [fill] at dropped ⊢
    rw [List.length_take]
    omega

theorem Conserves.eq_fill (conserves : plan.Conserves capacity rules generated) :
    plan = fill capacity rules generated := by
  obtain ⟨fits, ⟨spilled, split⟩, ⟨lost, chain, countLost⟩, ⟨lostThird, third, countThird⟩,
    spill, fullSecond, fullThird⟩ := conserves
  have first : plan.first = rules.standard.take capacity ∧
      spilled = rules.standard.drop capacity := by
    refine eq_take_of_append split (fits _ (by simp [containers])) fun some => ?_
    refine Classical.byContradiction fun notFull => ?_
    have nothing : spilled = [] := by
      rw [← (spill notFull).1] at split
      exact List.append_right_eq_self.mp split
    simp [nothing] at some
  have rest : plan.second ++ lost = rules.standard.drop capacity ++ rules.advanced := by
    rw [← split, List.append_assoc, List.append_assoc] at chain
    rw [← first.2]
    exact List.append_cancel_left chain
  have second := eq_take_of_append rest (fits _ (by simp [containers]))
    fun some => fullSecond (countLost ▸ some)
  have last := eq_take_of_append third (fits _ (by simp [containers]))
    fun some => fullThird (countThird ▸ some)
  have droppedAdvanced := second.2 ▸ countLost
  have droppedScriptlet := last.2 ▸ countThird
  rw [List.length_drop] at droppedAdvanced droppedScriptlet
  obtain ⟨_, _, _, ⟨_, _⟩⟩ := plan
  simp only at first second last droppedAdvanced droppedScriptlet
  simp only [fill, first.1, second.1, last.1, droppedAdvanced, droppedScriptlet]

/-- Just one plan keeps all the rules that it can keep. -/
theorem conserves_iff :
    plan.Conserves capacity rules generated ↔ plan = fill capacity rules generated :=
  ⟨Conserves.eq_fill, fun same => same ▸ conserves_fill capacity rules generated⟩

theorem Conserves.total_eq (conserves : plan.Conserves capacity rules generated) :
    plan.total + plan.dropped.total = rules.size + generated.length := by
  obtain ⟨lost, chain, countLost⟩ := conserves.chain
  obtain ⟨lostThird, third, countThird⟩ := conserves.third
  have chainLengths := congrArg List.length chain
  have thirdLengths := congrArg List.length third
  simp only [List.length_append] at chainLengths thirdLengths
  unfold total Dropped.total TieredRules.size
  omega

end Plan

/-! ### Distributions -/

/-- Whether the outcome of a distribution is a plan that keeps all the rules that it can keep, or
the error that the limits call for. -/
structure Distributes (limits : Limits) (rules : TieredRules) (generated : List Rule)
    (outcome : Except DistributionError Plan) : Prop where
  succeeds : 0 < limits.capacity → limits.containers = chainLength →
    ∃ plan, outcome = .ok plan ∧ plan.Conserves limits.capacity rules generated ∧
      plan.total + plan.dropped.total = rules.size + generated.length
  noCapacity_iff : outcome = .error .noCapacity ↔ limits.capacity = 0
  wrongCount_iff : ∀ count, outcome = .error (.wrongCount count) ↔
    0 < limits.capacity ∧ limits.containers ≠ chainLength ∧ count = limits.containers

theorem distribute_eq_fill {limits : Limits} (positive : 0 < limits.capacity)
    (isChain : limits.containers = chainLength) (rules : TieredRules) (generated : List Rule) :
    distribute limits rules generated = .ok (.fill limits.capacity rules generated) := by
  unfold distribute Limits.error?
  rw [if_neg (Nat.ne_of_gt positive), if_neg (not_not_intro isChain)]

theorem distributes_distribute (limits : Limits) (rules : TieredRules) (generated : List Rule) :
    Distributes limits rules generated (distribute limits rules generated) := by
  by_cases noCapacity : limits.capacity = 0
  · have fails : distribute limits rules generated = .error .noCapacity := by
      unfold distribute Limits.error?
      rw [if_pos noCapacity]
    rw [fails]
    exact ⟨fun positive => absurd noCapacity (Nat.ne_of_gt positive), by simp [noCapacity],
      by simp [noCapacity]⟩
  · have positive : 0 < limits.capacity := Nat.pos_of_ne_zero noCapacity
    by_cases isChain : limits.containers = chainLength
    · rw [distribute_eq_fill positive isChain]
      have conserves := Plan.conserves_fill limits.capacity rules generated
      exact ⟨fun _ _ => ⟨_, rfl, conserves, conserves.total_eq⟩, by simp [noCapacity],
        by simp [isChain]⟩
    · have fails : distribute limits rules generated = .error (.wrongCount limits.containers) := by
        unfold distribute Limits.error?
        rw [if_neg noCapacity, if_pos isChain]
      rw [fails]
      exact ⟨fun _ same => absurd same isChain, by simp [noCapacity],
        by simp [positive, isChain, eq_comm]⟩

/-- Whatever the limits are, a distribution conserves the rules or fails as the limits call for.
With the supplementary rules it conserves these too: the blocking ones count as the last standard
rules, and the hiding one as generated. -/
theorem distribution_conserves (limits : Limits) (rules : TieredRules) (generated : List Rule) :
    Distributes limits rules generated (distribute limits rules generated) ∧
      Distributes limits { rules with standard := rules.standard ++ Supplement.blockRules }
        Supplement.hidingRules (distributeSupplemented limits rules) :=
  ⟨distributes_distribute limits rules generated,
    distributes_distribute limits rules.supplemented Supplement.hidingRules⟩

end FilterLists
