/-
This file shows that greater containers never hold less. With more room in the first container,
rules that were in the second go to the first, and there is room for others in the second; so the
second container of the greater capacity need not start with the rules of the lesser one. What
grows is the chain of both, for together they hold the front of all standard and advanced rules:
as many as the first container takes of the standard rules, and one capacity more.
-/

import FilterLists.Document
import FilterLists.Proofs.Containers

namespace FilterLists

namespace Plan

variable {capacity larger : Nat}

/-- Whether all that a plan keeps is kept by another as well, where it was or earlier in the chain,
and the other drops no more. -/
structure IsWithin (plan other : Plan) : Prop where
  first : plan.first <+: other.first
  chain : plan.first ++ plan.second <+: other.first ++ other.second
  third : plan.third <+: other.third
  advanced : other.dropped.advanced ≤ plan.dropped.advanced
  scriptlet : other.dropped.scriptlet ≤ plan.dropped.scriptlet

/-- The first two containers hold the front of the standard and advanced rules. -/
theorem first_append_second_fill (capacity : Nat) (rules : TieredRules) (generated : List Rule) :
    (fill capacity rules generated).first ++ (fill capacity rules generated).second =
      (rules.standard ++ rules.advanced).take (min capacity rules.standard.length + capacity) := by
  have split : rules.standard ++ rules.advanced =
      rules.standard.take capacity ++ (rules.standard.drop capacity ++ rules.advanced) := by
    rw [← List.append_assoc, List.take_append_drop]
  rw [split, ← List.length_take, List.take_length_add_append]
  rfl

theorem isWithin_fill (le : capacity ≤ larger) (rules : TieredRules) (generated : List Rule) :
    (fill capacity rules generated).IsWithin (fill larger rules generated) where
  first := List.take_prefix_take_left le
  chain := by
    rw [first_append_second_fill, first_append_second_fill]
    exact List.take_prefix_take_left (by omega)
  third := List.take_prefix_take_left le
  advanced := by
    simp only [fill, List.length_append, List.length_drop]
    omega
  scriptlet := by
    simp only [fill]
    omega

end Plan

/-- When the capacity is raised, no rule is lost that was in a container before: each container of
the chain starts with what the chain held up to there, and no more rules are dropped. -/
theorem distribute_mono {capacity larger : Nat} (positive : 0 < capacity) (le : capacity ≤ larger)
    (rules : TieredRules) (generated : List Rule) :
    ∃ plan raised, distribute { capacity } rules generated = .ok plan ∧
      distribute { capacity := larger } rules generated = .ok raised ∧ plan.IsWithin raised :=
  ⟨_, _, distribute_eq_fill positive rfl rules generated,
    distribute_eq_fill (Nat.lt_of_lt_of_le positive le) rfl rules generated,
    Plan.isWithin_fill le rules generated⟩

/-- When the capacity is raised from one to two, the rule of the second container moves to the
first, and two others take its place. -/
theorem sample_distribute_mono :
    0 < 1 ∧ 1 ≤ 2 ∧ ∃ plan raised,
      distribute { capacity := 1 } (Document.convertAll ["a\nb\n@@c\n@@d\n@@e"]) [] = .ok plan ∧
      distribute { capacity := 2 } (Document.convertAll ["a\nb\n@@c\n@@d\n@@e"]) [] = .ok raised ∧
      plan.IsWithin raised ∧ plan.second.map (·.trigger.urlFilter) = ["b"] ∧
      raised.second.map (·.trigger.urlFilter) = ["c", "d"] := by
  obtain ⟨plan, raised, distributed, distributedRaised, isWithin⟩ :=
    distribute_mono (show 0 < 1 by decide) (show 1 ≤ 2 by decide)
      (Document.convertAll ["a\nb\n@@c\n@@d\n@@e"]) []
  refine ⟨by decide, by decide, plan, raised, distributed, distributedRaised, isWithin, ?_, ?_⟩
  · have filters : (distribute { capacity := 1 }
        (Document.convertAll ["a\nb\n@@c\n@@d\n@@e"]) []).toOption.map
          (fun plan => plan.second.map (·.trigger.urlFilter)) = some ["b"] := by
      decide +kernel
    rw [distributed] at filters
    exact Option.some.inj filters
  · have filters : (distribute { capacity := 2 }
        (Document.convertAll ["a\nb\n@@c\n@@d\n@@e"]) []).toOption.map
          (fun plan => plan.second.map (·.trigger.urlFilter)) = some ["c", "d"] := by
      decide +kernel
    rw [distributedRaised] at filters
    exact Option.some.inj filters

end FilterLists
