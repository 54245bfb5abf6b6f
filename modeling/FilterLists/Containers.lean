/-
This file distributes rules over the three containers of the engine, none of which takes more
rules than its capacity. The containers form a chain with a fixed use:

1. the first takes standard rules, as many as fit;
2. the second takes the standard rules that are left, and then advanced rules;
3. the third takes scriptlet rules, and then the generated rules.

What does not fit into the second or the third container is dropped and counted.
-/

import FilterLists.Journal
import FilterLists.TieredRules

namespace FilterLists

/-! ### Limits -/

/-- The number of containers in the chain. -/
def chainLength : Nat := 3

/-- The number of rules that the engine takes per container. -/
def engineCapacity : Nat := 50000

/-- The containers that rules are to be distributed over. -/
structure Limits where
  capacity : Nat := engineCapacity
  containers : Nat := chainLength
  deriving DecidableEq, Repr

/-- Why rules cannot be distributed. -/
inductive DistributionError
  /-- The containers take no rules at all. -/
  | noCapacity
  /-- The chain does not have that many containers. -/
  | wrongCount (count : Nat)
  deriving DecidableEq, Repr

namespace DistributionError

def message : DistributionError → String
  | noCapacity => "Container capacity must be at least 1"
  | wrongCount count =>
    "Unsupported container count: " ++ toString count ++ " (the overflow chain has exactly "
      ++ toString chainLength ++ ")"

end DistributionError

/-- Why rules cannot be distributed over containers, if they cannot. -/
def Limits.error? (limits : Limits) : Option DistributionError :=
  if limits.capacity = 0 then some .noCapacity
  else if limits.containers ≠ chainLength then some (.wrongCount limits.containers)
  else none

/-! ### Plans -/

/-- How many rules were dropped. -/
structure Dropped where
  /-- Standard and advanced rules that did not fit into the second container. -/
  advanced : Nat
  /-- Scriptlet and generated rules that did not fit into the third container. -/
  scriptlet : Nat
  deriving DecidableEq, Repr

def Dropped.total (dropped : Dropped) : Nat :=
  dropped.advanced + dropped.scriptlet

/-- What goes into each container, and how much goes into none. -/
structure Plan where
  first : List Rule
  second : List Rule
  third : List Rule
  dropped : Dropped
  deriving DecidableEq, Repr

namespace Plan

def containers (plan : Plan) : List (List Rule) :=
  [plan.first, plan.second, plan.third]

/-- The rules of the container at a position, counted from zero. -/
def container? (plan : Plan) (index : Nat) : Option (List Rule) :=
  plan.containers[index]?

/-- How many rules there are in the containers. -/
def total (plan : Plan) : Nat :=
  plan.first.length + plan.second.length + plan.third.length

/-- Distributes rules over containers of a capacity. -/
def fill (capacity : Nat) (rules : TieredRules) (generated : List Rule) : Plan :=
  let second := rules.standard.drop capacity ++ rules.advanced
  let third := rules.scriptlet ++ generated
  { first := rules.standard.take capacity
    second := second.take capacity
    third := third.take capacity
    dropped := {
      advanced := second.length - capacity
      scriptlet := third.length - capacity } }

/-- What a distribution reports: how full the containers are, and what was dropped. -/
def journal (plan : Plan) (capacity : Nat) : List Journal.Entry :=
  let summary : Journal.Entry := {
    level := .info
    target := .distribution
    message := "Distributed " ++ toString plan.total ++ " rules: "
      ++ toString plan.first.length ++ " / " ++ toString plan.second.length ++ " / "
      ++ toString plan.third.length ++ " (capacity " ++ toString capacity ++ ")" }
  if plan.dropped.total = 0 then [summary]
  else [summary, {
    level := .warn
    target := .distribution
    message := "Dropped " ++ toString plan.dropped.total ++ " rules over capacity ("
      ++ toString plan.dropped.advanced ++ " from container 2, "
      ++ toString plan.dropped.scriptlet ++ " from container 3)" }]

end Plan

/-- Distributes rules over containers, if their limits allow it. -/
def distribute (limits : Limits) (rules : TieredRules) (generated : List Rule) :
    Except DistributionError Plan :=
  match limits.error? with
  | some error => .error error
  | none => .ok (.fill limits.capacity rules generated)

end FilterLists
