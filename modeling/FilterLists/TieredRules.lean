/-
This file keeps rules apart by tier. The rules of one document are sorted into three lists, each in
the order of the document, and the lists of several documents are joined tier by tier. It makes no
difference whether rules are sorted all at once or put into their lists one after the other.
-/

import FilterLists.Rule.Basic

namespace FilterLists

/-- Rules by tier, each list in the order in which the rules came. -/
structure TieredRules where
  standard : List Rule := []
  advanced : List Rule := []
  scriptlet : List Rule := []
  deriving DecidableEq, Repr

namespace TieredRules

/-- The rules of a tier. -/
def get (rules : TieredRules) : Tier → List Rule
  | .standard => rules.standard
  | .advanced => rules.advanced
  | .scriptlet => rules.scriptlet

/-- How many rules there are in all. -/
def size (rules : TieredRules) : Nat :=
  rules.standard.length + rules.advanced.length + rules.scriptlet.length

def isEmpty (rules : TieredRules) : Bool :=
  rules.size == 0

/-- The rules of a list sorted by tier. -/
def ofList (rules : List Rule) : TieredRules where
  standard := rules.filter fun rule => rule.tier = .standard
  advanced := rules.filter fun rule => rule.tier = .advanced
  scriptlet := rules.filter fun rule => rule.tier = .scriptlet

/-- The rules with one more at the end of its tier. -/
def push (rules : TieredRules) (rule : Rule) : TieredRules :=
  match rule.tier with
  | .standard => { rules with standard := rules.standard ++ [rule] }
  | .advanced => { rules with advanced := rules.advanced ++ [rule] }
  | .scriptlet => { rules with scriptlet := rules.scriptlet ++ [rule] }

/-- The rules of two collections, in each tier those of the first before those of the second. -/
def append (first second : TieredRules) : TieredRules where
  standard := first.standard ++ second.standard
  advanced := first.advanced ++ second.advanced
  scriptlet := first.scriptlet ++ second.scriptlet

instance : Append TieredRules := ⟨append⟩

/-- The rules of several collections, in each tier in the order of the collections. -/
def join (collections : List TieredRules) : TieredRules where
  standard := collections.flatMap standard
  advanced := collections.flatMap advanced
  scriptlet := collections.flatMap scriptlet

/-! ### Joining and sorting agree -/

theorem push_eq_append (rules : TieredRules) (rule : Rule) :
    rules.push rule = rules ++ ofList [rule] := by
  show push rules rule = append rules (ofList [rule])
  unfold push append ofList
  cases tier : rule.tier <;> simp [tier]

theorem append_assoc (first second third : TieredRules) :
    first ++ second ++ third = first ++ (second ++ third) := by
  show append (append first second) third = append first (append second third)
  simp [append]

theorem empty_append (rules : TieredRules) : {} ++ rules = rules :=
  rfl

theorem ofList_append (first second : List Rule) :
    ofList (first ++ second) = ofList first ++ ofList second := by
  show ofList (first ++ second) = append (ofList first) (ofList second)
  simp [ofList, append]

theorem foldl_push (start : TieredRules) (rules : List Rule) :
    rules.foldl push start = start ++ ofList rules := by
  induction rules generalizing start with
  | nil =>
    show start = append start (ofList [])
    simp [append, ofList]
  | cons rule rest inductionHypothesis =>
    rw [List.foldl_cons, inductionHypothesis, push_eq_append, append_assoc, ← ofList_append,
      List.singleton_append]

theorem size_append (first second : TieredRules) :
    (first ++ second).size = first.size + second.size := by
  show (append first second).size = first.size + second.size
  simp only [size, append, List.length_append]
  omega

theorem size_ofList (rules : List Rule) : (ofList rules).size = rules.length := by
  induction rules with
  | nil => rfl
  | cons rule rest inductionHypothesis =>
    rw [show rule :: rest = [rule] ++ rest from rfl, ofList_append, size_append,
      inductionHypothesis]
    simp only [List.cons_append, List.nil_append, List.length_cons]
    cases tier : rule.tier <;> simp [size, ofList, tier] <;> omega

end TieredRules

end FilterLists
