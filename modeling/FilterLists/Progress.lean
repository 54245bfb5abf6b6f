/-
This file measures how far a publication has come. Loading the lists takes up most of the time, so
it counts for seven tenths of the whole, in equal parts for every list.
-/

namespace FilterLists

/-- How far a publication has come. -/
inductive Progress
  /-- So many lists of so many have been loaded. -/
  | loaded (done total : Nat)
  | finished
  deriving DecidableEq, Repr

namespace Progress

/-- The part of the progress that loading the lists takes up. -/
def loadingShare : Float := 0.7

/-- The progress as a part of the whole. -/
def fraction : Progress → Float
  | loaded done total => done.toFloat / total.toFloat * loadingShare
  | finished => 1.0

/-- The nearest natural number; of two that are as near, the even one. Taking the whole part away
from a number is exact, so the comparison is too. -/
def roundToEven (value : Float) : Nat :=
  let whole := value.floor.toUInt64.toNat
  let rest := value - value.floor
  if rest < 0.5 then whole
  else if rest > 0.5 then whole + 1
  else if whole % 2 = 0 then whole else whole + 1

/-- The progress in percent. -/
def percent (progress : Progress) : Nat :=
  roundToEven (progress.fraction * 100.0)

end Progress

end FilterLists
