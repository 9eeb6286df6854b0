import ImageLabeling.Failure
import ImageLabeling.Number.Literal

/-!
# Labels and accuracy

The name of a labeled image begins with its class and an underscore. `trueLabel` reads the class,
and an `Accuracy` counts how often the predicted class is the true one.
-/

namespace ImageLabeling

/-- The part of a name before its first underscore, the whole name if it has none. -/
def labelPart (name : String) : List Char :=
  name.toList.takeWhile (· ≠ '_')

/-- The class that a file name begins with. -/
def trueLabel (name : String) : Except Failure Nat :=
  (Number.readUnsigned 64 (labelPart name)).mapError fun _ => .invalidLabel name

/-- How many of the labeled images were predicted correctly. -/
structure Accuracy where
  correct : Nat := 0
  total : Nat := 0
  deriving DecidableEq, Repr

namespace Accuracy

/-- One more, as long as it fits in 64 bits. -/
def next (count : Nat) : Except Crash Nat :=
  if count + 1 < 2 ^ 64 then .ok (count + 1) else .error .overflow

/-- Counts one prediction. -/
def record (a : Accuracy) (predicted truth : Nat) : Except Crash Accuracy := do
  let correct ← if predicted = truth then next a.correct else .ok a.correct
  let total ← next a.total
  .ok ⟨correct, total⟩

/-- Below the limit a prediction counts once in total, and once more if it is right. -/
theorem record_eq_ok (a : Accuracy) (predicted truth : Nat) (hc : a.correct + 1 < 2 ^ 64)
    (ht : a.total + 1 < 2 ^ 64) :
    a.record predicted truth =
      .ok ⟨if predicted = truth then a.correct + 1 else a.correct, a.total + 1⟩ := by
  simp only [record, next, hc, ht, if_true]
  by_cases h : predicted = truth <;> simp [h, bind, Except.bind]

/-- The percentage of correct predictions; there is none before the first. -/
def percent (a : Accuracy) : Option Float :=
  if a.total = 0 then none
  else some (100.0 * Number.double a.correct / Number.double a.total)

end Accuracy

end ImageLabeling
