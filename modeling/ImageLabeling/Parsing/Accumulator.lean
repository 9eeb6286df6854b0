import ImageLabeling.Parsing.Upsample

/-!
# Summing scores over scales

An `Accumulator` sums the fused scores of all scales at the size of the first. Every stack of
planes is resized to the reference size before it is added, and has to have as many classes as the
first one.
-/

namespace ImageLabeling

/-- The sum of the scores so far, at a fixed size. -/
structure Accumulator where
  height : Nat
  width : Nat
  sum : Option Scores
  seen : Nat

namespace Accumulator

/-- Nothing summed yet. -/
def empty (height width : Nat) : Accumulator :=
  ⟨height, width, none, 0⟩

/-- The elementwise sum of two stacks of planes. -/
def plus (a b : Scores) : Scores :=
  Scores.ofFn a.classes a.height a.width fun c y x => a.score c y x + b.score c y x

/-- Adds the scores of one scale. -/
def add (acc : Accumulator) (scores : Scores) : Except Fault Accumulator := do
  let resized ← (scores.upsample acc.height acc.width).mapError .crash
  match acc.sum with
  | none => .ok { acc with sum := some resized, seen := acc.seen + 1 }
  | some sum =>
    if sum.classes = resized.classes then
      .ok { acc with sum := some (plus sum resized), seen := acc.seen + 1 }
    else .error (Failure.shapeMismatch "same class count at every scale" resized.shape)

end Accumulator

end ImageLabeling
