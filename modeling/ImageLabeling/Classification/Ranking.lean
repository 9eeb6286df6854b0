import ImageLabeling.Failure
import ImageLabeling.Number.Binary
import ImageLabeling.Tensor

/-!
# Ranking the classes of a classifier

A classifier answers with one score for each class, as a vector or as a batch of one vector.
`topClass` is the class with the highest score, `ranking` lists the most probable classes after
softmax. The exponential is a parameter of `softmax`: what is said about a ranking holds for every
exponential that grows with its argument.
-/

namespace ImageLabeling

/-- The scores of a vector or of a batch of one vector; every other shape is refused. -/
def classScores (output : Tensor) : Except Failure (List Float32) :=
  let isVector :=
    match output.shape with
    | [_] => true
    | [1, _] => true
    | _ => false
  if isVector && !output.isEmpty then .ok output.data.toList
  else .error (.shapeMismatch "[1, N]" output.shape)

/-- The class with the highest score among scores from class `i` on, unless the best so far is as
high. -/
def highest (best : Nat × Float32) (i : Nat) : List Float32 → Nat
  | [] => best.1
  | v :: rest => highest (if best.2 < v then (i, v) else best) (i + 1) rest

/-- The class with the highest score, the lowest of those that tie. -/
def topClass (output : Tensor) : Except Failure Nat :=
  (classScores output).map (highest (0, Number.lowest) 0)

/-! ## Probabilities -/

/-- The larger of two numbers, a number being preferred to NaN. -/
def larger (a b : Float32) : Float32 :=
  if a < b ∨ a.isNaN then b else a

/-- The largest score. -/
def maximum (scores : List Float32) : Float32 :=
  scores.foldl larger Number.lowest

/-- The probabilities that scores stand for, shifted by the largest score. -/
def softmax (exp : Float32 → Float32) (scores : List Float32) : List Float32 :=
  let shift := maximum scores
  let powers := scores.map fun v => exp (v - shift)
  let total := powers.foldl (· + ·) 0.0
  powers.map (· / total)

/-- A class and its probability. -/
structure Ranked where
  label : Nat
  probability : Float32

/-- Whether `a` is listed before `b`: the more probable first, then the lower class. -/
def Ranked.before (a b : Ranked) : Bool :=
  let pa := Number.orderKey a.probability
  let pb := Number.orderKey b.probability
  pb < pa || (pa == pb && a.label ≤ b.label)

/-- All classes, the most probable first. -/
def rankAll (exp : Float32 → Float32) (scores : List Float32) : List Ranked :=
  let entries := (softmax exp scores).zipIdx.map fun (p, label) => Ranked.mk label p
  entries.mergeSort Ranked.before

/-- The `k` most probable classes. -/
def ranking (exp : Float32 → Float32) (output : Tensor) (k : Nat) :
    Except Failure (List Ranked) :=
  (classScores output).map fun scores => (rankAll exp scores).take k

end ImageLabeling
