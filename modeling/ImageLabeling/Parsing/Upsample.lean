import ImageLabeling.Number.Binary
import ImageLabeling.Parsing.Scores

/-!
# Bilinear resizing of score planes

Planes are resized so that the corner samples stay at the corners. `samplePoint` gives, for an
output position, the two input positions around it and the weight of the upper one; `upsample`
blends the four samples around each output pixel. Planes of the wanted size are copied. Blending
needs samples, so planes without any cannot be resized to a size with pixels.
-/

namespace ImageLabeling

/-- The input positions around an output position and the weight of the upper one. -/
structure SamplePoint where
  lower : Nat
  upper : Nat
  weight : Float32

/-- The point of an axis of length `before` that output position `o` of `after` reads. -/
def samplePoint (o before after : Nat) : SamplePoint :=
  if after ≤ 1 ∨ before ≤ 1 then ⟨0, 0, 0⟩
  else
    let source := Number.single o * Number.single (before - 1) / Number.single (after - 1)
    let lower := min source.toUInt64.toNat (before - 1)
    ⟨lower, min (lower + 1) (before - 1), source - Number.single lower⟩

/-- The blend of two samples, `weight` being that of the second. -/
def lerp (a b weight : Float32) : Float32 :=
  a * (1.0 - weight) + b * weight

namespace Scores

/-- The sample of class `c` at a point of each axis. -/
def sampleAt (s : Scores) (c : Nat) (py px : SamplePoint) : Float32 :=
  let top := lerp (s.score c py.lower px.lower) (s.score c py.lower px.upper) px.weight
  let bottom := lerp (s.score c py.upper px.lower) (s.score c py.upper px.upper) px.weight
  lerp top bottom py.weight

/-- The planes resized by blending, whatever their size. -/
def blend (s : Scores) (height width : Nat) : Scores :=
  let rows := Array.ofFn (n := height) fun y => samplePoint y s.height height
  let columns := Array.ofFn (n := width) fun x => samplePoint x s.width width
  ofFn s.classes height width fun c y x =>
    s.sampleAt c (rows.getD y ⟨0, 0, 0⟩) (columns.getD x ⟨0, 0, 0⟩)

/-- Whether blending to the given size reads a sample that the planes do not have. -/
def lacksSamples (s : Scores) (height width : Nat) : Bool :=
  (s.height = 0 ∨ s.width = 0) ∧ s.classes ≠ 0 ∧ height ≠ 0 ∧ width ≠ 0

/-- The planes at the given size. -/
def upsample (s : Scores) (height width : Nat) : Except Crash Scores :=
  if s.height = height ∧ s.width = width then .ok s
  else if s.lacksSamples height width then .error .outOfRange
  else .ok (s.blend height width)

theorem upsample_self (s : Scores) : s.upsample s.height s.width = .ok s := by
  simp [upsample]

end Scores

end ImageLabeling
