import ImageLabeling.Failure
import ImageLabeling.Tensor

/-!
# Class scores of pixels

A `Scores` holds a plane of scores for each class. This module has the two symmetries of human
parsing, mirroring the planes (`Scores.mirror`) and exchanging the classes of left and right body
parts (`Scores.swapSides`), and the fusion of a network's answers for an image and its mirror image
(`Scores.fuse`). `score_ofFn` is the one equation through which the others are proved.
-/

namespace ImageLabeling

/-- A plane of scores for each class, class by class and row by row. -/
structure Scores where
  classes : Nat
  height : Nat
  width : Nat
  data : Array Float32
  size_data : data.size = classes * (height * width)

namespace Scores

open Number

/-- The score of class `c` at column `x` of row `y`. -/
def score (s : Scores) (c y x : Nat) : Float32 :=
  s.data.getD ((c * s.height + y) * s.width + x) 0

/-- The planes with score `f c y x` for class `c` at column `x` of row `y`. -/
def ofFn (classes height width : Nat) (f : Nat → Nat → Nat → Float32) : Scores where
  classes := classes
  height := height
  width := width
  data := Array.ofFn (n := classes * (height * width)) fun i =>
    f (i.1 / (height * width)) (i.1 / width % height) (i.1 % width)
  size_data := by simp

/-- Inside the planes, `ofFn f` has the scores of `f`. -/
theorem score_ofFn {classes height width : Nat} (f : Nat → Nat → Nat → Float32) {c y x : Nat}
    (hc : c < classes) (hy : y < height) (hx : x < width) :
    (ofFn classes height width f).score c y x = f c y x := by
  have hrow : c * height + y < classes * height := digit_lt hc hy
  have hplace : (c * height + y) * width + x < classes * (height * width) := by
    rw [← Nat.mul_assoc]
    exact digit_lt hrow hx
  have hplane : ((c * height + y) * width + x) / (height * width) = c := by
    rw [Nat.mul_comm height width, ← Nat.div_div_eq_div_mul, digit_div _ hx, digit_div _ hy]
  simp [score, ofFn, Array.getD, hplace, hplane, digit_div _ hx, digit_mod _ hx, digit_mod _ hy]

/-- The planes of a tensor of rank three. -/
def ofTensor? (t : Tensor) : Option Scores :=
  match h : t.shape with
  | [c, height, width] => some ⟨c, height, width, t.data, by rw [t.size_data, h]; simp⟩
  | _ => none

/-- The planes as a tensor of rank three. -/
def toTensor (s : Scores) : Tensor :=
  ⟨[s.classes, s.height, s.width], s.data, by rw [s.size_data]; simp⟩

/-- The shape of the planes. -/
def shape (s : Scores) : List Nat :=
  [s.classes, s.height, s.width]

/-! ## Left and right -/

/-- The number of human-parsing classes. -/
def partCount : Nat := 20

/-- The class of the same body part on the other side: arms, legs and shoes come in pairs. -/
def otherSide (c : Nat) : Nat :=
  if c = 14 then 15 else if c = 15 then 14
  else if c = 16 then 17 else if c = 17 then 16
  else if c = 18 then 19 else if c = 19 then 18
  else c

theorem otherSide_otherSide (c : Nat) : otherSide (otherSide c) = c := by
  unfold otherSide
  grind

theorem otherSide_lt {c : Nat} (h : c < partCount) : otherSide c < partCount := by
  unfold otherSide partCount at *
  grind

/-- The planes with the width axis reversed. -/
def mirror (s : Scores) : Scores :=
  ofFn s.classes s.height s.width fun c y x => s.score c y (s.width - 1 - x)

/-- The planes with those of left and right body parts exchanged. -/
def swapSides (s : Scores) : Except Failure Scores :=
  if s.classes = partCount then
    .ok (ofFn s.classes s.height s.width fun c y x => s.score (otherSide c) y x)
  else .error (.shapeMismatch "[20, H, W]" s.shape)

theorem score_mirror (s : Scores) {c y x : Nat} (hc : c < s.classes) (hy : y < s.height)
    (hx : x < s.width) : s.mirror.score c y x = s.score c y (s.width - 1 - x) :=
  score_ofFn _ hc hy hx

/-- Exchanging succeeds for the human-parsing classes and reads every class on its other side. -/
theorem score_of_swapSides_eq_ok {s t : Scores} (h : s.swapSides = .ok t) {c y x : Nat}
    (hc : c < s.classes) (hy : y < s.height) (hx : x < s.width) :
    t.score c y x = s.score (otherSide c) y x := by
  unfold swapSides at h
  split at h
  · cases h
    exact score_ofFn _ hc hy hx
  · cases h

/-! ## Fusion -/

/-- The two answers of a network for an image and its mirror image, if the tensor is a batch of
two with planes for any number of classes. -/
def pair? (output : Tensor) : Option (Scores × Scores) :=
  match h : output.shape with
  | [2, c, height, width] =>
    let size := c * (height * width)
    have hsize : output.data.size = 2 * size := by
      rw [output.size_data, h]; simp [size]
    some (⟨c, height, width, output.data.extract 0 size, by simp; omega⟩,
      ⟨c, height, width, output.data.extract size (2 * size), by simp; omega⟩)
  | _ => none

/-- The mean of two stacks of planes, element by element. -/
def mean (a b : Scores) : Scores :=
  ofFn a.classes a.height a.width fun c y x => (a.score c y x + b.score c y x) / 2.0

/-- The mean of the answer for an image and the mirrored, side-exchanged answer for its mirror
image. -/
def fuse (output : Tensor) : Except Failure Scores :=
  match pair? output with
  | none => .error (.shapeMismatch "[2, 20, H, W]" output.shape)
  | some (upright, mirrored) => do
    let restored ← mirrored.swapSides
    .ok (mean upright restored.mirror)

end Scores

end ImageLabeling
