import ImageLabeling.Failure
import ImageLabeling.Image.Raster
import ImageLabeling.Number.Binary

/-!
# Resizing images

What resizes images is left open: a `Resizer` gives an image of the size that is asked for, and a
copy if the image has that size already.

The instance is bilinear resizing by convolution with a triangle. An axis whose length changes gets
one pass, the vertical one first, and the image is rounded to bytes between the passes. A pass
computes the weights of every output position in double precision (`window`), turns them into whole
numbers of one common precision, and blends bytes in natural numbers (`blend`).
-/

namespace ImageLabeling

/-- A way to resize images. -/
class Resizer where
  /-- The image at a width and a height. -/
  resize : Raster → Nat → Nat → Raster
  width_resize (r : Raster) (width height : Nat) : (resize r width height).width = width
  height_resize (r : Raster) (width height : Nat) : (resize r width height).height = height
  /-- An image that has the size already is copied. -/
  resize_self (r : Raster) : resize r r.width r.height = r

namespace Raster

variable [Resizer] (r : Raster) (width height : Nat)

/-- The image resized to `width` by `height`. -/
def resize : Raster :=
  Resizer.resize r width height

@[simp] theorem width_resize : (r.resize width height).width = width :=
  Resizer.width_resize r width height

@[simp] theorem height_resize : (r.resize width height).height = height :=
  Resizer.height_resize r width height

theorem resize_self : r.resize r.width r.height = r :=
  Resizer.resize_self r

end Raster

/-! ## Convolution -/

namespace Resize

open Number

/-- The weights of one output position: the first input position and a weight for each from
there on. -/
structure Window where
  start : Nat
  weights : Array Float

/-- The triangle of radius one. -/
def triangle (t : Float) : Float :=
  let height := 1.0 - (if t < 0.0 then -t else t)
  if height < 0.0 then 0.0 else height

/-- The whole part of a number that is not negative, and zero for a negative one. -/
def floorNat (x : Float) : Nat :=
  x.toUInt64.toNat

/-- The least natural number that is not below `x`. -/
def ceilNat (x : Float) : Nat :=
  let n := floorNat x
  if double n < x then n + 1 else n

/-- The natural number nearest to `x`, an exact half going up. -/
def roundNat (x : Float) : Nat :=
  let n := floorNat x
  if x - double n < 0.5 then n else n + 1

/-- Drops the zero weights at both ends, moving the start over those in front. -/
def trimWindow (start : Nat) (weights : List Float) : Nat × List Float :=
  let isZero (w : Float) : Bool := w == 0.0
  let leading := (weights.takeWhile isZero).length
  (start + leading, ((weights.dropWhile isZero).reverse.dropWhile isZero).reverse)

/-- The weights of output position `o` when an axis of length `before` becomes `after`. -/
def window (before after o : Nat) : Window :=
  let ratio := double before / double after
  let spread := if ratio < 1.0 then 1.0 else ratio
  let center := (double o + 0.5) * ratio
  let low := floorNat (center - spread)
  let high := min (ceilNat (center + spread)) before
  let weight (x : Nat) : Float := triangle ((double x - (center - 0.5)) * (1.0 / spread))
  let (start, weights) := trimWindow low ((List.range' low (high - low)).map weight)
  let total := weights.foldl (· + ·) 0.0
  ⟨start, (weights.map (· / total)).toArray⟩

/-- The number of binary places that weights up to `largest` are rounded to: the most that keep
the largest below `2 ^ 15`, and at most 21. -/
def precision (largest : Float) : Nat :=
  ((List.range 21).find? fun p => 2 ^ 15 ≤ roundNat (largest * double (2 ^ (p + 1)))).getD 21

/-- Whole-number weights of one output position. -/
structure Kernel where
  start : Nat
  weights : Array Nat

/-- The common precision and the kernels of a pass from length `before` to length `after`. -/
def kernels (before after : Nat) : Nat × Array Kernel :=
  let windows := (Array.range after).map (window before after)
  let larger (a b : Float) : Float := if a < b then b else a
  let largest := windows.foldl (fun m w => w.weights.foldl larger m) 0.0
  let places := precision largest
  let unit := double (2 ^ places)
  (places, windows.map fun w => ⟨w.start, w.weights.map fun x => roundNat (x * unit)⟩)

/-- The sum of the first `n` weighted samples. -/
def weigh (weights : Array Nat) (sample : Nat → UInt8) : Nat → Nat
  | 0 => 0
  | n + 1 => weigh weights sample n + weights.getD n 0 * (sample n).toNat

/-- The byte nearest to the weighted mean of samples. -/
def blend (places : Nat) (kernel : Kernel) (sample : Nat → UInt8) : UInt8 :=
  let sum := weigh kernel.weights (fun i => sample (kernel.start + i)) kernel.weights.size
  UInt8.ofNat (min 255 ((2 ^ (places - 1) + sum) / 2 ^ places))

/-- Changes the height of an image. -/
def vertical (r : Raster) (height : Nat) : Raster :=
  if r.height = height then r else
    let (places, rows) := kernels r.height height
    Raster.ofFn r.width height fun x y c =>
      blend places (rows.getD y ⟨0, #[]⟩) fun row => r.sample x row c

/-- Changes the width of an image. -/
def horizontal (r : Raster) (width : Nat) : Raster :=
  if r.width = width then r else
    let (places, columns) := kernels r.width width
    Raster.ofFn width r.height fun x y c =>
      blend places (columns.getD x ⟨0, #[]⟩) fun column => r.sample column y c

/-- Both passes; if either image has no pixels the result is black. -/
def convolve (r : Raster) (width height : Nat) : Raster :=
  if r.width = 0 ∨ r.height = 0 ∨ width = 0 ∨ height = 0 then
    Raster.ofFn width height fun _ _ _ => 0
  else horizontal (vertical r height) width

theorem height_vertical (r : Raster) (height : Nat) : (vertical r height).height = height := by
  unfold vertical
  split
  case isTrue hsame => exact hsame
  case isFalse => rfl

theorem width_horizontal (r : Raster) (width : Nat) : (horizontal r width).width = width := by
  unfold horizontal
  split
  case isTrue hsame => exact hsame
  case isFalse => rfl

theorem height_horizontal (r : Raster) (width : Nat) :
    (horizontal r width).height = r.height := by
  unfold horizontal
  split <;> rfl

theorem width_convolve (r : Raster) (width height : Nat) :
    (convolve r width height).width = width := by
  unfold convolve
  split
  case isTrue => rfl
  case isFalse => exact width_horizontal _ width

theorem height_convolve (r : Raster) (width height : Nat) :
    (convolve r width height).height = height := by
  unfold convolve
  split
  case isTrue => rfl
  case isFalse => rw [height_horizontal, height_vertical]

theorem convolve_self (r : Raster) : convolve r r.width r.height = r := by
  unfold convolve
  split
  case isTrue hempty =>
    -- there is no pixel to tell the two apart
    refine Raster.ext_sample rfl rfl fun c hc y hy x hx => ?_
    change y < r.height at hy
    change x < r.width at hx
    omega
  case isFalse => rw [vertical, if_pos rfl, horizontal, if_pos rfl]

end Resize

instance : Resizer where
  resize := Resize.convolve
  width_resize := Resize.width_convolve
  height_resize := Resize.height_convolve
  resize_self := Resize.convolve_self

/-- The image at the front of a pixel buffer, if the buffer is long enough. -/
def Raster.ofBuffer (pixels : Array UInt8) (width height : Nat) : Except Failure Raster :=
  if h : 3 * (width * height) ≤ pixels.size then
    .ok ⟨width, height, pixels.extract 0 (3 * (width * height)),
      by rw [Array.size_extract, Nat.sub_zero, Nat.min_eq_left h]⟩
  else .error .shortBuffer

end ImageLabeling
