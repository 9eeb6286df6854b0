import ImageLabeling.Number.MixedRadix

/-!
# Tensors

A `Tensor` is what a network reads and writes: single-precision elements under a shape of any rank,
the last axis fastest. `Tensor.get` reads an element by its index along each axis, and
`Tensor.batch` builds a tensor of rank four from a function of the four indices.
-/

namespace ImageLabeling

/-- The number of elements under a shape. -/
def Tensor.volume (shape : List Nat) : Nat :=
  shape.foldr (· * ·) 1

/-- A tensor of any rank, stored with the last axis fastest. -/
structure Tensor where
  shape : List Nat
  data : Array Float32
  size_data : data.size = Tensor.volume shape

namespace Tensor

open Number

@[simp] theorem volume_nil : volume [] = 1 := rfl

@[simp] theorem volume_cons (n : Nat) (shape : List Nat) :
    volume (n :: shape) = n * volume shape := rfl

/-- The place in the store of the element with the given index along each axis. -/
def offset : List Nat → List Nat → Nat
  | _ :: shape, i :: index => i * volume shape + offset shape index
  | _, _ => 0

/-- The element with the given index along each axis. -/
def get (t : Tensor) (index : List Nat) : Float32 :=
  t.data.getD (offset t.shape index) 0

/-- Whether some axis has length zero. -/
def isEmpty (t : Tensor) : Bool :=
  t.data.isEmpty

/-- The tensor of shape `[n, c, h, w]` with the elements `f b k y x`. -/
def batch (n c h w : Nat) (f : Nat → Nat → Nat → Nat → Float32) : Tensor where
  shape := [n, c, h, w]
  data := Array.ofFn (n := n * (c * (h * w))) fun i =>
    f (i.1 / (c * (h * w))) (i.1 / (h * w) % c) (i.1 / w % h) (i.1 % w)
  size_data := by simp

/-- Inside its axes, a batch has the elements it was built from. -/
theorem get_batch {n c h w : Nat} (f : Nat → Nat → Nat → Nat → Float32) {b k y x : Nat}
    (hb : b < n) (hk : k < c) (hy : y < h) (hx : x < w) :
    (batch n c h w f).get [b, k, y, x] = f b k y x := by
  have hplane : y * w + x < h * w := digit_lt hy hx
  have himage : k * (h * w) + (y * w + x) < c * (h * w) := digit_lt hk hplane
  have hplace : b * (c * (h * w)) + (k * (h * w) + (y * w + x)) < n * (c * (h * w)) :=
    digit_lt hb himage
  have hchannel : (b * (c * (h * w)) + (k * (h * w) + (y * w + x))) / (h * w) % c = k := by
    have hsplit : b * (c * (h * w)) + (k * (h * w) + (y * w + x)) =
        (b * c + k) * (h * w) + (y * w + x) := by
      rw [Nat.add_mul, Nat.mul_assoc, Nat.add_assoc]
    rw [hsplit, digit_div _ hplane, digit_mod _ hk]
  have hsplit : b * (c * (h * w)) + (k * (h * w) + (y * w + x)) =
      ((b * c + k) * h + y) * w + x := by
    simp only [Nat.add_mul, Nat.mul_assoc, Nat.add_assoc]
  have hrow : (b * (c * (h * w)) + (k * (h * w) + (y * w + x))) / w % h = y := by
    rw [hsplit, digit_div _ hx, digit_mod _ hy]
  have hcolumn : (b * (c * (h * w)) + (k * (h * w) + (y * w + x))) % w = x := by
    rw [hsplit, digit_mod _ hx]
  simp [get, batch, offset, Array.getD, hplace, digit_div _ himage, hchannel, hrow, hcolumn]

end Tensor

end ImageLabeling
