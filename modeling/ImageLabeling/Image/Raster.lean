import ImageLabeling.Number.MixedRadix

/-!
# RGB images

A `Raster` is an image with one byte for each of red, green and blue, the pixels row by row from
the top. `Raster.ofFn` builds one from a function of column, row and channel, and `Raster.sample`
reads it; `sample_ofFn` says that they agree inside the image.
-/

namespace ImageLabeling

/-- An RGB image, one byte for a colour, row by row. -/
structure Raster where
  width : Nat
  height : Nat
  bytes : Array UInt8
  size_bytes : bytes.size = 3 * (width * height)
  deriving Repr

namespace Raster

open Number

/-- The byte of channel `c` at column `x` of row `y`. -/
def sample (r : Raster) (x y c : Nat) : UInt8 :=
  r.bytes.getD (3 * (y * r.width + x) + c) 0

/-- Inside an image, a byte stands at its place. -/
theorem getElem?_bytes {r : Raster} {x y c : Nat} (hx : x < r.width) (hy : y < r.height)
    (hc : c < 3) : r.bytes[3 * (y * r.width + x) + c]? = some (r.sample x y c) := by
  have hpixel : y * r.width + x < r.height * r.width := digit_lt hy hx
  have hplace : 3 * (y * r.width + x) + c < r.bytes.size := by
    rw [r.size_bytes, Nat.mul_comm r.width]
    omega
  simp [sample, hplace]

/-- The image with the byte `f x y c` for channel `c` at column `x` of row `y`. -/
def ofFn (width height : Nat) (f : Nat → Nat → Nat → UInt8) : Raster where
  width := width
  height := height
  bytes := Array.ofFn (n := 3 * (width * height)) fun i =>
    f (i.1 / 3 % width) (i.1 / 3 / width) (i.1 % 3)
  size_bytes := by simp

/-- Inside the image, `ofFn f` has the bytes of `f`. -/
theorem sample_ofFn {width height : Nat} (f : Nat → Nat → Nat → UInt8) {x y c : Nat}
    (hx : x < width) (hy : y < height) (hc : c < 3) :
    (ofFn width height f).sample x y c = f x y c := by
  have hpixel : y * width + x < height * width := digit_lt hy hx
  have hplace : 3 * (y * width + x) + c < 3 * (width * height) := by
    rw [Nat.mul_comm width height]; omega
  have hdiv : (3 * (y * width + x) + c) / 3 = y * width + x := by omega
  have hmod : (3 * (y * width + x) + c) % 3 = c := by omega
  simp [sample, ofFn, Array.getD, hplace, hdiv, hmod, digit_div y hx, digit_mod y hx]

/-- The mirror image. -/
def mirror (r : Raster) : Raster :=
  ofFn r.width r.height fun x y c => r.sample (r.width - 1 - x) y c

theorem sample_mirror (r : Raster) {x y c : Nat} (hx : x < r.width) (hy : y < r.height)
    (hc : c < 3) : r.mirror.sample x y c = r.sample (r.width - 1 - x) y c :=
  sample_ofFn _ hx hy hc

/-- Images of one size that agree at every pixel are the same. -/
theorem ext_sample {r r' : Raster} (hwidth : r.width = r'.width) (hheight : r.height = r'.height)
    (h : ∀ c < 3, ∀ y < r.height, ∀ x < r.width, r.sample x y c = r'.sample x y c) : r = r' := by
  have hbytes : r.bytes = r'.bytes := by
    apply Array.ext
    · rw [r.size_bytes, r'.size_bytes, hwidth, hheight]
    · intro i hi hi'
      have hpixel : i / 3 < r.height * r.width := by
        rw [r.size_bytes] at hi
        rw [Nat.mul_comm]
        omega
      have hw : 0 < r.width := Nat.pos_of_mul_pos_left (Nat.zero_lt_of_lt hpixel)
      have hx := Nat.mod_lt (i / 3) hw
      have hy := (Nat.div_lt_iff_lt_mul hw).2 hpixel
      have hc := Nat.mod_lt i (Nat.succ_pos 2)
      have hplace : 3 * (i / 3 / r.width * r.width + i / 3 % r.width) + i % 3 = i := by
        rw [Nat.div_add_mod', Nat.div_add_mod]
      have hleft := getElem?_bytes hx hy hc
      have hright := getElem?_bytes (hwidth ▸ hx) (hheight ▸ hy) hc
      rw [← hwidth, hplace] at hright
      rw [hplace, h _ hc _ hy _ hx, ← hright, Array.getElem?_eq_getElem hi,
        Array.getElem?_eq_getElem hi'] at hleft
      exact Option.some.inj hleft
  cases r
  cases r'
  dsimp only at hwidth hheight hbytes
  subst hwidth hheight hbytes
  rfl

end Raster

end ImageLabeling
