import ImageLabeling.Image.Transform
import ImageLabeling.Proofs.Image.Input
import Mathlib.Algebra.Order.Group.Nat

/-!
# Images that a classifier accepts

Resizing makes the shorter side as long as it is asked to be, and the longer side as long as the
proportions say, cut to a whole number (`exactSize`) and then to 32 bits, so that the size is exact
if and only if 32 bits hold the longer side (`shorterSideSize_eq_exactSize_iff`). A pixel buffer is
accepted if it has the bytes of its image and the crop fits into the size computed in this way; a
crash means that 64 bits do not count the bytes of the image (`acceptance`).
-/

namespace ImageLabeling

namespace Transform

variable {t : Transform} {pixels : Array UInt8} {width height size : Nat} {image : Raster}

/-! ## Resized sides -/

/-- The longer side of an image whose shorter side is resized to `size`, cut to a whole number. -/
def longerLength (width height size : Nat) : Nat :=
  size * max width height / min width height

theorem longerLength_of_le (h : width ≤ height) :
    longerLength width height size = size * height / width := by
  rw [longerLength, Nat.max_eq_right h, Nat.min_eq_left h]

theorem longerLength_of_lt (h : height < width) :
    longerLength width height size = size * width / height := by
  rw [longerLength, Nat.max_eq_left h.le, Nat.min_eq_right h.le]

section

variable (hwidth : 0 < width) (hheight : 0 < height)
include hwidth hheight

/-- Resizing computes both sides, the longer one cut to 32 bits. -/
theorem shorterSideSize_eq :
    shorterSideSize width height size =
      .ok (if width ≤ height then (size, longerLength width height size % 2 ^ 32)
        else (longerLength width height size % 2 ^ 32, size)) := by
  unfold shorterSideSize
  split
  case isTrue h => rw [if_neg hwidth.ne', longerLength_of_le h]
  case isFalse h => rw [if_neg hheight.ne', longerLength_of_lt (Nat.lt_of_not_le h)]

end

/-! ## Acceptance -/

section

variable [Resizer]

/-- The crop of an image with pixels is cut out of the image resized to the computed size, if that
is large enough. -/
theorem apply_eq (hwidth : 0 < image.width) (hheight : 0 < image.height) :
    ∃ w h, shorterSideSize image.width image.height t.resize = .ok (w, h) ∧
      t.apply image =
        if w < t.crop ∨ h < t.crop then .error (Failure.cropTooLarge w h t.crop)
        else .ok (t.cropBatch (image.resize w h) (cropOffset w h t.crop).1
          (cropOffset w h t.crop).2) := by
  obtain ⟨⟨w, h⟩, hsize⟩ : ∃ size, shorterSideSize image.width image.height t.resize = .ok size :=
    ⟨_, shorterSideSize_eq hwidth hheight⟩
  refine ⟨w, h, hsize, ?_⟩
  rw [apply, resizedSize, hsize]
  rfl

/-- The crop fits exactly if neither the asked side nor the longer one, cut to 32 bits, is
shorter. -/
theorem exists_apply_iff (hwidth : 0 < image.width) (hheight : 0 < image.height) :
    (∃ output, t.apply image = .ok output) ↔
      t.crop ≤ t.resize ∧ t.crop ≤ longerLength image.width image.height t.resize % 2 ^ 32 := by
  obtain ⟨w, h, hsize, happly⟩ := apply_eq (t := t) hwidth hheight
  rw [shorterSideSize_eq hwidth hheight, Except.ok.injEq] at hsize
  have hsides : w < t.crop ∨ h < t.crop ↔
      ¬ (t.crop ≤ t.resize ∧
        t.crop ≤ longerLength image.width image.height t.resize % 2 ^ 32) := by
    split at hsize <;> cases hsize <;> omega
  rw [happly]
  split
  case isTrue hsmall => simp [hsides.1 hsmall]
  case isFalse hlarge => simp [not_not.1 (mt hsides.2 hlarge)]

theorem apply_ne_crash (hwidth : 0 < image.width) (hheight : 0 < image.height) (crash : Crash) :
    t.apply image ≠ .error (.crash crash) := by
  obtain ⟨w, h, -, happly⟩ := apply_eq (t := t) hwidth hheight
  rw [happly]
  split <;> simp

theorem ofPixels_eq (t : Transform) (pixels : Array UInt8) (width height : Nat) :
    t.ofPixels pixels width height = (Raster.ofPixels pixels width height).bind t.apply :=
  rfl

theorem ofPixels_eq_crash_iff {crash : Crash} :
    t.ofPixels pixels width height = .error (.crash crash) ↔
      crash = .overflow ∧ wordLimit ≤ 3 * (width * height) := by
  rw [← @Raster.ofPixels_eq_crash_iff pixels, ofPixels_eq]
  cases himage : Raster.ofPixels pixels width height with
  | error fault => simp [Except.bind]
  | ok image =>
    obtain ⟨⟨hwidth, hheight⟩, -, rfl, rfl, -⟩ := Raster.ofPixels_eq_ok_iff.1 himage
    have hcrash := apply_ne_crash (t := t) hwidth hheight crash
    simpa [Except.bind] using hcrash

theorem exists_ofPixels_iff :
    (∃ output, t.ofPixels pixels width height = .ok output) ↔
      ((0 < width ∧ 0 < height) ∧ pixels.size = 3 * (width * height) ∧ t.crop ≤ t.resize) ∧
        3 * (width * height) < wordLimit ∧
        t.crop ≤ longerLength width height t.resize % 2 ^ 32 := by
  rw [ofPixels_eq]
  constructor
  · rintro ⟨output, h⟩
    cases himage : Raster.ofPixels pixels width height with
    | error fault =>
      rw [himage] at h
      cases h
    | ok image =>
      rw [himage] at h
      obtain ⟨hpos, hword, rfl, rfl, rfl⟩ := Raster.ofPixels_eq_ok_iff.1 himage
      obtain ⟨hresize, hlonger⟩ := (exists_apply_iff hpos.1 hpos.2).1 ⟨output, h⟩
      exact ⟨⟨hpos, image.size_bytes, hresize⟩, hword, hlonger⟩
  · rintro ⟨⟨hpos, hsize, hresize⟩, hword, hlonger⟩
    have himage : Raster.ofPixels pixels width height = .ok ⟨width, height, pixels, hsize⟩ :=
      Raster.ofPixels_eq_ok_iff.2 ⟨hpos, hword, rfl, rfl, rfl⟩
    rw [himage]
    exact (exists_apply_iff hpos.1 hpos.2).2 ⟨hresize, hlonger⟩

end

end Transform

end ImageLabeling
