import ImageLabeling.Image.Input

/-!
# Accepted pixel buffers

A pixel buffer is accepted exactly if it has the bytes of an image with pixels and 64 bits count
them (`ofPixels_eq_ok_iff`). The check crashes exactly if 64 bits do not count the bytes that the
image should have (`ofPixels_eq_crash_iff`), whatever the length of the buffer.
-/

namespace ImageLabeling

variable {pixels : Array UInt8} {width height : Nat}

theorem bufferLength_of_lt (h : 3 * (width * height) < wordLimit) :
    bufferLength width height = .ok (width * height * 3) := by
  rw [bufferLength, if_pos (by rwa [Nat.mul_comm])]

theorem bufferLength_of_le (h : wordLimit ≤ 3 * (width * height)) :
    bufferLength width height = .error (.crash .overflow) := by
  rw [bufferLength, if_neg (by rw [Nat.mul_comm]; omega)]

namespace Raster

theorem ofPixels_of_lt (h : 3 * (width * height) < wordLimit) :
    Raster.ofPixels pixels width height =
      if h : pixels.size = 3 * (width * height) then
        if width = 0 ∨ height = 0 then .error (Failure.emptyImage width height)
        else .ok ⟨width, height, pixels, h⟩
      else .error (Failure.bufferSize (width * height * 3) pixels.size) := by
  rw [Raster.ofPixels, bufferLength_of_lt h]
  rfl

theorem ofPixels_of_le (h : wordLimit ≤ 3 * (width * height)) :
    Raster.ofPixels pixels width height = .error (.crash .overflow) := by
  rw [Raster.ofPixels, bufferLength_of_le h]
  rfl

/-- **What a buffer has to be to be accepted**, and the image that it is then. -/
theorem ofPixels_eq_ok_iff {image : Raster} :
    Raster.ofPixels pixels width height = .ok image ↔
      (0 < width ∧ 0 < height) ∧ 3 * (width * height) < wordLimit ∧
        image.width = width ∧ image.height = height ∧ image.bytes = pixels := by
  by_cases hword : 3 * (width * height) < wordLimit
  · rw [ofPixels_of_lt hword]
    constructor
    · intro h
      split at h
      · split at h
        · cases h
        · cases h
          exact ⟨by omega, hword, rfl, rfl, rfl⟩
      · cases h
    · rintro ⟨hpos, -, rfl, rfl, rfl⟩
      rw [dif_pos image.size_bytes, if_neg (by omega)]
  · rw [ofPixels_of_le (Nat.le_of_not_lt hword)]
    constructor
    · intro h
      cases h
    · intro h
      exact absurd h.2.1 hword

/-- **The check crashes exactly on dimensions that 64 bits do not count the bytes of.** -/
theorem ofPixels_eq_crash_iff {crash : Crash} :
    Raster.ofPixels pixels width height = .error (.crash crash) ↔
      crash = .overflow ∧ wordLimit ≤ 3 * (width * height) := by
  by_cases hword : 3 * (width * height) < wordLimit
  · rw [ofPixels_of_lt hword]
    constructor
    · intro h
      split at h
      · split at h <;> cases h
      · cases h
    · intro h
      omega
  · rw [ofPixels_of_le (Nat.le_of_not_lt hword)]
    constructor
    · intro h
      cases h
      exact ⟨rfl, Nat.le_of_not_lt hword⟩
    · rintro ⟨rfl, -⟩
      rfl

/-- The pixels of an image are accepted again. -/
theorem ofPixels_self {image : Raster} (hwidth : 0 < image.width) (hheight : 0 < image.height)
    (hword : image.bytes.size < wordLimit) :
    Raster.ofPixels image.bytes image.width image.height = .ok image :=
  ofPixels_eq_ok_iff.2 ⟨⟨hwidth, hheight⟩, image.size_bytes ▸ hword, rfl, rfl, rfl⟩

end Raster

end ImageLabeling
