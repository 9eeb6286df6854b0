import ImageLabeling.Failure
import ImageLabeling.Image.Raster

/-!
# Checked pixel buffers

Pixels arrive as bytes with a width and a height. `Raster.ofPixels` accepts them only if the
buffer has exactly the bytes of the image and the image is not empty. The expected length is
computed in 64 bits, so dimensions whose product does not fit end the run.
-/

namespace ImageLabeling

/-- The numbers that a 64-bit word does not hold. -/
def wordLimit : Nat := 2 ^ 64

/-- The number of bytes of an RGB image, computed in 64 bits. -/
def bufferLength (width height : Nat) : Except Fault Nat :=
  if width * height * 3 < wordLimit then .ok (width * height * 3) else .error (.crash .overflow)

/-- The image of a pixel buffer of exactly the right length; an empty image is refused. -/
def Raster.ofPixels (pixels : Array UInt8) (width height : Nat) : Except Fault Raster := do
  let expected ← bufferLength width height
  if h : pixels.size = 3 * (width * height) then
    if width = 0 ∨ height = 0 then .error (Failure.emptyImage width height)
    else .ok ⟨width, height, pixels, h⟩
  else .error (Failure.bufferSize expected pixels.size)

end ImageLabeling
