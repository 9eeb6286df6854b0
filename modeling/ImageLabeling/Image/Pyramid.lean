import ImageLabeling.Image.Input
import ImageLabeling.Image.Resize
import ImageLabeling.Tensor

/-!
# Image pyramids

A parsing network sees an image at several scales. Each level of the pyramid is the image resized
by one scale, as a batch of two: the image itself and its mirror image, with bytes mapped to the
interval from -1 to 1. `Scales.ofList` accepts a list of scales and `Pyramid.level` builds one
level.
-/

namespace ImageLabeling

/-- Whether a number can scale an image: finite and above zero. -/
def isScale (scale : Float32) : Bool :=
  scale.isFinite && !(scale ≤ 0)

/-- The scales of a pyramid: at least one, each finite and above zero. -/
structure Scales where
  list : List Float32
  ne_nil : list ≠ []
  all_isScale : list.all isScale

namespace Scales

/-- Accepts a list of scales, or names the first one that is not positive. -/
def ofList (list : List Float32) : Except Failure Scales :=
  if hnil : list = [] then .error .noScales
  else if hall : list.all isScale then .ok ⟨list, hnil, hall⟩
  else .error (.badScale ((list.find? fun s => !isScale s).getD 0))

/-- The scales used unless others are given. -/
def default : List Float32 := [1.0, 0.5, 0.75, 1.25, 1.5, 1.75]

end Scales

/-- One level of a pyramid. -/
structure Level where
  scale : Float32
  width : Nat
  height : Nat
  batch : Tensor

namespace Pyramid

/-- A length times a scale, the product rounded to single precision and cut to 32 bits. -/
def scaledLength (length : Nat) (scale : Float32) : Nat :=
  (Number.single length * scale).toUInt32.toNat

/-- Width and height of an image at a scale. -/
def scaledSize (width height : Nat) (scale : Float32) : Nat × Nat :=
  (scaledLength width scale, scaledLength height scale)

/-- A byte mapped to the interval from -1 to 1. -/
def normalize (byte : UInt8) : Float32 :=
  Number.single byte.toNat * 2.0 / 255.0 - 1.0

/-- The batch of an image and its mirror image, channel by channel. -/
def mirrorBatch (r : Raster) : Tensor :=
  Tensor.batch 2 3 r.height r.width fun b c y x =>
    normalize (r.sample (if b = 0 then x else r.width - 1 - x) y c)

variable [Resizer]

/-- The level of an image at a scale. -/
def level (image : Raster) (scale : Float32) : Except Failure Level :=
  let (width, height) := scaledSize image.width image.height scale
  if width = 0 ∨ height = 0 then .error (.vanishingScale scale image.width image.height)
  else .ok ⟨scale, width, height, mirrorBatch (image.resize width height)⟩

/-- The pyramid of an image, a level for each scale in order. -/
def levels (scales : Scales) (image : Raster) : Except Failure (List Level) :=
  scales.list.mapM (level image)

/-- The pyramid of the image in a pixel buffer. -/
def ofPixels (scales : Scales) (pixels : Array UInt8) (width height : Nat) :
    Except Fault (List Level) := do
  let image ← Raster.ofPixels pixels width height
  (levels scales image).mapError .failure

end Pyramid

end ImageLabeling
