import ImageLabeling.Image.Input
import ImageLabeling.Image.Resize
import ImageLabeling.Tensor

/-!
# Classifier input

A classifier sees the center of an image whose shorter side has been resized to a given length.
`shorterSideSize` computes the resized size, `cropOffset` places the crop with equal margins, and
`Transform.apply` normalizes the bytes inside it channel by channel.
-/

namespace ImageLabeling

/-- A number for each of red, green and blue. -/
structure PerChannel where
  red : Float32
  green : Float32
  blue : Float32

/-- The number for channel `c`. -/
def PerChannel.get (v : PerChannel) : Nat → Float32
  | 0 => v.red
  | 1 => v.green
  | _ => v.blue

/-- How an image becomes the input of a classifier. -/
structure Transform where
  /-- The length that the shorter side is resized to. -/
  resize : Nat
  /-- The side of the square crop. -/
  crop : Nat
  mean : PerChannel
  deviation : PerChannel

namespace Transform

/-- The channel means of the ImageNet pictures. -/
def imageNetMean : PerChannel := ⟨0.485, 0.456, 0.406⟩

/-- The channel deviations of the ImageNet pictures. -/
def imageNetDeviation : PerChannel := ⟨0.229, 0.224, 0.225⟩

/-- The transform with the statistics of the ImageNet pictures. -/
def imageNet (resize crop : Nat) : Transform :=
  ⟨resize, crop, imageNetMean, imageNetDeviation⟩

/-- The transform used unless another is given. -/
def default : Transform := imageNet 256 224

/-- The size at which the shorter side is `size`, the longer side cut to a whole number and to
32 bits; there is none for an empty shorter side. -/
def shorterSideSize (width height size : Nat) : Except Crash (Nat × Nat) :=
  if width ≤ height then
    if width = 0 then .error .divisionByZero else .ok (size, size * height / width % 2 ^ 32)
  else if height = 0 then .error .divisionByZero
  else .ok (size * width / height % 2 ^ 32, size)

/-- The whole number nearest to half of `margin`, a half going to the even neighbour; a margin
that single precision does not hold is rounded to it first. -/
def halfMargin (margin : Nat) : Nat :=
  let half := Number.single margin / 2.0
  let n := half.toUInt64.toNat
  let rest := half - Number.single n
  if rest < 0.5 then n else if 0.5 < rest then n + 1 else n + n % 2

/-- The left and top of the centered crop. -/
def cropOffset (width height crop : Nat) : Nat × Nat :=
  (halfMargin (width - crop), halfMargin (height - crop))

/-- A byte normalized for channel `c`. -/
def normalize (t : Transform) (c : Nat) (byte : UInt8) : Float32 :=
  (Number.single byte.toNat / 255.0 - t.mean.get c) / t.deviation.get c

/-- The normalized crop at the given offset. -/
def cropBatch (t : Transform) (r : Raster) (left top : Nat) : Tensor :=
  Tensor.batch 1 3 t.crop t.crop fun _ c y x => t.normalize c (r.sample (left + x) (top + y) c)

/-- The size of an image before the crop. -/
def resizedSize (t : Transform) (image : Raster) : Except Crash (Nat × Nat) :=
  shorterSideSize image.width image.height t.resize

variable [Resizer]

/-- The input of a classifier for an image. -/
def apply (t : Transform) (image : Raster) : Except Fault Tensor := do
  let (width, height) ← (t.resizedSize image).mapError .crash
  if width < t.crop ∨ height < t.crop then .error (Failure.cropTooLarge width height t.crop)
  else
    let (left, top) := cropOffset width height t.crop
    .ok (t.cropBatch (image.resize width height) left top)

/-- The input of a classifier for the image in a pixel buffer. -/
def ofPixels (t : Transform) (pixels : Array UInt8) (width height : Nat) : Except Fault Tensor := do
  let image ← Raster.ofPixels pixels width height
  t.apply image

end Transform

end ImageLabeling
