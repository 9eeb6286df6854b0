import ImageLabeling.File.Path
import ImageLabeling.Image.Raster

/-!
# Stored pictures

A picture file holds a format, a pixel layout and samples. Reading one as an RGB image replicates
grey, drops alpha and narrows 16-bit samples to the nearest byte. The format a file is expected to
have is chosen by the extension of its name alone.
-/

namespace ImageLabeling

/-- The formats that pictures are stored in. -/
inductive PictureFormat
  | png
  | jpeg
  deriving DecidableEq, Repr

/-- What the samples of a pixel mean. -/
inductive PixelChannels
  | grey
  | greyAlpha
  | rgb
  | rgba
  deriving DecidableEq, Repr

/-- How wide a sample is; wide samples have their high byte first. -/
inductive SampleDepth
  | eight
  | sixteen
  deriving DecidableEq, Repr

/-- The number of samples of a pixel. -/
def PixelChannels.count : PixelChannels → Nat
  | .grey => 1
  | .greyAlpha => 2
  | .rgb => 3
  | .rgba => 4

/-- The sample that holds red, green or blue. -/
def PixelChannels.colour : PixelChannels → Nat → Nat
  | .grey, _ | .greyAlpha, _ => 0
  | .rgb, c | .rgba, c => c

/-- The number of bytes of a sample. -/
def SampleDepth.bytes : SampleDepth → Nat
  | .eight => 1
  | .sixteen => 2

/-- A picture as its file stores it. -/
structure Picture where
  format : PictureFormat
  channels : PixelChannels
  depth : SampleDepth
  width : Nat
  height : Nat
  samples : Array UInt8
  deriving DecidableEq, Repr

namespace Picture

/-- The sample number `s` of pixel number `p` as one byte. -/
def narrow (picture : Picture) (p s : Nat) : UInt8 :=
  let i := p * picture.channels.count + s
  match picture.depth with
  | .eight => picture.samples.getD i 0
  | .sixteen =>
    let high := (picture.samples.getD (2 * i) 0).toNat
    let low := (picture.samples.getD (2 * i + 1) 0).toNat
    UInt8.ofNat ((256 * high + low + 128) / 257)

/-- The picture as an RGB image. -/
def toRaster (picture : Picture) : Raster :=
  Raster.ofFn picture.width picture.height fun x y c =>
    picture.narrow (y * picture.width + x) (picture.channels.colour c)

/-- The lossless picture of an RGB image. -/
def ofRaster (r : Raster) : Picture where
  format := .png
  channels := .rgb
  depth := .eight
  width := r.width
  height := r.height
  samples := r.bytes

/-- The size of a picture file whose rows are stored as they are, each after one byte for its
filter: a signature and three chunks with the framing of one stored block. -/
def storedSize (picture : Picture) : Nat :=
  68 + picture.height * (1 + picture.width * picture.channels.count * picture.depth.bytes)

/-- The format that a file name's extension stands for, whatever its case. -/
def formatOf? (path : FilePath) : Option PictureFormat :=
  match path.extension? with
  | none => none
  | some extension =>
    let word := (Utf8.lossy extension).map Char.toLower
    if word = "png" ∨ word = "apng" then some .png
    else if word = "jpg" ∨ word = "jpeg" ∨ word = "jfif" then some .jpeg
    else none

end Picture

end ImageLabeling
