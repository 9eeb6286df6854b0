import ImageLabeling.File.Path
import ImageLabeling.Number.Decimal
import ImageLabeling.Text.Quoted

/-!
# Failures

What can go wrong, by cause. A `Failure` is an outcome that a caller can report, with its wording
in `Failure.message`. A `Crash` is an arithmetic or indexing mistake that ends the whole run; a
`Fault` is either.
-/

namespace ImageLabeling

/-- Whether a tensor is fed to a network or read back from it. -/
inductive TensorRole
  | input
  | output
  deriving DecidableEq, Repr

/-- The word for a role. -/
def TensorRole.word : TensorRole → String
  | .input => "input"
  | .output => "output"

/-- An outcome that a caller can report. -/
inductive Failure
  /-- No model file was named. -/
  | missingModel
  /-- The model file is not there. -/
  | modelNotFound (path : FilePath)
  /-- A GPU was asked for and there is none. -/
  | gpuUnavailable (reason : String)
  /-- The selector names no known classifier. -/
  | unsupportedModel (name : String)
  /-- A tensor does not have the expected shape. -/
  | shapeMismatch (expected : String) (actual : List Nat)
  /-- A network has no tensor of the wanted name. -/
  | unknownTensor (role : TensorRole) (name : String) (available : List String)
  /-- The images to process cannot be found. -/
  | invalidSource (reason : String)
  /-- A file name does not begin with a class. -/
  | invalidLabel (name : String)
  /-- The list of scales is empty. -/
  | noScales
  /-- A scale is not a positive number. -/
  | badScale (scale : Float32)
  /-- A pixel buffer has not the length of its image. -/
  | bufferSize (expected actual : Nat)
  /-- A pixel buffer is too short for its image. -/
  | shortBuffer
  /-- An image without pixels cannot be fed to a network. -/
  | emptyImage (width height : Nat)
  /-- A scale leaves no pixel of an image. -/
  | vanishingScale (scale : Float32) (width height : Nat)
  /-- The crop does not fit into the resized image. -/
  | cropTooLarge (width height crop : Nat)
  /-- A file is no picture of the format that its name announces. -/
  | undecodable (path : FilePath)
  /-- A list file is not readable text. -/
  | unreadableList (path : FilePath)
  /-- A picture cannot be written. -/
  | unsaved (path : FilePath)
  /-- The directory for the results cannot be made. -/
  | noOutputDirectory (path : FilePath)
  /-- The timing log cannot be created. -/
  | noTimingLog (path : FilePath)
  /-- The network reports an error of its own. -/
  | network (message : String)

/-- A shape as text. -/
def shapeText (shape : List Nat) : String :=
  Text.bracketed (shape.map toString)

/-- The shortest text of a scale. -/
def scaleText (scale : Float32) : String :=
  (Number.Value.ofSingle scale).shortestText

/-- The wording of a failure. -/
def Failure.message : Failure → String
  | missingModel => "No model provided"
  | modelNotFound path => s!"Model file not found: {path}"
  | gpuUnavailable reason => s!"GPU requested but unavailable: {reason}"
  | unsupportedModel name => s!"Model '{name}' is not supported"
  | shapeMismatch expected actual =>
    s!"Unexpected tensor shape: expected {expected}, got {shapeText actual}"
  | unknownTensor role name available =>
    s!"Model has no {role.word} tensor named '{name}', available: " ++
      Text.bracketed (available.map Text.quoted)
  | invalidSource reason => s!"Invalid image source: {reason}"
  | invalidLabel name => s!"No class label in file name: {name}"
  | noScales => "At least one inference scale is required"
  | badScale scale => s!"Inference scales must be positive, got {scaleText scale}"
  | bufferSize expected actual =>
    s!"Buffer size mismatch: expected {expected}, got {actual} bytes"
  | shortBuffer => "Size of buffer is smaller than required"
  | emptyImage width height => s!"Cannot preprocess an empty {width}x{height} image"
  | vanishingScale scale width height =>
    s!"Scale {scaleText scale} shrinks the {width}x{height} image to nothing"
  | cropTooLarge width height crop =>
    s!"Resized image {width}x{height} is smaller than the {crop}x{crop} crop"
  | undecodable path => s!"Failed to decode {path}"
  | unreadableList path => s!"Failed to read image list {path}"
  | unsaved path => s!"Failed to save {path}"
  | noOutputDirectory path => s!"Failed to create output directory {path}"
  | noTimingLog path => s!"Failed to create timing log {path}"
  | network message => message

/-- A mistake that ends the whole run. -/
inductive Crash
  /-- A number does not fit in 64 bits. -/
  | overflow
  | divisionByZero
  /-- An index lies outside its axis. -/
  | outOfRange
  /-- A text is cut inside a character. -/
  | splitCharacter
  deriving DecidableEq, Repr

/-- Why a computation has no result. -/
inductive Fault
  | crash (crash : Crash)
  | failure (failure : Failure)

instance : Coe Failure Fault := ⟨.failure⟩

end ImageLabeling
