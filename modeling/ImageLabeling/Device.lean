import ImageLabeling.Failure
import ImageLabeling.Tensor
import ImageLabeling.Text.Blank
import ImageLabeling.Text.Lowercase

/-!
# Networks and where they run

A `Network` is a black box that turns one tensor into another and may keep a state of its own. It
runs on a `Device`, chosen by name or by a GPU flag, and is loaded with `NetworkOptions`.
-/

namespace ImageLabeling

/-- Where the forward pass runs. -/
inductive Device
  | cpu
  | cuda
  deriving DecidableEq, Repr

namespace Device

/-- The name of a device. -/
def name : Device → String
  | cpu => "cpu"
  | cuda => "cuda"

/-- The device with a name, whatever its case and the blanks around it; an unknown name is given
back in lower case. -/
def ofName (text : String) : Except String Device :=
  let word := Text.lowercase (Text.trim text)
  if word = "cpu" then .ok cpu
  else if word = "cuda" ∨ word = "gpu" then .ok cuda
  else .error word

/-- What is said about a name that no device has. -/
def unknownText (word : String) : String :=
  s!"unknown device `{word}`, expected `cpu` or `cuda`"

/-- The device for a GPU flag: any positive number asks for the GPU. -/
def ofFlag (flag : Int) : Device :=
  if 0 < flag then cuda else cpu

end Device

/-- How a network is loaded and which of its tensors are used. -/
structure NetworkOptions where
  device : Device := .cpu
  inputName : String := "input"
  outputName : String := "output"
  threads : Nat := 4

/-- A network whose state has type `σ`. -/
structure Network (σ : Type) where
  device : Device
  /-- One forward pass: an output tensor or an error text, and the next state. -/
  infer : Tensor → σ → Except String Tensor × σ

/-- Refuses a tensor name that is not among those a network has. -/
def checkTensorName (role : TensorRole) (wanted : String) (available : List String) :
    Except Failure Unit :=
  if wanted ∈ available then .ok () else .error (.unknownTensor role wanted available)

end ImageLabeling
