import ImageLabeling.CommandLine.Flag
import ImageLabeling.Environment
import ImageLabeling.Image.Pyramid
import ImageLabeling.Source

/-!
# Settings of the parsing runner

The flags of the runner that labels pixels, their defaults, and what follows from the settings: the
model file, the device, the image source and the options for loading the network.
-/

namespace ImageLabeling.CommandLine

/-- The settings of a parsing run. -/
structure ParseSettings where
  model : Option FilePath := none
  outputDirectory : FilePath := .ofString "demo_imgs"
  gpuFlag : Int := 1
  image : Option FilePath := none
  list : Option FilePath := none
  root : Option FilePath := none
  /-- The scales given; the default ones if there are none. -/
  givenScales : List Float32 := []
  inputName : String := "input"
  outputName : String := "output"
  endpoint : Option String := none
  environment : Environment := .development

namespace ParseSettings

/-- The flags of a parsing run. -/
def flags : List (Flag ParseSettings) := [
  { name := "loadmodel", valueName := "MODEL_PATH", variableName := some "PARSE_MODEL_PATH"
    accept := pathValue fun p s => { s with model := some p } },
  { name := "output-dir", aliases := ["output_dir"], valueName := "OUTPUT_DIR"
    variableName := some "PARSE_OUTPUT_DIR"
    accept := pathValue fun p s => { s with outputDirectory := p } },
  { name := "use-gpu", aliases := ["use_gpu"], valueName := "USE_GPU"
    variableName := some "USE_GPU"
    accept := integerValue fun n s => { s with gpuFlag := n } },
  { name := "img-path", aliases := ["img_path"], valueName := "IMG_PATH"
    accept := pathValue fun p s => { s with image := some p } },
  { name := "img-list", aliases := ["img_list"], valueName := "IMG_LIST"
    accept := pathValue fun p s => { s with list := some p } },
  { name := "data-root", aliases := ["data_root"], valueName := "DATA_ROOT"
    accept := pathValue fun p s => { s with root := some p } },
  { name := "scales", valueName := "SCALES", repeats := true
    accept := numbersValue fun xs s => { s with givenScales := s.givenScales ++ xs } },
  { name := "input-name", valueName := "INPUT_NAME"
    accept := textValue fun t s => { s with inputName := t } },
  { name := "output-name", valueName := "OUTPUT_NAME"
    accept := textValue fun t s => { s with outputName := t } },
  { name := "otel-endpoint", valueName := "OTEL_ENDPOINT", variableName := some "OTEL_ENDPOINT"
    accept := textValue fun t s => { s with endpoint := some t } }]

/-- The settings of a command line. -/
def read (arguments : List String) (environment : String → Option String) :
    Except UsageFault ParseSettings :=
  readCommandLine flags { environment := .ofVariable (environment "ENVIRONMENT") } arguments
    environment

/-- The scales of the pyramid. -/
def scales (s : ParseSettings) : List Float32 :=
  if s.givenScales = [] then Scales.default else s.givenScales

/-- The device to run on. -/
def device (s : ParseSettings) : Device :=
  .ofFlag s.gpuFlag

/-- The model file, which has to be named. -/
def modelPath (s : ParseSettings) : Except Failure FilePath :=
  match s.model with
  | none => .error .missingModel
  | some path => if path.bytes = [] then .error .missingModel else .ok path

/-- The images to label. -/
def source (s : ParseSettings) : Except Failure Source :=
  Source.ofFlags s.image s.list s.root

/-- The options for loading the network. -/
def networkOptions (s : ParseSettings) : NetworkOptions :=
  { device := s.device, inputName := s.inputName, outputName := s.outputName }

end ParseSettings

end ImageLabeling.CommandLine
