import ImageLabeling.Classification.Classifier
import ImageLabeling.CommandLine.Flag
import ImageLabeling.Environment
import ImageLabeling.Source

/-!
# Settings of the classification runner

The flags of the runner that measures classifiers, their defaults, and what follows from the
settings: the selectors, the image source, the timing logs and the options for loading a network.
-/

namespace ImageLabeling.CommandLine

/-- The settings of a classification run. -/
structure ClassifySettings where
  /-- The selectors given; the default ones if there are none. -/
  givenModels : List String := []
  modelDirectory : FilePath := .ofString "models"
  imageDirectory : FilePath := .ofString "imagenet_test_1000"
  device : Device := .cuda
  logDirectory : FilePath := .ofString "."
  limit : Option Nat := none
  rankedClasses : Nat := 5
  inputName : String := "input"
  outputName : String := "output"
  endpoint : Option String := none
  environment : Environment := .development

namespace ClassifySettings

/-- The flags of a classification run. -/
def flags : List (Flag ClassifySettings) := [
  { name := "models", valueName := "MODELS", repeats := true
    accept := textsValue fun ts s => { s with givenModels := s.givenModels ++ ts } },
  { name := "model-dir", valueName := "MODEL_DIR", variableName := some "CLASSIFY_MODEL_DIR"
    accept := pathValue fun p s => { s with modelDirectory := p } },
  { name := "img-dir", valueName := "IMG_DIR", variableName := some "CLASSIFY_IMG_DIR"
    accept := pathValue fun p s => { s with imageDirectory := p } },
  { name := "device", valueName := "DEVICE", variableName := some "CLASSIFY_DEVICE"
    accept := deviceValue fun d s => { s with device := d } },
  { name := "log-dir", valueName := "LOG_DIR"
    accept := pathValue fun p s => { s with logDirectory := p } },
  { name := "limit", valueName := "LIMIT"
    accept := countValue fun n s => { s with limit := some n } },
  { name := "top-k", valueName := "TOP_K"
    accept := countValue fun n s => { s with rankedClasses := n } },
  { name := "input-name", valueName := "INPUT_NAME"
    accept := textValue fun t s => { s with inputName := t } },
  { name := "output-name", valueName := "OUTPUT_NAME"
    accept := textValue fun t s => { s with outputName := t } },
  { name := "otel-endpoint", valueName := "OTEL_ENDPOINT", variableName := some "OTEL_ENDPOINT"
    accept := textValue fun t s => { s with endpoint := some t } }]

/-- The settings of a command line. -/
def read (arguments : List String) (environment : String → Option String) :
    Except UsageFault ClassifySettings :=
  readCommandLine flags { environment := .ofVariable (environment "ENVIRONMENT") } arguments
    environment

/-- The selectors of the classifiers to run. -/
def models (s : ClassifySettings) : List String :=
  if s.givenModels = [] then Classifier.defaultSelectors else s.givenModels

/-- The images to classify. -/
def source (s : ClassifySettings) : Source :=
  .directory s.imageDirectory s.limit

/-- The timing log of a classifier. -/
def timingLog (s : ClassifySettings) (selector : String) : FilePath :=
  s.logDirectory.child s!"time_{selector}_{s.device.name}.txt"

/-- The options for loading a network. -/
def networkOptions (s : ClassifySettings) : NetworkOptions :=
  { device := s.device, inputName := s.inputName, outputName := s.outputName }

end ClassifySettings

end ImageLabeling.CommandLine
