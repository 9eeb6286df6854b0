import ImageLabeling.Event
import ImageLabeling.Image.Transform
import ImageLabeling.Text.Blank

/-!
# Known classifiers

The classifiers that come with a known transform, each with the selector that names it on the
command line and in file names.
-/

namespace ImageLabeling

/-- The classifiers with a known transform. -/
inductive Classifier
  | squeezeNet
  | mobileNet
  | resNet
  | vgg
  | inception
  deriving DecidableEq, Repr

namespace Classifier

/-- All classifiers. -/
def all : List Classifier := [squeezeNet, mobileNet, resNet, vgg, inception]

/-- The name of a classifier. -/
def selector : Classifier → String
  | squeezeNet => "squeezenet1_1"
  | mobileNet => "mobilenet_v2"
  | resNet => "resnet18"
  | vgg => "vgg16"
  | inception => "inception_v3"

/-- The selectors used unless others are given. -/
def defaultSelectors : List String :=
  [squeezeNet, mobileNet, resNet, vgg].map selector

/-- The transform that a classifier was trained with. -/
def transform : Classifier → Transform
  | mobileNet => .imageNet 232 224
  | inception => .imageNet 342 299
  | squeezeNet | resNet | vgg => .imageNet 256 224

/-- The file of a classifier's network in a directory. -/
def modelPath (model : Classifier) (directory : FilePath) : FilePath :=
  directory.child s!"{model.selector}.onnx"

/-- The classifier with a selector, blanks around it aside. -/
def ofSelector (text : String) : Except Failure Classifier :=
  let wanted := Text.trim text
  match all.find? fun model => model.selector == wanted with
  | some model => .ok model
  | none => .error (.unsupportedModel wanted)

/-- The classifier of a selector, or a warning if there is none. -/
def resolveOne (text : String) : Except Event Classifier :=
  (ofSelector text).mapError fun _ =>
    ⟨.warn, s!"Model '{text}' is not supported, skipping.", []⟩

/-- The classifiers of selectors in order, and a warning for each selector without one. -/
def resolve (selectors : List String) : List Classifier × List Event :=
  let answers := selectors.map resolveOne
  (answers.filterMap Except.toOption,
    answers.filterMap fun | .error event => some event | .ok _ => none)

theorem ofSelector_selector (model : Classifier) : ofSelector model.selector = .ok model := by
  cases model <;> cbv

end Classifier

end ImageLabeling
