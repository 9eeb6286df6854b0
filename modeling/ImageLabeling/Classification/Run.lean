import ImageLabeling.Classification.Accuracy
import ImageLabeling.Classification.Classifier
import ImageLabeling.Classification.Ranking
import ImageLabeling.Image.Input
import ImageLabeling.Session

/-!
# Classification runs

A classification run predicts the class of every image, writes a timing log, and measures the
accuracy over the images whose names begin with a class. A failing image is counted and reported,
and the run goes on.
-/

namespace ImageLabeling.Classification

open Session

variable {σ : Type} [Resizer]

/-- What a classification run needs besides its session. -/
structure Job where
  model : Classifier
  /-- How many classes are ranked for each image. -/
  rankedClasses : Nat
  /-- The exponential of the ranking. -/
  exp : Float32 → Float32 := Float32.exp

/-- The class of one image and the time of its forward pass. -/
structure Prediction where
  label : Nat
  forward : Duration

/-- What a run reports at its end. -/
structure Summary where
  model : Classifier
  accuracy : Accuracy
  processed : Nat
  failed : Nat
  /-- Processed images whose names begin with no class. -/
  unlabeled : Nat
  timingLog : FilePath

/-- What the measurements of a run are filed under. -/
def recorder (model : Classifier) (device : Device) : Recorder :=
  ⟨"classify", model.selector, device.name⟩

/-! ## One image -/

/-- The report about a resized image. -/
def resizeEvent (image : Raster) (width height crop : Nat) : Event :=
  ⟨.trace, "Resizing for classification",
    [("width", toString image.width), ("height", toString image.height),
      ("new_width", toString width), ("new_height", toString height), ("crop", toString crop)]⟩

/-- The network input for an image; the size is reported if the crop fits. -/
def prepare (transform : Transform) (image : Raster) : Run σ Tensor := do
  let image ← ofFault (Raster.ofPixels image.bytes image.width image.height)
  let (width, height) ← ofFault ((transform.resizedSize image).mapError .crash)
  if ¬(width < transform.crop ∨ height < transform.crop) then
    report (resizeEvent image width height transform.crop)
  ofFault (transform.apply image)

/-- Ranks the classes and reports the prediction, if somebody listens to debugging. -/
def reportPrediction (job : Job) (output : Tensor) (label : Nat) : Run σ Unit := do
  if (← get).listens .debug then
    let _ ← ofExcept (ranking job.exp output job.rankedClasses)
    report ⟨.debug, "Prediction", [("class", toString label)]⟩

/-- Takes the class from the answer of a forward pass and measures the pass. -/
def judge (job : Job) (output : Tensor) : Run σ Prediction := do
  let forward ← measure
  let device := (← get).network.device
  meter (·.recordSuccess (recorder job.model device) forward.seconds)
  let label ← ofExcept (topClass output)
  reportPrediction job output label
  pure ⟨label, forward⟩

/-- The class of an image. -/
def classifyImage (job : Job) (image : Raster) : Run σ Prediction := do
  let output ← infer (← prepare job.model.transform image)
  judge job output

/-! ## All images -/

/-- What the images so far have added to a run. -/
structure Progress where
  accuracy : Accuracy := {}
  processed : Nat := 0
  failed : Nat := 0
  unlabeled : Nat := 0
  log : Timing.Log

/-- The name of an image: the end of its path, or nothing. -/
def imageName (path : FilePath) : String :=
  (path.fileName?.map Utf8.lossy).getD ""

/-- Counts a prediction if the name of its image begins with a class. -/
def bookLabel (progress : Progress) (name : String) (label : Nat) : Run σ Progress :=
  match trueLabel name with
  | .ok truth => do
    let accuracy ← ofFault ((progress.accuracy.record label truth).mapError .crash)
    pure { progress with accuracy }
  | .error failure => do
    report ⟨.warn, "Excluded from accuracy", [("error", failure.message)]⟩
    pure { progress with unlabeled := progress.unlabeled + 1 }

/-- Loads and classifies the next image. -/
def visit (job : Job) (path : FilePath) : Run σ (Except Failure Prediction) :=
  attempt (load path >>= classifyImage job)

/-- Books the outcome for an image. -/
def book (job : Job) (progress : Progress) (path : FilePath) :
    Except Failure Prediction → Run σ Progress
  | .ok prediction =>
    let log := progress.log.record (imageName path) prediction.forward
    holding log (bookLabel { progress with processed := progress.processed + 1, log }
      (imageName path) prediction.label)
  | .error failure => do
    let device := (← get).network.device
    meter (·.recordFailure (recorder job.model device))
    report ⟨.error, "Failed to classify image",
      [("image", path.display), ("error", failure.message)]⟩
    pure { progress with failed := progress.failed + 1 }

/-- Processes the next image and books its outcome. -/
def step (job : Job) (progress : Progress) (path : FilePath) : Run σ Progress := do
  book job progress path (← holding progress.log (visit job path))

/-- Opens a run: its timing log is created. -/
def start (job : Job) (images : List FilePath) (timingLog : FilePath) : Run σ Timing.Log := do
  let device := (← get).network.device
  report ⟨.info, "Classification starting",
    [("model", job.model.selector), ("device", device.name),
      ("images", toString images.length)]⟩
  createLog timingLog

/-- Closes a run: its timing log is written. -/
def finish (job : Job) (progress : Progress) : Run σ Summary := do
  report ⟨.debug, "Closing timing log",
    [("model", job.model.selector), ("timed", toString progress.log.entries.length)]⟩
  finishLog progress.log
  pure ⟨job.model, progress.accuracy, progress.processed, progress.failed,
    progress.unlabeled, progress.log.path⟩

/-- Classifies all images in order. -/
def run (job : Job) (images : List FilePath) (timingLog : FilePath) : Run σ Summary := do
  let log ← start job images timingLog
  let progress ← images.foldlM (step job) { log }
  finish job progress

/-! ## The summary -/

/-- The percentage of a summary with two places. -/
def percentText (percent : Float) : String :=
  (Number.Value.ofDouble percent).fixedText 2

/-- The events that report a summary. -/
def Summary.events (s : Summary) : List Event :=
  let model := s.model.selector
  let accuracy : Event :=
    match s.accuracy.percent with
    | some percent =>
      ⟨.info, s!"[{model}] Accuracy on {s.accuracy.total} images: {percentText percent}%", []⟩
    | none => ⟨.warn, s!"[{model}] No labeled images, accuracy undefined", []⟩
  let saved : Event :=
    ⟨.info, s!"[{model}] Per-image inference times saved to {s.timingLog}", []⟩
  let uncounted : Event :=
    ⟨.warn, "Some images were not counted",
      [("model", model), ("failed", toString s.failed), ("unlabeled", toString s.unlabeled)]⟩
  [accuracy, saved] ++ if 0 < s.failed ∨ 0 < s.unlabeled then [uncounted] else []

end ImageLabeling.Classification
