import ImageLabeling.Image.Pyramid
import ImageLabeling.Parsing.Accumulator
import ImageLabeling.Parsing.LabelMap
import ImageLabeling.Session
import ImageLabeling.Source

/-!
# Human parsing runs

A parsing run labels the pixels of every image of a source. An image is fed to the network at
every scale of a pyramid, the answers are fused and summed, and the label map is written as two
pictures beside a timing log. A failing image is counted and reported, and the run goes on.
-/

namespace ImageLabeling.Parsing

open Session

variable {σ : Type} [Resizer]

/-- What a parsing run needs besides its session. -/
structure Job where
  scales : Scales
  outputDirectory : FilePath

/-- A job for a list of scales, if they are valid. -/
def Job.ofScales (scales : List Float32) (outputDirectory : FilePath) :
    Except Failure Job :=
  (Scales.ofList scales).map fun scales => ⟨scales, outputDirectory⟩

/-- The results written for one image. -/
structure Parsed where
  colours : FilePath
  labels : FilePath
  elapsed : Duration

/-- What a run reports at its end. -/
structure Summary where
  outputs : List Parsed
  failed : Nat
  timingLog : FilePath

/-! ## One image -/

/-- Builds one level of a pyramid and reports its size. -/
def buildLevel (image : Raster) (scale : Float32) : Run σ Level := do
  let level ← ofExcept (Pyramid.level image scale)
  report ⟨.trace, "Built pyramid level",
    [("new_width", toString level.width), ("new_height", toString level.height)]⟩
  pure level

/-- Feeds the levels of a pyramid to the network in order and sums the fused answers; the result
comes with the time spent in forward passes. -/
def sumLevels (acc : Accumulator) (forward : Duration) :
    List Level → Run σ (Accumulator × Duration)
  | [] => pure (acc, forward)
  | level :: rest => do
    let output ← infer level.batch
    let span ← measure
    let fused ← ofExcept (Scores.fuse output)
    let acc ← ofFault (acc.add fused)
    sumLevels acc (forward.plus span) rest

/-- The scores of an image summed over all scales, at the size of the first one, with the time
spent in forward passes. -/
def sumScales (job : Job) (image : Raster) : Run σ (Scores × Duration) := do
  let image ← ofFault (Raster.ofPixels image.bytes image.width image.height)
  let levels ← job.scales.list.mapM (buildLevel image)
  match levels with
  | [] => throw (.failure .noScales)
  | first :: _ =>
    let (acc, forward) ← sumLevels (.empty first.height first.width) .zero levels
    report ⟨.debug, "Fused pyramid", []⟩
    match acc.sum with
    | none => throw (.failure .noScales)
    | some scores => pure (scores, forward)

/-- The label map of an image, with the time spent in forward passes. -/
def parseImage (job : Job) (image : Raster) : Run σ (LabelMap × Duration) := do
  let (scores, forward) ← sumScales job image
  pure (LabelMap.ofScores scores, forward)

/-- What the measurements of a parsing run are filed under. -/
def recorder (device : Device) : Recorder :=
  ⟨"parse", "human_parsing", device.name⟩

/-- The file for the coloured label map of an image. -/
def coloursPath (job : Job) (path : FilePath) : FilePath :=
  job.outputDirectory.child s!"parsed_{Source.stem path}.png"

/-- The file for the label map of an image as grey values. -/
def labelsPath (job : Job) (path : FilePath) : FilePath :=
  job.outputDirectory.child s!"label_{Source.stem path}.png"

/-- Announces an image, loads it and labels its pixels. -/
def labelImage (job : Job) (path : FilePath) : Run σ (LabelMap × Duration) := do
  report ⟨.info, "Processing image", [("image", path.display)]⟩
  parseImage job (← load path)

/-- Writes the two pictures of the label map of an image. -/
def saveLabels (job : Job) (path : FilePath) (labels : LabelMap) : Run σ Unit := do
  save (coloursPath job path) (.picture (.ofRaster labels.colours))
    (.unsaved (coloursPath job path))
  save (labelsPath job path) (.picture labels.indices) (.unsaved (labelsPath job path))

/-- Labels one image and writes its results. -/
def processImage (job : Job) (path : FilePath) : Run σ Parsed := do
  let (labels, forward) ← labelImage job path
  saveLabels job path labels
  let device := (← get).network.device
  meter (·.recordSuccess (recorder device) forward.seconds)
  let elapsed ← measure
  pure ⟨coloursPath job path, labelsPath job path, elapsed⟩

/-! ## All images -/

/-- What the images so far have added to a run. -/
structure Progress where
  outputs : List Parsed := []
  failed : Nat := 0
  log : Timing.Log

/-- The name of an image in the timing log. -/
def logName (path : FilePath) : String :=
  (path.fileName?.map Utf8.lossy).getD path.display

/-- Books the outcome for an image. -/
def book (progress : Progress) (path : FilePath) : Except Failure Parsed → Run σ Progress
  | .ok parsed => do
    report ⟨.info, "Saved parsing result",
      [("parsed", parsed.colours.display), ("label", parsed.labels.display)]⟩
    pure { progress with
      outputs := progress.outputs ++ [parsed]
      log := progress.log.record (logName path) parsed.elapsed }
  | .error failure => do
    let device := (← get).network.device
    meter (·.recordFailure (recorder device))
    report ⟨.error, "Failed to parse image",
      [("image", path.display), ("error", failure.message)]⟩
    pure { progress with failed := progress.failed + 1 }

/-- Processes the next image and books its outcome. -/
def step (job : Job) (progress : Progress) (path : FilePath) : Run σ Progress := do
  book progress path (← holding progress.log (attempt (processImage job path)))

/-- The timing log of a run. -/
def timingPath (job : Job) (device : Device) : FilePath :=
  job.outputDirectory.child s!"time_parsing_{device.name}.txt"

/-- Makes the output directory. -/
def makeOutputDirectory (job : Job) : Run σ Unit := do
  let s ← get
  let (files, result) := s.files.makeTree job.outputDirectory
  set { s with files }
  match result with
  | .ok () => pure ()
  | .error _ => throw (.failure (.noOutputDirectory job.outputDirectory))

/-- The paths of a source. -/
def resolveSource (source : Source) : Run σ (List FilePath) := do
  let s ← get
  let (events, paths) := source.images s.files
  reportAll events
  ofExcept paths

/-- Opens a run: the output directory is made, the source resolved and the timing log created. -/
def start (job : Job) (source : Source) : Run σ (List FilePath × Timing.Log) := do
  makeOutputDirectory job
  let images ← resolveSource source
  report ⟨.info, "Human parsing starting",
    [("images", toString images.length), ("output_dir", job.outputDirectory.display)]⟩
  let log ← createLog (timingPath job (← get).network.device)
  pure (images, log)

/-- Closes a run: its timing log is written. -/
def finish (progress : Progress) : Run σ Summary := do
  finishLog progress.log
  report ⟨.info, "Inference complete",
    [("processed", toString progress.outputs.length),
      ("timed", toString progress.log.entries.length), ("failed", toString progress.failed)]⟩
  pure ⟨progress.outputs, progress.failed, progress.log.path⟩

/-- Labels all images of a source in order. -/
def run (job : Job) (source : Source) : Run σ Summary := do
  let (images, log) ← start job source
  let progress ← images.foldlM (step job) { log }
  finish progress

end ImageLabeling.Parsing
