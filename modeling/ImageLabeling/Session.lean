import ImageLabeling.Device
import ImageLabeling.Event
import ImageLabeling.Image.File
import ImageLabeling.Metrics
import ImageLabeling.Timing

/-!
# Sessions

What a run reads and changes: the files, the network with its state, the clock, the measurements
and the events reported so far, as far as somebody listens to their levels. A `Run` is a computation
that passes a session on, also when it fails: what was written or reported before a failure stays.
A timing log that is open while a run crashes is written as well (`Session.holding`).
-/

namespace ImageLabeling

/-- The state of a run whose network has state `σ`. -/
structure Session (σ : Type) where
  files : FileSystem
  network : Network σ
  state : σ
  /-- The spans that the clock measures, in order. -/
  clock : Nat → Duration
  /-- How many spans have been measured. -/
  measured : Nat := 0
  metrics : Metrics := .empty
  /-- The levels of events that somebody listens to. -/
  listens : Severity → Bool := fun _ => true
  /-- The events reported so far, the latest first. -/
  reported : List Event := []

/-- A computation on a session that has a result or ends in a fault. -/
abbrev Run (σ α : Type) := ExceptT Fault (StateM (Session σ)) α

namespace Session

variable {σ α : Type}

/-- The events reported so far, in order. -/
def events (s : Session σ) : List Event :=
  s.reported.reverse

/-- The session after events in order: those of a level that nobody listens to are dropped. -/
def told (s : Session σ) (events : List Event) : Session σ :=
  { s with reported := (events.filter fun event => s.listens event.severity).reverse ++ s.reported }

theorem files_told (s : Session σ) (events : List Event) : (s.told events).files = s.files := rfl

/-- Reports events in order. -/
def reportAll (events : List Event) : Run σ Unit :=
  modify (·.told events)

/-- Reports an event. -/
def report (event : Event) : Run σ Unit :=
  reportAll [event]

/-- Measures the time since the measurement began. -/
def measure : Run σ Duration := do
  let s ← get
  set { s with measured := s.measured + 1 }
  pure (s.clock s.measured)

/-- Runs a forward pass of the network. -/
def infer (input : Tensor) : Run σ Tensor := do
  let s ← get
  let (answer, state) := s.network.infer input s.state
  set { s with state }
  match answer with
  | .ok output => pure output
  | .error message => throw (.failure (.network message))

/-- Changes the measurements. -/
def meter (f : Metrics → Metrics) : Run σ Unit :=
  modify fun s => { s with metrics := f s.metrics }

/-- A result or a failure that does not depend on the session. -/
def ofExcept (result : Except Failure α) : Run σ α :=
  match result with
  | .ok a => pure a
  | .error failure => throw (.failure failure)

/-- A result or a fault that does not depend on the session. -/
def ofFault (result : Except Fault α) : Run σ α :=
  match result with
  | .ok a => pure a
  | .error fault => throw fault

/-- Writes a file, or fails as given. -/
def save (path : FilePath) (content : FileContent) (failure : Failure) : Run σ Unit := do
  let s ← get
  match s.files.write path content with
  | .ok files => set { s with files }
  | .error _ => throw (.failure failure)

/-- Runs `body` and gives back its failure as a value; a crash passes through. -/
def attempt (body : Run σ α) : Run σ (Except Failure α) :=
  fun s =>
    match body s with
    | (.ok a, s) => (.ok (.ok a), s)
    | (.error (.failure failure), s) => (.ok (.error failure), s)
    | (.error (.crash crash), s) => (.error (.crash crash), s)

/-- The image of a picture file. -/
def load (path : FilePath) : Run σ Raster := do
  ofExcept ((← get).files.loadImage path)

/-- Creates a timing log. -/
def createLog (path : FilePath) : Run σ Timing.Log := do
  let s ← get
  match Timing.Log.create s.files path with
  | .ok (files, log) =>
    set { s with files }
    pure log
  | .error _ => throw (.failure (.noTimingLog path))

/-- Writes a timing log. -/
def finishLog (log : Timing.Log) : Run σ Unit :=
  modify fun s => { s with files := log.finish s.files }

/-- Runs `body` while a timing log is open: a crash drops the log, and what is dropped is written
first. -/
def holding (log : Timing.Log) (body : Run σ α) : Run σ α :=
  fun s =>
    match body s with
    | (.error (.crash crash), s) => (.error (.crash crash), { s with files := log.finish s.files })
    | ended => ended

end Session

end ImageLabeling
