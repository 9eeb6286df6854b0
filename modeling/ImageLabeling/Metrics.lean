import ImageLabeling.Device
import ImageLabeling.Table

/-!
# Run metrics

Counts of processed and failed images and a histogram of forward-pass durations, kept for each
meter, model and device. Recorders with the same key share their counts, and an instrument that
nothing was recorded on has no point.
-/

namespace ImageLabeling

/-- What the measurements of a recorder are filed under. -/
structure Recorder where
  meter : String
  model : String
  device : String
  deriving DecidableEq, Repr

/-- A histogram of durations in seconds. -/
structure Histogram where
  count : Nat
  sum : Float
  least : Float
  greatest : Float
  /-- The number of values up to each bound, and of those above the last. -/
  buckets : List Nat

namespace Histogram

/-- The upper bounds of the buckets; a value equal to a bound belongs below it. -/
def bounds : List Float :=
  [0.001, 0.002, 0.005, 0.01, 0.02, 0.05, 0.1, 0.2, 0.5, 1.0, 2.0, 5.0, 10.0]

/-- The largest finite number. -/
def largestFinite : Float := Float.ofBits 0x7fefffffffffffff

/-- No values. -/
def empty : Histogram :=
  ⟨0, 0.0, largestFinite, -largestFinite, List.replicate (bounds.length + 1) 0⟩

/-- The bucket of a value: the number of bounds below it. -/
def bucketOf (value : Float) : Nat :=
  (bounds.takeWhile (· < value)).length

/-- Adds one value. -/
def record (h : Histogram) (value : Float) : Histogram where
  count := h.count + 1
  sum := h.sum + value
  least := if value < h.least then value else h.least
  greatest := if h.greatest < value then value else h.greatest
  buckets := h.buckets.modify (bucketOf value) (· + 1)

end Histogram

/-- The measurements of one recorder. -/
structure Measurements where
  durations : Histogram
  images : Nat
  failures : Nat

/-- The measurements of a recorder that has recorded nothing. -/
def Measurements.none : Measurements := ⟨.empty, 0, 0⟩

/-- The measurements of all recorders, in the order of their first use. -/
structure Metrics where
  series : Table Recorder Measurements

namespace Metrics

/-- Nothing recorded. -/
def empty : Metrics := ⟨.empty⟩

/-- The measurements of a recorder. -/
def of (m : Metrics) (recorder : Recorder) : Measurements :=
  (m.series.get? recorder).getD .none

/-- Changes the measurements of a recorder. -/
def modify (m : Metrics) (recorder : Recorder) (f : Measurements → Measurements) : Metrics :=
  ⟨m.series.put recorder (f (m.of recorder))⟩

/-- A change is seen by its recorder alone. -/
theorem of_modify (m : Metrics) (recorder other : Recorder) (f : Measurements → Measurements) :
    (m.modify recorder f).of other =
      if other = recorder then f (m.of recorder) else m.of other := by
  unfold of modify
  rw [Table.get?_put]
  split <;> rfl

/-- Records a processed image and the duration of its forward pass. -/
def recordSuccess (m : Metrics) (recorder : Recorder) (seconds : Float) : Metrics :=
  m.modify recorder fun s =>
    { s with durations := s.durations.record seconds, images := s.images + 1 }

/-- Records a failed image. -/
def recordFailure (m : Metrics) (recorder : Recorder) : Metrics :=
  m.modify recorder fun s => { s with failures := s.failures + 1 }

/-! ## Data points -/

/-- The value of an instrument. -/
inductive PointValue
  | counter (value : Nat)
  | histogram (histogram : Histogram)

/-- A data point of one instrument. -/
structure Point where
  meter : String
  instrument : String
  attributes : List String
  value : PointValue

/-- The attributes that the measurements of a recorder carry. -/
def attributes (recorder : Recorder) : List String :=
  [s!"device={recorder.device}", s!"model={recorder.model}"]

/-- The points of one recorder. -/
def pointsOf (recorder : Recorder) (s : Measurements) : List Point :=
  let point (instrument : String) (value : PointValue) : Point :=
    ⟨recorder.meter, instrument, attributes recorder, value⟩
  (if s.durations.count = 0 then [] else
    [point "inference_duration_seconds" (.histogram s.durations)]) ++
  (if s.failures = 0 then [] else
    [point "inference_image_failures_total" (.counter s.failures)]) ++
  (if s.images = 0 then [] else [point "inference_images_total" (.counter s.images)])

/-- What points are sorted by. -/
def Point.key (p : Point) : List String :=
  p.meter :: p.instrument :: p.attributes

/-- All points, sorted by meter, instrument and attributes. -/
def points (m : Metrics) : List Point :=
  let all := m.series.rows.flatMap fun (recorder, s) => pointsOf recorder s
  all.mergeSort fun a b => !decide (b.key < a.key)

end Metrics

end ImageLabeling
