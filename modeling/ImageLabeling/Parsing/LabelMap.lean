import ImageLabeling.Image.Picture
import ImageLabeling.Number.Binary
import ImageLabeling.Parsing.Scores

/-!
# Label maps

A `LabelMap` names a class for each pixel. `LabelMap.ofScores` takes the class with the highest
score, the lowest of those that tie, plane by plane. A map is shown in two ways: `LabelMap.colours`
paints each class in its colour, and `LabelMap.indices` stores the classes as grey values.
-/

namespace ImageLabeling

/-- A class for each pixel, row by row. -/
structure LabelMap where
  height : Nat
  width : Nat
  labels : Array UInt8
  size_labels : labels.size = height * width

namespace LabelMap

/-- The class at column `x` of row `y`. -/
def label (m : LabelMap) (y x : Nat) : UInt8 :=
  m.labels.getD (y * m.width + x) 0

/-! ## The class with the highest score -/

/-- The class chosen for a pixel so far and its score. -/
structure Choice where
  label : UInt8
  score : Float32

/-- No class chosen yet: the first class, below every score. -/
def Choice.none : Choice :=
  ⟨0, Number.lowest⟩

/-- Prefers class `c` if its score is higher. -/
def Choice.offer (best : Choice) (c : Nat) (score : Float32) : Choice :=
  if best.score < score then ⟨UInt8.ofNat c, score⟩ else best

/-- Offers the scores of one class to all pixels. -/
def offerPlane (s : Scores) (best : Array Choice) (c : Nat) : Array Choice :=
  best.mapIdx fun i choice => choice.offer c (s.data.getD (c * (s.height * s.width) + i) 0)

/-- The choice for all pixels after the first `n` classes. -/
def choices (s : Scores) : Nat → Array Choice
  | 0 => Array.replicate (s.height * s.width) Choice.none
  | n + 1 => offerPlane s (choices s n) n

theorem size_choices (s : Scores) (n : Nat) : (choices s n).size = s.height * s.width := by
  induction n with
  | zero => simp [choices]
  | succ n ih => simp [choices, offerPlane, ih]

/-- The class with the highest score at each pixel. -/
def ofScores (s : Scores) : LabelMap where
  height := s.height
  width := s.width
  labels := (choices s s.classes).map Choice.label
  size_labels := by simp [size_choices]

/-! ## Pictures of a map -/

/-- The display colours of the human-parsing classes, the background first. -/
def palette : Array (UInt8 × UInt8 × UInt8) :=
  #[(0, 0, 0), (128, 0, 0), (255, 0, 0), (0, 85, 0), (170, 0, 51), (255, 85, 0), (0, 0, 85),
    (0, 119, 221), (85, 85, 0), (0, 85, 85), (85, 51, 0), (52, 86, 128), (0, 128, 0), (0, 0, 255),
    (51, 170, 221), (0, 255, 255), (85, 255, 170), (170, 255, 85), (255, 255, 0), (255, 170, 0)]

/-- The colour of a class; a class outside the palette looks like the background. -/
def colourOf (label : UInt8) : UInt8 × UInt8 × UInt8 :=
  palette.getD label.toNat (0, 0, 0)

/-- The red, green or blue part of a colour. -/
def part (colour : UInt8 × UInt8 × UInt8) : Nat → UInt8
  | 0 => colour.1
  | 1 => colour.2.1
  | _ => colour.2.2

/-- A side of a picture, as sides have 32 bits. -/
def pictureSide (n : Nat) : Nat := n % 2 ^ 32

/-- The map painted in the colours of its classes. -/
def colours (m : LabelMap) : Raster :=
  Raster.ofFn (pictureSide m.width) (pictureSide m.height) fun x y c =>
    part (colourOf (m.label y x)) c

/-- The map as a grey picture whose values are the classes. -/
def indices (m : LabelMap) : Picture where
  format := .png
  channels := .grey
  depth := .eight
  width := pictureSide m.width
  height := pictureSide m.height
  samples := Array.ofFn (n := pictureSide m.height * pictureSide m.width) fun i =>
    m.label (i / pictureSide m.width) (i % pictureSide m.width)

end LabelMap

end ImageLabeling
