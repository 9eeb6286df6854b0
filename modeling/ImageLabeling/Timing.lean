import ImageLabeling.Failure
import ImageLabeling.File.System
import ImageLabeling.Number.Decimal

/-!
# Timing logs

A timing log has one line for each processed image: its name, a tab, and the elapsed milliseconds
with four places. The log is created empty, collects entries, and is written when it is finished
or dropped: over the beginning of whatever its file holds by then. Writing a part of it earlier, as
a full buffer does, makes no difference to a file that nothing else changes.
-/

namespace ImageLabeling

/-- A span of time in whole nanoseconds. -/
structure Duration where
  nanoseconds : Nat
  deriving DecidableEq, Repr

namespace Duration

/-- No time at all. -/
def zero : Duration := ⟨0⟩

/-- Whole seconds and nanoseconds together, as long as the whole seconds fit in 64 bits. -/
def ofParts (seconds nanoseconds : Nat) : Except Crash Duration :=
  if seconds + nanoseconds / 10 ^ 9 < 2 ^ 64 then .ok ⟨seconds * 10 ^ 9 + nanoseconds⟩
  else .error .overflow

/-- One span after another. -/
def plus (a b : Duration) : Duration :=
  ⟨a.nanoseconds + b.nanoseconds⟩

/-- The span in seconds: the whole seconds and the fraction are rounded before they are added. -/
def seconds (d : Duration) : Float :=
  Number.double (d.nanoseconds / 10 ^ 9) +
    Number.double (d.nanoseconds % 10 ^ 9) / Number.double (10 ^ 9)

end Duration

namespace Timing

/-- The milliseconds of a span with four places. -/
def millisecondsText (elapsed : Duration) : String :=
  (Number.Value.ofDouble (elapsed.seconds * 1000.0)).fixedText 4

/-- The line of one image without its line feed. -/
def entry (name : String) (elapsed : Duration) : String :=
  s!"{name}\t{millisecondsText elapsed} ms"

/-- A timing log that has been created and not yet finished. -/
structure Log where
  path : FilePath
  /-- Where the file is, however the path may lead later. -/
  location : Location
  entries : List (String × Duration)

namespace Log

/-- Creates an empty log file, dropping what the file held before. -/
def create (fs : FileSystem) (path : FilePath) : Except PathFault (FileSystem × Log) := do
  let location ← fs.writeLocation path
  .ok (fs.put location (.file (.bytes [])), ⟨path, location, []⟩)

/-- A log is created where writing to its path puts a file, and has no entries. -/
theorem create_eq_ok_iff {fs fs' : FileSystem} {path : FilePath} {log : Log} :
    create fs path = .ok (fs', log) ↔
      ∃ location, fs.writeLocation path = .ok location ∧
        fs' = fs.put location (.file (.bytes [])) ∧ log = ⟨path, location, []⟩ := by
  unfold create
  cases fs.writeLocation path with
  | error fault =>
    constructor
    · intro h
      cases h
    · rintro ⟨location, h, -⟩
      cases h
  | ok location =>
    constructor
    · intro h
      cases h
      exact ⟨location, rfl, rfl, rfl⟩
    · rintro ⟨location', h, rfl, rfl⟩
      cases h
      rfl

/-- Adds the entry of one image. -/
def record (log : Log) (name : String) (elapsed : Duration) : Log :=
  { log with entries := log.entries ++ [(name, elapsed)] }

/-- The text of the log, a line for each entry. -/
def text (log : Log) : String :=
  String.join (log.entries.map fun (name, elapsed) => entry name elapsed ++ "\n")

/-- Writes the log to its file. -/
def finish (log : Log) (fs : FileSystem) : FileSystem :=
  match fs.lookup? log.location with
  | some (.file content) =>
    fs.put log.location (.file (content.overwrite (Utf8.encode log.text)))
  | _ => fs

end Log

end Timing

end ImageLabeling
