/-!
# Log events

What a runner reports while it works: a level, a message, and fields as text.
-/

namespace ImageLabeling

/-- How much an event matters, the least first. -/
inductive Severity
  | trace
  | debug
  | info
  | warn
  | error
  deriving DecidableEq, Repr

namespace Severity

/-- The name of a level in log lines. -/
def name : Severity → String
  | trace => "TRACE"
  | debug => "DEBUG"
  | info => "INFO"
  | warn => "WARN"
  | error => "ERROR"

/-- The place of a level, more important ones higher. -/
def rank : Severity → Nat
  | trace => 1
  | debug => 2
  | info => 3
  | warn => 4
  | error => 5

end Severity

/-- Something reported. -/
structure Event where
  severity : Severity
  message : String
  fields : List (String × String) := []
  deriving DecidableEq, Repr

end ImageLabeling
