import ImageLabeling.Environment
import ImageLabeling.Logging.Endpoint
import ImageLabeling.Logging.Filter

/-!
# Log lines

A subscriber writes the events that its filter allows, together with the spans that were entered
around them, as far as the filter allows those too. In production every event is one JSON object;
in development the lines are for reading.
-/

namespace ImageLabeling.Logging

/-- The form of log lines. -/
inductive LineForm
  | json
  | pretty
  deriving DecidableEq, Repr

/-- The form of log lines in an environment. -/
def LineForm.of : Environment → LineForm
  | .production => .json
  | .development => .pretty

/-- What is written for an event: the event and the spans around it, the outermost first. -/
structure Line where
  notice : Notice
  spans : List Span
  deriving DecidableEq, Repr

/-- What becomes of events. -/
structure Subscriber where
  filter : Filter
  form : LineForm
  deriving DecidableEq, Repr

/-- The line for an event inside spans, the outermost first, if it is written. -/
def Subscriber.line? (s : Subscriber) (spans : List Span) (notice : Notice) : Option Line :=
  let scope := s.filter.enterAll spans
  if s.filter.allows scope notice then some ⟨notice, scope.spans⟩ else none

/-- The event that tells of a collector. -/
def telemetryNotice (service endpoint : String) : Notice :=
  ⟨.info, "common::telemetry", "OTLP telemetry enabled",
    [("service_name", .text service), ("endpoint", .text endpoint)]⟩

/-- Why logging cannot be set up. -/
inductive SetUpFault
  | endpoint (endpoint : String) (fault : EndpointFault)
  | crash (crash : Crash)
  deriving DecidableEq, Repr

/-- The subscriber for a filter variable and an environment. -/
def Subscriber.ofVariable (filter : Option String) (environment : Environment) :
    Except SetUpFault Subscriber :=
  match Filter.ofVariable filter with
  | .ok filter => .ok ⟨filter, .of environment⟩
  | .error crash => .error (.crash crash)

/-- Sets up logging: the subscriber, and the events of the set-up itself. A collector is checked
before the filter is read. -/
def setUp (service : String) (filter : Option String) (environment : Environment)
    (endpoint : Option String) : Except SetUpFault (Subscriber × List Notice) := do
  match endpoint with
  | none => .ok (← Subscriber.ofVariable filter environment, [])
  | some endpoint =>
    (checkEndpoint endpoint).mapError (.endpoint endpoint)
    .ok (← Subscriber.ofVariable filter environment, [telemetryNotice service endpoint])

end ImageLabeling.Logging
