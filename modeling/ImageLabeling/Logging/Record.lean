import ImageLabeling.Event

/-!
# Spans and notices

What log lines are made of: notices, each with a level, the target it comes from, a message and
fields, and the spans of work that were entered around them.
-/

namespace ImageLabeling.Logging

/-- The value of a field in a log line. -/
inductive FieldValue
  | text (value : String)
  | number (value : Nat)
  deriving DecidableEq, Repr

/-- A span of work that events happen in. -/
structure Span where
  severity : Severity
  target : String
  name : String
  fields : List (String × FieldValue)
  deriving DecidableEq, Repr

/-- An event with its target and fields. -/
structure Notice where
  severity : Severity
  target : String
  message : String
  fields : List (String × FieldValue)
  deriving DecidableEq, Repr

/-- The names of the fields of a notice; its message is one of them. -/
def Notice.fieldNames (notice : Notice) : List String :=
  "message" :: notice.fields.map Prod.fst

end ImageLabeling.Logging
