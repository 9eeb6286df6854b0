import ImageLabeling.Text.Blank
import ImageLabeling.Text.Lowercase

/-!
# Deployment environments

A runner is deployed for development or for production, which decides the form of its log lines.
-/

namespace ImageLabeling

/-- What a runner is deployed for. -/
inductive Environment
  | development
  | production
  deriving DecidableEq, Repr

namespace Environment

/-- The name of an environment. -/
def name : Environment → String
  | development => "development"
  | production => "production"

/-- The environment with a long or short name, whatever its case and the blanks around it; an
unknown name is given back in lower case. -/
def ofName (text : String) : Except String Environment :=
  let word := Text.lowercase (Text.trim text)
  if word = "production" ∨ word = "prod" then .ok production
  else if word = "development" ∨ word = "dev" then .ok development
  else .error word

/-- What is said about a name that no environment has. -/
def unknownText (word : String) : String :=
  s!"{word} is not a supported environment. " ++
    "Use either `development` or `production`."

/-- The environment of a variable: development if it is unset or names no environment. -/
def ofVariable (value : Option String) : Environment :=
  match value.map ofName with
  | some (.ok environment) => environment
  | _ => development

end Environment

end ImageLabeling
