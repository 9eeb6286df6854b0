import ImageLabeling.CommandLine.Runner

/-!
# The command line

Reads the arguments and the environment, prints the reply, and exits with its status. A reply about
a fault goes to the error stream.
-/

open ImageLabeling.CommandLine

/-- The values of the environment variables that some runner reads. -/
def readEnvironment : IO (List (String × Option String)) :=
  (Runner.parse.variableNames ++ Runner.classify.variableNames).mapM fun name => do
    pure (name, ← IO.getEnv name)

/-- Answers the command line. -/
def main (arguments : List String) : IO UInt32 := do
  let values ← readEnvironment
  let answer := reply arguments fun name => (values.lookup name).join
  let stream ← if answer.status = 0 then IO.getStdout else IO.getStderr
  for line in answer.lines do
    stream.putStrLn line
  pure answer.status.toUInt32
