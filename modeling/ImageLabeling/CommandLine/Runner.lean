import ImageLabeling.CommandLine.Classify
import ImageLabeling.CommandLine.Parse

/-!
# The two runners

The program has two runners with flags of their own: one labels the pixels of images, the other
classifies images. A command line without faults is answered with the plan of the run it asks for:
the networks, the images and the files that the run would write. `reply` gives the answer to a
command line, whether it has faults or not.
-/

namespace ImageLabeling.CommandLine

/-- A runner. -/
inductive Runner
  | parse
  | classify
  deriving DecidableEq, Repr

namespace Runner

/-- The name of a runner. -/
def name : Runner → String
  | parse => "parse"
  | classify => "classify"

/-- The runner with a name. -/
def ofName? (text : String) : Option Runner :=
  [parse, classify].find? fun runner => runner.name == text

/-- The version that a runner reports. -/
def versionText (runner : Runner) : String :=
  s!"{runner.name} 0.1.0"

/-- How the flags of a runner are shown. -/
def flagTexts : Runner → List String
  | parse => ParseSettings.flags.map Flag.display
  | classify => ClassifySettings.flags.map Flag.display

/-- The environment variables that a runner reads. -/
def variableNames : Runner → List String
  | parse => "ENVIRONMENT" :: ParseSettings.flags.filterMap Flag.variableName
  | classify => "ENVIRONMENT" :: ClassifySettings.flags.filterMap Flag.variableName

end Runner

/-- One line of a plan. -/
def planLine (subject text : String) : String :=
  s!"{subject}: {text}"

/-- A value in a plan, or what is wrong with it. -/
def planText {α : Type} (text : α → String) : Except Failure α → String
  | .ok a => text a
  | .error failure => failure.message

/-- A source of images in a plan. -/
def sourceText : Source → String
  | .single path => path.display
  | .list path root => s!"listed in {path} below {root}"
  | .directory path none => s!"all in {path}"
  | .directory path (some n) => s!"the first {n} in {path}"

namespace ParseSettings

/-- What a parsing run with these settings uses and writes. -/
def plan (s : ParseSettings) : List String :=
  [planLine "network" (planText FilePath.display s.modelPath),
    planLine "device" s.device.name,
    planLine "images" (planText sourceText s.source),
    planLine "scales" (", ".intercalate (s.scales.map scaleText)),
    planLine "results" s.outputDirectory.display]

end ParseSettings

namespace ClassifySettings

/-- What a classification run with these settings uses and writes. -/
def plan (s : ClassifySettings) : List String :=
  let (models, warnings) := Classifier.resolve s.models
  warnings.map Event.message ++
    [planLine "device" s.device.name, planLine "images" (sourceText s.source)] ++
    models.flatMap fun model =>
      [planLine "network" (model.modelPath s.modelDirectory).display,
        planLine "timing log" (s.timingLog model.selector).display]

end ClassifySettings

/-- The answer to a command line: lines for the user, and the exit status. -/
structure Reply where
  lines : List String
  status : Nat
  deriving DecidableEq, Repr

namespace Runner

/-- The plan of a command line. -/
def plan (runner : Runner) (arguments : List String) (environment : String → Option String) :
    Except UsageFault (List String) :=
  match runner with
  | parse => (ParseSettings.read arguments environment).map ParseSettings.plan
  | classify => (ClassifySettings.read arguments environment).map ClassifySettings.plan

/-- The answer of a runner to its arguments. -/
def reply (runner : Runner) (arguments : List String) (environment : String → Option String) :
    Reply :=
  match runner.plan arguments environment with
  | .ok lines => ⟨lines, 0⟩
  | .error .help => ⟨s!"Usage: {runner.name} [OPTIONS]" :: runner.flagTexts, 0⟩
  | .error .version => ⟨[runner.versionText], 0⟩
  | .error fault => ⟨[fault.message], 2⟩

end Runner

/-- The answer to a whole command line, whose first argument names the runner. -/
def reply (arguments : List String) (environment : String → Option String) : Reply :=
  match arguments with
  | [] => ⟨["error: a runner is required: parse or classify"], 2⟩
  | first :: rest =>
    match Runner.ofName? first with
    | none => ⟨[s!"error: unknown runner '{first}'"], 2⟩
    | some runner => runner.reply rest environment

end ImageLabeling.CommandLine
