import ImageLabeling.Device
import ImageLabeling.Number.Literal
import ImageLabeling.Text.Lines
import ImageLabeling.Text.Plain

/-!
# Reading command lines

A command line is read from left to right against a list of flags, each with one value. A value
follows its flag as the next argument or after an equals sign; two dashes alone end the flags.
Flags may also take their value from an environment variable. `readCommandLine` gives the settings
or the first fault.

A value given as an argument of its own is taken up only when the next known flag or the end of the
line is reached. So an unknown argument right after it is reported in preference to a fault in the
value.

Arguments and values are quoted in messages. What they hold of escape sequences and control
characters is not shown, and a message ends with its first line.
-/

namespace ImageLabeling.CommandLine

/-- Why a value is refused. -/
inductive ValueFault
  /-- The value must not be empty. -/
  | missing
  | invalid (value reason : String)
  deriving DecidableEq, Repr

/-- A flag with one value that changes settings of type `C`. -/
structure Flag (C : Type) where
  name : String
  aliases : List String := []
  /-- The word for the value in messages. -/
  valueName : String
  /-- Whether the flag may be given more than once. -/
  repeats : Bool := false
  /-- The environment variable that stands in for the flag. -/
  variableName : Option String := none
  accept : String → C → Except ValueFault C

/-- How messages show a flag. -/
def Flag.display {C : Type} (flag : Flag C) : String :=
  s!"--{flag.name} <{flag.valueName}>"

/-- Why a command line has no settings. -/
inductive UsageFault
  | help
  | version
  | unknownArgument (argument : String)
  | missingValue (flag : String)
  | invalidValue (flag value reason : String)
  | repeated (flag : String)
  | unexpectedValue (flag value : String)
  deriving DecidableEq, Repr

namespace UsageFault

/-- A part of a message that stands out on a terminal. -/
def highlighted (text : String) : String :=
  s!"\x1b[1m{text}\x1b[0m"

/-- What is wrong, for a terminal. -/
def cause : UsageFault → String
  | help => ""
  | version => ""
  | unknownArgument argument => s!"unexpected argument '{highlighted argument}' found"
  | missingValue flag =>
    s!"a value is required for '{highlighted flag}' but none was supplied"
  | invalidValue flag value reason =>
    s!"invalid value '{highlighted value}' for '{highlighted flag}': {reason}"
  | repeated flag => s!"the argument '{highlighted flag}' cannot be used multiple times"
  | unexpectedValue flag value =>
    s!"unexpected value '{highlighted value}' for '{highlighted flag}' found; " ++
      "no more were expected"

/-- What a terminal shows about a fault. -/
def terminalText (fault : UsageFault) : String :=
  highlighted "error:" ++ s!" {fault.cause}\n\nFor more information, try '" ++
    highlighted "--help" ++ "'.\n"

/-- The wording of a fault: the first line of what a terminal shows, as plain text. -/
def message (fault : UsageFault) : String :=
  Text.firstLine (Text.plain fault.terminalText)

end UsageFault

variable {C : Type}

/-- What has been read so far: the settings, the flags given, and the last flag while its value is
still to be taken up. -/
structure Reading (C : Type) where
  settings : C
  given : List String := []
  waiting : Option (Flag C × Option String) := none

namespace Reading

/-- Takes up the value of a flag. -/
def accept (r : Reading C) (flag : Flag C) (value : String) : Except UsageFault (Reading C) :=
  if flag.name ∈ r.given ∧ flag.repeats = false then .error (.repeated flag.display)
  else
    match flag.accept value r.settings with
    | .ok settings => .ok ⟨settings, flag.name :: r.given, none⟩
    | .error .missing => .error (.missingValue flag.display)
    | .error (.invalid value reason) => .error (.invalidValue flag.display value reason)

/-- Takes up the value of the last flag, if it is still to be taken up. -/
def settle (r : Reading C) : Except UsageFault (Reading C) :=
  match r.waiting with
  | none => .ok r
  | some (flag, none) => .error (.missingValue flag.display)
  | some (flag, some value) => { r with waiting := none }.accept flag value

/-- Reads an argument that begins with two dashes, given without them. -/
def readLong (flags : List (Flag C)) (r : Reading C) (text : List Char) :
    Except UsageFault (Reading C) := do
  let name := String.ofList (text.takeWhile (· ≠ '='))
  let attached : Option String :=
    match text.dropWhile (· ≠ '=') with
    | [] => none
    | _ :: value => some (String.ofList value)
  if name = "help" ∨ name = "version" then
    match attached with
    | some value => .error (.unexpectedValue s!"--{name}" value)
    | none =>
      let _ ← r.settle
      .error (if name = "help" then .help else .version)
  else
    match flags.find? fun flag => flag.name == name || flag.aliases.contains name with
    | none => .error (.unknownArgument s!"--{name}")
    | some flag =>
      let r ← r.settle
      match attached with
      | some value => r.accept flag value
      | none => .ok { r with waiting := some (flag, none) }

/-- Reads an argument that begins with one dash: only the first letter matters. -/
def readShort (r : Reading C) (letter : Char) : Except UsageFault (Reading C) := do
  if letter = 'h' ∨ letter = 'V' then
    let _ ← r.settle
    .error (if letter = 'h' then .help else .version)
  else .error (.unknownArgument s!"-{letter}")

/-- Reads one argument before the flags have ended. -/
def readArgument (flags : List (Flag C)) (r : Reading C) (argument : String) :
    Except UsageFault (Reading C) :=
  match argument.toList with
  | '-' :: '-' :: text => r.readLong flags text
  | '-' :: letter :: _ => r.readShort letter
  | _ =>
    match r.waiting with
    | some (flag, none) => .ok { r with waiting := some (flag, some argument) }
    | _ => .error (.unknownArgument argument)

/-- Reads the arguments in order. -/
def readArguments (flags : List (Flag C)) (r : Reading C) :
    List String → Except UsageFault (Reading C)
  | [] => r.settle
  | "--" :: [] => r.settle
  | "--" :: argument :: _ => .error (.unknownArgument argument)
  | argument :: rest => do
    let r ← r.readArgument flags argument
    r.readArguments flags rest

/-- Takes up environment variables for the flags that were not given. -/
def readVariables (environment : String → Option String) (r : Reading C) :
    List (Flag C) → Except UsageFault (Reading C)
  | [] => .ok r
  | flag :: rest =>
    match if flag.name ∈ r.given then none else flag.variableName.bind environment with
    | none => r.readVariables environment rest
    | some value => do
      let r ← r.accept flag value
      r.readVariables environment rest

end Reading

/-- Reads a command line and the environment into settings. -/
def readCommandLine (flags : List (Flag C)) (settings : C) (arguments : List String)
    (environment : String → Option String) : Except UsageFault C := do
  let r ← (Reading.mk settings [] none).readArguments flags arguments
  let r ← r.readVariables environment flags
  .ok r.settings

/-! ## Kinds of values -/

/-- A value that any text is. -/
def textValue (set : String → C → C) (value : String) (settings : C) : Except ValueFault C :=
  .ok (set value settings)

/-- A path, which is not empty. -/
def pathValue (set : FilePath → C → C) (value : String) (settings : C) : Except ValueFault C :=
  if value = "" then .error .missing else .ok (set (.ofString value) settings)

/-- An integer of 32 bits. -/
def integerValue (set : Int → C → C) (value : String) (settings : C) : Except ValueFault C :=
  match Number.readSigned 64 value.toList with
  | .error fault => .error (.invalid value fault.message)
  | .ok n =>
    if -2 ^ 31 ≤ n ∧ n < 2 ^ 31 then .ok (set n settings)
    else .error (.invalid value s!"{value} is not in -2147483648..=2147483647")

/-- A count of 64 bits. -/
def countValue (set : Nat → C → C) (value : String) (settings : C) : Except ValueFault C :=
  match Number.readUnsigned 64 value.toList with
  | .error fault => .error (.invalid value fault.message)
  | .ok n => .ok (set n settings)

/-- The name of a device. -/
def deviceValue (set : Device → C → C) (value : String) (settings : C) : Except ValueFault C :=
  match Device.ofName value with
  | .error word => .error (.invalid value (Device.unknownText word))
  | .ok device => .ok (set device settings)

/-- The parts of a value between commas. -/
def commaParts (value : String) : List String :=
  (value.toList.splitOn ',').map String.ofList

/-- Texts separated by commas, added to those given before. -/
def textsValue (add : List String → C → C) (value : String) (settings : C) :
    Except ValueFault C :=
  .ok (add (commaParts value) settings)

/-- Numbers separated by commas, added to those given before. -/
def numbersValue (add : List Float32 → C → C) (value : String) (settings : C) :
    Except ValueFault C := do
  let numbers ← (commaParts value).mapM fun part =>
    (Number.readSingle part.toList).mapError fun fault => .invalid part fault.message
  .ok (add numbers settings)

end ImageLabeling.CommandLine
