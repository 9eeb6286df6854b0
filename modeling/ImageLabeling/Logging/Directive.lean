import ImageLabeling.Failure
import ImageLabeling.Logging.Record
import ImageLabeling.Number.Literal
import ImageLabeling.Text.Pattern.Reader

/-!
# Log directives

A directive says from which level on events are written. It can hold for a target, and it can hold
inside the spans with a name, with a field, or with a value of a field:
`target[span{field=value}]=level`, where each part but one may be left out.

`Directive.read` reads the written form. Its parts are found in the text without the blanks around
it, but cut out of the whole text at the places where they were found.
-/

namespace ImageLabeling.Logging

/-- What the value of a field has to be. -/
inductive ValueTest
  | truth (value : Bool)
  | integer (value : Int)
  /-- A fraction, which no value of a field is. -/
  | fraction (written : String)
  | text (written : String) (pattern : Text.Pattern)
  deriving DecidableEq, Repr

namespace ValueTest

/-- Whether a value passes. -/
def accepts : ValueTest → FieldValue → Bool
  | truth _, _ => false
  | integer n, .number value => n == Int.ofNat value
  | integer _, .text _ => false
  | fraction _, _ => false
  | text _ pattern, .text value => pattern.matchesWhole value
  | text _ _, .number _ => false

/-- Reads a test: a truth value, a number or a pattern. -/
def read? (written : String) : Option ValueTest :=
  let cs := written.toList
  if written = "true" then some (.truth true)
  else if written = "false" then some (.truth false)
  else
    match Number.readUnsigned 64 cs, Number.readSigned 64 cs, Number.readSingle cs with
    | .ok n, _, _ => some (.integer n)
    | _, .ok n, _ => some (.integer n)
    | _, _, .ok _ => some (.fraction written)
    | _, _, _ => (Text.Pattern.read? written).map (.text written)

end ValueTest

/-- A field that a span has to have, and what its value has to be. -/
structure FieldTest where
  name : String
  value : Option ValueTest
  deriving DecidableEq, Repr

/-- Reads a field with the value after its first equals sign, up to the next one. -/
def FieldTest.read? (written : String) : Option FieldTest :=
  match written.toList.splitOn '=' with
  | [] | [[]] => none
  | [name] => some ⟨String.ofList name, none⟩
  | name :: value :: _ =>
    (ValueTest.read? (String.ofList value)).map fun test => ⟨String.ofList name, some test⟩

/-- The rank above all levels, which turns everything off. -/
def offRank : Nat := 6

/-- One directive: from the rank `rank` on, events are written whose target begins with `target`,
or that happen inside the spans with the name `span` and the field `field`. -/
structure Directive where
  target : Option String
  span : Option String
  field : Option FieldTest
  rank : Nat
  deriving DecidableEq, Repr

namespace Directive

/-! ## What a directive holds for -/

/-- Whether a target is among those of a directive. -/
def coversTarget (d : Directive) (target : String) : Bool :=
  d.target.all fun start => start.toList.isPrefixOf target.toList

/-- Whether a directive holds outside of spans, for events with its field if it names one. -/
def isBroad (d : Directive) : Bool :=
  d.span.isNone && d.field.all (·.value.isNone)

/-- Whether a directive holds inside of spans. -/
def isScoped (d : Directive) : Bool :=
  d.span.isSome || d.field.isSome

/-- Whether a directive asks for the value of a field. -/
def asksValue (d : Directive) : Bool :=
  d.field.any (·.value.isSome)

/-- Whether a span has the target, the name and the field of a directive. -/
def fits (d : Directive) (span : Span) : Bool :=
  d.coversTarget span.target && d.span.all (· == span.name) &&
    d.field.all fun test => (span.fields.lookup test.name).isSome

/-- Whether the value of the field of a span is the one that a directive asks for. -/
def admits (d : Directive) (span : Span) : Bool :=
  d.field.all fun test =>
    test.value.all fun value => (span.fields.lookup test.name).any value.accepts

/-! ## The written form -/

/-- The rank of a level number: zero for none, five for all. -/
def rankOfNumber? (text : List Char) : Option Nat :=
  match Number.readUnsigned 64 text with
  | .ok n => if n ≤ 5 then some (offRank - n) else none
  | .error _ => none

/-- The rank of a level name, whatever its case. -/
def rankOfName? (text : List Char) : Option Nat :=
  let word := String.ofList (text.map Char.toLower)
  if word = "off" then some offRank
  else if word = "error" then some Severity.error.rank
  else if word = "warn" then some Severity.warn.rank
  else if word = "info" then some Severity.info.rank
  else if word = "debug" then some Severity.debug.rank
  else if word = "trace" then some Severity.trace.rank
  else none

/-- The rank of a level number or level name. -/
def rank? (text : List Char) : Option Nat :=
  rankOfNumber? text <|> rankOfName? text

/-- The rank of the text after an equals sign; nothing stands for all levels. -/
def levelRank? (text : String) : Option Nat :=
  if text = "" then some Severity.trace.rank else rank? text.toList

/-- A reading that finds no directive, or crashes. -/
abbrev Reading := OptionT (Except Crash)

/-- A result that may be missing. -/
def found {α : Type} (a : Option α) : Reading α :=
  OptionT.mk (.ok a)

/-- The number of bytes of characters. -/
def size (cs : List Char) : Nat :=
  (String.ofList cs).utf8ByteSize

/-- Whether a character of a text begins at a place, or the text ends there. -/
def isBoundary (bytes : List UInt8) (place : Nat) : Bool :=
  match bytes.drop place with
  | [] => true
  | b :: _ => b < 0x80 || 0xc0 ≤ b

/-- The text between two places, which must not lie inside a character. -/
def cut (bytes : List UInt8) (start stop : Nat) : Reading String :=
  OptionT.mk <|
    if isBoundary bytes start ∧ isBoundary bytes stop then
      .ok (some (Utf8.lossy ((bytes.take stop).drop start)))
    else .error .splitCharacter

/-- Reads the level of a directive, from the place after its target or span on. -/
def readLevel (bytes : List UInt8) (place : Nat) : List Char → Reading Nat
  | [] => pure Severity.trace.rank
  | '=' :: _ => do found (levelRank? (← cut bytes (place + 1) bytes.length))
  | _ => failure

/-- Reads the span and the level of a directive, from the place after the bracket on. -/
def readSpan (bytes : List UInt8) (target : Option String) (place : Nat) (cs : List Char) :
    Reading Directive := do
  let name := cs.takeWhile fun c => c ≠ ']' ∧ c ≠ '\x7b'
  let stop := place + size name
  match cs.drop name.length with
  | [] => failure
  | ']' :: rest =>
    let span ← cut bytes place stop
    pure ⟨target, some span, none, ← readLevel bytes (stop + 1) rest⟩
  | _ :: rest =>
    let span ← cut bytes place stop
    let field := rest.takeWhile (· ≠ '\x7d')
    match rest.drop field.length with
    | [] => failure
    | _ :: rest =>
      let fieldStop := stop + 1 + size field
      let test ← found (FieldTest.read? (← cut bytes (stop + 1) fieldStop))
      match rest with
      | ']' :: rest =>
        pure ⟨target, if span = "" then none else some span, some test,
          ← readLevel bytes (fieldStop + 2) rest⟩
      | _ => failure

/-- Whether a directive may begin with a character. -/
def mayBegin (c : Char) : Bool :=
  c == '-' || c == ':' || c == '_' || Text.isAlphanumeric c

/-- Reads a directive. A level alone holds for all targets. -/
def read (text : String) : Reading Directive := do
  let bytes := Utf8.encode text
  match Text.trimChars text.toList with
  | [] => failure
  | '[' :: rest => readSpan bytes none 1 rest
  | first :: others =>
    let head := first :: others.takeWhile fun c => c ≠ '=' ∧ c ≠ '['
    let stop := size head
    if mayBegin first = false then failure
    else
      match others.drop (head.length - 1) with
      | [] =>
        match rank? text.toList with
        | some rank => pure ⟨none, none, none, rank⟩
        | none => pure ⟨some text, none, none, Severity.trace.rank⟩
      | '[' :: rest => readSpan bytes (some (← cut bytes 0 stop)) (stop + 1) rest
      | rest =>
        let target ← cut bytes 0 stop
        pure ⟨some target, none, none, ← readLevel bytes stop rest⟩

end Directive

end ImageLabeling.Logging
