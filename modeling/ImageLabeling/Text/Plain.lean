import ImageLabeling.Text.Utf8

/-!
# Plain text

A text for a terminal may hold escape sequences, which set colors, move the cursor or name the
window, and control characters. `plain` is the text without them: tabs, line ends and form feeds
stay, and so does every character beyond ASCII.

The reader goes byte by byte. An escape sequence that does not end swallows what follows it, up to
the next escape, the next byte beyond ASCII that continues a character, or, in the short kinds of
sequences, the next blank control character.
-/

namespace ImageLabeling.Text

/-- What the bytes just read belong to. -/
inductive EscapeState
  /-- No escape sequence. -/
  | text
  /-- The escape that begins a sequence. -/
  | introduced
  /-- A sequence with bytes between its escape and its last byte. -/
  | intermediate
  /-- A control sequence with parameters. -/
  | control
  /-- A command to the window system, which a bell ends too. -/
  | command
  /-- Any other string for the terminal. -/
  | string
  deriving DecidableEq, Repr

namespace EscapeState

/-- Whether a byte continues a character that began before it. -/
def isContinuation (b : UInt8) : Bool :=
  0x80 ≤ b && b < 0xc0

/-- Whether a byte is a tab, a line end or a form feed. -/
def isLayout (b : UInt8) : Bool :=
  b == 0x09 || b == 0x0a || b == 0x0c || b == 0x0d

/-- Whether a byte is shown. -/
def shows (state : EscapeState) (b : UInt8) : Bool :=
  isContinuation b ||
    match state with
    | text => isLayout b || (0x20 ≤ b && b ≠ 0x7f)
    | introduced | intermediate | control => isLayout b
    | command | string => false

/-- The state after a byte that is not shown. -/
def next (state : EscapeState) (b : UInt8) : EscapeState :=
  if b = 0x18 ∨ b = 0x1a then text
  else if b = 0x1b then introduced
  else
    match state with
    | text => text
    | introduced =>
      if 0x20 ≤ b ∧ b ≤ 0x2f then intermediate
      else if b = 0x5b then control
      else if b = 0x5d then command
      else if b = 0x50 ∨ b = 0x58 ∨ b = 0x5e ∨ b = 0x5f then string
      else if 0x30 ≤ b ∧ b ≤ 0x7e then text
      else introduced
    | intermediate => if 0x30 ≤ b ∧ b ≤ 0x7e then text else intermediate
    | control => if 0x40 ≤ b ∧ b ≤ 0x7e then text else control
    | command => if b = 0x07 then text else command
    | string => string

/-- The bytes that are shown, read from a state on. -/
def shown (state : EscapeState) : List UInt8 → List UInt8
  | [] => []
  | b :: rest => if state.shows b then b :: shown text rest else shown (state.next b) rest

end EscapeState

/-- A text without escape sequences and control characters. -/
def plain (text : String) : String :=
  Utf8.lossy (EscapeState.shown .text (Utf8.encode text))

end ImageLabeling.Text
