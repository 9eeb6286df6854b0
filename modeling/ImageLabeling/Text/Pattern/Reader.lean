import ImageLabeling.Text.Alphanumeric
import ImageLabeling.Text.Blank
import ImageLabeling.Text.Pattern

/-!
# The written form of patterns

A character stands for itself, a point for any character but a line feed, a list in square
brackets for one of its characters. Parentheses group, a bar separates the branches of a choice,
and `?`, `*` and `+` repeat what stands before them, reluctantly with a question mark after them.
A circumflex and a dollar sign stand for the two ends of the text. A backslash takes the meaning
from a sign and gives one to some letters. A group can begin with switches for how the rest of it is
read, and a group of switches alone holds up to the end of the group around it.

`Pattern.read?` reads the written form. Counted repetitions in braces, looking around, going back to
a group, and classes and cases of characters beyond ASCII are refused, and so is what is nested too
deep.
-/

namespace ImageLabeling.Text

namespace Pattern

/-- How a written pattern is read. -/
structure Switches where
  ignoreCase : Bool := false
  multiLine : Bool := false
  /-- Whether a point stands for a line feed too. -/
  pointIsAny : Bool := false
  /-- Whether repetitions are reluctant unless a question mark follows them. -/
  swapped : Bool := false
  /-- Whether characters are more than ASCII. -/
  wide : Bool := true
  /-- Whether a carriage return ends a line. -/
  returns : Bool := false
  /-- Whether blanks and comments are skipped. -/
  spaced : Bool := false
  deriving DecidableEq, Repr

namespace Switches

/-- Turns the switch with a letter on or off. -/
def set? (s : Switches) (letter : Char) (on : Bool) : Option Switches :=
  match letter with
  | 'i' => some { s with ignoreCase := on }
  | 'm' => some { s with multiLine := on }
  | 's' => some { s with pointIsAny := on }
  | 'U' => some { s with swapped := on }
  | 'u' => some { s with wide := on }
  | 'R' => some { s with returns := on }
  | 'x' => some { s with spaced := on }
  | _ => none

/-- Skips blanks and comments; `comment` tells whether the text begins inside a comment. -/
def skipFrom (comment : Bool) : List Char → List Char
  | [] => []
  | c :: rest =>
    if comment then skipFrom (c != '\n') rest
    else if isBlank c then skipFrom false rest
    else if c = '#' then skipFrom true rest
    else c :: rest

/-- Skips blanks and comments if they do not count. -/
def skip (s : Switches) (cs : List Char) : List Char :=
  if s.spaced then skipFrom false cs else cs

theorem length_skipFrom_le (comment : Bool) (cs : List Char) :
    (skipFrom comment cs).length ≤ cs.length := by
  induction cs generalizing comment with
  | nil => exact Nat.le_refl _
  | cons c rest ih =>
    unfold skipFrom
    split
    · exact Nat.le_succ_of_le (ih _)
    · split
      · exact Nat.le_succ_of_le (ih _)
      · split
        · exact Nat.le_succ_of_le (ih _)
        · exact Nat.le_refl _

theorem length_skip_le (s : Switches) (cs : List Char) : (s.skip cs).length ≤ cs.length := by
  unfold skip
  split
  · exact length_skipFrom_le false cs
  · exact Nat.le_refl _

/-- A set of characters with other cases where case is ignored. -/
def fold (s : Switches) (set : CharSet) : CharSet :=
  if s.ignoreCase then .anyCase set else set

/-- Whether a repetition prefers one more round. -/
def isEager (s : Switches) (reluctant : Bool) : Bool :=
  reluctant == s.swapped

/-- The pattern of a character; `byte` tells whether it was written as a byte. -/
def literal? (s : Switches) (c : Char) (byte : Bool) : Option Pattern :=
  if s.wide then if s.ignoreCase then none else some (.one (.single c))
  else if byte && 0x80 ≤ c.toNat then none
  else some (.one (s.fold (.single c)))

/-- The pattern of a point. -/
def point? (s : Switches) : Option Pattern :=
  if s.wide = false then none
  else if s.pointIsAny then some (.one (.compl .empty))
  else if s.returns then some (.one (.compl (.union (.single '\r') (.single '\n'))))
  else some (.one (.compl (.single '\n')))

/-- The condition of a circumflex. -/
def startLook (s : Switches) : Look :=
  if s.multiLine then if s.returns then .anyLineStart else .lineStart else .textStart

/-- The condition of a dollar sign. -/
def endLook (s : Switches) : Look :=
  if s.multiLine then if s.returns then .anyLineEnd else .lineEnd else .textEnd

/-- Reads switches up to the colon or parenthesis that ends them: the switches, whether none was
read, the end, and what follows it. A minus sign turns those after it off, and no sign is given
twice. -/
def read? (s : Switches) (on : Bool) (given : List Char) :
    List Char → Option (Switches × Bool × Char × List Char)
  | [] => none
  | c :: rest =>
    if c = ':' ∨ c = ')' then
      if given.head? = some '-' then none else some (s, given.isEmpty, c, rest)
    else if c ∈ given then none
    else if c = '-' then read? s false (c :: given) rest
    else
      match s.set? c on with
      | none => none
      | some s => read? s on (c :: given) rest

end Switches

/-! ## Nesting -/

/-- Something that has been read, and how deep its parts are nested. -/
structure Nested (α : Type) where
  value : α
  depth : Nat := 0

/-- What has been read, one level deeper. -/
def Nested.deeper {α β : Type} (f : α → β) (a : Nested α) : Nested β :=
  ⟨f a.value, a.depth + 1⟩

/-- What is made of several things together, one level deeper unless it is made of one alone. -/
def Nested.combine {α β : Type} (f : List α → β) (parts : List (Nested α)) : Nested β where
  value := f (parts.map (·.value))
  depth :=
    match parts with
    | [] => 0
    | [part] => part.depth
    | parts => (parts.map (·.depth)).foldl max 0 + 1

/-- How deep the parts of a pattern may be nested. -/
def depthLimit : Nat := 250

/-! ## Sets and escapes -/

/-- The ASCII digits. -/
def digitSet : CharSet :=
  .range '0' '9'

/-- The ASCII letters. -/
def letterSet : CharSet :=
  .union (.range 'a' 'z') (.range 'A' 'Z')

/-- The ASCII letters, digits and the underscore. -/
def wordSet : CharSet :=
  .unions [letterSet, digitSet, .single '_']

/-- The blank ASCII characters. -/
def spaceSet : CharSet :=
  .union (.range '\t' '\r') (.single ' ')

/-- The set with a name between colons. -/
def namedSet? (name : String) : Option CharSet :=
  match name with
  | "alnum" => some (.union letterSet digitSet)
  | "alpha" => some letterSet
  | "ascii" => some (.range '\x00' '\x7f')
  | "blank" => some (.union (.single '\t') (.single ' '))
  | "cntrl" => some (.union (.range '\x00' '\x1f') (.single '\x7f'))
  | "digit" => some digitSet
  | "graph" => some (.range '!' '~')
  | "lower" => some (.range 'a' 'z')
  | "print" => some (.range ' ' '~')
  | "punct" =>
    some (.unions [.range '!' '/', .range ':' '@', .range '[' '\x60', .range '\x7b' '~'])
  | "space" => some spaceSet
  | "upper" => some (.range 'A' 'Z')
  | "word" => some wordSet
  | "xdigit" => some (.unions [digitSet, .range 'A' 'F', .range 'a' 'f'])
  | _ => none

/-- What an escape stands for. -/
inductive Escape
  | char (c : Char) (byte : Bool)
  | set (set : CharSet)
  | look (look : Look)

/-- The value of a hexadecimal digit. -/
def hexDigit? (c : Char) : Option Nat :=
  if c.isDigit then some (c.toNat - 48)
  else if 'a' ≤ c ∧ c ≤ 'f' then some (c.toNat - 87)
  else if 'A' ≤ c ∧ c ≤ 'F' then some (c.toNat - 55)
  else none

/-- Reads a number of hexadecimal digits after the value `n` so far. -/
def readHex (s : Switches) : Nat → Nat → List Char → Option (Nat × List Char)
  | 0, n, cs => some (n, s.skip cs)
  | count + 1, n, cs =>
    match s.skip cs with
    | [] => none
    | c :: rest => (hexDigit? c).bind fun d => readHex s count (16 * n + d) rest

/-- Reads a character written by so many hexadecimal digits. -/
def readCode (s : Switches) (count : Nat) (cs : List Char) : Option (Escape × List Char) :=
  match readHex s count 0 cs with
  | none => none
  | some (n, rest) =>
    if n.isValidChar then some (.char (Char.ofNat n) (count == 2), rest) else none

/-- Whether a backslash may take the meaning from a character that is no letter or digit. -/
def isSign (c : Char) : Bool :=
  c.toNat < 0x80 && !c.isAlphanum && c != '<' && c != '>'

/-- What a letter or sign after a backslash stands for by itself. -/
def escape? (s : Switches) (c : Char) : Option Escape :=
  if isSign c then some (.char c false)
  else
    match c with
    | 'a' => some (.char '\x07' false)
    | 'f' => some (.char '\x0c' false)
    | 't' => some (.char '\t' false)
    | 'n' => some (.char '\n' false)
    | 'r' => some (.char '\r' false)
    | 'v' => some (.char '\x0b' false)
    | 'A' => some (.look .textStart)
    | 'z' => some (.look .textEnd)
    | 'b' => narrow (.look .wordBoundary)
    | 'B' => narrow (.look .noWordBoundary)
    | '<' => narrow (.look .wordStart)
    | '>' => narrow (.look .wordEnd)
    | 'd' => narrow (.set digitSet)
    | 's' => narrow (.set spaceSet)
    | 'w' => narrow (.set wordSet)
    | _ => none
where
  /-- An escape about classes of characters, which are those of ASCII. -/
  narrow (e : Escape) : Option Escape :=
    if s.wide then none else some e

/-- Reads what follows a backslash. -/
def readEscape (s : Switches) : List Char → Option (Escape × List Char)
  | [] => none
  | 'x' :: rest => readCode s 2 rest
  | 'u' :: rest => readCode s 4 rest
  | 'U' :: rest => readCode s 8 rest
  | c :: rest => (escape? s c).map fun e => (e, rest)

/-! ## Sets in brackets -/

/-- Reads one item of a bracketed set: a character or an escape. -/
def readItem (s : Switches) : List Char → Option (Escape × List Char)
  | [] => none
  | '\\' :: rest => readEscape s rest
  | c :: rest => some (.char c false, rest)

/-- The character of an item, if it is one; without wide characters it is an ASCII one. -/
def itemChar? (s : Switches) : Escape → Option Char
  | .char c _ => if s.wide ∨ c.toNat < 0x80 then some c else none
  | _ => none

/-- The set of an item, if it is a character or a set. -/
def itemSet? (s : Switches) : Escape → Option CharSet
  | .set set => some set
  | e => (itemChar? s e).map .single

/-- Reads one item or a range between two. -/
def readRange (s : Switches) (cs : List Char) : Option (CharSet × List Char) := do
  let (low, rest) ← readItem s cs
  let single := (itemSet? s low).map fun set => (set, s.skip rest)
  match s.skip rest with
  | [] => none
  | '-' :: after =>
    match s.skip after with
    | [] => none
    | next :: more =>
      if next = ']' ∨ next = '-' then single
      else
        let (high, rest) ← readItem s (next :: more)
        let low ← itemChar? s low
        let high ← itemChar? s high
        if low ≤ high then some (.range low high, rest) else none
  | _ => single

/-- Reads a set named between colons, after its opening bracket. -/
def readNamed (cs : List Char) : Option (Bool × CharSet × List Char) :=
  match cs with
  | ':' :: rest =>
    let (negated, rest) :=
      match rest with
      | '^' :: rest => (true, rest)
      | rest => (false, rest)
    match rest.dropWhile (· ≠ ':') with
    | ':' :: ']' :: after =>
      (namedSet? (String.ofList (rest.takeWhile (· ≠ ':')))).map fun set => (negated, set, after)
    | _ => none
  | _ => none

/-- How two sets in brackets are combined. -/
inductive SetOperator
  | inter
  | diff
  | symmDiff
  deriving DecidableEq, Repr

/-- The combination of two sets. -/
def SetOperator.apply : SetOperator → CharSet → CharSet → CharSet
  | inter => .inter
  | diff => .diff
  | symmDiff => .symmDiff

/-- The operator that two equal signs in a row stand for. -/
def operator? : List Char → Option (SetOperator × List Char)
  | '&' :: '&' :: rest => some (.inter, rest)
  | '-' :: '-' :: rest => some (.diff, rest)
  | '~' :: '~' :: rest => some (.symmDiff, rest)
  | _ => none

/-- A set read so far: what stands before the last operator, and what has been read after it. -/
structure PartialSet where
  before : Option (SetOperator × Nested CharSet) := none
  items : List (Nested CharSet) := []

namespace PartialSet

/-- Adds an item. -/
def add (p : PartialSet) (set : Nested CharSet) : PartialSet :=
  { p with items := p.items ++ [set] }

/-- Adds a character. -/
def addChar (p : PartialSet) (c : Char) : PartialSet :=
  p.add ⟨.single c, 0⟩

/-- The set of all that has been read. -/
def total (p : PartialSet) (s : Switches) : Nested CharSet :=
  let items := Nested.combine CharSet.unions p.items
  match p.before with
  | none => items
  | some (operator, set) =>
    ⟨operator.apply (s.fold set.value) (s.fold items.value), max set.depth items.depth + 1⟩

/-- Goes on after an operator. -/
def continueWith (p : PartialSet) (s : Switches) (operator : SetOperator) : PartialSet :=
  { before := some (operator, p.total s) }

end PartialSet

/-- The complement of a set if asked for, which only wide characters have. -/
def negate? (s : Switches) (negated : Bool) (set : CharSet) : Option CharSet :=
  if negated then if s.wide then some (.compl set) else none else some set

/-- Reads the dashes that a set may begin with. -/
def readDashes (s : Switches) (p : PartialSet) : List Char → PartialSet × List Char
  | '-' :: rest => readDashes s (p.addChar '-') (s.skip rest)
  | rest => (p, rest)
termination_by cs => cs.length
decreasing_by exact Nat.lt_succ_of_le (s.length_skip_le rest)

/-- Reads the beginning of a set after its bracket: whether it is negated, and the dashes or the
closing bracket that stand for themselves there. -/
def readSetStart (s : Switches) (cs : List Char) : Bool × PartialSet × List Char :=
  let (negated, cs) :=
    match s.skip cs with
    | '^' :: rest => (true, s.skip rest)
    | rest => (false, rest)
  match cs with
  | ']' :: rest => (negated, PartialSet.addChar {} ']', s.skip rest)
  | _ => (negated, readDashes s {} cs)

/-- Reads a set up to its closing bracket, with at most `fuel` items. -/
def readSet (s : Switches) (negated : Bool) (p : PartialSet) :
    Nat → List Char → Option (Nested CharSet × List Char)
  | 0, _ => none
  | fuel + 1, cs =>
    match s.skip cs with
    | [] => none
    | ']' :: rest => do
      let total := p.total s
      let set ← negate? s negated (s.fold total.value)
      some (⟨set, total.depth + 1⟩, rest)
    | '[' :: rest =>
      match readNamed rest with
      | some (negated', set, rest) => do
        let set ← negate? s negated' (s.fold set)
        readSet s negated (p.add ⟨set, 0⟩) fuel rest
      | none => do
        let (negated', inner, rest) := readSetStart s rest
        let (set, rest) ← readSet s negated' inner fuel rest
        readSet s negated (p.add set) fuel rest
    | c :: rest =>
      match operator? (c :: rest) with
      | some (operator, rest) => readSet s negated (p.continueWith s operator) fuel rest
      | none => do
        let (set, rest) ← readRange s (c :: rest)
        readSet s negated (p.add ⟨set, 0⟩) fuel rest

/-- Reads a set after its opening bracket. Cases of wide characters are not known. -/
def readBrackets (s : Switches) (cs : List Char) : Option (Nested Pattern × List Char) :=
  if s.wide ∧ s.ignoreCase then none
  else
    let (negated, p, rest) := readSetStart s cs
    (readSet s negated p (rest.length + 1) rest).map fun (set, rest) =>
      (⟨.one set.value, set.depth⟩, rest)

/-! ## Groups -/

/-- What stands at the beginning of a group. -/
inductive Opening
  /-- A group that is read with switches. -/
  | group (switches : Switches) (name : Option (List Char))
  /-- Switches alone, up to the end of the group around them. -/
  | switches (switches : Switches)

/-- Reads the name of a group up to the angle bracket after it. -/
def readName (s : Switches) (cs : List Char) : Option (Opening × List Char) :=
  let name := cs.takeWhile (· ≠ '>')
  let mayBegin (c : Char) : Bool := c == '_' || isAlphabetic c
  let mayFollow (c : Char) : Bool :=
    c == '_' || c == '.' || c == '[' || c == ']' || isAlphanumeric c
  match cs.drop name.length with
  | [] => none
  | _ :: rest =>
    if name.head?.any mayBegin ∧ name.tail.all mayFollow then some (.group s (some name), rest)
    else none

/-- Reads what follows an opening parenthesis. -/
def readOpening (s : Switches) (cs : List Char) : Option (Opening × List Char) :=
  match s.skip cs with
  | '?' :: '=' :: _ | '?' :: '!' :: _ | '?' :: '<' :: '=' :: _ | '?' :: '<' :: '!' :: _ => none
  | '?' :: 'P' :: '<' :: rest => readName s rest
  | '?' :: '<' :: rest => readName s rest
  | '?' :: rest =>
    match s.read? true [] rest with
    | none => none
    | some (inner, bare, last, rest) =>
      if last = ':' then some (.group inner none, rest)
      else if bare then none
      else some (.switches inner, rest)
  | rest => some (.group s none, rest)

/-! ## Whole patterns -/

/-- What has been read of a group: its finished branches and the parts of the last one, the latest
first, and the names given to groups so far. A part that is missing cannot be repeated. -/
structure Progress where
  branches : List (Nested Pattern) := []
  parts : List (Nested (Option Pattern)) := []
  names : List (List Char) := []

namespace Progress

/-- Adds a part. -/
def add (p : Progress) (part : Nested (Option Pattern)) : Progress :=
  { p with parts := part :: p.parts }

/-- The branch that the parts make. -/
def branch (p : Progress) : Nested Pattern :=
  .combine (fun parts => sequence (parts.filterMap id)) p.parts.reverse

/-- Begins the next branch. -/
def nextBranch (p : Progress) : Progress :=
  { p with branches := p.branch :: p.branches, parts := [] }

/-- The pattern of all that has been read. -/
def pattern (p : Progress) : Nested Pattern :=
  .combine choice p.nextBranch.branches.reverse

/-- Repeats the last part. -/
def again? (p : Progress) (f : Pattern → Pattern) : Option Progress :=
  match p.parts with
  | ⟨some part, depth⟩ :: rest => some { p with parts := ⟨some (f part), depth + 1⟩ :: rest }
  | _ => none

/-- Begins a group; no two groups have the same name. -/
def enter? (p : Progress) : Option (List Char) → Option Progress
  | none => some { names := p.names }
  | some name => if name ∈ p.names then none else some { names := name :: p.names }

/-- Adds a finished group. -/
def leave (p inner : Progress) : Progress :=
  { p.add (inner.pattern.deeper some) with names := inner.names }

end Progress

/-- The pattern of what stands after a backslash. -/
def escapePattern? (s : Switches) : Escape → Option Pattern
  | .char c byte => s.literal? c byte
  | .set set => some (.one set)
  | .look l => some (look l)

/-- The repetition that a sign stands for. -/
def repetition? (sign : Char) (eager : Bool) : Option (Pattern → Pattern) :=
  match sign with
  | '?' => some (optional eager)
  | '*' => some (anyTimes eager)
  | '+' => some (repeated eager)
  | _ => none

/-- Reads one part that is neither a group nor a repetition. -/
def readPart (s : Switches) : List Char → Option (Nested Pattern × List Char)
  | [] => none
  | '[' :: rest => readBrackets s rest
  | '\\' :: rest => do
    let (e, rest) ← readEscape s rest
    simple (← escapePattern? s e) rest
  | '.' :: rest => do simple (← s.point?) rest
  | '^' :: rest => simple (look s.startLook) rest
  | '$' :: rest => simple (look s.endLook) rest
  | c :: rest => if c = '\x7b' then none else do simple (← s.literal? c false) rest
where
  /-- A part without parts of its own. -/
  simple (p : Pattern) (rest : List Char) : Option (Nested Pattern × List Char) :=
    some (⟨p, 0⟩, rest)

/-- Reads a group, or the whole text, in at most `fuel` parts. -/
def readGroup (grouped : Bool) (s : Switches) (p : Progress) :
    Nat → List Char → Option (Progress × List Char)
  | 0, _ => none
  | fuel + 1, cs =>
    match s.skip cs with
    | [] => if grouped then none else some (p, [])
    | ')' :: rest => if grouped then some (p, rest) else none
    | '|' :: rest => readGroup grouped s p.nextBranch fuel rest
    | '(' :: rest =>
      match readOpening s rest with
      | none => none
      | some (.switches s, rest) => readGroup grouped s (p.add ⟨none, 0⟩) fuel rest
      | some (.group inner name, rest) => do
        let start ← p.enter? name
        let (body, rest) ← readGroup true inner start fuel rest
        readGroup grouped s (p.leave body) fuel rest
    | c :: rest =>
      let (reluctant, after) :=
        match rest with
        | '?' :: after => (true, after)
        | _ => (false, rest)
      match repetition? c (s.isEager reluctant) with
      | some f => do
        let p ← p.again? f
        readGroup grouped s p fuel after
      | none => do
        let (part, rest) ← readPart s (c :: rest)
        readGroup grouped s (p.add ⟨some part.value, part.depth⟩) fuel rest

/-- Reads a pattern. -/
def read? (text : String) : Option Pattern := do
  let (p, _) ← readGroup false {} {} (text.length + 1) text.toList
  let whole := p.pattern
  if whole.depth ≤ depthLimit then some whole.value else none

end Pattern

end ImageLabeling.Text
