/-!
# Patterns

A pattern describes texts: characters of a set, conditions on a place in the text, sequences,
choices and repetitions. A choice prefers its first branch and a repetition prefers one more round,
or none if it is reluctant. `Pattern.ends` lists the places where a pattern can end, the preferred
one first, and a pattern matches a text as a whole when the preferred end is the end of the text:
a worse way that would reach it does not count.
-/

namespace ImageLabeling.Text

/-- A set of characters. -/
inductive CharSet
  | empty
  | range (low high : Char)
  | union (a b : CharSet)
  | inter (a b : CharSet)
  | diff (a b : CharSet)
  | symmDiff (a b : CharSet)
  | compl (a : CharSet)
  /-- The set with the other case of each of its ASCII letters. -/
  | anyCase (a : CharSet)
  deriving DecidableEq, Repr

namespace CharSet

/-- An ASCII letter in its other case; any other character as it is. -/
def swapCase (c : Char) : Char :=
  if c.isUpper then c.toLower else c.toUpper

/-- Whether a character is in a set. -/
def contains : CharSet → Char → Bool
  | empty, _ => false
  | range low high, c => low ≤ c && c ≤ high
  | union a b, c => a.contains c || b.contains c
  | inter a b, c => a.contains c && b.contains c
  | diff a b, c => a.contains c && !b.contains c
  | symmDiff a b, c => a.contains c != b.contains c
  | compl a, c => !a.contains c
  | anyCase a, c => a.contains c || a.contains (swapCase c)

/-- The set of one character. -/
def single (c : Char) : CharSet :=
  range c c

/-- The union of sets. -/
def unions (sets : List CharSet) : CharSet :=
  sets.foldr union empty

end CharSet

/-- A place in a text: the character before it, and what follows. -/
structure Place where
  before : Option Char
  rest : List Char
  deriving DecidableEq, Repr

/-- A condition on a place. -/
inductive Look
  | textStart
  | textEnd
  | lineStart
  | lineEnd
  /-- The start of a line, where a carriage return ends a line too. -/
  | anyLineStart
  /-- The end of a line, where a carriage return ends a line too. -/
  | anyLineEnd
  | wordBoundary
  | noWordBoundary
  | wordStart
  | wordEnd
  deriving DecidableEq, Repr

namespace Look

/-- Whether a character belongs to a word: an ASCII letter, digit or underscore. -/
def isWordChar (c : Char) : Bool :=
  c.isAlphanum || c == '_'

/-- Whether a condition holds at a place. -/
def holds (look : Look) (place : Place) : Bool :=
  let before := place.before
  let after := place.rest.head?
  let wordBefore := before.any isWordChar
  let wordAfter := after.any isWordChar
  match look with
  | textStart => before.isNone
  | textEnd => after.isNone
  | lineStart => before.all (· == '\n')
  | lineEnd => after.all (· == '\n')
  | anyLineStart => before.all (· == '\n') || (before == some '\r' && after != some '\n')
  | anyLineEnd => after.all (· == '\r') || (after == some '\n' && before != some '\r')
  | wordBoundary => wordBefore != wordAfter
  | noWordBoundary => wordBefore == wordAfter
  | wordStart => !wordBefore && wordAfter
  | wordEnd => wordBefore && !wordAfter

end Look

/-- A description of texts. -/
inductive Pattern
  | empty
  /-- One character of a set. -/
  | one (set : CharSet)
  | look (look : Look)
  | both (first second : Pattern)
  | either (first second : Pattern)
  /-- The body or nothing; the body first if `eager` holds. -/
  | optional (eager : Bool) (body : Pattern)
  /-- The body once or more; more first if `eager` holds. -/
  | repeated (eager : Bool) (body : Pattern)
  deriving DecidableEq, Repr

namespace Pattern

/-- The body any number of times. -/
def anyTimes (eager : Bool) (body : Pattern) : Pattern :=
  optional eager (repeated eager body)

/-- Patterns one after the other. -/
def sequence : List Pattern → Pattern
  | [] => empty
  | [p] => p
  | p :: rest => both p (sequence rest)

/-- A choice, the first branch preferred. -/
def choice : List Pattern → Pattern
  | [] => empty
  | [p] => p
  | p :: rest => either p (choice rest)

/-- Adds the ends of `step` repeated once or more from a place to those `found`, preferred ones
first, in at most `rounds` more rounds after the first. A round that consumes nothing is the last
one, and no round begins again where one has begun: it would find nothing new. -/
def roundEnds (eager : Bool) (step : Place → List Place) :
    Nat → List Place → Place → List Place
  | 0, found, place => (found ++ step place).eraseDups
  | rounds + 1, found, place =>
    (step place).foldl (fun found next =>
      if next ∈ found then found
      else if next.rest.length < place.rest.length then
        if eager then (roundEnds eager step rounds found next ++ [next]).eraseDups
        else roundEnds eager step rounds (found ++ [next]) next
      else found ++ [next]) found

/-- The places where a pattern that begins at a place can end, preferred ones first. -/
def ends : Pattern → Place → List Place
  | empty, place => [place]
  | one set, place =>
    match place.rest with
    | [] => []
    | c :: rest => if set.contains c then [⟨some c, rest⟩] else []
  | look l, place => if l.holds place then [place] else []
  | both p q, place => ((p.ends place).flatMap q.ends).eraseDups
  | either p q, place => (p.ends place ++ q.ends place).eraseDups
  | optional eager p, place =>
    (if eager then p.ends place ++ [place] else place :: p.ends place).eraseDups
  | repeated eager p, place => roundEnds eager p.ends place.rest.length [] place

/-- Whether the preferred end of a pattern in a text is the end of the text. -/
def matchesWhole (p : Pattern) (text : String) : Bool :=
  (p.ends ⟨none, text.toList⟩).head?.any (·.rest == [])

end Pattern

end ImageLabeling.Text
