import ImageLabeling.Logging.Directive

/-!
# Log filters

A filter is a list of directives separated by commas. An event is written if the most specific
directive for its target says so, or a span around it: inside a span, the least level of all
directives for the span counts. Of two directives that hold for the same, the later counts.

Spans are filtered like events. A span that a directive names is kept whatever its level, unless no
directive goes as far down as the level of the span.
-/

namespace ImageLabeling.Logging

/-- Directives in the order they were written. -/
structure Filter where
  directives : List Directive
  deriving DecidableEq, Repr

namespace Filter

/-- Reads a filter; empty directives are skipped. -/
def read (text : String) : Directive.Reading Filter :=
  let parts := (text.toList.splitOn ',').filter (· ≠ [])
  Filter.mk <$> parts.mapM fun part => Directive.read (String.ofList part)

/-- The filter used unless a readable one is given. -/
def default : Filter := ⟨[⟨none, none, none, Severity.info.rank⟩]⟩

/-- The filter of a variable. -/
def ofVariable (value : Option String) : Except Crash Filter :=
  match value with
  | none => .ok default
  | some text => (read text).run.map (·.getD default)

/-! ## Outside of spans -/

/-- How long the target of a directive is; no target comes before an empty one. -/
def targetSize (d : Directive) : Nat :=
  match d.target with
  | none => 0
  | some start => start.length + 1

/-- Whether the field of a directive comes after that of another or is the same one; no field comes
first. -/
def fieldAfter (d other : Directive) : Bool :=
  match d.field, other.field with
  | _, none => true
  | none, some _ => false
  | some new, some old => decide (old.name ≤ new.name)

/-- Whether a directive is at least as specific as another for the same target. -/
def atLeast (d other : Directive) : Bool :=
  targetSize other < targetSize d || (targetSize other == targetSize d && fieldAfter d other)

/-- The more specific of two directives, the second one if they are equally specific. -/
def better (best : Option Directive) (d : Directive) : Option Directive :=
  if best.all (atLeast d) then some d else best

/-- Whether the most specific of some directives lets a rank pass. -/
def decides (directives : List Directive) (rank : Nat) : Bool :=
  (directives.foldl better none).any (·.rank ≤ rank)

/-- Whether a notice is written wherever it happens. -/
def allowsAnywhere (f : Filter) (notice : Notice) : Bool :=
  let applies (d : Directive) : Bool :=
    d.isBroad && d.coversTarget notice.target &&
      d.field.all fun test => test.name ∈ notice.fieldNames
  decides (f.directives.filter applies) notice.severity.rank

/-! ## Inside of spans -/

/-- Drops each directive that a later one with the same target, span and field replaces. -/
def dropReplaced : List Directive → List Directive
  | [] => []
  | d :: rest =>
    let same (other : Directive) : Bool :=
      d.target == other.target && d.span == other.span && d.field == other.field
    if rest.any same then dropReplaced rest else d :: dropReplaced rest

/-- The directives that hold inside of spans. -/
def spanDirectives (f : Filter) : List Directive :=
  dropReplaced (f.directives.filter (·.isScoped))

/-- The rank from which on events inside a span are written because of it: the least of those
directives that ask for no value or for the one the span has. There is none unless some directive
fits the span. -/
def spanRank? (f : Filter) (span : Span) : Option Nat :=
  let fitting := f.spanDirectives.filter (·.fits span)
  if fitting = [] then none
  else some ((fitting.filter (·.admits span)).foldl (fun rank d => min rank d.rank) offRank)

/-- The rank below which no span is kept: the least of all directives, and the least level if some
directive asks for a value. -/
def floor (f : Filter) : Nat :=
  if f.spanDirectives.any (·.asksValue) then Severity.trace.rank
  else f.directives.foldl (fun rank d => min rank d.rank) offRank

/-- The spans that have been kept so far, and the ranks that they let pass. -/
structure Scope where
  spans : List Span := []
  ranks : List Nat := []
  deriving DecidableEq, Repr

/-- Whether the spans around let a rank pass. -/
def Scope.allows (scope : Scope) (rank : Nat) : Bool :=
  scope.ranks.any (· ≤ rank)

/-- Whether a span is kept inside others. -/
def keeps (f : Filter) (scope : Scope) (span : Span) : Bool :=
  let rank := span.severity.rank
  f.floor ≤ rank &&
    ((f.spanRank? span).isSome ||
      decides (f.directives.filter fun d => d.isBroad && d.coversTarget span.target) rank ||
      scope.allows rank)

/-- Enters a span. -/
def enter (f : Filter) (scope : Scope) (span : Span) : Scope :=
  if f.keeps scope span then
    ⟨scope.spans ++ [span], scope.ranks ++ (f.spanRank? span).toList⟩
  else scope

/-- Enters spans, the outermost first. -/
def enterAll (f : Filter) (spans : List Span) : Scope :=
  spans.foldl f.enter {}

/-- Whether a notice is written inside the spans of a scope. -/
def allows (f : Filter) (scope : Scope) (notice : Notice) : Bool :=
  f.allowsAnywhere notice || scope.allows notice.severity.rank

end Filter

end ImageLabeling.Logging
