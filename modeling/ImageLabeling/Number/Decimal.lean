import ImageLabeling.Number.Binary

/-!
# Decimal texts of floating-point values

Three ways to write an exact binary value: with a fixed number of places (`Value.fixedText`), with
a fixed number of significant digits and an exponent (`Value.scientificText`), and with the fewest
digits that read back as the same single-precision number (`Value.shortestText`). Each works on
exact natural numbers and rounds once.
-/

namespace ImageLabeling.Number

/-- The decimal digits of `n`, padded with zeros on the left to at least `width`. -/
def padDigits (width n : Nat) : String :=
  let digits := toString n
  String.ofList (List.replicate (width - digits.length) '0') ++ digits

/-- `n` hundredths, thousandths, … written with `places` digits after the point. -/
def pointText (places n : Nat) : String :=
  if places = 0 then toString n
  else toString (n / 10 ^ places) ++ "." ++ padDigits places (n % 10 ^ places)

/-- The floor of the decimal logarithm of the quotient `n / d` of positive numbers: the digit
counts leave two candidates. -/
def decimalExponent (n d : Nat) : Int :=
  let e : Int := ((toString n).length : Int) - (toString d).length
  let reaches := if 0 ≤ e then d * 10 ^ e.toNat ≤ n else d ≤ n * 10 ^ (-e).toNat
  if reaches then e else e - 1

/-- `m · b ^ e` as a quotient of natural numbers. -/
def scale (m b : Nat) (e : Int) : Nat × Nat :=
  if 0 ≤ e then (m * b ^ e.toNat, 1) else (m, b ^ (-e).toNat)

/-- The text of a value with `places` digits after the point; the last digit is rounded, an exact
half to the even digit. -/
def Value.fixedText (places : Nat) : Value → String
  | .nan => "NaN"
  | .infinite negative => (if negative then "-" else "") ++ "inf"
  | .finite negative m q =>
    let (n, d) := scale m 2 q
    (if negative then "-" else "") ++ pointText places (roundDiv (n * 10 ^ places) d)

/-- The text of a value with one digit before and `places` digits after the point, and a decimal
exponent after `e`. -/
def Value.scientificText (places : Nat) : Value → String
  | .nan => "NaN"
  | .infinite negative => (if negative then "-" else "") ++ "inf"
  | .finite negative m q =>
    let sign := if negative then "-" else ""
    if m = 0 then sign ++ pointText places 0 ++ "e0" else
      let (n, d) := scale m 2 q
      let e := decimalExponent n d
      let (up, down) := scale 1 10 (places - e)
      let digits := roundDiv (n * up) (d * down)
      let (digits, e) := if digits = 10 ^ (places + 1) then (digits / 10, e + 1) else (digits, e)
      sign ++ pointText places digits ++ "e" ++ toString e

/-! ## The fewest digits -/

/-- The decimal `digits · 10 ^ exponent` written without an exponent. -/
def positionalText (digits : Nat) (exponent : Int) : String :=
  if 0 ≤ exponent then toString (digits * 10 ^ exponent.toNat)
  else pointText (-exponent).toNat digits

/-- The decimal on the grid `10 ^ k` that reads back as the single-precision number
`m · 2 ^ q`, if one does; of two, the nearer, and the upper of two equally near.

A number reads back as `m · 2 ^ q` when it lies between the midpoints to the neighbours, which
belong to it exactly if `m` is even; below a power of two the lower neighbour is half as far. -/
def onGrid? (m : Nat) (q : Int) (k : Int) : Option Nat :=
  let (unit, quarter) := scale 1 10 k
  let (binary, parts) := scale 1 2 (q - 2)
  -- All quantities below are multiples of the same unit.
  let value := 4 * m * binary * quarter
  let below := (if m = 2 ^ 23 then 1 else 2) * binary * quarter
  let above := 2 * binary * quarter
  let step := unit * parts
  let reads (n : Nat) : Bool :=
    0 < n &&
    if m % 2 = 0 then decide (value ≤ n * step + below ∧ n * step ≤ value + above)
    else decide (value < n * step + below ∧ n * step < value + above)
  let low := value / step
  let high := low + 1
  match reads low, reads high with
  | true, true => some (if value - low * step < high * step - value then low else high)
  | true, false => some low
  | false, true => some high
  | false, false => none

/-- The shortest decimal that reads back as the positive single-precision number `m · 2 ^ q`:
the coarsest grid with a hit, down to the nine digits that always suffice. -/
def shortestDecimal (m : Nat) (q : Int) : Nat × Int :=
  let (n, d) := scale m 2 q
  let top := decimalExponent n d + 1
  let grids := (List.range 11).map fun (i : Nat) => top - (i : Int)
  (grids.findSome? fun k => (onGrid? m q k).map (·, k)).getD (0, 0)

/-- The shortest text of a single-precision value that reads back, never with an exponent and
without a point for whole numbers. -/
def Value.shortestText : Value → String
  | .nan => "NaN"
  | .infinite negative => (if negative then "-" else "") ++ "inf"
  | .finite negative m q =>
    let sign := if negative then "-" else ""
    if m = 0 then sign ++ "0" else
      let (digits, k) := shortestDecimal m q
      sign ++ positionalText digits k

end ImageLabeling.Number
