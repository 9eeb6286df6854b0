import ImageLabeling.Number.Rounding

/-!
# Exact values of binary floating-point numbers

A finite `Float32` or `Float` is `± m · 2 ^ q` for a natural `m` and an integer `q`. This module
decodes the bits into that form (`Value.ofSingle`, `Value.ofDouble`), rounds an exact quotient to
the nearest `Float32` (`singleOfQuotient`), and gives the conversions and the total order that the
tensor code uses.
-/

namespace ImageLabeling.Number

-- a power of natural numbers is core's, whatever other instances are in scope
attribute [instance (2000), default_instance 20000] instPowNat

/-- A floating-point value read exactly: a finite one is `± mantissa · 2 ^ exponent`. -/
inductive Value
  | nan
  | infinite (negative : Bool)
  | finite (negative : Bool) (mantissa : Nat) (exponent : Int)
  deriving DecidableEq, Repr

namespace Value

/-- Decodes a bit pattern with `fraction` fraction bits and `width` exponent bits. -/
def ofBits (fraction width bits : Nat) : Value :=
  let mantissa := bits % 2 ^ fraction
  let field := bits / 2 ^ fraction % 2 ^ width
  let negative := bits / 2 ^ (fraction + width) % 2 == 1
  let least : Int := 2 - 2 ^ (width - 1) - fraction
  if field + 1 = 2 ^ width then
    if mantissa = 0 then .infinite negative else .nan
  else if field = 0 then .finite negative mantissa least
  else .finite negative (2 ^ fraction + mantissa) (least + field - 1)

/-- The exact value of a single-precision number. -/
def ofSingle (x : Float32) : Value :=
  ofBits 23 8 x.toBits.toNat

/-- The exact value of a double-precision number. -/
def ofDouble (x : Float) : Value :=
  ofBits 52 11 x.toBits.toNat

end Value

/-- The single-precision number nearest to a size, as sizes fit in 64 bits. -/
def single (n : Nat) : Float32 :=
  n.toUInt64.toFloat32

/-- The double-precision number nearest to a count, as counts fit in 64 bits. -/
def double (n : Nat) : Float :=
  n.toUInt64.toFloat

/-- Negative infinity, below every other number. -/
def lowest : Float32 :=
  Float32.ofBits 0xff800000

/-- The place of a number in the total order of single-precision numbers: negative ones below
positive ones, `-0.0` below `0.0`, and NaN above everything. -/
def orderKey (x : Float32) : Int :=
  let bits := x.toBits.toNat
  if bits < 2 ^ 31 then bits else 2 ^ 31 - 1 - (bits : Int)

/-- The number of binary digits of `n`. -/
def bitLength (n : Nat) : Nat :=
  if n = 0 then 0 else Nat.log2 n + 1

/-- The bits of the nonnegative single-precision number nearest to `n / d`, a half going to the
even neighbour; too large a quotient gives infinity.

The quotient is scaled by the power of two that leaves 24 significant bits, or by the one of the
subnormal numbers if that is coarser, and rounded once. -/
def singleBitsOfQuotient (n d : Nat) : Nat :=
  if n = 0 then 0 else
    let estimate : Int := (bitLength n : Int) - bitLength d
    let exact (e : Int) : Bool :=
      if 0 ≤ e then d * 2 ^ e.toNat ≤ n else d ≤ n * 2 ^ (-e).toNat
    let top : Int := if exact estimate then estimate else estimate - 1
    let unit : Int := max (top - 23) (-149)
    let mantissa :=
      if 0 ≤ unit then roundDiv n (d * 2 ^ unit.toNat) else roundDiv (n * 2 ^ (-unit).toNat) d
    let bits := (unit + 149).toNat * 2 ^ 23 + mantissa
    min bits (255 * 2 ^ 23)

/-- The single-precision number nearest to `± n / d`. -/
def singleOfQuotient (negative : Bool) (n d : Nat) : Float32 :=
  let bits := singleBitsOfQuotient n d
  Float32.ofBits (if negative then bits + 2 ^ 31 else bits).toUInt32

end ImageLabeling.Number
