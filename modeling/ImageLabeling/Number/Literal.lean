import ImageLabeling.Number.Decimal

/-!
# Reading numbers

Readers for whole numbers and for decimal fractions. A whole number is an optional sign and
decimal digits (`readUnsigned`, `readSigned`); the first digit that makes it too large ends the
reading. A fraction has digits on at least one side of an optional point and an optional exponent,
or is one of the words for infinity and not-a-number (`readSingle`); its value is rounded once.
-/

namespace ImageLabeling.Number

/-- Why a text is no whole number. -/
inductive WholeFault
  | empty
  | invalidDigit
  | tooLarge
  | tooSmall
  deriving DecidableEq, Repr

/-- The wording of a fault in a whole number. -/
def WholeFault.message : WholeFault → String
  | .empty => "cannot parse integer from empty string"
  | .invalidDigit => "invalid digit found in string"
  | .tooLarge => "number too large to fit in target type"
  | .tooSmall => "number too small to fit in target type"

/-- The value of an ASCII decimal digit. -/
def digit? (c : Char) : Option Nat :=
  if '0' ≤ c ∧ c ≤ '9' then some (c.toNat - 48) else none

/-- Reads digits after the value `n` so far; a value above `limit` is the fault `excess`. -/
def readDigits (limit : Nat) (excess : WholeFault) (n : Nat) : List Char → Except WholeFault Nat
  | [] => .ok n
  | c :: rest =>
    match digit? c with
    | none => .error .invalidDigit
    | some d =>
      if 10 * n + d ≤ limit then readDigits limit excess (10 * n + d) rest else .error excess

/-- Reads a natural number below `2 ^ bits`, with an optional plus sign. -/
def readUnsigned (bits : Nat) : List Char → Except WholeFault Nat
  | [] => .error .empty
  | ['+'] => .error .invalidDigit
  | '+' :: digits => readDigits (2 ^ bits - 1) .tooLarge 0 digits
  | digits => readDigits (2 ^ bits - 1) .tooLarge 0 digits

/-- Reads an integer that fits in `bits` bits in two's complement, with an optional sign. -/
def readSigned (bits : Nat) : List Char → Except WholeFault Int
  | [] => .error .empty
  | ['+'] | ['-'] => .error .invalidDigit
  | '+' :: digits => Int.ofNat <$> readDigits (2 ^ (bits - 1) - 1) .tooLarge 0 digits
  | '-' :: digits => (fun n => -Int.ofNat n) <$> readDigits (2 ^ (bits - 1)) .tooSmall 0 digits
  | digits => Int.ofNat <$> readDigits (2 ^ (bits - 1) - 1) .tooLarge 0 digits

/-! ## Fractions -/

/-- Why a text is no decimal fraction. -/
inductive FractionFault
  | empty
  | invalid
  deriving DecidableEq, Repr

/-- The wording of a fault in a decimal fraction. -/
def FractionFault.message : FractionFault → String
  | .empty => "cannot parse float from empty string"
  | .invalid => "invalid float literal"

/-- The number written by decimal digits. -/
def ofDigits (digits : List Char) : Nat :=
  digits.foldl (fun n c => 10 * n + (digit? c).getD 0) 0

/-- Splits off the leading decimal digits. -/
def spanDigits (cs : List Char) : List Char × List Char :=
  (cs.takeWhile fun c => (digit? c).isSome, cs.dropWhile fun c => (digit? c).isSome)

/-- Reads an exponent part to the end of the text; no exponent part means zero. -/
def readExponent : List Char → Option Int
  | [] => some 0
  | e :: rest =>
    if e = 'e' ∨ e = 'E' then
      let (negative, digits) :=
        match rest with
        | '-' :: digits => (true, digits)
        | '+' :: digits => (false, digits)
        | digits => (false, digits)
      if digits ≠ [] ∧ digits.all (fun c => (digit? c).isSome) then
        some (if negative then -Int.ofNat (ofDigits digits) else Int.ofNat (ofDigits digits))
      else none
    else none

/-- Reads an unsigned decimal fraction as `digits · 10 ^ exponent`. -/
def readFraction (cs : List Char) : Option (Nat × Int) :=
  let (whole, rest) := spanDigits cs
  let (part, rest) :=
    match rest with
    | '.' :: rest => spanDigits rest
    | rest => ([], rest)
  if whole = [] ∧ part = [] then none
  else (readExponent rest).map fun e => (ofDigits (whole ++ part), e - part.length)

/-- The single-precision number nearest to `± digits · 10 ^ exponent`. Beyond a thousand the
decimal magnitude alone decides. -/
def singleOfDecimal (negative : Bool) (digits : Nat) (exponent : Int) : Float32 :=
  let magnitude := exponent + (toString digits).length
  if digits = 0 ∨ magnitude < -1000 then singleOfQuotient negative 0 1
  else if 1000 < magnitude then singleOfQuotient negative (2 ^ 200) 1
  else
    let (n, d) := scale digits 10 exponent
    singleOfQuotient negative n d

/-- Reads a single-precision number. -/
def readSingle (cs : List Char) : Except FractionFault Float32 :=
  let (negative, body) :=
    match cs with
    | '-' :: body => (true, body)
    | '+' :: body => (false, body)
    | body => (false, body)
  let word := String.ofList (body.map Char.toLower)
  if cs = [] then .error .empty
  else if word = "inf" ∨ word = "infinity" then
    .ok (Float32.ofBits (if negative then 0xff800000 else 0x7f800000))
  else if word = "nan" then .ok (Float32.ofBits 0x7fc00000)
  else
    match readFraction body with
    | some (digits, exponent) => .ok (singleOfDecimal negative digits exponent)
    | none => .error .invalid

end ImageLabeling.Number
