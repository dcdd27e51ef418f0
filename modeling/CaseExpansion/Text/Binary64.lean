import CaseExpansion.Text.Bytes

namespace CaseExpansion

/-!
# Binary floating-point numbers

Numbers with a fraction are kept as the nearest number of the form
`mantissa * 2 ^ exponent` with a mantissa below `2 ^ 53`; halfway cases go to
the even mantissa.  All arithmetic is exact arithmetic on natural numbers.
They are written with the fewest digits that read back as the same number, or
with a given number of digits.
-/

structure Binary64 where
  negative : Bool
  mantissa : Nat
  exponent : Int
deriving DecidableEq, Repr

namespace Binary64

/-- The quotient rounded to the nearest whole number; halves go to the even
neighbour. -/
def roundDiv (numerator denominator : Nat) : Nat :=
  let quotient := numerator / denominator
  let rest := 2 * (numerator % denominator)
  if rest > denominator || (rest = denominator && quotient % 2 = 1) then quotient + 1 else quotient

/-- The nonnegative ratio times a power of a base, as a ratio. -/
def scale (base : Nat) (power : Int) (ratio : Nat × Nat) : Nat × Nat :=
  match power with
  | .ofNat power => (ratio.1 * Nat.pow base power, ratio.2)
  | .negSucc power => (ratio.1, ratio.2 * Nat.pow base (power + 1))

def isBelow (ratio : Nat × Nat) (bound : Nat) : Bool :=
  ratio.1 < bound * ratio.2

/-- The nearest number to a ratio, unless that is too large. -/
def ofRatio? (negative : Bool) (ratio : Nat × Nat) : Option Binary64 :=
  if ratio.1 = 0 then some ⟨negative, 0, 0⟩
  else
    let guess : Int := (ratio.1.log2 : Int) - ratio.2.log2 - 52
    let fits (exponent : Int) : Bool := isBelow (scale 2 (-exponent) ratio) (Nat.pow 2 53)
    let exponent := if fits (guess - 1) then guess - 1 else if fits guess then guess else guess + 1
    let exponent := max exponent (-1074)
    let scaled := scale 2 (-exponent) ratio
    let mantissa := roundDiv scaled.1 scaled.2
    let (mantissa, exponent) :=
      if mantissa = Nat.pow 2 53 then (Nat.pow 2 52, exponent + 1) else (mantissa, exponent)
    if exponent > 971 then none else some ⟨negative, mantissa, exponent⟩

def ratio (number : Binary64) : Nat × Nat :=
  scale 2 number.exponent (number.mantissa, 1)

def isZero (number : Binary64) : Bool :=
  number.mantissa = 0

/-- The sign and size as one fraction, for comparisons. -/
def signedNumerator (number : Binary64) : Int :=
  let numerator : Int := number.ratio.1
  if number.negative then -numerator else numerator

def lt (left right : Binary64) : Bool :=
  left.signedNumerator * right.ratio.2 < right.signedNumerator * left.ratio.2

def same (left right : Binary64) : Bool :=
  left.signedNumerator * right.ratio.2 == right.signedNumerator * left.ratio.2

/-- Digits with the place of the point: `0.digits * 10 ^ point`. -/
structure Digits where
  digits : List Char
  point : Int

/-- The place of the point of a positive ratio: the number of digits before it,
or minus the number of zeros after it. -/
def pointOf (ratio : Nat × Nat) : Int :=
  let guess : Int := (Nat.toDigits 10 ratio.1).length - (Nat.toDigits 10 ratio.2).length
  if isBelow (scale 10 (-guess) ratio) 1 then guess else guess + 1

def digitsOf (ratio : Nat × Nat) (count : Nat) : Digits :=
  let point := pointOf ratio
  let scaled := scale 10 (count - point) ratio
  let value := roundDiv scaled.1 scaled.2
  let digits := Nat.toDigits 10 value
  ⟨digits, point + (digits.length - count : Int)⟩

/-- The value of digits, as a ratio. -/
def Digits.ratio (digits : Digits) : Nat × Nat :=
  let value := digits.digits.foldl (fun value digit => value * 10 + (digit.toNat - 48)) 0
  scale 10 (digits.point - digits.digits.length) (value, 1)

def Digits.trim (digits : Digits) : Digits :=
  { digits with digits := (digits.digits.reverse.dropWhile (· == '0')).reverse }

def shortest (number : Binary64) : Digits :=
  if number.isZero then ⟨[], 0⟩
  else
    let candidates := (List.range 17).map fun index => digitsOf number.ratio (index + 1)
    let readsBack (digits : Digits) : Bool := ofRatio? number.negative digits.ratio == some number
    ((candidates.find? readsBack).getD (digitsOf number.ratio 17)).trim

def sign (number : Binary64) : Bytes :=
  if number.negative then "-" else []

/-- Digits with exactly one before the point, and an exponent. -/
def scientific (digits : Digits) : Bytes :=
  let exponent : Int := if digits.digits.isEmpty then 0 else digits.point - 1
  let first := digits.digits.head?.getD '0'
  let fraction : Bytes :=
    if digits.digits.length ≤ 1 then [] else byte '.' :: digits.digits.tail.map byte
  let size := exponent.natAbs
  byte first :: fraction ++ byte 'e' :: byte (if exponent < 0 then '-' else '+')
    :: (if size < 10 then byte '0' :: Bytes.decimal size else Bytes.decimal size)

def positional (digits : Digits) : Bytes :=
  let digitBytes := digits.digits.map byte
  match digits.point with
  | .ofNat (count + 1) =>
    let whole := digitBytes.take (count + 1)
    let padding := List.replicate (count + 1 - whole.length) (byte '0')
    let fraction := digitBytes.drop (count + 1)
    whole ++ padding ++ (if fraction.isEmpty then [] else byte '.' :: fraction)
  | point =>
    let zeros := List.replicate point.natAbs (byte '0')
    if digitBytes.isEmpty then "0" else "0." ++ zeros ++ digitBytes

/-- The number in general form: positional for exponents from -4 to 5, and
scientific otherwise. -/
def render (number : Binary64) : Bytes :=
  let digits := number.shortest
  let exponent := digits.point - 1
  number.sign
    ++ if !digits.digits.isEmpty && (exponent < -4 || exponent ≥ 6) then scientific digits
      else positional digits

def renderFixed (number : Binary64) (places : Nat) : Bytes :=
  let scaled := scale 10 places number.ratio
  let digits := (Nat.toDigits 10 (roundDiv scaled.1 scaled.2)).map byte
  let digits := List.replicate (places + 1 - digits.length) (byte '0') ++ digits
  let whole := digits.take (digits.length - places)
  number.sign ++ whole ++ if places = 0 then [] else byte '.' :: digits.drop (digits.length - places)

def renderScientific (number : Binary64) (places : Nat) : Bytes :=
  let digits : Digits :=
    if number.isZero then ⟨List.replicate (places + 1) '0', 1⟩
    else digitsOf number.ratio (places + 1)
  number.sign ++ scientific { digits with digits := digits.digits.take (places + 1) }

end Binary64
end CaseExpansion
