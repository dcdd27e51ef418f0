import CaseExpansion.Pattern.Item
import CaseExpansion.Text.Binary64

namespace CaseExpansion
namespace Pattern

/-!
# Number constants

A number in an action is a whole number if it reads as one, and a floating-point
number if it has a point or an exponent.  A constant with an imaginary part is a
complex number.  A letter between single quotation marks is its code point.
-/

inductive NumberConstant where
  | int (value : Int)
  /-- A whole number that needs more than 63 bits. -/
  | large
  | real (value : Binary64)
  | complex (real imaginary : Binary64)
deriving DecidableEq, Repr

inductive NumberError where
  | literal
  | longCharacter (text : Bytes)
  | overflow (text : Bytes)
  | illegal (text : Bytes)
  | complex
deriving DecidableEq, Repr

namespace NumberError

def message : NumberError → Bytes
  | literal => "invalid syntax"
  | longCharacter text => "malformed character constant: " ++ text
  | overflow text => "integer overflow: " ++ Text.Quoted.encode text
  | illegal text => "illegal number syntax: " ++ Text.Quoted.encode text
  | complex => "syntax error scanning complex number"

end NumberError

namespace NumberConstant

def splitSign (text : List Char) : Bool × List Char :=
  match text with
  | '-' :: rest => (true, rest)
  | '+' :: rest => (false, rest)
  | text => (false, text)

def splitBase : List Char → Nat × List Char
  | '0' :: 'x' :: rest | '0' :: 'X' :: rest => (16, rest)
  | '0' :: 'o' :: rest | '0' :: 'O' :: rest => (8, rest)
  | '0' :: 'b' :: rest | '0' :: 'B' :: rest => (2, rest)
  | '0' :: second :: rest => (8, second :: rest)
  | digits => (10, digits)

/-- Whether separators stand only between digits, or between the mark of a base
and a digit. -/
def separatorsFit (text : List Char) : Bool :=
  let digits := (splitSign text).2
  let (marked, digits) := match digits with
    | '0' :: mark :: rest =>
      if ['b', 'B', 'o', 'O', 'x', 'X'].contains mark then (true, rest) else (false, digits)
    | digits => (false, digits)
  let isHex := marked && ((splitSign text).2.drop 1).head?.any fun mark => mark == 'x' || mark == 'X'
  let isDigit (char : Char) : Bool :=
    ('0' ≤ char && char ≤ '9') || (isHex && (Text.Quoted.hexValue? char).isSome)
  let rec check (afterDigit afterSeparator : Bool) : List Char → Bool
    | [] => !afterSeparator
    | char :: rest =>
      if isDigit char then check true false rest
      else if char == '_' then afterDigit && check false true rest
      else !afterSeparator && check false false rest
  check marked false digits

def digitsValue? (base : Nat) (digits : List Char) : Option Nat :=
  let digits := digits.filter (· != '_')
  if digits.isEmpty then none
  else digits.foldl (fun value? digit => do
    let value ← value?
    let digit ← Text.Quoted.hexValue? digit
    if digit < base then some (value * base + digit) else none) (some 0)

def whole? (text : List Char) : Option Int := do
  let (negative, unsigned) := splitSign text
  let (base, digits) := splitBase unsigned
  if text.contains '_' && !separatorsFit text then none
  let value ← digitsValue? base digits
  return if negative then -value else value

/-- The value of a number with a fraction or an exponent. -/
def real? (text : List Char) : Option Binary64 := do
  if text.contains '_' && !separatorsFit text then none
  let (negative, unsigned) := splitSign (text.filter (· != '_'))
  let (base, body) := match unsigned with
    | '0' :: 'x' :: rest | '0' :: 'X' :: rest => (16, rest)
    | body => (10, body)
  let isMark (char : Char) : Bool :=
    if base = 16 then char == 'p' || char == 'P' else char == 'e' || char == 'E'
  let mantissa := body.takeWhile fun char => !isMark char
  let exponentText := (body.dropWhile fun char => !isMark char).drop 1
  let hasExponent := body.any isMark
  let whole := mantissa.takeWhile (· != '.')
  let fraction := (mantissa.dropWhile (· != '.')).drop 1
  let value ← digitsValue? base (whole ++ fraction)
  let exponent : Int ←
    if hasExponent then
      let (negative, digits) := splitSign exponentText
      let size ← digitsValue? 10 digits
      pure (if negative then -(min size 100000 : Nat) else (min size 100000 : Nat))
    else if base = 16 then none
    else pure 0
  if base = 16 then
    Binary64.ofRatio? negative (Binary64.scale 2 (exponent - 4 * fraction.length) (value, 1))
  else Binary64.ofRatio? negative (Binary64.scale 10 (exponent - fraction.length) (value, 1))

/-- Whether a text is marked as a number with a fraction or an exponent. -/
def looksReal (text : List Char) : Bool :=
  text.any fun char => ['.', 'e', 'E', 'p', 'P'].contains char

def hasBaseMark (text : List Char) : Bool :=
  match (splitSign text).2 with
  | '0' :: mark :: _ => ['b', 'B', 'o', 'O', 'x', 'X'].contains mark
  | _ => false

def read (text : Bytes) : Except NumberError NumberConstant :=
  let chars := Text.Utf8.chars text
  match whole? chars with
  | some value =>
    if -9223372036854775808 ≤ value ∧ value < 9223372036854775808 then .ok (.int value)
    else if 0 ≤ value ∧ value < 18446744073709551616 ∧ chars.head? ≠ some '+' then .ok .large
    else if hasBaseMark chars then .error (.illegal text)
    else .error (.overflow text)
  | none =>
    match real? chars with
    | some value => if looksReal chars then .ok (.real value) else .error (.overflow text)
    | none => .error (.illegal text)

def zero : Binary64 := ⟨false, 0, 0⟩

/-- Reads a number whose last letter is the imaginary unit. -/
def readImaginary? (text : Bytes) : Option NumberConstant :=
  match (Text.Utf8.chars text).reverse with
  | 'i' :: rest => (real? rest.reverse).map (.complex zero)
  | _ => none

/-- Reads a complex number with both parts.  The sign between the parts is the
last one that does not belong to an exponent. -/
def readComplex (text : Bytes) : Except NumberError NumberConstant :=
  let chars := Text.Utf8.chars text
  let (isNumber, length, _) := NumberShape.scan (0, chars)
  let real := real? (chars.take length)
  let imaginary := real? ((chars.drop length).dropLast)
  match isNumber, real, imaginary with
  | true, some real, some imaginary => .ok (.complex real imaginary)
  | _, _, _ => .error .complex

/-- Reads a character constant.  An escape may give a single byte that is no
character of its own. -/
def readCharacter (text : Bytes) : Except NumberError NumberConstant :=
  match Text.Quoted.decodeChar? '\'' (Text.Utf8.chars text).tail with
  | some (bytes, ['\'']) =>
    match bytes, Text.Utf8.chars bytes with
    | [code], _ => .ok (.int code.toNat)
    | _, [char] => .ok (.int char.toNat)
    | _, _ => .error .literal
  | some _ => .error (.longCharacter text)
  | none => .error .literal

end NumberConstant
end Pattern
end CaseExpansion
