import CaseExpansion.Source.Lexeme.Basic

namespace CaseExpansion
namespace Source

open Text (Glyph)

/-!
# Numbers

Integer, floating-point and imaginary literals.  The reader takes the longest
run that could belong to a number and reports what is wrong with it, so that a
misspelled number is one lexeme with a fault, not several lexemes.
-/

namespace NumberScan

def isDecimal (char : Char) : Bool :=
  '0' ≤ char && char ≤ '9'

def isHexadecimal (char : Char) : Bool :=
  isDecimal char || ('a' ≤ char && char ≤ 'f') || ('A' ≤ char && char ≤ 'F')

/-- A letter in lower case; other characters are left alone. -/
def lowered (char : Char) : Char :=
  if 'A' ≤ char && char ≤ 'Z' then Char.ofNat (char.toNat + 32) else char

structure Run where
  digits : Bool := false
  separators : Bool := false
  /-- The first digit that is too large for the radix. -/
  invalid? : Option Glyph := none

/-- The run, extended by what another one held. -/
def Run.join (first second : Run) : Run where
  digits := first.digits || second.digits
  separators := first.separators || second.separators
  invalid? := first.invalid?.or second.invalid?

/-- Takes digits and separators.  Every decimal digit is taken, even in a radix
that lacks it; the letters only in hexadecimal. -/
def takeDigits (radix : Radix) (run : Run) : List Glyph → List Fault → Run × Reader
  | [], faults => (run, ⟨[], faults⟩)
  | glyph :: ahead, faults =>
    let char := glyph.char
    if char = '_' then
      takeDigits radix { run with separators := true } ahead (Reader.arrive ahead faults)
    else if isDecimal char || (radix = .hexadecimal && isHexadecimal char) then
      let tooLarge := radix ≠ .hexadecimal && char.toNat - 48 ≥ radix.base
      let run : Run :=
        { run with
          digits := true
          invalid? := if tooLarge then run.invalid?.or (some glyph) else run.invalid? }
      takeDigits radix run ahead (Reader.arrive ahead faults)
    else (run, ⟨glyph :: ahead, faults⟩)

/-- The classes of characters that matter for the place of a separator. -/
inductive Mark where
  | digit | separator | other
deriving DecidableEq

/-- The index of the first separator that does not stand between two digits.
`previous` is the class of the character before. -/
def misplacedFrom (hexadecimal : Bool) (previous : Mark) (index : Nat) : List Char → Option Nat
  | [] => if previous = .separator then some (index - 1) else none
  | char :: rest =>
    if char = '_' then
      if previous ≠ .digit then some index
      else misplacedFrom hexadecimal .separator (index + 1) rest
    else if isDecimal char || (hexadecimal && isHexadecimal char) then
      misplacedFrom hexadecimal .digit (index + 1) rest
    else if previous = .separator then some (index - 1)
    else misplacedFrom hexadecimal .other (index + 1) rest

/-- The index of the first misplaced separator of a literal.  The letter that
announces a radix counts as a digit. -/
def misplacedSeparator? (literal : List Char) : Option Nat :=
  match literal with
  | '0' :: letter :: rest =>
    match lowered letter with
    | 'x' => misplacedFrom true .digit 2 rest
    | 'o' | 'b' => misplacedFrom false .digit 2 rest
    | _ => misplacedFrom false .other 0 literal
  | _ => misplacedFrom false .other 0 literal

inductive Announced where
  | nothing | zero | letter
deriving DecidableEq

/-- Reads the announcement of a radix: a zero, possibly with a letter. -/
def readRadix (reader : Reader) : Radix × Announced × Run × Reader :=
  if reader.isAt '0' then
    let reader := reader.advance
    match reader.char?.map lowered with
    | some 'x' => (.hexadecimal, .letter, {}, reader.advance)
    | some 'o' => (.octal, .letter, {}, reader.advance)
    | some 'b' => (.binary, .letter, {}, reader.advance)
    | _ => (.octal, .zero, { digits := true }, reader)
  else (.decimal, .nothing, {}, reader)

/-- Reads the exponent, if there is one.  The result tells whether there was. -/
def readExponent (size : Nat) (radix : Radix) (announced : Announced) (token : Token) (run : Run)
    (reader : Reader) : Token × Run × Reader :=
  match reader.char? with
  | some letter =>
    let kind := lowered letter
    if kind = 'e' || kind = 'p' then
      let here := reader.offset size
      let reader :=
        if kind = 'e' && announced = .letter then reader.report here (.exponentNeedsDecimal letter)
        else if kind = 'p' && !(radix = .hexadecimal) then
          reader.report here (.exponentNeedsHexadecimal letter)
        else reader
      let reader := reader.advance
      let reader := if reader.isAt '+' || reader.isAt '-' then reader.advance else reader
      let (digits, reader) := takeDigits .decimal {} reader.ahead reader.faults
      let reader :=
        if digits.digits then reader else reader.report (reader.offset size) .noExponentDigits
      (.float, run.join digits, reader)
    else if radix = .hexadecimal && token = .float then
      (token, run, reader.report (reader.offset size) .hexadecimalNeedsExponent)
    else (token, run, reader)
  | none =>
    if radix = .hexadecimal && token = .float then
      (token, run, reader.report (reader.offset size) .hexadecimalNeedsExponent)
    else (token, run, reader)

def read (size : Nat) (start : Reader) : Token × Reader :=
  let begins := start.offset size
  let (radix, announced, run, reader) :=
    if start.isAt '.' then (.decimal, .nothing, {}, start) else readRadix start
  let (run, reader) :=
    if start.isAt '.' then (run, reader)
    else takeDigits radix run reader.ahead reader.faults
  let (token, run, reader) :=
    if reader.isAt '.' then
      let reader :=
        if announced = .letter && radix ≠ .hexadecimal then
          reader.report (reader.offset size) (.radixPoint radix)
        else reader
      let reader := reader.advance
      let (run, reader) := takeDigits radix run reader.ahead reader.faults
      (Token.float, run, reader)
    else (Token.int, run, reader)
  let reader :=
    if run.digits then reader else reader.report (reader.offset size) (.noDigits radix)
  let (token, run, reader) := readExponent size radix announced token run reader
  let (token, reader) := if reader.isAt 'i' then (Token.imag, reader.advance) else (token, reader)
  let reader :=
    match token, run.invalid? with
    | .int, some glyph => reader.report glyph.offset (.invalidDigit glyph.char radix)
    | _, _ => reader
  let literal := Reader.between start reader
  let reader :=
    match run.separators, misplacedSeparator? (Text.Utf8.chars literal) with
    | true, some index => reader.report (begins + index) .digitSeparator
    | _, _ => reader
  (token, reader)

end NumberScan
end Source
end CaseExpansion
