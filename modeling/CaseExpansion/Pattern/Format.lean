import CaseExpansion.Pattern.Value

namespace CaseExpansion
namespace Pattern

/-!
# Writing values

Values are written by verbs, which a format gives with flags, a width and a
precision.  A verb that does not fit a value is reported in the output itself,
in place of the value.  Lists and records are written element by element with
the same verb.
-/

/-- The flags, width and precision of a verb. -/
structure VerbSpec where
  plus : Bool := false
  minus : Bool := false
  sharp : Bool := false
  space : Bool := false
  zero : Bool := false
  width : Option Nat := none
  precision : Option Nat := none
  asSource : Bool := false
  withNames : Bool := false
  /-- Whether the value is written in the report of a verb that does not fit. -/
  reports : Bool := false

namespace VerbSpec

/-- The flags as a verb reads them.  The plain verb takes two of them for the
form of composite values, and basic values do not see these. -/
def forVerb (spec : VerbSpec) (verb : Char) : VerbSpec :=
  if verb = 'v' then
    { spec with
      asSource := spec.sharp, withNames := spec.sharp || spec.plus, sharp := false, plus := false }
  else spec

/-- Fills a text up to the width, counted in code points. -/
def pad (spec : VerbSpec) (text : Bytes) : Bytes :=
  let missing := spec.width.getD 0 - (Text.Utf8.chars text).length
  if spec.minus then text ++ List.replicate missing (byte ' ')
  else List.replicate missing (byte (if spec.zero then '0' else ' ')) ++ text

/-- The text up to the precision, counted in code points. -/
def truncate (spec : VerbSpec) (text : Bytes) : Bytes :=
  match spec.precision with
  | none => text
  | some count => ((Text.Utf8.glyphs text).take count).flatMap Text.Glyph.bytes

end VerbSpec

/-- Hexadecimal digits of bytes, with a mark and separators as the flags ask. -/
def hexText (spec : VerbSpec) (upper : Bool) (text : Bytes) : Bytes :=
  let text := match spec.precision with
    | some count => text.take count
    | none => text
  let raise (digit : UInt8) : UInt8 := if upper && digit ≥ byte 'a' then digit - 32 else digit
  let mark : Bytes := if upper then "0X" else "0x"
  let digits (code : UInt8) : Bytes := (Text.Quoted.hexDigits 2 code.toNat).map raise
  if spec.space then
    Bytes.joinWith " " (text.map fun code => if spec.sharp then mark ++ digits code else digits code)
  else (if spec.sharp && !text.isEmpty then mark else []) ++ text.flatMap digits

/-- One code point in single quotation marks, without characters outside of
ASCII if so asked. -/
def quoteRune (ascii : Bool) (char : Char) : Bytes :=
  let code := char.toNat
  if ascii && code ≥ 0x80 then
    let digits : Bytes :=
      if code < 0x10000 then "\\u" ++ Text.Quoted.hexDigits 4 code
      else "\\U" ++ Text.Quoted.hexDigits 8 code
    "'" ++ digits ++ "'"
  else Text.Quoted.encodeRune char

def quoteAscii (text : Bytes) : Bytes :=
  let encode (glyph : Text.Glyph) : Bytes :=
    let code := glyph.char.toNat
    if glyph.isMalformed || code < 0x80 then Text.Quoted.encodeGlyph '"' glyph
    else if code < 0x10000 then "\\u" ++ Text.Quoted.hexDigits 4 code
    else "\\U" ++ Text.Quoted.hexDigits 8 code
  "\"" ++ (Text.Utf8.glyphs text).flatMap encode ++ "\""

/-- Whether a text can stand between raw quotation marks. -/
def fitsRaw (text : Bytes) : Bool :=
  (Text.Utf8.glyphs text).all fun glyph =>
    !glyph.isMalformed && glyph.char != '\x60' && glyph.char != '\x7f' && glyph.char != '﻿'
      && (glyph.char.toNat ≥ 0x20 || glyph.char == '\t')

def quoteText (spec : VerbSpec) (text : Bytes) : Bytes :=
  let text := spec.truncate text
  spec.pad
    (if spec.sharp && fitsRaw text then "\x60" ++ text ++ "\x60"
    else if spec.plus then quoteAscii text
    else Text.Quoted.encode text)

/-- A whole number in a base, as the flags ask. -/
def formatInteger (spec : VerbSpec) (base : Nat) (upper : Bool) (mark : Bytes) (value : Int) : Bytes :=
  if spec.precision = some 0 && value = 0 then { spec with zero := false }.pad []
  else
    let sign : Bytes :=
      if value < 0 then "-" else if spec.plus then "+" else if spec.space then " " else []
    let least := match spec.precision with
      | some count => count
      | none => if spec.zero && !spec.minus then spec.width.getD 0 - sign.length else 0
    let digits := (Nat.toDigits base value.natAbs).map fun digit =>
      byte (if upper then digit.toUpper else digit)
    let digits := List.replicate (least - digits.length) (byte '0') ++ digits
    let mark := if mark == ("0" : Bytes) && digits.head? == some (byte '0') then [] else mark
    { spec with zero := false }.pad (sign ++ mark ++ digits)

/-- A floating-point number with a verb, without sign flags. -/
def formatReal (spec : VerbSpec) (verb : Char) (value : Binary64) : Option Bytes :=
  let general : Bytes := match spec.precision with
    | none => value.render
    | some precision =>
      let count := max precision 1
      let digits : Binary64.Digits :=
        if value.isZero then ⟨[], 1⟩ else (Binary64.digitsOf value.ratio count).trim
      let length : Int := digits.digits.length
      let limit : Int := if (count : Int) > length && length ≥ digits.point then length else count
      let exponent := digits.point - 1
      value.sign
        ++ if !value.isZero && (exponent < -4 || exponent ≥ limit) then Binary64.scientific digits
          else Binary64.positional digits
  match verb with
  | 'v' | 'g' => some general
  | 'f' | 'F' => some (value.renderFixed (spec.precision.getD 6))
  | 'e' => some (value.renderScientific (spec.precision.getD 6))
  | 'E' => some ((value.renderScientific (spec.precision.getD 6)).map fun code =>
    if code = byte 'e' then byte 'E' else code)
  | 'G' => some (general.map fun code => if code = byte 'e' then byte 'E' else code)
  | _ => none

/-- A floating-point number as the flags ask. -/
def signedReal (spec : VerbSpec) (verb : Char) (value : Binary64) : Option Bytes :=
  (formatReal spec verb value).map fun text =>
    let sign : Bytes :=
      if value.negative then [] else if spec.plus then "+" else if spec.space then " " else []
    spec.pad (sign ++ text)

/-- A value of a basic type, if the verb fits it. -/
def formatBasic (spec : VerbSpec) (verb : Char) : Value → Option Bytes
  | .bool value =>
    if verb = 't' || verb = 'v' then some (spec.pad (if value then "true" else "false")) else none
  | .integer type value =>
    match verb with
    | 'v' =>
      if spec.asSource && type = .byte then some (formatInteger spec 16 false "0x" value)
      else some (formatInteger spec 10 false [] value)
    | 'd' => some (formatInteger spec 10 false [] value)
    | 'b' => some (formatInteger spec 2 false (if spec.sharp then "0b" else []) value)
    | 'o' => some (formatInteger spec 8 false (if spec.sharp then "0" else []) value)
    | 'O' => some (formatInteger spec 8 false "0o" value)
    | 'x' => some (formatInteger spec 16 false (if spec.sharp then "0x" else []) value)
    | 'X' => some (formatInteger spec 16 true (if spec.sharp then "0X" else []) value)
    | 'c' => some (spec.pad (Bytes.ofChar (charOf value)))
    | 'q' => some (spec.pad (quoteRune spec.plus (charOf value)))
    | 'U' =>
      let digits := (Nat.toDigits 16 value.toNat).map fun digit => byte digit.toUpper
      let least := max 4 (spec.precision.getD 0)
      let shown : Bytes := if spec.sharp then " '" ++ Bytes.ofChar (charOf value) ++ "'" else []
      some ({ spec with zero := false }.pad
        ("U+" ++ List.replicate (least - digits.length) (byte '0') ++ digits ++ shown))
    | _ => none
  | .real value => signedReal spec verb value
  | .complex real imaginary =>
    match signedReal spec verb real, signedReal { spec with plus := true } verb imaginary with
    | some real, some imaginary => some ("(" ++ real ++ imaginary ++ "i)")
    | _, _ => none
  | .text text => formatText text
  | .position position => formatText position.render
  | _ => none
where
  charOf (value : Int) : Char :=
    if value < 0 || value > 0x10FFFF then Text.replacement else
      let char := Char.ofNat value.toNat
      if value ≠ 0 && char.toNat = 0 then Text.replacement else char
  formatText (text : Bytes) : Option Bytes :=
    match verb with
    | 'v' => some (if spec.asSource then quoteText spec text else spec.pad (spec.truncate text))
    | 's' => some (spec.pad (spec.truncate text))
    | 'x' => some (spec.pad (hexText spec false text))
    | 'X' => some (spec.pad (hexText spec true text))
    | 'q' => some (quoteText spec text)
    | _ => none

/-- A basic value, or the report that the verb does not fit it. -/
def formatOrReport (spec : VerbSpec) (verb : Char) (value : Value) : Bytes :=
  (formatBasic spec verb value).getD
    ("%!" ++ Bytes.ofChar verb ++ "(" ++ value.typeName ++ "="
      ++ (formatBasic spec 'v' value).getD [] ++ ")")

/-- The address of a value of a type, if the verb fits addresses. -/
def formatAddress (spec : VerbSpec) (verb : Char) (type : Bytes) (address : Nat) : Option Bytes :=
  let marked (isMarked : Bool) : Bytes :=
    formatInteger spec 16 false (if isMarked then "0x" else []) address
  match verb with
  | 'v' => some (if spec.asSource then "(" ++ type ++ ")(" ++ marked true ++ ")" else marked !spec.sharp)
  | 'p' => some (marked !spec.sharp)
  | 'b' | 'o' | 'd' | 'x' | 'X' => formatBasic spec verb (.int address)
  | _ => none

def takesText (spec : VerbSpec) (verb : Char) : Bool :=
  ['v', 's', 'x', 'X', 'q'].contains verb && !spec.asSource && !spec.reports

def braced (spec : VerbSpec) (type : Bytes) (fields : List (Bytes × Bytes)) : Bytes :=
  let separator : Bytes := if spec.asSource then ", " else " "
  let shown := fields.map fun (name, value) =>
    if spec.withNames then name ++ ":" ++ value else value
  (if spec.asSource then type else []) ++ "\x7b" ++ Bytes.joinWith separator shown ++ "\x7d"

mutual
def formatValue (spec : VerbSpec) (verb : Char) (inner : Bool) : Value → Bytes
  | .absent =>
    if verb = 'v' || verb = 'T' then spec.pad "<nil>"
    else "%!" ++ Bytes.ofChar verb ++ "(<nil>)"
  | .position position =>
    if takesText spec verb then formatOrReport spec verb (.text position.render)
    else
      let number (value : Int) : Bytes := formatOrReport spec verb (.int value)
      braced spec "token.Position"
        [("Filename", formatOrReport spec verb (.text position.filename)),
         ("Offset", number position.offset), ("Line", number position.line),
         ("Column", number position.column)]
  | .list _ elementType elements =>
    let shown := formatValues spec verb elements
    if spec.asSource then
      let inside : Bytes :=
        if elements.isEmpty then "(nil)" else "\x7b" ++ Bytes.joinWith ", " shown ++ "\x7d"
      "[]" ++ elementType ++ inside
    else "[" ++ Bytes.joinWith " " shown ++ "]"
  | .record type fields _ => braced spec type (formatFields spec verb fields)
  | .pointer address target =>
    if inner then
      (formatAddress spec verb ("*" ++ target.typeName) address).getD
        ("%!" ++ Bytes.ofChar verb ++ "(*" ++ target.typeName ++ "=&"
          ++ formatValue { spec with reports := true } 'v' true target ++ ")")
    else "&" ++ formatValue spec verb true target
  | value => formatOrReport spec verb value
termination_by structural value => value

def formatValues (spec : VerbSpec) (verb : Char) : List Value → List Bytes
  | [] => []
  | value :: values => formatValue spec verb true value :: formatValues spec verb values
termination_by structural values => values

def formatField (spec : VerbSpec) (verb : Char) : Bytes × Value → Bytes × Bytes
  | (name, value) => (name, formatValue spec verb true value)
termination_by structural field => field

def formatFields (spec : VerbSpec) (verb : Char) : List (Bytes × Value) → List (Bytes × Bytes)
  | [] => []
  | field :: fields => formatField spec verb field :: formatFields spec verb fields
termination_by structural fields => fields
end

def formatPlain (value : Value) : Bytes :=
  formatValue {} 'v' false value

def formatArgument (spec : VerbSpec) (verb : Char) (value : Value) : Bytes :=
  match verb, value with
  | 'T', .absent => spec.pad "<nil>"
  | 'T', value => spec.pad (spec.truncate value.typeName)
  | 'p', .pointer address _ => (formatAddress spec 'p' value.typeName address).getD []
  | 'p', .list place _ _ => (formatAddress spec 'p' value.typeName (place 0)).getD []
  | 'p', .absent => "%!p(<nil>)"
  | 'p', value =>
    "%!p(" ++ value.typeName ++ "=" ++ formatValue { spec with reports := true } 'v' false value ++ ")"
  | verb, value => formatValue (spec.forVerb verb) verb false value

/-- Values one after the other, with a blank between two that are no texts. -/
def formatAll (values : List Value) : Bytes :=
  let rec go (afterText : Bool) : List Value → Bytes
    | [] => []
    | value :: values =>
      let isText := match value with
        | .text _ => true
        | _ => false
      (if afterText || isText then [] else " ") ++ formatPlain value ++ go isText values
  go true values

/-! ## Formats -/

structure FormatState where
  arguments : List Value
  next : Nat := 0
  reordered : Bool := false
  /-- Whether the number of the argument for the current verb is good. -/
  isGood : Bool := true

/-- A run of digits, if there is one. -/
def number? (chars : List Char) : Option Nat × List Char :=
  let digits := chars.takeWhile fun char => '0' ≤ char && char ≤ '9'
  if digits.isEmpty then (none, chars)
  else (Bytes.toNat? (digits.map byte), chars.drop digits.length)

/-- An argument number in brackets, if there is one.  The flag tells whether one
was found. -/
def argumentNumber (state : FormatState) (chars : List Char) : FormatState × List Char × Bool :=
  match chars with
  | '[' :: rest =>
    let state := { state with reordered := true }
    let inner := rest.takeWhile (· != ']')
    match rest.drop inner.length with
    | _ :: after =>
      match number? inner with
      | (some number, []) =>
        if 1 ≤ number ∧ number ≤ state.arguments.length then ({ state with next := number - 1 },
          after, true)
        else ({ state with isGood := false }, after, true)
      | _ => ({ state with isGood := false }, after, false)
    | [] => ({ state with isGood := false }, rest, false)
  | chars => (state, chars, false)

def starArgument (state : FormatState) : Option Int × FormatState :=
  match state.arguments[state.next]? with
  | some (.integer _ value) =>
    (if value.natAbs ≤ 1000000 then some value else none, { state with next := state.next + 1 })
  | some _ => (none, { state with next := state.next + 1 })
  | none => (none, state)

def flags (spec : VerbSpec) : List Char → VerbSpec × List Char
  | '#' :: rest => flags { spec with sharp := true } rest
  | '0' :: rest => flags { spec with zero := true } rest
  | '+' :: rest => flags { spec with plus := true } rest
  | '-' :: rest => flags { spec with minus := true } rest
  | ' ' :: rest => flags { spec with space := true } rest
  | chars => (spec, chars)

/-- What a verb with its flags writes, and the rest of the format. -/
def formatVerb (state : FormatState) (chars : List Char) : Bytes × FormatState × List Char :=
  let (spec, chars) := flags {} chars
  let (state, chars, afterIndex) := argumentNumber { state with isGood := true } chars
  let (reported, spec, state, chars, afterIndex) : Bytes × VerbSpec × FormatState × List Char × Bool :=
    match chars with
    | '*' :: rest =>
      match starArgument state with
      | (some width, state) =>
        ([], { spec with
          width := some width.natAbs
          minus := spec.minus || width < 0
          zero := spec.zero && width ≥ 0 }, state, rest, false)
      | (none, state) => ("%!(BADWIDTH)", spec, state, rest, false)
    | chars =>
      let (width, rest) := number? chars
      let isGood := state.isGood && !(afterIndex && width.isSome)
      ([], { spec with width }, { state with isGood }, rest, afterIndex)
  let (reported, spec, state, chars, afterIndex) : Bytes × VerbSpec × FormatState × List Char × Bool :=
    match chars with
    | '.' :: rest =>
      let state := { state with isGood := state.isGood && !afterIndex }
      let (state, rest, afterIndex) := argumentNumber state rest
      match rest with
      | '*' :: rest =>
        match starArgument state with
        | (some (.ofNat precision), state) =>
          (reported, { spec with precision := some precision }, state, rest, false)
        | (_, state) => (reported ++ "%!(BADPREC)", spec, state, rest, false)
      | rest =>
        let (precision, rest) := number? rest
        (reported, { spec with precision := some (precision.getD 0) }, state, rest, afterIndex)
    | chars => (reported, spec, state, chars, afterIndex)
  let (state, chars, _) := if afterIndex then (state, chars, true) else argumentNumber state chars
  match chars with
  | [] => (reported ++ "%!(NOVERB)", state, [])
  | '%' :: rest => (reported ++ "%", state, rest)
  | verb :: rest =>
    if !state.isGood then (reported ++ "%!" ++ Bytes.ofChar verb ++ "(BADINDEX)", state, rest)
    else
      match state.arguments[state.next]? with
      | none => (reported ++ "%!" ++ Bytes.ofChar verb ++ "(MISSING)", state, rest)
      | some value =>
        (reported ++ formatArgument spec verb value, { state with next := state.next + 1 }, rest)

/-- What the rest of a format writes.  Every step takes a glyph. -/
def formatFrom : (fuel : Nat) → FormatState → List Text.Glyph → Bytes × FormatState
  | 0, state, _ => ([], state)
  | _, state, [] => ([], state)
  | fuel + 1, state, glyph :: rest =>
    if glyph.char = '%' then
      let (text, state, left) := formatVerb state (rest.map Text.Glyph.char)
      let (more, state) := formatFrom fuel state (rest.drop (rest.length - left.length))
      (text ++ more, state)
    else
      let (more, state) := formatFrom fuel state rest
      (glyph.bytes ++ more, state)

/-- Writes values by a format.  Values that the format does not use are
reported at the end. -/
def formatBy (format : Bytes) (values : List Value) : Bytes :=
  let glyphs := Text.Utf8.glyphs format
  let (text, state) := formatFrom (glyphs.length + 1) { arguments := values } glyphs
  let extra := values.drop state.next
  if state.reordered || extra.isEmpty then text
  else
    let report (value : Value) : Bytes :=
      match value with
      | .absent => "<nil>"
      | value => value.typeName ++ "=" ++ formatPlain value
    text ++ "%!(EXTRA " ++ Bytes.joinWith ", " (extra.map report) ++ ")"

end Pattern
end CaseExpansion
