import CaseExpansion.Text.Category

namespace CaseExpansion
namespace Text
namespace Quoted

/-!
# Quoted texts

A text between quotation marks, with escapes for the mark itself, the
backslash and everything that is not printable.  `encode` writes one form per
text and keeps every byte: a malformed byte is written as a hexadecimal
escape.  `decode?` reads that form, and also every other literal of the
language: octal and numeric escapes in either quotes, and raw texts between
backquotes, from which carriage returns are dropped.
-/

/-! ## Digits -/

/-- The lower-case hexadecimal digit of a number below sixteen. -/
def hexDigit (value : Nat) : UInt8 :=
  if value < 10 then (48 + value).toUInt8 else (87 + value).toUInt8

/-- The number in `width` hexadecimal digits. -/
def hexDigits : (width value : Nat) → Bytes
  | 0, _ => []
  | width + 1, value => hexDigits width (value / 16) ++ [hexDigit (value % 16)]

def hexValue? (char : Char) : Option Nat :=
  if '0' ≤ char && char ≤ '9' then some (char.toNat - 48)
  else if 'a' ≤ char && char ≤ 'f' then some (char.toNat - 87)
  else if 'A' ≤ char && char ≤ 'F' then some (char.toNat - 55)
  else none

def hexNumber? (digits : List Char) : Option Nat :=
  digits.foldl (fun value? digit => do return (← value?) * 16 + (← hexValue? digit)) (some 0)

def octalValue? (char : Char) : Option Nat :=
  if '0' ≤ char && char ≤ '7' then some (char.toNat - 48) else none

/-! ## Writing -/

/-- The letter of a control character that has an escape of its own. -/
def shortEscape? (char : Char) : Option Char :=
  match char.toNat with
  | 7 => some 'a'
  | 8 => some 'b'
  | 9 => some 't'
  | 10 => some 'n'
  | 11 => some 'v'
  | 12 => some 'f'
  | 13 => some 'r'
  | _ => none

/-- One code point as it stands between quotation marks. -/
def encodeChar (mark char : Char) : Bytes :=
  let code := char.toNat
  if char = mark || char = '\\' then byte '\\' :: Bytes.ofChar char
  else if isPrintable char then Bytes.ofChar char
  else
    match shortEscape? char with
    | some letter => [byte '\\', byte letter]
    | none =>
      if code < 0x20 || code = 0x7F then Bytes.ofString "\\x" ++ hexDigits 2 code
      else if code < 0x10000 then Bytes.ofString "\\u" ++ hexDigits 4 code
      else Bytes.ofString "\\U" ++ hexDigits 8 code

def encodeGlyph (mark : Char) (glyph : Glyph) : Bytes :=
  if glyph.isMalformed then
    glyph.bytes.flatMap fun code => Bytes.ofString "\\x" ++ hexDigits 2 code.toNat
  else encodeChar mark glyph.char

def encode (text : Bytes) : Bytes :=
  byte '"' :: (Utf8.glyphs text).flatMap (encodeGlyph '"') ++ [byte '"']

/-- A code point between single quotation marks. -/
def encodeRune (char : Char) : Bytes :=
  byte '\'' :: encodeChar '\'' char ++ [byte '\'']

/-! ## Reading -/

/-- The bytes of a code point given by a numeric escape, unless the number is a
surrogate or too large. -/
def scalarBytes? (code : Nat) : Option Bytes :=
  if code < 0xD800 || (0xE000 ≤ code && code < 0x110000) then some (Bytes.ofChar (Char.ofNat code))
  else none

/-- The bytes that an escape stands for, and what follows it.  The argument is
the text after the backslash. -/
def decodeEscape? (mark : Char) : List Char → Option (Bytes × List Char)
  | 'a' :: rest => some ([7], rest)
  | 'b' :: rest => some ([8], rest)
  | 'f' :: rest => some ([12], rest)
  | 'n' :: rest => some ([10], rest)
  | 'r' :: rest => some ([13], rest)
  | 't' :: rest => some ([9], rest)
  | 'v' :: rest => some ([11], rest)
  | '\\' :: rest => some ([byte '\\'], rest)
  | 'x' :: d1 :: d2 :: rest => do return ([(← hexNumber? [d1, d2]).toUInt8], rest)
  | 'u' :: d1 :: d2 :: d3 :: d4 :: rest => do
    return (← scalarBytes? (← hexNumber? [d1, d2, d3, d4]), rest)
  | 'U' :: d1 :: d2 :: d3 :: d4 :: d5 :: d6 :: d7 :: d8 :: rest => do
    return (← scalarBytes? (← hexNumber? [d1, d2, d3, d4, d5, d6, d7, d8]), rest)
  | char :: rest =>
    if (char = '\'' || char = '"') then if char = mark then some ([byte char], rest) else none
    else
      match octalValue? char, rest with
      | some high, d1 :: d2 :: rest => do
        let value := (high * 8 + (← octalValue? d1)) * 8 + (← octalValue? d2)
        if value > 255 then none else some ([value.toUInt8], rest)
      | _, _ => none
  | [] => none

/-- One character of an interpreted literal: its bytes and what follows. -/
def decodeChar? (mark : Char) : List Char → Option (Bytes × List Char)
  | '\\' :: rest => decodeEscape? mark rest
  | char :: rest => if char = mark || char = '\n' then none else some (Bytes.ofChar char, rest)
  | [] => none

/-- The contents of an interpreted literal up to its closing mark, and what
follows the mark.  The fuel bounds the number of characters. -/
def decodeBody? (mark : Char) : (fuel : Nat) → List Char → Option (Bytes × List Char)
  | 0, _ => none
  | fuel + 1, chars =>
    match chars with
    | [] => none
    | char :: rest =>
      if char = mark then some ([], rest)
      else do
        let (piece, rest) ← decodeChar? mark (char :: rest)
        let (pieces, rest) ← decodeBody? mark fuel rest
        return (piece ++ pieces, rest)

/-- The contents of a raw text, from the character after its opening mark: the
closing mark has to be the last character. -/
def decodeRaw? (text : Bytes) : Option Bytes :=
  match text.reverse with
  | last :: inner =>
    if last = byte '`' && !inner.contains (byte '`') then
      some (inner.reverse.filter (· ≠ byte '\r'))
    else none
  | [] => none

/-- The text that a literal of any form stands for.  A literal between single
marks holds exactly one character. -/
def decode? (literal : Bytes) : Option Bytes :=
  match literal with
  | [] => none
  | open_ :: rest =>
    let chars := Utf8.chars rest
    if open_ = byte '`' then decodeRaw? rest
    else if open_ = byte '"' then
      match decodeBody? '"' (chars.length + 1) chars with
      | some (text, []) => some text
      | _ => none
    else if open_ = byte '\'' then
      match decodeChar? '\'' chars with
      | some (text, ['\'']) => some text
      | _ => none
    else none

end Quoted
end Text
end CaseExpansion
