import CaseExpansion.Source.Lexeme.Number

namespace CaseExpansion
namespace Source

open Text (Glyph)

/-!
# Strings, runes and comments

The readers here start just after the opening mark.  An escape is followed
glyph by glyph (`Escape`), so that the readers recurse on the glyphs ahead; an
escape that goes wrong takes no further glyph, and reading goes on in the
literal from the glyph that broke it.
-/

inductive Escape where
  | idle
  | opened
  /-- Inside a numeric escape that started at `start`: `left` digits of radix
  `base` are to come, and the value may not exceed `limit`. -/
  | digits (start left base value limit : Nat)
deriving DecidableEq, Repr

namespace Escape

inductive Fed where
  /-- The glyph belongs to the escape, which may have turned out invalid. -/
  | taken (next : Escape) (fault? : Option Fault)
  | broken (fault : Fault)

/-- The value of a digit; sixteen for characters that are none. -/
def digitValue (char : Char) : Nat :=
  (Text.Quoted.hexValue? char).getD 16

def feedDigit (start left base value limit : Nat) (glyph : Glyph) : Fed :=
  let digit := digitValue glyph.char
  if digit ≥ base then .broken ⟨glyph.offset, .escapeChar glyph.char⟩
  else
    let value := value * base + digit
    match left with
    | 0 | 1 =>
      if value > limit || (0xD800 ≤ value && value < 0xE000) then
        .taken .idle (some ⟨start, .escapeCodePoint⟩)
      else .taken .idle none
    | left + 1 => .taken (.digits start left base value limit) none

/-- What a glyph does to an escape in a literal with the given mark. -/
def feed (mark : Char) (glyph : Glyph) : Escape → Fed
  | idle => .broken ⟨glyph.offset, .unknownEscape⟩
  | opened =>
    let char := glyph.char
    if char = mark || char = '\\' || ['a', 'b', 'f', 'n', 'r', 't', 'v'].contains char then
      .taken .idle none
    else if '0' ≤ char && char ≤ '7' then feedDigit glyph.offset 3 8 0 255 glyph
    else if char = 'x' then .taken (.digits glyph.offset 2 16 0 255) none
    else if char = 'u' then .taken (.digits glyph.offset 4 16 0 0x10FFFF) none
    else if char = 'U' then .taken (.digits glyph.offset 8 16 0 0x10FFFF) none
    else .broken ⟨glyph.offset, .unknownEscape⟩
  | digits start left base value limit => feedDigit start left base value limit glyph

end Escape

namespace LiteralScan

/-- How reading a literal ended: where the reader stands, how many characters
were taken, whether all escapes were valid, and whether the mark closed it. -/
structure Outcome where
  reader : Reader
  count : Nat
  valid : Bool
  closed : Bool

/-- Reads a literal up to its closing mark.  It also ends, unclosed, before a
line feed and at the end of the text. -/
def body (size : Nat) (mark : Char) (escape : Escape) (count : Nat) (valid : Bool) :
    List Glyph → List Fault → Outcome
  | [], faults =>
    if escape = .idle then ⟨⟨[], faults⟩, count, valid, false⟩
    else ⟨⟨[], ⟨size, .openEscape⟩ :: faults⟩, count, false, false⟩
  | glyph :: ahead, faults =>
    let plain (valid : Bool) (faults : List Fault) : Outcome :=
      if glyph.char = '\n' then ⟨⟨glyph :: ahead, faults⟩, count, valid, false⟩
      else if glyph.char = mark then ⟨⟨ahead, Reader.arrive ahead faults⟩, count, valid, true⟩
      else
        let escape := if glyph.char = '\\' then .opened else .idle
        body size mark escape (count + 1) valid ahead (Reader.arrive ahead faults)
    if escape = .idle then plain valid faults
    else
      match escape.feed mark glyph with
      | .taken next none => body size mark next count valid ahead (Reader.arrive ahead faults)
      | .taken next (some fault) =>
        body size mark next count false ahead (fault :: Reader.arrive ahead faults)
      | .broken fault => plain false (fault :: faults)

/-- Reads an interpreted string that opened at `start`. -/
def string (size start : Nat) (reader : Reader) : Reader :=
  let outcome := body size '"' .idle 0 true reader.ahead reader.faults
  if outcome.closed then outcome.reader else outcome.reader.report start .openString

/-- Reads a rune literal that opened at `start`.  One fault is enough: an
invalid escape silences complaints about the literal as a whole. -/
def rune (size start : Nat) (reader : Reader) : Reader :=
  let outcome := body size '\'' .idle 0 true reader.ahead reader.faults
  if !outcome.valid then outcome.reader
  else if !outcome.closed then outcome.reader.report start .openRune
  else if outcome.count ≠ 1 then outcome.reader.report start .illegalRune
  else outcome.reader

/-- Reads a raw string that opened at `start`. -/
def rawString (start : Nat) (reader : Reader) : Reader :=
  let reader := Reader.skipWhile (· ≠ '`') reader.ahead reader.faults
  if reader.ahead.isEmpty then reader.report start .openRawString else reader.advance

/-- Reads a general comment up to its end.  The second result tells whether it
ended, the third where its first line feed is. -/
def blockComment (newline? : Option Nat) : List Glyph → List Fault → Reader × Bool × Option Nat
  | [], faults => (⟨[], faults⟩, false, newline?)
  | [glyph], faults =>
    let newline? := if glyph.char = '\n' then newline?.or (some glyph.offset) else newline?
    (⟨[], faults⟩, false, newline?)
  | glyph :: second :: ahead, faults =>
    let newline? := if glyph.char = '\n' then newline?.or (some glyph.offset) else newline?
    let faults := Reader.arrive (second :: ahead) faults
    if glyph.char = '*' && second.char = '/' then
      (⟨ahead, Reader.arrive ahead faults⟩, true, newline?)
    else blockComment newline? (second :: ahead) faults

/-- A comment without its carriage returns.  In a general comment the ones
between a star and a slash stay, lest the comment end there. -/
def dropReturns (general : Bool) (text : Bytes) : Bytes :=
  let rec go (kept : Bytes) : Bytes → Bytes
    | [] => kept.reverse
    | code :: rest =>
      if code ≠ byte '\r' then go (code :: kept) rest
      else if general && kept.length > 2 && kept.head? == some (byte '*')
          && rest.head? == some (byte '/') then go (code :: kept) rest
      else go kept rest
  go [] text

/-- The text of a comment: the carriage return of its line end does not belong
to a line comment, and others are dropped. -/
def commentText (raw : Bytes) : Bytes :=
  let general := raw.tail.head? == some (byte '*')
  let raw := if general then raw else Bytes.dropTail [byte '\r'] raw
  dropReturns general raw

end LiteralScan
end Source
end CaseExpansion
