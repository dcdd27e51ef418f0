import CaseExpansion.Text.Bytes

namespace CaseExpansion
namespace Text

/-!
# Code points of a byte string

A glyph is one decoded code point together with the bytes it was read from and
the offset where they start.  Decoding is total: a byte that does not start a
well-formed UTF-8 sequence is a glyph of its own, which reads as the
replacement character.  Concatenating the bytes of the glyphs gives the text
back, so a scanner may work on glyphs, by recursion on the list, and still
speak about offsets in the bytes.
-/

def replacement : Char := '�'

/-- One code point of a text, where it stands and how it is written. -/
structure Glyph where
  char : Char
  bytes : Bytes
  offset : Nat
deriving Repr, DecidableEq

namespace Glyph

/-- Whether the glyph is a byte that is no part of a well-formed sequence.  The
replacement character itself takes three bytes when it is written out. -/
def isMalformed (glyph : Glyph) : Bool :=
  glyph.char == replacement && glyph.bytes.length == 1

def stop (glyph : Glyph) : Nat :=
  glyph.offset + glyph.bytes.length

end Glyph

namespace Utf8

/-- Whether a byte continues a sequence and does not start one. -/
def isContinuation (code : UInt8) : Bool :=
  0x80 ≤ code && code ≤ 0xBF

/-- The six bits that a continuation byte carries. -/
def payload (code : UInt8) : Nat :=
  code.toNat % 64

/-- The bounds on the second byte after a given first one.  They exclude
overlong forms, surrogates and numbers beyond the last code point. -/
def secondBounds (lead : UInt8) : UInt8 × UInt8 :=
  if lead = 0xE0 then (0xA0, 0xBF)
  else if lead = 0xED then (0x80, 0x9F)
  else if lead = 0xF0 then (0x90, 0xBF)
  else if lead = 0xF4 then (0x80, 0x8F)
  else (0x80, 0xBF)

/-- The code point at the start of a text with the given first byte, and the
number of bytes it takes. -/
def decode (lead : UInt8) (rest : Bytes) : Char × Nat :=
  let (low, high) := secondBounds lead
  let malformed := (replacement, 1)
  if lead < 0x80 then (Char.ofNat lead.toNat, 1)
  else if 0xC2 ≤ lead && lead ≤ 0xDF then
    match rest with
    | second :: _ =>
      if isContinuation second then
        (Char.ofNat (lead.toNat % 32 * 64 + payload second), 2)
      else malformed
    | _ => malformed
  else if 0xE0 ≤ lead && lead ≤ 0xEF then
    match rest with
    | second :: third :: _ =>
      if low ≤ second && second ≤ high && isContinuation third then
        (Char.ofNat ((lead.toNat % 16 * 64 + payload second) * 64 + payload third), 3)
      else malformed
    | _ => malformed
  else if 0xF0 ≤ lead && lead ≤ 0xF4 then
    match rest with
    | second :: third :: fourth :: _ =>
      if low ≤ second && second ≤ high && isContinuation third && isContinuation fourth then
        (Char.ofNat (((lead.toNat % 8 * 64 + payload second) * 64 + payload third) * 64
          + payload fourth), 4)
      else malformed
    | _ => malformed
  else malformed

/-- The glyphs of a text that starts at `offset`.  The first argument counts
the bytes that still belong to the glyph before, which keeps the recursion on
the list of bytes. -/
def glyphsFrom : (owed offset : Nat) → Bytes → List Glyph
  | _, _, [] => []
  | owed + 1, offset, _ :: rest => glyphsFrom owed (offset + 1) rest
  | 0, offset, lead :: rest =>
    let (char, width) := decode lead rest
    ⟨char, (lead :: rest).take width, offset⟩ :: glyphsFrom (width - 1) (offset + 1) rest

def glyphs (text : Bytes) : List Glyph :=
  glyphsFrom 0 0 text

def chars (text : Bytes) : List Char :=
  (glyphs text).map Glyph.char

def isValid (text : Bytes) : Bool :=
  (glyphs text).all fun glyph => !glyph.isMalformed

end Utf8
end Text
end CaseExpansion
