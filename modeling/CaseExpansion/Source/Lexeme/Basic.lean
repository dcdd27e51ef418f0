import CaseExpansion.Source.Fault
import CaseExpansion.Source.Token

namespace CaseExpansion
namespace Source

/-!
# Lexemes and the reader that finds them

A lexeme is one token of a text with its place, its spelling and the faults
met while it was read.  The reader holds the glyphs still ahead.  It reports a
glyph that is faulty in itself when it comes to stand on it, that is, one
glyph before that glyph is taken: a scan that stops early has then seen the
faults of the glyph it stopped at, and no later ones.
-/

structure Lexeme where
  token : Token
  offset : Nat
  stop : Nat
  /-- The spelling, without the carriage returns of comments and raw strings.
  It is empty for operators, and a line feed for a semicolon that a line end
  stands for. -/
  literal : Bytes := []
  /-- The faults met while reading, oldest first. -/
  faults : List Fault := []
deriving Repr, Inhabited

namespace Lexeme

/-- Whether the lexeme is a semicolon that stands for a line end. -/
def isLineEnd (lexeme : Lexeme) : Bool :=
  lexeme.token == .semicolon && lexeme.literal == [byte '\n']

end Lexeme

open Text (Glyph)

/-- The byte order mark, which is accepted at the start of a text only. -/
def byteOrderMark : Char := '﻿'

def glyphFault? (glyph : Glyph) : Option Fault :=
  if glyph.char = '\x00' then some ⟨glyph.offset, .nul⟩
  else if glyph.isMalformed then some ⟨glyph.offset, .malformedUtf8⟩
  else if glyph.char = byteOrderMark && glyph.offset > 0 then some ⟨glyph.offset, .byteOrderMark⟩
  else none

/-- The glyphs ahead and the faults met so far, newest first. -/
structure Reader where
  ahead : List Glyph
  faults : List Fault := []

namespace Reader

/-- The faults once the reader stands on the first of the given glyphs. -/
def arrive (ahead : List Glyph) (faults : List Fault) : List Fault :=
  match ahead.head?.bind glyphFault? with
  | some fault => fault :: faults
  | none => faults

def char? (reader : Reader) : Option Char :=
  reader.ahead.head?.map Glyph.char

def isAt (reader : Reader) (char : Char) : Bool :=
  reader.char? == some char

def second? (reader : Reader) : Option Char :=
  reader.ahead.tail.head?.map Glyph.char

/-- The offset at which the reader stands in a text of the given size. -/
def offset (size : Nat) (reader : Reader) : Nat :=
  (reader.ahead.head?.map Glyph.offset).getD size

def advance (reader : Reader) : Reader :=
  match reader.ahead with
  | [] => reader
  | _ :: ahead => ⟨ahead, arrive ahead reader.faults⟩

def report (reader : Reader) (offset : Nat) (defect : Defect) : Reader :=
  { reader with faults := ⟨offset, defect⟩ :: reader.faults }

def skipWhile (test : Char → Bool) : List Glyph → List Fault → Reader
  | [], faults => ⟨[], faults⟩
  | glyph :: ahead, faults =>
    if test glyph.char then skipWhile test ahead (arrive ahead faults)
    else ⟨glyph :: ahead, faults⟩

/-- The bytes between two states of the reader: those that the first has ahead
and the second has not. -/
def between (start stop : Reader) : Bytes :=
  (start.ahead.take (start.ahead.length - stop.ahead.length)).flatMap Glyph.bytes

end Reader
end Source
end CaseExpansion
