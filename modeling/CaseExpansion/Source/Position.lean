import CaseExpansion.Text.Bytes

namespace CaseExpansion
namespace Source

/-!
# Positions

A position names a place in a source file for a reader: file, line and column,
counted from one, columns in bytes.  The offset is the place itself and is
never adjusted.  A comment may redirect the reader to another file and line
(`LineMark`); such marks change what a position says from there on, but not
the offset.

The lines of a file are given by the offsets at which they start.  A line
feed at the very end of a file starts no line, so the end of such a file is a
column of its last line.
-/

structure Position where
  filename : Bytes := []
  offset : Nat := 0
  line : Int := 0
  column : Int := 0
deriving DecidableEq, Repr, Inhabited

namespace Position

/-- Whether the position names a line.  Positions of values that came from no
file do not. -/
def isValid (position : Position) : Bool :=
  position.line > 0

/-- The position as messages show it.  A column of zero is unknown and left
out. -/
def render (position : Position) : Bytes :=
  let place :=
    if position.isValid then
      Bytes.decimalInt position.line
        ++ (if position.column ≠ 0 then byte ':' :: Bytes.decimalInt position.column else [])
    else []
  match position.filename, place with
  | [], [] => "-"
  | filename, [] => filename
  | [], place => place
  | filename, place => filename ++ byte ':' :: place

/-- The order of reports: by file, then line, then column. -/
def compare (left right : Position) : Ordering :=
  (Bytes.compare left.filename right.filename).then
    ((Ord.compare left.line right.line).then (Ord.compare left.column right.column))

end Position

/-- From `offset` on, the text is to be reported as if it stood at the given
line of another file.  A column of zero leaves columns unknown. -/
structure LineMark where
  offset : Nat
  filename : Bytes
  line : Nat
  column : Nat
deriving DecidableEq, Repr

/-- What is needed to turn offsets of one file into positions. -/
structure LineTable where
  filename : Bytes
  size : Nat
  starts : List Nat
  marks : List LineMark := []
deriving Repr, Inhabited

def lineStarts (text : Bytes) : List Nat :=
  let rec after (offset : Nat) : Bytes → List Nat
    | [] => []
    | [_] => []
    | code :: rest =>
      if code = byte '\n' then (offset + 1) :: after (offset + 1) rest else after (offset + 1) rest
  0 :: after 0 text

namespace LineTable

def ofText (filename text : Bytes) : LineTable :=
  { filename, size := text.length, starts := lineStarts text }

/-- The number of the last line that starts at or before an offset, and where
it starts, given the line before the remaining ones. -/
def locate (line start : Nat) : List Nat → Nat → Nat × Nat
  | [], _ => (line, start)
  | next :: rest, offset =>
    if next ≤ offset then locate (line + 1) next rest offset else (line, start)

/-- The line and the start of the line of an offset, without regard to marks. -/
def lineAt (table : LineTable) (offset : Nat) : Nat × Nat :=
  locate 0 0 table.starts offset

/-- The line of an offset, without regard to marks. -/
def line (table : LineTable) (offset : Nat) : Nat :=
  (table.lineAt (min offset table.size)).1

/-- The position of an offset, without regard to marks. -/
def plainPosition (table : LineTable) (offset : Nat) : Position :=
  let offset := min offset table.size
  let (line, start) := table.lineAt offset
  { filename := table.filename, offset, line, column := offset - start + 1 }

/-- The position of an offset.  The last mark at or before the offset decides
what is reported; its column holds for the rest of its own line only. -/
def position (table : LineTable) (offset : Nat) : Position :=
  let plain := table.plainPosition offset
  match (table.marks.takeWhile fun mark => mark.offset ≤ plain.offset).getLast? with
  | none => plain
  | some mark =>
    let distance := plain.line - (table.lineAt mark.offset).1
    { plain with
      filename := mark.filename
      line := mark.line + distance
      column :=
        if mark.column = 0 then 0
        else if distance = 0 then (mark.column + (plain.offset - mark.offset) : Nat)
        else plain.column }

end LineTable
end Source
end CaseExpansion
