import CaseExpansion.Source.Lexeme.Scan
import CaseExpansion.Source.Position
import CaseExpansion.Text.Path

namespace CaseExpansion
namespace Source

/-!
# Line directives

A comment `//line file:line:column` at the start of a line, or a general
comment of that form anywhere, tells where the text after it is to be reported.
The column may be left out, and so may the file when there is a column.  A
directive whose numbers do not make sense is a fault of its comment.
-/

namespace LineDirective

/-- The number after the last colon of a text, and where it starts.  The index
is zero when there is no colon; the number is absent when the rest is no
number of at most 64 bits. -/
def trailingNumber (text : Bytes) : Nat × Option Nat :=
  match Bytes.lastIndexOf? (byte ':') text with
  | none => (0, none)
  | some index =>
    let digits := text.drop (index + 1)
    (index + 1, (Bytes.toNat? digits).filter (· < 18446744073709551616))

/-- The greatest line and column a directive may name. -/
def limit : Nat := 1073741824

/-- What a directive says, before its file is resolved. -/
structure Target where
  filename : Bytes
  line : Nat
  column : Nat

def inRange (number : Nat) : Bool :=
  number ≠ 0 && number ≤ limit

/-- Reads what follows `//line `, at the given offset.  No colon means that the
comment is no directive after all. -/
def read (offset : Nat) (text : Bytes) : Except Fault (Option Target) :=
  match trailingNumber text with
  | (0, _) => .ok none
  | (start, none) => .error ⟨offset + start, .lineNumber (text.drop start)⟩
  | (start, some number) =>
    match trailingNumber (text.take (start - 1)) with
    | (lineStart, some line) =>
      let text' := text.take (start - 1)
      if !inRange number then .error ⟨offset + start, .columnNumber (text.drop start)⟩
      else if !inRange line then .error ⟨offset + lineStart, .lineNumber (text'.drop lineStart)⟩
      else .ok (some ⟨text'.take (lineStart - 1), line, number⟩)
    | (_, none) =>
      if !inRange number then .error ⟨offset + start, .lineNumber (text.drop start)⟩
      else .ok (some ⟨text.take (start - 1), number, 0⟩)

/-- The file that a directive names, for a source file and the file reported
before the directive.  Relative names are relative to the source file. -/
def resolve (source current : Bytes) (target : Target) : Bytes :=
  if target.filename.isEmpty then if target.column ≠ 0 then current else []
  else
    let cleaned := Path.clean target.filename
    if Path.isAbsolute cleaned then cleaned else Path.join [(Path.split source).1, cleaned]

/-- The text of a comment after the word that makes it a directive, without a
closing mark, and the offset just after the comment.  A line comment has to
start its line, and a general comment has to be closed. -/
def body? (text : Bytes) (starts : List Nat) (comment : Lexeme) : Option (Bytes × Nat) :=
  let raw := Bytes.slice text comment.offset comment.stop
  match Bytes.cutLead? "//line " raw with
  | some rest =>
    if starts.contains comment.offset then
      let lineEnds := (text.drop comment.stop).head? == some (byte '\n')
      some (Bytes.dropTail [byte '\r'] rest, if lineEnds then comment.stop + 1 else comment.stop)
    else none
  | none =>
    match Bytes.cutLead? "/*line " raw with
    | some rest => (Bytes.cutTail? "*/" rest).map fun body => (body, comment.stop)
    | none => none

/-- Takes one more lexeme: the table with the mark of the directive, if there is
one, and the lexemes so far, newest first. -/
def step (filename text : Bytes) (starts : List Nat) (state : LineTable × List Lexeme)
    (lexeme : Lexeme) : LineTable × List Lexeme :=
  let (table, done) := state
  let keep := (table, lexeme :: done)
  if lexeme.token ≠ .comment then keep
  else
    match body? text starts lexeme with
    | none => keep
    | some (body, next) =>
      match read (lexeme.offset + 7) body with
      | .ok none => keep
      | .error fault => (table, { lexeme with faults := lexeme.faults ++ [fault] } :: done)
      | .ok (some target) =>
        let current := (table.position (lexeme.offset + 7)).filename
        let mark : LineMark := ⟨next, resolve filename current target, target.line, target.column⟩
        let isLater := table.marks.all fun earlier => earlier.offset < next
        if isLater && next < table.size then
          ({ table with marks := table.marks ++ [mark] }, lexeme :: done)
        else keep

/-- The lexemes with the faults of line directives added to their comments, and
the table of the text with the marks of the directives. -/
def apply (filename text : Bytes) (lexemes : List Lexeme) : LineTable × List Lexeme :=
  let start := (LineTable.ofText filename text, [])
  let (table, done) := lexemes.foldl (step filename text (lineStarts text)) start
  (table, done.reverse)

end LineDirective

/-- The lexemes of a source file, and the table that turns its offsets into
positions. -/
def scanFile (filename text : Bytes) : LineTable × List Lexeme :=
  LineDirective.apply filename text (Lexeme.scan text)

end Source
end CaseExpansion
