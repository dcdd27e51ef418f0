import CaseExpansion.Layout.BuildLines
import CaseExpansion.Layout.Columns
import CaseExpansion.Layout.Imports
import CaseExpansion.Layout.Nodes
import CaseExpansion.Source.Parse.File

namespace CaseExpansion
namespace Layout

open Source (Decl FuncDecl File ParsedFile Diagnostic Token)
open Writing

/-!
# Formatting of source text

`format` brings a source text into standard form.  A text need not be a whole file: a
list of declarations or of statements is formatted as the part of a file that it would
be, and keeps the white space around it and its indentation.
-/

/-! ## Declarations and files -/

def function (declared : FuncDecl) : Writing Unit := do
  goTo declared.keyword
  token .kwFunc
  space .blank
  let column := (← get).written.column - 5
  if let some receiver := declared.receiver then
    parameters .values receiver
    space .blank
  goTo declared.name.offset
  name declared.name
  signature declared.signature
  let size ← distanceFrom declared.keyword column
  if let some body := declared.body then functionBody size .tab body

def decl : Decl → Writing Unit
  | .bad start _ => do
    goTo start
    literal .string "BadDecl"
  | .group _ group => declGroup group
  | .function declared => function declared

def declKeyword : Decl → Token
  | .bad .. => .illegal
  | .group _ group => group.keyword
  | .function _ => .kwFunc

def isDocumented : Decl → Bool
  | .bad .. => false
  | .group doc _ => doc.isSome
  | .function declared => declared.doc.isSome

def declExtent : Decl → Nat × Nat
  | .bad start stop => (start, stop)
  | .group _ group => (group.offset, group.stop)
  | .function declared => (declared.keyword, declared.stop)

/-- Writes declarations.  An empty line stands before one that is documented or has
another keyword than the one before, and a function over several lines ends columns. -/
def declList (previous : Token) : List Decl → Writing Unit
  | [] => return
  | first :: decls => do
    let keyword := declKeyword first
    let (start, stop) := declExtent first
    if !(← get).output.isEmpty then
      let least := if previous ≠ keyword || isDocumented first then 2 else 1
      let startsSection := keyword = .kwFunc && (← lineOf start) < (← lineOf stop)
      let _ ← breakTo (← lineOf start) least .dropped startsSection
    decl first
    declList keyword decls

def writeFile (file : File) : Writing Unit := do
  goTo file.package
  token .kwPackage
  space .blank
  goTo file.name.offset
  name file.name
  declList .illegal file.decls
  space .lineBreak
  finish

/-- The text of a file in standard form, indented by some margin. -/
def formatFile (lines : SourceLines) (margin : Int) (file : File) : Bytes :=
  let ((), printer) := (writeFile file).run { lines, margin, comments := file.comments }
  let pieces := BuildLines.gather printer.output.toList printer.expressionLines printer.oldLines
  Piece.render (align pieces)

def sourceLines (source : ParsedFile) : SourceLines :=
  { starts := source.table.starts.toArray, size := source.text.length }

/-! ## Parts of files -/

/-- Whether a byte is white space around a part of a file. -/
def isSourceSpace (code : UInt8) : Bool :=
  code = byte ' ' || code = byte '\t' || code = byte '\n' || code = byte '\r'

/-- A part of a file with the source text around it that makes a file of it. -/
structure Wrapping where
  lead : Bytes
  tail : Bytes
  depth : Nat
  /-- What stands in the formatted file before the part, without indentation, and on
  how many lines. -/
  shownLead : Bytes
  leadLines : Nat
  shownTail : Bytes

def declWrapping : Wrapping :=
  { lead := "package p;", tail := [], depth := 0, shownLead := "package p\n"
    leadLines := 1, shownTail := [] }

def stmtWrapping : Wrapping :=
  { lead := "package p; func _() \x7b", tail := "\n\n\x7d", depth := 1
    shownLead := "package p\n\nfunc _() \x7b", leadLines := 2, shownTail := "\x7d\n" }

/-- The part of a formatted file that a wrapping was put around. -/
def unwrap (wrapping : Wrapping) (margin : Int) (text : Bytes) : Bytes :=
  let inner := text.drop (wrapping.leadLines * margin.toNat + wrapping.shownLead.length)
  Text.trim (inner.take (inner.length - wrapping.shownTail.length))

/-- Formats a part of a file that was read with a wrapping around it.  White space
around the part stays, and its first line gives the indentation of all of it. -/
def formatPart (wrapping : Wrapping) (text : Bytes) (source : ParsedFile) : Bytes :=
  let space := text.takeWhile isSourceSpace
  let firstLine := ((Bytes.splitOn (byte '\n') space).getLast?).getD []
  let tabs := firstLine.countP (· == byte '\t')
  let indent := if tabs = 0 && List.elem (byte ' ') firstLine then 1 else tabs
  let margin : Int := (indent : Int) - (wrapping.depth : Int)
  let inner := unwrap wrapping margin (formatFile (sourceLines source) margin source.file)
  if inner.isEmpty then text
  else
    let before := space.take (space.length - firstLine.length)
    let after := text.drop (Bytes.dropTailWhile isSourceSpace text).length
    before ++ List.replicate indent (byte '\t') ++ inner ++ after

def complains (about : Bytes) (diagnostics : List Diagnostic) : Bool :=
  (diagnostics.head?.map fun first => Bytes.contains about first.message).getD false

def format (text : Bytes) : Except (List Diagnostic) Bytes :=
  match Source.parseFile [] text with
  | .ok source =>
    let (file, lines) := Imports.sort (sourceLines source) source.file
    .ok (formatFile lines 0 file)
  | .error diagnostics =>
    if !complains "expected 'package'" diagnostics then .error diagnostics
    else
      match Source.parseFile [] (declWrapping.lead ++ text ++ declWrapping.tail) with
      | .ok source => .ok (formatPart declWrapping text source)
      | .error diagnostics =>
        if !complains "expected declaration" diagnostics then .error diagnostics
        else
          match Source.parseFile [] (stmtWrapping.lead ++ text ++ stmtWrapping.tail) with
          | .ok source => .ok (formatPart stmtWrapping text source)
          | .error diagnostics => .error diagnostics

end Layout
end CaseExpansion
