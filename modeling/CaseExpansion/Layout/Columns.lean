import CaseExpansion.Layout.Piece

namespace CaseExpansion
namespace Layout

/-!
# Columns

Consecutive lines that have a cell in the same column share its width: one more
than the widest of its cells.  A line with fewer cells ends the column, and a
column may be split further to its right by the lines inside of it.

Empty cells at the start of a line are indentation and are written as tabs of
eight columns.  Every other cell is filled up with blanks.
-/

def tabWidth : Nat := 8

structure Cell where
  content : List Piece
  isHard : Bool

def Cell.width (cell : Cell) : Nat :=
  total (cell.content.map Piece.width)

/-- A line: its cells, the text after the last tab, and the piece that ends it. -/
structure Row where
  cells : List Cell
  tail : List Piece
  ending : List Piece

/-- The rows of a text, given the cells and the text of the row that is being
read, both in reverse. -/
def rowsFrom (cells : List Cell) (content : List Piece) : List Piece → List Row
  | [] =>
    if cells.isEmpty && content.isEmpty then [] else [⟨cells.reverse, content.reverse, []⟩]
  | .hardTab :: pieces => rowsFrom (⟨content.reverse, true⟩ :: cells) [] pieces
  | .softTab :: pieces => rowsFrom (⟨content.reverse, false⟩ :: cells) [] pieces
  | .lineBreak :: pieces => ⟨cells.reverse, content.reverse, [.lineBreak]⟩ :: rowsFrom [] [] pieces
  | .sectionBreak :: pieces =>
    ⟨cells.reverse, content.reverse, [.sectionBreak]⟩ :: rowsFrom [] [] pieces
  | piece :: pieces => rowsFrom cells (piece :: content) pieces

/-- Whether columns end after a row: at a section break. -/
def Row.endsSection (row : Row) : Bool :=
  row.ending == [.sectionBreak]

def padding (asTabs : Bool) (width : Nat) : List Piece :=
  if asTabs then List.replicate ((width + tabWidth - 1) / tabWidth) .hardTab
  else List.replicate width .blank

/-- The cells of a row, filled up to the widths of their columns.  Empty cells at
the start are indentation. -/
def writeCells (isStart : Bool) : List Nat → List Cell → List Piece
  | width :: widths, cell :: cells =>
    if cell.content.isEmpty then padding isStart width ++ writeCells isStart widths cells
    else cell.content ++ padding false (width - cell.width) ++ writeCells false widths cells
  | [], cells => cells.flatMap Cell.content
  | _, [] => []

def Row.write (widths : List Nat) (row : Row) : List Piece :=
  writeCells true widths row.cells ++ row.tail ++ row.ending

/-- The width of a column with the given cells.  A column of empty cells that no
hard tab holds open vanishes. -/
def columnWidth (cells : List Cell) : Nat :=
  if cells.all fun cell => cell.width = 0 && !cell.isHard then 0
  else (cells.map fun cell => cell.width + 1).foldl max 0

/-- The rows of a section, given the widths of the columns to the left.  The fuel
bounds the number of columns. -/
def alignRows : (fuel : Nat) → List Nat → List Row → List Piece
  | 0, widths, rows => rows.flatMap (Row.write widths)
  | fuel + 1, widths, rows =>
    let reaches (row : Row) : Bool := widths.length < row.cells.length
    (rows.splitBy fun upper lower => reaches upper == reaches lower).flatMap fun block =>
      if block.any reaches then
        let width := columnWidth (block.filterMap fun row => row.cells[widths.length]?)
        alignRows fuel (widths ++ [width]) block
      else block.flatMap (Row.write widths)

def sections (current : List Row) : List Row → List (List Row)
  | [] => if current.isEmpty then [] else [current.reverse]
  | row :: rows =>
    if row.endsSection then (row :: current).reverse :: sections [] rows
    else sections (row :: current) rows

def align (pieces : List Piece) : List Piece :=
  (sections [] (rowsFrom [] [] pieces)).flatMap fun rows =>
    alignRows ((rows.map fun row => row.cells.length).foldl max 0) [] rows

end Layout
end CaseExpansion
