import CaseExpansion.Text.Utf8

namespace CaseExpansion
namespace Layout

/-!
# Laid-out text

A formatted file is a sequence of pieces: text that is written as it stands, and
the white space between.  White space is kept symbolic as long as columns may
still move.  Tabs separate the cells of a line; a hard tab holds its column open
even where all of its cells are empty.  A section break is a line break that also
ends all columns.
-/

inductive Piece where
  | text (text : Bytes)
  | blank
  | hardTab
  | softTab
  | lineBreak
  | sectionBreak
deriving DecidableEq, Repr, Inhabited

def total (numbers : List Nat) : Nat :=
  numbers.foldl (· + ·) 0

namespace Piece

def isBreak : Piece → Bool
  | lineBreak | sectionBreak => true
  | _ => false

def isSpace : Piece → Bool
  | blank | hardTab | softTab => true
  | _ => false

/-- The number of columns that the piece takes within a cell. -/
def width : Piece → Nat
  | text shown => (Text.Utf8.chars shown).length
  | blank => 1
  | _ => 0

/-- Writes pieces in chunks.  Space is written only once a text follows it, so no
line ends in space. -/
def chunks (space : Bytes) : List Piece → List Bytes
  | [] => []
  | text shown :: pieces => space :: shown :: chunks [] pieces
  | blank :: pieces => chunks (space ++ [byte ' ']) pieces
  | hardTab :: pieces => chunks (space ++ [byte '\t']) pieces
  | softTab :: pieces => chunks (space ++ [byte '\t']) pieces
  | lineBreak :: pieces => [byte '\n'] :: chunks [] pieces
  | sectionBreak :: pieces => [byte '\n'] :: chunks [] pieces

/-- The text of pieces, without space at the ends of lines. -/
def render (pieces : List Piece) : Bytes :=
  (chunks [] pieces).flatten

end Piece
end Layout
end CaseExpansion
