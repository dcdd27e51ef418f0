import CaseExpansion.Build.Constraint
import CaseExpansion.Layout.Piece

namespace CaseExpansion
namespace Layout

open Build (Constraint)

/-!
# Build constraints in a formatted file

All lines with build constraints are brought together, before the package clause and
after the comments at the top of the file, with an empty line after them.  If there is
one constraint in the expression style, it decides: lines in the old style are written
anew from it.  Lines in the old style alone get a line in the expression style.
-/

namespace BuildLines

/-! ## The old style of a constraint -/

def pushNot (negates : Bool) : Constraint → Constraint
  | .tag name => if negates then .not (.tag name) else .tag name
  | .not inner => pushNot (!negates) inner
  | .and left right =>
    if negates then .or (pushNot negates left) (pushNot negates right)
    else .and (pushNot negates left) (pushNot negates right)
  | .or left right =>
    if negates then .and (pushNot negates left) (pushNot negates right)
    else .or (pushNot negates left) (pushNot negates right)

def conjuncts : Constraint → List Constraint
  | .and left right => conjuncts left ++ conjuncts right
  | constraint => [constraint]

def disjuncts : Constraint → List Constraint
  | .or left right => disjuncts left ++ disjuncts right
  | constraint => [constraint]

def isLiteral : Constraint → Bool
  | .tag _ => true
  | .not _ => true
  | _ => false

/-- The lines of a constraint in the old style, which allows for conjunctions of
disjunctions of conjunctions only. -/
def oldLines (constraint : Constraint) : List Bytes :=
  let parts := (conjuncts (pushNot false constraint)).map fun part => (disjuncts part).map conjuncts
  if parts.any fun alternatives => alternatives.any fun literals => !literals.all isLiteral then
    ["// +build error: expression too complex for // +build lines"]
  else
    let parts :=
      if parts.all fun alternatives => alternatives.length = 1 then [[parts.flatMap List.flatten]]
      else parts
    parts.map fun alternatives =>
      "// +build" ++ alternatives.flatMap fun literals =>
        byte ' ' :: Bytes.joinWith "," (literals.map Constraint.render)

/-! ## Lines of pieces -/

/-- The number of pieces up to and with the next line break. -/
def lineLength (pieces : List Piece) : Nat :=
  let text := pieces.takeWhile fun piece => !piece.isBreak
  if text.length < pieces.length then text.length + 1 else text.length

/-- The number of pieces in front of which constraints may stand at the latest: those
up to the last empty line among the comments at the top.  Every step takes a line. -/
def latestPlace : (fuel position place : Nat) → List Piece → Nat
  | 0, _, place, _ => place
  | fuel + 1, position, place, pieces =>
    let rest := pieces.dropWhile Piece.isSpace
    let isComment := match rest with
      | .text text :: _ => Bytes.startsWith "//" text
      | _ => false
    let after := if isComment then rest.dropWhile fun piece => !piece.isBreak else rest
    match after with
    | [] => place
    | piece :: after =>
      if !piece.isBreak then place
      else
        let position := position + (pieces.length - after.length)
        latestPlace fuel position (if isComment then place else position) after

def endsBlank (pieces : List Piece) : Bool :=
  match pieces.reverse with
  | [] => true
  | last :: previous :: _ => last.isBreak && previous.isBreak
  | _ => false

/-- Appends lines without giving rise to a second empty line. -/
def appendLines (before after : List Piece) : List Piece :=
  match after with
  | first :: rest => if first.isBreak && endsBlank before then before ++ rest else before ++ after
  | [] => before

def textAt (pieces : List Piece) (index : Nat) : Bytes :=
  match pieces[index]? with
  | some (.text text) => text
  | _ => []

def lineAt (pieces : List Piece) (index : Nat) : List Piece :=
  (pieces.drop index).take (lineLength (pieces.drop index))

/-- The pieces from an index on without the lines that start at the given indices. -/
def withoutLines (pieces : List Piece) (start : Nat) (result : List Piece) : List Nat → List Piece
  | [] => appendLines result (pieces.drop start)
  | index :: indices =>
    if index < start then withoutLines pieces start result indices
    else
      withoutLines pieces (index + (lineAt pieces index).length)
        (appendLines result ((pieces.drop start).take (index - start))) indices

/-- The constraint that decides, if there is one. -/
def deciding (pieces : List Piece) (expressions old : List Nat) : Option Constraint :=
  match expressions with
  | [] =>
    match old.mapM fun index => (Constraint.parse (textAt pieces index)).toOption with
    | some (first :: rest) => some (rest.foldl .and first)
    | _ => none
  | [index] => (Constraint.parse (textAt pieces index)).toOption
  | _ => none

def lineBlock (pieces : List Piece) (expressions old : List Nat) : List Piece :=
  match deciding pieces expressions old with
  | none => (expressions ++ old).flatMap (lineAt pieces) ++ [.lineBreak]
  | some constraint =>
    let lines := ("//go:build " ++ constraint.render) :: if old.isEmpty then [] else oldLines constraint
    lines.flatMap (fun line => [.text line, .lineBreak]) ++ [.lineBreak]

/-- Brings the lines with constraints together, given the indices of the pieces with
constraints in either style. -/
def gather (pieces : List Piece) (expressions old : List Nat) : List Piece :=
  if expressions.isEmpty && old.isEmpty then pieces
  else
    let latest := latestPlace (pieces.length + 1) 0 0 pieces
    let place :=
      match expressions.head?, old.head? with
      | some first, other =>
        if first < latest then first
        else match other with
          | some first => min first latest
          | none => latest
      | none, some first => min first latest
      | none, none => latest
    let indices := (expressions ++ old).mergeSort
    let after := withoutLines pieces place [] indices
    let after := if !after.isEmpty && endsBlank after then after.dropLast else after
    pieces.take place ++ lineBlock pieces expressions old ++ after

end BuildLines
end Layout
end CaseExpansion
