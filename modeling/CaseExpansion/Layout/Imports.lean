import CaseExpansion.Layout.Printer
import CaseExpansion.Source.Extent
import CaseExpansion.Text.Quoted

namespace CaseExpansion
namespace Layout

open Source (File Decl DeclGroup Spec Comment CommentGroup)

/-!
# Order of imports

Imports in parentheses are sorted by path within each run of consecutive lines, and
an import that is there twice is written once.  The sorted imports take the places
of the run, one after the other, and comments go with the import on their line.
-/

namespace Imports

structure State where
  lines : SourceLines
  comments : List CommentGroup

def path : Spec → Bytes
  | .importing _ _ path _ => (Text.Quoted.decode? path.text).getD []
  | _ => []

def name : Spec → Bytes
  | .importing _ name _ _ => (name.map Source.Ident.name).getD []
  | _ => []

def comment : Spec → Option CommentGroup
  | .importing _ _ _ comment => comment
  | _ => none

def commentText (spec : Spec) : Bytes :=
  (((comment spec).getD []).map Comment.text).flatten

def compare (left right : Spec) : Ordering :=
  (Bytes.compare (path left) (path right)).then
    ((Bytes.compare (name left) (name right)).then
      (Bytes.compare (commentText left) (commentText right)))

/-- Whether an import may go because the next one is the same. -/
def isRedundant (spec next : Spec) : Bool :=
  path spec == path next && name spec == name next && (comment spec).isNone

def moveTo (start stop : Nat) : Spec → Spec
  | .importing doc name path comment =>
    .importing doc (name.map fun name => { name with offset := start })
      { path with offset := start, stop } comment
  | spec => spec

def runs (lines : SourceLines) (specs : List Spec) : List (List Spec) :=
  specs.splitBy fun upper lower => lines.line lower.start ≤ lines.line upper.stop + 1

/-- A comment of a run: the import it goes with, by number, and whether it stands
before it. -/
structure Attachment where
  index : Nat
  isBefore : Bool
  group : CommentGroup

/-- Attaches comments to imports: to the last import that starts before them, or to
the next one if they stand on the line after that. -/
def attach (lines : SourceLines) (places : Array (Nat × Nat)) (index : Nat) :
    List CommentGroup → List Attachment
  | [] => []
  | group :: groups =>
    let later := (List.range places.size).filter fun other =>
      index < other && (places.getD other (0, 0)).1 ≤ group.start
    let index := (later.getLast?).getD index
    let start := (places.getD index (0, 0)).1
    if index = 0 && group.start < start then ⟨index, true, group⟩ :: attach lines places index groups
    else if index + 1 < places.size && lines.line start + 1 = lines.line group.start then
      ⟨index + 1, true, group⟩ :: attach lines places (index + 1) groups
    else ⟨index, false, group⟩ :: attach lines places index groups

/-- Leaves out redundant imports, and joins their lines with the next ones. -/
def dedup (lines : SourceLines) : List (Nat × Spec) → List (Nat × Spec) × SourceLines
  | [] => ([], lines)
  | [last] => ([last], lines)
  | (index, spec) :: next :: rest =>
    if isRedundant spec next.2 then
      dedup (lines.join (lines.line spec.start).toNat) (next :: rest)
    else
      let (kept, lines) := dedup lines (next :: rest)
      ((index, spec) :: kept, lines)

def extent (lines : SourceLines) (start stop : Nat) : Nat × Nat :=
  let first := (lines.line start).toNat
  let last := (lines.line stop).toNat
  (lines.starts.getD (first - 1) 0,
    if last = lines.starts.size then stop else lines.starts.getD last stop)

def sortRun (state : State) (specs : List Spec) : List Spec × State :=
  if specs.length ≤ 1 then (specs, state)
  else
    let places := (specs.map fun spec => (spec.start, spec.stop)).toArray
    let (low, high) := extent state.lines (places.getD 0 (0, 0)).1
      (places.getD (places.size - 1) (0, 0)).2
    let reached := state.comments.takeWhile fun group => group.stop < high
    let before := reached.takeWhile fun group => group.start < low
    let inside := reached.drop before.length
    let after := state.comments.drop reached.length
    let attached := attach state.lines places 0 inside
    let sorted := (List.zip (List.range specs.length) specs).mergeSort
      fun left right => compare left.2 right.2 != .gt
    let (kept, lines) := dedup state.lines sorted
    let placed := List.zip kept places.toList
    let move (attachment : Attachment) : CommentGroup :=
      match placed.find? fun ((index, _), _) => index == attachment.index with
      | some (_, start, stop) =>
        attachment.group.map fun comment =>
          { comment with offset := if attachment.isBefore then start - 1 else stop }
      | none => attachment.group
    let moved := (attached.map move).mergeSort fun left right => left.start ≤ right.start
    (placed.map fun ((_, spec), start, stop) => moveTo start stop spec,
      { lines, comments := before ++ moved ++ after })

def sortRuns (state : State) : List (List Spec) → List Spec × State
  | [] => ([], state)
  | run :: rest =>
    let (sorted, state) := sortRun state run
    let (others, state) := sortRuns state rest
    (sorted ++ others, state)

/-- Joins lines with their next ones, from a line downwards. -/
def joinDown (lines : SourceLines) (line : Nat) : (count : Nat) → SourceLines
  | 0 => lines
  | count + 1 => joinDown (lines.join line) (line - 1) count

/-- Takes out the empty lines before the closing parenthesis of a group. -/
def closeUp (lines : SourceLines) (specs : List Spec) (rparen : Nat) : SourceLines :=
  match specs.getLast? with
  | some last =>
    let lastLine := (lines.line last.start).toNat
    let closingLine := (lines.line rparen).toNat
    joinDown lines (closingLine - 1) (closingLine - (lastLine + 1))
  | none => lines

def sortDecls (state : State) : List Decl → List Decl × State
  | .group doc group :: decls =>
    if group.keyword ≠ .kwImport then (.group doc group :: decls, state)
    else
      match group.lparen with
      | none =>
        let (decls, state) := sortDecls state decls
        (.group doc group :: decls, state)
      | some _ =>
        let (specs, state) := sortRuns state (runs state.lines group.specs)
        let lines := closeUp state.lines specs (group.rparen.getD 0)
        let (decls, state) := sortDecls { state with lines } decls
        (.group doc { group with specs } :: decls, state)
  | decls => (decls, state)

def sort (lines : SourceLines) (file : File) : File × SourceLines :=
  let (decls, state) := sortDecls { lines, comments := file.comments } file.decls
  ({ file with decls, comments := state.comments }, state.lines)

end Imports
end Layout
end CaseExpansion
