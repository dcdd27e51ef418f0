import CaseExpansion.Template.Read

namespace CaseExpansion

open Source

/-!
# Edits

An edit replaces a range of a text.  Edits are applied together, from left to
right, and all offsets refer to the text as it was before.
-/

structure Edit where
  start : Nat
  stop : Nat
  text : Bytes
deriving DecidableEq, Repr

namespace Edit

/-- The part of a text between two offsets, if they are in order and inside of
it. -/
def range? (source : Bytes) (start stop : Nat) : Option Bytes :=
  if start ≤ stop ∧ stop ≤ source.length then some (Bytes.slice source start stop) else none

/-- Applies edits that are in order of their starts, after the offset up to
which the source has been used.  Edits that overlap, or reach outside of the
text, have no result. -/
def splice? (source : Bytes) : (used : Nat) → List Edit → Option Bytes
  | used, [] => range? source used source.length
  | used, edit :: edits => do
    let kept ← range? source used edit.start
    let rest ← splice? source edit.stop edits
    return kept ++ edit.text ++ rest

def sort (edits : List Edit) : List Edit :=
  edits.mergeSort fun left right => left.start ≤ right.start

def applyAll? (source : Bytes) (edits : List Edit) : Option Bytes :=
  splice? source 0 (sort edits)

end Edit

/-!
## The guard of a template file

A template file carries a build constraint that requires a tag, so that ordinary
builds leave it out.  The generated file carries the constraint with the tag negated.
Constraints in the old style are dropped, since they would contradict it.
-/

namespace Guard

def headComments (file : File) : List Comment :=
  (file.comments.takeWhile fun group => group.start < file.package).flatten

/-- The change to a comment that is a build constraint, and whether the constraint
mentions the tag. -/
def commentEdit (place : Nat → Position) (tag : Bytes) (comment : Comment) :
    Except Error (Option Edit × Bool) :=
  if Build.Constraint.isExpressionLine comment.text then
    match Build.Constraint.parse comment.text with
    | .error error => .error ⟨place comment.offset, .invalidConstraint error⟩
    | .ok constraint =>
      match constraint.negate tag with
      | (negated, true) =>
        .ok (some ⟨comment.offset, comment.stop, "//go:build " ++ negated.render⟩, true)
      | (_, false) => .ok (none, false)
  else if Build.Constraint.isOldLine comment.text then
    .ok (some ⟨comment.offset, comment.stop, []⟩, false)
  else .ok (none, false)

/-- The changes that turn the guard of a template file into that of the generated
file.  A file without a guard is rejected, and so is the first constraint that cannot
be read. -/
def edits (source : ParsedFile) (tag : Bytes) : Except Error (List Edit) := do
  let changes ← (headComments source.file).mapM (commentEdit source.place tag)
  if changes.any Prod.snd then return changes.filterMap Prod.fst
  else throw ⟨source.place source.file.package, .missingTag tag⟩

end Guard

end CaseExpansion
