import CaseExpansion.Source.Extent
import CaseExpansion.Source.LineDirective

namespace CaseExpansion
namespace Source

/-!
# Where a parser stands

The parser holds one lexeme of look-ahead.  Comments never reach the grammar:
they are gathered into groups on the way, and the group that stands directly
before or after the current lexeme is remembered as its lead or line comment.

`Reaches` says how the states of one parse follow one another.  A parse moves
from lexeme to lexeme, makes notes and complains, and it does nothing else.
-/

structure Diagnostic where
  position : Position
  message : Bytes
deriving Repr

namespace Diagnostic

def render (diagnostic : Diagnostic) : Bytes :=
  if diagnostic.position.filename.isEmpty && !diagnostic.position.isValid then diagnostic.message
  else diagnostic.position.render ++ ": " ++ diagnostic.message

/-- The order in which complaints are reported: by place, then by wording. -/
def compare (left right : Diagnostic) : Ordering :=
  (left.position.compare right.position).then (Bytes.compare left.message right.message)

/-- Complaints in the order in which they are reported. -/
def sort (diagnostics : List Diagnostic) : List Diagnostic :=
  diagnostics.mergeSort fun left right => (compare left right).isLE

end Diagnostic

structure ParseNotes where
  /-- One more than the offset of the last lexeme at which parsing resumed. -/
  syncPoint : Nat := 0
  syncCount : Nat := 0
  /-- Negative in the header of a control statement, where a brace opens a
  block and not a literal. -/
  level : Int := 0
  /-- Whether an assignment sign is a misspelled comparison. -/
  inOperand : Bool := false
  /-- Imports, newest first. -/
  imports : List Import := []

structure ParseState where
  table : LineTable
  ahead : List Lexeme
  current : Lexeme
  started : Bool := false
  /-- Finished comment groups, newest first. -/
  comments : List CommentGroup := []
  /-- The comments that end on the line before the current lexeme. -/
  lead : Option CommentGroup := none
  trail : Option CommentGroup := none
  /-- Complaints, newest first. -/
  diagnostics : List Diagnostic := []
  notes : ParseNotes := {}

namespace ParseState

def line (state : ParseState) : Nat :=
  state.table.line state.current.offset

/-- Makes the next lexeme the current one, whatever it is.  The end of the text
is never passed.  Faults of a lexeme are reported when it is reached. -/
def shift (state : ParseState) : ParseState :=
  match state.ahead with
  | [] => { state with started := true }
  | lexeme :: ahead =>
    let report (diagnostics : List Diagnostic) (fault : Fault) : List Diagnostic :=
      ⟨state.table.position fault.offset, fault.defect.message⟩ :: diagnostics
    { state with
      ahead, current := lexeme, started := true
      diagnostics := lexeme.faults.foldl report state.diagnostics }

/-! ## Comments -/

/-- A group of comments that has been taken, with its last line and the state
after it. -/
structure Taken where
  group : CommentGroup
  endLine : Nat
  state : ParseState

/-- The number of the line on which a comment ends, if it starts on the given
line. -/
def lastLine (line : Nat) (text : Bytes) : Nat :=
  line + text.count (byte '\n')

/-- Takes comments as long as each starts at most `gap` lines after the end of
the one before. -/
def commentRun (gap : Nat) : (limit endLine : Nat) → ParseState → Taken
  | 0, endLine, state => ⟨[], endLine, state⟩
  | limit + 1, endLine, state =>
    if state.current.token ≠ .comment || state.line > endLine + gap then ⟨[], endLine, state⟩
    else
      let rest := commentRun gap limit (lastLine state.line state.current.literal) state.shift
      { rest with group := ⟨state.current.offset, state.current.literal⟩ :: rest.group }

def commentGroup (gap : Nat) (state : ParseState) : Taken :=
  let taken := commentRun gap (state.ahead.length + 1) state.line state
  { taken with state := { taken.state with comments := taken.group :: taken.state.comments } }

/-- Takes the comments on the given line.  They are the line comment of the
lexeme before them if nothing else follows on the line on which they end. -/
def takeTrail (line : Nat) (state : ParseState) : ParseState :=
  if state.current.token = .comment && state.line = line then
    let taken := state.commentGroup 0
    if taken.state.line ≠ taken.endLine || [.semicolon, .eof].contains taken.state.current.token then
      { taken.state with trail := some taken.group }
    else taken.state
  else state

/-- Takes all groups of comments ahead and gives the last one. -/
def lastGroup : (limit : Nat) → Taken → Taken
  | 0, taken => taken
  | limit + 1, taken =>
    if taken.state.current.token = .comment then lastGroup limit (taken.state.commentGroup 1)
    else taken

/-- Takes all groups of comments ahead.  The last one is the lead comment of the
lexeme after it if it ends on the line before. -/
def takeLead (state : ParseState) : ParseState :=
  if state.current.token = .comment then
    let taken := lastGroup state.ahead.length (state.commentGroup 1)
    if taken.endLine + 1 = taken.state.line then { taken.state with lead := some taken.group }
    else taken.state
  else state

/-- Makes the next lexeme that is no comment the current one, and notes the
comments next to it. -/
def next (state : ParseState) : ParseState :=
  let line := if state.started then state.line else 0
  (({ state with lead := none, trail := none }.shift).takeTrail line).takeLead

/-! ## The course of a parse -/

/-- A state differs from another by notes and by further complaints. -/
def Amends (later earlier : ParseState) : Prop :=
  ∃ notes complaints, later = { earlier with
    notes, diagnostics := complaints ++ earlier.diagnostics }

inductive Reaches : ParseState → ParseState → Prop where
  | refl (state : ParseState) : Reaches state state
  | amend {start state later : ParseState} :
      Reaches start state → later.Amends state → Reaches start later
  | next {start state : ParseState} : Reaches start state → Reaches start state.next

theorem Reaches.trans {first second third : ParseState} (start : Reaches first second)
    (rest : Reaches second third) : Reaches first third := by
  induction rest with
  | refl => exact start
  | amend _ amends ih => exact ih.amend amends
  | next _ ih => exact ih.next

end ParseState
end Source
end CaseExpansion
