import CaseExpansion.Build.Constraint
import CaseExpansion.Layout.BlockComment
import CaseExpansion.Layout.DocComment
import CaseExpansion.Layout.Piece

namespace CaseExpansion
namespace Layout

open Source (Token Comment CommentGroup)

/-!
# Writing tokens and comments

A formatter writes tokens and asks for white space between them.  White space
waits until the next token is written, since comments that stand before that token
in the source come first and take as much of the waiting white space as suits them.

Where a token stands in the source decides about the line breaks around it: empty
lines are kept, but never two in a row.  The printer therefore follows two places,
the one in the source that corresponds to what was written last, and the one in the
output.
-/

/-- A place in a text, with line and column counted from one.  A line of zero is no
place. -/
structure Spot where
  offset : Int := 0
  line : Int := 0
  column : Int := 0
deriving DecidableEq, Inhabited

def Spot.atEnd : Spot :=
  { offset := 1073741824, line := 1073741824, column := 0 }

structure SourceLines where
  starts : Array Nat
  size : Nat

namespace SourceLines

/-- The number of the last of the lines from `low` up to `high` that starts at or
before an offset.  Every step halves the range. -/
def search (lines : SourceLines) (offset : Nat) : (fuel low high : Nat) → Nat
  | 0, low, _ => low
  | fuel + 1, low, high =>
    if high ≤ low + 1 then low
    else
      let middle := (low + high) / 2
      if lines.starts.getD middle 0 ≤ offset then search lines offset fuel middle high
      else search lines offset fuel low middle

def spot (lines : SourceLines) (offset : Nat) : Spot :=
  if offset > lines.size then {}
  else
    let index := lines.search offset (lines.starts.size + 1) 0 lines.starts.size
    { offset, line := index + 1, column := offset - lines.starts.getD index 0 + 1 }

def line (lines : SourceLines) (offset : Nat) : Int :=
  (lines.spot offset).line

/-- The lines of a text after a line was joined with the next one. -/
def join (lines : SourceLines) (line : Nat) : SourceLines :=
  { lines with starts := lines.starts.eraseIdxIfInBounds line }

end SourceLines

/-- White space that waits for the next token.  What is dropped keeps its place. -/
inductive Space where
  | blank | tab | lineBreak | sectionBreak | indent | unindent | dropped
deriving DecidableEq, Inhabited

def Space.isBreak : Space → Bool
  | lineBreak | sectionBreak => true
  | _ => false

structure Printer where
  lines : SourceLines
  margin : Int := 0
  /-- Whether numbers are written in their standard form. -/
  normalizes : Bool := true
  output : Array Piece := #[]
  indent : Nat := 0
  /-- How deep the printer is inside of composite literals. -/
  level : Nat := 0
  noExtraBlank : Bool := false
  noExtraBreak : Bool := false
  endsColumns : Bool := false
  endsStatement : Bool := false
  /-- The last token, `illegal` after white space. -/
  lastToken : Token := .illegal
  /-- The opening token just before the last one, or `illegal`. -/
  previousOpen : Token := .illegal
  waiting : List Space := []
  /-- The pieces that hold build constraints, in both styles. -/
  expressionLines : List Nat := []
  oldLines : List Nat := []
  /-- The place in the source, the place in the output, and the place in the source
  after the last token. -/
  place : Spot := { line := 1, column := 1 }
  written : Spot := { line := 1, column := 1 }
  last : Spot := {}
  /-- The lines of the output on which marked constructs start, and the mark that
  waits for its token. -/
  marks : Array Int := #[]
  waitingMark : Option Nat := none
  comments : List CommentGroup := []

abbrev Writing := StateM Printer

namespace Writing

def spot (offset : Nat) : Writing Spot := do
  return (← get).lines.spot offset

def lineOf (offset : Nat) : Writing Int := do
  return (← get).lines.line offset

def goTo (offset : Nat) : Writing Unit := do
  let spot ← spot offset
  if spot.line > 0 then modify fun printer => { printer with place := spot }

def writeSpace (piece : Piece) (count : Nat) : Writing Unit :=
  modify fun printer =>
    let piece :=
      if printer.endsColumns then
        if piece.isBreak then .sectionBreak else .blank
      else piece
    let move (spot : Spot) (offset : Int) : Spot :=
      if piece.isBreak then { offset, line := spot.line + count, column := 1 }
      else { spot with offset, column := spot.column + count }
    { printer with
      endsColumns := printer.endsColumns && !piece.isBreak
      output := printer.output ++ Array.replicate count piece
      place := move printer.place (printer.place.offset + count)
      written := move printer.written printer.written.offset }

def writeIndent : Writing Unit :=
  modify fun printer =>
    let count := printer.margin + (printer.indent : Int)
    { printer with
      output := printer.output ++ Array.replicate count.toNat .hardTab
      place := { printer.place with
        offset := printer.place.offset + count, column := printer.place.column + count }
      written := { printer.written with column := printer.written.column + count } }

/-- Whether a byte ends a line inside of a text: a line feed or a form feed. -/
def endsLine (code : UInt8) : Bool :=
  code = byte '\n' || code = byte '\x0c'

def advance (text : Bytes) (spot : Spot) : Spot :=
  let breaks := text.countP endsLine
  let offset := spot.offset + text.length
  if breaks = 0 then { spot with offset, column := spot.column + text.length }
  else
    let lastLine := text.reverse.takeWhile fun code => !endsLine code
    { offset, line := spot.line + breaks, column := lastLine.length + 1 }

/-- Writes a text that stands at a place of the source.  A line break in it ends the
columns of the current line. -/
def writeText (place : Spot) (text : Bytes) : Writing Unit := do
  if (← get).written.column = 1 then writeIndent
  modify fun printer =>
    let start := if place.line > 0 then place else printer.place
    let stop := advance text start
    { printer with
      output := printer.output.push (.text text)
      endsColumns := printer.endsColumns || text.any endsLine
      place := stop
      last := stop
      written := { advance text printer.written with offset := printer.written.offset } }

/-- Writes white space that waited.  A line break just before the end of an
indentation follows that end, as a section break: so a label stands further left
than the lines around it. -/
def settle : (held : Option Piece) → List Space → Writing Unit
  | held, [] => writeHeld held
  | held, .unindent :: rest => do
    modify fun printer => { printer with indent := printer.indent - 1 }
    settle (held.map fun _ => .sectionBreak) rest
  | held, .indent :: rest => do
    writeHeld held
    modify fun printer => { printer with indent := printer.indent + 1 }
    settle none rest
  | held, .dropped :: rest => do
    writeHeld held
    settle none rest
  | held, .blank :: rest => do
    writeHeld held
    writeSpace .blank 1
    settle none rest
  | held, .tab :: rest => do
    writeHeld held
    writeSpace .softTab 1
    settle none rest
  | held, .lineBreak :: rest => do
    writeHeld held
    settle (some .lineBreak) rest
  | held, .sectionBreak :: rest => do
    writeHeld held
    settle (some .sectionBreak) rest
where
  writeHeld : Option Piece → Writing Unit
    | some piece => writeSpace piece 1
    | none => pure ()

def settleFirst (count : Nat) : Writing Unit := do
  let waiting := (← get).waiting
  settle none (waiting.take count)
  modify fun printer => { printer with waiting := waiting.drop count }

def settleAll : Writing Unit := do
  settleFirst (← get).waiting.length

/-! ## Comments -/

/-- Whether a group of comments takes more than one line, or ends one. -/
def hasBreak (lines : SourceLines) (group : CommentGroup) : Bool :=
  match group with
  | [] => false
  | first :: _ =>
    group.any fun comment =>
      lines.line comment.offset ≠ lines.line first.offset || Bytes.startsWith "//" comment.text
        || List.elem (byte '\n') comment.text

/-- Whether a group of comments is to be written before a place.  One that breaks
the line has to wait where that would end a statement. -/
def comesBefore (printer : Printer) (next : Spot) (group : CommentGroup) : Bool :=
  (group.start : Int) < next.offset && (!printer.endsStatement || !hasBreak printer.lines group)

def commentBefore (next : Spot) : Writing Bool := do
  let printer ← get
  return printer.comments.head?.any (comesBefore printer next)

def commentSizeBefore (next : Spot) : Writing Nat := do
  let printer ← get
  return total ((printer.comments.takeWhile (comesBefore printer next)).flatten.map fun comment =>
    comment.text.length)

/-- At most one empty line is kept, which is two line breaks. -/
def limitBreaks (count : Int) : Nat :=
  min count.toNat 2

/-- Waiting white space before a comment on the line of the last token: blanks go,
and tabs and indentation are used, up to the first of any other kind.  The number of
spaces to write is zero if there is no other kind. -/
def spaceBeforeTail (waiting : List Space) : List Space × Nat × Bool :=
  let used := waiting.takeWhile fun space => [Space.blank, .tab, .indent].elem space
  let rest := waiting.drop used.length
  (used.map (fun space => if space = .blank then .dropped else space) ++ rest,
    if rest.isEmpty then 0 else used.length, used.elem .tab)

/-- Waiting white space before a comment on a line of its own.  Tabs and blanks go.
The end of an indentation is used if it does not close a block, that is if another
end follows or the comment is aligned with a token that closes nothing.  The first
line break goes, which is told as well. -/
def spaceBeforeLine (isAligned : Bool) (index : Nat) : List Space → List Space × Nat × Bool
  | [] => ([], 0, false)
  | .blank :: rest | .tab :: rest =>
    let (rest, count, drops) := spaceBeforeLine isAligned (index + 1) rest
    (.dropped :: rest, count, drops)
  | .indent :: rest =>
    let (rest, count, drops) := spaceBeforeLine isAligned (index + 1) rest
    (.indent :: rest, count, drops)
  | .unindent :: rest =>
    if rest.head? == some .unindent || isAligned then
      let (rest, count, drops) := spaceBeforeLine isAligned (index + 1) rest
      (.unindent :: rest, count, drops)
    else (.unindent :: rest, index, false)
  | .lineBreak :: rest | .sectionBreak :: rest => (.dropped :: rest, index, true)
  | .dropped :: rest => (.dropped :: rest, index, false)

def isLineComment (comment : Comment) : Bool :=
  Bytes.startsWith "//" comment.text

/-- Writes the white space before a comment.  `previous` is the comment before it in
the same run, and `next` the place of the token after all comments. -/
def writeBeforeComment (spot next : Spot) (previous : Option Comment) (token : Token) :
    Writing Unit := do
  let printer ← get
  if printer.output.isEmpty then return
  if spot.line = printer.last.line && !previous.any isLineComment then
    let mut isSeparated := false
    if previous.isNone then
      let (waiting, count, hasTab) := spaceBeforeTail printer.waiting
      set { printer with waiting }
      settleFirst count
      isSeparated := hasTab
    if !isSeparated then
      writeSpace (if spot.line = next.line then .blank else .hardTab) 1
  else
    let isAligned := token ≠ .rbrace && spot.column = next.column
    let (waiting, count, drops) := spaceBeforeLine isAligned 0 printer.waiting
    set { printer with waiting }
    settleFirst count
    let printer ← get
    let breaks : Int := if printer.last.line > 0 then max 0 (spot.line - printer.last.line) else 0
    let breaks := if printer.indent = 0 && drops && previous.isNone then breaks + 1 else breaks
    let breaks := if breaks = 0 && previous.any isLineComment then 1 else breaks
    if breaks > 0 then writeSpace .sectionBreak (limitBreaks breaks)

def writeLines : List Bytes → Writing Unit
  | [] => pure ()
  | line :: lines => do
    writeSpace .sectionBreak 1
    if !line.isEmpty then writeText (← get).place (Text.trimRight line)
    writeLines lines

/-- Writes a comment.  One that redirects positions keeps its place at the start of
the line. -/
def writeComment (comment : Comment) : Writing Unit := do
  let spot ← spot comment.offset
  let indent := (← get).indent
  if Bytes.startsWith "//line " comment.text && spot.column = 1 then
    modify fun printer => { printer with indent := 0 }
  if isLineComment comment then
    modify fun printer =>
      if Build.Constraint.isExpressionLine comment.text then
        { printer with expressionLines := printer.expressionLines ++ [printer.output.size] }
      else if Build.Constraint.isOldLine comment.text then
        { printer with oldLines := printer.oldLines ++ [printer.output.size] }
      else printer
    writeText spot (Text.trimRight comment.text)
  else
    let lines := Bytes.splitOn (byte '\n') comment.text
    let lines := match lines with
      | first :: rest =>
        if spot.column = 1 && indent > 0 then first :: rest.map ("   " ++ ·) else lines
      | [] => []
    match BlockComment.unindent lines with
    | first :: rest => do
      writeText spot (Text.trimRight first)
      writeLines rest
    | [] => pure ()
  modify fun printer => { printer with indent }

/-- Waiting white space after comments: blanks and tabs go, and all line breaks but
one, if one is needed.  Tells whether a line break stays and whether a section break
went. -/
def spaceAfter (needsBreak : Bool) : List Space → List Space × Bool × Bool
  | [] => ([], false, false)
  | .blank :: rest | .tab :: rest =>
    let (rest, keeps, drops) := spaceAfter needsBreak rest
    (.dropped :: rest, keeps, drops)
  | .lineBreak :: rest =>
    if needsBreak then
      let (rest, _, drops) := spaceAfter false rest
      (.lineBreak :: rest, true, drops)
    else
      let (rest, keeps, drops) := spaceAfter needsBreak rest
      (.dropped :: rest, keeps, drops)
  | .sectionBreak :: rest =>
    if needsBreak then
      let (rest, _, drops) := spaceAfter false rest
      (.sectionBreak :: rest, true, drops)
    else
      let (rest, keeps, _) := spaceAfter needsBreak rest
      (.dropped :: rest, keeps, true)
  | space :: rest =>
    let (rest, keeps, drops) := spaceAfter needsBreak rest
    (space :: rest, keeps, drops)

/-- Writes the white space after comments.  Tells whether a line break was written
and whether a section break was left out. -/
def writeAfterComments (needsBreak : Bool) : Writing (Bool × Bool) := do
  let (waiting, keeps, drops) := spaceAfter needsBreak (← get).waiting
  modify fun printer => { printer with waiting }
  settleAll
  if needsBreak && !keeps then
    writeSpace .lineBreak 1
    return (true, drops)
  return (keeps, drops)

/-- Writes the comments of a group, and gives the last of them. -/
def writeGroup (next : Spot) (token : Token) (previous : Option Comment) :
    List Comment → Writing (Option Comment)
  | [] => pure previous
  | comment :: comments => do
    writeBeforeComment (← spot comment.offset) next previous token
    writeComment comment
    writeGroup next token (some comment) comments

/-- Whether the last comment asks for a line break, or only for a blank, before a
token on its line.  Closing brackets and commas follow at once. -/
def finishComments (next : Spot) (token : Token) (last : Comment) : Writing (Bool × Bool) := do
  let printer ← get
  let isLine := isLineComment last
  let mut needsBreak := false
  if !printer.noExtraBlank && !isLine && printer.lines.line last.offset = next.line
      && token ≠ .comma && (token ≠ .rparen || printer.previousOpen = .lparen)
      && (token ≠ .rbrack || printer.previousOpen = .lbrack) then
    if printer.waiting.any Space.isBreak && !printer.noExtraBreak && printer.level = 0 then
      needsBreak := true
    else writeSpace .blank 1
  if isLine || token = .eof || (token = .rbrace && !printer.noExtraBreak) then needsBreak := true
  writeAfterComments needsBreak

/-- Writes the comments before a token.  A comment at the start of a line that a token
follows on the next line documents it and is written in standard form, unless what was
written last is indented: indentation that still waits does not count. -/
def writeComments (next : Spot) (token : Token) (last : Option Comment) :
    List CommentGroup → Writing (Bool × Bool)
  | [] => finish last
  | group :: groups => do
    let printer ← get
    if !comesBefore printer next group then finish last
    else
      let isDoc := printer.lastToken ≠ .kwImport && printer.indent = 0
        && (printer.lines.spot group.start).column = 1 && printer.lines.spot (group.stop + 1) = next
      let shown := if isDoc then DocComment.format group else group
      if shown.isEmpty then
        writeBeforeComment (← spot group.start) next last token
        modify fun printer => { printer with place := next, last := next, comments := groups }
        writeAfterComments false
      else
        let last ← writeGroup next token last shown
        if isDoc then
          let stop ← spot group.stop
          modify fun printer => { printer with place := stop, last := stop }
        modify fun printer => { printer with comments := groups }
        writeComments next token (if isDoc then group.getLast? else last) groups
where
  finish : Option Comment → Writing (Bool × Bool)
    | some last => finishComments next token last
    | none => pure (false, false)

/-- Writes what comes before a token: comments and white space.  Tells whether a line
break was written and whether a section break was left out. -/
def flush (next : Spot) (token : Token) : Writing (Bool × Bool) := do
  if ← commentBefore next then
    writeComments next token none (← get).comments
  else
    settleAll
    return (false, false)

/-! ## Tokens -/

def noteOpening : Writing Unit :=
  modify fun printer =>
    match printer.lastToken with
    | .illegal => printer
    | .lparen | .lbrack => { printer with previousOpen := printer.lastToken }
    | _ => { printer with previousOpen := .illegal }

def waitingLimit : Nat := 16

def space (space : Space) : Writing Unit := do
  noteOpening
  if space = .dropped then return
  if (← get).waiting.length = waitingLimit then settleAll
  modify fun printer =>
    { printer with
      waiting := printer.waiting ++ [space]
      endsStatement := printer.endsStatement && !space.isBreak
      lastToken := .illegal }

def spaces : List Space → Writing Unit
  | [] => pure ()
  | first :: rest => do
    space first
    spaces rest

/-- Writes a word: a token with its text.  The empty lines before it in the source
are kept after a comment unless a line break would end the statement. -/
def word (token : Token) (text : Bytes) (endsStatement : Bool) : Writing Unit := do
  modify fun printer => { printer with lastToken := token }
  let next := (← get).place
  let (wroteBreak, droppedSection) ← flush next token
  let printer ← get
  let mut endsStatement := endsStatement
  if !printer.endsStatement then
    let breaks := limitBreaks (next.line - printer.place.line)
    let breaks := if wroteBreak && breaks = 2 then 1 else breaks
    if breaks > 0 then
      writeSpace (if droppedSection then .sectionBreak else .lineBreak) breaks
      endsStatement := false
  modify fun printer =>
    match printer.waitingMark with
    | some mark =>
      { printer with
        marks := printer.marks.setIfInBounds mark printer.written.line, waitingMark := none }
    | none => printer
  writeText next text
  modify fun printer => { printer with endsStatement }

/-- Whether two tokens would read as another one if nothing stood between. -/
def mayCombine (previous : Token) (next : Option UInt8) : Bool :=
  match previous with
  | .int => next == some (byte '.')
  | .add => next == some (byte '+')
  | .sub => next == some (byte '-')
  | .quo => next == some (byte '*')
  | .lss => next == some (byte '-') || next == some (byte '<')
  | .and => next == some (byte '&') || next == some (byte '^')
  | _ => false

def endsStatement : Token → Bool
  | .kwBreak | .kwContinue | .kwFallthrough | .kwReturn | .inc | .dec | .rparen | .rbrack
  | .rbrace => true
  | _ => false

def token (token : Token) : Writing Unit := do
  noteOpening
  let text := token.spelling
  if mayCombine (← get).lastToken text.head? then
    modify fun printer => { printer with waiting := [.blank] }
  word token text (endsStatement token)

def name (ident : Source.Ident) : Writing Unit := do
  noteOpening
  word .ident ident.name true

def literal (token : Token) (text : Bytes) : Writing Unit := do
  noteOpening
  word token text true

/-- Marks the construct that starts with the next token. -/
def mark : Writing Nat := do
  let printer ← get
  set { printer with marks := printer.marks.push 0, waitingMark := some printer.marks.size }
  return printer.marks.size

/-- The number of line breaks written since a marked construct started. -/
def linesSince (mark : Nat) (extra : Nat) : Writing Int := do
  let printer ← get
  return printer.written.line - (printer.marks.getD mark 0 + extra)

/-- Asks for line breaks up to a source line: as many as there are in the source, but
at least `least`, and at most two.  The first may end the section.  Returns how many
there are, where the end of a section counts as two. -/
def breakTo (line : Int) (least : Nat) (before : Space) (newSection : Bool) : Writing Nat := do
  let count := max (limitBreaks (line - (← get).place.line)) least
  if count = 0 then return 0
  space before
  if newSection then
    space .sectionBreak
    spaces (List.replicate (count - 1) .lineBreak)
    return count + 1
  spaces (List.replicate count .lineBreak)
  return count

def finish : Writing Unit := do
  modify fun printer => { printer with endsStatement := false }
  let _ ← flush .atEnd .eof
  return ()

/-- A printer for a part of the same text on its own, without comments. -/
def fresh (printer : Printer) : Printer :=
  { lines := printer.lines, normalizes := false }

/-- The size of what an action writes on its own, if it fits in one line of the given
size, and a larger number otherwise. -/
def measure (limit : Nat) (indent : Nat) (action : Writing Unit) : Writing Nat := do
  let printer ← get
  let ((), printer) := (do action; finish : Writing Unit).run { fresh printer with indent }
  let text := Piece.render printer.output.toList
  return if text.length ≤ limit && !text.any endsLine then text.length else limit + 1

end Writing
end Layout
end CaseExpansion
