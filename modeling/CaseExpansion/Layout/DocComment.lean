import CaseExpansion.Layout.DocText
import CaseExpansion.Source.Tree

namespace CaseExpansion
namespace Layout

open Source (Comment CommentGroup)

/-!
# Documentation comments

The text of a documentation comment has blocks: paragraphs, headings, lists and
preformatted text, which is indented.  Formatting writes every block in one way
and separates blocks by empty lines.  Definitions of links are gathered at the
end, those that are used before those that are not.

Lines that are directives to tools are no part of the text.  They follow it, after
an empty comment line.
-/

namespace DocComment

/-! ## Lines -/

def leadingSpace (line : Bytes) : Bytes :=
  line.takeWhile fun code => code = byte ' ' || code = byte '\t'

def isIndented (line : Bytes) : Bool :=
  !(leadingSpace line).isEmpty

def commonStart : Bytes → Bytes → Bytes
  | left :: lefts, right :: rights => if left = right then left :: commonStart lefts rights else []
  | _, _ => []

def trimLines (lines : List Bytes) : List Bytes :=
  ((lines.dropWhile List.isEmpty).reverse.dropWhile List.isEmpty).reverse

/-- Lines without the indentation they have in common, and without empty lines at
either end. -/
def unindent (lines : List Bytes) : List Bytes :=
  match trimLines lines with
  | [] => []
  | first :: rest =>
    let common := (rest.filter fun line => !line.isEmpty).foldl
      (fun lead line => commonStart lead (leadingSpace line)) (leadingSpace first)
    trimLines ((first :: rest).map fun line =>
      let line := (Bytes.cutLead? common line).getD line
      if Text.isBlankText line then [] else line)

/-! ## Blocks -/

/-- The marker of a list item and the text after it.  The marker of a numbered
item is its number, that of any other item is empty. -/
def listMarker? (line : Bytes) : Option (Bytes × Bytes) :=
  let line := Text.trim line
  let parts : Option (Bytes × Bytes) :=
    match (Text.Utf8.glyphs line).head? with
    | none => none
    | some glyph =>
      if ['•', '*', '+', '-'].contains glyph.char then some ([], line.drop glyph.bytes.length)
      else
        let digits := line.takeWhile Bytes.isDigit
        match line.drop digits.length with
        | mark :: rest =>
          if !digits.isEmpty && (mark = byte '.' || mark = byte ')') then some (digits, rest) else none
        | [] => none
  parts.filter fun (_, rest) => isIndented rest && !Text.isBlankText rest

def isListItem (line : Bytes) : Bool :=
  (listMarker? line).isSome

def isHeading : Bytes → Bool
  | mark :: space :: rest =>
    mark = byte '#' && (space = byte ' ' || space = byte '\t') && !Text.isBlankText rest
  | _ => false

/-- Whether every mark in a text is followed by what a test accepts. -/
def everyAfter (mark : UInt8) (test : Bytes → Bool) : Bytes → Bool
  | [] => true
  | code :: rest => (code != mark || test rest) && everyAfter mark test rest

/-- Whether an unmarked line reads as a heading: it starts with a capital, ends in
a letter or digit, and has no punctuation of sentences in it. -/
def readsAsHeading (line : Bytes) : Bool :=
  let line := Text.trim line
  let chars := Text.Utf8.chars line
  let forbidden := ";:!?+*/=[]\x7b\x7d_^°&§~%#@<\">\\".toList
  let possessive (rest : Bytes) : Bool := rest == Bytes.ofString "s" || Bytes.startsWith "s " rest
  let inside (rest : Bytes) : Bool := !rest.isEmpty && !Bytes.startsWith " " rest
  chars.head?.any Text.isCapital
    && chars.getLast?.any (fun char => Text.isLetter char || Text.isDecimalDigit char)
    && !chars.any forbidden.contains
    && everyAfter (byte '\'') possessive line && everyAfter (byte '.') inside line

/-- The lines of a text, by number. -/
abbrev Lines := Array Bytes

/-- Whether an unmarked line is a heading: it reads as one and stands alone before
a paragraph. -/
def isOldHeading (lines : Lines) (index : Nat) : Bool :=
  index > 0 && (lines.getD (index - 1) []).isEmpty && index + 2 < lines.size
    && (lines.getD (index + 1) []).isEmpty && !isIndented (lines.getD (index + 2) [])
    && readsAsHeading (lines.getD index [])

inductive SpanKind where
  | paragraph | heading | oldHeading | list | code
deriving DecidableEq

structure Span where
  start : Nat
  stop : Nat
  kind : SpanKind

/-- The first number from which on a test fails, at most the number of lines. -/
def runStop (lines : Lines) (test : Nat → Bool) (start : Nat) : Nat :=
  start + ((List.range' start (lines.size - start)).takeWhile test).length

/-- The end of an indented run.  Empty lines belong to it, and list items that are
not indented do up to the first empty line, where the run starts with such. -/
def indentedStop (lines : Lines) (force start : Nat) : Nat :=
  let line (index : Nat) : Bytes := lines.getD index []
  let loose := start < force && isListItem (line start)
  let firstEmpty := runStop lines (fun index => !(line index).isEmpty) start
  let stop := runStop lines (fun index => (line index).isEmpty || index < force
    || isIndented (line index) || (loose && index < firstEmpty && isListItem (line index))) start
  let isEmptyAt (index : Nat) : Bool := (line index).isEmpty
  let trailing := ((List.range' start (stop - start)).reverse.takeWhile isEmptyAt).length
  let stop := stop - trailing
  if Bytes.startsWith "\x7d" (line stop) then stop + 1 else stop

/-- Where a run that is not indented really ends, and up to where the lines after
it count as indented.  Its last lines belong to an indented run that follows at
once if they look like the start of a list or of code. -/
def looseTail (lines : Lines) (force start stop : Nat) : Nat × Nat :=
  let line (index : Nat) : Bytes := lines.getD index []
  if stop < lines.size && !(line stop).isEmpty && !isListItem (line stop) then
    let last := line (stop - 1)
    let isItem (index : Nat) : Bool := isListItem (line index)
    if isListItem last then
      let items := ((List.range' start (stop - 1 - start)).reverse.takeWhile isItem).length
      (stop - 1 - items, stop)
    else if Bytes.endsWith "\x7b" last || Bytes.endsWith "\\" last then (stop - 1, stop)
    else (stop, force)
  else (stop, force)

/-- The runs of lines from a line on, where lines before `force` count as
indented.  Every step but one that only moves `force` takes a line. -/
def spansFrom (lines : Lines) : (fuel force start : Nat) → List Span
  | 0, _, _ => []
  | fuel + 1, force, start =>
    let line (index : Nat) : Bytes := lines.getD index []
    let start := runStop lines (fun index => (line index).isEmpty) start
    if start ≥ lines.size then []
    else if start < force || isIndented (line start) then
      let stop := indentedStop lines force start
      ⟨start, stop, if isListItem (line start) then .list else .code⟩ :: spansFrom lines fuel force stop
    else
      let stop := runStop lines
        (fun index => !(line index).isEmpty && !isIndented (line index)) start
      let (stop, force) := looseTail lines force start stop
      if stop = start then spansFrom lines fuel force start
      else
        let kind : SpanKind :=
          if stop - start = 1 && isHeading (line start) then .heading
          else if stop - start = 1 && isOldHeading lines start then .oldHeading
          else .paragraph
        ⟨start, stop, kind⟩ :: spansFrom lines fuel force stop

structure Link where
  text : Bytes
  target : Bytes
deriving DecidableEq

def link? (line : Bytes) : Option Link :=
  match line with
  | bracket :: rest =>
    if bracket ≠ byte '[' then none
    else
      match Bytes.cutAt? "]:" rest with
      | some (text, space :: after) =>
        let target := Text.trim after
        let isTarget := ((Bytes.cutAt? "://" target).map fun (scheme, _) =>
          DocText.schemes.elem scheme).getD false
        if (space = byte ' ' || space = byte '\t') && !after.isEmpty && isTarget then some ⟨text, target⟩
        else none
      | _ => none
  | [] => none

/-- The lines of an item, in paragraphs, with its marker. -/
structure Item where
  number : Bytes
  paragraphs : List (List Bytes)

inductive Block where
  | paragraph (lines : List Bytes)
  | heading (text : Bytes)
  | code (lines : List Bytes)
  | list (items : List Item) (isSpaced isApart : Bool)

def addLine (line : Bytes) : List Item → List Item
  | [] => []
  | item :: items =>
    match item.paragraphs with
    | [] => { item with paragraphs := [[line]] } :: items
    | paragraph :: paragraphs => { item with paragraphs := (line :: paragraph) :: paragraphs } :: items

/-- The items of a list.  Items, paragraphs and lines are gathered in reverse.  An
item of the other sort than the ones before does not start a new item. -/
def gatherItems (isNumbered : Bool) : List Item → List Bytes → List Item
  | items, [] => items
  | items, line :: lines =>
    let (items, line) :=
      match (listMarker? line).filter fun (number, _) => !number.isEmpty == isNumbered with
      | some (number, rest) => (({ number, paragraphs := [[]] } : Item) :: items, rest)
      | none => (items, line)
    let line := Text.trim line
    if line.isEmpty then
      let items := match items with
        | item :: items => { item with paragraphs := [] :: item.paragraphs } :: items
        | [] => []
      gatherItems isNumbered items lines
    else gatherItems isNumbered (addLine line items) lines

/-- Separates the definitions of links from a paragraph: lines that all define
links are no paragraph. -/
def paragraphOrLinks (lines : List Bytes) : List Bytes × List Link :=
  let links := lines.filterMap link?
  if links.length = lines.length then ([], links) else (lines, [])

/-- The items of a list, and the links that are defined in it. -/
def listItems (lines : List Bytes) : List Item × List Link :=
  let isNumbered := ((lines.head?.bind listMarker?).map fun (number, _) => !number.isEmpty).getD false
  let items := (gatherItems isNumbered [] lines).reverse.map fun item =>
    { item with
      paragraphs := (item.paragraphs.reverse.map List.reverse).filter fun part => !part.isEmpty }
  let parts := items.map fun item => (item, item.paragraphs.map paragraphOrLinks)
  (parts.map fun (item, read) =>
      { item with paragraphs := (read.map Prod.fst).filter fun part => !part.isEmpty },
    parts.flatMap fun (_, read) => read.flatMap Prod.snd)

/-- The block of a run of lines, and the links that are defined in it. -/
def blockOf (lines : Lines) (previous : Nat) (span : Span) : Option Block × List Link :=
  let part := (lines.extract span.start span.stop).toList
  match span.kind with
  | .paragraph =>
    match paragraphOrLinks part with
    | ([], links) => (none, links)
    | (part, links) => (some (.paragraph part), links)
  | .heading => (some (.heading (Text.trim ((lines.getD span.start []).drop 1))), [])
  | .oldHeading => (some (.heading (Text.trim (lines.getD span.start []))), [])
  | .code => (some (.code (unindent part)), [])
  | .list =>
    let (items, links) := listItems part
    let isSpaced := part.any Text.isBlankText || items.any fun item => item.paragraphs.length ≠ 1
    (some (.list items isSpaced (isSpaced || previous < span.start)), links)

/-- The blocks of runs of lines, given where the run before them ended. -/
def blocksFrom (lines : Lines) (previous : Nat) : List Span → List Block × List Link
  | [] => ([], [])
  | span :: spans =>
    let (block, links) := blockOf lines previous span
    let (blocks, more) := blocksFrom lines span.stop spans
    (block.toList ++ blocks, links ++ more)

/-! ## Writing -/

def Block.paragraphs : Block → List (List Bytes)
  | .paragraph lines => [lines]
  | .list items _ _ => items.flatMap Item.paragraphs
  | _ => []

/-- The text of a paragraph as it is written, with the given indentation after each line
feed in it. -/
def writeParagraph (defined : List Bytes) (indent : Bytes) (lines : List Bytes) : Bytes :=
  (DocText.write defined (Bytes.joinWith "\n" lines)).flatMap fun code =>
    if code = byte '\n' then code :: indent else [code]

/-- The text of an item as it is written.  Only paragraphs end in a line feed. -/
def Item.write (defined : List Bytes) (item : Item) : Bytes :=
  let marker : Bytes := if item.number.isEmpty then "  - " else " " ++ item.number ++ ". "
  let indent : Bytes := "    "
  let paragraphs := item.paragraphs.map fun lines => writeParagraph defined indent lines ++ "\n"
  marker ++ Bytes.joinWith ("\n" ++ indent) paragraphs

def Block.write (defined : List Bytes) : Block → Bytes
  | .paragraph lines => writeParagraph defined [] lines ++ "\n"
  | .heading text => "# " ++ text ++ "\n"
  | .code lines => lines.flatMap fun line => (if line.isEmpty then [] else byte '\t' :: line) ++ "\n"
  | .list items isSpaced _ =>
    Bytes.joinWith (if isSpaced then "\n" else []) (items.map (Item.write defined))

/-- Whether an empty line stands before a block that is not the first. -/
def Block.isApart : Block → Bool
  | .list _ _ isApart => isApart
  | _ => true

def writeBlocks (defined : List Bytes) : List Block → Bytes
  | [] => []
  | first :: rest =>
    first.write defined
      ++ rest.flatMap fun block => (if block.isApart then "\n" else []) ++ block.write defined

def Link.write (link : Link) : Bytes :=
  "[" ++ link.text ++ "]: " ++ link.target ++ "\n"

/-- The definitions of links as they are written, after an empty line. -/
def writeLinks (links : List Link) : Bytes :=
  (if links.isEmpty then [] else "\n") ++ links.flatMap Link.write

/-- The given lines of text in their standard form.  Of several definitions of a link,
only the first can be used. -/
def formatLines (lines : List Bytes) : Bytes :=
  let lines := (unindent lines).toArray
  let (blocks, links) := blocksFrom lines 0 (spansFrom lines (2 * lines.size + 2) 0 0)
  let defined := links.map Link.text
  let mentioned := blocks.flatMap fun block =>
    block.paragraphs.flatMap fun paragraph =>
      (DocText.brackets (Bytes.joinWith "\n" paragraph)).map DocText.Bracket.label
  let (used, unused) := links.zipIdx.partition fun (link, index) =>
    mentioned.elem link.text && !(defined.take index).elem link.text
  writeBlocks defined blocks ++ writeLinks (used.map Prod.fst) ++ writeLinks (unused.map Prod.fst)

/-! ## Comments -/

/-- Whether a comment line, without its mark, is a directive to a tool. -/
def isToolDirective (line : Bytes) : Bool :=
  let isWordByte (code : UInt8) : Bool :=
    (byte 'a' ≤ code && code ≤ byte 'z') || (byte '0' ≤ code && code ≤ byte '9')
  Bytes.startsWith "line " line || Bytes.startsWith "extern " line || Bytes.startsWith "export " line
    || match Bytes.cutAt? ":" line with
      | some (tool, first :: _) => !tool.isEmpty && tool.all isWordByte && isWordByte first
      | _ => false

/-- Whether every further line of a comment starts with a star. -/
def hasStarColumn (text : Bytes) : Bool :=
  ((Bytes.splitOn (byte '\n') text).drop 1).all fun line =>
    Bytes.startsWith "*" (line.drop (leadingSpace line).length)

def commentLine (line : Bytes) : Bytes :=
  if line.isEmpty then "//" else if Bytes.startsWith "\t" line then "//" ++ line else "// " ++ line

/-- The standard form of comments whose texts, without marks, are the given ones. -/
def formatLineComments (offset : Nat) (texts : List Bytes) : CommentGroup :=
  let directives := texts.filter isToolDirective
  let lines := (texts.filter (!isToolDirective ·)).map fun text => (Bytes.cutLead? " " text).getD text
  let shown := (Bytes.lines (formatLines lines)).map fun line => commentLine (Bytes.dropTail "\n" line)
  let after : List Bytes := if directives.isEmpty then [] else "//" :: directives.map ("//" ++ ·)
  (shown ++ after).map fun text => ⟨offset, text⟩

/-- The standard form of a documentation comment.  Comments that hold no text, that
mix both kinds, or that have a column of stars stay as they are. -/
def format (group : CommentGroup) : CommentGroup :=
  match group with
  | [] => []
  | first :: rest =>
    if Bytes.startsWith "/*" first.text then
      if rest.isEmpty && List.elem (byte '\n') first.text && !hasStarColumn first.text then
        let inside := (first.text.drop 2).take (first.text.length - 4)
        [⟨first.offset, "/*\n" ++ formatLines (Bytes.splitOn (byte '\n') inside) ++ "*/"⟩]
      else group
    else
      let texts := group.filterMap fun comment => Bytes.cutLead? "//" comment.text
      if texts.length ≠ group.length || texts.all isToolDirective then group
      else formatLineComments first.offset texts

end DocComment
end Layout
end CaseExpansion
