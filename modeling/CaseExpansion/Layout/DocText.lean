import CaseExpansion.Text.LetterCase

namespace CaseExpansion
namespace Layout

/-!
# Running text of documentation comments

Doubled single quotation marks and doubled grave accents stand for curly quotation
marks.  `standard` writes them so, except inside of web addresses, which stay as they
are.

A part of the text between brackets is a link if a link of that name is defined, or if
it names a package or something in a package.  What stands between such brackets is
written by itself, and addresses are not looked for in it.
-/

namespace DocText

open Text (Glyph)

/-! ## Addresses and names -/

def schemes : List Bytes :=
  ["file", "ftp", "gopher", "http", "https", "mailto", "nntp"]

def isAlphanumeric (code : UInt8) : Bool :=
  (byte 'a' ≤ code && code ≤ byte 'z') || (byte 'A' ≤ code && code ≤ byte 'Z') || Bytes.isDigit code

/-- Whether a byte may stand inside of an address but does not end one. -/
def isPause (code : UInt8) : Bool :=
  (Bytes.ofString ".,:;?!").elem code

def isHostByte (code : UInt8) : Bool :=
  isAlphanumeric code || (Bytes.ofString "_@-.[]:").elem code

/-- Whether a byte may stand in the path of an address and may end it. -/
def isPathByte (code : UInt8) : Bool :=
  isAlphanumeric code || (Bytes.ofString "$'()*+&#=@~_/-[]\x7b\x7d%").elem code

def closing? (code : UInt8) : Option UInt8 :=
  if code = byte '(' then some (byte ')')
  else if code = byte '[' then some (byte ']')
  else if code = byte '\x7b' then some (byte '\x7d')
  else none

/-- The brackets to be closed after one more byte, innermost first.  There are none if
the byte closes a bracket that is not the innermost one. -/
def nesting? (closers : List UInt8) (code : UInt8) : Option (List UInt8) :=
  match closing? code with
  | some closer => some (closer :: closers)
  | none =>
    if (Bytes.ofString ")]\x7d").elem code then
      if closers.head? == some code then some closers.tail else none
    else some closers

/-- The length of the path at the start of a text, given the brackets to be closed, the
bytes read so far and how many of them belong to the path for certain.  A path ends
neither in a pause nor inside of brackets. -/
def pathLength (closers : List UInt8) (seen sure : Nat) : Bytes → Nat
  | [] => sure
  | code :: rest =>
    if isPause code then pathLength closers (seen + 1) sure rest
    else if !isPathByte code then sure
    else
      match nesting? closers code with
      | none => sure
      | some closers => pathLength closers (seen + 1) (if closers.isEmpty then seen + 1 else sure) rest

/-- The length of the web address at the start of a text, or zero. -/
def addressLength (text : Bytes) : Nat :=
  let scheme := (text.take 7).takeWhile (· != byte ':')
  if schemes.elem scheme && Bytes.startsWith "://" (text.drop scheme.length) then
    let hostBytes := (text.drop (scheme.length + 3)).takeWhile isHostByte
    if hostBytes.head?.any fun code => !isPause code then
      let start := scheme.length + 3 + (Bytes.dropTailWhile isPause hostBytes).length
      start + pathLength [] 0 0 (text.drop start)
    else 0
  else 0

/-- The length of the identifier at the start of a text, or zero. -/
def nameLength (text : Bytes) : Nat :=
  let isPart (glyph : Glyph) : Bool :=
    glyph.char = '_' || glyph.char.isDigit || Text.isLetter glyph.char
  if text.head?.any Bytes.isDigit then 0
  else ((((Text.Utf8.glyphs text).takeWhile isPart).getLast?).map Glyph.stop).getD 0

/-! ## Quotation marks -/

/-- What is written for the start of the rest of a text, and how many bytes it stands
for.  Three grave accents stay, and so do as many bytes after them as there are grave
accents in a row at twice their distance from the start of the text and three further. -/
def step (addresses : Bool) (text : Bytes) (position : Nat) (rest : Bytes) : Bytes × Nat :=
  let grave := byte '\x60'
  let keep (count : Nat) : Bytes × Nat := (rest.take count, count)
  let address := if addresses then addressLength rest else 0
  let name := if addresses then nameLength rest else 0
  if address > 0 then keep address
  else if name > 0 then keep name
  else if [grave, grave, grave].isPrefixOf rest then
    keep (3 + ((text.drop (2 * position + 3)).takeWhile (· == grave)).length)
  else if [grave, grave].isPrefixOf rest then ("“", 2)
  else if Bytes.startsWith "''" rest then ("”", 2)
  else keep 1

/-- Writes the rest of a text from a position on.  Every step takes a byte, so the
length of the rest bounds their number. -/
def standardFrom (addresses : Bool) (text : Bytes) : (fuel position : Nat) → Bytes → Bytes
  | 0, _, _ => []
  | _, _, [] => []
  | fuel + 1, position, rest =>
    let (shown, taken) := step addresses text position rest
    shown ++ standardFrom addresses text fuel (position + taken) (rest.drop taken)

/-- A text without links as it is written, with or without regard to addresses. -/
def standard (addresses : Bool) (text : Bytes) : Bytes :=
  standardFrom addresses text text.length 0 text

/-! ## Links -/

/-- A part of a text between brackets: where the brackets stand, and the name that the
part gives, with blanks for line breaks and tabs. -/
structure Bracket where
  start : Nat
  stop : Nat
  label : Bytes

/-- The parts of a text between brackets, given where the last bracket was opened, what
was read since the first, in reverse, and how much of the text was read. -/
def bracketsFrom (opening : Option Nat) (inside : Bytes) (index : Nat) : Bytes → List Bracket
  | [] => []
  | code :: rest =>
    if code = byte '[' then bracketsFrom (some index) inside (index + 1) rest
    else if code = byte ']' then
      (opening.map fun start => ⟨start, index, inside.reverse⟩).toList
        ++ bracketsFrom none [] (index + 1) rest
    else
      let code := if code = byte '\n' || code = byte '\t' then byte ' ' else code
      bracketsFrom opening (if opening.isSome then code :: inside else inside) (index + 1) rest

def brackets (text : Bytes) : List Bracket :=
  bracketsFrom none [] 0 text

def knownPackages : List Bytes :=
  ["bufio", "bytes", "cmp", "context", "crypto", "embed", "encoding", "errors", "expvar", "flag",
    "fmt", "hash", "html", "image", "io", "iter", "log", "maps", "math", "mime", "net", "os",
    "path", "plugin", "reflect", "regexp", "runtime", "slices", "sort", "strconv", "strings",
    "structs", "sync", "syscall", "testing", "time", "unicode", "unique", "unsafe",
    "weak"].map Bytes.ofString

/-- Whether a text may stand between the slashes of the path of a package. -/
def isPackageElement (text : Bytes) : Bool :=
  !text.isEmpty && !Bytes.startsWith "." text && !Bytes.endsWith "." text
    && text.all fun code => isAlphanumeric code || (Bytes.ofString "-.~_+").elem code

/-- Whether a text names a package: by a path with slashes or by one known word. -/
def isPackage (text : Bytes) : Bool :=
  if text.elem (byte '/') then
    !Bytes.startsWith "-" text && (Bytes.splitOn (byte '/') text).all isPackageElement
  else knownPackages.elem text

def isCapitalName (text : Bytes) : Bool :=
  !text.isEmpty && nameLength text = text.length && (Text.Utf8.chars text).head?.any Text.isCapital

/-- What stands before a capital name and its dot at the end of a text. -/
def beforeName? (text : Bytes) : Option Bytes :=
  match Bytes.lastIndexOf? (byte '.') text with
  | some index => if isCapitalName (text.drop (index + 1)) then some (text.take index) else none
  | none => if isCapitalName text then some [] else none

/-- Whether a text names a package, something in a package, or something in that,
perhaps with a star before it. -/
def namesPackage (text : Bytes) : Bool :=
  let text := (Bytes.cutLead? "*" text).getD text
  isPackage (match beforeName? text with
    | some before => (beforeName? before).getD before
    | none => text)

/-- Whether a character may stand next to the bracket of a package's name. -/
def isBoundary (char : Char) : Bool :=
  Text.isPunctuation char || char = ' ' || char = '\t' || char = '\n'

/-- Whether a part of a text between brackets is a link, given the names of the links
that are defined. -/
def isLink (defined : List Bytes) (text : Bytes) (bracket : Bracket) : Bool :=
  defined.elem bracket.label
    || (namesPackage (Bytes.slice text (bracket.start + 1) bracket.stop)
      && (Text.Utf8.chars (text.take bracket.start)).getLast?.all isBoundary
      && (Text.Utf8.chars (text.drop (bracket.stop + 1))).head?.all isBoundary)

/-- Writes a text from an offset on, given the links in it. -/
def writeLinked (text : Bytes) (start : Nat) : List Bracket → Bytes
  | [] => standard true (text.drop start)
  | link :: links =>
    standard true (Bytes.slice text start link.start) ++ "["
      ++ standard false (Bytes.slice text (link.start + 1) link.stop) ++ "]"
      ++ writeLinked text (link.stop + 1) links

/-- A text as it is written, given the names of the links that are defined. -/
def write (defined : List Bytes) (text : Bytes) : Bytes :=
  writeLinked text 0 ((brackets text).filter (isLink defined text))

end DocText
end Layout
end CaseExpansion
