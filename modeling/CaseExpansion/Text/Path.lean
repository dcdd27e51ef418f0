import CaseExpansion.Text.Utf8

namespace CaseExpansion
namespace Path

/-!
# Slash-separated paths

Paths are texts; these operations are lexical and never look at a file
system.  A cleaned path is the shortest one that names the same place as far
as its text tells.
-/

def slash : UInt8 := byte '/'

def isAbsolute (path : Bytes) : Bool :=
  path.head? == some slash

/-- Adds one element to the cleaned elements before it, the last of them
first.  Going up cancels an element, is lost at the root, and stays in front
of a relative path. -/
def addElement (rooted : Bool) (before : List Bytes) (element : Bytes) : List Bytes :=
  if element == [] || element == ("." : Bytes) then before
  else if element == (".." : Bytes) then
    match before with
    | [] => if rooted then [] else [element]
    | last :: rest => if last == (".." : Bytes) then element :: before else rest
  else element :: before

def clean (path : Bytes) : Bytes :=
  let rooted := isAbsolute path
  let elements := ((Bytes.splitOn slash path).foldl (addElement rooted) []).reverse
  let joined := Bytes.joinWith [slash] elements
  if rooted then slash :: joined else if joined.isEmpty then "." else joined

/-- The cleaned concatenation of path elements; empty ones are left out. -/
def join (elements : List Bytes) : Bytes :=
  match elements.filter fun element => !element.isEmpty with
  | [] => []
  | elements => clean (Bytes.joinWith [slash] elements)

/-- Everything up to and including the last slash, and the rest. -/
def split (path : Bytes) : Bytes × Bytes :=
  match Bytes.lastIndexOf? slash path with
  | some index => (path.take (index + 1), path.drop (index + 1))
  | none => ([], path)

/-- The directory of a path, cleaned. -/
def directory (path : Bytes) : Bytes :=
  clean (split path).1

def base (path : Bytes) : Bytes :=
  if path.isEmpty then "."
  else
    let trimmed := Bytes.dropTailWhile (· == slash) path
    if trimmed.isEmpty then [slash] else (split trimmed).2

/-- Whether a path can name a file of a virtual tree: well-formed, relative, not
empty, and without empty, `.` and `..` elements, except that `.` names the root. -/
def isLocal (path : Bytes) : Bool :=
  path == ("." : Bytes)
    || (Text.Utf8.glyphs path).all (fun glyph => !glyph.isMalformed)
      && (Bytes.splitOn slash path).all fun element =>
        !(element.isEmpty || element == ("." : Bytes) || element == (".." : Bytes))

end Path
end CaseExpansion
