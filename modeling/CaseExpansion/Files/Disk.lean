import CaseExpansion.Files.Basic

namespace CaseExpansion

/-!
# The disk

The files that a command may see, as a value.  Paths of entries are relative to the
working directory, or absolute.  A path is resolved element by element, and every
element that something follows has to be a directory.  The working directory, those
above it and the root of all absolute paths are always there.

`Disk.rooted` is the file system of one directory of the disk.  It accepts only
paths that stay inside of that directory, and its failures name the path as it
was given.
-/

/-- The files of a disk.  Paths of entries are clean. -/
structure Disk where
  tree : FileTree := {}
deriving DecidableEq, Repr

inductive DiskNode where
  | directory
  | entry (entry : FileEntry)
deriving DecidableEq, Repr

namespace Disk

def ofEntries (entries : List (Bytes × FileEntry)) : Disk :=
  ⟨⟨entries.map fun (path, entry) => (Path.clean path, entry)⟩⟩

/-- The path of elements, given last first, below the root or below the working
directory. -/
def pathOf (isAbsolute : Bool) (reached : List Bytes) : Bytes :=
  let joined := Bytes.joinWith [Path.slash] reached.reverse
  if isAbsolute then Path.slash :: joined else if reached.isEmpty then "." else joined

/-- Whether elements, given last first, lead to a directory.  The directories above the
working directory are always there. -/
def isDirectoryAt (disk : Disk) (isAbsolute : Bool) (reached : List Bytes) : Bool :=
  reached.all (· == (".." : Bytes)) || disk.tree.isDirectory (pathOf isAbsolute reached)

/-- Follows one more element of a path below the elements reached so far. -/
def enter (disk : Disk) (isAbsolute : Bool) (reached : List Bytes) (element : Bytes) :
    Except FileReason (List Bytes) :=
  if disk.isDirectoryAt isAbsolute reached then .ok (Path.addElement isAbsolute reached element)
  else if (disk.tree.get? (pathOf isAbsolute reached)).isSome then .error .notDirectory
  else .error .missing

/-- The elements, last first, that a path leads to.  Whether something is there is not
looked at for the last one. -/
def walk (disk : Disk) (path : Bytes) : Except FileReason (List Bytes) :=
  if List.elem 0 path then .error .invalid
  else if path.isEmpty then .error .missing
  else (Bytes.splitOn Path.slash path).foldlM (disk.enter (Path.isAbsolute path)) []

def node? (disk : Disk) (isAbsolute : Bool) (reached : List Bytes) : Option DiskNode :=
  if disk.isDirectoryAt isAbsolute reached then some .directory
  else (disk.tree.get? (pathOf isAbsolute reached)).map .entry

/-- What a path names, and its clean form. -/
def resolve (disk : Disk) (path : Bytes) : Except FileReason (Bytes × DiskNode) := do
  let reached ← disk.walk path
  match disk.node? (Path.isAbsolute path) reached with
  | some node => .ok (pathOf (Path.isAbsolute path) reached, node)
  | none => .error .missing

/-- The contents of a file.  A directory can be opened, but not read. -/
def read (disk : Disk) (path : Bytes) : Except FileFailure Bytes :=
  match disk.resolve path with
  | .error reason => .error ⟨.open_, path, reason⟩
  | .ok (_, .directory) => .error ⟨.read, path, .isDirectory⟩
  | .ok (_, .entry (.regular contents)) => .ok contents
  | .ok (_, .entry .unreadable) => .error ⟨.open_, path, .denied⟩
  | .ok (_, .entry _) => .ok []

/-- The entries of a directory, by name. -/
def list (disk : Disk) (path : Bytes) : Except FileFailure (List DirectoryEntry) :=
  match disk.resolve path with
  | .error reason => .error ⟨.open_, path, reason⟩
  | .ok (clean, .directory) => .ok (disk.tree.children clean)
  | .ok (_, .entry _) => .error ⟨.open_, path, .notDirectory⟩

def put (disk : Disk) (path : Bytes) (entry : FileEntry) : Disk :=
  if disk.tree.entries.any fun other => other.1 == path then
    ⟨⟨disk.tree.entries.map fun other => if other.1 == path then (path, entry) else other⟩⟩
  else ⟨⟨disk.tree.entries ++ [(path, entry)]⟩⟩

/-- The disk with one file's contents replaced or added. -/
def set (disk : Disk) (path contents : Bytes) : Disk :=
  disk.put path (.regular contents)

/-- The clean form of a path that a file can be written to: a file that can be
written, or a new name in an existing directory.  A slash at the end asks for a
directory. -/
def writable (disk : Disk) (path : Bytes) : Except FileReason Bytes :=
  if Bytes.endsWith [Path.slash] path then
    match disk.walk (Bytes.dropTailWhile (· == Path.slash) path) with
    | .error reason => .error (if path.all (· == Path.slash) then .isDirectory else reason)
    | .ok _ => .error .isDirectory
  else
    match disk.walk path with
    | .error reason => .error reason
    | .ok reached =>
      match disk.node? (Path.isAbsolute path) reached with
      | some .directory => .error .isDirectory
      | some (.entry .unreadable) => .error .denied
      | _ => .ok (pathOf (Path.isAbsolute path) reached)

/-- The disk after contents went to a file: they replace those of a regular file, and a
special one takes them and stays what it is. -/
def fill (disk : Disk) (path contents : Bytes) : Disk :=
  match disk.tree.get? path with
  | some (.special received) => disk.put path (.special (received ++ contents))
  | _ => disk.set path contents

/-- Writes a whole file, and tells what went wrong.  A file that was opened keeps the first
part of the contents then. -/
def write (disk : Disk) (fault : Option WriteFault) (path contents : Bytes) :
    Disk × Option FileFailure :=
  match disk.writable path, fault with
  | .error reason, _ => (disk, some ⟨.open_, path, reason⟩)
  | .ok clean, none => (disk.fill clean contents, none)
  | .ok _, some (.unopened reason) => (disk, some ⟨.open_, path, reason⟩)
  | .ok clean, some (.stopped ⟨count, reason⟩) =>
    (disk.fill clean (contents.take count), some ⟨.write, path, reason⟩)
  | .ok clean, some (.unclosed ⟨count, reason⟩) =>
    (disk.fill clean (contents.take count), some ⟨.close, path, reason⟩)

def rooted (disk : Disk) (root : Bytes) : FileSystem :=
  let full (path : Bytes) : Bytes :=
    if Bytes.endsWith [Path.slash] root then root ++ path else root ++ Path.slash :: path
  let within {α : Type} (operation : FileOperation) (run : Bytes → Except FileFailure α)
      (path : Bytes) : Except FileFailure α :=
    if !Path.isLocal path || List.elem 0 path then .error ⟨operation, path, .invalid⟩
    else (run (full path)).mapError fun failure => { failure with path }
  { list := within .readDirectory disk.list
    read := within .open_ disk.read }

end Disk
end CaseExpansion
