import CaseExpansion.Text.Path

namespace CaseExpansion

/-!
# Files and what can go wrong with them

The generator lists directories and reads files through a `FileSystem`, which
is nothing but these two operations.  A failure is a value: which operation
failed, on which path, and why.

A `FileTree` is a finite set of named entries.  It is given a meaning as a file
system in two ways, as a virtual tree and as the tree below a working
directory; they differ in which paths they accept and in the failures they
report.
-/

inductive FileOperation where
  | open_ | read | write | close | readDirectory | changeDirectory
deriving DecidableEq, Repr

namespace FileOperation

def name : FileOperation → Bytes
  | open_ => "open"
  | read => "read"
  | write => "write"
  | close => "close"
  | readDirectory => "readdir"
  | changeDirectory => "chdir"

end FileOperation

inductive FileReason where
  | missing
  | absent
  | notDirectory
  | isDirectory
  | denied
  | notImplemented
  | invalid
  | other (text : Bytes)
deriving DecidableEq, Repr

namespace FileReason

/-- The wording of a reason.  A file that does not exist is `missing` from a
disk and `absent` from a virtual tree. -/
def message : FileReason → Bytes
  | missing => "no such file or directory"
  | absent => "file does not exist"
  | notDirectory => "not a directory"
  | isDirectory => "is a directory"
  | denied => "permission denied"
  | notImplemented => "not implemented"
  | invalid => "invalid argument"
  | other text => text

end FileReason

structure FileFailure where
  operation : FileOperation
  path : Bytes
  reason : FileReason
deriving DecidableEq, Repr

namespace FileFailure

def message (failure : FileFailure) : Bytes :=
  failure.operation.name ++ " " ++ failure.path ++ ": " ++ failure.reason.message

end FileFailure

/-- Why only the first bytes of a text go where it is written to, and how many. -/
structure Interruption where
  count : Nat
  reason : FileReason
deriving DecidableEq, Repr

/-- What may go wrong with a file that could be written: opening it, which empties the
file, writing to it after that, or closing it in the end. -/
inductive WriteFault where
  | unopened (reason : FileReason)
  | stopped (interruption : Interruption)
  | unclosed (interruption : Interruption)
deriving DecidableEq, Repr

structure DirectoryEntry where
  name : Bytes
  isRegular : Bool
deriving DecidableEq, Repr

structure FileSystem where
  list : Bytes → Except FileFailure (List DirectoryEntry)
  read : Bytes → Except FileFailure Bytes

inductive FileEntry where
  | regular (contents : Bytes)
  | unreadable
  /-- A device or another file that keeps no contents, with what has been written to it. -/
  | special (received : Bytes := [])
  | directory
deriving DecidableEq, Repr

namespace FileEntry

def isRegular : FileEntry → Bool
  | regular _ | unreadable => true
  | special _ | directory => false

end FileEntry

/-- Entries by their slash-separated paths.  Directories above an entry exist
without being listed. -/
structure FileTree where
  entries : List (Bytes × FileEntry) := []
deriving DecidableEq, Repr

namespace FileTree

def get? (tree : FileTree) (path : Bytes) : Option FileEntry :=
  (tree.entries.find? fun entry => entry.1 == path).map Prod.snd

/-- The path below a directory, for paths below it. -/
def below? (directory path : Bytes) : Option Bytes :=
  if directory == ("." : Bytes) then if path == ("." : Bytes) then none else some path
  else Bytes.cutLead? (directory ++ [Path.slash]) path

/-- The first element of a path below a directory, and whether there are more. -/
def firstElement (path : Bytes) : Bytes × Bool :=
  match Bytes.cutAt? [Path.slash] path with
  | some (first, _) => (first, true)
  | none => (path, false)

/-- Adds an entry unless one of that name is present; an entry of its own wins
over a directory that exists only through the entries in it. -/
def addListed (listed : List DirectoryEntry) (entry : DirectoryEntry) : List DirectoryEntry :=
  if listed.any fun other => other.name == entry.name then listed else entry :: listed

/-- The entries of a directory, by name. -/
def children (tree : FileTree) (directory : Bytes) : List DirectoryEntry :=
  let within := tree.entries.filterMap fun (path, entry) =>
    (below? directory path).map fun rest => (firstElement rest, entry)
  let own := within.filterMap fun ((name, isDeeper), entry) =>
    if isDeeper then none else some (DirectoryEntry.mk name entry.isRegular)
  let implied := within.filterMap fun ((name, isDeeper), _) =>
    if isDeeper then some (DirectoryEntry.mk name false) else none
  ((own ++ implied).foldl addListed []).mergeSort fun left right =>
    (Bytes.compare left.name right.name).isLE

/-- Whether a path names a directory: by an entry of its own, or because there
are entries below it. -/
def isDirectory (tree : FileTree) (path : Bytes) : Bool :=
  match tree.get? path with
  | some .directory => true
  | some _ => false
  | none => path == ("." : Bytes) || tree.entries.any fun entry => (below? path entry.1).isSome

/-!
## Virtual file trees

A tree as a file system of its own.  Paths are relative to its root, and a path
that cannot name anything in it, such as one that leads out of it, is treated
as one that does not exist.
-/

/-- Opens a path of a virtual tree: a file's entry, or nothing for a directory. -/
def openVirtual (tree : FileTree) (path : Bytes) : Except FileFailure (Option FileEntry) :=
  if !Path.isLocal path then .error ⟨.open_, path, .absent⟩
  else if tree.isDirectory path then .ok none
  else
    match tree.get? path with
    | none => .error ⟨.open_, path, .absent⟩
    | some .unreadable => .error ⟨.open_, path, .denied⟩
    | some entry => .ok (some entry)

def listVirtual (tree : FileTree) (path : Bytes) : Except FileFailure (List DirectoryEntry) := do
  match ← tree.openVirtual path with
  | none => .ok (tree.children path)
  | some _ => .error ⟨.readDirectory, path, .notImplemented⟩

def readVirtual (tree : FileTree) (path : Bytes) : Except FileFailure Bytes := do
  match ← tree.openVirtual path with
  | some (.regular contents) => .ok contents
  | some _ => .ok []
  | none => .error ⟨.read, path, .invalid⟩

def virtual (tree : FileTree) : FileSystem where
  list := tree.listVirtual
  read := tree.readVirtual

end FileTree
end CaseExpansion
