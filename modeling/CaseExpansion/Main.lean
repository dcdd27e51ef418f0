import CaseExpansion.CommandLine.Run

/-!
# The command

Reads the files that a run needs, runs the command on them, and writes what has
changed.
-/

namespace CaseExpansion
namespace CommandLine

def bytesOfArray (array : ByteArray) : Bytes :=
  array.toList

def arrayOfBytes (bytes : Bytes) : ByteArray :=
  ⟨bytes.toArray⟩

partial def readAll (stream : IO.FS.Stream) (before : ByteArray) : IO ByteArray := do
  let chunk ← stream.read 65536
  if chunk.isEmpty then return before else readAll stream (before ++ chunk)

/-- What is found at a path, if anything is. -/
def entryAt? (path : String) : IO (Option FileEntry) := do
  try
    let found ← IO.FS.realPath path
    match (← found.metadata).type with
    | .dir => return some .directory
    | .file =>
      try
        return some (.regular (bytesOfArray (← IO.FS.readBinFile path)))
      catch _ => return some .unreadable
    | _ => return some .special
  catch _ => return none

/-- The entries at a path and, for a directory that is to be listed, of the files in
it. -/
def load (lists : Bool) (path : Bytes) : IO (List (Bytes × FileEntry)) := do
  let some name := Bytes.toString? path | return []
  let some entry ← entryAt? name | return []
  if entry ≠ .directory || !lists then return [(path, entry)]
  let listed ← (← IO.FS.realPath name).readDir
  let inside ← listed.toList.mapM fun item => do
    let below := Path.join [path, Bytes.ofString item.fileName]
    return (← entryAt? (name ++ "/" ++ item.fileName)).map fun entry => (below, entry)
  return (path, entry) :: inside.filterMap id

/-- The disk that a run needs: what is found at some paths, and in the directories that
template files and the standard input name. -/
def loadDisk (paths : List Bytes) (stdin : Bytes) : IO Disk := do
  let named := (← paths.mapM (load false)).flatten
  let directories := directoriesOf stdinName stdin ++ named.flatMap fun (path, entry) =>
    match entry with
    | .regular text => directoriesOf path text
    | _ => []
  return Disk.ofEntries (named ++ (← directories.mapM (load true)).flatten).eraseDups

def store (before after : Disk) : IO Unit :=
  after.tree.entries.forM fun (path, entry) => do
    match entry, Bytes.toString? path with
    | .regular contents, some name | .special contents, some name =>
      if before.tree.get? path != some entry then IO.FS.writeBinFile name (arrayOfBytes contents)
    | _, _ => return

/-- Runs the command on the files that are really there. -/
def execute (arguments : List Bytes) : IO UInt32 := do
  let environmentFile := Bytes.ofString ((← IO.getEnv "GOFILE").getD "")
  let input ← IO.getStdin
  let stdin : Option Bytes ←
    if !readsStdin arguments environmentFile then pure (some [])
    else if ← input.isTty then pure none
    else pure (some (bytesOfArray (← readAll input ByteArray.empty)))
  let disk ← loadDisk (namedPaths arguments environmentFile) (stdin.getD [])
  let report := run { arguments, stdin, environmentFile, disk, vet := fun _ => .unavailable }
  store disk report.disk
  (← IO.getStdout).write (arrayOfBytes report.stdout)
  (← IO.getStderr).write (arrayOfBytes report.stderr)
  return report.exitStatus.toUInt32

end CommandLine
end CaseExpansion

def main (arguments : List String) : IO UInt32 :=
  CaseExpansion.CommandLine.execute (arguments.map CaseExpansion.Bytes.ofString)
