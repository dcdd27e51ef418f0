import CaseExpansion.Files.Disk

namespace CaseExpansion

/-!
# Checking generated code

A checker is run in the directory of the generated files.  What it answers is given
from outside, as an exit status and an output, so that everything around it is a
function.
-/

structure VetCommand where
  arguments : List Bytes
  directory : Bytes
deriving DecidableEq, Repr

/-- The command that checks the package in a directory, under some build tags. -/
def vetCommand (directory : Bytes) (tags : List Bytes) : VetCommand :=
  let tagArguments : List Bytes :=
    if tags.isEmpty then [] else [Bytes.ofString "-tags", Bytes.joinWith "," tags]
  { arguments := Bytes.ofString "go" :: Bytes.ofString "vet" :: tagArguments ++ [Bytes.ofString "."]
    directory }

inductive VetAnswer where
  | exited (status : Nat) (output : Bytes)
  | canceled
  | unavailable
deriving DecidableEq, Repr

/-- A check that did not pass: where, why, and what the checker had to say. -/
structure VetFailure where
  directory : Bytes
  cause : Bytes
  output : Bytes := []
deriving DecidableEq, Repr

namespace VetFailure

def message (failure : VetFailure) : Bytes :=
  "verify " ++ failure.directory ++ " failed: " ++ failure.cause ++ "\nOutput: " ++ failure.output

end VetFailure

def missingDirectory? (disk : Disk) (directory : Bytes) : Option FileFailure :=
  if directory.isEmpty then none
  else
    match disk.resolve directory with
    | .ok (_, .directory) => none
    | .ok (_, .entry _) => some ⟨.changeDirectory, directory, .notDirectory⟩
    | .error reason => some ⟨.changeDirectory, directory, reason⟩

def verify (disk : Disk) (directory : Bytes) (answer : VetAnswer) : Option VetFailure :=
  match answer, missingDirectory? disk directory with
  | .unavailable, _ => some { directory, cause := "exec: \"go\": executable file not found in $PATH" }
  | .canceled, _ => some { directory, cause := "context canceled" }
  | .exited _ _, some failure => some { directory, cause := failure.message }
  | .exited 0 _, none => none
  | .exited status output, none =>
    some { directory, cause := "exit status " ++ Bytes.decimal status, output }

end CaseExpansion
