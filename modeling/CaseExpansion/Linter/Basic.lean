import CaseExpansion.Generator.Expansion

namespace CaseExpansion

open Source

/-!
# Linting

The linter reports what keeps templates from being expanded, without generating
anything.  It does not look into directories: the cases that a directory would give
are unknown to it.
-/

structure Finding where
  position : Position
  /-- The class of the problem.  A directive that belongs to no function has none. -/
  category : Bytes
  message : Bytes
deriving DecidableEq, Repr

namespace Finding

def ofError (error : Error) : Finding where
  position := error.position
  category := error.kind.title
  message := error.kind.title ++ ": " ++ error.problem.message

/-- The report of a directive that belongs to no function. -/
def ofDetached (error : Error) : Finding where
  position := error.position
  category := []
  message := error.problem.message

end Finding

namespace Linter

/-- The errors of a function.  Cases are expanded only if the template can be read. -/
def functionErrors (source : ParsedFile) (strict : Bool) (function : FuncDecl) : List Error :=
  match Template.read source function strict with
  | .error errors => errors
  | .ok none => []
  | .ok (some template) =>
    match template.expand with
    | .ok _ => []
    | .error errors => errors

/-- The reports on a file: first those on its functions, in their order. -/
def checkFile (strict : Bool) (source : ParsedFile) : List Finding :=
  (source.file.functions.flatMap (functionErrors source strict)).map Finding.ofError
    ++ (detachedErrors source).map Finding.ofDetached

inductive Input where
  | readable (source : ParsedFile)
  | unreadable (failure : FileFailure)
  /-- There is nothing in the file, not even a position. -/
  | empty

/-- The reports on files in order.  The first file whose text cannot be read ends the
run; what was reported before stays. -/
def check (strict : Bool) : List Input → List Finding × Option FileFailure
  | [] => ([], none)
  | .empty :: inputs => check strict inputs
  | .unreadable failure :: _ => ([], some failure)
  | .readable source :: inputs =>
    let (findings, failure) := check strict inputs
    (checkFile strict source ++ findings, failure)

end Linter
end CaseExpansion
