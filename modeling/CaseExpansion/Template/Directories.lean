import CaseExpansion.Template.Basic
import CaseExpansion.Text.LetterCase

namespace CaseExpansion

/-!
# Cases from directories

Every regular file of a directory gives a case: its path and its contents as
string literals, under the lower-cased path as its name.  Directories and files
that cannot be read are reported, and so is a directory without any regular
file.
-/

namespace CaseDirectories

def fileCase (position : Source.Position) (path contents : Bytes) : Case where
  arguments := [Text.Quoted.encode path, Text.Quoted.encode contents]
  name := Text.lower path
  position

def readFile (files : FileSystem) (position : Source.Position) (directory : Bytes)
    (entry : DirectoryEntry) : Except Error Case :=
  let path := Path.join [directory, entry.name]
  match files.read path with
  | .ok contents => .ok (fileCase position path contents)
  | .error failure => .error ⟨position, .unreadable failure⟩

def readDirectory (files : FileSystem) (position : Source.Position) (directory : Bytes) :
    List (Except Error Case) :=
  let directory := Path.clean directory
  match files.list directory with
  | .error failure => [.error ⟨position, .unreadable failure⟩]
  | .ok entries =>
    match entries.filter DirectoryEntry.isRegular with
    | [] => [.error ⟨position, .noFiles directory⟩]
    | regular => regular.map (readFile files position directory)

/-- The outcomes for the files of all directories of a directive. -/
def readAll (files : FileSystem) (directive : CaseDirectories) : List (Except Error Case) :=
  directive.directories.flatMap (readDirectory files directive.position)

end CaseDirectories

namespace Template

/-- Adds the cases of the template's directories, after those it has, and gives
the errors met on the way. -/
def loadDirectories (files : FileSystem) (template : Template) : Template × List Error :=
  let results := template.directories.flatMap (CaseDirectories.readAll files)
  let cases := results.filterMap fun
    | .ok case => some case
    | .error _ => none
  let errors := results.filterMap fun
    | .ok _ => none
    | .error error => some error
  ({ template with cases := template.cases ++ cases }, Error.sort errors)

end Template
end CaseExpansion
