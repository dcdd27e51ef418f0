import CaseExpansion.Text.Category

namespace CaseExpansion

/-!
# Text archives

An archive is a text with several named files in it.  A file starts after a
line `-- name --` and goes on to the next such line or to the end.  What stands
before the first one is a comment.  Every file ends with a line feed.
-/

/-- Named files, in order. -/
structure Archive where
  files : List (Bytes × Bytes) := []
deriving DecidableEq, Repr

namespace Archive

/-- The name on a line that starts a file.  The line may end with a line feed. -/
def marked? (line : Bytes) : Option Bytes := do
  let line := Bytes.dropTail [byte '\n'] line
  let rest ← Bytes.cutLead? "-- " line
  let name ← Bytes.cutTail? " --" rest
  let name := Text.trim name
  if name.isEmpty then none else some name

def endLine (text : Bytes) : Bytes :=
  if text.isEmpty || text.getLast? == some (byte '\n') then text else text ++ [byte '\n']

/-- The text before the first line that starts a file, and the files. -/
def ofLines : List Bytes → Bytes × List (Bytes × Bytes)
  | [] => ([], [])
  | line :: lines =>
    let (text, files) := ofLines lines
    match marked? line with
    | some name => ([], (name, text) :: files)
    | none => (line ++ text, files)

def parse (text : Bytes) : Archive :=
  ⟨(ofLines (Bytes.lines text)).2.map fun (name, contents) => (name, endLine contents)⟩

/-- The contents of a file.  Of several files with one name, the last counts. -/
def get? (archive : Archive) (name : Bytes) : Option Bytes :=
  (archive.files.reverse.find? fun file => file.1 == name).map Prod.snd

end Archive
namespace Rendering

/-!
## The built-in patterns

The patterns that generated files are rendered with unless an archive of patterns is
given: one for the whole file, and one for each namespace.
-/

/-- The pattern of a generated file.  Its data are the name of the template file
and the contents of the generated one. -/
def filePattern : Bytes :=
  Bytes.ofString <|
    "// Code generated by casegen from \x7b\x7b.Source\x7d\x7d. DO NOT EDIT.\n" ++
    "\n" ++
    "\x7b\x7b.Content\x7d\x7d\n"

/-- The pattern of a namespace: its documentation, the type, the list of its
cases, and one function per case. -/
def namespacePattern : Bytes :=
  Bytes.ofString <|
    "\x7b\x7b- range .Doc\x7d\x7d\x7b\x7b.\x7d\x7d\n" ++
    "\x7b\x7belse\x7d\x7d// \x7b\x7b.Name\x7d\x7d groups the cases generated from the \x7b\x7b.Name\x7d\x7d template.\n" ++
    "\x7b\x7bend -\x7d\x7d\n" ++
    "type \x7b\x7b.Name\x7d\x7d struct\x7b\x7d\n" ++
    "\n" ++
    "// Cases lists the cases of \x7b\x7b.Name\x7d\x7d in declaration order.\n" ++
    "func (\x7b\x7b.Name\x7d\x7d) Cases() []struct \x7b\n" ++
    "\tName string\n" ++
    "\tRun  \x7b\x7b.RunType\x7d\x7d\n" ++
    "\x7d \x7b\n" ++
    "\treturn []struct \x7b\n" ++
    "\t\tName string\n" ++
    "\t\tRun  \x7b\x7b.RunType\x7d\x7d\n" ++
    "\t\x7d\x7b\n" ++
    "\x7b\x7brange .Funcs\x7d\x7d\t\t\x7b \x7b\x7b- printf \"%q\" .Case.Name\x7d\x7d, \x7b\x7b$.Name\x7d\x7d\x7b\x7d.\x7b\x7b.Ident -\x7d\x7d \x7d,\n" ++
    "\x7b\x7bend\x7d\x7d\t\x7d\n" ++
    "\x7d\n" ++
    "\x7b\x7brange .Funcs\x7d\x7d\n" ++
    "\x7b\x7brange $.Trailing\x7d\x7d\x7b\x7b.\x7d\x7d\n" ++
    "\x7b\x7bend -\x7d\x7d\n" ++
    "func (\x7b\x7b$.Name\x7d\x7d) \x7b\x7b.Ident\x7d\x7d(\x7b\x7b$.Context\x7d\x7d)\x7b\x7bwith $.Results\x7d\x7d \x7b\x7b.\x7d\x7d\x7b\x7bend\x7d\x7d \x7b\n" ++
    "\x7b\x7brange .Bindings\x7d\x7d\tvar \x7b\x7b.Name\x7d\x7d \x7b\x7b.Type\x7d\x7d = \x7b\x7b.Value\x7d\x7d\n" ++
    "\x7b\x7bend\x7d\x7d\x7b\x7brange .Unused\x7d\x7d\t_ = \x7b\x7b.\x7d\x7d\n" ++
    "\x7b\x7bend\x7d\x7d\x7b\x7b$.Body\x7d\x7d\x7d\n" ++
    "\x7b\x7bend -\x7d\x7d\n"

end Rendering
end CaseExpansion
