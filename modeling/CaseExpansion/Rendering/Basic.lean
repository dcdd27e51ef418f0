import CaseExpansion.Files.Disk
import CaseExpansion.Namespace
import CaseExpansion.Pattern.Run
import CaseExpansion.Rendering.Archive

namespace CaseExpansion
namespace Rendering

open Pattern (Compiled Value)

/-!
# Rendering

Generated text comes from two patterns, one for a namespace and one for the file
around all of them.  They come from an archive, or are the built-in ones.

Loading fails as a whole, but a file pattern that was read stays loaded when the
namespace pattern after it cannot be read.  It is used only when both are there.
-/

/-! ## Data -/

/-- The data of a namespace that has an address. -/
inductive Part where
  | space | doc | trailing | functions
  | function (index : Nat)
  | case (index : Nat)
  | arguments (index : Nat)
  | bindings (index : Nat)
  | unused (index : Nat)
deriving DecidableEq, Repr

/-- Where the data of a namespace lies: the address of each part and, for a list, from each
of its elements on.  Nothing in a namespace says so, and it may differ from run to run. -/
abbrev Memory := Part → Nat → Nat

namespace Memory

/-- The parts one after the other, without overlaps unless a list is very long. -/
def consecutive : Memory := fun part index =>
  let number : Nat := match part with
    | .space => 0
    | .doc => 1
    | .trailing => 2
    | .functions => 3
    | .function index => 4 + 5 * index
    | .case index => 5 + 5 * index
    | .arguments index => 6 + 5 * index
    | .bindings index => 7 + 5 * index
    | .unused index => 8 + 5 * index
  0xc000000000 + 0x1000000 * number + 0x10 * index

end Memory

/-- A position of a source file as a number: one more than the offset, or zero
when the position is unknown. -/
def placeValue (position : Source.Position) : Value :=
  .integer .offset (if position.isValid then position.offset + 1 else 0)

def caseValue (place : Nat → Nat) (case : Case) : Value :=
  .record "casegen.Case"
    [("Args", .texts place case.arguments), ("Name", .text case.name),
     ("Pos", placeValue case.position), ("Position", .position case.position)] []

def paramFields (param : Param) : List (Bytes × Value) :=
  [("Name", .text param.name), ("Type", .text param.type), ("Position", .position param.position)]

/-- A binding as data: a parameter with a value. -/
def bindingValue (binding : Binding) : Value :=
  .record "casegen.Binding"
    [("Param", .record "casegen.Param" (paramFields binding.param) []), ("Value", .text binding.value)]
    (paramFields binding.param)

/-- A function as data, with its number in the namespace. -/
def functionValue (memory : Memory) (function : Function) (index : Nat) : Value :=
  .pointer (memory (.function index) 0) (.record "casegen.Func"
    [("Ident", .text function.ident),
     ("Case", .pointer (memory (.case index) 0) (caseValue (memory (.arguments index)) function.case)),
     ("Bindings", .listAt (memory (.bindings index)) "casegen.Binding"
       (function.bindings.map bindingValue)),
     ("Unused", .texts (memory (.unused index)) function.unused)] [])

def namespaceValue (memory : Memory) (space : Namespace) : Value :=
  .pointer (memory .space 0) (.record "casegen.Namespace"
    [("Name", .text space.name), ("Doc", .texts (memory .doc) space.doc),
     ("Context", .text space.context), ("Results", .text space.results),
     ("RunType", .text space.runType), ("Body", .text space.body),
     ("Trailing", .texts (memory .trailing) space.trailing),
     ("Funcs", .listAt (memory .functions) "*casegen.Func"
       (space.functions.zipIdx.map fun numbered =>
         functionValue memory numbered.1 numbered.2))] [])

def fileValue (source content : Bytes) : Value :=
  .record "struct \x7b Source string; Content string \x7d"
    [("Source", .text source), ("Content", .text content)] []

/-! ## Loading patterns -/

inductive LoadError where
  | unreadable (failure : FileFailure)
  | missing (archive entry : Bytes)
  | malformed (entry : Bytes) (error : Pattern.ParseError)
deriving DecidableEq, Repr

namespace LoadError

def message : LoadError → Bytes
  | unreadable failure => "reading template archive: " ++ failure.message
  | missing archive entry => "template archive " ++ archive ++ " has no " ++ entry
  | malformed entry error => "parsing " ++ entry ++ ": " ++ error.message

end LoadError

structure Patterns where
  file : Option Compiled := none
  space : Option Compiled := none

def builtinArchive : Archive :=
  ⟨[("file.tmpl", filePattern), ("namespace.tmpl", namespacePattern)]⟩

/-- The archive at a path of a disk, or the built-in one when the path is empty. -/
def readArchive (disk : Disk) (path : Bytes) : Except LoadError Archive :=
  if path.isEmpty then .ok builtinArchive
  else
    match disk.read path with
    | .ok text => .ok (Archive.parse text)
    | .error failure => .error (.unreadable failure)

def archiveName (path : Bytes) : Bytes :=
  if path.isEmpty then "(embedded)" else path

def entries (path : Bytes) (archive : Archive) : Except LoadError (Bytes × Bytes) :=
  match archive.get? "file.tmpl", archive.get? "namespace.tmpl" with
  | none, _ => .error (.missing (archiveName path) "file.tmpl")
  | _, none => .error (.missing (archiveName path) "namespace.tmpl")
  | some file, some space => .ok (file, space)

namespace Patterns

def isComplete (patterns : Patterns) : Bool :=
  patterns.file.isSome && patterns.space.isSome

/-- Reads the patterns of an archive.  The first one stays when only the second
is malformed. -/
def compile (texts : Bytes × Bytes) : Patterns × Option LoadError :=
  match Pattern.compile "file" texts.1 with
  | .error error => ({}, some (.malformed "file.tmpl" error))
  | .ok file =>
    match Pattern.compile "namespace" texts.2 with
    | .error error => ({ file := some file }, some (.malformed "namespace.tmpl" error))
    | .ok space => ({ file := some file, space := some space }, none)

/-- Loads the patterns unless both are loaded.  A malformed file pattern leaves
the namespace pattern as it was. -/
def load (disk : Disk) (path : Bytes) (patterns : Patterns) : Patterns × Option LoadError :=
  if patterns.isComplete then (patterns, none)
  else
    match readArchive disk path >>= entries path with
    | .error error => (patterns, some error)
    | .ok texts =>
      match compile texts with
      | ({ file := none, .. }, error) => ({ patterns with file := none }, error)
      | result => result

end Patterns

/-! ## Rendering -/

inductive RenderError where
  | space (name : Bytes) (pattern : Compiled) (error : Pattern.RunError)
  | file (pattern : Compiled) (error : Pattern.RunError)

namespace RenderError

def message : RenderError → Bytes
  | space name pattern error => "rendering " ++ name ++ ": " ++ error.message pattern
  | file pattern error => "rendering file: " ++ error.message pattern

end RenderError

/-- The text of a namespace, without line feeds at its end. -/
def renderNamespace (pattern : Compiled) (memory : Memory) (space : Namespace) :
    Except RenderError Bytes :=
  match pattern.run (namespaceValue memory space) with
  | .ok text => .ok (Bytes.dropTailWhile (· == byte '\n') text)
  | .error error => .error (.space space.name pattern error)

def renderFile (pattern : Compiled) (source content : Bytes) : Except RenderError Bytes :=
  match pattern.run (fileValue source content) with
  | .ok text => .ok text
  | .error error => .error (.file pattern error)

end Rendering
end CaseExpansion
