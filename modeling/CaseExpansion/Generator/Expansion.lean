import CaseExpansion.Generator.Edit
import CaseExpansion.Rendering.Basic
import CaseExpansion.Template.Directories

namespace CaseExpansion

open Source

/-!
# Expansion of a file

Every function of a file is looked at on its own: it is no template, or it cannot be
read, or its cases cannot be expanded, or it gives a namespace.  The problems of a
file are those of its guard and of its functions, and directives that belong to no
function.  Namespaces are rendered into edits of the source.
-/

inductive Expansion where
  | plain
  | unreadable (errors : List Error)
  | unexpanded (template : Template) (errors : List Error)
  | expanded (template : Template) (space : Namespace)

namespace Expansion

/-- Reads a function and expands it, with the cases of its directories. -/
def ofFunction (source : ParsedFile) (strict : Bool) (files : FileSystem) (function : FuncDecl) :
    Expansion :=
  match Template.read source function strict with
  | .error errors => unreadable errors
  | .ok none => plain
  | .ok (some template) =>
    match template.loadDirectories files with
    | (loaded, []) =>
      match loaded.expand with
      | .ok space => expanded loaded space
      | .error errors => unexpanded loaded errors
    | (loaded, errors) => unexpanded loaded errors

/-- The template of a function, if it was read. -/
def template? : Expansion → Option Template
  | plain | unreadable _ => none
  | unexpanded template _ | expanded template _ => some template

def errors : Expansion → List Error
  | plain | expanded .. => []
  | unreadable errors | unexpanded _ errors => errors

/-- Warnings about directives that come too late and are kept as they are. -/
def warnings (source : ParsedFile) (expansion : Expansion) : List Error :=
  match expansion.template? with
  | none => []
  | some template =>
    template.misordered.map fun comment =>
      ⟨source.place comment.offset, .forwarded (template.trailing.headD [])⟩

end Expansion

/-- The directives of a file that are in no doc comment of a function. -/
def detachedDirectives (file : File) : List Comment :=
  let docs := file.functions.filterMap FuncDecl.doc
  (file.comments.filter fun group => !docs.elem group).flatten.filter fun comment =>
    Directive.isDirective comment.text

def detachedErrors (source : ParsedFile) : List Error :=
  (detachedDirectives source.file).map fun comment => ⟨source.place comment.offset, .detached⟩

def expansions (source : ParsedFile) (strict : Bool) (files : FileSystem) :
    List (FuncDecl × Expansion) :=
  source.file.functions.map fun function =>
    (function, Expansion.ofFunction source strict files function)

/-- All problems of a file, in the order in which they are found. -/
def fileErrors (source : ParsedFile) (filename tag : Bytes) (found : List (FuncDecl × Expansion)) :
    List Error :=
  let guardErrors := match Guard.edits source tag with
    | .ok _ => []
    | .error error => [error]
  let errors := guardErrors ++ found.flatMap (fun (_, expansion) => expansion.errors)
    ++ detachedErrors source
  if errors.isEmpty && found.all fun (_, expansion) => expansion.template?.isNone then
    [⟨source.place source.file.package, .nothingToExpand (Path.base filename)⟩]
  else errors

structure Rendered where
  warnings : List Error := []
  edits : List Edit := []
  failure : Option Rendering.RenderError := none

/-- Renders namespaces into edits.  Each takes the place of its function and of the
function's doc comment, and has a memory of its own.  Rendering ends with the first
failure, and so do the warnings. -/
def renderExpansions (source : ParsedFile) (memory : Nat → Rendering.Memory)
    (pattern : Pattern.Compiled) : List (FuncDecl × Expansion) → Rendered
  | [] => {}
  | (function, expansion) :: rest =>
    let warnings := expansion.warnings source
    match expansion with
    | .expanded _ space =>
      let start := CommentGroup.start (function.doc.getD [])
      match Rendering.renderNamespace pattern (memory start) space with
      | .error error => { warnings, failure := some error }
      | .ok text =>
        let later := renderExpansions source memory pattern rest
        { later with
          warnings := warnings ++ later.warnings
          edits := ⟨start, function.stop, text⟩ :: later.edits }
    | _ =>
      let later := renderExpansions source memory pattern rest
      { later with warnings := warnings ++ later.warnings }

end CaseExpansion
