import CaseExpansion.Template.Basic
import CaseExpansion.Template.References

namespace CaseExpansion

open Source

/-!
# Reading templates

A doc comment falls into three parts: the lines before the first directive, the
directives from there on, and everything from the first line after them that is
no directive.  A directive in the last part comes too late.  It stays an
ordinary line there, and a strict reading rejects it.

All problems of a function are reported together.  Only a function without a
body is not looked at any further.
-/

structure DocParts where
  lead : List Comment
  directives : List Comment
  trailing : List Comment
deriving DecidableEq, Repr

namespace DocParts

def ofDoc (doc : List Comment) : DocParts :=
  let isDirective (comment : Comment) : Bool := Directive.isDirective comment.text
  let rest := doc.dropWhile fun comment => !isDirective comment
  { lead := doc.takeWhile fun comment => !isDirective comment
    directives := rest.takeWhile isDirective
    trailing := rest.dropWhile isDirective }

/-- The lines of the lead without empty comment lines at its end. -/
def docLines (parts : DocParts) : List Bytes :=
  ((parts.lead.map Comment.text).reverse.dropWhile (· == ("//" : Bytes))).reverse

def misordered (parts : DocParts) : List Comment :=
  parts.trailing.filter fun comment => Directive.isDirective comment.text

def remark (parts : DocParts) : Bytes :=
  (parts.trailing.head?.map Comment.text).getD []

end DocParts

def outcomes {α : Type} (results : List (Except Error α)) : List α × List Error :=
  (results.filterMap fun
      | .ok result => some result
      | .error _ => none,
    results.filterMap fun
      | .ok _ => none
      | .error error => some error)

namespace Source.ParsedFile

def place (source : ParsedFile) (offset : Nat) : Position :=
  source.table.position offset

def exprText (source : ParsedFile) (expr : Expr) : Bytes :=
  Bytes.slice source.text expr.start expr.stop

end Source.ParsedFile

namespace Template

inductive Item where
  | case (case : Case)
  | directories (directories : CaseDirectories)

def readItem (place : Nat → Position) (comment : Comment) : Except Error Item :=
  if Directive.isDirectory comment.text then
    (CaseDirectories.parse place comment).map Item.directories
  else (Case.parse place comment).map Item.case

/-- Whether a type is the context type, under the name by which the file
imports its package. -/
def isContextType (imports : List Import) : Expr → Bool
  | .selector (.ident package) field =>
    field.name == ("Context" : Bytes) && imports.any fun imported =>
      Text.Quoted.decode? imported.path.text == some "context"
        && package.name == (imported.name.map Ident.name).getD "context"
  | _ => false

/-- The text of a declared parameter type.  A variadic parameter is a slice. -/
def paramType (source : ParsedFile) (type : Expr) : Bytes :=
  match type with
  | .ellipsis _ (some element) => "[]" ++ source.exprText element
  | type => source.exprText type

def fieldParams (source : ParsedFile) (field : Field) : List Param :=
  field.names.map fun name =>
    { name := name.name, type := paramType source field.type, position := source.place name.offset }

def unnamedErrors (source : ParsedFile) (template : Bytes) (fields : List Field) : List Error :=
  fields.zipIdx.filterMap fun (field, index) =>
    if field.names.isEmpty then
      some ⟨source.place (fieldStart field), .unnamedParam template (index + 1)⟩
    else none

def keepsContext (source : ParsedFile) (fields : List Field) : Bool :=
  match fields with
  | [] => false
  | field :: _ => !field.names.isEmpty && isContextType source.file.imports field.type

/-- Whether parameters fit the cases of a directory: a path and the contents. -/
def fitDirectories (params : List Param) : Bool :=
  match params with
  | [path, contents] => path.type == ("string" : Bytes) && contents.type == ("string" : Bytes)
  | _ => false

def resultsText (source : ParsedFile) (results : FieldList) : Bytes :=
  match results.fields with
  | [] => []
  | first :: _ =>
    match results.opening, results.closing with
    | some opening, some closing => Bytes.slice source.text opening (closing + 1)
    | _, _ => source.exprText first.type

/-- The text between braces, without a line feed right after the opening one. -/
def bodyText (source : ParsedFile) (body : Block) : Bytes :=
  let inner := Bytes.slice source.text (body.lbrace + 1) body.rbrace
  (Bytes.cutLead? "\n" inner).getD inner

def orderErrors (place : Nat → Position) (parts : DocParts) (problem : Bytes → Problem) :
    List Error :=
  parts.misordered.map fun comment => ⟨place comment.offset, problem parts.remark⟩

def headErrors (source : ParsedFile) (function : FuncDecl) : List Error :=
  let name := function.name.name
  (match function.receiver with
    | some receiver => [⟨source.place receiver.start, .isMethod name⟩]
    | none => [])
  ++ if function.typeParams.fields.isEmpty then []
    else [⟨source.place function.typeParams.start, .hasTypeParams name⟩]

/-- Reads a function declaration as a template.  A function without directives
is none. -/
def read (source : ParsedFile) (function : FuncDecl) (strict : Bool) :
    Except (List Error) (Option Template) :=
  let doc := function.doc.getD []
  if !doc.any fun comment => Directive.isDirective comment.text then .ok none
  else
    let name := function.name.name
    let parts := DocParts.ofDoc doc
    let (items, itemErrors) := outcomes (parts.directives.map (readItem source.place))
    let late := if strict then orderErrors source.place parts .afterRemark else []
    let errors := itemErrors ++ late ++ headErrors source function
    match function.body with
    | none => .error (Error.sort (errors ++ [⟨source.place function.name.offset, .hasNoBody name⟩]))
    | some body =>
      let fields := function.params.fields
      let declared := fields.flatMap (fieldParams source)
      let (context, params) := match keepsContext source fields, declared with
        | true, first :: rest => (some first, rest)
        | _, declared => (none, declared)
      let directories := items.filterMap fun
        | .directories directories => some directories
        | .case _ => none
      let misfit :=
        if !directories.isEmpty && !fitDirectories params then
          [⟨source.place function.name.offset, .directoryParams name⟩]
        else []
      match errors ++ unnamedErrors source name fields ++ misfit with
      | [] => .ok (some {
          name
          doc := parts.docLines
          cases := items.filterMap fun
            | .case case => some case
            | .directories _ => none
          directories
          trailing := parts.trailing.map Comment.text
          context := (context.map fun param => param.name ++ byte ' ' :: param.type).getD []
          contextType := (context.map Param.type).getD []
          params
          results := resultsText source function.results
          body := bodyText source body
          position := source.place function.name.offset
          misordered := parts.misordered
          references := CaseExpansion.references body })
      | errors => .error (Error.sort errors)

end Template
end CaseExpansion
