import CaseExpansion.Build.Constraint
import CaseExpansion.Files.Basic
import CaseExpansion.Source.Fault
import CaseExpansion.Source.Position
import CaseExpansion.Source.Token

namespace CaseExpansion

open Source (Position Defect)
open Build (ConstraintError)

/-!
# Problems with templates

A problem is the cause for which a template, or one of its cases, cannot be
expanded.  Its kind and its wording are functions of the cause.  An `Error` is
a problem at a place in a source file.

A run reports all its problems together, in the order of their places
(`Error.sort`, which keeps problems at the same place in the order in which
they were found).
-/

/-- What a directive has in the place where something else belongs. -/
structure Found where
  token : Source.Token
  literal : Bytes
deriving DecidableEq, Repr

namespace Found

/-- The lexeme as messages quote it: by its spelling, if it has one of its own. -/
def quoted (found : Found) : Bytes :=
  if found.literal ≠ [] && found.token ≠ .semicolon then Text.Quoted.encode found.literal
  else Text.Quoted.encode found.token.spelling

end Found

inductive Kind where
  | directive
  | arity
  | collision
  | name
  | signature
  | placement
  | order
  | usage
  | directory
  | other (code : Int)
deriving DecidableEq, Repr

namespace Kind

/-- The class with a number.  Numbers without a class of their own stand for
themselves. -/
def ofCode : Int → Kind
  | 1 => directive
  | 2 => arity
  | 3 => collision
  | 4 => name
  | 5 => signature
  | 6 => placement
  | 7 => order
  | 8 => usage
  | 9 => directory
  | code => other code

def title : Kind → Bytes
  | directive => "invalid case"
  | arity => "arity mismatch"
  | collision => "name collision"
  | name => "invalid case name"
  | signature => "invalid template"
  | placement => "misplaced case"
  | order => "misordered case"
  | usage => "usage"
  | directory => "unreadable case directory"
  | other code => "Kind(" ++ Bytes.decimalInt code ++ ")"

end Kind

/-- A cause for which a template or a case cannot be expanded. -/
inductive Problem where
  /-- A comment that was taken for a directive and does not start like one. -/
  | notDirective (mark : Bytes)
  | lexical (defect : Defect)
  | missingSemicolon
  | emptyArgument (number : Nat)
  | notExpression (number : Nat) (text : Bytes)
  | missingName
  | nameNotString (found : Found)
  | invalidName (literal : Bytes)
  | afterName (found : Found)
  | missingDirectory
  | directoryNotString (found : Found)
  | invalidDirectory (literal : Bytes)
  | emptyDirectory
  | afterDirectory (found : Found)
  | wrongArgumentCount (caseName : Bytes) (got want : Nat)
  | listsCases (caseName template ident : Bytes)
  | sameIdent (firstName secondName template ident : Bytes)
  | unusableName (caseName : Bytes)
  | isMethod (template : Bytes)
  | hasTypeParams (template : Bytes)
  | hasNoBody (template : Bytes)
  | unnamedParam (template : Bytes) (number : Nat)
  | directoryParams (template : Bytes)
  | detached
  /-- A directive after another annotation, which a strict reading rejects. -/
  | afterRemark (remark : Bytes)
  /-- A directive after another annotation, which is kept as an annotation. -/
  | forwarded (remark : Bytes)
  | invalidConstraint (error : ConstraintError)
  | missingTag (tag : Bytes)
  | nothingToExpand (file : Bytes)
  | unreadable (failure : FileFailure)
  | noFiles (directory : Bytes)
  /-- A problem that was found elsewhere and has its wording already. -/
  | reported (kind : Kind) (text : Bytes)
deriving DecidableEq, Repr

namespace Problem

def kind : Problem → Kind
  | notDirective .. | lexical .. | missingSemicolon | emptyArgument .. | notExpression ..
  | missingName | nameNotString .. | invalidName .. | afterName ..
  | missingDirectory | directoryNotString .. | invalidDirectory .. | emptyDirectory
  | afterDirectory .. => .directive
  | wrongArgumentCount .. => .arity
  | listsCases .. | sameIdent .. => .collision
  | unusableName .. => .name
  | isMethod .. | hasTypeParams .. | hasNoBody .. | unnamedParam .. | directoryParams .. => .signature
  | detached => .placement
  | afterRemark .. | forwarded .. => .order
  | invalidConstraint .. | missingTag .. | nothingToExpand .. => .usage
  | unreadable .. | noFiles .. => .directory
  | reported kind _ => kind

def quoted (text : Bytes) : Bytes :=
  Text.Quoted.encode text

def message : Problem → Bytes
  | notDirective mark => "not a " ++ mark ++ " directive"
  | lexical defect => defect.message
  | missingSemicolon => "missing ';' before case name"
  | emptyArgument number => "argument " ++ Bytes.decimal number ++ " is empty"
  | notExpression number text =>
    "argument " ++ Bytes.decimal number ++ ": " ++ quoted text ++ " is not an expression"
  | missingName => "missing case name"
  | nameNotString found => "case name must be a string literal, found " ++ found.quoted
  | invalidName literal => "invalid case name " ++ literal ++ ": invalid syntax"
  | afterName found => "unexpected " ++ found.quoted ++ " after case name"
  | missingDirectory => "missing directory"
  | directoryNotString found => "directory must be a string literal, found " ++ found.quoted
  | invalidDirectory literal => "invalid directory " ++ literal ++ ": invalid syntax"
  | emptyDirectory => "directory is empty"
  | afterDirectory found => "unexpected " ++ found.quoted ++ " after directory"
  | wrongArgumentCount caseName got want =>
    "case " ++ quoted caseName ++ ": wrong number of arguments: got " ++ Bytes.decimal got
      ++ ", want " ++ Bytes.decimal want
  | listsCases caseName template ident =>
    "case " ++ quoted caseName ++ " generates " ++ template ++ "." ++ ident
      ++ ", which lists the cases"
  | sameIdent firstName secondName template ident =>
    "cases " ++ quoted firstName ++ " and " ++ quoted secondName ++ " both generate "
      ++ template ++ "." ++ ident
  | unusableName caseName =>
    "case name " ++ quoted caseName ++ " does not produce a usable identifier"
  | isMethod template => template ++ ": methods cannot carry case directives"
  | hasTypeParams template => template ++ ": type parameters are not supported"
  | hasNoBody template => template ++ ": template has no body"
  | unnamedParam template number =>
    template ++ ": parameter " ++ Bytes.decimal number ++ " has no name"
  | directoryParams template =>
    template ++ ": directory cases need (path, contents string) parameters"
  | detached => "case directive is not attached to a top-level function declaration"
  | afterRemark remark =>
    "case directive follows " ++ quoted remark
      ++ "; case directives must come before other annotations"
  | forwarded remark =>
    "case directive follows " ++ quoted remark ++ " and is forwarded without being expanded"
  | invalidConstraint error => "invalid build constraint: " ++ error.message
  | missingTag tag =>
    "template file must carry a //go:build constraint requiring the " ++ quoted tag ++ " tag"
  | nothingToExpand file => "no //casegen:case directives in " ++ file ++ ": nothing to expand"
  | unreadable failure => failure.message
  | noFiles directory => directory ++ " has no files to turn into cases"
  | reported _ text => text

end Problem

structure Error where
  position : Position
  problem : Problem
deriving DecidableEq, Repr

namespace Error

def kind (error : Error) : Kind :=
  error.problem.kind

/-- The kind and wording of an error, after its place if that is known. -/
def render (error : Error) : Bytes :=
  let report := error.kind.title ++ ": " ++ error.problem.message
  if error.position.isValid then error.position.render ++ ": " ++ report else report

def sort (errors : List Error) : List Error :=
  errors.mergeSort fun left right => (left.position.compare right.position).isLE

/-- All errors of a run, one to a line. -/
def renderAll : List Error → Bytes
  | [] => "no errors"
  | errors => Bytes.joinWith "\n" (errors.map render)

end Error
end CaseExpansion
