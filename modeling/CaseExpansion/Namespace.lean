import CaseExpansion.Template.Basic

namespace CaseExpansion

/-!
# Namespaces

A template expands to a namespace: a type named after the template, with one
function per case.  A function is named by the identifier of its case.  A case
is rejected when its arguments do not fit the parameters, when its name gives
no usable identifier, or when the identifier is taken, by the listing of all
cases or by an earlier case that was accepted.

A case name is free text.  Every code point of it that cannot stand in an ASCII
identifier becomes an underscore, and one underscore more goes in front of what
still would not be an identifier.
-/

namespace Identifier

def isPart (char : Char) : Bool :=
  ('a' ≤ char && char ≤ 'z') || ('A' ≤ char && char ≤ 'Z') || ('0' ≤ char && char ≤ '9')
    || char == '_'

def part (char : Char) : UInt8 :=
  if isPart char then byte char else byte '_'

/-- Every code point of a name replaced by one byte. -/
def parts (name : Bytes) : Bytes :=
  (Text.Utf8.chars name).map part

/-- Whether a row of identifier bytes is no identifier: it starts with a digit,
or it is a word of the language. -/
def needsMark (text : Bytes) : Bool :=
  match text with
  | [] => false
  | head :: _ => Bytes.isDigit head || Source.Token.isKeyword text

def ofName (name : Bytes) : Bytes :=
  let text := parts name
  if needsMark text then byte '_' :: text else text

/-- Whether an identifier can name a generated function. -/
def isUsable (ident : Bytes) : Bool :=
  ident ≠ [] && ident ≠ [byte '_']

end Identifier

structure Function where
  ident : Bytes
  case : Case
  bindings : List Binding
  /-- The bound names that the body does not refer to. -/
  unused : List Bytes
deriving DecidableEq, Repr

/-- The functions of a template, and what they share. -/
structure Namespace where
  name : Bytes
  doc : List Bytes
  context : Bytes
  results : Bytes
  runType : Bytes
  body : Bytes
  trailing : List Bytes
  functions : List Function
deriving DecidableEq, Repr

namespace Template

def listMethod : Bytes := "Cases"

/-- The bound names that need a guard against being unused. -/
def unusedNames (template : Template) (bindings : List Binding) : List Bytes :=
  (bindings.map fun binding => binding.param.name).filter fun name =>
    name ≠ [byte '_'] && !template.references.contains name

def instantiate (template : Template) (case : Case) : Except Error Function := do
  let bindings ← case.bind template.params
  let ident := Identifier.ofName case.name
  if Identifier.isUsable ident then
    return { ident, case, bindings, unused := template.unusedNames bindings }
  else throw ⟨case.position, .unusableName case.name⟩

def acceptCase (template : Template) (accepted : List Function) (case : Case) :
    Except Error Function := do
  let function ← template.instantiate case
  if function.ident = listMethod then
    throw ⟨case.position, .listsCases case.name template.name function.ident⟩
  match accepted.find? fun earlier => earlier.ident == function.ident with
  | some earlier =>
    throw ⟨case.position, .sameIdent earlier.case.name case.name template.name function.ident⟩
  | none => return function

/-- The functions and the errors of cases, after the given functions. -/
def expandCases (template : Template) (accepted : List Function) :
    List Case → List Function × List Error
  | [] => (accepted, [])
  | case :: cases =>
    match template.acceptCase accepted case with
    | .ok function => template.expandCases (accepted ++ [function]) cases
    | .error error =>
      let (functions, errors) := template.expandCases accepted cases
      (functions, error :: errors)

def runType (template : Template) : Bytes :=
  let results : Bytes := if template.results.isEmpty then [] else byte ' ' :: template.results
  "func(" ++ template.contextType ++ ")" ++ results

/-- The namespace of a template, unless some case is rejected. -/
def expand (template : Template) : Except (List Error) Namespace :=
  match template.expandCases [] template.cases with
  | (functions, []) => .ok {
      name := template.name
      doc := template.doc
      context := template.context
      results := template.results
      runType := template.runType
      body := template.body
      trailing := template.trailing
      functions }
  | (_, errors) => .error (Error.sort errors)

end Template
end CaseExpansion
