import CaseExpansion.Directive.Case
import CaseExpansion.Directive.Directory

namespace CaseExpansion

/-!
# Templates

A template is a function declaration whose doc comment carries directives,
taken apart into the pieces that every generated function is built from.

A case gives its arguments by position: the first argument is the value of the
first parameter, and so on.  Their numbers have to agree.
-/

/-- A parameter of a template, with its type as it is written. -/
structure Param where
  name : Bytes
  type : Bytes
  position : Source.Position := {}
deriving DecidableEq, Repr

/-- A parameter and the argument expression that a case gives for it. -/
structure Binding where
  param : Param
  value : Bytes
deriving DecidableEq, Repr

namespace Case

def bind (case : Case) (params : List Param) : Except Error (List Binding) :=
  if case.arguments.length ≠ params.length then
    .error ⟨case.position,
      .wrongArgumentCount case.name case.arguments.length params.length⟩
  else .ok (List.zipWith Binding.mk params case.arguments)

end Case

/-- A function with cases, taken apart. -/
structure Template where
  name : Bytes
  doc : List Bytes := []
  cases : List Case := []
  directories : List CaseDirectories := []
  /-- The lines of the doc comment from the first other line after a directive
  on, as they are written. -/
  trailing : List Bytes := []
  /-- The context parameter that generated functions keep, with its type; empty
  if there is none. -/
  context : Bytes := []
  contextType : Bytes := []
  /-- The parameters that every case gives an argument for. -/
  params : List Param := []
  /-- The results as they are written; empty if there are none. -/
  results : Bytes := []
  body : Bytes := []
  position : Source.Position := {}
  misordered : List Source.Comment := []
  /-- The names that the body uses and does not declare. -/
  references : List Bytes := []
deriving DecidableEq, Repr

namespace Template

/-- Whether generated functions keep a context parameter. -/
def hasContext (template : Template) : Bool :=
  !template.context.isEmpty

end Template
end CaseExpansion
