import CaseExpansion.Proofs.Template.Capture
import CaseExpansion.Proofs.Template.Locality
import CaseExpansion.Proofs.Template.StrictReading

namespace CaseExpansion
namespace Template

open List Source

/-!
# The signature of a template

The parameters of a template are those that its function declares, one for every name, in their
order and with the text of their types.  The first one is set apart if its type is that of a context.
Then the function keeps it, and the cases have an argument for each of the others.
-/

/-! ## Types of parameters -/

/-- The text of the type of a parameter.  A variadic parameter is a slice of its elements. -/
inductive TypeText (source : ParsedFile) : Expr → Bytes → Prop where
  | variadic (offset : Nat) (element : Expr) :
      TypeText source (.ellipsis offset (some element)) ("[]" ++ source.exprText element)
  | plain {type : Expr} (notVariadic : ∀ offset element, type ≠ .ellipsis offset (some element)) :
      TypeText source type (source.exprText type)

/-- The type is `Context` of a package with the name under which the file imports `context`. -/
def NamesContext (source : ParsedFile) (type : Expr) : Prop :=
  ∃ package field imported, type = .selector (.ident package) field ∧ field.name = "Context" ∧
    imported ∈ source.file.imports ∧ Text.Quoted.decode? imported.path.text = some "context" ∧
    package.name = (imported.name.map Ident.name).getD "context"

variable {source : ParsedFile} {function : FuncDecl} {template : Template} {fields : List Field}

theorem typeText_paramType (source : ParsedFile) (type : Expr) :
    TypeText source type (paramType source type) := by
  unfold paramType
  split
  next offset element => exact .variadic offset element
  next notVariadic => exact .plain notVariadic

theorem isContextType_iff {type : Expr} :
    isContextType source.file.imports type = true ↔ NamesContext source type := by
  unfold isContextType NamesContext
  split
  next package field =>
    simp only [Bool.and_eq_true, beq_iff_eq, any_eq_true]
    constructor
    · rintro ⟨isContext, imported, isImport, isPath, isName⟩
      exact ⟨package, field, imported, rfl, isContext, isImport, isPath, isName⟩
    · rintro ⟨_, _, imported, ⟨⟩, isContext, isImport, isPath, isName⟩
      exact ⟨isContext, imported, isImport, isPath, isName⟩
  next other =>
    refine ⟨fun impossible => (by cases impossible), ?_⟩
    rintro ⟨package, field, _, isSelector, _⟩
    exact absurd isSelector (other package field)

theorem keepsContext_iff (named : ∀ field ∈ fields, field.names ≠ []) :
    keepsContext source fields = true ↔ ∃ field, fields.head? = some field ∧
    NamesContext source field.type := by
  cases fields with
  | nil =>
    refine ⟨fun impossible => (by cases impossible), ?_⟩
    rintro ⟨_, impossible, _⟩
    cases impossible
  | cons field fields =>
    have hasName : field.names.isEmpty = false :=
      Bool.eq_false_iff.mpr fun empty => named field mem_cons_self (List.isEmpty_iff.mp empty)
    rw [keepsContext, hasName, Bool.not_false, Bool.true_and, isContextType_iff]
    constructor
    · intro context
      exact ⟨field, rfl, context⟩
    · rintro ⟨_, ⟨⟩, context⟩
      exact context

/-! ## Parameters -/

/-- A parameter of a template is a declared one, with its name, its type and its place. -/
structure ReadAs (source : ParsedFile) (declared : Ident × Expr) (param : Param) : Prop where
  name : param.name = declared.1.name
  type : TypeText source declared.2 param.type
  position : param.position = source.place declared.1.offset

/-- All declared parameters are read, and the first of them is set apart if it is a context. -/
theorem splitParams_reads (named : ∀ field ∈ fields, field.names ≠ []) :
    List.Forall₂ (ReadAs source) (declaredParams fields)
        ((splitParams source fields).1.toList ++ (splitParams source fields).2) ∧
      ((splitParams source fields).1.isSome = true ↔
        ∃ field, fields.head? = some field ∧ NamesContext source field.type) := by
  have reads (declared : List (Ident × Expr)) :
      List.Forall₂ (ReadAs source) declared (declared.map (paramOf source)) :=
    forall₂_map_right_iff.mpr
      (forall₂_same.mpr fun param _ => ⟨rfl, typeText_paramType source param.2, rfl⟩)
  rw [splitParams_eq, splitDeclared, ← keepsContext_iff named]
  cases kept : keepsContext source fields with
  | false => exact ⟨reads _, iff_of_false Bool.false_ne_true Bool.false_ne_true⟩
  | true =>
    cases isDeclared : declaredParams fields with
    | cons first rest => exact ⟨reads (first :: rest), iff_of_true rfl rfl⟩
    | nil =>
      -- A context is kept only where the first field has a name.
      cases fields with
      | nil => cases kept
      | cons field fields =>
        rw [declaredParams, flatMap_cons, append_eq_nil_iff, map_eq_nil_iff] at isDeclared
        exact absurd isDeclared.1 (named field mem_cons_self)

theorem named_of_unnamedErrors {name : Bytes} (none : unnamedErrors source name fields = []) :
    ∀ field ∈ fields, field.names ≠ [] := by
  intro field isField noNames
  have described := (unnamedErrors_eq_nil_iff source name fields).mp none _ (mem_map_of_mem isField)
  refine described ?_
  rw [FieldOf.described, noNames]
  rfl

theorem exists_of_fitDirectories {params : List Param} (fit : fitDirectories params = true) :
    ∃ path contents, params = [path, contents] ∧ path.type = "string" ∧ contents.type = "string" := by
  unfold fitDirectories at fit
  split at fit
  next path contents =>
    rw [Bool.and_eq_true, beq_iff_eq, beq_iff_eq] at fit
    exact ⟨path, contents, rfl, fit⟩
  next => cases fit

theorem assemble_context (source : ParsedFile) (function : FuncDecl) (body : Block) (items : List Item) :
    (assemble source function body items).context =
    ((splitParams source function.params.fields).1.map fun param =>
        param.name ++ byte ' ' :: param.type).getD [] ∧
      (assemble source function body items).contextType =
        ((splitParams source function.params.fields).1.map Param.type).getD [] :=
  ⟨rfl, rfl⟩

/-- The parameters of a template are all that its function declares, in order: the context that it keeps,
if the first field has that type, and the others.  A case that is accepted has an argument for each of
the others. -/
theorem signature_is_read_completely {strict : Bool}
    (isRead : read source function strict = .ok (some template)) :
    ∃ kept : Option Param,
      List.Forall₂ (ReadAs source) (declaredParams function.params.fields)
        (kept.toList ++ template.params) ∧
      (kept.isSome = true ↔
        ∃ field, function.params.fields.head? = some field ∧ NamesContext source field.type) ∧
      (∀ param, kept = some param →
        template.context = param.name ++ " " ++ param.type ∧ template.contextType = param.type) ∧
      (kept = none → template.context = [] ∧ template.contextType = []) ∧
      (template.directories ≠ [] →
        ∃ path contents, template.params = [path, contents] ∧ path.type = "string" ∧
        contents.type = "string") ∧
      ∀ case generated, template.instantiate case = .ok generated →
        generated.bindings.map Binding.param = template.params ∧
        generated.bindings.map Binding.value = case.arguments ∧
        kept.toList.length + case.arguments.length = (declaredParams function.params.fields).length := by
  rcases read_eq_some_iff.mp isRead with ⟨_, noErrors, body, _, rfl⟩
  rcases readErrors_eq_nil_iff.mp noErrors with ⟨_, _, _, _, allNamed, fit⟩
  rcases @splitParams_reads source _ (named_of_unnamedErrors allNamed) with ⟨reads, isKept⟩
  refine ⟨(splitParams source function.params.fields).1, reads, isKept, fun param kept => ?_,
    fun none => ?_, ?_, ?_⟩
  · rw [(assemble_context ..).1, (assemble_context ..).2, kept, append_assoc]
    exact ⟨rfl, rfl⟩
  · rw [(assemble_context ..).1, (assemble_context ..).2, none]
    exact ⟨rfl, rfl⟩
  · intro someDirectories
    exact exists_of_fitDirectories (fit.resolve_left someDirectories)
  · intro case generated instantiated
    rcases bind_eq_ok (instantiate_eq_ok instantiated).2.1 with ⟨fits, isBound⟩
    have total := reads.length_eq
    rw [length_append] at total
    rcases map_bindings fits with ⟨areParams, areValues⟩
    rw [isBound]
    refine ⟨areParams, areValues, ?_⟩
    rw [fits, total]
    rfl

/-- A file that imports `context` under another name, and another package under that one. -/
def groupedFile : Bytes :=
  "package p\n\nimport (\n\tctx \"context\"\n\tcontext \"other\"\n)\n\n//casegen:case c, 1, 2, nil; \"a\"\nfunc f(c, d ctx.Context, _, n int, rest ...context.Context) \x7b\n\tg(c, d, n, rest)\n\x7d\n"

/-- The parameters of the function in the file that get an argument. -/
def groupedParams : List (Bytes × Bytes) :=
  [("d", "ctx.Context"), ("_", "int"), ("n", "int"), ("rest", "[]context.Context")]

/-- Whether a template has the context and these parameters. -/
def isGrouped (template : Template) : Bool :=
  template.context == ("c ctx.Context" : Bytes) &&
    template.params.map (fun param => (param.name, param.type)) == groupedParams

theorem grouped_signature_is_read_completely :
    ∃ source function template, parseFile "cases.go" groupedFile = .ok source ∧
      function ∈ source.file.functions ∧ read source function false = .ok (some template) ∧
      isGrouped template = true ∧ ∃ context,
        List.Forall₂ (ReadAs source) (declaredParams function.params.fields)
          (context :: template.params) := by
  have computed : (parseFile "cases.go" groupedFile).toOption.any (fun source =>
      source.file.functions.any fun function =>
        (read source function false).toOption.any fun template? => template?.any isGrouped) = true := by
    decide +kernel
  rcases exists_ok_of_any computed with ⟨source, parsed, passes⟩
  rcases any_eq_true.mp passes with ⟨function, isFunction, passes⟩
  rcases exists_ok_of_any passes with ⟨template?, isRead, passes⟩
  rcases (Option.any_eq_true ..).mp passes with ⟨template, rfl, passes⟩
  refine ⟨source, function, template, parsed, isFunction, isRead, passes, ?_⟩
  rcases signature_is_read_completely isRead with ⟨kept, reads, _, _, unkept, _⟩
  cases kept with
  | some context => exact ⟨context, reads⟩
  | none =>
    have isContext := eq_of_beq (Bool.and_eq_true_iff.mp passes).1
    cases (unkept rfl).1.symm.trans isContext

end Template
end CaseExpansion
