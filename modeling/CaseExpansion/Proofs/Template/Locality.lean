import CaseExpansion.Proofs.Template.Unplaced

namespace CaseExpansion

open List Source
open Directive (isDirective)

/-!
# What a template depends on

A function is read as a template from its own declaration: from the texts of its doc
comment, from its name and its signature, and from the text of its body with the
names in it.  `FuncDecl.described` collects what is said there, without saying where
it is said.  Besides, the imports of the file tell whether the first parameter is the
context.  Functions of the same description, in files with the same imports, are the
same template up to places.
-/

namespace Source

/-- What a field of a signature says. -/
structure FieldText where
  names : List Bytes
  /-- The type as parameters have it. -/
  type : Bytes
  /-- The package and the name of a type that is selected from a package. -/
  selected : Option (Bytes × Bytes)
deriving DecidableEq, Repr

/-- What a function declaration says. -/
structure DeclarationText where
  doc : List Bytes
  name : Bytes
  isMethod : Bool
  isGeneric : Bool
  params : List FieldText
  results : Bytes
  /-- The text of the body, and the names that it refers to. -/
  body : Option (Bytes × List Bytes)
deriving DecidableEq, Repr

/-- The package and the name of a type that is selected from a package. -/
def Expr.selected? : Expr → Option (Bytes × Bytes)
  | .selector (.ident package) field => some (package.name, field.name)
  | _ => none

/-- What a field says, in the text of its file. -/
def FieldOf.described (source : ParsedFile) (field : Field) : FieldText where
  names := field.names.map Ident.name
  type := Template.paramType source field.type
  selected := field.type.selected?

/-- What the declaration of a function says, in the text of its file. -/
def FuncDecl.described (source : ParsedFile) (function : FuncDecl) : DeclarationText where
  doc := function.docComments.map Comment.text
  name := function.name.name
  isMethod := function.receiver.isSome
  isGeneric := !function.typeParams.fields.isEmpty
  params := function.params.fields.map (FieldOf.described source)
  results := Template.resultsText source function.results
  body := function.body.map fun body => (Template.bodyText source body, references body)

/-- The name and the path of every import of a file, as they are written. -/
def ParsedFile.importTexts (source : ParsedFile) : List (Option Bytes × Bytes) :=
  source.file.imports.map fun imported => (imported.name.map Ident.name, imported.path.text)

end Source

namespace DocParts

/-- The parts of a doc comment are found by the texts of the comments. -/
theorem ofDoc_text {doc other : List Comment} (same : doc.map Comment.text = other.map Comment.text) :
    (ofDoc doc).lead.map Comment.text = (ofDoc other).lead.map Comment.text ∧
      (ofDoc doc).directives.map Comment.text = (ofDoc other).directives.map Comment.text ∧
      (ofDoc doc).trailing.map Comment.text = (ofDoc other).trailing.map Comment.text := by
  have parts (doc : List Comment) :
      (ofDoc doc).lead.map Comment.text =
          (doc.map Comment.text).takeWhile (fun text => !isDirective text) ∧
        (ofDoc doc).directives.map Comment.text =
          ((doc.map Comment.text).dropWhile fun text => !isDirective text).takeWhile
            isDirective ∧
        (ofDoc doc).trailing.map Comment.text =
          ((doc.map Comment.text).dropWhile fun text => !isDirective text).dropWhile
            isDirective := by
    simp only [takeWhile_map, dropWhile_map]
    exact ⟨rfl, rfl, rfl⟩
  rw [(parts doc).1, (parts doc).2.1, (parts doc).2.2, same]
  exact ⟨(parts other).1.symm, (parts other).2.1.symm, (parts other).2.2.symm⟩

theorem docLines_of_text {parts others : DocParts}
    (same : parts.lead.map Comment.text = others.lead.map Comment.text) :
    parts.docLines = others.docLines := by
  rw [docLines, docLines, same]

theorem misordered_eq_nil_iff {parts others : DocParts}
    (same : parts.trailing.map Comment.text = others.trailing.map Comment.text) :
    parts.misordered = [] ↔ others.misordered = [] := by
  have texts (parts : DocParts) : parts.misordered = [] ↔
      (parts.trailing.map Comment.text).filter isDirective = [] := by
    rw [filter_map, map_eq_nil_iff]
    rfl
  rw [texts parts, texts others, same]

end DocParts

namespace Template

/-- An item without its place. -/
def Item.unplaced : Item → Item
  | .case single => .case single.unplaced
  | .directories several => .directories several.unplaced

theorem locate_toOption {α : Type} (mark : Bytes) (read : Bytes → Except Directive.Failure α)
    (place : Nat → Position) (comment : Comment) :
    (Directive.locate mark read place comment).toOption =
      ((Directive.body? mark comment.text).bind fun body => (read body).toOption).map
        fun result => (result, place comment.offset) := by
  unfold Directive.locate
  cases Directive.body? mark comment.text with
  | none => rfl
  | some body =>
    dsimp only [Option.bind_some]
    cases read body <;> rfl

theorem toOption_map {ε α β : Type} (outcome : Except ε α) (change : α → β) :
    (outcome.map change).toOption = outcome.toOption.map change := by
  cases outcome <;> rfl

/-- What a directive gives is a matter of its text, but for the place. -/
theorem readItem_unplaced (place otherPlace : Nat → Position) {comment other : Comment}
    (same : comment.text = other.text) :
    (readItem place comment).toOption.map Item.unplaced =
      (readItem otherPlace other).toOption.map Item.unplaced := by
  unfold readItem CaseDirectories.parse Case.parse
  rw [same]
  split
  · simp only [toOption_map, locate_toOption, same, Option.map_map]
    rfl
  · simp only [toOption_map, locate_toOption, same, Option.map_map]
    rfl

/-- The directives of functions with the same doc texts give the same items. -/
theorem readItems_unplaced (source other : ParsedFile) {function twin : FuncDecl}
    (same : function.docComments.map Comment.text = twin.docComments.map Comment.text) :
    (readItems source function).map (fun result => result.toOption.map Item.unplaced) =
      (readItems other twin).map fun result => result.toOption.map Item.unplaced := by
  unfold readItems
  have texts := (DocParts.ofDoc_text same).2.1
  unfold FuncDecl.docComments at texts
  generalize (DocParts.ofDoc (function.doc.getD [])).directives = comments at texts ⊢
  generalize (DocParts.ofDoc (twin.doc.getD [])).directives = others at texts ⊢
  induction comments generalizing others with
  | nil =>
    cases map_eq_nil_iff.mp texts.symm
    rfl
  | cons comment comments ih =>
    rcases map_eq_cons_iff.mp texts.symm with ⟨first, later, rfl, sameFirst, sameLater⟩
    refine congrArg₂ List.cons (readItem_unplaced _ _ sameFirst.symm) ?_
    exact ih later sameLater.symm

/-- The cases and the directories of items, up to places. -/
theorem items_unplaced {items others : List Item}
    (same : items.map Item.unplaced = others.map Item.unplaced) :
    (items.filterMap Item.case?).map Case.unplaced = (others.filterMap Item.case?).map Case.unplaced ∧
      (items.filterMap Item.directories?).map CaseDirectories.unplaced =
        (others.filterMap Item.directories?).map CaseDirectories.unplaced := by
  have cases (items : List Item) : (items.filterMap Item.case?).map Case.unplaced =
      (items.map Item.unplaced).filterMap Item.case? := by
    rw [filterMap_map, map_filterMap]
    refine filterMap_congr fun item _ => ?_
    cases item <;> rfl
  have directories (items : List Item) :
      (items.filterMap Item.directories?).map CaseDirectories.unplaced =
        (items.map Item.unplaced).filterMap Item.directories? := by
    rw [filterMap_map, map_filterMap]
    refine filterMap_congr fun item _ => ?_
    cases item <;> rfl
  rw [cases items, cases others, directories items, directories others, same]
  exact ⟨rfl, rfl⟩

/-! ## Signatures -/

/-- Whether a selected type is the context type is a matter of the names and the paths
of the imports. -/
theorem isContextType_eq (source : ParsedFile) (type : Expr) :
    isContextType source.file.imports type = type.selected?.any fun selected =>
      selected.2 == ("Context" : Bytes) && source.importTexts.any fun imported =>
        Text.Quoted.decode? imported.2 == some ("context" : Bytes) &&
          selected.1 == imported.1.getD "context" := by
  cases type with
  | selector base field =>
    cases base with
    | ident package =>
      rw [Expr.selected?, Option.any_some, ParsedFile.importTexts, any_map]
      rfl
    | _ => rfl
  | _ => rfl

theorem keepsContext_of_same {source other : ParsedFile} {fields others : List Field}
    (sameImports : source.importTexts = other.importTexts)
    (same : fields.map (FieldOf.described source) = others.map (FieldOf.described other)) :
    keepsContext source fields = keepsContext other others := by
  cases fields with
  | nil =>
    cases map_eq_nil_iff.mp same.symm
    rfl
  | cons field fields =>
    rcases map_eq_cons_iff.mp same.symm with ⟨first, later, rfl, sameFirst, _⟩
    have names := congrArg (fun text => text.names.isEmpty) sameFirst
    have selected := congrArg FieldText.selected sameFirst
    dsimp only [FieldOf.described] at names selected
    rw [isEmpty_map, isEmpty_map] at names
    unfold keepsContext
    dsimp only
    rw [isContextType_eq, isContextType_eq, names, selected, sameImports]

theorem fieldParams_unplaced (source : ParsedFile) (fields : List Field) :
    (fields.flatMap (fieldParams source)).map Param.unplaced =
      (fields.map (FieldOf.described source)).flatMap fun field =>
        field.names.map fun name => { name, type := field.type } := by
  rw [map_flatMap, flatMap_map]
  refine flatMap_congr fun field _ => ?_
  simp only [fieldParams, FieldOf.described, map_map]
  rfl

/-- Signatures of the same description have the same parameters, up to places. -/
theorem splitParams_unplaced {source other : ParsedFile} {fields others : List Field}
    (sameImports : source.importTexts = other.importTexts)
    (same : fields.map (FieldOf.described source) = others.map (FieldOf.described other)) :
    (splitParams source fields).1.map Param.unplaced = (splitParams other others).1.map Param.unplaced ∧
      (splitParams source fields).2.map Param.unplaced =
        (splitParams other others).2.map Param.unplaced := by
  have params : (fields.flatMap (fieldParams source)).map Param.unplaced =
      (others.flatMap (fieldParams other)).map Param.unplaced := by
    rw [fieldParams_unplaced, fieldParams_unplaced, same]
  unfold splitParams
  rw [keepsContext_of_same sameImports same]
  generalize fields.flatMap (fieldParams source) = declared at params ⊢
  generalize others.flatMap (fieldParams other) = otherDeclared at params ⊢
  cases keepsContext other others with
  | false => exact ⟨rfl, params⟩
  | true =>
    cases declared with
    | nil =>
      cases map_eq_nil_iff.mp params.symm
      exact ⟨rfl, rfl⟩
    | cons first rest =>
      rcases map_eq_cons_iff.mp params.symm with ⟨otherFirst, otherRest, rfl, sameFirst, sameRest⟩
      exact ⟨congrArg some sameFirst.symm, sameRest.symm⟩

theorem fitDirectories_unplaced (params : List Param) :
    fitDirectories (params.map Param.unplaced) = fitDirectories params := by
  match params with
  | [] | [_] | [_, _] | _ :: _ :: _ :: _ => rfl

theorem unnamedErrors_eq_nil_iff (source : ParsedFile) (name : Bytes) (fields : List Field) :
    unnamedErrors source name fields = [] ↔
      ∀ text ∈ fields.map (FieldOf.described source), text.names ≠ [] := by
  simp only [unnamedErrors, filterMap_eq_nil_iff, forall_mem_map, FieldOf.described, ne_eq,
    map_eq_nil_iff]
  constructor
  · intro none field isField noNames
    rcases getElem?_of_mem isField with ⟨index, isAt⟩
    have noError := none (field, index) (mem_zipIdx_iff_getElem?.mpr isAt)
    rw [if_pos (List.isEmpty_iff.mpr noNames)] at noError
    cases noError
  · rintro named ⟨field, index⟩ member
    have isField := mem_of_getElem? (mem_zipIdx_iff_getElem?.mp member)
    exact if_neg fun noNames => named field isField (List.isEmpty_iff.mp noNames)

/-- A function without a receiver and without type parameters has a proper head. -/
theorem headErrors_eq_nil_iff (source : ParsedFile) (function : FuncDecl) :
    headErrors source function = [] ↔
      function.receiver.isSome = false ∧ function.typeParams.fields.isEmpty = true := by
  unfold headErrors
  rw [append_eq_nil_iff]
  refine and_congr ?_ ?_
  · cases function.receiver <;> simp
  · cases function.typeParams.fields <;> simp

/-! ## Reading -/

/-- What it takes that a function with directives has no problem. -/
theorem readErrors_eq_nil_iff {source : ParsedFile} {function : FuncDecl} {strict : Bool} :
    readErrors source function strict = [] ↔
      function.body.isSome = true ∧ (outcomes (readItems source function)).2 = [] ∧
      (strict = true → (DocParts.ofDoc function.docComments).misordered = []) ∧
      headErrors source function = [] ∧
      unnamedErrors source function.name.name function.params.fields = [] ∧
      ((outcomes (readItems source function)).1.filterMap Item.directories? = [] ∨
        fitDirectories (splitParams source function.params.fields).2 = true) := by
  unfold readErrors
  dsimp only
  cases function.body with
  | none => simp
  | some body =>
    dsimp only
    have late : (if strict then orderErrors source.place (DocParts.ofDoc (function.doc.getD []))
        .afterRemark
        else []) = [] ↔ (strict = true → (DocParts.ofDoc function.docComments).misordered = []) := by
      cases strict with
      | false => simp
      | true => simp [orderErrors, FuncDecl.docComments]
    have misfit : (if !((outcomes (readItems source function)).1.filterMap Item.directories?).isEmpty &&
        !fitDirectories (splitParams source function.params.fields).2 then
          [(⟨source.place function.name.offset, .directoryParams function.name.name⟩ : Error)]
        else []) = [] ↔
        ((outcomes (readItems source function)).1.filterMap Item.directories? = [] ∨
          fitDirectories (splitParams source function.params.fields).2 = true) := by
      cases (outcomes (readItems source function)).1.filterMap Item.directories? <;>
        cases fitDirectories (splitParams source function.params.fields).2 <;> simp
    rw [append_eq_nil_iff, append_eq_nil_iff, append_eq_nil_iff,
      append_eq_nil_iff, late, misfit]
    simp only [Option.isSome_some, true_and, and_assoc]

section Reading

variable {source other : ParsedFile} {function twin : FuncDecl}
  (sameImports : source.importTexts = other.importTexts)
  (same : function.described source = twin.described other)
include sameImports same

/-- Functions of the same description give the same items and parameters, up to places. -/
theorem parts_of_same :
    (outcomes (readItems source function)).1.map Item.unplaced =
        (outcomes (readItems other twin)).1.map Item.unplaced ∧
      (splitParams source function.params.fields).1.map Param.unplaced =
        (splitParams other twin.params.fields).1.map Param.unplaced ∧
      (splitParams source function.params.fields).2.map Param.unplaced =
        (splitParams other twin.params.fields).2.map Param.unplaced := by
  have sameDoc := congrArg DeclarationText.doc same
  have sameParams := congrArg DeclarationText.params same
  exact ⟨(outcomes_of_same (readItems_unplaced source other sameDoc)).1,
    splitParams_unplaced sameImports sameParams⟩

/-- Functions of the same description both have problems, or none has. -/
theorem readErrors_eq_nil_of_same (strict : Bool) :
    readErrors source function strict = [] ↔ readErrors other twin strict = [] := by
  have sameDoc := congrArg DeclarationText.doc same
  have sameParams := congrArg DeclarationText.params same
  have sameBody := congrArg (fun text => text.body.isSome) same
  have sameMethod := congrArg DeclarationText.isMethod same
  have sameGeneric := congrArg DeclarationText.isGeneric same
  rcases parts_of_same sameImports same with ⟨items, _, params⟩
  have directories := (items_unplaced items).2
  dsimp only [FuncDecl.described] at sameDoc sameParams sameBody sameMethod sameGeneric
  rw [Option.isSome_map, Option.isSome_map] at sameBody
  rw [Bool.not_inj_iff] at sameGeneric
  rw [readErrors_eq_nil_iff, readErrors_eq_nil_iff, headErrors_eq_nil_iff, headErrors_eq_nil_iff,
    unnamedErrors_eq_nil_iff, unnamedErrors_eq_nil_iff, sameBody, sameMethod, sameGeneric, sameParams,
    (outcomes_of_same (readItems_unplaced source other sameDoc)).2,
    DocParts.misordered_eq_nil_iff (DocParts.ofDoc_text sameDoc).2.2,
    ← fitDirectories_unplaced, params, fitDirectories_unplaced,
    ← map_eq_nil_iff (f := CaseDirectories.unplaced), directories, map_eq_nil_iff]

/-- Templates of the same description are the same, up to places. -/
theorem assemble_of_same {body otherBody : Block} (hasBody : function.body = some body)
    (hasOtherBody : twin.body = some otherBody) :
    (assemble source function body (outcomes (readItems source function)).1).unplaced =
      (assemble other twin otherBody (outcomes (readItems other twin)).1).unplaced := by
  have sameDoc := congrArg DeclarationText.doc same
  have sameName := congrArg DeclarationText.name same
  have sameResults := congrArg DeclarationText.results same
  have sameBody := congrArg DeclarationText.body same
  rcases parts_of_same sameImports same with ⟨items, context, params⟩
  rcases DocParts.ofDoc_text sameDoc with ⟨lead, _, trailing⟩
  dsimp only [FuncDecl.described] at sameName sameResults sameBody
  rw [hasBody, hasOtherBody] at sameBody
  have sameTexts := Prod.mk.inj (Option.some.inj sameBody)
  have ofContext (write : Param → Bytes) (blind : ∀ param, write param.unplaced = write param) :
      (splitParams source function.params.fields).1.map write =
        (splitParams other twin.params.fields).1.map write := by
    have written := congrArg (Option.map write) context
    simpa only [Option.map_map, Function.comp_def, blind] using written
  simp only [assemble, unplaced, Template.mk.injEq]
  exact ⟨sameName, DocParts.docLines_of_text lead, (items_unplaced items).1, (items_unplaced items).2,
    trailing, congrArg (Option.getD · []) (ofContext _ fun _ => rfl),
    congrArg (Option.getD · []) (ofContext _ fun _ => rfl), params, sameResults, sameTexts.1, trivial,
    trivial, sameTexts.2⟩

/-- Functions of the same description, in files with the same imports, are read alike. -/
theorem read_of_same (strict : Bool) :
    (read source function strict).toOption.map (Option.map unplaced) =
      (read other twin strict).toOption.map (Option.map unplaced) := by
  have directive : (function.doc.getD []).any (fun comment => isDirective comment.text) =
      (twin.doc.getD []).any fun comment => isDirective comment.text := by
    have sameDoc := congrArg (fun text => text.doc.any isDirective) same
    dsimp only [FuncDecl.described] at sameDoc
    rwa [any_map, any_map] at sameDoc
  have errors := readErrors_eq_nil_of_same sameImports same strict
  rw [read_eq, read_eq, directive]
  split
  next =>
    cases found : readErrors source function strict with
    | nil =>
      rw [errors.mp found]
      rcases readErrors_eq_nil_iff.mp found with ⟨hasBody, _⟩
      rcases readErrors_eq_nil_iff.mp (errors.mp found) with ⟨hasOtherBody, _⟩
      rcases Option.isSome_iff_exists.mp hasBody with ⟨body, hasBody⟩
      rcases Option.isSome_iff_exists.mp hasOtherBody with ⟨otherBody, hasOtherBody⟩
      rw [hasBody, hasOtherBody]
      exact congrArg (some ∘ some) (assemble_of_same sameImports same hasBody hasOtherBody)
    | cons error rest =>
      have otherErrors : readErrors other twin strict ≠ [] := by
        intro none
        rw [errors.mpr none] at found
        cases found
      rcases exists_cons_of_ne_nil otherErrors with ⟨otherError, otherRest, otherFound⟩
      rw [otherFound]
      cases function.body <;> cases twin.body <;> rfl
  next => rfl

end Reading

end Template
end CaseExpansion
