import CaseExpansion.Proofs.Template.ErrorKinds
import CaseExpansion.Proofs.Template.Locality

namespace CaseExpansion

open List Source

/-!
# Where the problems of a template are

A problem with a directive is found inside of its comment, and a problem with a
signature at the receiver, at the type parameters, at a parameter or at the name of the
function.  `FuncDecl.places` collects where these are.  A function is read from what its
declaration says and from where it says it; files that agree on both, and on their
imports, give the same template or the same problems at the same places.
-/

/-! ## Problems of directives -/

namespace Directive

/-- A directive is read alike when its comment has the same places. -/
theorem locate_of_places {α : Type} {mark : Bytes} {read : Bytes → Except Failure α}
    {place otherPlace : Nat → Position} {comment : Comment}
    (inside : ∀ body, Blames (Failure.Inside body.length) (read body))
    (same : ∀ index ≤ comment.text.length, place (comment.offset + index) =
      otherPlace (comment.offset + index)) :
    locate mark read place comment = locate mark read otherPlace comment := by
  have start := same 0 (Nat.zero_le _)
  rw [Nat.add_zero] at start
  unfold locate
  split
  · rw [start]
  next body hasBody =>
    have parts := congrArg List.length (eq_append_of_body? hasBody)
    rw [length_append] at parts
    split
    next failure failed =>
      have inBody := (inside body failure failed).offset
      rw [Nat.add_assoc, same (mark.length + failure.offset) (by omega)]
    next => rw [start]

end Directive

/-! ## Places of declarations -/

namespace Source

/-- Where the parts of a function declaration are that problems are reported at. -/
structure DeclarationPlaces where
  /-- Every comment of the doc comment, byte by byte and with its end. -/
  doc : List (List Position)
  name : Position
  receiver : Option Position
  typeParams : Option Position
  /-- Every field of the signature, and the names in it. -/
  params : List (Position × List Position)
deriving DecidableEq, Repr

/-- Where the parts of a function declaration are, in its file. -/
def FuncDecl.places (source : ParsedFile) (function : FuncDecl) : DeclarationPlaces where
  doc := function.docComments.map fun comment =>
    (List.range (comment.text.length + 1)).map fun index => source.place (comment.offset + index)
  name := source.place function.name.offset
  receiver := function.receiver.map fun receiver => source.place receiver.start
  typeParams :=
    if function.typeParams.fields.isEmpty then none else some (source.place function.typeParams.start)
  params := function.params.fields.map fun field =>
    (source.place (fieldStart field), field.names.map fun name => source.place name.offset)

end Source

namespace Template

section Reading

variable {source other : ParsedFile} {function : FuncDecl}
  (samePlaces : function.places source = function.places other)

section Places

include samePlaces

theorem place_of_mem {comment : Comment} (member : comment ∈ function.docComments) {index : Nat}
    (inside : index ≤ comment.text.length) :
    source.place (comment.offset + index) = other.place (comment.offset + index) := by
  have doc := congrArg DeclarationPlaces.doc samePlaces
  have bytes := map_inj_left.1 doc comment member
  exact map_inj_left.1 bytes index (mem_range.2 (by omega))

theorem place_of_comment {comment : Comment} (member : comment ∈ function.docComments) :
    source.place comment.offset = other.place comment.offset :=
  place_of_mem samePlaces member (Nat.zero_le _)

theorem readItem_of_places {comment : Comment} (member : comment ∈ function.docComments) :
    readItem source.place comment = readItem other.place comment := by
  have same : ∀ index ≤ comment.text.length,
      source.place (comment.offset + index) = other.place (comment.offset + index) :=
    fun _ inside => place_of_mem samePlaces member inside
  unfold readItem CaseDirectories.parse Case.parse
  rw [Directive.locate_of_places Directive.readCase_inside same,
    Directive.locate_of_places Directive.readDirectories_inside same]

theorem readItems_of_places : readItems source function = readItems other function := by
  apply map_congr_left
  intro comment member
  apply readItem_of_places samePlaces
  exact (DocParts.directives_sublist _).subset member

theorem orderErrors_of_places (problem : Bytes → Problem) :
    orderErrors source.place (DocParts.ofDoc (function.doc.getD [])) problem =
      orderErrors other.place (DocParts.ofDoc (function.doc.getD [])) problem := by
  apply map_congr_left
  intro comment member
  have inDoc : comment ∈ function.docComments :=
    (DocParts.trailing_sublist _).subset (mem_filter.1 member).1
  rw [place_of_comment samePlaces inDoc]

theorem headErrors_of_places : headErrors source function = headErrors other function := by
  have receiver := congrArg DeclarationPlaces.receiver samePlaces
  have typeParams := congrArg DeclarationPlaces.typeParams samePlaces
  dsimp only [FuncDecl.places] at receiver typeParams
  unfold headErrors
  dsimp only
  congr 1
  · cases has : function.receiver with
    | none => rfl
    | some list =>
      rw [has] at receiver
      have start : source.place list.start = other.place list.start := Option.some.inj receiver
      dsimp only
      rw [start]
  · split
    · rfl
    next generic =>
      rw [if_neg generic, if_neg generic] at typeParams
      rw [Option.some.inj typeParams]

theorem unnamedErrors_of_places (name : Bytes) :
    unnamedErrors source name function.params.fields =
      unnamedErrors other name function.params.fields := by
  have params := congrArg DeclarationPlaces.params samePlaces
  apply filterMap_congr
  rintro ⟨field, index⟩ member
  have start := congrArg Prod.fst (map_inj_left.1 params field (fst_mem_of_mem_zipIdx member))
  dsimp only at start ⊢
  rw [start]

end Places

variable (sameImports : source.importTexts = other.importTexts)
  (same : function.described source = function.described other)
include samePlaces same

theorem fieldParams_of_places :
    function.params.fields.flatMap (fieldParams source) =
      function.params.fields.flatMap (fieldParams other) := by
  have params := congrArg DeclarationPlaces.params samePlaces
  have texts := congrArg DeclarationText.params same
  apply flatMap_congr
  intro field member
  have names := congrArg Prod.snd (map_inj_left.1 params field member)
  have type := congrArg FieldText.type (map_inj_left.1 texts field member)
  apply map_congr_left
  intro name isName
  have place := map_inj_left.1 names name isName
  dsimp only [FieldOf.described] at type
  rw [type, place]

include sameImports

theorem splitParams_of_places :
    splitParams source function.params.fields = splitParams other function.params.fields := by
  unfold splitParams
  rw [keepsContext_of_same sameImports (congrArg DeclarationText.params same),
    fieldParams_of_places samePlaces same]

theorem readErrors_of_places (strict : Bool) :
    readErrors source function strict = readErrors other function strict := by
  have name : source.place function.name.offset = other.place function.name.offset :=
    congrArg DeclarationPlaces.name samePlaces
  unfold readErrors
  dsimp only
  rw [readItems_of_places samePlaces, orderErrors_of_places samePlaces, headErrors_of_places samePlaces,
    unnamedErrors_of_places samePlaces, splitParams_of_places samePlaces sameImports same, name]

/-- A function is read alike in files that agree on what its declaration says, on where it
says it, and on the imports. -/
theorem read_of_places (strict : Bool) : read source function strict = read other function strict := by
  have name : source.place function.name.offset = other.place function.name.offset :=
    congrArg DeclarationPlaces.name samePlaces
  have results : resultsText source function.results = resultsText other function.results :=
    congrArg DeclarationText.results same
  have bodies := congrArg DeclarationText.body same
  rw [read_eq, read_eq, readErrors_of_places samePlaces sameImports same, readItems_of_places samePlaces]
  cases hasBody : function.body with
  | none => rfl
  | some body =>
    have text : bodyText source body = bodyText other body := by
      dsimp only [FuncDecl.described] at bodies
      rw [hasBody] at bodies
      exact congrArg Prod.fst (Option.some.inj bodies)
    have assembled : ∀ items, assemble source function body items =
        assemble other function body items := by
      intro items
      unfold assemble
      rw [splitParams_of_places samePlaces sameImports same, results, text, name]
    cases readErrors other function strict with
    | nil =>
      dsimp only
      rw [assembled]
    | cons error errors => rfl

end Reading

end Template
end CaseExpansion
