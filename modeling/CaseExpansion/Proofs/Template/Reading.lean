import CaseExpansion.Proofs.Directive.Heads

namespace CaseExpansion

open List Source
open Directive (isDirective)

/-!
# What reading a template amounts to

A doc comment is cut into three parts and nothing of it is lost.  When a function
is read as a template, every directive of the middle part has given an item, and
the template is put together from these items and from the declaration, as
`Template.assemble` says.  Only the reasons for which reading fails are not
described here.
-/

namespace Directive

/-- No directive has both forms: the marks differ after the colon. -/
theorem not_isDirectory_of_isCase {text : Bytes} (case : isCase text = true) :
    isDirectory text = false := by
  rw [Bool.eq_false_iff]
  intro directory
  rcases Option.isSome_iff_exists.mp case with ⟨ofCase, hasBody⟩
  rcases Option.isSome_iff_exists.mp directory with ⟨ofDirectory, hasOther⟩
  have same := (eq_append_of_body? hasBody).symm.trans (eq_append_of_body? hasOther)
  have differ : some (byte 'c') = some (byte 'd') := congrArg (fun bytes : Bytes => bytes[10]?) same
  exact absurd differ (by decide)

end Directive

namespace DocParts

/-- The parts of a doc comment make up the whole of it. -/
theorem append_ofDoc (doc : List Comment) :
    (ofDoc doc).lead ++ ((ofDoc doc).directives ++ (ofDoc doc).trailing) = doc := by
  simp only [ofDoc, takeWhile_append_dropWhile]

variable {doc : List Comment} {comment : Comment}

theorem not_isDirective_of_mem_lead (member : comment ∈ (ofDoc doc).lead) :
    isDirective comment.text = false := by
  simpa using all_eq_true.mp (all_takeWhile ..) comment member

theorem isDirective_of_mem_directives (member : comment ∈ (ofDoc doc).directives) :
    isDirective comment.text = true :=
  all_eq_true.mp (all_takeWhile ..) comment member

theorem directives_sublist (doc : List Comment) : (ofDoc doc).directives.Sublist doc :=
  (takeWhile_sublist _).trans (dropWhile_sublist _)

theorem trailing_sublist (doc : List Comment) : (ofDoc doc).trailing.Sublist doc :=
  (dropWhile_sublist _).trans (dropWhile_sublist _)

/-- A directive of a doc comment is among those that count, or comes too late. -/
theorem mem_directives_or_mem_trailing (member : comment ∈ doc)
    (directive : isDirective comment.text = true) :
    comment ∈ (ofDoc doc).directives ∨ comment ∈ (ofDoc doc).trailing := by
  rw [← append_ofDoc doc, mem_append, mem_append] at member
  rcases member with isLead | isLater
  · rw [not_isDirective_of_mem_lead isLead] at directive
    cases directive
  · exact isLater

theorem directives_ne_nil
    (hasDirective : (doc.any fun comment => Directive.isDirective comment.text) = true) :
    (ofDoc doc).directives ≠ [] := by
  rcases any_eq_true.mp hasDirective with ⟨comment, member, directive⟩
  intro none
  have found : ∃ first rest, doc.dropWhile
      (fun comment => !Directive.isDirective comment.text) = first :: rest := by
    rcases shape : doc.dropWhile (fun comment => !Directive.isDirective comment.text) with
      _ | ⟨first, rest⟩
    · have := dropWhile_eq_nil_iff.mp shape comment member
      rw [directive] at this
      cases this
    · exact ⟨first, rest, shape⟩
  rcases found with ⟨first, rest, shape⟩
  have isDirective : Directive.isDirective first.text = true := by
    have := head?_dropWhile_not (fun comment => !Directive.isDirective comment.text) doc
    rw [shape] at this
    simpa using this
  simp only [ofDoc, shape, takeWhile_cons, isDirective, if_true] at none
  cases none

end DocParts

namespace Source.FuncDecl

/-- The directives of a function that count. -/
def directives (function : FuncDecl) : List Comment :=
  (DocParts.ofDoc function.docComments).directives

/-- The comments of a function from the first other line after a directive on. -/
def trailing (function : FuncDecl) : List Comment :=
  (DocParts.ofDoc function.docComments).trailing

/-- The directives of a function that come too late. -/
def misordered (function : FuncDecl) : List Comment :=
  (DocParts.ofDoc function.docComments).misordered

end Source.FuncDecl

/-! ## The outcome of a reading -/

/-- Sorting errors loses none and adds none. -/
theorem Error.sort_perm (errors : List Error) : (Error.sort errors).Perm errors :=
  mergeSort_perm ..

theorem Error.sort_eq_nil_iff {errors : List Error} : Error.sort errors = [] ↔ errors = [] := by
  constructor
  · intro none
    exact nil_perm.mp (none ▸ (Error.sort_perm errors))
  · rintro rfl
    exact perm_nil.mp (Error.sort_perm [])

/-- When nothing went wrong, every outcome is a result. -/
theorem outcomes_eq {α : Type} {results : List (Except Error α)} (good : (outcomes results).2 = []) :
    results = (outcomes results).1.map .ok := by
  induction results with
  | nil => rfl
  | cons result results ih =>
    cases result with
    | error error => cases good
    | ok value => exact congrArg (Except.ok value :: ·) (ih good)

namespace Template

namespace Item

/-- The case of an item that is one. -/
def case? : Item → Option Case
  | .case single => some single
  | .directories _ => none

/-- The directories of an item that gives some. -/
def directories? : Item → Option CaseDirectories
  | .directories several => some several
  | .case _ => none

end Item

/-- The context parameter and the others among the declared parameters. -/
def splitParams (source : ParsedFile) (fields : List Field) : Option Param × List Param :=
  match keepsContext source fields, fields.flatMap (fieldParams source) with
  | true, first :: rest => (some first, rest)
  | _, declared => (none, declared)

/-- The template of a function with the given body and items. -/
def assemble (source : ParsedFile) (function : FuncDecl) (body : Block) (items : List Item) : Template :=
  let parts := DocParts.ofDoc (function.doc.getD [])
  let (context, params) := splitParams source function.params.fields
  { name := function.name.name
    doc := parts.docLines
    cases := items.filterMap Item.case?
    directories := items.filterMap Item.directories?
    trailing := parts.trailing.map Comment.text
    context := (context.map fun param => param.name ++ byte ' ' :: param.type).getD []
    contextType := (context.map Param.type).getD []
    params
    results := resultsText source function.results
    body := bodyText source body
    position := source.place function.name.offset
    misordered := parts.misordered
    references := CaseExpansion.references body }

/-- The outcome of reading the directives that count. -/
def readItems (source : ParsedFile) (function : FuncDecl) : List (Except Error Item) :=
  (DocParts.ofDoc (function.doc.getD [])).directives.map (readItem source.place)

/-- The problems of a function with directives. -/
def readErrors (source : ParsedFile) (function : FuncDecl) (strict : Bool) : List Error :=
  let name := function.name.name
  let (items, itemErrors) := outcomes (readItems source function)
  let late := if strict then
    orderErrors source.place (DocParts.ofDoc (function.doc.getD [])) .afterRemark else []
  let errors := itemErrors ++ late ++ headErrors source function
  match function.body with
  | none => errors ++ [⟨source.place function.name.offset, .hasNoBody name⟩]
  | some _ =>
    let fields := function.params.fields
    let misfit :=
      if !(items.filterMap Item.directories?).isEmpty && !fitDirectories (splitParams source
        fields).2 then
        [⟨source.place function.name.offset, .directoryParams name⟩]
      else []
    errors ++ unnamedErrors source name fields ++ misfit

theorem read_eq (source : ParsedFile) (function : FuncDecl) (strict : Bool) :
    read source function strict =
      if (function.doc.getD []).any fun comment => isDirective comment.text then
        match function.body, readErrors source function strict with
        | some body, [] =>
          .ok (some (assemble source function body (outcomes (readItems source function)).1))
        | _, errors => .error (Error.sort errors)
      else .ok none := by
  unfold read
  dsimp only
  cases (function.doc.getD []).any fun comment => isDirective comment.text with
  | false => rfl
  | true =>
    simp only [Bool.not_true, Bool.false_eq_true, if_false, if_true]
    cases shown : readErrors source function strict with
    | nil =>
      unfold readErrors at shown
      cases hasBody : function.body with
      | none =>
        rw [hasBody] at shown
        exact absurd shown (append_ne_nil_of_right_ne_nil _ (cons_ne_nil _ _))
      | some body =>
        rw [hasBody] at shown
        dsimp only at shown ⊢
        split
        · rfl
        · next someError => exact absurd shown someError
    | cons error errors =>
      unfold readErrors at shown
      cases hasBody : function.body with
      | none =>
        rw [hasBody] at shown
        exact congrArg (fun errors => Except.error (Error.sort errors)) shown
      | some body =>
        rw [hasBody] at shown
        dsimp only at shown ⊢
        split
        · next noError => exact absurd (shown.symm.trans noError) (cons_ne_nil _ _)
        · exact congrArg (fun errors => Except.error (Error.sort errors)) shown

variable {source : ParsedFile} {function : FuncDecl} {strict : Bool}

theorem kind_of_mem_headErrors {error : Error} (member : error ∈ headErrors source function) :
    error.kind = .signature := by
  unfold headErrors at member
  rcases mem_append.mp member with ofReceiver | ofTypeParams
  · split at ofReceiver
    · rw [mem_singleton.mp ofReceiver]
      rfl
    · cases ofReceiver
  · split at ofTypeParams
    · cases ofTypeParams
    · rw [mem_singleton.mp ofTypeParams]
      rfl

theorem kind_of_mem_unnamedErrors {name : Bytes} {fields : List Field} {error : Error}
    (member : error ∈ unnamedErrors source name fields) : error.kind = .signature := by
  rcases mem_filterMap.mp member with ⟨⟨field, index⟩, _, isError⟩
  dsimp only at isError
  split at isError
  · cases isError
    rfl
  · cases isError

/-- A function is no template exactly when it has no directive. -/
theorem read_eq_none_iff : read source function strict = .ok none ↔
      ((function.doc.getD []).any fun comment => isDirective comment.text) = false := by
  rw [read_eq]
  split
  next directive =>
    rw [directive]
    split <;> simp
  next none => simpa using none

/-- A template that was read is put together from what its directives gave, and
the function has none of the problems that reading looks for. -/
theorem read_eq_some {template : Template} (isRead : read source function strict = .ok (some template)) :
    ((function.doc.getD []).any fun comment => isDirective comment.text) = true ∧
      readErrors source function strict = [] ∧
      ∃ body items, function.body = some body ∧ readItems source function = items.map .ok ∧
        template = assemble source function body items := by
  rw [read_eq] at isRead
  split at isRead
  next directive =>
    split at isRead
    next body hasBody noErrors =>
      cases isRead
      refine ⟨directive, noErrors, body, _, hasBody, outcomes_eq ?_, rfl⟩
      rw [readErrors, hasBody] at noErrors
      simp only [append_eq_nil_iff] at noErrors
      exact noErrors.1.1.1.1
    next => cases isRead
  next => cases isRead

/-- Reading fails with the problems of the function, of which there are some. -/
theorem read_eq_error {errors : List Error} (isRead : read source function strict = .error errors) :
    errors ≠ [] ∧ errors = Error.sort (readErrors source function strict) := by
  rw [read_eq] at isRead
  split at isRead
  next =>
    split at isRead
    next => cases isRead
    next noTemplate =>
      cases isRead
      refine ⟨fun none => ?_, rfl⟩
      have noErrors := Error.sort_eq_nil_iff.mp none
      cases hasBody : function.body with
      | none =>
        rw [readErrors, hasBody] at noErrors
        exact absurd noErrors (append_ne_nil_of_right_ne_nil _ (cons_ne_nil _ _))
      | some body => exact noTemplate body hasBody noErrors
  next => cases isRead

/-- A strict reading accepts no directive that comes too late. -/
theorem misordered_eq_nil (noErrors : readErrors source function true = []) :
    (DocParts.ofDoc (function.doc.getD [])).misordered = [] := by
  unfold readErrors at noErrors
  dsimp only at noErrors
  split at noErrors
  · simp only [append_eq_nil_iff, cons_ne_nil, and_false] at noErrors
  · simp only [append_eq_nil_iff, if_true] at noErrors
    exact map_eq_nil_iff.mp noErrors.1.1.1.2

end Template

/-! ## The items of a template -/

namespace Directive

/-- A list of directories is never empty. -/
theorem readDirectories_ne_nil {lexemes : List Lexeme} {directories : List Bytes}
    (isRead : readDirectories lexemes = .ok directories) : directories ≠ [] := by
  unfold readDirectories at isRead
  split at isRead
  · cases isRead
  next lexeme rest =>
    simp only [bind, Except.bind] at isRead
    split at isRead
    · cases isRead
    split at isRead
    · split at isRead <;> cases isRead
    split at isRead
    · cases isRead
    · cases isRead
    split at isRead
    · cases isRead
      exact cons_ne_nil _ _
    split at isRead
    · cases isRead
    split at isRead
    · cases isRead
      exact cons_ne_nil _ _
    split at isRead
    · cases isRead
    split at isRead
    · cases isRead
    · cases isRead
      exact cons_ne_nil _ _

end Directive

/-- A case stands where its directive starts. -/
theorem Case.parse_position {place : Nat → Position} {comment : Comment} {case : Case}
    (parsed : Case.parse place comment = .ok case) : case.position = place comment.offset := by
  rcases Directive.parse_eq_ok_iff.mp parsed with ⟨_, _, _, position⟩
  exact position

/-- Directories stand where their directive starts, and there is at least one. -/
theorem CaseDirectories.parse_position {place : Nat → Position} {comment : Comment}
    {several : CaseDirectories} (parsed : CaseDirectories.parse place comment = .ok several) :
    several.directories ≠ [] ∧ several.position = place comment.offset := by
  rcases Directive.parse_directories_eq_ok_iff.mp parsed with ⟨_, _, isRead, position⟩
  exact ⟨Directive.readDirectories_ne_nil isRead, position⟩

namespace Template

variable {item : Item} {source : ParsedFile} {function : FuncDecl}

theorem readItem_eq_case {place : Nat → Position} {comment : Comment}
    (isRead : readItem place comment = .ok item)
    (single : Directive.isDirectory comment.text = false) :
    ∃ case, Case.parse place comment = .ok case ∧ item = .case case := by
  rw [readItem, single, if_neg Bool.false_ne_true] at isRead
  rcases Directive.map_eq_ok_iff.mp isRead with ⟨case, parsed, rfl⟩
  exact ⟨case, parsed, rfl⟩

theorem readItem_eq_directories {place : Nat → Position} {comment : Comment}
    (isRead : readItem place comment = .ok item) (directory : Directive.isDirectory comment.text = true) :
    ∃ several, CaseDirectories.parse place comment = .ok several ∧ item = .directories several := by
  rw [readItem, directory, if_pos rfl] at isRead
  rcases Directive.map_eq_ok_iff.mp isRead with ⟨several, parsed, rfl⟩
  exact ⟨several, parsed, rfl⟩

/-- An item of a template comes from a directive that counts. -/
theorem exists_directive_of_item {items : List Item} (areRead : readItems source function = items.map .ok)
    (isItem : item ∈ items) : ∃ comment ∈ function.directives, readItem source.place comment =
      .ok item := by
  have itemRead : Except.ok item ∈ readItems source function := areRead ▸ mem_map_of_mem isItem
  exact mem_map.mp itemRead

/-- The directories of a template come from directory directives that count. -/
theorem exists_directive_of_mem_directories {strict : Bool} {template : Template}
    (isRead : read source function strict = .ok (some template)) {several : CaseDirectories}
    (member : several ∈ template.directories) :
    ∃ comment ∈ function.directives, Directive.isDirectory comment.text = true ∧
      several.position = source.place comment.offset := by
  rcases read_eq_some isRead with ⟨_, _, body, items, _, areRead, rfl⟩
  rcases mem_filterMap.mp member with ⟨item, isItem, isSeveral⟩
  rcases exists_directive_of_item areRead isItem with ⟨comment, isDirective, read⟩
  refine ⟨comment, isDirective, ?_⟩
  cases directory : Directive.isDirectory comment.text with
  | false =>
    rcases readItem_eq_case read directory with ⟨case, _, rfl⟩
    cases isSeveral
  | true =>
    rcases readItem_eq_directories read directory with ⟨other, parsed, rfl⟩
    cases isSeveral
    exact ⟨rfl, (CaseDirectories.parse_position parsed).2⟩

/-- The cases of a template come from case directives that count. -/
theorem exists_directive_of_mem_cases {strict : Bool} {template : Template}
    (isRead : read source function strict = .ok (some template)) {case : Case}
    (member : case ∈ template.cases) :
    ∃ comment ∈ function.directives, Case.parse source.place comment = .ok case := by
  rcases read_eq_some isRead with ⟨_, _, body, items, _, areRead, rfl⟩
  rcases mem_filterMap.mp member with ⟨item, isItem, isCase⟩
  rcases exists_directive_of_item areRead isItem with ⟨comment, isDirective, read⟩
  refine ⟨comment, isDirective, ?_⟩
  cases directory : Directive.isDirectory comment.text with
  | false =>
    rcases readItem_eq_case read directory with ⟨other, parsed, rfl⟩
    cases isCase
    exact parsed
  | true =>
    rcases readItem_eq_directories read directory with ⟨several, _, rfl⟩
    cases isCase

end Template
end CaseExpansion
