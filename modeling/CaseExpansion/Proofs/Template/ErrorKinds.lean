import CaseExpansion.Proofs.Directive.Failures
import CaseExpansion.Proofs.Template.Expanding

namespace CaseExpansion

open List Source

/-!
# Kinds of the errors of a template

What can be wrong with a template is a matter of its directives, of their order, of
its signature, of the names and arguments of its cases, or of its directories.
Errors of use and of placement are found elsewhere, in the file as a whole.
-/

/-- An error that belongs to a template, and not to the file as a whole. -/
def Error.OfTemplate (error : Error) : Prop :=
  error.kind ≠ .placement ∧ error.kind ≠ .usage

theorem Error.OfTemplate.of_signature {error : Error} (isSignature : error.kind = .signature) :
    error.OfTemplate := by
  rw [OfTemplate, isSignature]
  decide

namespace Template

theorem readItem_blames (place : Nat → Position) (comment : Comment) :
    Blames Error.OfTemplate (readItem place comment) := by
  have ofKind (error : Error) (isInside : error.Inside place comment) : error.OfTemplate := by
    rw [Error.OfTemplate, isInside.kind]
    decide
  unfold readItem
  split
  · exact ((CaseDirectories.parse_blames place comment).imp ofKind).map _
  · exact ((Case.parse_blames place comment).imp ofKind).map _

variable {error : Error} {source : ParsedFile}

theorem mem_errors_of_mem_outcomes {α : Type} {results : List (Except Error α)}
    (member : error ∈ (outcomes results).2) : Except.error error ∈ results := by
  rcases mem_filterMap.mp member with ⟨result, isResult, isError⟩
  cases result with
  | ok value => cases isError
  | error fault =>
    cases isError
    exact isResult

theorem orderErrors_ofTemplate {place : Nat → Position} {parts : DocParts}
    (member : error ∈ orderErrors place parts .afterRemark) : error.OfTemplate := by
  rcases mem_map.mp member with ⟨comment, _, rfl⟩
  exact ⟨nofun, nofun⟩

theorem readErrors_ofTemplate {function : FuncDecl} {strict : Bool}
    (member : error ∈ readErrors source function strict) : error.OfTemplate := by
  have ofShared (isShared : error ∈ (outcomes (readItems source function)).2 ++
      (if strict then orderErrors source.place (DocParts.ofDoc (function.doc.getD [])) .afterRemark
        else []) ++ headErrors source function) : error.OfTemplate := by
    rcases mem_append.mp isShared with isEarlier | ofHead
    · rcases mem_append.mp isEarlier with ofItem | ofOrder
      · rcases mem_map.mp (mem_errors_of_mem_outcomes ofItem) with ⟨comment, _, failed⟩
        exact readItem_blames _ _ _ failed
      · split at ofOrder
        · exact orderErrors_ofTemplate ofOrder
        · cases ofOrder
    · exact .of_signature (kind_of_mem_headErrors ofHead)
  unfold readErrors at member
  dsimp only at member
  split at member
  · rcases mem_append.mp member with isShared | ofBody
    · exact ofShared isShared
    · rw [mem_singleton.mp ofBody]
      exact ⟨nofun, nofun⟩
  · rcases mem_append.mp member with isEarlier | isMisfit
    · rcases mem_append.mp isEarlier with isShared | isUnnamed
      · exact ofShared isShared
      · exact .of_signature (kind_of_mem_unnamedErrors isUnnamed)
    · split at isMisfit
      · rw [mem_singleton.mp isMisfit]
        exact ⟨nofun, nofun⟩
      · cases isMisfit

/-- A case is rejected with an error of the template, which stands where the case does. -/
theorem acceptCase_blames (template : Template) (accepted : List Function) (case : Case) :
    Blames (fun error => error.OfTemplate ∧ error.position = case.position)
      (template.acceptCase accepted case) := by
  have ofInstantiate : Blames (fun error => error.OfTemplate ∧ error.position = case.position)
      (template.instantiate case) := by
    unfold instantiate Case.bind
    refine Blames.bind ?_ fun bindings => ?_
    · split
      · exact .error ⟨⟨nofun, nofun⟩, rfl⟩
      · exact .ok _
    · dsimp only
      split
      · exact .ok _
      · exact .error ⟨⟨nofun, nofun⟩, rfl⟩
  unfold acceptCase
  refine ofInstantiate.bind fun function => ?_
  dsimp only
  split
  · exact .error ⟨⟨nofun, nofun⟩, rfl⟩
  · split
    · exact .error ⟨⟨nofun, nofun⟩, rfl⟩
    · exact .ok _

theorem expandCases_errors {template : Template} {accepted : List Function} {cases : List Case}
    (member : error ∈ (template.expandCases accepted cases).2) :
    error.OfTemplate ∧ ∃ case ∈ cases, error.position = case.position := by
  induction cases generalizing accepted with
  | nil => cases member
  | cons case cases ih =>
    unfold expandCases at member
    split at member
    next =>
      rcases ih member with ⟨ofTemplate, later, isLater, position⟩
      exact ⟨ofTemplate, later, mem_cons_of_mem _ isLater, position⟩
    next fault isFault =>
      rcases mem_cons.mp member with rfl | isLater
      · have blamed := template.acceptCase_blames accepted case error isFault
        exact ⟨blamed.1, case, mem_cons_self, blamed.2⟩
      · rcases ih isLater with ⟨ofTemplate, later, isLater, position⟩
        exact ⟨ofTemplate, later, mem_cons_of_mem _ isLater, position⟩

/-- Directories give errors of their own kind. -/
theorem loadDirectories_kind {files : FileSystem} {template : Template}
    (member : error ∈ (template.loadDirectories files).2) : error.kind = .directory := by
  rw [loadDirectories_eq_outcomes] at member
  have isError := mem_errors_of_mem_outcomes ((Error.sort_perm _).subset member)
  rcases mem_flatMap.mp isError with ⟨several, _, ofSeveral⟩
  rcases mem_flatMap.mp ofSeveral with ⟨directory, _, ofDirectory⟩
  unfold CaseDirectories.readDirectory at ofDirectory
  dsimp only at ofDirectory
  split at ofDirectory
  next =>
    cases mem_singleton.mp ofDirectory
    rfl
  next =>
    split at ofDirectory
    next =>
      cases mem_singleton.mp ofDirectory
      rfl
    next =>
      rcases mem_map.mp ofDirectory with ⟨entry, _, failed⟩
      unfold CaseDirectories.readFile at failed
      dsimp only at failed
      split at failed
      · cases failed
      · cases failed
        rfl

end Template
end CaseExpansion
