import CaseExpansion.Namespace
import CaseExpansion.Proofs.Template.Reading
import CaseExpansion.Template.Directories

namespace CaseExpansion

open List

/-!
# Which cases a namespace has functions for

Directories are replaced by the cases of their files, and then every case gives
one function or an error.  When there are no errors, the functions of a namespace
are those of the template's own cases, followed by those of its directories, in
their order, one for each case and one for each regular file.
-/

/-- Outcomes that are collected from many places and are all results are all
results in each place. -/
theorem flatMap_eq_map_ok {ε α β : Type} {collect : α → List (Except ε β)} {places : List α}
    {results : List β} (good : places.flatMap collect = results.map .ok) :
    ∃ groups : List (List β),
      List.Forall₂ (fun place group => collect place = group.map .ok) places groups ∧
        results = groups.flatten := by
  induction places generalizing results with
  | nil => exact ⟨[], .nil, map_eq_nil_iff.mp good.symm⟩
  | cons place places ih =>
    rw [flatMap_cons] at good
    rcases map_eq_append_iff.mp good.symm with ⟨first, later, rfl, ofFirst, ofLater⟩
    rcases ih ofLater.symm with ⟨groups, pointwise, rfl⟩
    exact ⟨first :: groups, .cons ofFirst.symm pointwise, rfl⟩

namespace CaseDirectories

/-- The cases of one directory: it can be listed and has a regular file, and
each of its regular files can be read and gives one case. -/
def Supplies (files : FileSystem) (position : Source.Position) (directory : Bytes)
    (cases : List Case) : Prop :=
  ∃ entries, files.list (Path.clean directory) = .ok entries ∧
    entries.filter DirectoryEntry.isRegular ≠ [] ∧
    List.Forall₂ (fun entry case => ∃ contents,
      files.read (Path.join [Path.clean directory, entry.name]) = .ok contents ∧
        case = fileCase position (Path.join [Path.clean directory, entry.name]) contents)
      (entries.filter DirectoryEntry.isRegular) cases

variable {files : FileSystem} {position : Source.Position} {directory : Bytes} {cases : List Case}

theorem readFile_eq_ok {entry : DirectoryEntry} {case : Case}
    (isRead : readFile files position directory entry = .ok case) :
    ∃ contents, files.read (Path.join [directory, entry.name]) = .ok contents ∧
      case = fileCase position (Path.join [directory, entry.name]) contents := by
  unfold readFile at isRead
  dsimp only at isRead
  split at isRead
  next contents found =>
    cases isRead
    exact ⟨contents, found, rfl⟩
  next => cases isRead

theorem supplies_of_readDirectory (isRead : readDirectory files position directory = cases.map .ok) :
    Supplies files position directory cases := by
  unfold readDirectory at isRead
  dsimp only at isRead
  split at isRead
  next =>
    cases cases with
    | nil => cases isRead
    | cons case cases => cases isRead
  next entries listed =>
    refine ⟨entries, listed, ?_⟩
    split at isRead
    next =>
      cases cases with
      | nil => cases isRead
      | cons case cases => cases isRead
    next regular someRegular =>
      refine ⟨someRegular, ?_⟩
      rw [← forall₂_eq_eq_eq, forall₂_map_left_iff, forall₂_map_right_iff] at isRead
      exact isRead.imp fun _ _ => readFile_eq_ok

theorem Supplies.ne_nil (supplies : Supplies files position directory cases) : cases ≠ [] := by
  rcases supplies with ⟨entries, _, someRegular, pointwise⟩
  rintro rfl
  exact someRegular (forall₂_nil_right_iff.mp pointwise)

/-- Directories give at least one case, if there are any. -/
theorem Supplies.flatten_ne_nil {directories : List Bytes} {groups : List (List Case)}
    (supplied : List.Forall₂ (Supplies files position) directories groups)
    (someDirectory : directories ≠ []) : groups.flatten ≠ [] := by
  cases supplied with
  | nil => exact absurd rfl someDirectory
  | cons supplies _ =>
    rw [flatten_cons]
    exact append_ne_nil_of_left_ne_nil supplies.ne_nil _

/-- The cases of the files of a directive that can be read. -/
def casesOf (files : FileSystem) (several : CaseDirectories) : List Case :=
  (outcomes (several.readAll files)).1

theorem casesOf_position {several : CaseDirectories} {case : Case}
    (member : case ∈ several.casesOf files) : case.position = several.position := by
  rcases mem_filterMap.mp member with ⟨result, isResult, isCase⟩
  cases result with
  | error error => cases isCase
  | ok value =>
    cases isCase
    rcases mem_flatMap.mp isResult with ⟨directory, _, inDirectory⟩
    unfold readDirectory at inDirectory
    dsimp only at inDirectory
    split at inDirectory
    next => cases mem_singleton.mp inDirectory
    next =>
      split at inDirectory
      next => cases mem_singleton.mp inDirectory
      next =>
        rcases mem_map.mp inDirectory with ⟨entry, _, isRead⟩
        rcases readFile_eq_ok isRead with ⟨contents, _, rfl⟩
        rfl

/-- The cases of a directive that was read without an error. -/
theorem supplies_of_readAll {several : CaseDirectories} (isRead : several.readAll files = cases.map .ok) :
    ∃ groups, List.Forall₂ (Supplies files several.position) several.directories groups ∧
      cases = groups.flatten := by
  rcases flatMap_eq_map_ok isRead with ⟨groups, pointwise, same⟩
  exact ⟨groups, pointwise.imp fun _ _ => supplies_of_readDirectory, same⟩

end CaseDirectories

namespace Template

theorem loadDirectories_eq_outcomes (files : FileSystem) (template : Template) :
    template.loadDirectories files =
      let results := outcomes (template.directories.flatMap (CaseDirectories.readAll files))
      ({ template with cases := template.cases ++ results.1 }, Error.sort results.2) := by
  unfold loadDirectories outcomes
  dsimp only
  congr 3
  · refine filterMap_congr fun result _ => ?_
    cases result <;> rfl
  · funext result
    cases result <;> rfl

/-- Loading directories adds the cases of each directive, after those that the
template has. -/
theorem loadDirectories_fst (files : FileSystem) (template : Template) :
    (template.loadDirectories files).1 =
      { template with
        cases := template.cases ++ template.directories.flatMap (CaseDirectories.casesOf files) } := by
  rw [loadDirectories_eq_outcomes]
  dsimp only [outcomes]
  rw [filterMap_flatMap]
  rfl

variable {template : Template} {place : Nat → Source.Position} {case : Case}

/-- When loading met no error, every file was read. -/
theorem readAll_of_loadDirectories {files : FileSystem} (good : (template.loadDirectories files).2 = [])
    {several : CaseDirectories} (member : several ∈ template.directories) :
    several.readAll files = (several.casesOf files).map .ok := by
  rw [loadDirectories_eq_outcomes] at good
  have noErrors := Error.sort_eq_nil_iff.mp good
  dsimp only [outcomes] at noErrors
  rw [filterMap_flatMap, flatMap_eq_nil_iff] at noErrors
  exact outcomes_eq (noErrors several member)

/-- The case of a directive that gives one. -/
def singleCases (place : Nat → Source.Position) (comment : Source.Comment) : List Case :=
  if Directive.isDirectory comment.text then [] else (Case.parse place comment).toOption.toList

/-- The cases of a directive that gives directories. -/
def directoryCases (files : FileSystem) (place : Nat → Source.Position) (comment : Source.Comment) :
    List Case :=
  if Directive.isDirectory comment.text then
    (CaseDirectories.parse place comment).toOption.toList.flatMap (CaseDirectories.casesOf files)
  else []

theorem singleCases_position {comment : Source.Comment} (member : case ∈ singleCases place comment) :
    case.position = place comment.offset := by
  unfold singleCases at member
  split at member
  next => cases member
  next =>
    cases parsed : Case.parse place comment with
    | error error =>
      rw [parsed] at member
      cases member
    | ok value =>
      rw [parsed] at member
      cases mem_singleton.mp member
      exact Case.parse_position parsed

theorem directoryCases_position {files : FileSystem} {comment : Source.Comment}
    (member : case ∈ directoryCases files place comment) : case.position = place comment.offset := by
  unfold directoryCases at member
  split at member
  next =>
    rcases mem_flatMap.mp member with ⟨several, isSeveral, isCase⟩
    cases parsed : CaseDirectories.parse place comment with
    | error error =>
      rw [parsed] at isSeveral
      cases isSeveral
    | ok value =>
      rw [parsed] at isSeveral
      cases mem_singleton.mp isSeveral
      rw [CaseDirectories.casesOf_position isCase, (CaseDirectories.parse_position parsed).2]
  next => cases member

theorem items_eq {comments : List Source.Comment} {items : List Item} (files : FileSystem)
    (areRead : comments.map (readItem place) = items.map .ok) :
    items.filterMap Item.case? = comments.flatMap (singleCases place) ∧
      (items.filterMap Item.directories?).flatMap (CaseDirectories.casesOf files) =
        comments.flatMap (directoryCases files place) := by
  induction comments generalizing items with
  | nil =>
    cases map_eq_nil_iff.mp areRead.symm
    exact ⟨rfl, rfl⟩
  | cons comment comments ih =>
    rcases map_eq_cons_iff.mp areRead.symm with ⟨item, later, rfl, isRead, laterRead⟩
    rcases ih laterRead.symm with ⟨cases, directories⟩
    rw [flatMap_cons, flatMap_cons, ← cases, ← directories, singleCases, directoryCases]
    cases directory : Directive.isDirectory comment.text with
    | false =>
      rcases readItem_eq_case isRead.symm directory with ⟨case, parsed, rfl⟩
      rw [parsed]
      exact ⟨rfl, rfl⟩
    | true =>
      rcases readItem_eq_directories isRead.symm directory with ⟨several, parsed, rfl⟩
      rw [parsed]
      refine ⟨rfl, ?_⟩
      rw [if_pos rfl, ← flatMap_append]
      rfl

theorem map_bindings {params : List Param} {arguments : List Bytes}
    (fits : arguments.length = params.length) :
    (List.zipWith Binding.mk params arguments).map Binding.param = params ∧
      (List.zipWith Binding.mk params arguments).map Binding.value = arguments := by
  constructor
  · apply ext_getElem
    · simp [fits]
    · simp
  · apply ext_getElem
    · simp [fits]
    · simp

theorem instantiate_eq_ok {function : Function}
    (instantiated : template.instantiate case = .ok function) :
    function.case = case ∧ case.bind template.params = .ok function.bindings ∧
      function.unused = template.unusedNames function.bindings := by
  rcases bound_eq_ok_iff.mp instantiated with ⟨bindings, bound, instantiated⟩
  dsimp only at instantiated
  split at instantiated
  · cases instantiated
    exact ⟨rfl, bound, rfl⟩
  · cases instantiated

theorem acceptCase_eq_ok {accepted : List Function} {function : Function}
    (isAccepted : template.acceptCase accepted case = .ok function) :
    template.instantiate case = .ok function := by
  rcases bound_eq_ok_iff.mp isAccepted with ⟨candidate, instantiated, isAccepted⟩
  dsimp only at isAccepted
  split at isAccepted
  · cases isAccepted
  · split at isAccepted
    · cases isAccepted
    · cases isAccepted
      exact instantiated

/-- Without errors, every case has given one function, after those accepted before. -/
theorem expandCases_eq {accepted functions : List Function} {cases : List Case}
    (expanded : template.expandCases accepted cases = (functions, [])) :
    ∃ added, functions = accepted ++ added ∧
      List.Forall₂ (fun case function => template.instantiate case = .ok function) cases added := by
  induction cases generalizing accepted with
  | nil =>
    cases expanded
    exact ⟨[], (append_nil _).symm, .nil⟩
  | cons case cases ih =>
    unfold expandCases at expanded
    split at expanded
    next function isAccepted =>
      rcases ih expanded with ⟨added, rfl, pointwise⟩
      exact ⟨function :: added, append_assoc .., .cons (acceptCase_eq_ok isAccepted) pointwise⟩
    next => cases expanded

theorem expand_eq_ok {space : Namespace} (expanded : template.expand = .ok space) :
    List.Forall₂ (fun case function => template.instantiate case = .ok function)
      template.cases space.functions := by
  unfold expand at expanded
  split at expanded
  next functions accepted =>
    cases expanded
    rcases expandCases_eq accepted with ⟨added, rfl, pointwise⟩
    exact pointwise
  next => cases expanded

/-- A namespace is refused with the errors of some case. -/
theorem expand_eq_error {errors : List Error} (refused : template.expand = .error errors) :
    errors ≠ [] ∧ errors = Error.sort (template.expandCases [] template.cases).2 := by
  unfold expand at refused
  split at refused
  next => cases refused
  next functions unsorted someErrors expanded =>
    cases refused
    rw [expanded]
    exact ⟨fun none => someErrors (Error.sort_eq_nil_iff.mp none), rfl⟩

theorem map_case_functions {space : Namespace} (expanded : template.expand = .ok space) :
    space.functions.map Function.case = template.cases := by
  have pointwise := (expand_eq_ok expanded).imp fun _ _ => fun instantiated =>
    (instantiate_eq_ok instantiated).1.symm
  rwa [forall₂_map_right_iff.symm, forall₂_eq_eq_eq, eq_comm] at pointwise

end Template
end CaseExpansion
