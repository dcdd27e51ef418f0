import CaseExpansion.Proofs.Generator.Content
import CaseExpansion.Proofs.Sorting
import CaseExpansion.Proofs.Template.Placed

namespace CaseExpansion

open List Source

/-!
# Reports

A run on a file reports all problems of the file at once, or it writes the generated
text.  The problems are those of the guard, those of each function, and directives that
belong to no function.  A function has problems with its declaration, or else with the
directories it names, or else with its cases.

The problems of each function are sorted where they are found, and the whole list once
more.  The report is the list of all problems, in the order in which they were found,
sorted once.
-/

/-! ## The problems of a function -/

/-- The problems of a function, as the stage that meets them returns them. -/
def returnedErrors (source : ParsedFile) (strict : Bool) (files : FileSystem) (function : FuncDecl) :
    List Error :=
  match Template.read source function strict with
  | .error errors => errors
  | .ok none => []
  | .ok (some template) =>
    match (template.loadDirectories files).2, (template.loadDirectories files).1.expand with
    | [], .ok _ => []
    | [], .error errors => errors
    | errors, _ => errors

/-- The problems of a function, in the order in which they are met. -/
def metErrors (source : ParsedFile) (strict : Bool) (files : FileSystem) (function : FuncDecl) :
    List Error :=
  match Template.read source function strict with
  | .error _ => Template.readErrors source function strict
  | .ok none => []
  | .ok (some template) =>
    match (outcomes (template.directories.flatMap (CaseDirectories.readAll files))).2 with
    | [] =>
      ((template.loadDirectories files).1.expandCases [] (template.loadDirectories files).1.cases).2
    | errors => errors

theorem returnedErrors_eq_sort (source : ParsedFile) (strict : Bool) (files : FileSystem)
    (function : FuncDecl) :
    returnedErrors source strict files function =
      Error.sort (metErrors source strict files function) := by
  unfold returnedErrors metErrors
  split
  next errors failed => exact (Template.read_eq_error failed).2
  next => exact (Error.sort_eq_nil_iff.2 rfl).symm
  next template _ =>
    have loaded : (template.loadDirectories files).2 =
        Error.sort (outcomes (template.directories.flatMap (CaseDirectories.readAll files))).2 := by
      rw [Template.loadDirectories_eq_outcomes]
    cases met : (outcomes (template.directories.flatMap (CaseDirectories.readAll files))).2 with
    | cons error errors =>
      rw [met] at loaded
      have some : (template.loadDirectories files).2 ≠ [] := by
        rw [loaded]
        intro none
        cases Error.sort_eq_nil_iff.1 none
      rw [← loaded]
      cases found : (template.loadDirectories files).2 with
      | nil => exact absurd found some
      | cons first rest => rfl
    | nil =>
      rw [met, Error.sort_eq_nil_iff.2 rfl] at loaded
      rw [loaded]
      cases expanded : (template.loadDirectories files).1.expand with
      | error errors => exact (Template.expand_eq_error expanded).2
      | ok space =>
        unfold Template.expand at expanded
        split at expanded
        next functions accepted =>
          rw [accepted]
          exact (Error.sort_eq_nil_iff.2 rfl).symm
        next => cases expanded

theorem errors_ofFunction (source : ParsedFile) (strict : Bool) (files : FileSystem)
    (function : FuncDecl) :
    (Expansion.ofFunction source strict files function).errors =
    returnedErrors source strict files function := by
  unfold Expansion.ofFunction returnedErrors
  cases Template.read source function strict with
  | error errors => rfl
  | ok found =>
    cases found with
    | none => rfl
    | some template =>
      dsimp only
      rcases template.loadDirectories files with ⟨loaded, _ | ⟨error, errors⟩⟩
      · dsimp only
        cases loaded.expand <;> rfl
      · rfl

/-- A function without problems is expanded if it has directives. -/
theorem template?_ofFunction {source : ParsedFile} {strict : Bool} {files : FileSystem}
    {function : FuncDecl}
    (noErrors : (Expansion.ofFunction source strict files function).errors = []) :
    (Expansion.ofFunction source strict files function).template?.isNone =
      !function.docComments.any fun comment => Directive.isDirective comment.text := by
  rcases Expansion.ofFunction_of_errors_eq_nil noErrors with plain | ⟨template, space, expanded⟩
  · have none := Template.read_eq_none_iff.1 (Expansion.ofFunction_eq_plain plain)
    rw [plain, FuncDecl.docComments, none]
    rfl
  · obtain ⟨bare, isRead, _⟩ := Expansion.ofFunction_eq_expanded expanded
    rw [expanded, FuncDecl.docComments, (Template.read_eq_some isRead).1]
    rfl

/-- The problems of a function depend on what its declaration says and where, on the imports
of the file and on the files of its directories. -/
theorem returnedErrors_of_places {source other : ParsedFile} {function : FuncDecl}
    (samePlaces : function.places source = function.places other)
    (sameImports : source.importTexts = other.importTexts)
    (same : function.described source = function.described other) (strict : Bool) (files : FileSystem) :
    returnedErrors source strict files function = returnedErrors other strict files function := by
  unfold returnedErrors
  rw [Template.read_of_places samePlaces sameImports same]

/-! ## The problems of a file -/

/-- The problem of the guard of a file, if there is one. -/
def guardErrors (source : ParsedFile) (tag : Bytes) : List Error :=
  match Guard.edits source tag with
  | .error error => [error]
  | .ok _ => []

/-- The problems of a file, given those of each of its functions.  A file without any in
which nothing is to be expanded has this as its only problem. -/
def problems (source : ParsedFile) (filename tag : Bytes) (share : FuncDecl → List Error) : List Error :=
  let errors := guardErrors source tag ++ source.file.functions.flatMap share ++ detachedErrors source
  if errors.isEmpty && source.file.functions.all fun function =>
      !function.docComments.any fun comment => Directive.isDirective comment.text then
    [⟨source.place source.file.package, .nothingToExpand (Path.base filename)⟩]
  else errors

/-- Without problems of functions, there is nothing to expand exactly when there are no
directives. -/
theorem all_template?_expansions {source : ParsedFile} {strict : Bool} {files : FileSystem}
    (none : source.file.functions.flatMap (returnedErrors source strict files) = []) :
    ((expansions source strict files).all fun entry => entry.2.template?.isNone) =
      source.file.functions.all fun function =>
        !function.docComments.any fun comment => Directive.isDirective comment.text := by
  rw [expansions, all_map, Bool.eq_iff_iff, all_eq_true, all_eq_true]
  refine forall₂_congr fun function member => ?_
  have noErrors : (Expansion.ofFunction source strict files function).errors = [] := by
    rw [errors_ofFunction]
    exact flatMap_eq_nil_iff.1 none function member
  rw [← template?_ofFunction noErrors]
  rfl

theorem fileErrors_eq_problems (source : ParsedFile) (filename tag : Bytes) (strict : Bool)
    (files : FileSystem) :
    fileErrors source filename tag (expansions source strict files) =
      problems source filename tag (returnedErrors source strict files) := by
  have shares : (expansions source strict files).flatMap (fun entry => entry.2.errors) =
      source.file.functions.flatMap (returnedErrors source strict files) := by
    rw [expansions, flatMap_map]
    apply flatMap_congr
    intro function _
    exact errors_ofFunction source strict files function
  unfold fileErrors problems guardErrors
  dsimp only
  rw [shares]
  cases Guard.edits source tag with
  | error error => rfl
  | ok edits =>
    dsimp only
    cases found : source.file.functions.flatMap (returnedErrors source strict files) with
    | nil => rw [all_template?_expansions found]
    | cons error errors => rfl

/-- Sorting the problems of each function beforehand does not change how they are sorted
in the end. -/
theorem sort_problems (source : ParsedFile) (filename tag : Bytes) {share sorted : FuncDecl → List Error}
    (isSort : ∀ function, sorted function = Error.sort (share function)) :
    Error.sort (problems source filename tag sorted) =
      Error.sort (problems source filename tag share) := by
  apply (Error.sort_isStableSort _).unique (Error.sort_isStableSort _)
  have empty : source.file.functions.flatMap sorted = [] ↔ source.file.functions.flatMap share = [] := by
    simp only [flatMap_eq_nil_iff, isSort, Error.sort_eq_nil_iff]
  have sameTest : (guardErrors source tag ++ source.file.functions.flatMap sorted ++
      detachedErrors source).isEmpty = (guardErrors source tag ++ source.file.functions.flatMap share ++
        detachedErrors source).isEmpty := by
    rw [Bool.eq_iff_iff, List.isEmpty_iff, List.isEmpty_iff]
    simp only [append_eq_nil_iff, empty]
  intro key
  unfold problems
  dsimp only
  rw [sameTest]
  split
  · rfl
  · rw [filter_append, filter_append, Error.filter_flatMap_sort _ isSort, ← filter_append,
      ← filter_append]

/-! ## The outcome of a run -/

/-- A run on a file with problems gives no output, and reports the problems in order. -/
theorem Generator.expandFile_of_errors {generator : Generator} {files : FileSystem}
    {filePattern spacePattern : Pattern.Compiled} {filename : Bytes} {source : ParsedFile}
    (rendered : (renderExpansions source generator.memory spacePattern
      (expansions source generator.strict files)).failure = none)
    (some : fileErrors source filename generator.guardTag
      (expansions source generator.strict files) ≠ []) :
    (generator.expandFile files filePattern spacePattern filename source).output = [] ∧
      (generator.expandFile files filePattern spacePattern filename source).failure = .some (.invalid
        (Error.sort (fileErrors source filename generator.guardTag
          (expansions source generator.strict files)))) := by
  unfold expandFile
  dsimp only
  rw [rendered]
  dsimp only
  split
  next none _ => exact absurd none some
  next => exact ⟨rfl, rfl⟩

/-- What a run writes when it formats a text: the formatted text, or the text as it is
beside the failure. -/
def Outcome.Formats (outcome : Outcome) (text : Bytes) : Prop :=
  (∃ formatted, Layout.format text = .ok formatted ∧ outcome.output = formatted ∧ outcome.failure =
    none) ∨ ∃ diagnostics, Layout.format text = .error diagnostics ∧ outcome.output = text ∧
      outcome.failure = some (.unformatted diagnostics)

theorem Generator.finish_formats (warnings : List Error) (text : Bytes) :
    (finish warnings text).Formats text := by
  unfold finish
  cases formatted : Layout.format text with
  | ok output => exact .inl ⟨output, formatted, rfl, rfl⟩
  | error diagnostics => exact .inr ⟨diagnostics, formatted, rfl, rfl⟩

/-- A run on a file that can be read reports all problems of the file together, sorted by
their places, and writes nothing; sorting the problems of each function on their own loses
and doubles none.  Without problems it writes the generated text.  The problems of a function
depend on its own declaration, on the imports and on the case files only. -/
theorem problems_are_reported_together {generator : Generator} (builtin : generator.UsesBuiltin)
    (disk : Disk)
    {filename text : Bytes} {source : ParsedFile} (parsed : parseFile filename text = .ok source) :
    let files := generator.fileSystem disk filename
    let returned := problems source filename generator.guardTag
      (returnedErrors source generator.strict files)
    let met := problems source filename generator.guardTag (metErrors source generator.strict files)
    let outcome := (generator.generate disk filename (.ok text)).2
    (returned ≠ [] → outcome.output = [] ∧ ∃ errors, outcome.failure = some (.invalid errors) ∧
      Error.IsStableSort returned errors ∧ Error.IsStableSort met errors) ∧
    (returned = [] → (∀ errors, outcome.failure ≠ some (.invalid errors)) ∧
      ∃ guardEdits spacePattern content, Guard.edits source generator.guardTag = .ok guardEdits ∧
        Pattern.compile "namespace" Rendering.namespacePattern = .ok spacePattern ∧
        Edit.applyAll? text (guardEdits ++ (renderExpansions source generator.memory spacePattern
          (expansions source generator.strict files)).edits) = some content ∧
        outcome.Formats (Rendering.fileText (Path.base filename) content)) ∧
    ∀ function (other : ParsedFile), function.places source = function.places other →
      source.importTexts = other.importTexts → function.described source = function.described other →
      ∀ strict files, returnedErrors source strict files function =
        returnedErrors other strict files function := by
  dsimp only
  rw [← fileErrors_eq_problems]
  refine ⟨?_, ?_, ?_⟩
  · intro some
    obtain ⟨filePattern, spacePattern, isBuiltin, isLoaded⟩ := builtin.load disk
    rw [Generator.generate_of_parsed parsed isLoaded]
    obtain ⟨nothing, failure⟩ := Generator.expandFile_of_errors
      (renderExpansions_builtin isBuiltin.isSpace _ _) some
    refine ⟨nothing, _, failure, Error.sort_isStableSort _, ?_⟩
    rw [fileErrors_eq_problems, sort_problems source filename generator.guardTag
      (returnedErrors_eq_sort source generator.strict (generator.fileSystem disk filename))]
    exact Error.sort_isStableSort _
  · intro none
    obtain ⟨filePattern, spacePattern, guardEdits, content, isBuiltin, guarded, _, applied, outcome⟩ :=
      generate_eq_finish builtin disk parsed none
    rw [outcome]
    exact ⟨Generator.finish_failure_ne_invalid _ _, guardEdits, spacePattern, content, guarded,
      isBuiltin.isSpace, applied, Generator.finish_formats _ _⟩
  · intro function other samePlaces sameImports same strict files
    exact returnedErrors_of_places samePlaces sameImports same strict files

/-- A file without a guard, with a directive that belongs to no function and with a template
that has two problems. -/
def unguardedFile : Bytes :=
  "package p\n\n//casegen:case 1; \"a\"\nvar x int\n\n//casegen:case 1; \n//casegen:case 1, 2; \"b\"\nfunc f(n int) \x7b\n\x7d\n"

theorem problems_of_unguarded_file_are_reported_together :
    ∃ source errors, parseFile "x.go" unguardedFile = .ok source ∧
      (Generator.generate {} {} "x.go" (.ok unguardedFile)).2.output = [] ∧
      (Generator.generate {} {} "x.go" (.ok unguardedFile)).2.failure = some (.invalid errors) ∧
      Error.IsStableSort (problems source "x.go" "casegen" (metErrors source false
        (Generator.fileSystem {} {} "x.go"))) errors := by
  have checked : (parseFile "x.go" unguardedFile).toOption.any
      (fun source => (Guard.edits source "casegen").toOption.isNone) = true := by decide +kernel
  obtain ⟨source, parsed, unguarded⟩ := exists_ok_of_any checked
  have builtin : Generator.UsesBuiltin {} := .inl ⟨rfl, rfl⟩
  have some : problems source "x.go" "casegen" (returnedErrors source false
      (Generator.fileSystem {} {} "x.go")) ≠ [] := by
    cases guard : Guard.edits source "casegen" with
    | ok edits =>
      rw [guard] at unguarded
      cases unguarded
    | error error =>
      unfold problems guardErrors
      rw [guard]
      simp
  obtain ⟨nothing, errors, failure, _, isSort⟩ :=
    (problems_are_reported_together builtin {} parsed).1 some
  exact ⟨source, errors, parsed, nothing, failure, isSort⟩

end CaseExpansion
