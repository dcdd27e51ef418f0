import CaseExpansion.Proofs.Directive.QuotedArguments
import CaseExpansion.Proofs.Template.ErrorKinds

namespace CaseExpansion

open List
open Source (Position)
open Text.Quoted (encode)

/-!
# What is loaded from directories

Loading goes through directives, directories and entries at once, and a directory or a file that
cannot be read does not end it.  Here the same is told in passes: all directories that are named,
then all regular files in them, and then what each of these passes meets.  Every case comes from a
regular file that can be read.  Every error comes from a directory that cannot be listed, from a
listed one without a regular file, or from a regular file that cannot be read.

The arguments of these cases are quoted texts.  So they can be written as directives, whatever bytes
are in the files.

In the lists below, a directory or a file goes with the position of the directive that names it.
-/

namespace FileSystem

/-- The regular files of a directory, as far as it can be listed. -/
def regularFiles (files : FileSystem) (directory : Position × Bytes) : List (Position × Bytes) :=
  match files.list directory.2 with
  | .error _ => []
  | .ok entries => (entries.filter DirectoryEntry.isRegular).map fun entry =>
    (directory.1, Path.join [directory.2, entry.name])

/-- The case of a file that can be read. -/
def caseOf? (files : FileSystem) (file : Position × Bytes) : Option Case :=
  match files.read file.2 with
  | .error _ => none
  | .ok contents => some {
      arguments := [encode file.2, encode contents]
      name := Text.lower file.2
      position := file.1 }

/-- The error for a directory that cannot be listed. -/
def unlisted? (files : FileSystem) (directory : Position × Bytes) : Option Error :=
  match files.list directory.2 with
  | .error failure => some ⟨directory.1, .unreadable failure⟩
  | .ok _ => none

/-- The error for a listed directory without a regular file. -/
def vacant? (files : FileSystem) (directory : Position × Bytes) : Option Error :=
  match files.list directory.2 with
  | .error _ => none
  | .ok entries =>
    if entries.any DirectoryEntry.isRegular then none else some ⟨directory.1, .noFiles directory.2⟩

/-- The error for a file that cannot be read. -/
def unread? (files : FileSystem) (file : Position × Bytes) : Option Error :=
  match files.read file.2 with
  | .error failure => some ⟨file.1, .unreadable failure⟩
  | .ok _ => none

variable {files : FileSystem} {directory file : Position × Bytes}

theorem caseOf?_eq_some_iff {position : Position} {path : Bytes} {case : Case} :
    files.caseOf? (position, path) = some case ↔ ∃ contents, files.read path = .ok contents ∧
      case = ⟨[encode path, encode contents], Text.lower path, position⟩ := by
  unfold caseOf?
  dsimp only
  cases files.read path with
  | error failure => simp
  | ok contents => simp [eq_comm]

theorem unlisted?_ne_none_iff :
    files.unlisted? directory ≠ none ↔ ∃ failure, files.list directory.2 = .error failure := by
  unfold unlisted?
  cases files.list directory.2 <;> simp

theorem vacant?_ne_none_iff : files.vacant? directory ≠ none ↔
    ∃ entries, files.list directory.2 = .ok entries ∧ ∀ entry ∈ entries, entry.isRegular = false := by
  unfold vacant?
  cases files.list directory.2 <;> simp

theorem unread?_ne_none_iff : files.unread? file ≠ none ↔ ∃ failure, files.read file.2 =
      .error failure := by
  unfold unread?
  cases files.read file.2 <;> simp

end FileSystem

namespace CaseDirectories

/-- The files of a listed directory give the cases of those that can be read, and the errors of the
others. -/
theorem outcomes_readFile (files : FileSystem) (position : Position) (directory : Bytes)
    (entries : List DirectoryEntry) :
    let paths := entries.map fun entry => (position, Path.join [directory, entry.name])
    outcomes (entries.map (readFile files position directory)) =
      (paths.filterMap files.caseOf?, paths.filterMap files.unread?) := by
  intro paths
  unfold outcomes
  rw [filterMap_map, filterMap_map, filterMap_map, filterMap_map]
  congr 2
  · funext entry
    unfold readFile FileSystem.caseOf?
    simp only [Function.comp_apply]
    cases files.read (Path.join [directory, entry.name]) <;> rfl
  · funext entry
    unfold readFile FileSystem.unread?
    simp only [Function.comp_apply]
    cases files.read (Path.join [directory, entry.name]) <;> rfl

/-- One directory gives the cases and the errors of its files, or one error of its own. -/
theorem outcomes_readDirectory (files : FileSystem) (position : Position) (directory : Bytes) :
    let place := (position, Path.clean directory)
    outcomes (readDirectory files position directory) =
      ((files.regularFiles place).filterMap files.caseOf?,
      (files.unlisted? place).toList ++ (files.vacant? place).toList ++
        (files.regularFiles place).filterMap files.unread?) := by
  unfold readDirectory FileSystem.regularFiles FileSystem.unlisted? FileSystem.vacant?
  dsimp only
  cases files.list (Path.clean directory) with
  | error failure => rfl
  | ok entries =>
    dsimp only
    cases regular : entries.filter DirectoryEntry.isRegular with
    | nil =>
      have noneRegular : entries.any DirectoryEntry.isRegular = false :=
        any_eq_false.mpr (filter_eq_nil_iff.mp regular)
      rw [noneRegular]
      rfl
    | cons entry rest =>
      have someRegular : entries.any DirectoryEntry.isRegular = true := by
        have member : entry ∈ entries.filter DirectoryEntry.isRegular := regular ▸ mem_cons_self
        rcases mem_filter.mp member with ⟨isEntry, isRegular⟩
        exact any_eq_true.mpr ⟨entry, isEntry, isRegular⟩
      rw [someRegular]
      exact outcomes_readFile files position _ _

end CaseDirectories

namespace Template

/-- The directories that the directives of a template name, as paths in their shortest form. -/
def namedDirectories (template : Template) : List (Position × Bytes) :=
  template.directories.flatMap fun several =>
    several.directories.map fun directory => (several.position, Path.clean directory)

theorem flatMap_namedDirectories {α : Type} (template : Template) (collect : Position × Bytes → List α) :
    template.namedDirectories.flatMap collect = template.directories.flatMap fun several =>
      several.directories.flatMap fun directory => collect (several.position, Path.clean directory) := by
  rw [namedDirectories, flatMap_assoc]
  simp only [flatMap_map]

/-- All outcomes are those of the single directories. -/
theorem outcomes_readAll (files : FileSystem) (template : Template) :
    let regular := template.namedDirectories.flatMap files.regularFiles
    let results := outcomes (template.directories.flatMap (CaseDirectories.readAll files))
    results.1 = regular.filterMap files.caseOf? ∧
      results.2 = template.namedDirectories.flatMap fun place =>
        (files.unlisted? place).toList ++ (files.vacant? place).toList ++
          (files.regularFiles place).filterMap files.unread? := by
  have step := CaseDirectories.outcomes_readDirectory files
  dsimp only at step ⊢
  constructor
  · calc (outcomes (template.directories.flatMap (CaseDirectories.readAll files))).1
      _ = template.directories.flatMap fun several => several.directories.flatMap fun directory =>
            (outcomes (CaseDirectories.readDirectory files several.position directory)).1 := by
          simp only [outcomes, CaseDirectories.readAll, filterMap_flatMap]
      _ = template.namedDirectories.flatMap fun place =>
            (files.regularFiles place).filterMap files.caseOf? := by
          simp only [step, flatMap_namedDirectories]
      _ = _ := (filterMap_flatMap ..).symm
  · calc (outcomes (template.directories.flatMap (CaseDirectories.readAll files))).2
      _ = template.directories.flatMap fun several => several.directories.flatMap fun directory =>
            (outcomes (CaseDirectories.readDirectory files several.position directory)).2 := by
          simp only [outcomes, CaseDirectories.readAll, filterMap_flatMap]
      _ = _ := by simp only [step, flatMap_namedDirectories]

/-- The cases of the regular files are added, and nothing else changes. -/
theorem loadDirectories_eq_regular (files : FileSystem) (template : Template) :
    (template.loadDirectories files).1 = { template with
      cases := template.cases ++ (template.namedDirectories.flatMap files.regularFiles).filterMap
        files.caseOf? } := by
  rw [loadDirectories_eq_outcomes]
  dsimp only
  rw [(outcomes_readAll files template).1]

/-- The errors are those of the three ways to fail, in the order of their places. -/
theorem loadDirectories_errors (files : FileSystem) (template : Template) :
    (template.loadDirectories files).2.Perm (template.namedDirectories.filterMap files.unlisted? ++
      template.namedDirectories.filterMap files.vacant? ++
      (template.namedDirectories.flatMap files.regularFiles).filterMap files.unread?) := by
  rw [loadDirectories_eq_outcomes]
  refine (Error.sort_perm _).trans ?_
  rw [(outcomes_readAll files template).2, filterMap_flatMap, filterMap_eq_flatMap_toList,
    filterMap_eq_flatMap_toList]
  exact (flatMap_append_perm _ _ _).symm.trans ((flatMap_append_perm _ _ _).symm.append_right _)

theorem not_filterMap_eq_nil_iff {α : Type} (found : α → Option Error) (places : List α) :
    ¬places.filterMap found = [] ↔ ∃ place ∈ places, found place ≠ none := by
  rw [filterMap_eq_nil_iff]
  push Not
  rfl

theorem loadDirectories_fails_iff (files : FileSystem) (template : Template) :
    (template.loadDirectories files).2 ≠ [] ↔
      (∃ directory ∈ template.namedDirectories, ∃ failure, files.list directory.2 = .error failure) ∨
      (∃ directory ∈ template.namedDirectories, ∃ entries, files.list directory.2 = .ok entries ∧
        ∀ entry ∈ entries, entry.isRegular = false) ∨
      ∃ file ∈ template.namedDirectories.flatMap files.regularFiles, ∃ failure,
        files.read file.2 = .error failure := by
  rw [← length_pos_iff, (loadDirectories_errors files template).length_eq, length_pos_iff, Ne,
    append_eq_nil_iff, append_eq_nil_iff, not_and_or, not_and_or, not_filterMap_eq_nil_iff,
    not_filterMap_eq_nil_iff, not_filterMap_eq_nil_iff, or_assoc]
  simp only [FileSystem.unlisted?_ne_none_iff, FileSystem.vacant?_ne_none_iff,
    FileSystem.unread?_ne_none_iff]

end Template

/-- Loading adds one case for each regular file that can be read, in the order of the directives,
their directories and the listed entries, and changes nothing else.  There is one error for each
directory that cannot be listed, for each listed one without a regular file, and for each regular
file that cannot be read, and no other. -/
theorem loading_adds_regular_files (files : FileSystem) (template : Template) :
    let loaded := template.loadDirectories files
    let regular := template.namedDirectories.flatMap files.regularFiles
    loaded.1 = { template with cases := template.cases ++ regular.filterMap files.caseOf? } ∧
      loaded.2.Perm (template.namedDirectories.filterMap files.unlisted? ++
        template.namedDirectories.filterMap files.vacant? ++ regular.filterMap files.unread?) ∧
      (∀ error ∈ loaded.2, error.kind = .directory) ∧
      (loaded.2 ≠ [] ↔
        (∃ directory ∈ template.namedDirectories, ∃ failure, files.list directory.2 = .error failure) ∨
        (∃ directory ∈ template.namedDirectories, ∃ entries, files.list directory.2 = .ok entries ∧
          ∀ entry ∈ entries, entry.isRegular = false) ∨
        ∃ file ∈ regular, ∃ failure, files.read file.2 = .error failure) := by
  intro loaded regular
  exact ⟨Template.loadDirectories_eq_regular files template,
    Template.loadDirectories_errors files template,
    fun error member => Template.loadDirectories_kind member,
    Template.loadDirectories_fails_iff files template⟩

/-! ## Cases as directives -/

/-- A case carries two texts, byte for byte: they are what its arguments stand for.  The case is read
back from the directive with these arguments and its name. -/
def Case.Carries (case : Case) (path contents : Bytes) : Prop :=
  ∃ first second, case.arguments = [first, second] ∧ Text.Quoted.decode? first = some path ∧
    Text.Quoted.decode? second = some contents ∧
    ∀ place offset, Case.parse place
        ⟨offset, Directive.caseMark ++ " " ++ first ++ ", " ++ second ++ "; " ++ encode case.name⟩ =
      .ok { case with position := place offset }

theorem Case.carries_quoted (path contents name : Bytes) (position : Source.Position) :
    Case.Carries ⟨[encode path, encode contents], name, position⟩ path contents := by
  refine ⟨_, _, rfl, Text.Quoted.decode?_encode path, Text.Quoted.decode?_encode contents,
    fun place offset => ?_⟩
  have standalone : ∀ argument ∈ [encode path, encode contents],
      Directive.Standalone argument :=
    forall_mem_cons.mpr ⟨Directive.standalone_encode path,
      forall_mem_singleton.mpr (Directive.standalone_encode contents)⟩
  have isWritten (first second : Bytes) : Directive.written [first, second] name =
      Directive.caseMark ++ " " ++ first ++ ", " ++ second ++ "; " ++ encode name := by
    simp only [Directive.written, Bytes.joinWith, append_assoc]
  rw [← isWritten]
  exact Directive.parse_written standalone name place offset

/-- Every case that is added carries the path and the contents of a regular file, and every regular
file that can be read is carried by such a case. -/
theorem added_cases_carry_files (files : FileSystem) (template : Template) :
    ∃ added, (template.loadDirectories files).1.cases = template.cases ++ added ∧
      (∀ case ∈ added, ∃ path contents,
        (case.position, path) ∈ template.namedDirectories.flatMap files.regularFiles ∧
        files.read path = .ok contents ∧ case.Carries path contents) ∧
      ∀ file ∈ template.namedDirectories.flatMap files.regularFiles, ∀ contents,
        files.read file.2 = .ok contents →
          ∃ case ∈ added, case.position = file.1 ∧ case.Carries file.2 contents := by
  refine ⟨_, congrArg Template.cases (Template.loadDirectories_eq_regular files template), ?_, ?_⟩
  · intro case member
    rcases mem_filterMap.mp member with ⟨⟨position, path⟩, isRegular, isCase⟩
    rcases FileSystem.caseOf?_eq_some_iff.mp isCase with ⟨contents, isRead, rfl⟩
    exact ⟨path, contents, isRegular, isRead, Case.carries_quoted path contents _ _⟩
  · rintro ⟨position, path⟩ isRegular contents isRead
    have isCase : files.caseOf? (position, path) = some _ :=
      FileSystem.caseOf?_eq_some_iff.mpr ⟨contents, isRead, rfl⟩
    exact ⟨_, mem_filterMap.mpr ⟨_, isRegular, isCase⟩, rfl, Case.carries_quoted path contents _ _⟩

end CaseExpansion
