import CaseExpansion.Linter.Basic
import CaseExpansion.Proofs.Generator.Runs
import CaseExpansion.Proofs.Template.ErrorKinds

namespace CaseExpansion

open List Source

/-!
# The linter agrees with the generator

What the linter reports on a file is what the generator reports, up to order, as long
as no template takes cases from directories.  The linter does not look into these.
Where a template has some, the generator either fails to read them and says so, in
place of expanding the template; or it expands the template with the cases of the
directories after all others.  The others are then judged as the linter judges them,
since whether a case is accepted depends on earlier cases only.
-/

/-! ## Expansion with more cases -/

namespace Template

/-- Which cases a template has is of no matter for the way in which cases are expanded. -/
theorem expandCases_with_cases (template : Template) (others : List Case) (accepted : List Function)
    (cases : List Case) :
    ({ template with cases := others } : Template).expandCases accepted cases =
      template.expandCases accepted cases := by
  induction cases generalizing accepted with
  | nil => rfl
  | cons case cases ih =>
    have same : ({ template with cases := others } : Template).acceptCase accepted case =
        template.acceptCase accepted case := rfl
    rw [expandCases, expandCases, same]
    simp only [ih]

/-- Later cases are expanded after the functions of earlier ones, and add their errors
to the errors of these. -/
theorem expandCases_append (template : Template) (accepted : List Function) (earlier later : List Case) :
    (template.expandCases accepted (earlier ++ later)).2 =
      (template.expandCases accepted earlier).2 ++
        (template.expandCases (template.expandCases accepted earlier).1 later).2 := by
  induction earlier generalizing accepted with
  | nil => rfl
  | cons case earlier ih =>
    rw [cons_append, expandCases, expandCases]
    cases template.acceptCase accepted case with
    | ok function => exact ih _
    | error error =>
      dsimp only
      rw [ih, cons_append]

/-- The errors of the cases that a template has of its own. -/
def ownErrors (template : Template) : List Error :=
  (template.expandCases [] template.cases).2

/-- The errors of the cases that the directories of a template add. -/
def addedErrors (template : Template) (files : FileSystem) : List Error :=
  (template.expandCases (template.expandCases [] template.cases).1
    (template.directories.flatMap (CaseDirectories.casesOf files))).2

theorem ownErrors_loadDirectories (template : Template) (files : FileSystem) :
    (template.loadDirectories files).1.ownErrors = template.ownErrors ++ template.addedErrors files := by
  rw [loadDirectories_fst, ownErrors, expandCases_with_cases, expandCases_append]
  rfl

/-- The errors with which a template is refused are those of its cases. -/
theorem errors_expand (template : Template) :
    (match template.expand with
      | .ok _ => []
      | .error errors => errors).Perm template.ownErrors := by
  unfold expand ownErrors
  split
  next expanded =>
    split at expanded
    next none =>
      rw [none]
    next => cases expanded
  next refused =>
    split at refused
    next => cases refused
    next none =>
      cases refused
      rw [none]
      exact Error.sort_perm _

variable {template : Template}

theorem mem_errors_expand {error : Error} (member : error ∈ template.ownErrors) :
    ∃ errors, template.expand = .error errors ∧ error ∈ errors := by
  have isError := template.errors_expand.symm.subset member
  cases refused : template.expand with
  | ok space =>
    rw [refused] at isError
    cases isError
  | error errors =>
    rw [refused] at isError
    exact ⟨errors, rfl, isError⟩

theorem position_of_mem_addedErrors {files : FileSystem} {error : Error}
    (member : error ∈ template.addedErrors files) :
    ∃ several ∈ template.directories, error.position = several.position := by
  rcases (expandCases_errors member).2 with ⟨case, isCase, position⟩
  rcases mem_flatMap.mp isCase with ⟨several, isSeveral, ofSeveral⟩
  exact ⟨several, isSeveral, position.trans (CaseDirectories.casesOf_position ofSeveral)⟩

theorem addedErrors_eq_nil (files : FileSystem) (none : template.directories = []) :
    template.addedErrors files = [] := by
  rw [addedErrors, none]
  rfl

theorem loadDirectories_snd_eq_nil (files : FileSystem) (none : template.directories = []) :
    (template.loadDirectories files).2 = [] := by
  rw [loadDirectories_eq_outcomes, none]
  exact Error.sort_eq_nil_iff.mpr rfl

end Template

/-! ## Functions -/

/-- The errors of a function, by who reports them. -/
structure Comparison where
  shared : List Error := []
  onlyLinted : List Error := []
  onlyGenerated : List Error := []

namespace Comparison

variable (source : ParsedFile) (strict : Bool) (files : FileSystem)

/-- Compares what is reported on a function.  When directories cannot be read, that
takes the place of the errors of cases. -/
def ofFunction (function : FuncDecl) : Comparison :=
  match Template.read source function strict with
  | .error errors => { shared := errors }
  | .ok none => {}
  | .ok (some template) =>
    match (template.loadDirectories files).2 with
    | [] => { shared := template.ownErrors, onlyGenerated := template.addedErrors files }
    | errors => { onlyLinted := template.ownErrors, onlyGenerated := errors }

theorem functionErrors_perm (function : FuncDecl) :
    (Linter.functionErrors source strict function).Perm
      ((ofFunction source strict files function).shared ++
        (ofFunction source strict files function).onlyLinted) := by
  unfold Linter.functionErrors ofFunction
  cases Template.read source function strict with
  | error errors => exact .of_eq (append_nil _).symm
  | ok read =>
    cases read with
    | none => exact .nil
    | some template =>
      dsimp only
      cases (template.loadDirectories files).2 with
      | nil => exact template.errors_expand.trans (.of_eq (append_nil _).symm)
      | cons error errors => exact template.errors_expand

theorem errors_perm (function : FuncDecl) :
    (Expansion.ofFunction source strict files function).errors.Perm
      ((ofFunction source strict files function).shared ++
        (ofFunction source strict files function).onlyGenerated) := by
  unfold Expansion.ofFunction ofFunction
  cases Template.read source function strict with
  | error errors => exact .of_eq (append_nil _).symm
  | ok read =>
    cases read with
    | none => exact .nil
    | some template =>
      dsimp only
      rcases loaded : template.loadDirectories files with ⟨full, errors⟩
      cases errors with
      | cons error errors => exact .refl _
      | nil =>
        have own := template.ownErrors_loadDirectories files
        rw [loaded] at own
        have expanded := full.errors_expand
        dsimp only at own ⊢
        rw [own] at expanded
        cases refused : full.expand with
        | ok space =>
          rw [refused] at expanded
          exact expanded
        | error errors =>
          rw [refused] at expanded
          exact expanded

variable {function : FuncDecl}

/-- Where the linter reports more, directories could not be read. -/
theorem of_mem_onlyLinted {error : Error}
    (member : error ∈ (ofFunction source strict files function).onlyLinted) :
    ∃ template, Template.read source function strict = .ok (some template) ∧
      error ∈ template.ownErrors ∧ (template.loadDirectories files).2 ≠ [] ∧
      (ofFunction source strict files function).onlyGenerated = (template.loadDirectories files).2 := by
  unfold ofFunction at member ⊢
  split at member
  next => cases member
  next => cases member
  next template isRead =>
    split at member
    next => cases member
    next someErrors => exact ⟨template, isRead, member, someErrors, rfl⟩

/-- Where the generator reports more, it is that directories cannot be read or that
cases from them are rejected. -/
theorem of_mem_onlyGenerated {error : Error}
    (member : error ∈ (ofFunction source strict files function).onlyGenerated) :
    ∃ template, Template.read source function strict = .ok (some template) ∧
      (error ∈ (template.loadDirectories files).2 ∨
        (template.loadDirectories files).2 = [] ∧ error ∈ template.addedErrors files) := by
  unfold ofFunction at member
  split at member
  next => cases member
  next => cases member
  next template isRead =>
    refine ⟨template, isRead, ?_⟩
    split at member
    next none => exact .inr ⟨none, member⟩
    next => exact .inl member

/-- Without directories there is no difference. -/
theorem ofFunction_of_no_directories
    (none : ∀ template, Template.read source function strict = .ok (some template) →
      template.directories = []) :
    (ofFunction source strict files function).onlyLinted = [] ∧
      (ofFunction source strict files function).onlyGenerated = [] := by
  unfold ofFunction
  split
  next => exact ⟨rfl, rfl⟩
  next => exact ⟨rfl, rfl⟩
  next template isRead =>
    rw [Template.loadDirectories_snd_eq_nil files (none template isRead)]
    exact ⟨rfl, Template.addedErrors_eq_nil files (none template isRead)⟩

end Comparison

variable {source : ParsedFile} {error : Error}

theorem Expansion.errors_ofTemplate {strict : Bool} {files : FileSystem} {function : FuncDecl}
    (member : error ∈ (ofFunction source strict files function).errors) : error.OfTemplate := by
  unfold ofFunction at member
  split at member
  next errors isRead =>
    change error ∈ errors at member
    rw [(Template.read_eq_error isRead).2] at member
    exact Template.readErrors_ofTemplate ((Error.sort_perm _).subset member)
  next => cases member
  next template isRead =>
    split at member
    next loaded isLoaded =>
      split at member
      next => cases member
      next errors refused =>
        change error ∈ errors at member
        rw [(Template.expand_eq_error refused).2] at member
        exact (Template.expandCases_errors ((Error.sort_perm _).subset member)).1
    next loaded errors _ isLoaded =>
      change error ∈ errors at member
      have kind : error.kind = .directory := Template.loadDirectories_kind
        (by rw [isLoaded]; exact member)
      rw [Error.OfTemplate, kind]
      decide

/-! ## Files -/

/-- The errors of a run that are not about the use of the tool as such. -/
def Outcome.problems (outcome : Outcome) : List Error :=
  match outcome.failure with
  | some (.invalid errors) => errors.filter fun error => error.kind ≠ .usage
  | _ => []

/-- A problem with the guard is one of use. -/
theorem Guard.edits_blames (source : ParsedFile) (tag : Bytes) :
    Blames (fun error => error.kind = .usage) (Guard.edits source tag) := by
  unfold Guard.edits
  refine Blames.bind (Blames.mapM (fun comment => ?_) _) fun changes => ?_
  · unfold commentEdit
    split
    · split
      · exact .error rfl
      · split <;> exact .ok _
    · split <;> exact .ok _
  · split
    · exact .ok _
    · exact .error rfl

theorem detachedErrors_kind (member : error ∈ detachedErrors source) : error.kind = .placement := by
  rcases mem_map.mp member with ⟨comment, _, rfl⟩
  rfl

/-- Errors of use aside, the errors of a file are those of its functions and those for
directives outside of them. -/
theorem filter_fileErrors (source : ParsedFile) (strict : Bool) (files : FileSystem)
    (filename tag : Bytes) :
    (fileErrors source filename tag (expansions source strict files)).filter
        (fun error => error.kind ≠ .usage) =
      source.file.functions.flatMap
          (fun function => (Expansion.ofFunction source strict files function).errors) ++
        detachedErrors source := by
  have ofFunctions : ((expansions source strict files).flatMap fun entry => entry.2.errors).filter
      (fun error => error.kind ≠ .usage) =
        source.file.functions.flatMap
          (fun function => (Expansion.ofFunction source strict files function).errors) := by
    rw [expansions, flatMap_map]
    refine filter_eq_self.mpr fun error member => ?_
    rcases mem_flatMap.mp member with ⟨function, _, ofFunction⟩
    exact decide_eq_true (Expansion.errors_ofTemplate ofFunction).2
  have ofDetached : (detachedErrors source).filter (fun error => error.kind ≠ .usage) =
      detachedErrors source := by
    refine filter_eq_self.mpr fun error member => ?_
    rw [detachedErrors_kind member]
    rfl
  rw [← ofFunctions, ← ofDetached]
  unfold fileErrors
  cases guarded : Guard.edits source tag with
  | error error =>
    have isUsage : error.kind = .usage := Guard.edits_blames source tag error guarded
    dsimp only
    rw [if_neg (by exact nofun), append_assoc, filter_append, filter_append,
      filter_cons_of_neg (by rw [isUsage]; decide)]
    rfl
  | ok edits =>
    dsimp only
    split
    next nothing =>
      have none := List.isEmpty_iff.mp (Bool.and_eq_true_iff.mp nothing).1
      rw [nil_append, append_eq_nil_iff] at none
      rw [none.1, none.2]
      rfl
    next => rw [nil_append, filter_append]

/-- When all namespaces are rendered, a run reports the errors of the file. -/
theorem Generator.problems_expandFile {generator : Generator} {files : FileSystem}
    {spacePattern : Pattern.Compiled} (filePattern : Pattern.Compiled) (filename : Bytes)
    (rendered : (renderExpansions source generator.memory spacePattern
      (expansions source generator.strict files)).failure = none) :
    (generator.expandFile files filePattern spacePattern filename source).problems.Perm
      (source.file.functions.flatMap
          (fun function => (Expansion.ofFunction source generator.strict files function).errors) ++
        detachedErrors source) := by
  rw [← filter_fileErrors source generator.strict files filename generator.guardTag]
  unfold expandFile
  dsimp only
  rw [rendered]
  dsimp only
  split
  next noErrors _ =>
    rw [noErrors]
    split
    · exact .nil
    · unfold finish
      split <;> exact .nil
  next => exact (Error.sort_perm _).filter _

/-! ## Reports -/

/-- An error as the linter would word it: that a directive belongs to no function is
said without the class. -/
def Error.report (error : Error) : Position × Bytes :=
  (error.position,
    if error.kind = .placement then error.problem.message
    else error.kind.title ++ ": " ++ error.problem.message)

/-- A report of the linter, without its class. -/
def Finding.report (finding : Finding) : Position × Bytes :=
  (finding.position, finding.message)

theorem Error.report_of_ofTemplate (ofTemplate : error.OfTemplate) :
    error.report = (Finding.ofError error).report := by
  rw [report, if_neg ofTemplate.1]
  rfl

theorem Error.report_of_placement (detached : error.kind = .placement) :
    error.report = (Finding.ofDetached error).report := by
  rw [report, if_pos detached]
  rfl

theorem Linter.functionErrors_ofTemplate {strict : Bool} {function : FuncDecl}
    (member : error ∈ functionErrors source strict function) : error.OfTemplate := by
  unfold functionErrors at member
  split at member
  next errors isRead =>
    rw [(Template.read_eq_error isRead).2] at member
    exact Template.readErrors_ofTemplate ((Error.sort_perm _).subset member)
  next => cases member
  next template _ =>
    exact (Template.expandCases_errors (template.errors_expand.subset member)).1

theorem Linter.checkFile_report (strict : Bool) (source : ParsedFile) :
    (checkFile strict source).map Finding.report =
      (source.file.functions.flatMap (functionErrors source strict) ++
        detachedErrors source).map Error.report := by
  rw [checkFile, map_append, map_append, map_map, map_map]
  congr 1
  · refine map_congr_left fun error member => ?_
    rcases mem_flatMap.mp member with ⟨function, _, ofFunction⟩
    exact (Error.report_of_ofTemplate (functionErrors_ofTemplate ofFunction)).symm
  · exact map_congr_left fun error member =>
      (Error.report_of_placement (detachedErrors_kind member)).symm

/-! ## Agreement -/

/-- Lists that are made of two parts for each value can be sorted by parts. -/
theorem flatMap_append_perm_parts {α β : Type} {whole left right : α → List β}
    (parts : ∀ value, (whole value).Perm (left value ++ right value)) (values : List α) (rest : List β) :
    (values.flatMap whole ++ rest).Perm (values.flatMap left ++ rest ++ values.flatMap right) := by
  have sorted : (values.flatMap whole).Perm (values.flatMap left ++ values.flatMap right) :=
    (List.Perm.flatMap_left values fun value _ => parts value).trans
      (flatMap_append_perm values left right).symm
  refine (sorted.append_right rest).trans ?_
  rw [append_assoc, append_assoc]
  exact perm_append_comm.append_left _

/-- The linter and the generator report the same on a file, up to order, when no
template has directories.  In general, the linter alone reports only errors of cases
whose template has directories that cannot be read, and the generator alone reports
only these directories, and errors of cases from directories. -/
theorem linter_agrees_with_generator {generator : Generator} (builtin : generator.UsesBuiltin)
    (disk : Disk) {filename text : Bytes} {source : ParsedFile}
    (parsed : parseFile filename text = .ok source) :
    ((∀ function ∈ source.file.functions, ∀ template,
        Template.read source function generator.strict = .ok (some template) →
          template.directories = []) →
      ((Linter.checkFile generator.strict source).map Finding.report).Perm
        ((generator.generate disk filename (.ok text)).2.problems.map Error.report)) ∧
    ∃ shared onlyLinted onlyGenerated : List Error,
      ((Linter.checkFile generator.strict source).map Finding.report).Perm
        ((shared ++ onlyLinted).map Error.report) ∧
      (generator.generate disk filename (.ok text)).2.problems.Perm (shared ++ onlyGenerated) ∧
      (∀ error ∈ onlyLinted, ∃ function ∈ source.file.functions, ∃ template errors,
        Template.read source function generator.strict = .ok (some template) ∧
          template.expand = .error errors ∧ error ∈ errors ∧
          ∃ instead ∈ onlyGenerated, instead.kind = .directory ∧
            instead ∈ (template.loadDirectories (generator.fileSystem disk filename)).2) ∧
      ∀ error ∈ onlyGenerated, error.kind = .directory ∨
        ∃ function ∈ source.file.functions, ∃ template loaded errors,
          Template.read source function generator.strict = .ok (some template) ∧
            template.loadDirectories (generator.fileSystem disk filename) = (loaded, []) ∧
            loaded.expand = .error errors ∧ error ∈ errors ∧
            ∃ comment ∈ function.directives, Directive.isDirectory comment.text = true ∧
              error.position = source.place comment.offset := by
  rcases builtin.load disk with ⟨filePattern, spacePattern, isBuiltin, isLoaded⟩
  rw [Generator.generate_of_parsed parsed isLoaded, Linter.checkFile_report]
  dsimp only
  generalize generator.fileSystem disk filename = files
  have linted := flatMap_append_perm_parts
    (Comparison.functionErrors_perm source generator.strict files) source.file.functions
    (detachedErrors source)
  have generated := (Generator.problems_expandFile filePattern filename
      (renderExpansions_builtin isBuiltin.isSpace _ _)).trans <|
    flatMap_append_perm_parts (Comparison.errors_perm source generator.strict files)
      source.file.functions (detachedErrors source)
  constructor
  · intro none
    have same (function : FuncDecl) (isFunction : function ∈ source.file.functions) :=
      Comparison.ofFunction_of_no_directories source generator.strict files (none function isFunction)
    rw [flatMap_eq_nil_iff.mpr fun function isFunction => (same function isFunction).1] at linted
    rw [flatMap_eq_nil_iff.mpr fun function isFunction => (same function isFunction).2] at generated
    exact (linted.trans generated.symm).map _
  · refine ⟨_, _, _, linted.map _, generated, ?_, ?_⟩
    · intro error member
      rcases mem_flatMap.mp member with ⟨function, isFunction, ofFunction⟩
      rcases Comparison.of_mem_onlyLinted _ _ _ ofFunction with ⟨template, isRead, own, someErrors, only⟩
      rcases Template.mem_errors_expand own with ⟨errors, refused, isError⟩
      rcases exists_mem_of_ne_nil _ someErrors with ⟨instead, isInstead⟩
      refine ⟨function, isFunction, template, errors, isRead, refused, isError, instead, ?_,
        Template.loadDirectories_kind isInstead, isInstead⟩
      rw [← only] at isInstead
      exact mem_flatMap.mpr ⟨function, isFunction, isInstead⟩
    · intro error member
      rcases mem_flatMap.mp member with ⟨function, isFunction, ofFunction⟩
      rcases Comparison.of_mem_onlyGenerated _ _ _ ofFunction with
        ⟨template, isRead, unread | ⟨noErrors, added⟩⟩
      · exact .inl (Template.loadDirectories_kind unread)
      · have own := template.ownErrors_loadDirectories files
        have isOwn := mem_append_right template.ownErrors added
        rw [← own] at isOwn
        rcases Template.mem_errors_expand isOwn with ⟨errors, refused, isError⟩
        rcases Template.position_of_mem_addedErrors added with ⟨several, isSeveral, position⟩
        rcases Template.exists_directive_of_mem_directories isRead isSeveral with
          ⟨comment, isDirective, isDirectory, place⟩
        exact .inr ⟨function, isFunction, template, _, errors, isRead, Prod.ext rfl noErrors, refused,
          isError, comment, isDirective, isDirectory, position.trans place⟩

/-- A file with a malformed case and with a directive that is above no function. -/
def flawedFile : Bytes :=
  "package p\n\n//casegen:case 1 \"a\"\nfunc f(n int) \x7b\n\tg(n)\n\x7d\n\n//casegen:case 2; \"b\"\nvar x int\n"

/-- Whether no template takes cases from directories. -/
def takesNoDirectories (source : ParsedFile) : Bool :=
  source.file.functions.all fun function =>
    match Template.read source function false with
    | .ok (some template) => template.directories.isEmpty
    | _ => true

theorem linter_agrees_on_flawed_file : ∃ source, parseFile "p.go" flawedFile = .ok source ∧
    (Linter.checkFile false source).length = 2 ∧
    ((Linter.checkFile false source).map Finding.report).Perm
      ((Generator.generate {} {} "p.go" (.ok flawedFile)).2.problems.map Error.report) := by
  have checked : (parseFile "p.go" flawedFile).toOption.any (fun source =>
      takesNoDirectories source && (Linter.checkFile false source).length == 2) = true := by
    decide +kernel
  rcases exists_ok_of_any checked with ⟨source, parsed, passes⟩
  rw [Bool.and_eq_true, beq_iff_eq] at passes
  have builtin : Generator.UsesBuiltin {} := Or.inl ⟨rfl, rfl⟩
  refine ⟨source, parsed, passes.2, (linter_agrees_with_generator builtin {} parsed).1 ?_⟩
  intro function isFunction template isRead
  have none := all_eq_true.mp passes.1 function isFunction
  change Template.read source function false = _ at isRead
  rw [isRead] at none
  exact List.isEmpty_iff.mp none

end CaseExpansion
