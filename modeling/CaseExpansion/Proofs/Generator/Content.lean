import CaseExpansion.Proofs.Generator.GuardEdits
import CaseExpansion.Proofs.Generator.Runs
import CaseExpansion.Proofs.Template.Locality

namespace CaseExpansion

open List Source

/-!
# The content of a generated file

A generated file has the text of its template file, but for the comments of the
guard and for the templates.  The edits for both come from different passes; here
they are shown to fit together.  What takes the place of a template is found in its
own declaration, in the imports and in the directories of cases: it is the same for
every function that says the same, in whatever file with the same imports.
-/

variable {source : ParsedFile} {strict : Bool} {files : FileSystem} {pattern : Pattern.Compiled}
  {memory : Nat → Rendering.Memory}

/-- The change that a function of a file calls for: a template is replaced by the text
of its namespace, from its doc comment to the end of its body. -/
def Expansion.Replaces (memory : Nat → Rendering.Memory) (pattern : Pattern.Compiled)
    (entry : FuncDecl × Expansion) (edit : Edit) : Prop :=
  ∃ template space text, entry.2 = .expanded template space ∧
    Rendering.renderNamespace pattern (memory (CommentGroup.start entry.1.docComments)) space =
      .ok text ∧
    edit = ⟨CommentGroup.start entry.1.docComments, entry.1.stop, text⟩

variable {edit : Edit} {generator : Generator} {filename : Bytes}

theorem Expansion.EditOf.mem_iff {entry : FuncDecl × Expansion} {edits : List Edit}
    (isEdit : Expansion.EditOf memory pattern entry edits) :
    edit ∈ edits ↔ Expansion.Replaces memory pattern entry edit := by
  rcases entry with ⟨function, expansion⟩
  cases expansion with
  | expanded template space =>
    rcases isEdit with ⟨text, isText, rfl⟩
    constructor
    · intro member
      exact ⟨template, space, text, rfl, isText, mem_singleton.mp member⟩
    · rintro ⟨_, _, other, same, isOther, rfl⟩
      cases same
      cases isText.symm.trans isOther
      exact mem_singleton_self _
  | plain | unreadable | unexpanded =>
    cases isEdit
    constructor
    · intro member
      cases member
    · rintro ⟨_, _, _, same, _⟩
      cases same

/-- The edits for templates are exactly the changes that templates call for. -/
theorem mem_templateEdits {found : List (FuncDecl × Expansion)}
    (rendered : (renderExpansions source memory pattern found).failure = none) :
    edit ∈ (renderExpansions source memory pattern found).edits ↔
      ∃ entry ∈ found, Expansion.Replaces memory pattern entry edit := by
  rcases (renderExpansions_eq rendered).2 with ⟨groups, pointwise, edits⟩
  rw [edits]
  constructor
  · intro member
    rcases mem_flatten.mp member with ⟨group, isGroup, inGroup⟩
    rcases exists_left_of_forall₂ pointwise isGroup with ⟨entry, isEntry, isEdit⟩
    exact ⟨entry, isEntry, isEdit.mem_iff.mp inGroup⟩
  · rintro ⟨entry, isEntry, replaces⟩
    rcases exists_right_of_forall₂ pointwise isEntry with ⟨group, isGroup, isEdit⟩
    exact mem_flatten.mpr ⟨group, isGroup, isEdit.mem_iff.mpr replaces⟩

theorem doc_and_body_of_expanded {function : FuncDecl} {template : Template} {space : Namespace}
    (expanded : Expansion.ofFunction source strict files function = .expanded template space) :
    ∃ doc body, function.doc = some doc ∧ function.body = some body ∧
      CommentGroup.start function.docComments = CommentGroup.start doc ∧
      function.stop = body.rbrace + 1 := by
  rcases Expansion.ofFunction_eq_expanded expanded with ⟨bare, isRead, _⟩
  rcases Template.read_eq_some isRead with ⟨hasDirective, _, body, _, hasBody, _⟩
  cases hasDoc : function.doc with
  | none =>
    rw [hasDoc] at hasDirective
    cases hasDirective
  | some doc =>
    refine ⟨doc, body, rfl, hasBody, ?_, ?_⟩
    · rw [FuncDecl.docComments, hasDoc, Option.getD_some]
    · rw [FuncDecl.stop, hasBody]

/-- The edits for templates come in the order of the file. -/
theorem templateEdits_pairwise (arranged : source.Arranged)
    (rendered : (renderExpansions source memory pattern (expansions source strict files)).failure =
      none) :
    (renderExpansions source memory pattern (expansions source strict files)).edits.Pairwise
      fun earlier later => earlier.stop ≤ later.start := by
  rcases (renderExpansions_eq rendered).2 with ⟨groups, pointwise, edits⟩
  rw [edits, pairwise_flatten]
  constructor
  · intro group isGroup
    rcases exists_left_of_forall₂ pointwise isGroup with ⟨⟨function, expansion⟩, _, isEdit⟩
    cases expansion with
    | expanded template space =>
      rcases isEdit with ⟨text, _, rfl⟩
      exact pairwise_singleton ..
    | plain | unreadable | unexpanded =>
      cases isEdit
      exact .nil
  · rw [expansions, forall₂_map_left_iff] at pointwise
    refine pairwise_of_forall₂ pointwise arranged.apart ?_
    intro left right leftEdits rightEdits _ _ apart ofLeft ofRight leftEdit isLeft rightEdit isRight
    rcases ofLeft.mem_iff.mp isLeft with ⟨_, _, _, leftExpanded, _, rfl⟩
    rcases ofRight.mem_iff.mp isRight with ⟨_, _, _, rightExpanded, _, rfl⟩
    rcases doc_and_body_of_expanded leftExpanded with ⟨_, body, _, hasBody, _, ends⟩
    rcases doc_and_body_of_expanded rightExpanded with ⟨doc, _, hasDoc, _, starts, _⟩
    have := apart body doc hasBody hasDoc
    dsimp only
    omega

theorem templateEdits_inside (arranged : source.Arranged)
    (rendered : (renderExpansions source memory pattern (expansions source strict files)).failure = none)
    (member : edit ∈ (renderExpansions source memory pattern (expansions source strict files)).edits) :
    source.file.package ≤ edit.start ∧ edit.start < edit.stop ∧ edit.stop ≤ source.text.length := by
  rcases (mem_templateEdits rendered).mp member with ⟨entry, isEntry, _, _, _, expanded, _, rfl⟩
  rcases mem_map.mp isEntry with ⟨function, isFunction, rfl⟩
  rcases doc_and_body_of_expanded expanded with ⟨doc, body, hasDoc, hasBody, starts, ends⟩
  have := arranged.tail function isFunction doc hasDoc
  have := arranged.bodies function isFunction doc body hasDoc hasBody
  have isGroup := arranged.docs.subset (mem_filterMap.mpr ⟨function, isFunction, hasDoc⟩)
  rcases exists_mem_of_ne_nil _ (arranged.nonempty doc isGroup) with ⟨comment, inDoc⟩
  have := Guard.mem_group_bounds arranged isGroup inDoc
  have := arranged.inside comment (mem_flatten.mpr ⟨doc, isGroup, inDoc⟩)
  dsimp only
  omega

/-- The edits of both passes together are separate. -/
theorem edits_separate (arranged : source.Arranged) {tag : Bytes} {guardEdits : List Edit}
    (guarded : Guard.edits source tag = .ok guardEdits)
    (rendered : (renderExpansions source memory pattern (expansions source strict files)).failure =
      none) :
    Edit.Separate source.text.length
      (guardEdits ++ (renderExpansions source memory pattern
        (expansions source strict files)).edits) where
  inside edit member := by
    rcases mem_append.mp member with isGuard | isTemplate
    · have := Guard.edits_inside arranged guarded isGuard
      exact ⟨this.1, this.2.2⟩
    · exact (templateEdits_inside arranged rendered isTemplate).2
  apart := by
    refine pairwise_append.mpr ⟨?_, ?_, ?_⟩
    · exact (Guard.edits_pairwise arranged guarded).imp Or.inl
    · exact (templateEdits_pairwise arranged rendered).imp Or.inl
    · intro guardEdit isGuard templateEdit isTemplate
      have := Guard.edits_inside arranged guarded isGuard
      have := templateEdits_inside arranged rendered isTemplate
      exact Or.inl (by omega)

/-! ## The text of a namespace is local -/

namespace Expansion

/-- The namespace of a function that was expanded. -/
def space? : Expansion → Option Namespace
  | expanded _ space => some space
  | plain | unreadable _ | unexpanded .. => none

theorem space?_ofFunction (source : ParsedFile) (strict : Bool) (files : FileSystem)
    (function : FuncDecl) :
    (ofFunction source strict files function).space? =
      (Template.read source function strict).toOption.bind fun read =>
      read.bind (Template.space? files) := by
  unfold ofFunction
  cases Template.read source function strict with
  | error errors => rfl
  | ok read =>
    cases read with
    | none => rfl
    | some template =>
      dsimp only [Except.toOption, Option.bind_some]
      unfold Template.space?
      rcases template.loadDirectories files with ⟨loaded, errors⟩
      cases errors with
      | nil =>
        dsimp only
        rw [if_pos rfl]
        cases loaded.expand <;> rfl
      | cons error errors => rfl

/-- Functions of the same description, in files with the same imports, expand to the
same namespace, up to places. -/
theorem space?_of_same {other : ParsedFile} {function twin : FuncDecl} (strict : Bool)
    (files : FileSystem) (sameImports : source.importTexts = other.importTexts)
    (same : function.described source = twin.described other) :
    (ofFunction source strict files function).space?.map Namespace.unplaced =
      (ofFunction other strict files twin).space?.map Namespace.unplaced := by
  have unplaced (outcome : Except (List Error) (Option Template)) :
      (outcome.toOption.bind fun read => read.bind (Template.space? files)).map Namespace.unplaced =
        (outcome.toOption.map (Option.map Template.unplaced)).bind
          fun read => read.bind (Template.space? files) := by
    cases outcome with
    | error errors => rfl
    | ok read =>
      cases read with
      | none => rfl
      | some template => exact (template.space?_unplaced files).symm
  rw [space?_ofFunction, space?_ofFunction, unplaced, unplaced,
    Template.read_of_same sameImports same strict]

end Expansion

namespace Rendering

/-- The text of a namespace does not tell places. -/
theorem namespaceText_unplaced (space : Namespace) :
    namespaceText space.unplaced = namespaceText space := by
  have functions (function : Function) :
      functionText space.unplaced function.unplaced = functionText space function := by
    simp only [functionText, Function.unplaced, flatMap_map]
    rfl
  unfold namespaceText
  rw [show space.unplaced.functions = space.functions.map Function.unplaced from rfl,
    flatMap_map, flatMap_map]
  simp only [functions]
  rfl

theorem renderNamespace_unplaced {pattern : Pattern.Compiled}
    (isBuiltin : Pattern.compile "namespace" namespacePattern = .ok pattern)
    (memory otherMemory : Memory) (space : Namespace) :
    renderNamespace pattern memory space.unplaced = renderNamespace pattern otherMemory space := by
  rw [renderNamespace_builtin isBuiltin, renderNamespace_builtin isBuiltin, namespaceText_unplaced]

end Rendering

/-- Functions of the same description, in files with the same imports, are replaced by
the same text, wherever their data lies. -/
theorem Expansion.rendered_of_same {other : ParsedFile} {function twin : FuncDecl}
    (isBuiltin : Pattern.compile "namespace" Rendering.namespacePattern = .ok pattern) (strict : Bool)
    (files : FileSystem) (sameImports : source.importTexts = other.importTexts)
    (same : function.described source = twin.described other) (memory otherMemory : Rendering.Memory) :
    (ofFunction source strict files function).space?.map (Rendering.renderNamespace pattern memory) =
      (ofFunction other strict files twin).space?.map
        (Rendering.renderNamespace pattern otherMemory) := by
  have forgets (place : Rendering.Memory) : Rendering.renderNamespace pattern memory ∘
      Namespace.unplaced = Rendering.renderNamespace pattern place :=
    funext (Rendering.renderNamespace_unplaced isBuiltin memory place)
  rw [← forgets memory, ← forgets otherMemory, ← Option.map_map, ← Option.map_map,
    space?_of_same strict files sameImports same]

/-! ## The content -/

/-- A file without problems is expanded by applying the edits of both passes. -/
theorem expandFile_eq {filePattern spacePattern : Pattern.Compiled}
    (isBuiltin : Rendering.Patterns.IsBuiltin ⟨some filePattern, some spacePattern⟩ filePattern
      spacePattern)
    {guardEdits : List Edit} {content : Bytes}
    (noProblems : fileErrors source filename generator.guardTag
      (expansions source generator.strict files) = [])
    (guarded : Guard.edits source generator.guardTag = .ok guardEdits)
    (applied : Edit.applyAll? source.text (guardEdits ++
      (renderExpansions source generator.memory spacePattern
        (expansions source generator.strict files)).edits) = some content) :
    generator.expandFile files filePattern spacePattern filename source =
      Generator.finish
        ((expansions source generator.strict files).flatMap fun entry => entry.2.warnings source)
        (Rendering.fileText (Path.base filename) content) := by
  have rendered : (renderExpansions source generator.memory spacePattern
      (expansions source generator.strict files)).failure = none :=
    renderExpansions_builtin isBuiltin.isSpace _ _
  rw [← (renderExpansions_eq rendered).1]
  unfold Generator.expandFile
  dsimp only
  rw [rendered, noProblems, guarded]
  dsimp only
  rw [applied, Option.getD_some, Rendering.renderFile_builtin isBuiltin.isFile]

theorem Generator.finish_failure_ne_invalid (warnings : List Error) (text : Bytes)
    (errors : List Error) : (Generator.finish warnings text).failure ≠ some (.invalid errors) := by
  unfold Generator.finish
  split <;> exact nofun

theorem Generator.finish_of_any (warnings : List Error) {text : Bytes}
    (formatted : (Layout.format text).toOption.any (· != []) = true) :
    (Generator.finish warnings text).failure = none ∧ (Generator.finish warnings text).output ≠ [] := by
  unfold Generator.finish
  cases outcome : Layout.format text with
  | ok output =>
    rw [outcome] at formatted
    exact ⟨rfl, bne_iff_ne.mp formatted⟩
  | error diagnostics =>
    rw [outcome] at formatted
    cases formatted

/-- A run that reports no errors of the file has found none. -/
theorem fileErrors_eq_nil_of_expandFile {filePattern spacePattern : Pattern.Compiled}
    (rendered : (renderExpansions source generator.memory spacePattern
      (expansions source generator.strict files)).failure = none)
    (valid : ∀ errors, (generator.expandFile files filePattern spacePattern filename source).failure ≠
      some (.invalid errors)) :
    fileErrors source filename generator.guardTag (expansions source generator.strict files) = [] := by
  unfold Generator.expandFile at valid
  dsimp only at valid
  rw [rendered] at valid
  dsimp only at valid
  split at valid
  next noErrors _ => exact noErrors
  next => exact absurd rfl (valid _)

/-- A run on a file without problems formats the content that the edits give. -/
theorem generate_eq_finish (builtin : generator.UsesBuiltin) (disk : Disk) {text : Bytes}
    (parsed : parseFile filename text = .ok source)
    (noProblems : fileErrors source filename generator.guardTag
      (expansions source generator.strict (generator.fileSystem disk filename)) = []) :
    ∃ filePattern spacePattern guardEdits content,
      Rendering.Patterns.IsBuiltin ⟨some filePattern, some spacePattern⟩ filePattern spacePattern ∧
      Guard.edits source generator.guardTag = .ok guardEdits ∧
      Edit.Separate text.length (guardEdits ++ (renderExpansions source generator.memory spacePattern
        (expansions source generator.strict (generator.fileSystem disk filename))).edits) ∧
      Edit.applyAll? text (guardEdits ++ (renderExpansions source generator.memory spacePattern
        (expansions source generator.strict (generator.fileSystem disk filename))).edits) =
          some content ∧
      (generator.generate disk filename (.ok text)).2 = Generator.finish
        (generator.generate disk filename (.ok text)).2.warnings
        (Rendering.fileText (Path.base filename) content) := by
  rcases builtin.load disk with ⟨filePattern, spacePattern, isBuiltin, isLoaded⟩
  rw [Generator.generate_of_parsed parsed isLoaded]
  cases (parseFile_eq_ok parsed).1
  rcases (fileErrors_eq_nil noProblems).1 with ⟨guardEdits, guarded⟩
  have separate := edits_separate (parseFile_arranged parsed) guarded
    (renderExpansions_builtin isBuiltin.isSpace generator.memory (expansions source generator.strict
      (generator.fileSystem disk filename)))
  rcases separate.applyAll?_eq with ⟨content, applied, _⟩
  refine ⟨filePattern, spacePattern, guardEdits, content, isBuiltin, guarded, separate, applied, ?_⟩
  dsimp only
  rw [expandFile_eq isBuiltin noProblems guarded applied, Generator.finish_warnings]

/-- Whether the edits of a file without problems come in order and give a content that is
formatted to some text.  The order spares the sorting, which does not reduce. -/
def Generator.fits (generator : Generator) (files : FileSystem) (filename : Bytes)
    (source : ParsedFile) : Bool :=
  match Guard.edits source generator.guardTag, Pattern.compile "namespace" Rendering.namespacePattern with
  | .ok guardEdits, .ok pattern =>
    let found := expansions source generator.strict files
    let edits := guardEdits ++ (renderExpansions source generator.memory pattern found).edits
    (fileErrors source filename generator.guardTag found).isEmpty &&
      (decide (edits.Pairwise fun earlier later => earlier.start ≤ later.start) &&
        (Edit.splice? source.text 0 edits).any fun content =>
          (Layout.format (Rendering.fileText (Path.base filename) content)).toOption.any (· != []))
  | _, _ => false

theorem generate_of_fits (builtin : generator.UsesBuiltin) {disk : Disk} {text : Bytes}
    (parsed : parseFile filename text = .ok source)
    (fits : generator.fits (generator.fileSystem disk filename) filename source = true) :
    (generator.generate disk filename (.ok text)).2.failure = none ∧
      (generator.generate disk filename (.ok text)).2.output ≠ [] := by
  unfold Generator.fits at fits
  split at fits
  next guardEdits pattern guarded compiled =>
    rw [Bool.and_eq_true, Bool.and_eq_true, decide_eq_true_eq, List.isEmpty_iff] at fits
    obtain ⟨noProblems, inOrder, formatted⟩ := fits
    rcases generate_eq_finish builtin disk parsed noProblems with
      ⟨_, other, _, content, isBuiltin, alsoGuarded, _, applied, outcome⟩
    cases guarded.symm.trans alsoGuarded
    cases compiled.symm.trans isBuiltin.isSpace
    rw [← (parseFile_eq_ok parsed).1] at applied
    rw [← Edit.applyAll?_of_pairwise inOrder, applied, Option.any_some] at formatted
    rw [outcome]
    exact Generator.finish_of_any _ formatted
  next => cases fits

/-- When a run reports no errors of the file, the text that is formatted has the text of
the file as its content, in which exactly the guard and the templates are replaced. The
edits are separate, so that applying them never leaves the text.  What replaces a
template depends on what its declaration says, on the imports and on the files, and not on
where data lies in memory. -/
theorem content_is_spliced {generator : Generator} (builtin : generator.UsesBuiltin) (disk : Disk)
    {filename text : Bytes} {source : ParsedFile} (parsed : parseFile filename text = .ok source)
    (valid : ∀ errors,
      (generator.generate disk filename (.ok text)).2.failure ≠ some (.invalid errors)) :
    ∃ filePattern spacePattern guardEdits templateEdits content,
      Rendering.Patterns.IsBuiltin ⟨some filePattern, some spacePattern⟩ filePattern spacePattern ∧
      Guard.edits source generator.guardTag = .ok guardEdits ∧
      templateEdits = (renderExpansions source generator.memory spacePattern
        (expansions source generator.strict (generator.fileSystem disk filename))).edits ∧
      (∀ edit, edit ∈ guardEdits ++ templateEdits ↔
        (∃ comment ∈ source.comments, comment.offset < source.file.package ∧
          Guard.Replaces generator.guardTag comment edit) ∨
        ∃ function ∈ source.file.functions, Expansion.Replaces generator.memory spacePattern
          (function, Expansion.ofFunction source generator.strict
            (generator.fileSystem disk filename) function) edit) ∧
      Edit.Separate text.length (guardEdits ++ templateEdits) ∧
      ((guardEdits ++ templateEdits).map Edit.start).Nodup ∧
      Edit.applyAll? text (guardEdits ++ templateEdits) = some content ∧
      (∀ other, Edit.Spliced (guardEdits ++ templateEdits) 0 text other ↔ other = content) ∧
      (generator.generate disk filename (.ok text)).2 =
        Generator.finish (generator.generate disk filename (.ok text)).2.warnings
          (Rendering.fileText (Path.base filename) content) ∧
      ∀ function ∈ source.file.functions, ∀ (other : ParsedFile) (twin : FuncDecl) (strict : Bool)
        (files : FileSystem) (memory otherMemory : Rendering.Memory),
        source.importTexts = other.importTexts → function.described source = twin.described other →
        (Expansion.ofFunction source strict files function).space?.map
            (Rendering.renderNamespace spacePattern memory) =
          (Expansion.ofFunction other strict files twin).space?.map
            (Rendering.renderNamespace spacePattern otherMemory) := by
  rcases builtin.load disk with ⟨_, pattern, isLoadedBuiltin, isLoaded⟩
  have noProblems : fileErrors source filename generator.guardTag
      (expansions source generator.strict (generator.fileSystem disk filename)) = [] := by
    rw [Generator.generate_of_parsed parsed isLoaded] at valid
    exact fileErrors_eq_nil_of_expandFile (renderExpansions_builtin isLoadedBuiltin.isSpace _ _) valid
  rcases generate_eq_finish builtin disk parsed noProblems with
    ⟨filePattern, spacePattern, guardEdits, content, isBuiltin, guarded, separate, applied, outcome⟩
  have rendered : (renderExpansions source generator.memory spacePattern
      (expansions source generator.strict (generator.fileSystem disk filename))).failure = none :=
    renderExpansions_builtin isBuiltin.isSpace _ _
  refine ⟨filePattern, spacePattern, guardEdits, _, content, isBuiltin, guarded, rfl, ?_, separate,
    separate.starts_nodup, applied, ?_, outcome, ?_⟩
  · intro edit
    rw [mem_append, Guard.mem_edits (parseFile_arranged parsed) guarded, mem_templateEdits rendered]
    simp only [expansions, mem_map, exists_exists_and_eq_and]
  · rcases separate.applyAll?_eq with ⟨other, isOther, spliced⟩
    rw [applied] at isOther
    cases isOther
    exact spliced
  · intro function _ other twin strict files memory otherMemory sameImports same
    exact Expansion.rendered_of_same isBuiltin.isSpace strict files sameImports same memory otherMemory

/-- A file with a guard in both spellings and with two templates around another
declaration. -/
def guardedFile : Bytes :=
  "//go:build casegen\n// +build casegen\n\npackage p\n\n//casegen:case 1; \"a\"\nfunc f(n int) \x7b\n\tg(n)\n\x7d\n\nvar x int\n\n//casegen:case 2; \"b\"\nfunc h(n int) \x7b\n\tg(n)\n\x7d\n"

theorem content_of_guarded_file_is_spliced :
    (∀ errors, (Generator.generate {} {} "x.go" (.ok guardedFile)).2.failure ≠
      some (.invalid errors)) ∧
    ∃ source guardEdits templateEdits content, parseFile "x.go" guardedFile = .ok source ∧
      Guard.edits source "casegen" = .ok guardEdits ∧
      Edit.Separate guardedFile.length (guardEdits ++ templateEdits) ∧
      Edit.applyAll? guardedFile (guardEdits ++ templateEdits) = some content ∧
      (Generator.generate {} {} "x.go" (.ok guardedFile)).2 =
        Generator.finish (Generator.generate {} {} "x.go" (.ok guardedFile)).2.warnings
          (Rendering.fileText "x.go" content) := by
  have checked : (parseFile "x.go" guardedFile).toOption.any (fun source =>
      (fileErrors source "x.go" "casegen" (expansions source false
        (Generator.fileSystem {} {} "x.go"))).isEmpty) = true := by
    decide +kernel
  rcases exists_ok_of_any checked with ⟨source, parsed, noProblems⟩
  have builtin : Generator.UsesBuiltin {} := Or.inl ⟨rfl, rfl⟩
  have valid (errors : List Error) : (Generator.generate {} {} "x.go" (.ok guardedFile)).2.failure ≠
      some (.invalid errors) := by
    rcases generate_eq_finish builtin {} parsed (List.isEmpty_iff.mp noProblems) with
      ⟨_, _, _, content, _, _, _, _, outcome⟩
    rw [outcome]
    exact Generator.finish_failure_ne_invalid _ _ errors
  rcases content_is_spliced builtin {} parsed valid with
    ⟨_, _, guardEdits, templateEdits, content, _, guarded, _, _, separate, _, applied, _, outcome, _⟩
  exact ⟨valid, source, guardEdits, templateEdits, content, parsed, guarded, separate, applied, outcome⟩

end CaseExpansion
