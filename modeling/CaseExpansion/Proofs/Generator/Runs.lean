import CaseExpansion.Generator.Basic
import CaseExpansion.Proofs.Rendering.Builtin
import CaseExpansion.Proofs.Template.Expanding

namespace CaseExpansion

open List Source

/-!
# Runs of the generator

What the stages of a run have done, read off from their results.  A run without
a failure has loaded both patterns, has read the file, has found no problem in
it, and has rendered every namespace.  These statements hold for every archive of
patterns, since none of them looks into a pattern.  With the built-in patterns, more
is known: a file that can be read is always rendered.
-/

namespace Expansion

variable {source : ParsedFile} {strict : Bool} {files : FileSystem} {function : FuncDecl}

/-- A function that was expanded was read, its directories were loaded without an
error, and its cases were expanded. -/
theorem ofFunction_eq_expanded {template : Template} {space : Namespace}
    (expanded : ofFunction source strict files function = .expanded template space) :
    ∃ bare, Template.read source function strict = .ok (some bare) ∧
      bare.loadDirectories files = (template, []) ∧ template.expand = .ok space := by
  unfold ofFunction at expanded
  split at expanded
  next => cases expanded
  next => cases expanded
  next bare isRead =>
    split at expanded
    next loaded isLoaded =>
      split at expanded
      next expandedSpace isExpanded =>
        cases expanded
        exact ⟨bare, isRead, isLoaded, isExpanded⟩
      next => cases expanded
    next => cases expanded

theorem ofFunction_eq_plain (plain : ofFunction source strict files function = .plain) :
    Template.read source function strict = .ok none := by
  unfold ofFunction at plain
  split at plain
  next => cases plain
  next isRead => exact isRead
  next =>
    split at plain
    next => split at plain <;> cases plain
    next => cases plain

/-- The errors of a function are never an empty list for nothing: without any, the
function is no template or was expanded. -/
theorem ofFunction_of_errors_eq_nil (noErrors : (ofFunction source strict files function).errors = []) :
    ofFunction source strict files function = .plain ∨
      ∃ template space, ofFunction source strict files function = .expanded template space := by
  unfold ofFunction at noErrors ⊢
  split
  next errors isRead =>
    rw [isRead] at noErrors
    exact absurd noErrors (Template.read_eq_error isRead).1
  next => exact .inl rfl
  next template isRead =>
    rw [isRead] at noErrors
    dsimp only at noErrors
    split
    next loaded isLoaded =>
      split
      next space isExpanded => exact .inr ⟨loaded, space, rfl⟩
      next errors isExpanded =>
        rw [isLoaded] at noErrors
        dsimp only at noErrors
        rw [isExpanded] at noErrors
        exact absurd noErrors (Template.expand_eq_error isExpanded).1
    next loaded errors someErrors isLoaded =>
      rw [isLoaded] at noErrors
      cases errors with
      | nil => exact absurd rfl someErrors
      | cons error errors => cases noErrors

end Expansion

/-- The edit that a function gives rise to: its namespace takes the place of the
declaration and of the doc comment. -/
def Expansion.EditOf (memory : Nat → Rendering.Memory) (pattern : Pattern.Compiled)
    (entry : FuncDecl × Expansion) (edits : List Edit) : Prop :=
  match entry.2 with
  | .expanded _ space => ∃ text,
      Rendering.renderNamespace pattern (memory (CommentGroup.start (entry.1.doc.getD []))) space =
        .ok text ∧
      edits = [⟨CommentGroup.start (entry.1.doc.getD []), entry.1.stop, text⟩]
  | _ => edits = []

variable {source : ParsedFile} {memory : Nat → Rendering.Memory}

/-- When no namespace failed to render, all functions have given their warnings and
their edits. -/
theorem renderExpansions_eq {pattern : Pattern.Compiled} {found : List (FuncDecl × Expansion)}
    (rendered : (renderExpansions source memory pattern found).failure = none) :
    (renderExpansions source memory pattern found).warnings =
        found.flatMap (fun entry => entry.2.warnings source) ∧
      ∃ groups, List.Forall₂ (Expansion.EditOf memory pattern) found groups ∧
        (renderExpansions source memory pattern found).edits = groups.flatten := by
  induction found with
  | nil => exact ⟨rfl, [], .nil, rfl⟩
  | cons entry found ih =>
    rcases entry with ⟨function, expansion⟩
    unfold renderExpansions at rendered ⊢
    dsimp only at rendered ⊢
    split at rendered
    next template space =>
      split at rendered
      next => cases rendered
      next text isText =>
        rcases ih rendered with ⟨warnings, groups, pointwise, edits⟩
        rw [flatMap_cons, warnings, edits]
        exact ⟨rfl, [_] :: groups, .cons ⟨text, isText, rfl⟩ pointwise, rfl⟩
    next notExpanded =>
      rcases ih rendered with ⟨warnings, groups, pointwise, edits⟩
      cases expansion with
      | expanded template space => exact absurd rfl (notExpanded template space)
      | plain | unreadable | unexpanded =>
        rw [flatMap_cons, ← warnings]
        exact ⟨rfl, [] :: groups, .cons rfl pointwise, edits⟩

theorem renderExpansions_of_hidesAddresses {pattern : Pattern.Compiled}
    (hides : Rendering.HidesAddresses pattern) (memory other : Nat → Rendering.Memory)
    (found : List (FuncDecl × Expansion)) :
    renderExpansions source memory pattern found = renderExpansions source other pattern found := by
  have same (place : Nat) (space : Namespace) := hides (memory place) (other place) space
  induction found with
  | nil => rfl
  | cons entry found ih => simp only [renderExpansions, ih, same]

/-- A file without problems has no problem in any function and no directive outside
of them, has a guard, and has a template. -/
theorem fileErrors_eq_nil {filename tag : Bytes} {found : List (FuncDecl × Expansion)}
    (noErrors : fileErrors source filename tag found = []) :
    (∃ edits, Guard.edits source tag = .ok edits) ∧
      (∀ entry ∈ found, entry.2.errors = []) ∧ detachedDirectives source.file = [] ∧
      ∃ entry ∈ found, entry.2.template?.isSome = true := by
  unfold fileErrors at noErrors
  cases guard : Guard.edits source tag with
  | error error =>
    rw [guard] at noErrors
    cases noErrors
  | ok edits =>
    rw [guard] at noErrors
    dsimp only at noErrors
    split at noErrors
    next => cases noErrors
    next someTemplate =>
      rw [noErrors, isEmpty_nil, Bool.true_and, all_eq_true] at someTemplate
      simp only [nil_append, append_eq_nil_iff, flatMap_eq_nil_iff] at noErrors
      refine ⟨⟨edits, rfl⟩, noErrors.1, map_eq_nil_iff.mp noErrors.2, ?_⟩
      by_contra none
      refine someTemplate fun entry member => ?_
      rw [← Option.not_isSome, Bool.not_eq_true', Bool.eq_false_iff]
      exact fun isSome => none ⟨entry, member, isSome⟩

namespace Rendering.Patterns

/-- Loading without a problem leaves both patterns loaded. -/
theorem load_isComplete {disk : Disk} {path : Bytes} {patterns loaded : Patterns}
    (isLoaded : patterns.load disk path = (loaded, none)) :
    ∃ file space, loaded = { file := some file, space := some space } := by
  unfold load at isLoaded
  split at isLoaded
  next complete =>
    cases isLoaded
    rcases patterns with ⟨_ | file, _ | space⟩
    · cases complete
    · cases complete
    · cases complete
    · exact ⟨file, space, rfl⟩
  next =>
    split at isLoaded
    next => cases isLoaded
    next texts _ =>
      split at isLoaded
      next space error compiled =>
        cases isLoaded
        unfold compile at compiled
        split at compiled
        · cases compiled
        · split at compiled <;> cases compiled
      next notLoaded =>
        unfold compile at isLoaded
        split at isLoaded
        · cases isLoaded
        · split at isLoaded
          · cases isLoaded
          · cases isLoaded
            exact ⟨_, _, rfl⟩

end Rendering.Patterns

namespace Generator

theorem finish_warnings (warnings : List Error) (text : Bytes) :
    (finish warnings text).warnings = warnings := by
  unfold finish
  split <;> rfl

variable {generator : Generator} {filename : Bytes} {disk : Disk}

/-- Expanding a file without a failure means that there were no problems and that all
namespaces were rendered. -/
theorem expandFile_succeeds {files : FileSystem} {filePattern spacePattern : Pattern.Compiled}
    {source : ParsedFile}
    (succeeds : (generator.expandFile files filePattern spacePattern filename source).failure = none) :
    fileErrors source filename generator.guardTag (expansions source generator.strict files) = [] ∧
      (renderExpansions source generator.memory spacePattern
        (expansions source generator.strict files)).failure = none ∧
      (generator.expandFile files filePattern spacePattern filename source).warnings =
        (renderExpansions source generator.memory spacePattern
          (expansions source generator.strict files)).warnings := by
  unfold expandFile at succeeds ⊢
  dsimp only at succeeds ⊢
  split at succeeds
  next => cases succeeds
  next rendered =>
    split at succeeds
    next noErrors guarded =>
      split at succeeds
      next => cases succeeds
      next => exact ⟨noErrors, rendered, finish_warnings _ _⟩
    next => cases succeeds

/-- A run on some text, once the patterns are loaded. -/
theorem generate_eq {text : Bytes} {file space : Pattern.Compiled}
    (someText : Text.isBlankText text = false)
    (isLoaded : generator.patterns.load disk generator.archive = (⟨some file, some space⟩, none))
    (filename : Bytes) : generator.generate disk filename (.ok text) =
      ({ generator with patterns := ⟨some file, some space⟩ },
        match parseFile filename text with
        | .error diagnostics => { failure := some (.malformed filename diagnostics) }
        | .ok source =>
          generator.expandFile (generator.fileSystem disk filename) file space filename source) := by
  simp only [generate, someText, Bool.false_eq_true, if_false, isLoaded]
  cases parseFile filename text <;> rfl

/-- A run on a text that can be parsed, once the patterns are loaded. -/
theorem generate_of_parsed {text : Bytes} {source : ParsedFile} {file space : Pattern.Compiled}
    (parsed : parseFile filename text = .ok source)
    (isLoaded : generator.patterns.load disk generator.archive = (⟨some file, some space⟩, none)) :
    generator.generate disk filename (.ok text) =
      ({ generator with patterns := ⟨some file, some space⟩ },
        generator.expandFile (generator.fileSystem disk filename) file space filename source) := by
  rw [generate_eq (isBlankText_of_parseFile parsed) isLoaded, parsed]

/-- A run without a failure has read a file and has found no problem in it.  Its
warnings are those of the functions, in their order. -/
theorem generate_succeeds {input : Except Bytes Bytes}
    (succeeds : (generator.generate disk filename input).2.failure = none) :
    ∃ text source, input = .ok text ∧ parseFile filename text = .ok source ∧
      fileErrors source filename generator.guardTag
        (expansions source generator.strict (generator.fileSystem disk filename)) = [] ∧
      (generator.generate disk filename input).2.warnings =
        (expansions source generator.strict (generator.fileSystem disk filename)).flatMap
          fun entry => entry.2.warnings source := by
  cases input with
  | error reason => cases succeeds
  | ok text =>
    cases someText : Text.isBlankText text with
    | true =>
      simp only [generate, someText, if_true] at succeeds
      cases succeeds
    | false =>
      rcases isLoaded : generator.patterns.load disk generator.archive with ⟨patterns, problem⟩
      cases problem with
      | some error =>
        simp only [generate, someText, Bool.false_eq_true, if_false, isLoaded] at succeeds
        cases succeeds
      | none =>
        rcases Rendering.Patterns.load_isComplete isLoaded with ⟨file, space, rfl⟩
        rw [generate_eq someText isLoaded] at succeeds ⊢
        cases parsed : parseFile filename text with
        | error diagnostics =>
          rw [parsed] at succeeds
          cases succeeds
        | ok source =>
          rw [parsed] at succeeds
          rcases expandFile_succeeds succeeds with ⟨noErrors, rendered, warnings⟩
          refine ⟨text, source, rfl, parsed, noErrors, warnings.trans ?_⟩
          exact (renderExpansions_eq rendered).1

/-! ## The built-in patterns -/

/-- The generator renders with the built-in patterns, which it has loaded already or
will load. -/
def UsesBuiltin (generator : Generator) : Prop :=
  (generator.archive = [] ∧ generator.patterns.isComplete = false) ∨
    ∃ file space, generator.patterns.IsBuiltin file space

theorem UsesBuiltin.load {generator : Generator} (builtin : generator.UsesBuiltin) (disk : Disk) :
    ∃ file space, Rendering.Patterns.IsBuiltin ⟨some file, some space⟩ file space ∧
      generator.patterns.load disk generator.archive = (⟨some file, some space⟩, none) := by
  rcases builtin with ⟨noArchive, incomplete⟩ | ⟨file, space, isBuiltin⟩
  · rw [noArchive]
    rcases Rendering.Patterns.load_builtin disk incomplete with ⟨file, space, isLoaded, isBuiltin⟩
    exact ⟨file, space, isBuiltin, isLoaded⟩
  · refine ⟨file, space, ⟨isBuiltin.isFile, isBuiltin.isSpace, rfl⟩, ?_⟩
    rw [isBuiltin.loaded]
    rfl

end Generator

theorem renderExpansions_builtin {pattern : Pattern.Compiled}
    (isBuiltin : Pattern.compile "namespace" Rendering.namespacePattern = .ok pattern)
    (memory : Nat → Rendering.Memory) (found : List (FuncDecl × Expansion)) :
    (renderExpansions source memory pattern found).failure = none := by
  induction found with
  | nil => rfl
  | cons entry found ih =>
    rcases entry with ⟨function, expansion⟩
    unfold renderExpansions
    dsimp only
    split
    · rw [Rendering.renderNamespace_builtin isBuiltin]
      exact ih
    · exact ih

end CaseExpansion
