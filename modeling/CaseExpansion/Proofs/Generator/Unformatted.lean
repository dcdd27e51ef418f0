import CaseExpansion.Proofs.Generator.Content

namespace CaseExpansion

open List Source Text.Utf8

/-!
# Texts that are generated but not formatted

The text of a generated file starts with a comment that names the template file, and the
template file follows.  Whatever may stand at the start of a file only, or in no source
text at all, is carried into the middle of another text in this way, and that text cannot
be read.
-/

/-! ## Texts that cannot be read -/

theorem Source.HasUnfit.not_parsed {front text : Bytes} (unfit : HasUnfit text)
    (ascii : ∀ code ∈ front, code < 0x80) (some : front ≠ []) (filename : Bytes) (source : ParsedFile) :
    parseFile filename (front ++ text) ≠ .ok source := by
  intro parsed
  rcases unfit.faulty ascii some with ⟨glyph, member, isFaulty⟩
  exact isFaulty (parseFile_glyphs parsed glyph member)

/-- A text with such a glyph inside is not formatted, neither as a file nor as a part of
one. -/
theorem Layout.format_of_hasUnfit {front text : Bytes} (unfit : HasUnfit text)
    (ascii : ∀ code ∈ front, code < 0x80) (some : front ≠ []) :
    ∃ diagnostics, format (front ++ text) = .error diagnostics := by
  have whole := unfit.not_parsed ascii some []
  have inside := unfit.after_ascii ascii
  have asDecls : ∀ source, parseFile [] (declWrapping.lead ++ (front ++ text) ++ declWrapping.tail) ≠
      .ok source := by
    rw [append_assoc]
    refine (inside.before ?_).not_parsed (ascii_of_all (by decide)) (by decide) []
    exact starts_nil
  have asStmts : ∀ source, parseFile [] (stmtWrapping.lead ++ (front ++ text) ++ stmtWrapping.tail) ≠
      .ok source := by
    rw [append_assoc]
    refine (inside.before ?_).not_parsed (ascii_of_all (by decide)) (by decide) []
    exact starts_cons (by decide) _
  unfold format
  split
  next source parsed => exact absurd parsed (whole source)
  · split
    · exact ⟨_, rfl⟩
    · split
      next source parsed => exact absurd parsed (asDecls source)
      · split
        · exact ⟨_, rfl⟩
        · split
          next source parsed => exact absurd parsed (asStmts source)
          · exact ⟨_, rfl⟩

/-! ## Files that start with a byte order mark -/

/-- The text starts with a byte order mark. -/
def StartsWithMark (text : Bytes) : Prop :=
  Bytes.ofChar byteOrderMark <+: text

theorem glyphs_of_mark (rest : Bytes) :
    Text.Utf8.glyphs (Bytes.ofChar byteOrderMark ++ rest) =
      ⟨byteOrderMark, Bytes.ofChar byteOrderMark, 0⟩ :: Text.Utf8.glyphsFrom 0 3 rest := by
  have sound : Text.Glyph.Sound ⟨byteOrderMark, Bytes.ofChar byteOrderMark, 0⟩ :=
    ⟨0xEF, [0xBB, 0xBF], by decide, by decide, fun more => rfl⟩
  exact glyphsFrom_of_sound sound 0 rest

theorem StartsWithMark.hasUnfit {text : Bytes} (marked : StartsWithMark text) : HasUnfit text := by
  rcases marked with ⟨rest, rfl⟩
  rw [HasUnfit, glyphs_of_mark]
  exact ⟨_, mem_cons_self, by decide⟩

/-- All comments of a file stand after its byte order mark. -/
theorem Source.comment_offset_ge {filename text : Bytes} {source : ParsedFile}
    (parsed : parseFile filename text = .ok source) {comment : Comment}
    (member : comment ∈ source.comments) :
    (Lexeme.startReader text).offset text.length ≤ comment.offset := by
  rcases parseFile_eq_ok parsed with ⟨_, _, origin, start, later, isOrigin, _, _, opens, declares,
    comments, _⟩
  have starts : origin.Starts text.length := isOrigin ▸ Parse.initial_starts filename text
  have whole := ((ParseState.Reaches.refl origin).next.next.trans opens).trans declares.reaches
  rcases whole.passes starts.ready with ⟨passed, added, passes, _⟩
  rw [ParsedFile.comments, comments, passes.comments, starts.noComments, append_nil,
    passes.gathered] at member
  rcases mem_filterMap.mp member with ⟨lexeme, isPassed, isComment⟩
  unfold Lexeme.comment? at isComment
  split at isComment
  next isToken =>
    cases isComment
    have isLexeme : lexeme ∈ (scanFile filename text).2 := by
      have remaining := mem_append_left later.remaining isPassed
      rw [← passes.remaining, isOrigin] at remaining
      rcases mem_cons.mp remaining with rfl | isLexeme
      · cases isToken
      · exact isLexeme
    have spread := Lexeme.scanFrom_spread (2 * (Lexeme.startReader text).ahead.length + 2) false
      (Lexeme.startReader_within text)
    change Lexeme.Spread text.length _ (Lexeme.scan text) at spread
    rw [← Lexeme.spread_bare_iff, ← (scanFile_keeps filename text).2, Lexeme.spread_bare_iff] at spread
    exact spread.after lexeme isLexeme
      ((spread.lies lexeme isLexeme).solid_of_eq isToken (by decide) (by decide))
  · cases isComment

theorem StartsWithMark.startReader {text : Bytes} (marked : StartsWithMark text) :
    (Lexeme.startReader text).offset text.length = 3 := by
  rcases marked with ⟨rest, rfl⟩
  have tiles := glyphsFrom_tile rest 0 3 (Nat.zero_le _)
  have stands : (Lexeme.startReader (Bytes.ofChar byteOrderMark ++ rest)).ahead =
      Text.Utf8.glyphsFrom 0 3 rest := by
    unfold Lexeme.startReader
    split
    next wide => exact absurd (List.cons.inj wide).1 (by decide)
    next wide => exact absurd (List.cons.inj wide).1 (by decide)
    · rw [glyphs_of_mark]
      rfl
  rw [Reader.offset, stands, length_append, show (Bytes.ofChar byteOrderMark).length = 3 by decide]
  exact tiles.offsetOf_eq

/-- Edits that come after the mark leave it where it is. -/
theorem StartsWithMark.spliced {text content : Bytes} {edits : List Edit} (marked : StartsWithMark text)
    (later : ∀ edit ∈ edits, 3 ≤ edit.start) (spliced : Edit.Spliced edits 0 text content) :
    StartsWithMark content := by
  have kept {offset : Nat} {code : UInt8} {rest content : Bytes} (early : offset < 3)
      (spliced : Edit.Spliced edits offset (code :: rest) content) :
      ∃ others, content = code :: others ∧ Edit.Spliced edits (offset + 1) rest others := by
    generalize whole : code :: rest = source at spliced
    cases spliced with
    | done => cases whole
    | keep uncovered rest =>
      cases whole
      exact ⟨_, rfl, rest⟩
    | replace member extent rest =>
      have := later _ member
      omega
  rcases marked with ⟨rest, rfl⟩
  rcases kept (by decide) spliced with ⟨_, rfl, second⟩
  rcases kept (by decide) second with ⟨_, rfl, third⟩
  rcases kept (by decide) third with ⟨others, rfl, _⟩
  exact ⟨others, rfl⟩

/-! ## Runs -/

theorem exists_comment_of_edit {source : ParsedFile} {strict : Bool} {files : FileSystem}
    {memory : Nat → Rendering.Memory} {pattern : Pattern.Compiled} {tag : Bytes}
    {guardEdits : List Edit} (arranged : source.Arranged)
    (guarded : Guard.edits source tag = .ok guardEdits)
    (rendered : (renderExpansions source memory pattern (expansions source strict files)).failure = none)
    {edit : Edit} (member : edit ∈ guardEdits ++
      (renderExpansions source memory pattern (expansions source strict files)).edits) :
    ∃ comment ∈ source.comments, comment.offset = edit.start := by
  rcases mem_append.mp member with isGuard | isTemplate
  · rcases (Guard.mem_edits arranged guarded).mp isGuard with ⟨comment, inComments, _, replaces⟩
    exact ⟨comment, inComments, replaces.extent.1.symm⟩
  · rcases (mem_templateEdits rendered).mp isTemplate with ⟨entry, isEntry, _, _, _, expanded, _, rfl⟩
    rcases mem_map.mp isEntry with ⟨function, isFunction, rfl⟩
    rcases doc_and_body_of_expanded expanded with ⟨doc, _, hasDoc, _, starts, _⟩
    have isGroup := arranged.docs.subset (mem_filterMap.mpr ⟨function, isFunction, hasDoc⟩)
    rcases exists_cons_of_ne_nil (arranged.nonempty doc isGroup) with ⟨comment, others, rfl⟩
    exact ⟨comment, mem_flatten.mpr ⟨_, isGroup, mem_cons_self⟩, starts.symm⟩

theorem Generator.finish_of_error (warnings : List Error) {text : Bytes} {diagnostics : List Diagnostic}
    (failed : Layout.format text = .error diagnostics) :
    (Generator.finish warnings text).failure = some (.unformatted diagnostics) := by
  unfold Generator.finish
  split
  next formatted =>
    rw [failed] at formatted
    cases formatted
  next others =>
    rw [failed] at others
    cases others
    rfl

theorem Rendering.format_of_unfit {source content : Bytes}
    (unfit : StartsWithMark content ∨ HasUnfit source) :
    ∃ diagnostics, Layout.format (fileText source content) = .error diagnostics := by
  have inside : HasUnfit (source ++ (Bytes.ofString ". DO NOT EDIT.\n\n" ++ (content ++ "\n"))) := by
    rcases unfit with marked | inName
    · have ascii : ∀ code ∈ Bytes.ofString ". DO NOT EDIT.\n\n", code < 0x80 :=
        ascii_of_all (by decide)
      have carried : HasUnfit (content ++ Bytes.ofString "\n") :=
        marked.hasUnfit.before (starts_cons (by decide) _)
      exact (carried.after_ascii ascii).after (starts_cons (by decide) _) source
    · exact inName.before (starts_cons (by decide) _)
  have ascii : ∀ code ∈ Bytes.ofString "// Code generated by casegen from ", code < 0x80 :=
    ascii_of_all (by decide)
  have failed := Layout.format_of_hasUnfit inside ascii (by decide)
  rw [fileText]
  simpa only [append_assoc] using failed

/-- A file with a glyph out of place in its name, or one that starts with a byte order
mark, is generated but not formatted. -/
theorem unformatted_of_unfit {generator : Generator} (builtin : generator.UsesBuiltin) (disk : Disk)
    {filename text : Bytes} {source : ParsedFile} (parsed : parseFile filename text = .ok source)
    (noProblems : fileErrors source filename generator.guardTag
      (expansions source generator.strict (generator.fileSystem disk filename)) = [])
    (unfit : StartsWithMark text ∨ HasUnfit (Path.base filename)) :
    ∃ diagnostics, (generator.generate disk filename (.ok text)).2.failure =
      some (.unformatted diagnostics) := by
  rcases generate_eq_finish builtin disk parsed noProblems with
    ⟨filePattern, spacePattern, guardEdits, content, isBuiltin, guarded, separate, applied, outcome⟩
  have carried : StartsWithMark text → StartsWithMark content := by
    intro marked
    have rendered : (renderExpansions source generator.memory spacePattern
        (expansions source generator.strict (generator.fileSystem disk filename))).failure = none :=
      renderExpansions_builtin isBuiltin.isSpace _ _
    have arranged := parseFile_arranged parsed
    rcases separate.applyAll?_eq with ⟨other, isOther, spliced⟩
    rw [applied] at isOther
    cases isOther
    refine marked.spliced ?_ ((spliced content).mpr rfl)
    intro edit member
    rcases exists_comment_of_edit arranged guarded rendered member with ⟨comment, inComments, starts⟩
    have later := comment_offset_ge parsed inComments
    rwa [marked.startReader, starts] at later
  rcases Rendering.format_of_unfit (unfit.imp_left carried) with ⟨diagnostics, failed⟩
  rw [outcome]
  exact ⟨diagnostics, Generator.finish_of_error _ failed⟩

/-- A file that starts with a byte order mark or whose name has a glyph out of place is
never formatted: unless the run reports errors of the file, it ends with text that cannot
be read. -/
theorem unfit_file_is_never_formatted {generator : Generator} (builtin : generator.UsesBuiltin)
    (disk : Disk) {filename text : Bytes} {source : ParsedFile}
    (parsed : parseFile filename text = .ok source)
    (valid : ∀ errors,
      (generator.generate disk filename (.ok text)).2.failure ≠ some (.invalid errors))
    (unfit : StartsWithMark text ∨ HasUnfit (Path.base filename)) :
    ∃ diagnostics, (generator.generate disk filename (.ok text)).2.failure =
      some (.unformatted diagnostics) := by
  rcases builtin.load disk with ⟨_, pattern, isLoadedBuiltin, isLoaded⟩
  refine unformatted_of_unfit builtin disk parsed ?_ unfit
  rw [Generator.generate_of_parsed parsed isLoaded] at valid
  exact fileErrors_eq_nil_of_expandFile (renderExpansions_builtin isLoadedBuiltin.isSpace _ _) valid

/-- A template file that starts with a byte order mark. -/
def markedFile : Bytes :=
  Bytes.ofChar byteOrderMark ++
    "//go:build casegen\n\npackage p\n\n//casegen:case 1; \"a\"\nfunc f(n int) \x7b\n\tg(n)\n\x7d\n"

theorem marked_file_has_no_errors :
    ∃ source, parseFile "x.go" markedFile = .ok source ∧
      fileErrors source "x.go" "casegen"
        (expansions source false (Generator.fileSystem {} {} "x.go")) = [] := by
  have checked : (parseFile "x.go" markedFile).toOption.any (fun source =>
      (fileErrors source "x.go" "casegen" (expansions source false
        (Generator.fileSystem {} {} "x.go"))).isEmpty) = true := by
    decide +kernel
  rcases exists_ok_of_any checked with ⟨source, parsed, noProblems⟩
  exact ⟨source, parsed, List.isEmpty_iff.mp noProblems⟩

theorem marked_file_is_never_formatted :
    StartsWithMark markedFile ∧
    (∀ errors, (Generator.generate {} {} "x.go" (.ok markedFile)).2.failure ≠ some (.invalid errors)) ∧
    ∃ diagnostics, (Generator.generate {} {} "x.go" (.ok markedFile)).2.failure =
      some (.unformatted diagnostics) := by
  have builtin : Generator.UsesBuiltin {} := Or.inl ⟨rfl, rfl⟩
  have marked : StartsWithMark markedFile := ⟨_, rfl⟩
  rcases marked_file_has_no_errors with ⟨source, parsed, noProblems⟩
  have valid (errors : List Error) :
      (Generator.generate {} {} "x.go" (.ok markedFile)).2.failure ≠ some (.invalid errors) := by
    rcases generate_eq_finish builtin {} parsed noProblems with ⟨_, _, _, _, _, _, _, _, outcome⟩
    rw [outcome]
    exact Generator.finish_failure_ne_invalid _ _ _
  exact ⟨marked, valid, unfit_file_is_never_formatted builtin {} parsed valid (.inl marked)⟩

/-- The built-in patterns can give a text that is not formatted. -/
theorem file_with_mark_is_generated_unformatted :
    byte '\n' ∉ Path.base "x.go" ∧
    ∃ diagnostics, (Generator.generate {} {} "x.go" (.ok markedFile)).2.failure =
      some (.unformatted diagnostics) := by
  rcases marked_file_has_no_errors with ⟨source, parsed, noProblems⟩
  exact ⟨by decide, unformatted_of_unfit (Or.inl ⟨rfl, rfl⟩) {} parsed noProblems (.inl ⟨_, rfl⟩)⟩

end CaseExpansion
