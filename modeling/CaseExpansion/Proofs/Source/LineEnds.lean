import CaseExpansion.Proofs.Source.Separators
import CaseExpansion.Proofs.Text.Quoting

namespace CaseExpansion
namespace Source

open List
open Text (Glyph)

/-!
# After the end of a line

In a text on one line, what ends the line stands at the end of the text.  At most the lexeme for the
end of the text follows, and it has no faults.  A reader of the lexemes that stops at the end of the
line has therefore seen all faults.
-/

theorem noFeed_of_not_mem {text : Bytes} (singleLine : byte '\n' ∉ text) :
    ∀ glyph ∈ Text.Utf8.glyphs text, glyph.char ≠ '\n' := by
  intro glyph isGlyph isFeed
  have wellFormed : glyph.isMalformed = false := by
    rw [Glyph.isMalformed, isFeed]
    rfl
  have bytes := (Text.Utf8.glyphs_sound text glyph isGlyph wellFormed).ofChar_eq wellFormed
  rw [isFeed] at bytes
  apply singleLine
  rw [← Text.Utf8.flatMap_glyphs text]
  exact mem_flatMap.mpr ⟨glyph, isGlyph, bytes ▸ mem_cons_self⟩

theorem startReader_noFeed {text : Bytes} (singleLine : byte '\n' ∉ text) :
    ∀ glyph ∈ (Lexeme.startReader text).ahead, glyph.char ≠ '\n' := by
  have noFeed := noFeed_of_not_mem singleLine
  have notFeed : Text.replacement ≠ '\n' := by decide
  unfold Lexeme.startReader
  split
  · exact forall_mem_singleton.mpr notFeed
  · exact forall_mem_singleton.mpr notFeed
  · dsimp only
    split
    · exact fun glyph member => noFeed glyph ((Reader.Follows.refl _).advance.subset member)
    · exact noFeed

namespace LineDirective

/-- Line directives change nothing but comments. -/
def Keeps (lexeme kept : Lexeme) : Prop :=
  kept.token = lexeme.token ∧ (lexeme.token ≠ .comment → kept = lexeme)

theorem exists_step_eq (filename text : Bytes) (starts : List Nat) (state : LineTable × List Lexeme)
    (lexeme : Lexeme) : ∃ kept, (step filename text starts state lexeme).2 = kept :: state.2 ∧
      Keeps lexeme kept := by
  have same : Keeps lexeme lexeme := ⟨rfl, fun _ => rfl⟩
  unfold step
  dsimp only
  split
  · exact ⟨lexeme, rfl, same⟩
  next isComment =>
    split
    · exact ⟨lexeme, rfl, same⟩
    next =>
      split
      · exact ⟨lexeme, rfl, same⟩
      · exact ⟨_, rfl, rfl, fun isWord => absurd isWord isComment⟩
      · split <;> exact ⟨lexeme, rfl, same⟩

theorem exists_foldl_step_eq (filename text : Bytes) (starts : List Nat) (lexemes : List Lexeme)
    (state : LineTable × List Lexeme) :
    ∃ kept, (lexemes.foldl (step filename text starts) state).2 = kept.reverse ++ state.2 ∧
      List.Forall₂ Keeps lexemes kept := by
  induction lexemes generalizing state with
  | nil => exact ⟨[], rfl, .nil⟩
  | cons lexeme lexemes ih =>
    rcases exists_step_eq filename text starts state lexeme with ⟨first, stepped, keepsFirst⟩
    rcases ih (step filename text starts state lexeme) with ⟨kept, folded, keeps⟩
    refine ⟨first :: kept, ?_, .cons keepsFirst keeps⟩
    rw [foldl_cons, folded, stepped, reverse_cons, append_assoc, singleton_append]

end LineDirective

theorem scanFile_keeps_words (filename text : Bytes) :
    List.Forall₂ LineDirective.Keeps (Lexeme.scan text) (scanFile filename text).2 := by
  rcases LineDirective.exists_foldl_step_eq filename text (lineStarts text) (Lexeme.scan text)
    (LineTable.ofText filename text, []) with ⟨kept, folded, keeps⟩
  rw [append_nil] at folded
  have isKept : (scanFile filename text).2 = kept :=
    (congrArg List.reverse folded).trans (reverse_reverse _)
  rwa [isKept]

/-- On a single line, nothing of interest comes after the end of the line. -/
theorem scanFile_quiet {text : Bytes} (singleLine : byte '\n' ∉ text) (filename : Bytes) :
    (scanFile filename text).2.Pairwise QuietAfter := by
  have quiet : (Lexeme.scan text).Pairwise QuietAfter :=
    Lexeme.scanFrom_quiet (startReader_noFeed singleLine)
  refine pairwise_of_forall₂ (scanFile_keeps_words filename text) quiet ?_
  intro earlier later earlierKept laterKept _ _ quietHere keepsEarlier keepsLater ends
  have isWord : earlier.token ≠ .comment := by
    intro isComment
    rw [← keepsEarlier.1] at isComment
    rcases ends with isEnd | isLineEnd
    · cases isComment.symm.trans isEnd
    · cases isComment.symm.trans (Lexeme.token_of_isLineEnd isLineEnd)
  rw [keepsEarlier.2 isWord] at ends
  rcases quietHere ends with ⟨laterWord, silent⟩
  rw [keepsLater.2 laterWord]
  exact ⟨laterWord, silent⟩

theorem Parse.withoutComments_eq_self {lexemes : List Lexeme}
    (quiet : ∀ lexeme ∈ lexemes, lexeme.token ≠ .comment ∧ lexeme.faults = []) :
    withoutComments [] lexemes = lexemes := by
  induction lexemes with
  | nil => rfl
  | cons lexeme lexemes ih =>
    rcases forall_mem_cons.mp quiet with ⟨first, later⟩
    rw [withoutComments, if_neg first.1, ih later]
    rfl

theorem Parse.withoutComments_quiet {lexemes : List Lexeme} (quiet : lexemes.Pairwise QuietAfter)
    (faults : List Fault) : (withoutComments faults lexemes).Pairwise QuietAfter := by
  induction lexemes generalizing faults with
  | nil => exact .nil
  | cons lexeme lexemes ih =>
    rcases pairwise_cons.mp quiet with ⟨first, later⟩
    rw [withoutComments]
    split
    · exact ih later _
    · refine pairwise_cons.mpr ⟨fun other member ends => ?_, ih later []⟩
      have allQuiet : ∀ other ∈ lexemes, other.token ≠ .comment ∧ other.faults = [] :=
        fun other isOther => first other isOther ends
      rw [withoutComments_eq_self allQuiet] at member
      exact allQuiet other member

end Source
end CaseExpansion
