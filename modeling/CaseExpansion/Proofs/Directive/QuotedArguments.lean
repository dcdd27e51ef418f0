import CaseExpansion.Proofs.Directive.RoundTrip

namespace CaseExpansion
namespace Directive

open Source (Lexeme Reader)
open Source.Lexeme (Scans)
open Text.Quoted (encode)

/-!
# Quoted texts as arguments

A quoted text may be an argument of a case directive: it is an expression of one lexeme, and has no
white space around it.
-/

/-- The lexeme of a quoted text that stands alone. -/
def quotedLexeme (text : Bytes) : Lexeme :=
  ⟨.string, 0, (encode text).length, encode text, []⟩

theorem scanNext_quoted (text : Bytes) :
    Lexeme.scanNext (encode text).length false ⟨Text.Utf8.glyphs (encode text), []⟩ =
      { lexeme := quotedLexeme text, reader := ⟨[], []⟩, lineEnds := true } := by
  have step := Lexeme.scanNext_encode text 0
  rw [Nat.zero_add] at step
  exact step

/-- A quoted text starts with a mark, and nothing is skipped before it. -/
theorem char?_quoted (text : Bytes) :
    (Reader.skipWhile (Lexeme.isSkipped false) (Text.Utf8.glyphs (encode text)) []).char? =
    some '"' := by
  rcases Text.Quoted.glyphsFrom_encode text 0 with ⟨opening, inner, closing, isGlyphs, isOpening, _⟩
  rw [Text.Utf8.glyphs, isGlyphs, Reader.skipWhile, if_neg]
  · exact congrArg some isOpening
  · rw [isOpening]
    decide

theorem closed_encode (text : Bytes) : Closed (encode text) [quotedLexeme text] true where
  fit := Source.fit_encode text 0
  scans := by
    have notEnd : Source.Token.string ≠ .eof := by decide
    have step := @Scans.step (encode text).length false true
      ⟨Text.Utf8.glyphs (encode text), []⟩ ⟨[], []⟩ []
    rw [scanNext_quoted text] at step
    exact step notEnd (.none _ _)
  anywhere sequel isSize := by
    have notEnd : Source.Token.string ≠ .eof := by decide
    have single := scanNext_quoted text
    rw [← isSize] at single
    have notComment : ¬(Reader.skipWhile (Lexeme.isSkipped false)
        (Text.Utf8.glyphs (encode text)) []).isAtLineComment = true := by
      intro slashes
      have marks := (char?_quoted text).symm.trans (Lexeme.Reader.char?_of_isAtLineComment slashes)
      exact absurd marks (by decide)
    have same := Lexeme.before_scanNext sequel (Source.fit_encode text 0) rfl (char?_quoted text)
      (congrArg (·.lexeme.faults) single) fun slashes => absurd slashes notComment
    have step := @Scans.step sequel.whole false true
      (Reader.before sequel ⟨Text.Utf8.glyphs (encode text), []⟩) ⟨sequel.rest, []⟩ []
    rw [same, single] at step
    exact step notEnd (.none _ _)
  faultless := List.forall_mem_singleton.mpr rfl
  harmless := List.forall_mem_singleton.mpr fun impossible => by cases impossible
  passed := rfl

/-- A string and the end of the text make up an expression. -/
theorem exists_wholeExpr (table : Source.LineTable) (offset size : Nat) (literal : Bytes) :
    ∃ expression, Source.Parse.runOn Source.Parse.wholeExpr table
      (⟨.string, offset, size, literal, []⟩ :: Lexeme.ends size true) = .ok expression :=
  ⟨_, rfl⟩

theorem isExpression_encode (text : Bytes) : IsExpression (encode text) := by
  refine ⟨List.cons_ne_nil _ _, ?_⟩
  have closed := closed_encode text
  have scanned : Lexeme.scan (encode text) =
      nameLexemes 0 (encode text).length text := by
    rw [Lexeme.scan_of_fit closed.fit, closed.scans.scanAll_eq, Lexeme.scanAll_nil]
    rfl
  have clean := clean_nameLexemes (encode text) 0 (encode text).length text
  rw [← scanned] at clean
  have isScan := @Source.scanFile_of_harmless [] _ fun lexeme member => (clean lexeme member).harmless
  have words := withoutComments_of_faultless fun lexeme member => (clean lexeme member).faultless
  rw [scanned, spoken_nameLexemes] at words
  unfold Source.parseExpr
  dsimp only
  rw [isScan, scanned, words]
  exact exists_wholeExpr _ _ _ _

theorem trim_encode (text : Bytes) : Text.trim (encode text) = encode text := by
  rcases Text.Quoted.glyphsFrom_encode text 0 with
    ⟨opening, inner, closing, isGlyphs, isOpening, isClosing, _⟩
  have whole := Text.Utf8.flatMap_glyphs (encode text)
  have solid : Text.isBlank '"' = false := by decide
  have isHead : (opening :: (inner ++ [closing])).head?.map Text.Glyph.char = some '"' :=
    congrArg some isOpening
  have isLast : (opening :: (inner ++ [closing])).reverse.head?.map Text.Glyph.char = some '"' := by
    rw [← List.cons_append, List.reverse_append]
    exact congrArg some isClosing
  rw [Text.trim]
  rw [Text.Utf8.glyphs, isGlyphs] at whole ⊢
  rw [Text.trimGlyphs, Text.dropWhile_isBlank_of_head? isHead solid,
    Text.dropWhile_isBlank_of_head? isLast solid, List.reverse_reverse]
  exact whole

/-- A quoted text may stand as an argument. -/
theorem standalone_encode (text : Bytes) : Standalone (encode text) :=
  ⟨isExpression_encode text, trim_encode text, _, _, closed_encode text⟩

end Directive
end CaseExpansion
