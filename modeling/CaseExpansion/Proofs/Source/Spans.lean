import CaseExpansion.Proofs.Source.Separators
import CaseExpansion.Proofs.Text.Quoting

namespace CaseExpansion
namespace Source

open List
open Text (Glyph)

/-!
# Separators as parts of a text

A lexeme says where it starts.  What stands there in the text is what has been read: a separator is
the single byte of its mark.  This holds of every text, also of one that has faults elsewhere.
-/

namespace Reader

variable {text : Bytes} {start stop : Reader}

/-- What a reader has ahead is what stands in a text from its offset on. -/
def Faces (text : Bytes) (reader : Reader) : Prop :=
  text.drop (reader.offset text.length) = reader.ahead.flatMap Glyph.bytes

theorem Faces.of_follows (faces : start.Faces text) (within : start.Within text.length)
    (follows : stop.Follows start) : stop.Faces text := by
  have distance := within.length_between follows
  rcases follows with ⟨taken, ahead⟩
  rw [between_eq ahead.symm] at distance
  rw [Faces, ← distance, ← drop_drop, faces, ← ahead, flatMap_append, drop_left]

end Reader

namespace Lexeme

variable {lexeme : Lexeme} {text : Bytes}

theorem startReader_faces (text : Bytes) : (startReader text).Faces text := by
  have whole {faults : List Fault} : Reader.Faces text ⟨Text.Utf8.glyphs text, faults⟩ := by
    have atStart : Reader.offset text.length ⟨Text.Utf8.glyphs text, faults⟩ = 0 :=
      (Text.Utf8.glyphs_tile text).offsetOf_eq
    rw [Reader.Faces, atStart, drop_zero, Text.Utf8.flatMap_glyphs]
  unfold startReader
  split
  · exact (append_nil _).symm
  · exact (append_nil _).symm
  · dsimp only
    split
    · exact whole.of_follows (glyphs_within text _) (Reader.Follows.refl _).advance
    · exact whole

theorem scan_separator (member : lexeme ∈ scan text) (separates : isSeparator lexeme = true) :
    text[lexeme.offset]? = some (byte (mark lexeme)) := by
  rcases glyph_of_separator member separates with ⟨glyph, later, suffix, place, isMark⟩
  have isRead : glyph.char ≠ Text.replacement := by
    rw [isMark]
    rcases mark_cases lexeme with isComma | isSemicolon
    · rw [isComma]
      decide
    · rw [isSemicolon]
      decide
  have wellFormed : glyph.isMalformed = false := by
    rw [Glyph.isMalformed]
    simp [isRead]
  have isGlyph := mem_glyphs_of_startReader (suffix.subset mem_cons_self) isRead
  have isByte : glyph.bytes = [byte (mark lexeme)] := by
    rw [← (Text.Utf8.glyphs_sound text glyph isGlyph wellFormed).ofChar_eq wellFormed, isMark]
    rcases mark_cases lexeme with isComma | isSemicolon
    · rw [isComma]; rfl
    · rw [isSemicolon]; rfl
  have faces : Reader.Faces text ⟨glyph :: later, []⟩ :=
    (startReader_faces text).of_follows (startReader_within text) suffix
  have isHere : text.drop lexeme.offset = byte (mark lexeme) :: later.flatMap Glyph.bytes := by
    rw [← place]
    refine faces.trans ?_
    rw [flatMap_cons, isByte]
    rfl
  rw [← head?_drop, isHere]
  rfl

end Lexeme
end Source
end CaseExpansion
