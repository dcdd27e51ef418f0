import CaseExpansion.Proofs.Text.Decoding

namespace CaseExpansion
namespace Text

open List

/-!
# Text without white space around it

Trimming leaves a text alone that neither begins nor ends with white space.  Such texts
are put together from others of the kind, with anything between them.
-/

/-- The code points of white space. -/
def blankCodes : List Nat :=
  [9, 10, 11, 12, 13, 0x20, 0x85, 0xA0, 0x1680, 0x2000, 0x2001, 0x2002, 0x2003, 0x2004, 0x2005,
    0x2006, 0x2007, 0x2008, 0x2009, 0x200A, 0x2028, 0x2029, 0x202F, 0x205F, 0x3000]

theorem toNat_mem_blankCodes {char : Char} (blank : isBlank char = true) : char.toNat ∈ blankCodes := by
  simp only [isBlank, Bool.or_eq_true, Bool.and_eq_true, decide_eq_true_eq, beq_iff_eq] at blank
  simp only [blankCodes, mem_cons, not_mem_nil, or_false]
  omega

/-- The text is well-formed, on one line, and has no white space at either end. -/
def Snug (text : Bytes) : Prop :=
  ∃ glyphs, Spelled text glyphs ∧ (∀ glyph ∈ glyphs, glyph.char ≠ '\n') ∧
    (∃ first, glyphs.head? = some first ∧ isBlank first.char = false) ∧
    ∃ last, glyphs.getLast? = some last ∧ isBlank last.char = false

/-- The text is well-formed and on one line. -/
def Unbroken (text : Bytes) : Prop :=
  ∃ glyphs, Spelled text glyphs ∧ ∀ glyph ∈ glyphs, glyph.char ≠ '\n'

variable {text : Bytes}

theorem Snug.unbroken (snug : Snug text) : Unbroken text := by
  rcases snug with ⟨glyphs, spelled, oneLine, _⟩
  exact ⟨glyphs, spelled, oneLine⟩

theorem Snug.join {front middle back : Bytes} (starts : Snug front) (between : Unbroken middle)
    (ends : Snug back) : Snug (front ++ (middle ++ back)) := by
  rcases starts with ⟨first, spelledFirst, oneLineFirst, ⟨head, isHead, solidHead⟩, _⟩
  rcases between with ⟨inner, spelledInner, oneLineInner⟩
  rcases ends with ⟨last, spelledLast, oneLineLast, _, tail, isTail, solidTail⟩
  refine ⟨first ++ (inner ++ last), spelledFirst.append (spelledInner.append spelledLast), ?_,
    ⟨head, ?_, solidHead⟩, tail, ?_, solidTail⟩
  · simp only [mem_append]
    rintro glyph (isFirst | isInner | isLast)
    · exact oneLineFirst glyph isFirst
    · exact oneLineInner glyph isInner
    · exact oneLineLast glyph isLast
  · rw [head?_append, isHead]
    rfl
  · rw [getLast?_append, getLast?_append, isTail]
    rfl

theorem Snug.append {front back : Bytes} (starts : Snug front) (ends : Snug back) :
    Snug (front ++ back) :=
  starts.join ⟨[], .nil, fun _ member => by cases member⟩ ends

theorem dropWhile_isBlank_of_head? {glyphs : List Glyph} {char : Char}
    (isHead : glyphs.head?.map Glyph.char = some char) (solid : isBlank char = false) :
    glyphs.dropWhile (fun glyph => isBlank glyph.char) = glyphs := by
  cases glyphs with
  | nil => rfl
  | cons first rest =>
    cases isHead
    refine dropWhile_cons_of_neg ?_
    rw [solid]
    exact Bool.false_ne_true

theorem Snug.trimGlyphs_eq (snug : Snug text) (offset : Nat) :
    trimGlyphs (Utf8.glyphsFrom 0 offset text) = Utf8.glyphsFrom 0 offset text := by
  rcases snug with ⟨glyphs, spelled, _, ⟨first, isFirst, solidFirst⟩, last, isLast, solidLast⟩
  rcases spelled.glyphsFrom_append offset [] with ⟨placed, read, chars, _⟩
  rw [append_nil] at read
  have isPlaced : Utf8.glyphsFrom 0 offset text = placed := read.trans (append_nil placed)
  have leadingChar := congrArg List.head? chars
  have closingChar := congrArg List.getLast? chars
  rw [head?_map, head?_map, isFirst] at leadingChar
  rw [getLast?_map, getLast?_map, isLast] at closingChar
  rw [isPlaced, trimGlyphs]
  rw [dropWhile_isBlank_of_head? leadingChar solidFirst,
    dropWhile_isBlank_of_head? (by rw [head?_reverse]; exact closingChar) solidLast,
    reverse_reverse]

/-- Trimming does nothing to a text without white space around it. -/
theorem Snug.trim_eq (snug : Snug text) : trim text = text := by
  rw [trim, Utf8.glyphs, snug.trimGlyphs_eq 0]
  exact Utf8.flatMap_glyphs text

theorem Snug.trim_blank (snug : Snug text) : trim (byte ' ' :: text) = text := by
  have unblanked : trimGlyphs (Utf8.glyphs (byte ' ' :: text)) =
      trimGlyphs (Utf8.glyphsFrom 0 1 text) := rfl
  rw [trim, unblanked, snug.trimGlyphs_eq 1]
  exact Utf8.flatMap_glyphsFrom text 0 1

theorem Unbroken.not_mem (unbroken : Unbroken text) : byte '\n' ∉ text := by
  intro member
  rcases Utf8.exists_glyph_of_mem (by decide) member with ⟨glyph, isGlyph, isBreak⟩
  rcases unbroken with ⟨glyphs, spelled, oneLine⟩
  rcases spelled.glyphsFrom_append 0 [] with ⟨placed, read, chars, _⟩
  have isPlaced : glyph ∈ placed := by
    rw [append_nil] at read
    exact append_nil placed ▸ read ▸ isGlyph
  have isChar : glyph.char ∈ glyphs.map Glyph.char := chars ▸ mem_map_of_mem isPlaced
  rcases mem_map.mp isChar with ⟨original, isOriginal, same⟩
  exact oneLine original isOriginal (same.trans isBreak)

end Text
end CaseExpansion
