import CaseExpansion.Proofs.Text.Quoting

namespace CaseExpansion
namespace Text
namespace Utf8

open List

/-!
# The characters of a text

What the characters of a text are can be told by how characters are written, without decoding: a text
that starts with the spelling of a character has that character first, and a byte at which no spelling
starts counts as one malformed character.  `Reads` says this, and decoding finds exactly these
characters (`reads_iff`).

The spelling of every character is decoded to it, whatever stands after it, since no spelling is the
beginning of another one.
-/

/-- The text has the given characters, one after another. -/
inductive Reads : Bytes → List Char → Prop where
  | nil : Reads [] []
  | char (char : Char) {rest : Bytes} {others : List Char} (later : Reads rest others) :
      Reads (Bytes.ofChar char ++ rest) (char :: others)
  | malformed {code : UInt8} {rest : Bytes} {others : List Char}
      (none : ∀ char tail, code :: rest ≠ Bytes.ofChar char ++ tail) (later : Reads rest others) :
      Reads (code :: rest) (replacement :: others)

/-! ## Spellings are decoded -/

/-- The spelling of a character is read as the character, whatever stands after it. -/
theorem sound_ofChar (char : Char) (offset : Nat) : Glyph.Sound ⟨char, Bytes.ofChar char, offset⟩ := by
  rcases sequence_ofChar char with ⟨lead, tail, spelled, sequence⟩
  have sound := sequence.sound offset
  rwa [← spelled, show Char.ofNat char.val.toNat = char from Char.ofNat_toNat char] at sound

/-- A byte of ASCII spells one character only. -/
theorem eq_ofNat_of_ofChar {char : Char} {code : UInt8} (spelled : Bytes.ofChar char = [code])
    (plain : code < 0x80) : char = Char.ofNat code.toNat := by
  rcases sound_ofChar char 0 with ⟨lead, rest, bytes, _, decoded⟩
  dsimp only at bytes decoded
  rw [spelled] at bytes
  cases bytes
  have same := decoded []
  rw [decode_plain plain] at same
  exact (congrArg Prod.fst same).symm

/-! ## Texts are decoded -/

theorem map_char_glyphsFrom (offset : Nat) (text : Bytes) :
    (glyphsFrom 0 offset text).map Glyph.char = chars text := by
  have faces := congrArg (List.map Prod.fst) (glyphsFrom_faces text 0 offset 0)
  rwa [map_map, map_map] at faces

theorem chars_ofChar_append (char : Char) (rest : Bytes) :
    chars (Bytes.ofChar char ++ rest) = char :: chars rest := by
  have first := glyphsFrom_of_sound (sound_ofChar char 0) 0 rest
  dsimp only at first
  rw [chars, glyphs, first, map_cons, map_char_glyphsFrom]

/-- No character is spelled at a byte that is read as malformed. -/
theorem ne_ofChar_append {code : UInt8} {rest : Bytes} (malformed : decode code rest = (replacement, 1)) :
    ∀ char tail, code :: rest ≠ Bytes.ofChar char ++ tail := by
  intro char tail spelled
  rcases sound_ofChar char 0 with ⟨lead, others, bytes, _, decoded⟩
  dsimp only at bytes decoded
  rw [bytes, cons_append] at spelled
  obtain ⟨rfl, rfl⟩ := List.cons.inj spelled
  have same := (decoded tail).symm.trans malformed
  obtain rfl : char = replacement := congrArg Prod.fst same
  have single : (Bytes.ofChar replacement).length = 1 := congrArg Prod.snd same
  exact absurd single (by decide)

/-- A text starts with a malformed byte or with the spelling of a character. -/
theorem malformed_or_ofChar (code : UInt8) (rest : Bytes) :
    decode code rest = (replacement, 1) ∨ ∃ char tail, code :: rest = Bytes.ofChar char ++ tail := by
  rcases decode_cases code rest with malformed | ⟨tail, more, number, sequence, rfl⟩
  · exact .inl malformed
  · refine .inr ⟨Char.ofNat number, more, ?_⟩
    rw [sequence.ofChar_eq, cons_append]

theorem chars_of_malformed {code : UInt8} {rest : Bytes}
    (malformed : decode code rest = (replacement, 1)) :
    chars (code :: rest) = replacement :: chars rest := by
  rw [chars, glyphs, glyphsFrom, malformed, map_cons, map_char_glyphsFrom]

theorem reads_chars (text : Bytes) : Reads text (chars text) := by
  induction isLength : text.length using Nat.strongRecOn generalizing text with
  | ind length ih =>
  cases text with
  | nil => exact .nil
  | cons code rest =>
    rcases malformed_or_ofChar code rest with malformed | ⟨char, tail, spelled⟩
    · rw [chars_of_malformed malformed]
      refine .malformed (ne_ofChar_append malformed) (ih rest.length ?_ rest rfl)
      rw [← isLength, length_cons]
      exact Nat.lt_succ_self _
    · rcases sound_ofChar char 0 with ⟨lead, others, bytes, _⟩
      dsimp only at bytes
      rw [spelled, chars_ofChar_append]
      refine .char char (ih tail.length ?_ tail rfl)
      rw [← isLength, spelled, bytes, length_append, length_cons]
      omega

/-- Decoding finds the characters of a text. -/
theorem reads_iff {text : Bytes} {characters : List Char} :
    Reads text characters ↔ characters = chars text := by
  constructor
  · intro reads
    induction reads with
    | nil => rfl
    | char char _ ih => rw [chars_ofChar_append, ih]
    | @malformed code rest _ none _ ih =>
      rcases malformed_or_ofChar code rest with malformed | ⟨char, tail, spelled⟩
      · rw [chars_of_malformed malformed, ih]
      · exact absurd spelled (none char tail)
  · rintro rfl
    exact reads_chars text

end Utf8
end Text
end CaseExpansion
