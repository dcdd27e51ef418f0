import CaseExpansion.Text.Utf8
import Mathlib.Tactic.SplitIfs

namespace CaseExpansion
namespace Text

open List

/-!
# Glyphs lie side by side

Decoding cuts a text into glyphs without gaps: the first one starts where the
text starts, each one starts where the one before stops, and the last one stops
at the end.  Every glyph has at least one byte.  Offsets of glyphs can therefore
be compared by comparing how much of the list is left, which is how the scanner's
offsets are related to each other.

Nothing is said here about which code point a glyph stands for, but that an ASCII
byte is never the start of another character than its own.
-/

/-- The glyphs lie side by side from one offset to another. -/
def Tiles : Nat → List Glyph → Nat → Prop
  | offset, [], size => offset = size
  | offset, glyph :: glyphs, size =>
    glyph.offset = offset ∧ 0 < glyph.bytes.length ∧ Tiles glyph.stop glyphs size

/-- The offset of the first glyph, or of the end of the text. -/
def offsetOf (size : Nat) (glyphs : List Glyph) : Nat :=
  (glyphs.head?.map Glyph.offset).getD size

variable {offset size : Nat}

theorem Tiles.offsetOf_eq {glyphs : List Glyph} (tiles : Tiles offset glyphs size) :
    offsetOf size glyphs = offset := by
  cases glyphs with
  | nil => exact tiles.symm
  | cons glyph glyphs => exact tiles.1

theorem Tiles.le {glyphs : List Glyph} (tiles : Tiles offset glyphs size) : offset ≤ size := by
  induction glyphs generalizing offset with
  | nil => exact Nat.le_of_eq tiles
  | cons glyph glyphs ih =>
    have later := ih tiles.2.2
    have first := tiles.1
    unfold Glyph.stop at later
    omega

/-- What is left of glyphs that lie side by side lies side by side, and the
bytes that were taken make up the distance. -/
theorem Tiles.append {taken glyphs : List Glyph} (tiles : Tiles offset (taken ++ glyphs) size) :
    Tiles (offset + (taken.flatMap Glyph.bytes).length) glyphs size := by
  induction taken generalizing offset with
  | nil => exact tiles
  | cons glyph taken ih =>
    have later := ih tiles.2.2
    rw [Glyph.stop, tiles.1] at later
    rw [flatMap_cons, length_append, ← Nat.add_assoc]
    exact later

theorem Tiles.of_suffix {glyphs later : List Glyph} (tiles : Tiles offset glyphs size)
    (suffix : later <:+ glyphs) :
    Tiles (offsetOf size later) later size ∧ offset ≤ offsetOf size later := by
  rcases suffix with ⟨taken, rfl⟩
  have rest := tiles.append
  rw [rest.offsetOf_eq]
  exact ⟨rest, Nat.le_add_right _ _⟩

/-- At least one byte stands between different suffixes. -/
theorem Tiles.lt_of_suffix {glyph : Glyph} {glyphs later : List Glyph}
    (tiles : Tiles offset (glyph :: glyphs) size)
    (suffix : later <:+ glyphs) : offset < offsetOf size later := by
  have later := (tiles.2.2.of_suffix suffix).2
  have first := tiles.1
  have width := tiles.2.1
  unfold Glyph.stop at later
  omega

theorem Tiles.le_of_mem {glyph : Glyph} {glyphs : List Glyph} (tiles : Tiles offset glyphs size)
    (member : glyph ∈ glyphs) : offset ≤ glyph.offset := by
  rcases append_of_mem member with ⟨taken, rest, rfl⟩
  rw [tiles.append.1]
  exact Nat.le_add_right _ _

/-- A glyph that starts with an ASCII byte stands for the character of that
number. -/
def Glyph.Plain (glyph : Glyph) : Prop :=
  ∀ lead rest, glyph.bytes = lead :: rest → lead < 0x80 → glyph.char = Char.ofNat lead.toNat

namespace Utf8

/-- Decoding takes at least one byte, and none that is not there. -/
theorem decode_width (lead : UInt8) (rest : Bytes) :
    1 ≤ (decode lead rest).2 ∧ (decode lead rest).2 ≤ rest.length + 1 := by
  unfold decode
  rcases rest with _ | ⟨second, _ | ⟨third, _ | ⟨fourth, rest⟩⟩⟩ <;>
    simp only [length_cons, length_nil] <;> split_ifs <;> omega

theorem glyphsFrom_tile (text : Bytes) (owed offset : Nat) (enough : owed ≤ text.length) :
    Tiles (offset + owed) (glyphsFrom owed offset text) (offset + text.length) := by
  induction text generalizing owed offset with
  | nil =>
    have none : owed = 0 := Nat.le_zero.mp enough
    subst owed
    cases offset <;> rfl
  | cons lead rest ih =>
    cases owed with
    | succ owed =>
      have later := ih owed (offset + 1) (Nat.le_of_succ_le_succ enough)
      rw [length_cons, ← Nat.add_assoc, Nat.add_right_comm offset owed 1,
        Nat.add_comm rest.length 1, ← Nat.add_assoc]
      exact later
    | zero =>
      have width := decode_width lead rest
      have later := ih ((decode lead rest).2 - 1) (offset + 1) (by omega)
      have taken : ((lead :: rest).take (decode lead rest).2).length = (decode lead rest).2 := by
        rw [length_take, length_cons]
        omega
      rw [show offset + 1 + ((decode lead rest).2 - 1) = offset + (decode lead rest).2 by omega,
        show offset + 1 + rest.length = offset + (rest.length + 1) by omega] at later
      rw [glyphsFrom]
      simp only [Tiles, Glyph.stop, taken, length_cons]
      exact ⟨rfl, width.1, later⟩

theorem glyphs_tile (text : Bytes) : Tiles 0 (glyphs text) text.length := by
  have tiles := glyphsFrom_tile text 0 0 (Nat.zero_le _)
  rwa [Nat.zero_add, Nat.zero_add] at tiles

theorem decode_plain {lead : UInt8} (isPlain : lead < 0x80) (rest : Bytes) :
    decode lead rest = (Char.ofNat lead.toNat, 1) := by
  unfold decode
  exact if_pos isPlain

theorem glyphsFrom_plain (text : Bytes) (owed offset : Nat) :
    ∀ glyph ∈ glyphsFrom owed offset text, glyph.Plain := by
  induction text generalizing owed offset with
  | nil =>
    intro glyph member
    cases owed <;> cases member
  | cons lead rest ih =>
    cases owed with
    | succ owed => exact ih owed (offset + 1)
    | zero =>
      rw [glyphsFrom, forall_mem_cons]
      refine ⟨?_, ih _ _⟩
      intro first others taken isPlain
      rcases Nat.exists_eq_succ_of_ne_zero (Nat.ne_of_gt (decode_width lead rest).1) with
        ⟨width, hasWidth⟩
      rw [hasWidth, take_succ_cons, List.cons.injEq] at taken
      rw [← taken.1] at isPlain ⊢
      rw [decode_plain isPlain]

theorem glyphs_plain (text : Bytes) : ∀ glyph ∈ glyphs text, glyph.Plain :=
  glyphsFrom_plain text 0 0

end Utf8
end Text
end CaseExpansion
