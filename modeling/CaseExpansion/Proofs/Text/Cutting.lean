import CaseExpansion.Proofs.Text.Trimming

namespace CaseExpansion
namespace Text

open List

/-!
# Parts of a text

The glyphs of a part of a text are those of the text, as long as the part is cut out between
glyphs.  Trimming cuts out such a part: what it leaves out at either end is white space.
-/

/-- The glyph, further on in a text. -/
def Glyph.moved (distance : Nat) (glyph : Glyph) : Glyph :=
  { glyph with offset := glyph.offset + distance }

namespace Utf8

theorem glyphsFrom_add (owed offset distance : Nat) (text : Bytes) :
    glyphsFrom owed (offset + distance) text =
      (glyphsFrom owed offset text).map (Glyph.moved distance) := by
  induction text generalizing owed offset with
  | nil => cases owed <;> rfl
  | cons lead rest ih =>
    cases owed with
    | succ owed =>
      have later := ih owed (offset + 1)
      rwa [Nat.add_right_comm] at later
    | zero =>
      have later := ih ((decode lead rest).2 - 1) (offset + 1)
      rw [Nat.add_right_comm] at later
      rw [glyphsFrom, glyphsFrom, map_cons]
      exact congrArg _ later

theorem glyphsFrom_eq_map (distance : Nat) (text : Bytes) :
    glyphsFrom 0 distance text = (glyphs text).map (Glyph.moved distance) := by
  have moved := glyphsFrom_add 0 0 distance text
  rwa [Nat.zero_add] at moved

end Utf8

/-- Glyphs that lie side by side are the glyphs of what they spell. -/
theorem Tiles.glyphsFrom_eq {offset stop : Nat} {glyphs : List Glyph} (tiles : Tiles offset glyphs stop)
    (sound : ∀ glyph ∈ glyphs, glyph.Sound) (more : Bytes) :
    Utf8.glyphsFrom 0 offset (glyphs.flatMap Glyph.bytes ++ more) =
      glyphs ++ Utf8.glyphsFrom 0 stop more := by
  induction glyphs generalizing offset with
  | nil => rw [show offset = stop from tiles]; rfl
  | cons glyph glyphs ih =>
    rcases forall_mem_cons.mp sound with ⟨soundHere, soundLater⟩
    rcases tiles with ⟨rfl, _, rest⟩
    rw [flatMap_cons, append_assoc, Utf8.glyphsFrom_of_sound soundHere, cons_append]
    exact congrArg _ (ih rest soundLater)

/-- The first glyphs of a row lie side by side as well. -/
theorem Tiles.take {offset size : Nat} {front glyphs : List Glyph}
    (tiles : Tiles offset (front ++ glyphs) size) : Tiles offset front (offsetOf size glyphs) := by
  induction front generalizing offset with
  | nil => exact tiles.offsetOf_eq.symm
  | cons glyph front ih => exact ⟨tiles.1, tiles.2.1, ih tiles.2.2⟩

theorem Tiles.glyphsFrom_part {offset size : Nat} {front part back : List Glyph}
    (tiles : Tiles offset (front ++ (part ++ back)) size) (sound : ∀ glyph ∈ part, glyph.Sound) :
    Utf8.glyphsFrom 0 (offset + (front.flatMap Glyph.bytes).length)
      (part.flatMap Glyph.bytes) = part := by
  have read := tiles.append.take.glyphsFrom_eq sound []
  rw [append_nil] at read
  exact read.trans (append_nil part)

/-! ## Trimming -/

theorem dropWhile_split (glyphs : List Glyph) :
    ∃ lead, glyphs = lead ++ glyphs.dropWhile (fun glyph => isBlank glyph.char) ∧
      ∀ glyph ∈ lead, isBlank glyph.char = true :=
  ⟨glyphs.takeWhile fun glyph => isBlank glyph.char, (takeWhile_append_dropWhile).symm,
    all_eq_true.mp all_takeWhile⟩

/-- Trimming leaves out white space at either end. -/
theorem trimGlyphs_split (glyphs : List Glyph) :
    ∃ lead trail, glyphs = lead ++ (trimGlyphs glyphs ++ trail) ∧
      (∀ glyph ∈ lead, isBlank glyph.char = true) ∧ ∀ glyph ∈ trail, isBlank glyph.char = true := by
  rcases dropWhile_split glyphs with ⟨lead, split, isLead⟩
  rcases dropWhile_split (glyphs.dropWhile fun glyph => isBlank glyph.char).reverse with
    ⟨trail, rest, isTrail⟩
  refine ⟨lead, trail.reverse, ?_, isLead, fun glyph member => isTrail glyph (mem_reverse.mp member)⟩
  have rest := congrArg List.reverse rest
  rw [reverse_reverse, reverse_append] at rest
  rw [trimGlyphs, ← rest]
  exact split

theorem head?_dropWhile (glyphs : List Glyph) :
    ∀ glyph ∈ (glyphs.dropWhile fun glyph => isBlank glyph.char).head?, isBlank glyph.char = false := by
  intro glyph isHead
  have first := head?_dropWhile_not (fun glyph => isBlank glyph.char) glyphs
  rwa [Option.mem_def.mp isHead] at first

/-- What trimming leaves ends with no white space. -/
theorem getLast?_trimGlyphs (glyphs : List Glyph) :
    ∀ glyph ∈ (trimGlyphs glyphs).getLast?, isBlank glyph.char = false := by
  rw [trimGlyphs, getLast?_reverse]
  exact head?_dropWhile _

/-- What trimming leaves starts with no white space. -/
theorem head?_trimGlyphs (glyphs : List Glyph) :
    ∀ glyph ∈ (trimGlyphs glyphs).head?, isBlank glyph.char = false := by
  intro glyph isHead
  rcases dropWhile_split (glyphs.dropWhile fun glyph => isBlank glyph.char).reverse with ⟨trail, rest, _⟩
  have rest := congrArg List.reverse rest
  rw [reverse_reverse, reverse_append] at rest
  have isHead : glyph ∈ ((List.dropWhile (fun glyph => isBlank glyph.char)
    (glyphs.dropWhile fun glyph => isBlank glyph.char).reverse).reverse).head? := isHead
  apply head?_dropWhile glyphs glyph
  rw [rest, Option.mem_def, head?_append, Option.mem_def.mp isHead]
  rfl

theorem dropWhile_of_head? {glyphs : List Glyph}
    (solid : ∀ glyph ∈ glyphs.head?, isBlank glyph.char = false) :
    glyphs.dropWhile (fun glyph => isBlank glyph.char) = glyphs := by
  cases glyphs with
  | nil => rfl
  | cons glyph glyphs =>
    rw [dropWhile_cons_of_neg]
    rw [solid glyph rfl]
    exact Bool.false_ne_true

/-- Trimming twice is trimming once. -/
theorem trimGlyphs_trimGlyphs (glyphs : List Glyph) :
    trimGlyphs (trimGlyphs glyphs) = trimGlyphs glyphs := by
  have first := head?_trimGlyphs glyphs
  have last := getLast?_trimGlyphs glyphs
  rw [← head?_reverse] at last
  generalize trimGlyphs glyphs = trimmed at first last ⊢
  rw [trimGlyphs, dropWhile_of_head? first, dropWhile_of_head? last, reverse_reverse]

theorem trimGlyphs_moved (distance : Nat) (glyphs : List Glyph) :
    trimGlyphs (glyphs.map (Glyph.moved distance)) = (trimGlyphs glyphs).map (Glyph.moved distance) := by
  unfold trimGlyphs
  dsimp only
  rw [dropWhile_map, ← map_reverse, dropWhile_map, ← map_reverse]
  rfl

theorem flatMap_moved (distance : Nat) (glyphs : List Glyph) :
    (glyphs.map (Glyph.moved distance)).flatMap Glyph.bytes = glyphs.flatMap Glyph.bytes := by
  rw [flatMap_map]
  rfl

theorem trim_eq_flatMap (offset : Nat) (text : Bytes) :
    (trimGlyphs (Utf8.glyphsFrom 0 offset text)).flatMap Glyph.bytes = trim text := by
  rw [Utf8.glyphsFrom_eq_map, trimGlyphs_moved, flatMap_moved, trim]

/-- A blank before a text does not matter. -/
theorem trim_blank (text : Bytes) : trim (byte ' ' :: text) = trim text :=
  trim_eq_flatMap 1 text

/-- Nothing is left of white space. -/
theorem trimGlyphs_of_isBlank {glyphs : List Glyph}
    (blank : ∀ glyph ∈ glyphs, isBlank glyph.char = true) : trimGlyphs glyphs = [] := by
  rcases trimGlyphs_split glyphs with ⟨lead, trail, split, _, _⟩
  have first := head?_trimGlyphs glyphs
  cases trimmed : trimGlyphs glyphs with
  | nil => rfl
  | cons glyph rest =>
    rw [trimmed] at first split
    have isGlyph : glyph ∈ glyphs := split ▸ mem_append_right _ mem_cons_self
    exact absurd (blank glyph isGlyph) (by rw [first glyph rfl]; exact Bool.false_ne_true)

theorem isBlankText_blank {text : Bytes} (trimmed : trim text = text) (some : text ≠ []) :
    isBlankText (byte ' ' :: text) = false := by
  rw [Bool.eq_false_iff]
  intro allBlank
  have blank := all_eq_true.mp allBlank
  have nothing : trim (byte ' ' :: text) = [] := by
    rw [trim, trimGlyphs_of_isBlank blank]
    rfl
  exact some ((trimmed.symm.trans (trim_blank text).symm).trans nothing)

end Text
end CaseExpansion
