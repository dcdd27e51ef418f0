import CaseExpansion.Proofs.Text.Glyphs
import CaseExpansion.Text.Category

namespace CaseExpansion
namespace Text

open List

/-!
# Decoding a text in parts

Bytes are decoded from the left, and how a byte is read may depend on those after
it.  It depends on no byte that does not continue a sequence: a text that is put
together from parts, none of which starts with a continuation byte, has the glyphs
of its parts.

A glyph that is not malformed reads the same wherever its bytes stand.  This is what
allows a word that was read in one text to be written into another one.
-/

namespace Utf8

/-- The text does not start in the middle of a sequence. -/
def Starts (text : Bytes) : Prop :=
  ∀ lead rest, text = lead :: rest → isContinuation lead = false

theorem starts_nil : Starts [] := by
  intro lead rest impossible
  cases impossible

theorem starts_cons {lead : UInt8} (isLead : isContinuation lead = false) (rest : Bytes) :
    Starts (lead :: rest) := by
  intro first others same
  cases same
  exact isLead

theorem isContinuation_iff {code : UInt8} : isContinuation code = true ↔ 0x80 ≤ code.toNat ∧
      code.toNat ≤ 0xBF := by
  simp [isContinuation, UInt8.le_iff_toNat_le]

/-- The bounds on the second byte, in numbers. -/
theorem secondBounds_iff {lead second : UInt8} :
    ((secondBounds lead).1.toNat ≤ second.toNat ∧ second.toNat ≤ (secondBounds lead).2.toNat) ↔
      (0x80 ≤ second.toNat ∧ second.toNat ≤ 0xBF) ∧ (lead.toNat = 0xE0 → 0xA0 ≤ second.toNat) ∧
        (lead.toNat = 0xED → second.toNat ≤ 0x9F) ∧ (lead.toNat = 0xF0 → 0x90 ≤ second.toNat) ∧
        (lead.toNat = 0xF4 → second.toNat ≤ 0x8F) := by
  unfold secondBounds
  simp only [← UInt8.toNat_inj, UInt8.reduceToNat]
  split_ifs <;> simp only [UInt8.reduceToNat] <;> omega

theorem secondBounds_of_not_isContinuation {second : UInt8} (isLead : isContinuation second = false)
    (lead : UInt8) :
    ((secondBounds lead).1 ≤ second && second ≤ (secondBounds lead).2) = false := by
  rw [Bool.eq_false_iff]
  intro isSecond
  simp only [Bool.and_eq_true, decide_eq_true_eq, UInt8.le_iff_toNat_le, secondBounds_iff] at isSecond
  rw [isContinuation_iff.mpr isSecond.1] at isLead
  cases isLead

/-- A byte is read in the same way before a text that starts a sequence and at the end. -/
theorem decode_append {text : Bytes} (starts : Starts text) (lead : UInt8) (rest : Bytes) :
    decode lead (rest ++ text) = decode lead rest := by
  cases text with
  | nil => rw [append_nil]
  | cons first text =>
    have isLead := starts first text rfl
    have outside := secondBounds_of_not_isContinuation isLead lead
    unfold decode
    rcases rest with _ | ⟨second, _ | ⟨third, _ | ⟨fourth, rest⟩⟩⟩
    · cases text with
      | nil => simp [isLead]
      | cons next text => cases text <;> simp [isLead, outside]
    · cases text <;> simp [isLead]
    · simp [isLead]
    · rfl

/-- The glyphs of a text in two parts are those of the parts. -/
theorem glyphsFrom_append {text : Bytes} (starts : Starts text) (front : Bytes) (owed offset : Nat)
    (enough : owed ≤ front.length) :
    glyphsFrom owed offset (front ++ text) =
      glyphsFrom owed offset front ++ glyphsFrom 0 (offset + front.length) text := by
  induction front generalizing owed offset with
  | nil =>
    cases Nat.le_zero.mp enough
    simp only [nil_append, glyphsFrom, length_nil, Nat.add_zero]
  | cons lead rest ih =>
    rw [cons_append, length_cons, Nat.add_comm rest.length 1, ← Nat.add_assoc]
    cases owed with
    | succ owed =>
      rw [glyphsFrom, glyphsFrom, ih owed (offset + 1) (Nat.le_of_succ_le_succ enough)]
    | zero =>
      have width := decode_width lead rest
      rw [glyphsFrom, glyphsFrom, decode_append starts]
      dsimp only
      rw [ih _ (offset + 1) (by omega),
        show lead :: (rest ++ text) = (lead :: rest) ++ text from rfl,
        take_append_of_le_length (by simpa using width.2)]
      rfl

theorem glyphs_append {text : Bytes} (starts : Starts text) (front : Bytes) :
    glyphs (front ++ text) = glyphs front ++ glyphsFrom 0 front.length text := by
  have parts := glyphsFrom_append starts front 0 0 (Nat.zero_le _)
  rwa [Nat.zero_add] at parts

theorem flatMap_glyphsFrom (text : Bytes) (owed offset : Nat) :
    (glyphsFrom owed offset text).flatMap Glyph.bytes = text.drop owed := by
  induction text generalizing owed offset with
  | nil => cases owed <;> rfl
  | cons lead rest ih =>
    cases owed with
    | succ owed =>
      rw [glyphsFrom, ih, drop_succ_cons]
    | zero =>
      rcases Nat.exists_eq_succ_of_ne_zero (Nat.ne_of_gt (decode_width lead rest).1) with
        ⟨width, hasWidth⟩
      rw [glyphsFrom, flatMap_cons, ih, hasWidth, Nat.succ_sub_one,
        take_succ_cons, cons_append, take_append_drop, drop_zero]

theorem flatMap_glyphs (text : Bytes) : (glyphs text).flatMap Glyph.bytes = text := by
  rw [glyphs, flatMap_glyphsFrom, drop_zero]

end Utf8

/-- A glyph apart from its place. -/
def Glyph.face (glyph : Glyph) : Char × Bytes :=
  (glyph.char, glyph.bytes)

/-- Where a text stands does not matter for how it reads. -/
theorem Utf8.glyphsFrom_faces (text : Bytes) (owed offset other : Nat) :
    (glyphsFrom owed offset text).map Glyph.face = (glyphsFrom owed other text).map Glyph.face := by
  induction text generalizing owed offset other with
  | nil => cases owed <;> rfl
  | cons lead rest ih =>
    cases owed with
    | succ owed => exact ih owed (offset + 1) (other + 1)
    | zero =>
      rw [glyphsFrom, glyphsFrom, map_cons, map_cons,
        ih _ (offset + 1) (other + 1)]
      rfl

/-! ## Glyphs that read the same everywhere -/

/-- The glyph is read from its bytes, whatever stands after them. -/
def Glyph.Sound (glyph : Glyph) : Prop :=
  ∃ lead rest, glyph.bytes = lead :: rest ∧ Utf8.isContinuation lead = false ∧
    ∀ more, Utf8.decode lead (rest ++ more) = (glyph.char, glyph.bytes.length)

namespace Utf8

/-- The bytes spell a code point: the first one says how many others there are, which carry six bits
each. -/
inductive Sequence : UInt8 → Bytes → Nat → Prop where
  | one {lead : UInt8} {code : Nat} (range : code < 0x80) (isLead : lead.toNat = code) : Sequence
      lead [] code
  | two {lead second : UInt8} {code : Nat} (range : 0x80 ≤ code ∧ code < 0x800)
      (isLead : lead.toNat = 0xC0 + code / 64) (isSecond : second.toNat = 0x80 + code % 64) :
      Sequence lead [second] code
  | three {lead second third : UInt8} {code : Nat} (range : 0x800 ≤ code ∧ code < 0x10000)
      (noSurrogate : code < 0xD800 ∨ 0xDFFF < code) (isLead : lead.toNat = 0xE0 + code / 4096)
      (isSecond : second.toNat = 0x80 + code / 64 % 64) (isThird : third.toNat = 0x80 + code % 64) :
      Sequence lead [second, third] code
  | four {lead second third fourth : UInt8} {code : Nat} (range : 0x10000 ≤ code ∧ code < 0x110000)
      (isLead : lead.toNat = 0xF0 + code / 262144) (isSecond : second.toNat = 0x80 + code / 4096 % 64)
      (isThird : third.toNat = 0x80 + code / 64 % 64) (isFourth : fourth.toNat = 0x80 + code % 64) :
      Sequence lead [second, third, fourth] code

variable {lead : UInt8} {tail : Bytes} {code : Nat}

/-- A sequence is read as its code point, whatever stands after it. -/
theorem Sequence.decode_eq (sequence : Sequence lead tail code) (rest : Bytes) :
    decode lead (tail ++ rest) = (Char.ofNat code, tail.length + 1) := by
  simp only [decode, payload, Bool.and_eq_true, decide_eq_true_eq, isContinuation_iff,
    UInt8.lt_iff_toNat_lt, UInt8.le_iff_toNat_le, secondBounds_iff, UInt8.reduceToNat]
  cases sequence with
  | one range isLead => rw [if_pos (isLead ▸ range), isLead, length_nil]
  | two range isLead isSecond =>
    rw [if_neg (by omega), if_pos (by omega)]
    simp only [cons_append]
    rw [if_pos (by omega)]
    exact congrArg (fun number => (Char.ofNat number, 2)) (by omega)
  | three range noSurrogate isLead isSecond isThird =>
    rw [if_neg (by omega), if_neg (by omega), if_pos (by omega)]
    simp only [cons_append]
    rw [if_pos (by omega)]
    exact congrArg (fun number => (Char.ofNat number, 3)) (by omega)
  | four range isLead isSecond isThird isFourth =>
    rw [if_neg (by omega), if_neg (by omega), if_neg (by omega), if_pos (by omega)]
    simp only [cons_append]
    rw [if_pos (by omega)]
    exact congrArg (fun number => (Char.ofNat number, 4)) (by omega)

/-- A byte starts a sequence or is malformed. -/
theorem decode_cases (lead : UInt8) (rest : Bytes) :
    decode lead rest = (replacement, 1) ∨ ∃ tail more code, Sequence lead tail code ∧
    rest = tail ++ more := by
  simp only [decode, payload, Bool.and_eq_true, decide_eq_true_eq, isContinuation_iff,
    UInt8.lt_iff_toNat_lt, UInt8.le_iff_toNat_le, secondBounds_iff, UInt8.reduceToNat]
  split_ifs with one
  · exact .inr ⟨[], rest, _, .one one rfl, rfl⟩
  · split
    next second rest =>
      split_ifs
      · refine .inr ⟨_, rest, lead.toNat % 32 * 64 + second.toNat % 64, .two ?_ ?_ ?_, rfl⟩
        all_goals omega
      · exact .inl rfl
    next => exact .inl rfl
  · split
    next second third rest =>
      split_ifs
      · refine .inr ⟨_, rest, (lead.toNat % 16 * 64 + second.toNat % 64) * 64 + third.toNat % 64,
          .three ?_ ?_ ?_ ?_ ?_, rfl⟩
        all_goals omega
      · exact .inl rfl
    next => exact .inl rfl
  · split
    next second third fourth rest =>
      split_ifs
      · refine .inr ⟨_, rest, ((lead.toNat % 8 * 64 + second.toNat % 64) * 64 + third.toNat % 64) * 64 +
          fourth.toNat % 64, .four ?_ ?_ ?_ ?_ ?_, rfl⟩
        all_goals omega
      · exact .inl rfl
    next => exact .inl rfl
  · exact .inl rfl

theorem Sequence.sound (sequence : Sequence lead tail code) (offset : Nat) :
    Glyph.Sound ⟨Char.ofNat code, lead :: tail, offset⟩ := by
  refine ⟨lead, tail, rfl, ?_, sequence.decode_eq⟩
  rw [Bool.eq_false_iff, ne_eq, isContinuation_iff]
  cases sequence <;> omega

theorem glyphsFrom_sound (text : Bytes) (owed offset : Nat) :
    ∀ glyph ∈ glyphsFrom owed offset text, glyph.isMalformed = false → glyph.Sound := by
  induction text generalizing owed offset with
  | nil =>
    intro glyph member
    cases owed <;> cases member
  | cons lead rest ih =>
    cases owed with
    | succ owed => exact ih owed (offset + 1)
    | zero =>
      rw [glyphsFrom, forall_mem_cons]
      refine ⟨fun wellFormed => ?_, ih _ _⟩
      rcases decode_cases lead rest with malformed | ⟨tail, more, code, sequence, rfl⟩
      · rw [malformed] at wellFormed
        cases wellFormed
      · rw [sequence.decode_eq, take_succ_cons, take_left]
        exact sequence.sound offset

/-- A glyph is read the same everywhere, unless it is malformed. -/
theorem glyphs_sound (text : Bytes) :
    ∀ glyph ∈ glyphs text, glyph.isMalformed = false → glyph.Sound :=
  glyphsFrom_sound text 0 0

/-- A glyph whose bytes stand before a text is the first one read. -/
theorem glyphsFrom_of_sound {glyph : Glyph} (sound : glyph.Sound) (offset : Nat) (more : Bytes) :
    glyphsFrom 0 offset (glyph.bytes ++ more) =
      ⟨glyph.char, glyph.bytes, offset⟩ :: glyphsFrom 0 (offset + glyph.bytes.length) more := by
  rcases sound with ⟨lead, rest, bytes, _, decoded⟩
  have skipped (skip : Bytes) (place : Nat) :
      glyphsFrom skip.length place (skip ++ more) = glyphsFrom 0 (place + skip.length) more := by
    induction skip generalizing place with
    | nil => rfl
    | cons first skip ih =>
      rw [length_cons, cons_append, glyphsFrom, ih, Nat.add_comm skip.length 1,
        Nat.add_assoc]
  rw [bytes] at decoded ⊢
  rw [cons_append, glyphsFrom, decoded]
  dsimp only
  rw [length_cons, Nat.add_sub_cancel, skipped, Nat.add_assoc, Nat.add_comm 1,
    ← cons_append, ← length_cons, take_left]

/-- Whether a text is in ASCII can be computed. -/
theorem ascii_of_all {text : Bytes} (all : text.all (· < 0x80) = true) : ∀ code ∈ text, code < 0x80 := by
  intro code member
  exact of_decide_eq_true (all_eq_true.mp all code member)

theorem isContinuation_of_ascii {code : UInt8} (ascii : code < 0x80) : isContinuation code = false := by
  unfold isContinuation
  rw [Bool.and_eq_false_iff]
  refine .inl (decide_eq_false ?_)
  rw [UInt8.not_le]
  exact ascii

theorem sound_of_ascii {code : UInt8} (ascii : code < 0x80) (offset : Nat) :
    Glyph.Sound ⟨Char.ofNat code.toNat, [code], offset⟩ :=
  ⟨code, [], rfl, isContinuation_of_ascii ascii, fun _ => decode_plain ascii _⟩

/-- A byte of ASCII is read as a character of its own, wherever it stands. -/
theorem exists_glyph_of_mem {text : Bytes} {code : UInt8} (ascii : code < 0x80) (member : code ∈ text) :
    ∃ glyph ∈ glyphs text, glyph.char = Char.ofNat code.toNat := by
  rcases append_of_mem member with ⟨front, back, rfl⟩
  rw [glyphs_append (starts_cons (isContinuation_of_ascii ascii) back), glyphsFrom, decode_plain ascii]
  exact ⟨_, mem_append_right _ mem_cons_self, rfl⟩

end Utf8

/-- The glyphs are read from the text, one after the other. -/
def Spelled (text : Bytes) (glyphs : List Glyph) : Prop :=
  glyphs.flatMap Glyph.bytes = text ∧ ∀ glyph ∈ glyphs, glyph.Sound

namespace Spelled

variable {text other : Bytes} {glyphs others : List Glyph}

theorem nil : Spelled [] [] :=
  ⟨rfl, fun _ member => by cases member⟩

theorem append (spelled : Spelled text glyphs) (later : Spelled other others) :
    Spelled (text ++ other) (glyphs ++ others) := by
  refine ⟨by rw [flatMap_append, spelled.1, later.1], fun glyph member => ?_⟩
  rcases mem_append.mp member with isFirst | isLater
  · exact spelled.2 glyph isFirst
  · exact later.2 glyph isLater

/-- A text in ASCII has a glyph for each byte. -/
theorem ofAscii (text : Bytes) (ascii : ∀ code ∈ text, code < 0x80) :
    Spelled text (text.map fun code => ⟨Char.ofNat code.toNat, [code], 0⟩) := by
  constructor
  · induction text with
    | nil => rfl
    | cons code text ih =>
      rw [map_cons, flatMap_cons, ih (forall_mem_cons.mp ascii).2]
      rfl
  · intro glyph member
    rcases mem_map.mp member with ⟨code, isCode, rfl⟩
    exact Utf8.sound_of_ascii (ascii code isCode) 0

/-- A text before another one is read as its glyphs, wherever it stands. -/
theorem glyphsFrom_faces (spelled : Spelled text glyphs) (offset : Nat) (more : Bytes) :
    ∃ placed, Utf8.glyphsFrom 0 offset (text ++ more) =
        placed ++ Utf8.glyphsFrom 0 (offset + text.length) more ∧
      placed.map Glyph.face = glyphs.map Glyph.face := by
  rcases spelled with ⟨rfl, sound⟩
  induction glyphs generalizing offset with
  | nil => exact ⟨[], rfl, rfl⟩
  | cons glyph glyphs ih =>
    rw [forall_mem_cons] at sound
    rcases ih (offset + glyph.bytes.length) sound.2 with ⟨placed, read, faces⟩
    refine ⟨⟨glyph.char, glyph.bytes, offset⟩ :: placed, ?_, ?_⟩
    · rw [flatMap_cons, append_assoc, Utf8.glyphsFrom_of_sound sound.1, read,
        length_append, Nat.add_assoc, cons_append]
    · rw [map_cons, map_cons, faces]
      rfl

theorem glyphsFrom_append (spelled : Spelled text glyphs) (offset : Nat) (more : Bytes) :
    ∃ placed, Utf8.glyphsFrom 0 offset (text ++ more) =
        placed ++ Utf8.glyphsFrom 0 (offset + text.length) more ∧
      placed.map Glyph.char = glyphs.map Glyph.char ∧ placed.flatMap Glyph.bytes = text := by
  rcases spelled.glyphsFrom_faces offset more with ⟨placed, read, faces⟩
  have chars := congrArg (List.map Prod.fst) faces
  have bytes := congrArg (List.flatMap Prod.snd) faces
  rw [map_map, map_map] at chars
  rw [flatMap_map, flatMap_map] at bytes
  exact ⟨placed, read, chars, bytes.trans spelled.1⟩

end Spelled
end Text
end CaseExpansion
