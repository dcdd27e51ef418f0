import CaseExpansion.Proofs.Text.Decoding
import CaseExpansion.Text.Quoted

namespace CaseExpansion
namespace Text

open List

/-!
# Quoted texts read back

What `encode` writes for a text is a row of pieces between quotation marks: printable characters,
escapes by a letter, and escapes by number.  Each piece stands for the bytes of one glyph, since a
code point has a single well-formed spelling and malformed bytes are written by number.  Reading the
pieces therefore gives back all bytes of the text.
-/

namespace Utf8

/-! ## One spelling for each code point -/

theorem val_ofNat {code : Nat} (valid : code.isValidChar) : (Char.ofNat code).val.toNat = code := by
  rw [Char.ofNat, dif_pos valid]
  exact UInt32.toNat_ofNatLT ..

variable {lead : UInt8} {tail : Bytes} {code : Nat}

/-- A character is written as a sequence. -/
theorem sequence_ofChar (char : Char) :
    ∃ lead tail, Bytes.ofChar char = lead :: tail ∧ Sequence lead tail char.val.toNat := by
  have valid : char.val.toNat < 0xD800 ∨ 0xDFFF < char.val.toNat ∧ char.val.toNat < 0x110000 := char.valid
  have back {number : Nat} (small : number < 256) : (UInt8.ofNat number).toNat = number :=
    UInt8.toNat_ofNat'.trans (Nat.mod_eq_of_lt small)
  unfold Bytes.ofChar String.utf8EncodeChar
  dsimp only
  generalize char.val.toNat = value at valid
  split_ifs
  · exact ⟨_, _, rfl, .one (by omega) (back (by omega))⟩
  · refine ⟨_, _, rfl, .two (by omega) ?_ ?_⟩ <;> rw [back] <;> omega
  · refine ⟨_, _, rfl, .three (by omega) (by omega) ?_ ?_ ?_⟩ <;> rw [back] <;> omega
  · refine ⟨_, _, rfl, .four (by omega) ?_ ?_ ?_ ?_⟩ <;> rw [back] <;> omega

theorem Sequence.unique {other : UInt8} {others : Bytes} (sequence : Sequence lead tail code)
    (same : Sequence other others code) : lead :: tail = other :: others := by
  cases sequence <;> cases same <;> simp only [List.cons.injEq, ← UInt8.toNat_inj, and_true] <;> omega

/-- A sequence is the only spelling of its code point. -/
theorem Sequence.ofChar_eq (sequence : Sequence lead tail code) :
    Bytes.ofChar (Char.ofNat code) = lead :: tail := by
  have valid : code.isValidChar := by
    unfold Nat.isValidChar
    cases sequence <;> omega
  rcases sequence_ofChar (Char.ofNat code) with ⟨first, others, spelled, same⟩
  rw [val_ofNat valid] at same
  rw [spelled, same.unique sequence]

theorem ofChar_one (isPlain : lead < 0x80) : Bytes.ofChar (Char.ofNat lead.toNat) = [lead] :=
  (Sequence.one (UInt8.lt_iff_toNat_lt.mp isPlain) rfl).ofChar_eq

end Utf8

/-- A well-formed glyph is written the way its code point is. -/
theorem Glyph.Sound.ofChar_eq {glyph : Glyph} (sound : glyph.Sound)
    (wellFormed : glyph.isMalformed = false) : Bytes.ofChar glyph.char = glyph.bytes := by
  rcases sound with ⟨lead, rest, bytes, _, decoded⟩
  have here := decoded []
  rw [append_nil, bytes] at here
  rcases Utf8.decode_cases lead rest with malformed | ⟨tail, more, code, sequence, rfl⟩
  · rw [malformed] at here
    obtain ⟨isReplacement, single⟩ := Prod.mk.inj here
    rw [isMalformed, bytes, ← isReplacement, ← single] at wellFormed
    cases wellFormed
  · rw [sequence.decode_eq] at here
    obtain ⟨isChar, size⟩ := Prod.mk.inj here
    obtain rfl : more = [] := by
      rw [length_cons, length_append] at size
      exact eq_nil_of_length_eq_zero (by omega)
    rw [bytes, append_nil, ← isChar, sequence.ofChar_eq]

namespace Quoted

/-! ## Hexadecimal digits -/

/-- A number in hexadecimal digits, as characters. -/
def hexChars (width value : Nat) : List Char :=
  (hexDigits width value).map fun code => Char.ofNat code.toNat

theorem hexDigit_ascii : ∀ value < 16, hexDigit value < 0x80 := by
  decide

theorem hexValue?_hexDigit : ∀ value < 16, hexValue? (Char.ofNat (hexDigit value).toNat) =
      some value := by
  decide

theorem hexChars_succ (width value : Nat) :
    hexChars (width + 1) value =
      hexChars width (value / 16) ++ [Char.ofNat (hexDigit (value % 16)).toNat] := by
  rw [hexChars, hexDigits, map_append]
  rfl

theorem hexDigits_ascii (width value : Nat) : ∀ code ∈ hexDigits width value, code < 0x80 := by
  induction width generalizing value with
  | zero => exact forall_mem_nil _
  | succ width ih =>
    rw [hexDigits, forall_mem_append, forall_mem_singleton]
    exact ⟨ih _, hexDigit_ascii _ (Nat.mod_lt _ (by decide))⟩

/-- Digits give back the number that they are the digits of. -/
theorem hexNumber?_hexChars (width value : Nat) (small : value < Nat.pow 16 width) :
    hexNumber? (hexChars width value) = some value := by
  induction width generalizing value with
  | zero => rw [Nat.lt_one_iff.mp small]; rfl
  | succ width ih =>
    have small : value < Nat.pow 16 width * 16 := small
    have front := ih (value / 16) (Nat.div_lt_of_lt_mul (Nat.mul_comm _ _ ▸ small))
    rw [hexNumber?] at front ⊢
    rw [hexChars_succ, foldl_append, front]
    simp only [foldl_cons, foldl_nil, hexValue?_hexDigit _ (Nat.mod_lt value (by decide))]
    exact congrArg some (Nat.div_add_mod' value 16)

/-! ## Pieces of a quoted text -/

/-- A row of characters between quotation marks that stands for some bytes, as `encode` writes
them. -/
inductive Piece : List Char → Bytes → Prop where
  | plain {char : Char} (printable : isPrintable char = true) (notMark : char ≠ '"')
      (notEscape : char ≠ '\\') : Piece [char] (Bytes.ofChar char)
  | self {char : Char} (isMark : char = '"' ∨ char = '\\') : Piece ['\\', char] (Bytes.ofChar char)
  | letter {char letter : Char} (names : shortEscape? char = some letter) :
      Piece ['\\', letter] (Bytes.ofChar char)
  | code {value : Nat} (small : value < 256) : Piece ('\\' :: 'x' :: hexChars 2 value) [value.toUInt8]
  | short {char : Char} (small : char.toNat < 0x10000) :
      Piece ('\\' :: 'u' :: hexChars 4 char.toNat) (Bytes.ofChar char)
  | long (char : Char) : Piece ('\\' :: 'U' :: hexChars 8 char.toNat) (Bytes.ofChar char)

theorem not_isPrintable_newline : isPrintable '\n' = false := by decide

theorem shortEscape?_cases {char letter : Char} (names : shortEscape? char = some letter) :
    (char = '\x07' ∧ letter = 'a') ∨ (char = '\x08' ∧ letter = 'b') ∨ (char = '\t' ∧ letter = 't') ∨
      (char = '\n' ∧ letter = 'n') ∨ (char = '\x0b' ∧ letter = 'v') ∨ (char = '\x0c' ∧ letter = 'f') ∨
      (char = '\r' ∧ letter = 'r') := by
  have back : Char.ofNat char.toNat = char := Char.ofNat_toNat char
  unfold shortEscape? at names
  split at names
  all_goals cases names
  all_goals
    rename_i code
    rw [← back, code]
    decide

theorem scalarBytes?_toNat (char : Char) : scalarBytes? char.toNat = some (Bytes.ofChar char) := by
  have valid : char.toNat < 0xD800 ∨ 0xDFFF < char.toNat ∧ char.toNat < 0x110000 := char.valid
  rw [scalarBytes?, Char.ofNat_toNat, if_pos]
  simp only [Bool.or_eq_true, Bool.and_eq_true, decide_eq_true_eq]
  omega

theorem toNat_lt (char : Char) : char.toNat < 0x110000 := by
  have valid : char.toNat < 0xD800 ∨ 0xDFFF < char.toNat ∧ char.toNat < 0x110000 := char.valid
  omega

theorem Piece.decodeChar? {chars : List Char} {bytes : Bytes} (piece : Piece chars bytes)
    (rest : List Char) : Quoted.decodeChar? '"' (chars ++ rest) = some (bytes, rest) := by
  cases piece with
  | plain printable notMark notEscape =>
    rename_i char
    rw [singleton_append, Quoted.decodeChar?]
    · have notBreak : char ≠ '\n' := by
        rintro rfl
        rw [not_isPrintable_newline] at printable
        cases printable
      rw [if_neg (by simp [notMark, notBreak])]
    · exact notEscape
  | self isMark =>
    rcases isMark with rfl | rfl
    · rfl
    · rfl
  | letter names =>
    rcases shortEscape?_cases names with
      ⟨rfl, rfl⟩ | ⟨rfl, rfl⟩ | ⟨rfl, rfl⟩ | ⟨rfl, rfl⟩ | ⟨rfl, rfl⟩ | ⟨rfl, rfl⟩ | ⟨rfl, rfl⟩
    all_goals rfl
  | code small =>
    rename_i value
    have digits := hexNumber?_hexChars 2 value small
    simp only [hexChars, hexDigits, nil_append, map_cons, map_nil, cons_append] at digits ⊢
    rw [Quoted.decodeChar?, decodeEscape?, digits]
    rfl
  | @short char small =>
    have digits := hexNumber?_hexChars 4 char.toNat small
    simp only [hexChars, hexDigits, nil_append, map_cons, map_nil, cons_append] at digits ⊢
    rw [Quoted.decodeChar?, decodeEscape?, digits]
    simp only [Option.bind_eq_bind, Option.bind_some, scalarBytes?_toNat]
    rfl
  | long char =>
    have digits := hexNumber?_hexChars 8 char.toNat (Nat.lt_trans (toNat_lt char) (by decide))
    simp only [hexChars, hexDigits, nil_append, map_cons, map_nil, cons_append] at digits ⊢
    rw [Quoted.decodeChar?, decodeEscape?, digits]
    simp only [Option.bind_eq_bind, Option.bind_some, scalarBytes?_toNat]
    rfl

theorem Piece.head {chars : List Char} {bytes : Bytes} (piece : Piece chars bytes) :
    ∃ first rest, chars = first :: rest ∧ first ≠ '"' := by
  cases piece with
  | plain printable notMark notEscape => exact ⟨_, [], rfl, notMark⟩
  | self isMark => exact ⟨_, _, rfl, by decide⟩
  | letter names => exact ⟨_, _, rfl, by decide⟩
  | code small => exact ⟨_, _, rfl, by decide⟩
  | short small => exact ⟨_, _, rfl, by decide⟩
  | long char => exact ⟨_, _, rfl, by decide⟩

/-- Pieces one after another. -/
inductive Pieces : List Char → Bytes → Prop where
  | nil : Pieces [] []
  | cons {chars more : List Char} {bytes others : Bytes} (piece : Piece chars bytes)
      (pieces : Pieces more others) : Pieces (chars ++ more) (bytes ++ others)

theorem Pieces.decodeBody? {chars : List Char} {bytes : Bytes} (pieces : Pieces chars bytes)
    {fuel : Nat} (enough : chars.length < fuel) :
    Quoted.decodeBody? '"' fuel (chars ++ ['"']) = some (bytes, []) := by
  induction pieces generalizing fuel with
  | nil =>
    cases fuel with
    | zero => cases enough
    | succ fuel => rfl
  | @cons chars more bytes others piece pieces ih =>
    rcases piece.head with ⟨first, rest, rfl, notMark⟩
    cases fuel with
    | zero => cases enough
    | succ fuel =>
      rw [length_append, length_cons] at enough
      have whole := piece.decodeChar? (more ++ ['"'])
      rw [cons_append] at whole
      rw [append_assoc, cons_append, Quoted.decodeBody?, if_neg notMark, whole]
      simp only [Option.bind_eq_bind, Option.bind_some, ih (by omega : more.length < fuel)]
      rfl

/-- The glyphs spell the text, and all of them are well-formed. -/
structure Neat (text : Bytes) (spelling : List Glyph) : Prop where
  spelled : Spelled text spelling
  wellFormed : ∀ glyph ∈ spelling, glyph.isMalformed = false

theorem Neat.append {text other : Bytes} {spelling others : List Glyph} (neat : Neat text spelling)
    (later : Neat other others) : Neat (text ++ other) (spelling ++ others) :=
  ⟨neat.spelled.append later.spelled, forall_mem_append.mpr ⟨neat.wellFormed, later.wellFormed⟩⟩

theorem Neat.ofAscii {text : Bytes} (ascii : ∀ code ∈ text, code < 0x80) :
    Neat text (text.map fun code => ⟨Char.ofNat code.toNat, [code], 0⟩) := by
  refine ⟨.ofAscii text ascii, fun glyph member => ?_⟩
  rcases mem_map.mp member with ⟨code, isCode, rfl⟩
  have small : code.toNat < 0x80 := ascii code isCode
  have notReplacement : Char.ofNat code.toNat ≠ replacement := by
    intro same
    have codes : (Char.ofNat code.toNat).val.toNat = replacement.val.toNat := by rw [same]
    rw [Utf8.val_ofNat (.inl (by omega))] at codes
    have large : replacement.val.toNat = 0xFFFD := rfl
    omega
  rw [Glyph.isMalformed, beq_eq_false_iff_ne.mpr notReplacement, Bool.false_and]

theorem neat_escape {lead : Bytes} (ascii : lead.all (· < 0x80) = true) (width value : Nat) :
    ∃ spelling, Neat (lead ++ hexDigits width value) spelling ∧
      spelling.map Glyph.char = lead.map (fun code => Char.ofNat code.toNat) ++ hexChars width value := by
  have every := forall_mem_append.mpr ⟨Utf8.ascii_of_all ascii, hexDigits_ascii width value⟩
  refine ⟨_, Neat.ofAscii every, ?_⟩
  rw [map_map, map_append]
  rfl

theorem ofChar_ascii {char : Char} (ascii : char.toNat < 0x80) :
    Bytes.ofChar char = [char.toNat.toUInt8] := by
  have same : char.toNat.toUInt8.toNat = char.toNat := Nat.mod_eq_of_lt (by omega)
  have spelled := (Utf8.Sequence.one ascii same).ofChar_eq
  rwa [Char.ofNat_toNat] at spelled

theorem encodeChar_piece {glyph : Glyph} (sound : glyph.Sound) (wellFormed : glyph.isMalformed = false) :
    ∃ spelling, Neat (encodeChar '"' glyph.char) spelling ∧
      Piece (spelling.map Glyph.char) glyph.bytes := by
  have bytes := sound.ofChar_eq wellFormed
  have neat : Neat (Bytes.ofChar glyph.char) [glyph] := by
    refine ⟨⟨?_, forall_mem_singleton.mpr sound⟩, forall_mem_singleton.mpr wellFormed⟩
    rw [flatMap_singleton, bytes]
  rw [← bytes]
  unfold encodeChar
  dsimp only
  split
  next isMark =>
    rw [Bool.or_eq_true, decide_eq_true_eq, decide_eq_true_eq] at isMark
    have escape : Neat [byte '\\'] _ := .ofAscii (Utf8.ascii_of_all (by decide))
    exact ⟨_, escape.append neat, .self isMark⟩
  next notMark =>
    rw [Bool.or_eq_true, decide_eq_true_eq, decide_eq_true_eq, not_or] at notMark
    split
    next printable => exact ⟨_, neat, .plain printable notMark.1 notMark.2⟩
    next =>
      split
      next letter names =>
        rcases shortEscape?_cases names with
          ⟨_, rfl⟩ | ⟨_, rfl⟩ | ⟨_, rfl⟩ | ⟨_, rfl⟩ | ⟨_, rfl⟩ | ⟨_, rfl⟩ | ⟨_, rfl⟩
        all_goals exact ⟨_, .ofAscii (Utf8.ascii_of_all (by decide)), .letter names⟩
      next =>
        split
        next control =>
          rcases @neat_escape (Bytes.ofString "\\x") (by decide) 2 glyph.char.toNat with
            ⟨spelling, neat, chars⟩
          refine ⟨spelling, neat, ?_⟩
          have small : glyph.char.toNat < 0x80 := by
            simp only [Bool.or_eq_true, decide_eq_true_eq] at control
            omega
          rw [chars, ofChar_ascii small]
          exact .code (by omega)
        next =>
          split
          next small =>
            rcases @neat_escape (Bytes.ofString "\\u") (by decide) 4 glyph.char.toNat with
              ⟨spelling, neat, chars⟩
            exact ⟨spelling, neat, by rw [chars]; exact .short small⟩
          next =>
            rcases @neat_escape (Bytes.ofString "\\U") (by decide) 8 glyph.char.toNat with
              ⟨spelling, neat, chars⟩
            exact ⟨spelling, neat, by rw [chars]; exact .long glyph.char⟩

theorem encodeGlyph_piece {text : Bytes} {glyph : Glyph} (member : glyph ∈ Utf8.glyphs text) :
    ∃ spelling, Neat (encodeGlyph '"' glyph) spelling ∧ Piece (spelling.map Glyph.char) glyph.bytes := by
  unfold encodeGlyph
  split
  next malformed =>
    rw [Glyph.isMalformed, Bool.and_eq_true, beq_iff_eq, beq_iff_eq] at malformed
    rcases length_eq_one_iff.mp malformed.2 with ⟨code, bytes⟩
    rw [bytes, flatMap_singleton]
    rcases @neat_escape (Bytes.ofString "\\x") (by decide) 2 code.toNat with ⟨spelling, neat, chars⟩
    refine ⟨spelling, neat, ?_⟩
    have piece := Piece.code code.toNat_lt
    rw [show code.toNat.toUInt8 = code from UInt8.ofNat_toNat] at piece
    rw [chars]
    exact piece
  next wellFormed =>
    have wellFormed : glyph.isMalformed = false := by simpa using wellFormed
    exact encodeChar_piece (Utf8.glyphs_sound text glyph member wellFormed) wellFormed

theorem encode_pieces (text : Bytes) :
    ∃ spelling, Neat ((Utf8.glyphs text).flatMap (encodeGlyph '"')) spelling ∧
      Pieces (spelling.map Glyph.char) text := by
  have each (glyphs : List Glyph) (inside : ∀ glyph ∈ glyphs, glyph ∈ Utf8.glyphs text) :
      ∃ spelling, Neat (glyphs.flatMap (encodeGlyph '"')) spelling ∧
        Pieces (spelling.map Glyph.char) (glyphs.flatMap Glyph.bytes) := by
    induction glyphs with
    | nil => exact ⟨[], ⟨.nil, forall_mem_nil _⟩, .nil⟩
    | cons glyph glyphs ih =>
      rcases forall_mem_cons.mp inside with ⟨isGlyph, others⟩
      rcases encodeGlyph_piece isGlyph with ⟨first, neatFirst, piece⟩
      rcases ih others with ⟨rest, neatRest, pieces⟩
      refine ⟨first ++ rest, neatFirst.append neatRest, ?_⟩
      rw [map_append, flatMap_cons]
      exact .cons piece pieces
  have whole := each (Utf8.glyphs text) fun _ member => member
  rwa [Utf8.flatMap_glyphs] at whole

/-- The glyphs of a quoted text: a mark, pieces that stand for the bytes of the text, and another
mark. -/
theorem glyphsFrom_encode (text : Bytes) (offset : Nat) :
    ∃ opening inner closing, Utf8.glyphsFrom 0 offset (encode text) = opening :: (inner ++ [closing]) ∧
      opening.char = '"' ∧ closing.char = '"' ∧ Pieces (inner.map Glyph.char) text ∧
      ∀ glyph ∈ opening :: (inner ++ [closing]), glyph.isMalformed = false := by
  rcases encode_pieces text with ⟨spelling, neat, pieces⟩
  have mark : Neat [byte '"'] _ := .ofAscii (Utf8.ascii_of_all (by decide))
  have whole := mark.append (neat.append mark)
  rcases whole.spelled.glyphsFrom_faces offset [] with ⟨placed, read, faces⟩
  rw [append_nil, Utf8.glyphsFrom, append_nil] at read
  have wellFormed : ∀ glyph ∈ placed, glyph.isMalformed = false := by
    intro glyph member
    have isFace : glyph.face ∈ placed.map Glyph.face := mem_map_of_mem member
    rw [faces] at isFace
    rcases mem_map.mp isFace with ⟨other, isOther, same⟩
    have sameChar : other.char = glyph.char := congrArg Prod.fst same
    have sameBytes : other.bytes = glyph.bytes := congrArg Prod.snd same
    rw [← whole.wellFormed other isOther, Glyph.isMalformed, Glyph.isMalformed, sameChar, sameBytes]
  simp only [map_append, map_cons, map_nil, singleton_append] at faces
  rcases map_eq_cons_iff.mp faces with ⟨opening, rest, rfl, isOpening, faces⟩
  rcases map_eq_append_iff.mp faces with ⟨inner, last, rfl, isInner, isLast⟩
  rcases map_eq_singleton_iff.mp isLast with ⟨closing, rfl, isClosing⟩
  have chars : inner.map Glyph.char = spelling.map Glyph.char := by
    have first := congrArg (List.map Prod.fst) isInner
    rwa [map_map, map_map] at first
  exact ⟨opening, inner, closing, read, congrArg Prod.fst isOpening, congrArg Prod.fst isClosing,
    chars ▸ pieces, wellFormed⟩

/-- Reading a quoted text gives the text back, whatever its bytes. -/
theorem decode?_encode (text : Bytes) : decode? (encode text) = some text := by
  rcases encode_pieces text with ⟨spelling, neat, pieces⟩
  have mark : Neat [byte '"'] _ := .ofAscii (Utf8.ascii_of_all (by decide))
  rcases (neat.append mark).spelled.glyphsFrom_append 0 [] with ⟨placed, read, chars, _⟩
  rw [append_nil, Utf8.glyphsFrom, append_nil] at read
  have decoded : Utf8.chars ((Utf8.glyphs text).flatMap (encodeGlyph '"') ++ [byte '"']) =
      spelling.map Glyph.char ++ ['"'] := by
    rw [Utf8.chars, Utf8.glyphs, read, chars, map_append]
    rfl
  rw [encode, cons_append, decode?, decoded, if_neg (by decide), if_pos rfl,
    pieces.decodeBody? (by simp only [length_append, length_map, length_singleton]; omega)]

end Quoted
end Text
end CaseExpansion
