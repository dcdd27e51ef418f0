import CaseExpansion.Proofs.Source.Stretches
import CaseExpansion.Proofs.Text.Quoting

namespace CaseExpansion
namespace Source

open List
open Text (Glyph)
open Text.Quoted (Piece Pieces encode)

/-!
# A quoted text is one lexeme

The scanner reads what `encode` writes as a single string without faults: it knows every
escape that is written there, and no character that is written as it is ends the string.
-/

theorem not_isPrintable_byteOrderMark : Text.isPrintable byteOrderMark = false := by
  decide +kernel

/-- A character that may stand anywhere in a source text. -/
def IsFitChar (char : Char) : Prop :=
  char ≠ '\x00' ∧ char ≠ byteOrderMark

theorem isFitChar_hexChars (width value : Nat) :
    ∀ char ∈ Text.Quoted.hexChars width value, IsFitChar char := by
  have digit : ∀ value < 16, Char.ofNat (Text.Quoted.hexDigit value).toNat ≠ '\x00' ∧
      Char.ofNat (Text.Quoted.hexDigit value).toNat ≠ byteOrderMark := by decide
  induction width generalizing value with
  | zero => exact forall_mem_nil _
  | succ width ih =>
    rw [Text.Quoted.hexChars_succ, forall_mem_append, forall_mem_singleton]
    exact ⟨ih _, digit _ (Nat.mod_lt _ (by decide))⟩

theorem isFitChar_piece {chars : List Char} {bytes : Bytes} (piece : Piece chars bytes) :
    ∀ char ∈ chars, IsFitChar char := by
  have numeric {sign : Char} (isSign : sign ≠ '\x00' ∧ sign ≠ byteOrderMark) (width value : Nat) :
      ∀ char ∈ '\\' :: sign :: Text.Quoted.hexChars width value, IsFitChar char := by
    rw [forall_mem_cons, forall_mem_cons]
    exact ⟨⟨by decide, by decide⟩, isSign, isFitChar_hexChars width value⟩
  cases piece with
  | plain printable notMark notEscape =>
    rw [forall_mem_singleton]
    refine ⟨?_, ?_⟩
    · rintro rfl
      cases printable
    · rintro rfl
      rw [not_isPrintable_byteOrderMark] at printable
      cases printable
  | self isMark =>
    rw [forall_mem_cons, forall_mem_singleton]
    rcases isMark with rfl | rfl <;> exact ⟨⟨by decide, by decide⟩, by decide, by decide⟩
  | letter names =>
    rw [forall_mem_cons, forall_mem_singleton]
    rcases Text.Quoted.shortEscape?_cases names with
      ⟨_, rfl⟩ | ⟨_, rfl⟩ | ⟨_, rfl⟩ | ⟨_, rfl⟩ | ⟨_, rfl⟩ | ⟨_, rfl⟩ | ⟨_, rfl⟩
    all_goals exact ⟨⟨by decide, by decide⟩, by decide, by decide⟩
  | code small => exact numeric (by decide) 2 _
  | short small => exact numeric (by decide) 4 _
  | long char => exact numeric (by decide) 8 _

theorem isFitChar_pieces {chars : List Char} {bytes : Bytes} (pieces : Pieces chars bytes) :
    ∀ char ∈ chars, IsFitChar char := by
  induction pieces with
  | nil => exact forall_mem_nil _
  | cons piece _ ih =>
    exact forall_mem_append.mpr ⟨isFitChar_piece piece, ih⟩

namespace LiteralScan

variable {size count : Nat} {valid : Bool} {ahead : List Glyph} {faults : List Fault}

/-- A character that is neither a mark nor an escape stands for itself. -/
theorem body_plain {glyph : Glyph} (notBreak : glyph.char ≠ '\n') (notMark : glyph.char ≠ '"')
    (notEscape : glyph.char ≠ '\\') (fit : Fit ahead) :
    body size '"' .idle count valid (glyph :: ahead) faults =
      body size '"' .idle (count + 1) valid ahead faults := by
  rw [body]
  dsimp only
  rw [if_pos rfl, if_neg notBreak, if_neg notMark, if_neg notEscape, Reader.arrive_of_fit fit]

theorem body_opened {glyph : Glyph} (isEscape : glyph.char = '\\') (fit : Fit ahead) :
    body size '"' .idle count valid (glyph :: ahead) faults =
      body size '"' .opened (count + 1) valid ahead faults := by
  rw [body]
  dsimp only
  rw [if_pos rfl, if_neg (by rw [isEscape]; decide), if_neg (by rw [isEscape]; decide), if_pos isEscape,
    Reader.arrive_of_fit fit]

theorem body_taken {glyph : Glyph} {escape next : Escape} (open_ : escape ≠ .idle)
    (takes : escape.feed '"' glyph = .taken next none) (fit : Fit ahead) :
    body size '"' escape count valid (glyph :: ahead) faults =
      body size '"' next count valid ahead faults := by
  rw [body]
  dsimp only
  rw [if_neg open_, takes, Reader.arrive_of_fit fit]

theorem hexValue?_lt {char : Char} {value : Nat} (isValue : Text.Quoted.hexValue? char = some value) :
    value < 16 := by
  simp only [Text.Quoted.hexValue?, Bool.and_eq_true, decide_eq_true_eq, Char.le_def,
    UInt32.le_iff_toNat_le] at isValue
  have decimal : '9'.val.toNat = 57 := rfl
  have lower : 'f'.val.toNat = 102 := rfl
  have upper : 'F'.val.toNat = 70 := rfl
  have same : char.toNat = char.val.toNat := rfl
  split_ifs at isValue <;> cases isValue <;> omega

theorem foldl_hexValue?_none (chars : List Char) :
    chars.foldl (fun value? digit => do return (← value?) * 16 + (← Text.Quoted.hexValue? digit))
      none = none := by
  induction chars with
  | nil => rfl
  | cons char chars ih => exact ih

theorem length_hexChars (width value : Nat) : (Text.Quoted.hexChars width value).length = width := by
  induction width generalizing value with
  | zero => rfl
  | succ width ih =>
    rw [Text.Quoted.hexChars_succ, length_append, ih, length_singleton]

/-- The digits of a numeric escape end it when their number is that of a code point. -/
theorem body_digits {digits : List Glyph} {start value limit number : Nat} (some : digits ≠ [])
    (isNumber : (digits.map Glyph.char).foldl (fun value? digit => do
      return (← value?) * 16 + (← Text.Quoted.hexValue? digit)) (Option.some value) = Option.some number)
    (inside : number ≤ limit) (scalar : number < 0xD800 ∨ 0xE000 ≤ number) (fit : Fit (digits ++ ahead)) :
    body size '"' (.digits start digits.length 16 value limit) count valid (digits ++ ahead) faults =
      body size '"' .idle count valid ahead faults := by
  induction digits generalizing value with
  | nil => exact absurd rfl some
  | cons digit digits ih =>
    rw [map_cons, foldl_cons] at isNumber
    cases isDigit : Text.Quoted.hexValue? digit.char with
    | none =>
      rw [isDigit] at isNumber
      exact absurd (isNumber.symm.trans (foldl_hexValue?_none _)) (Option.some_ne_none _)
    | some amount =>
      have small := hexValue?_lt isDigit
      have isValue : Escape.digitValue digit.char = amount := by
        rw [Escape.digitValue, isDigit, Option.getD_some]
      rw [isDigit] at isNumber
      have isNumber : (digits.map Glyph.char).foldl _ (Option.some (value * 16 + amount)) = _ := isNumber
      cases digits with
      | nil =>
        cases isNumber
        refine body_taken Escape.noConfusion ?_ fit.tail
        rw [Escape.feed, Escape.feedDigit, isValue]
        refine (if_neg (by omega)).trans (if_neg ?_)
        simp only [Bool.or_eq_true, Bool.and_eq_true, decide_eq_true_eq]
        omega
      | cons second digits =>
        refine Eq.trans (body_taken Escape.noConfusion ?_ fit.tail)
          (ih (cons_ne_nil _ _) isNumber fit.tail)
        rw [Escape.feed, Escape.feedDigit, isValue]
        exact if_neg (by omega)

theorem body_numeric {sign : Char} {glyphs : List Glyph} {width value limit : Nat}
    (spells : glyphs.map Glyph.char = '\\' :: sign :: Text.Quoted.hexChars width value)
    (opens : ∀ glyph : Glyph, glyph.char = sign →
      Escape.feed '"' glyph .opened = .taken (.digits glyph.offset width 16 0 limit) none)
    (some : 0 < width) (small : value < Nat.pow 16 width) (inside : value ≤ limit)
    (scalar : value < 0xD800 ∨ 0xE000 ≤ value) (fit : Fit (glyphs ++ ahead)) :
    body size '"' .idle count valid (glyphs ++ ahead) faults =
      body size '"' .idle (count + 1) valid ahead faults := by
  rcases map_eq_cons_iff.mp spells with ⟨escape, rest, rfl, isEscape, spells⟩
  rcases map_eq_cons_iff.mp spells with ⟨second, digits, rfl, isSign, spells⟩
  have length : digits.length = width := by
    have lengths := congrArg List.length spells
    rwa [length_map, length_hexChars] at lengths
  have number := Text.Quoted.hexNumber?_hexChars width value small
  rw [Text.Quoted.hexNumber?, ← spells] at number
  refine (body_opened isEscape fit.tail).trans
    ((body_taken Escape.noConfusion (opens second isSign) fit.tail.tail).trans ?_)
  rw [← length]
  refine body_digits (fun none => ?_) number inside scalar fit.tail.tail
  rw [none] at length
  exact absurd length (Nat.ne_of_lt some)

theorem body_piece {chars : List Char} {bytes : Bytes} (piece : Piece chars bytes) {glyphs : List Glyph}
    (spells : glyphs.map Glyph.char = chars) (fit : Fit (glyphs ++ ahead)) :
    body size '"' .idle count valid (glyphs ++ ahead) faults =
      body size '"' .idle (count + 1) valid ahead faults := by
  have named {letter : Char} (spells : glyphs.map Glyph.char = ['\\', letter])
      (takes : ∀ glyph : Glyph, glyph.char = letter → Escape.feed '"' glyph .opened = .taken .idle none) :
      body size '"' .idle count valid (glyphs ++ ahead) faults =
        body size '"' .idle (count + 1) valid ahead faults := by
    rcases map_eq_cons_iff.mp spells with ⟨escape, rest, rfl, isEscape, spells⟩
    rcases map_eq_singleton_iff.mp spells with ⟨second, rfl, isLetter⟩
    exact (body_opened isEscape fit.tail).trans
      (body_taken Escape.noConfusion (takes second isLetter) fit.tail.tail)
  have scalar (char : Char) : char.toNat < 0xD800 ∨ 0xE000 ≤ char.toNat := by
    have valid : char.toNat < 0xD800 ∨ 0xDFFF < char.toNat ∧ char.toNat < 0x110000 := char.valid
    omega
  cases piece with
  | plain printable notMark notEscape =>
    rcases map_eq_singleton_iff.mp spells with ⟨glyph, rfl, rfl⟩
    refine body_plain ?_ notMark notEscape fit.tail
    intro isBreak
    rw [isBreak] at printable
    cases printable
  | self isMark =>
    refine named spells fun glyph isLetter => ?_
    rw [Escape.feed, if_pos]
    rw [isLetter]
    rcases isMark with rfl | rfl <;> rfl
  | letter names =>
    refine named spells fun glyph isLetter => ?_
    rw [Escape.feed, if_pos]
    rw [isLetter]
    rcases Text.Quoted.shortEscape?_cases names with
      ⟨_, rfl⟩ | ⟨_, rfl⟩ | ⟨_, rfl⟩ | ⟨_, rfl⟩ | ⟨_, rfl⟩ | ⟨_, rfl⟩ | ⟨_, rfl⟩
    all_goals rfl
  | @code value small =>
    have opens (glyph : Glyph) (isSign : glyph.char = 'x') :
        Escape.feed '"' glyph .opened = .taken (.digits glyph.offset 2 16 0 255) none := by
      simp [Escape.feed, isSign]
    exact body_numeric spells opens (by decide) small (by omega) (by omega) fit
  | @short char small =>
    have opens (glyph : Glyph) (isSign : glyph.char = 'u') :
        Escape.feed '"' glyph .opened = .taken (.digits glyph.offset 4 16 0 0x10FFFF) none := by
      simp [Escape.feed, isSign]
    exact body_numeric spells opens (by decide) small (by omega) (scalar char) fit
  | long char =>
    have bounded := Text.Quoted.toNat_lt char
    have opens (glyph : Glyph) (isSign : glyph.char = 'U') :
        Escape.feed '"' glyph .opened = .taken (.digits glyph.offset 8 16 0 0x10FFFF) none := by
      simp [Escape.feed, isSign]
    exact body_numeric spells opens (by decide) (Nat.lt_trans bounded (by decide)) (by omega)
      (scalar char) fit

theorem body_pieces {chars : List Char} {bytes : Bytes} (pieces : Pieces chars bytes)
    {glyphs : List Glyph} (spells : glyphs.map Glyph.char = chars) (fit : Fit (glyphs ++ ahead)) :
    ∃ count', body size '"' .idle count valid (glyphs ++ ahead) faults =
      body size '"' .idle count' valid ahead faults := by
  induction pieces generalizing glyphs count with
  | nil =>
    rcases map_eq_nil_iff.mp spells with rfl
    exact ⟨count, rfl⟩
  | cons piece _ ih =>
    rcases map_eq_append_iff.mp spells with ⟨first, rest, rfl, spellsFirst, spellsRest⟩
    rw [append_assoc] at fit ⊢
    rcases ih spellsRest (fit.of_suffix (suffix_append _ _)) with ⟨total, whole⟩
    exact ⟨total, (body_piece piece spellsFirst fit).trans whole⟩

theorem string_quoted {start : Nat} {text : Bytes} {inner : List Glyph} {closing : Glyph}
    (pieces : Pieces (inner.map Glyph.char) text) (isClosing : closing.char = '"')
    (fit : Fit (inner ++ [closing])) : string size start ⟨inner ++ [closing], []⟩ = ⟨[], []⟩ := by
  rcases @body_pieces size 0 true [closing] [] _ _ pieces inner rfl fit with ⟨total, whole⟩
  have ends : body size '"' .idle total true [closing] [] = ⟨⟨[], []⟩, total, true, true⟩ := by
    rw [body]
    dsimp only
    rw [if_pos rfl, if_neg (by rw [isClosing]; decide), if_pos isClosing]
    rfl
  rw [string]
  dsimp only
  rw [whole, ends]
  rfl

end LiteralScan

/-- The glyphs of a quoted text may stand inside of a source text. -/
theorem fit_encode (text : Bytes) (offset : Nat) :
    Fit (Text.Utf8.glyphsFrom 0 offset (encode text)) := by
  rcases Text.Quoted.glyphsFrom_encode text offset with
    ⟨opening, inner, closing, read, isOpening, isClosing, pieces, wellFormed⟩
  have mark : IsFitChar '"' := ⟨by decide, by decide⟩
  have chars : ∀ glyph ∈ opening :: (inner ++ [closing]), IsFitChar glyph.char := by
    rw [forall_mem_cons, forall_mem_append, forall_mem_singleton, isOpening, isClosing]
    exact ⟨mark, fun glyph member => isFitChar_pieces pieces _ (mem_map_of_mem member), mark⟩
  rw [read]
  intro glyph member
  rcases chars glyph member with ⟨notNul, notMark⟩
  rw [isUnfit, wellFormed glyph member, beq_eq_false_iff_ne.mpr notNul, beq_eq_false_iff_ne.mpr notMark]
  rfl

namespace Lexeme

theorem scanAt_mark (size : Nat) (lineEnds : Bool) (start : Reader) :
    scanAt size lineEnds start '"' =
      finish size start (LiteralScan.string size (start.offset size) start.advance) .string
        (Reader.between start (LiteralScan.string size (start.offset size) start.advance)) true := by
  unfold scanAt
  rw [not_isNameStart_mark.2.2.2]
  rfl

/-- A quoted text at the end of a source text is read as a single string. -/
theorem scanNext_encode (text : Bytes) (offset : Nat) :
    scanNext (offset + (encode text).length) false
      ⟨Text.Utf8.glyphsFrom 0 offset (encode text), []⟩ =
      { lexeme := ⟨.string, offset, offset + (encode text).length, encode text, []⟩
        reader := ⟨[], []⟩
        lineEnds := true } := by
  have bytes := Text.Utf8.flatMap_glyphsFrom (encode text) 0 offset
  have fit := fit_encode text offset
  have tiles := Text.Utf8.glyphsFrom_tile (encode text) 0 offset (Nat.zero_le _)
  rcases Text.Quoted.glyphsFrom_encode text offset with
    ⟨opening, inner, closing, read, isOpening, isClosing, pieces, _⟩
  rw [read] at bytes fit tiles ⊢
  rw [drop_zero] at bytes
  generalize isSize : offset + (encode text).length = size
  have notSkipped : isSkipped false opening.char = false := by
    rw [isOpening]
    decide
  have literal : Reader.between ⟨opening :: (inner ++ [closing]), []⟩ ⟨[], []⟩ = encode text := by
    rw [Reader.between_eq (append_nil _).symm, bytes]
  have place : Reader.offset size ⟨opening :: (inner ++ [closing]), []⟩ = offset := tiles.1
  rw [scanNext_of_not_isSkipped notSkipped, isOpening, scanAt_mark, Reader.advance_of_fit fit.tail,
    LiteralScan.string_quoted pieces isClosing fit.tail, literal, finish, place]
  rfl

end Lexeme
end Source
end CaseExpansion
