import CaseExpansion.Proofs.Source.Lexemes
import CaseExpansion.Proofs.Text.Decoding

namespace CaseExpansion
namespace Source

open List
open Text (Glyph)

/-!
# Every glyph is looked at

A reader looks at each glyph that it comes to stand on, so that a text whose lexemes have
no faults has no faulty glyph anywhere, be it in a comment, in a string or in white space.
-/

namespace Reader

variable {size : Nat} {further : Bool}

theorem arrive_suffix (ahead : List Glyph) (faults : List Fault) : faults <:+ arrive ahead faults := by
  unfold arrive
  split
  · exact suffix_cons _ _
  · exact suffix_refl _

/-- A reader has nothing to report about the glyph it comes to stand on only when that
glyph is in order. -/
theorem arrive_eq_nil {ahead : List Glyph} {faults : List Fault} (silent : arrive ahead faults = []) :
    faults = [] ∧ ∀ glyph ∈ ahead.head?, glyphFault? glyph = none := by
  unfold arrive at silent
  split at silent
  · cases silent
  next none =>
    refine ⟨silent, fun glyph isHead => ?_⟩
    rwa [isHead, Option.bind_some] at none

theorem Moves.faults_suffix {earlier later : Reader} (moves : earlier.Moves size further later) :
    earlier.faults <:+ later.faults := by
  induction moves with
  | refl => exact suffix_refl _
  | @advance _ _ later _ ih =>
    refine ih.trans ?_
    rcases later with ⟨_ | ⟨glyph, ahead⟩, faults⟩
    · exact suffix_refl _
    · exact arrive_suffix ahead faults
  | report _ _ ih => exact ih.trans (suffix_cons _ _)

theorem Moves.silent {earlier later : Reader} (moves : earlier.Moves size further later)
    (silent : later.faults = []) : earlier.faults = [] := by
  have suffix := moves.faults_suffix
  rw [silent] at suffix
  exact suffix_nil.mp suffix

/-- The glyphs that the reader has passed on its way from some point, and the one that
it stands on, are in order. -/
def Vouches (glyphs : List Glyph) (reader : Reader) : Prop :=
  ∃ passed, glyphs = passed ++ reader.ahead ∧
    ∀ glyph ∈ passed ++ reader.ahead.head?.toList, glyphFault? glyph = none

/-- A reader without faults to report vouches for all that it has passed. -/
theorem Moves.vouches {glyphs : List Glyph} {earlier later : Reader}
    (moves : earlier.Moves size further later)
    (vouches : earlier.Vouches glyphs) (silent : later.faults = []) : later.Vouches glyphs := by
  induction moves with
  | refl => exact vouches
  | @advance _ _ later _ ih =>
    rcases later with ⟨_ | ⟨glyph, ahead⟩, faults⟩
    · exact ih silent
    · rcases arrive_eq_nil silent with ⟨none, head⟩
      rcases ih none with ⟨passed, same, inOrder⟩
      refine ⟨passed ++ [glyph], ?_, ?_⟩
      · rw [same, append_assoc, singleton_append]
        rfl
      · intro other member
        rcases mem_append.mp member with isPassed | isHead
        · exact inOrder other isPassed
        · exact head other (Option.mem_toList.mp isHead)
  | report => cases silent

end Reader

namespace Lexeme

variable {size : Nat} {lineEnds : Bool} {reader : Reader} {glyphs : List Glyph}

/-- When a step reports no faults, all that it has passed is in order. -/
theorem scanNext_vouches (vouches : reader.Vouches glyphs)
    (faultless : (scanNext size lineEnds reader).lexeme.faults = []) :
    (scanNext size lineEnds reader).reader.Vouches glyphs := by
  rcases scanNext_endsAt size lineEnds reader with ⟨last, moves, stands, faults⟩
  have silent : last.faults = [] := by
    rw [faultless] at faults
    exact reverse_eq_nil_iff.mp faults.symm
  rw [stands]
  exact moves.vouches vouches silent

/-- The end of the file is found when nothing is ahead. -/
theorem ahead_of_eof (isEnd : (scanNext size lineEnds reader).lexeme.token = .eof) :
    (scanNext size lineEnds reader).reader.ahead = [] := by
  unfold scanNext at isEnd ⊢
  dsimp only at isEnd ⊢
  split at isEnd
  next stands => exact absurd isEnd (scanAt_takes _ _ stands).notEnd
  next none =>
    have nothing := head?_eq_none_iff.mp (Option.map_eq_none_iff.mp none)
    split <;> exact nothing

theorem forall_of_vouches (vouches : reader.Vouches glyphs) (atEnd : reader.ahead = []) :
    ∀ glyph ∈ glyphs, glyphFault? glyph = none := by
  rcases vouches with ⟨passed, same, inOrder⟩
  rw [atEnd, append_nil] at same
  rw [atEnd, ← same] at inOrder
  exact fun glyph member => inOrder glyph (mem_append_left _ member)

theorem scanFrom_vouches {fuel : Nat} (enough : 2 * reader.ahead.length + lineEnds.toNat < fuel)
    (vouches : reader.Vouches glyphs)
    (faultless : ∀ lexeme ∈ scanFrom size fuel lineEnds reader, lexeme.faults = []) :
    ∀ glyph ∈ glyphs, glyphFault? glyph = none := by
  induction fuel generalizing lineEnds reader with
  | zero => cases enough
  | succ fuel ih =>
    rw [scanFrom_succ, forall_mem_cons] at faultless
    have later := scanNext_vouches vouches faultless.1
    by_cases isEnd : (scanNext size lineEnds reader).lexeme.token = .eof
    · exact forall_of_vouches later (ahead_of_eof isEnd)
    · have fewer := scanNext_shrinks isEnd
      have rest := faultless.2
      rw [if_neg isEnd] at rest
      exact ih (by omega) later
        fun lexeme member => rest lexeme (mem_append_right _ member)

/-- The first lexeme has the faults that the reader brings along. -/
theorem scanFrom_silent {fuel : Nat}
    (faultless : ∀ lexeme ∈ scanFrom size (fuel + 1) lineEnds reader, lexeme.faults = []) :
    reader.faults = [] := by
  rcases scanNext_endsAt size lineEnds reader with ⟨last, moves, _, faults⟩
  rw [scanFrom_succ, forall_mem_cons] at faultless
  rw [faultless.1] at faults
  exact moves.silent (reverse_eq_nil_iff.mp faults.symm)

/-- The reader at the start of a text vouches for it, unless it has faults to report. -/
theorem startReader_vouches {text : Bytes} (silent : (startReader text).faults = []) :
    (startReader text).Vouches (Text.Utf8.glyphs text) := by
  unfold startReader at silent ⊢
  split at silent
  · cases silent
  · cases silent
  · have atStart (silent : Reader.arrive (Text.Utf8.glyphs text) [] = []) :
        Reader.Vouches (Text.Utf8.glyphs text)
          ⟨Text.Utf8.glyphs text, Reader.arrive (Text.Utf8.glyphs text) []⟩ :=
      ⟨[], rfl, fun glyph isHead =>
        (Reader.arrive_eq_nil silent).2 glyph (Option.mem_toList.mp isHead)⟩
    dsimp only at silent ⊢
    split at silent
    next isMark =>
      rw [if_pos isMark]
      have moves : Reader.Moves text.length ⟨Text.Utf8.glyphs text,
          Reader.arrive (Text.Utf8.glyphs text) []⟩
        true _ := .advance .refl
      exact moves.vouches (atStart (moves.silent silent)) silent
    next noMark =>
      rw [if_neg noMark]
      exact atStart silent

theorem glyphs_of_scan {text : Bytes} (faultless : ∀ lexeme ∈ scan text, lexeme.faults = []) :
    ∀ glyph ∈ Text.Utf8.glyphs text, glyphFault? glyph = none := by
  refine scanFrom_vouches ?_ (startReader_vouches (scanFrom_silent faultless)) faultless
  rw [Bool.toNat_false]
  omega

end Lexeme
/-! ## Texts with a glyph that is out of place -/

/-- Whether a glyph is out of place anywhere but at the start of a text. -/
def isUnfit (glyph : Glyph) : Bool :=
  glyph.char == '\x00' || glyph.isMalformed || glyph.char == byteOrderMark

/-- A text has a glyph that may not stand inside of a source text. -/
def HasUnfit (text : Bytes) : Prop :=
  ∃ glyph ∈ Text.Utf8.glyphs text, isUnfit glyph = true

theorem glyphFault?_of_isUnfit {glyph : Glyph} (unfit : isUnfit glyph = true)
    (inside : 0 < glyph.offset) : glyphFault? glyph ≠ none := by
  unfold isUnfit at unfit
  unfold glyphFault?
  rw [Bool.or_eq_true, Bool.or_eq_true, beq_iff_eq, beq_iff_eq] at unfit
  split
  · exact Option.some_ne_none _
  next notNul =>
    split
    · exact Option.some_ne_none _
    next wellFormed =>
      rcases unfit with (isNul | malformed) | isMark
      · exact absurd isNul notNul
      · exact absurd malformed wellFormed
      · rw [isMark, if_pos (by rw [Bool.and_eq_true, decide_eq_true_eq, decide_eq_true_eq]
                               exact ⟨rfl, inside⟩)]
        exact Option.some_ne_none _

theorem isUnfit_of_face {glyph other : Glyph} (face : glyph.face = other.face) :
    isUnfit glyph = isUnfit other := by
  rcases glyph with ⟨char, bytes, offset⟩
  rcases other with ⟨otherChar, otherBytes, otherOffset⟩
  cases face
  rfl

theorem exists_unfit_of_faces {glyphs others : List Glyph}
    (faces : glyphs.map Glyph.face = others.map Glyph.face)
    (unfit : ∃ glyph ∈ glyphs, isUnfit glyph = true) : ∃ glyph ∈ others, isUnfit glyph = true := by
  rcases unfit with ⟨glyph, member, unfit⟩
  have isFace : glyph.face ∈ glyphs.map Glyph.face := mem_map_of_mem member
  rw [faces] at isFace
  rcases mem_map.mp isFace with ⟨other, isOther, same⟩
  exact ⟨other, isOther, (isUnfit_of_face same).trans unfit⟩

namespace HasUnfit

variable {front text back : Bytes}

theorem glyphsFrom (unfit : HasUnfit text) (offset : Nat) :
    ∃ glyph ∈ Text.Utf8.glyphsFrom 0 offset text, isUnfit glyph = true :=
  exists_unfit_of_faces (Text.Utf8.glyphsFrom_faces text 0 0 offset) unfit

/-- The glyphs of a text do not depend on a text in front of it that is in ASCII. -/
theorem after_ascii (unfit : HasUnfit text) (ascii : ∀ code ∈ front, code < 0x80) :
    HasUnfit (front ++ text) := by
  rcases (Text.Spelled.ofAscii front ascii).glyphsFrom_append 0 text with ⟨placed, read, _⟩
  rcases unfit.glyphsFrom (0 + front.length) with ⟨glyph, member, isUnfit⟩
  refine ⟨glyph, ?_, isUnfit⟩
  rw [Text.Utf8.glyphs, read]
  exact mem_append_right placed member

theorem before (unfit : HasUnfit text) (starts : Text.Utf8.Starts back) : HasUnfit (text ++ back) := by
  rcases unfit with ⟨glyph, member, isUnfit⟩
  rw [HasUnfit, Text.Utf8.glyphs_append starts]
  exact ⟨glyph, mem_append_left _ member, isUnfit⟩

theorem after (unfit : HasUnfit text) (starts : Text.Utf8.Starts text) (front : Bytes) :
    HasUnfit (front ++ text) := by
  rcases unfit.glyphsFrom front.length with ⟨glyph, member, isUnfit⟩
  rw [HasUnfit, Text.Utf8.glyphs_append starts]
  exact ⟨glyph, mem_append_right _ member, isUnfit⟩

/-- Inside of a text, a glyph that is out of place is a fault. -/
theorem faulty (unfit : HasUnfit text) (ascii : ∀ code ∈ front, code < 0x80) (some : front ≠ []) :
    ∃ glyph ∈ Text.Utf8.glyphs (front ++ text), glyphFault? glyph ≠ none := by
  rcases (Text.Spelled.ofAscii front ascii).glyphsFrom_append 0 text with ⟨placed, read, _⟩
  rcases unfit.glyphsFrom (0 + front.length) with ⟨glyph, member, isUnfit⟩
  refine ⟨glyph, ?_, glyphFault?_of_isUnfit isUnfit ?_⟩
  · rw [Text.Utf8.glyphs, read]
    exact mem_append_right placed member
  · have tiles := Text.Utf8.glyphsFrom_tile text 0 (0 + front.length) (Nat.zero_le _)
    have later := tiles.le_of_mem member
    have := length_pos_iff.mpr some
    omega

end HasUnfit

end Source
end CaseExpansion
