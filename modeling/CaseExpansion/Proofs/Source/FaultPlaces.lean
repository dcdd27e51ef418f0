import CaseExpansion.Proofs.Source.Faults
import CaseExpansion.Source.Parse.File

namespace CaseExpansion
namespace Source

open List
open Text (Glyph)

/-!
# Where faults are

Faults are found in a text, and so they are reported inside of it, or at its end when
something is missing there.  The same holds of the lexemes themselves, those that stand
for line ends included.
-/

/-! ## Lexemes -/

theorem glyphFault?_offset {glyph : Glyph} {fault : Fault} (faulty : glyphFault? glyph = some fault) :
    fault.offset = glyph.offset := by
  unfold glyphFault? at faulty
  split at faulty
  · cases faulty
    rfl
  · split at faulty
    · cases faulty
      rfl
    · split at faulty <;> cases faulty
      rfl

/-- All that a reader has reported is inside of a text of the given size. -/
def Reader.Bounded (size : Nat) (reader : Reader) : Prop :=
  ∀ fault ∈ reader.faults, fault.offset ≤ size

namespace Reader

theorem bounded_arrive {size : Nat} {ahead : List Glyph} {faults others : List Fault}
    (within : Within size ⟨ahead, others⟩) (bounded : Bounded size ⟨ahead, faults⟩) :
    Bounded size ⟨ahead, arrive ahead faults⟩ := by
  unfold arrive
  split
  next fault found =>
    refine forall_mem_cons.mpr ⟨?_, bounded⟩
    cases ahead with
    | nil => cases found
    | cons glyph ahead =>
      rw [glyphFault?_offset found]
      exact within.le_size
  next => exact bounded

theorem Moves.bounded {size : Nat} {further : Bool} {origin later : Reader}
    (moves : origin.Moves size further later)
    (within : origin.Within size) (bounded : origin.Bounded size) : later.Bounded size := by
  induction moves with
  | refl => exact bounded
  | @advance _ _ later before ih =>
    have inside := within.of_follows before.follows.advance
    rcases later with ⟨_ | ⟨glyph, ahead⟩, faults⟩
    · exact ih
    · exact bounded_arrive inside ih
  | report _ inside ih => exact forall_mem_cons.mpr ⟨inside within, ih⟩

end Reader

namespace Lexeme

variable {size : Nat}

/-- A lexeme and its faults are inside of a text. -/
structure Bounded (size : Nat) (lexeme : Lexeme) : Prop where
  offset : lexeme.offset ≤ size
  faults : ∀ fault ∈ lexeme.faults, fault.offset ≤ size

/-- What a step reads is inside of a text, and so is the line end that it adds. -/
theorem scanNext_bounded (lineEnds : Bool) {reader : Reader} (within : reader.Within size)
    (bounded : reader.Bounded size) : (scanNext size lineEnds reader).lexeme.Bounded size ∧
      ∀ newline ∈ (scanNext size lineEnds reader).newline?, newline ≤ size := by
  have faults : ∀ fault ∈ (scanNext size lineEnds reader).lexeme.faults, fault.offset ≤ size := by
    rcases scanNext_endsAt size lineEnds reader with ⟨last, moves, _, isFaults⟩
    rw [isFaults]
    exact fun fault member => moves.bounded within bounded fault (mem_reverse.mp member)
  rcases scanNext_cases size lineEnds reader with ⟨start, skips, ⟨char, _, takes⟩ | ⟨_, ends⟩⟩
  · have inside := within.of_follows skips.follows
    exact ⟨⟨takes.offset ▸ inside.le_size, faults⟩,
      fun newline member => takes.newline newline member inside⟩
  · refine ⟨⟨?_, faults⟩, ?_⟩
    · rw [ends]
      exact skips.offset_inside within
    · rw [ends]
      exact fun _ none => absurd none (Option.not_mem_none _)

theorem scanFrom_bounded (fuel : Nat) (lineEnds : Bool) {reader : Reader} (within : reader.Within size)
    (bounded : reader.Bounded size) :
    ∀ lexeme ∈ scanFrom size fuel lineEnds reader, lexeme.Bounded size := by
  induction fuel generalizing lineEnds reader with
  | zero => simp [scanFrom]
  | succ fuel ih =>
    have step := scanNext_bounded lineEnds within bounded
    have later := (scanNext_lies lineEnds within).2.2.2.2
    intro lexeme member
    rw [scanFrom_succ, mem_cons] at member
    rcases member with rfl | member
    · exact step.1
    · split at member
      · cases member
      · rcases mem_append.1 member with inserted | member
        · obtain ⟨newline, isNewline, rfl⟩ := mem_map.1 inserted
          exact ⟨step.2 newline (Option.mem_toList.1 isNewline), by simp⟩
        · obtain ⟨last, _, stands, _⟩ := scanNext_endsAt size lineEnds reader
          have silent : (scanNext size lineEnds reader).reader.Bounded size := by
            rw [stands]
            exact forall_mem_nil _
          exact ih _ later silent lexeme member

theorem startReader_bounded (text : Bytes) : (startReader text).Bounded text.length := by
  have atStart : ∀ fault ∈ [(⟨0, .wideEncoding⟩ : Fault)], fault.offset ≤ text.length :=
    forall_mem_singleton.mpr (Nat.zero_le _)
  unfold startReader
  split
  · exact atStart
  · exact atStart
  · have all := Reader.bounded_arrive (glyphs_within text []) (forall_mem_nil _)
    dsimp only
    split
    · have moves : Reader.Moves text.length ⟨Text.Utf8.glyphs text,
          Reader.arrive (Text.Utf8.glyphs text) []⟩
        true _ := .advance .refl
      exact moves.bounded (glyphs_within text _) all
    · exact all

theorem scan_bounded (text : Bytes) : ∀ lexeme ∈ scan text, lexeme.Bounded text.length :=
  scanFrom_bounded _ _ (startReader_within text) (startReader_bounded text)

end Lexeme

/-! ## Line directives -/

namespace LineDirective

theorem trailingNumber_le (text : Bytes) : (trailingNumber text).1 ≤ text.length := by
  unfold trailingNumber Bytes.lastIndexOf?
  cases found : text.reverse.findIdx? (· == byte ':') with
  | none => exact Nat.zero_le _
  | some index =>
    have inside := (findIdx?_eq_some_iff_getElem.1 found).1
    rw [length_reverse] at inside
    simp only [Option.map_some]
    omega

theorem read_bounded {size offset : Nat} {text : Bytes} (inside : offset + text.length ≤ size)
    {fault : Fault} (failed : read offset text = .error fault) : fault.offset ≤ size := by
  have last := trailingNumber_le text
  unfold read at failed
  split at failed
  · cases failed
  next start found =>
    rw [found] at last
    cases failed
    exact Nat.le_trans (Nat.add_le_add_left last offset) inside
  next start number _ found =>
    rw [found] at last
    have first := trailingNumber_le (text.take (start - 1))
    rw [length_take] at first
    split at failed
    next lineStart line lineFound =>
      rw [lineFound] at first
      dsimp only at failed first last
      split at failed
      · cases failed
        dsimp only
        omega
      · split at failed <;> cases failed
        dsimp only
        omega
    next =>
      dsimp only at last
      split at failed <;> cases failed
      dsimp only
      omega

/-- A comment has room for what follows the word that makes it a directive. -/
theorem body?_length {text : Bytes} {starts : List Nat} {comment : Lexeme} {body : Bytes} {next : Nat}
    (found : body? text starts comment = some (body, next)) :
    comment.offset + 7 + body.length ≤ text.length := by
  have room {lead rest : Bytes} (long : lead.length = 7)
      (cut : Bytes.cutLead? lead (Bytes.slice text comment.offset comment.stop) = some rest) :
      comment.offset + 7 + rest.length ≤ text.length := by
    have parts := congrArg List.length (Bytes.cutLead?_eq_some_iff.1 cut)
    rw [length_append, long, Bytes.slice, length_take, length_drop] at parts
    omega
  unfold body? at found
  dsimp only at found
  split at found
  next rest cut =>
    have inside := room (by decide) cut
    split at found <;> cases found
    have shorter := Bytes.dropTail_length_le [byte '\r'] rest
    omega
  next =>
    split at found
    next rest cut =>
      have inside := room (by decide) cut
      obtain ⟨stem, cutTail, same⟩ := Option.map_eq_some_iff.1 found
      cases same
      have parts := congrArg List.length (Bytes.cutTail?_eq_some_iff.1 cutTail)
      rw [length_append] at parts
      omega
    next => cases found

theorem step_bounded {filename text : Bytes} {starts : List Nat} {state : LineTable × List Lexeme}
    {lexeme : Lexeme} (bounded : ∀ lexeme ∈ state.2, lexeme.Bounded text.length)
    (isBounded : lexeme.Bounded text.length) :
    ∀ other ∈ (step filename text starts state lexeme).2, other.Bounded text.length := by
  have kept : ∀ other ∈ lexeme :: state.2, other.Bounded text.length := by
    intro other member
    rcases mem_cons.1 member with rfl | member
    · exact isBounded
    · exact bounded other member
  unfold step
  dsimp only
  split
  · exact kept
  · split
    · exact kept
    next body next found =>
      split
      · exact kept
      next fault failed =>
        intro other member
        rcases mem_cons.1 member with rfl | member
        · refine ⟨isBounded.offset, ?_⟩
          intro blamed isBlamed
          rcases mem_append.1 isBlamed with early | late
          · exact isBounded.faults blamed early
          · cases mem_singleton.1 late
            exact read_bounded (body?_length found) failed
        · exact bounded other member
      · split
        · exact kept
        · exact kept

end LineDirective

theorem scanFile_bounded (filename text : Bytes) :
    ∀ lexeme ∈ (scanFile filename text).2, lexeme.Bounded text.length := by
  have all {lexemes : List Lexeme} {state : LineTable × List Lexeme}
      (bounded : ∀ lexeme ∈ state.2, lexeme.Bounded text.length)
      (more : ∀ lexeme ∈ lexemes, lexeme.Bounded text.length) :
      ∀ lexeme ∈ (lexemes.foldl (LineDirective.step filename text (lineStarts text)) state).2,
        lexeme.Bounded text.length := by
    induction lexemes generalizing state with
    | nil => exact bounded
    | cons lexeme lexemes ih =>
      refine ih (LineDirective.step_bounded bounded (more lexeme mem_cons_self)) ?_
      intro other member
      exact more other (mem_cons_of_mem _ member)
  intro lexeme member
  exact all (by simp) (Lexeme.scan_bounded text) lexeme (mem_reverse.1 member)

/-- Leaving comments out moves their faults to the lexemes after them. -/
theorem Parse.withoutComments_bounded {size : Nat} {faults : List Fault} {lexemes : List Lexeme}
    (inside : ∀ fault ∈ faults, fault.offset ≤ size) (bounded : ∀ lexeme ∈ lexemes, lexeme.Bounded size) :
    ∀ lexeme ∈ withoutComments faults lexemes, lexeme.Bounded size := by
  induction lexemes generalizing faults with
  | nil => simp [withoutComments]
  | cons lexeme lexemes ih =>
    have first := bounded lexeme mem_cons_self
    have rest := fun other member => bounded other (mem_cons_of_mem lexeme member)
    have joined : ∀ fault ∈ faults ++ lexeme.faults, fault.offset ≤ size := by
      intro fault member
      rcases mem_append.1 member with early | late
      · exact inside fault early
      · exact first.faults fault late
    rw [withoutComments]
    split
    · exact ih joined rest
    · intro other member
      rcases mem_cons.1 member with rfl | member
      · exact ⟨first.offset, joined⟩
      · exact ih (by simp) rest other member

end Source
end CaseExpansion
