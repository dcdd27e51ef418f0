import CaseExpansion.Proofs.Source.Pasting
import CaseExpansion.Proofs.Source.Words

namespace CaseExpansion
namespace Source

open List
open Text (Glyph)
open Text.Utf8 (glyphs)

/-!
# Stretches of a scan

A scan goes from lexeme to lexeme.  `Scans` tells which lexemes it finds between two states,
a state being a reader and whether a line end there stands for a semicolon.  The scan of a text
is made of stretches, and the stretch over a part of the text depends on that part only: it is the
same one wherever the part stands.
-/

namespace Lexeme

/-- A scan finds some lexemes and gets from one state to another. -/
inductive Scans (size : Nat) : Bool → Reader → List Lexeme → Bool → Reader → Prop where
  | none (lineEnds : Bool) (reader : Reader) : Scans size lineEnds reader [] lineEnds reader
  | step {lineEnds last : Bool} {reader later : Reader} {lexemes : List Lexeme}
      (notEnd : (scanNext size lineEnds reader).lexeme.token ≠ .eof)
      (rest : Scans size (scanNext size lineEnds reader).lineEnds (scanNext size lineEnds reader).reader
        lexemes last later) :
      Scans size lineEnds reader ((scanNext size lineEnds reader).lexeme ::
        ((scanNext size lineEnds reader).inserted ++ lexemes)) last later

/-- All lexemes ahead. -/
def scanAll (size : Nat) (lineEnds : Bool) (reader : Reader) : List Lexeme :=
  scanFrom size (2 * reader.ahead.length + 2) lineEnds reader

variable {size : Nat} {lineEnds : Bool} {reader : Reader} {text : Bytes}

/-- Once there is enough fuel, it does not matter how much there is. -/
theorem scanFrom_of_enough {fuel other : Nat} (enough : 2 * reader.ahead.length + lineEnds.toNat < fuel)
    (enoughToo : 2 * reader.ahead.length + lineEnds.toNat < other) :
    scanFrom size fuel lineEnds reader = scanFrom size other lineEnds reader := by
  induction fuel generalizing other lineEnds reader with
  | zero => cases enough
  | succ fuel ih =>
    cases other with
    | zero => cases enoughToo
    | succ other =>
      rw [scanFrom_succ, scanFrom_succ]
      by_cases isEnd : (scanNext size lineEnds reader).lexeme.token = .eof
      · rw [if_pos isEnd, if_pos isEnd]
      · have fewer := scanNext_shrinks isEnd
        have same := ih (Nat.lt_of_lt_of_le fewer (Nat.le_of_lt_succ enough))
          (Nat.lt_of_lt_of_le fewer (Nat.le_of_lt_succ enoughToo))
        rw [if_neg isEnd, if_neg isEnd, same]

theorem scanAll_eq (size : Nat) (lineEnds : Bool) (reader : Reader) :
    scanAll size lineEnds reader = (scanNext size lineEnds reader).lexeme ::
      if (scanNext size lineEnds reader).lexeme.token = .eof then []
      else (scanNext size lineEnds reader).inserted ++ scanAll size
        (scanNext size lineEnds reader).lineEnds (scanNext size lineEnds reader).reader := by
  rw [scanAll, scanFrom_succ]
  by_cases isEnd : (scanNext size lineEnds reader).lexeme.token = .eof
  · rw [if_pos isEnd, if_pos isEnd]
  · have fewer := scanNext_shrinks isEnd
    have flag := Bool.toNat_le lineEnds
    have later := Bool.toNat_le (scanNext size lineEnds reader).lineEnds
    rw [if_neg isEnd, if_neg isEnd, scanAll]
    congr 2
    exact scanFrom_of_enough (by omega) (by omega)

theorem scanAll_of_ne_eof (notEnd : (scanNext size lineEnds reader).lexeme.token ≠ .eof) :
    scanAll size lineEnds reader = (scanNext size lineEnds reader).lexeme ::
      ((scanNext size lineEnds reader).inserted ++ scanAll size
        (scanNext size lineEnds reader).lineEnds (scanNext size lineEnds reader).reader) := by
  rw [scanAll_eq, if_neg notEnd]

theorem Scans.scanAll_eq {first last : Bool} {start stop : Reader} {lexemes : List Lexeme}
    (scans : Scans size first start lexemes last stop) :
    scanAll size first start = lexemes ++ scanAll size last stop := by
  induction scans with
  | none => rfl
  | step notEnd rest ih => rw [scanAll_of_ne_eof notEnd, ih, cons_append, append_assoc]

theorem scan_eq_scanAll (text : Bytes) : scan text = scanAll text.length false (startReader text) :=
  rfl

/-- The lexemes at the end of a text. -/
def ends (size : Nat) (lineEnds : Bool) : List Lexeme :=
  if lineEnds then [{ token := .semicolon, offset := size, stop := size, literal := [byte '\n'] },
    { token := .eof, offset := size, stop := size }]
  else [{ token := .eof, offset := size, stop := size }]

theorem scanAll_nil (size : Nat) (lineEnds : Bool) :
    scanAll size lineEnds ⟨[], []⟩ = ends size lineEnds := by
  cases lineEnds <;> rfl

theorem startReader_of_fit (fit : Fit (glyphs text)) : startReader text = ⟨glyphs text, []⟩ := by
  unfold startReader
  split
  next rest => cases fit _ mem_cons_self
  next rest => cases fit _ mem_cons_self
  next =>
    dsimp only
    rw [Reader.arrive_of_fit fit, if_neg]
    intro marked
    rcases Reader.ahead_of_char? (Reader.char?_of_isAt marked) with ⟨glyph, later, ahead, isMark, _⟩
    have isFit := fit glyph (by
      have ahead : glyphs text = glyph :: later := ahead
      rw [ahead]
      exact mem_cons_self)
    rw [isUnfit, ← isMark, beq_self_eq_true, Bool.or_true] at isFit
    cases isFit

theorem scan_of_fit (fit : Fit (glyphs text)) :
    scan text = scanAll text.length false ⟨glyphs text, []⟩ := by
  rw [scan_eq_scanAll, startReader_of_fit fit]

theorem fit_of_faultless (faultless : ∀ lexeme ∈ scan text, lexeme.faults = [])
    (first : ∀ glyph ∈ (glyphs text).head?, isUnfit glyph = false) : Fit (glyphs text) := by
  have silent := glyphs_of_scan faultless
  have tiles := Text.Utf8.glyphsFrom_tile text 0 0 (Nat.zero_le _)
  change Text.Tiles 0 (glyphs text) _ at tiles
  cases isGlyphs : glyphs text with
  | nil => exact forall_mem_nil _
  | cons glyph later =>
    rw [isGlyphs] at silent first tiles
    refine forall_mem_cons.mpr ⟨first glyph rfl, fun other member => ?_⟩
    rw [← Bool.not_eq_true]
    intro unfit
    have inside : 0 < other.offset :=
      Nat.lt_of_lt_of_le (Nat.lt_of_lt_of_le tiles.2.1 (Nat.le_add_left _ _)) (tiles.2.2.le_of_mem member)
    exact glyphFault?_of_isUnfit unfit inside (silent other (mem_cons_of_mem _ member))

/-! ## Texts that stand in longer ones -/

theorem scanNext_silent (size : Nat) (lineEnds : Bool) (reader : Reader) :
    (scanNext size lineEnds reader).reader.faults = [] := by
  rcases scanNext_endsAt size lineEnds reader with ⟨last, _, stands, _⟩
  rw [stands]

theorem moved_inserted (sequel : Sequel) (step : Step) :
    (step.before sequel).inserted = step.inserted.map (moved sequel.distance) := by
  rcases step with ⟨lexeme, reader, lineEnds, _ | newline⟩ <;> rfl

/-- The last glyph, if there is one, is not white space. -/
def Tight (glyphs : List Glyph) : Prop :=
  ∀ glyph ∈ glyphs.getLast?, Text.isBlank glyph.char = false

theorem Tight.of_suffix {glyphs later : List Glyph} (tight : Tight glyphs) (suffix : later <:+ glyphs) :
    Tight later := by
  rcases suffix with ⟨front, rfl⟩
  intro glyph isLast
  apply tight glyph
  rw [Option.mem_def] at isLast ⊢
  rw [getLast?_append, isLast]
  rfl

theorem isBlank_of_isSkipped {char : Char} (skipped : isSkipped lineEnds char = true) :
    Text.isBlank char = true := by
  simp only [isSkipped, Bool.or_eq_true, Bool.and_eq_true, beq_iff_eq] at skipped
  rcases skipped with ((rfl | rfl) | rfl) | ⟨rfl, _⟩ <;> decide

/-- Skipping white space comes to a character, unless nothing is ahead. -/
theorem Tight.skipWhile {lineEnds : Bool} {ahead : List Glyph} (tight : Tight ahead) (some : ahead ≠ [])
    (faults : List Fault) : ∃ char, (Reader.skipWhile (isSkipped lineEnds) ahead faults).char? =
      Option.some char := by
  induction ahead generalizing faults with
  | nil => exact absurd rfl some
  | cons glyph ahead ih =>
    rw [Reader.skipWhile]
    split
    next isSkip =>
      have more : ahead ≠ [] := by
        rintro rfl
        have solid := tight glyph rfl
        rw [isBlank_of_isSkipped isSkip] at solid
        cases solid
      exact ih (tight.of_suffix (suffix_cons _ _)) more _
    next => exact ⟨glyph.char, rfl⟩

/-- Ahead is, after white space, a comment that goes on to the end of the text. -/
structure OpensComment (size : Nat) (lineEnds : Bool) (reader : Reader) : Prop where
  slashes : (Reader.skipWhile (isSkipped lineEnds) reader.ahead reader.faults).isAtLineComment = true
  toEnd : (scanNext size lineEnds reader).reader.ahead = []

theorem scanNext_of_char? {start : Reader} {char : Char}
    (skipped : Reader.skipWhile (isSkipped lineEnds) reader.ahead reader.faults = start)
    (stands : start.char? = some char) : scanNext size lineEnds reader =
      scanAt size lineEnds start char := by
  unfold scanNext
  rw [skipped]
  dsimp only
  rw [stands]

theorem scanNext_of_not_isSkipped {glyph : Glyph} {ahead : List Glyph}
    (stops : isSkipped lineEnds glyph.char = false) :
    scanNext size lineEnds ⟨glyph :: ahead, []⟩ =
      scanAt size lineEnds ⟨glyph :: ahead, []⟩ glyph.char := by
  refine scanNext_of_char? ?_ rfl
  rw [Reader.skipWhile, stops]
  rfl

/-- The marks that start a lexeme start no name. -/
theorem not_isNameStart_mark :
    isNameStart ',' = false ∧ isNameStart ';' = false ∧ isNameStart '/' = false ∧
    isNameStart '"' = false := by
  unfold isNameStart Text.isLetter
  decide +kernel

/-- A text without faults is scanned to its end, or up to a comment that goes on to the end, in the
same way wherever it stands. -/
theorem exists_scans (fit : Fit reader.ahead) (silent : reader.faults = []) (tight : Tight reader.ahead)
    (faultless : ∀ lexeme ∈ scanAll size lineEnds reader, lexeme.faults = []) :
    ∃ lexemes last stop, Scans size lineEnds reader lexemes last stop ∧ stop.faults = [] ∧
      stop.Follows reader ∧ (stop.ahead = [] ∨ OpensComment size last stop) ∧
      ∀ sequel : Sequel, sequel.size = size → Scans sequel.whole lineEnds (reader.before sequel)
        (lexemes.map (moved sequel.distance)) last (stop.before sequel) := by
  -- The induction is on what is left, counted as the fuel of a scan is.
  generalize isMeasure : 2 * reader.ahead.length + lineEnds.toNat = measure
  induction measure using Nat.strongRecOn generalizing lineEnds reader with
  | ind measure ih =>
  have stay (finished : reader.ahead = [] ∨ OpensComment size lineEnds reader) :
      ∃ lexemes last stop, Scans size lineEnds reader lexemes last stop ∧ stop.faults = [] ∧
        stop.Follows reader ∧ (stop.ahead = [] ∨ OpensComment size last stop) ∧
        ∀ sequel : Sequel, sequel.size = size → Scans sequel.whole lineEnds (reader.before sequel)
          (lexemes.map (moved sequel.distance)) last (stop.before sequel) :=
    ⟨[], lineEnds, reader, .none _ _, silent, .refl _, finished, fun _ _ => .none _ _⟩
  by_cases none : reader.ahead = []
  · exact stay (.inl none)
  · rcases @Tight.skipWhile lineEnds _ tight none reader.faults with ⟨char, stands⟩
    by_cases opens : OpensComment size lineEnds reader
    · exact stay (.inr opens)
    · have notEnd : (scanNext size lineEnds reader).lexeme.token ≠ .eof := by
        rw [scanNext_of_char? rfl stands]
        exact (scanAt_takes _ _ stands).notEnd
      have fewer := scanNext_shrinks notEnd
      have follows := scanNext_follows size lineEnds reader
      rw [scanAll_of_ne_eof notEnd, forall_mem_cons, forall_mem_append] at faultless
      rcases ih _ (isMeasure ▸ fewer) (fit.of_suffix follows) (scanNext_silent _ _ _)
        (tight.of_suffix follows)
        faultless.2.2 rfl with ⟨lexemes, last, stop, scans, quiet, later, finished, anywhere⟩
      refine ⟨_, last, stop, .step notEnd scans, quiet, later.trans follows, finished,
        fun sequel isSize => ?_⟩
      subst isSize
      have same := before_scanNext sequel fit rfl stands faultless.1 fun isLine atEnd =>
        opens ⟨isLine, atEnd⟩
      have notEndToo : (scanNext sequel.whole lineEnds (reader.before sequel)).lexeme.token ≠ .eof := by
        rw [same]
        exact notEnd
      have restToo : Scans sequel.whole (scanNext sequel.whole lineEnds (reader.before sequel)).lineEnds
          (scanNext sequel.whole lineEnds (reader.before sequel)).reader
            (lexemes.map (moved sequel.distance))
          last (stop.before sequel) := by
        rw [same]
        exact anywhere sequel rfl
      have step := Scans.step notEndToo restToo
      rw [same, moved_inserted] at step
      rw [map_cons, map_append]
      exact step

end Lexeme
end Source
end CaseExpansion
