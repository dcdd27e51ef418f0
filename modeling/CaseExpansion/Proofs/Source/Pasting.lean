import CaseExpansion.Proofs.Source.Faults
import CaseExpansion.Proofs.Text.Cutting

namespace CaseExpansion

open List
open Text (Glyph)

/-!
# Reading a text that stands in a longer one

A text has the same lexemes wherever it stands, as long as something follows it that
no lexeme goes on with: white space, a comma or a semicolon.  The end of the text is as
good as any of these, but for lexemes that have not come to their end when the text does.
Of those, only comments up to the end of a line are no fault.

`Sequel` is what follows the text in the longer one.  Every part of the scanner is shown to
read the same there as it reads at the end of the text; offsets move along with the text.
-/

namespace Source

/-- The fault, further on in a text. -/
def Fault.moved (distance : Nat) (fault : Fault) : Fault :=
  { fault with offset := fault.offset + distance }

/-- Whether no lexeme goes on with a character. -/
def isStop (char : Char) : Bool :=
  Text.isBlank char || char == ',' || char == ';'

variable {char : Char}

theorem toNat_mem_of_isStop (stops : isStop char = true) :
    char.toNat ∈ 0x2C :: 0x3B :: Text.blankCodes := by
  simp only [isStop, Bool.or_eq_true, beq_iff_eq] at stops
  rcases stops with (blank | rfl) | rfl
  · exact mem_cons_of_mem _ (mem_cons_of_mem _ (Text.toNat_mem_blankCodes blank))
  · decide
  · decide

theorem stops_of_mem : ∀ code ∈ 0x2C :: 0x3B :: Text.blankCodes,
    Lexeme.isNamePart (Char.ofNat code) = false ∧ NumberScan.isDecimal (Char.ofNat code) = false ∧
      NumberScan.isHexadecimal (Char.ofNat code) = false ∧
      NumberScan.lowered (Char.ofNat code) = Char.ofNat code := by
  unfold Lexeme.isNamePart Lexeme.isNameStart Text.isLetter Text.isDecimalDigit
  decide +kernel

theorem not_part_of_isStop (stops : isStop char = true) :
    Lexeme.isNamePart char = false ∧ NumberScan.isDecimal char = false ∧
      NumberScan.isHexadecimal char = false ∧ NumberScan.lowered char = char := by
  rw [← Char.ofNat_toNat char]
  exact stops_of_mem _ (toNat_mem_of_isStop stops)

/-- All glyphs may stand inside of a source text. -/
def Fit (glyphs : List Glyph) : Prop :=
  ∀ glyph ∈ glyphs, isUnfit glyph = false

theorem Fit.tail {glyph : Glyph} {glyphs : List Glyph} (fit : Fit (glyph :: glyphs)) : Fit glyphs :=
  fun other member => fit other (mem_cons_of_mem _ member)

theorem Fit.of_suffix {glyphs later : List Glyph} (fit : Fit glyphs) (suffix : later <:+ glyphs) :
    Fit later :=
  fun glyph member => fit glyph (suffix.subset member)

theorem glyphFault?_of_fit {glyph : Glyph} (fit : isUnfit glyph = false) : glyphFault? glyph = none := by
  simp only [isUnfit, Bool.or_eq_false_iff, beq_eq_false_iff_ne] at fit
  rw [glyphFault?, if_neg fit.1.1, if_neg (by rw [fit.1.2]; decide), if_neg]
  rw [Bool.and_eq_true, decide_eq_true_eq]
  exact fun isMark => fit.2 isMark.1

theorem Reader.arrive_of_fit {ahead : List Glyph} (fit : Fit ahead) (faults : List Fault) :
    arrive ahead faults = faults := by
  cases ahead with
  | nil => rfl
  | cons glyph ahead =>
    have none := glyphFault?_of_fit (fit glyph mem_cons_self)
    simp only [arrive, head?_cons, Option.bind_some, none]

theorem Reader.advance_of_fit {ahead : List Glyph} (fit : Fit ahead) (glyph : Glyph) :
    advance ⟨glyph :: ahead, []⟩ = ⟨ahead, []⟩ :=
  congrArg _ (arrive_of_fit fit _)

/-- A text of some size stands in a longer one, some distance from its start, and is followed by
a stop and other glyphs. -/
structure Sequel where
  size : Nat
  distance : Nat
  whole : Nat
  stop : Glyph
  later : List Glyph
  place : stop.offset = size + distance
  isStop : isStop stop.char = true
  fit : isUnfit stop = false

/-- The glyphs after the text. -/
def Sequel.rest (sequel : Sequel) : List Glyph :=
  sequel.stop :: sequel.later

theorem Sequel.stop_ne (sequel : Sequel) (isNone : Source.isStop char = false) :
    sequel.stop.char ≠ char := by
  intro same
  rw [← same, sequel.isStop] at isNone
  cases isNone

/-! ## Readers -/

namespace Reader

/-- The reader at the same place of the longer text. -/
def before (sequel : Sequel) (reader : Reader) : Reader where
  ahead := reader.ahead.map (Glyph.moved sequel.distance) ++ sequel.rest
  faults := reader.faults.map (Fault.moved sequel.distance)

variable (sequel : Sequel)

theorem fit_before {ahead : List Glyph} (fit : Fit ahead) (faults : List Fault) :
    arrive (ahead.map (Glyph.moved sequel.distance) ++ sequel.rest) faults = faults := by
  cases ahead with
  | nil =>
    have none := glyphFault?_of_fit sequel.fit
    simp only [arrive, Sequel.rest, map_nil, nil_append, head?_cons, Option.bind_some, none]
  | cons glyph ahead =>
    have isFit : isUnfit (glyph.moved sequel.distance) = false := fit glyph mem_cons_self
    have none := glyphFault?_of_fit isFit
    simp only [arrive, map_cons, cons_append, head?_cons, Option.bind_some, none]

theorem before_ite {condition : Prop} [Decidable condition] (first second : Reader) :
    (if condition then first else second).before sequel =
      if condition then first.before sequel else second.before sequel :=
  apply_ite _ _ _ _

theorem before_report (reader : Reader) (offset : Nat) (defect : Defect) :
    (reader.before sequel).report (offset + sequel.distance) defect =
    (reader.report offset defect).before sequel :=
  rfl

theorem before_offset (reader : Reader) :
    (reader.before sequel).offset sequel.whole = reader.offset sequel.size + sequel.distance := by
  rcases reader with ⟨_ | ⟨glyph, ahead⟩, faults⟩
  · exact sequel.place
  · rfl

variable {char : Char} {reader : Reader}

theorem before_isAt (reader : Reader) (isNone : isStop char = false) :
    (reader.before sequel).isAt char = reader.isAt char := by
  rcases reader with ⟨_ | ⟨glyph, ahead⟩, faults⟩
  · exact beq_eq_false_iff_ne.mpr fun same => sequel.stop_ne isNone (Option.some.inj same)
  · rfl

theorem before_char? (stands : reader.char? = some char) : (reader.before sequel).char? = some char := by
  rcases reader with ⟨_ | ⟨glyph, ahead⟩, faults⟩
  · cases stands
  · exact stands

theorem before_char?_of_none (atEnd : reader.char? = none) :
    (reader.before sequel).char? = some sequel.stop.char := by
  rcases reader with ⟨_ | ⟨glyph, ahead⟩, faults⟩
  · rfl
  · cases atEnd

theorem before_advance (stands : reader.char? = some char) (fit : Fit reader.ahead) :
    (reader.before sequel).advance = reader.advance.before sequel := by
  rcases reader with ⟨_ | ⟨glyph, ahead⟩, faults⟩
  · cases stands
  · simp only [before, advance, map_cons, cons_append, arrive_of_fit fit.tail,
      fit_before sequel fit.tail]

theorem char?_of_isAt (stands : reader.isAt char = true) : reader.char? = some char :=
  eq_of_beq stands

theorem before_between {start stop : Reader} (follows : stop.Follows start) :
    between (start.before sequel) (stop.before sequel) = between start stop := by
  rcases follows with ⟨taken, ahead⟩
  have moved : (start.before sequel).ahead =
      taken.map (Glyph.moved sequel.distance) ++ (stop.before sequel).ahead := by
    simp only [before, ← ahead, map_append, append_assoc]
  rw [between_eq moved, between_eq ahead.symm, flatMap_map]
  rfl

/-- What is skipped in a text is skipped in the longer one.  Skipping ends at the stop, if it
does not end before. -/
theorem before_skipWhile {test : Char → Bool} {ahead : List Glyph} (fit : Fit ahead) (faults : List Fault)
    (ends : (skipWhile test ahead faults).ahead = [] → test sequel.stop.char = false) :
    skipWhile test (ahead.map (Glyph.moved sequel.distance) ++ sequel.rest)
        (faults.map (Fault.moved sequel.distance)) = (skipWhile test ahead faults).before sequel := by
  induction ahead with
  | nil =>
    rw [map_nil, nil_append, Sequel.rest, skipWhile, skipWhile, ends rfl]
    rfl
  | cons glyph ahead ih =>
    rw [skipWhile] at ends
    rw [map_cons, cons_append, skipWhile, skipWhile]
    change (if test glyph.char = true then _ else _) = _
    split
    next passes =>
      rw [if_pos passes, arrive_of_fit fit.tail] at ends
      rw [arrive_of_fit fit.tail, fit_before sequel fit.tail]
      exact ih fit.tail ends
    next => rfl

end Reader

open Reader

/-! ## Numbers -/

namespace NumberScan

/-- The run, further on in a text. -/
def Run.moved (distance : Nat) (run : Run) : Run :=
  { run with invalid? := run.invalid?.map (Glyph.moved distance) }

variable (sequel : Sequel)

/-- What was held and where the reader is, in the longer text. -/
def placed (found : Run × Reader) : Run × Reader :=
  (found.1.moved sequel.distance, found.2.before sequel)

theorem Run.moved_join (distance : Nat) (first second : Run) :
    (first.join second).moved distance = (first.moved distance).join (second.moved distance) := by
  simp only [Run.join, Run.moved, Option.map_or]

theorem before_takeDigits (radix : Radix) (run : Run) {ahead : List Glyph} (fit : Fit ahead)
    (faults : List Fault) :
    takeDigits radix (run.moved sequel.distance)
        (ahead.map (Glyph.moved sequel.distance) ++ sequel.rest)
        (faults.map (Fault.moved sequel.distance)) =
      placed sequel (takeDigits radix run ahead faults) := by
  induction ahead generalizing run with
  | nil =>
    have parts := not_part_of_isStop sequel.isStop
    have notSeparator := sequel.stop_ne (show isStop '_' = false by decide)
    simp only [map_nil, nil_append, Sequel.rest, takeDigits, notSeparator, if_false, parts.2.1,
      parts.2.2.1, Bool.and_false, Bool.or_false, Bool.false_eq_true]
    rfl
  | cons glyph ahead ih =>
    have arrived := fit_before sequel fit.tail (faults.map (Fault.moved sequel.distance))
    rw [map_cons, cons_append, takeDigits, takeDigits, arrived, arrive_of_fit fit.tail]
    dsimp only
    by_cases isSeparator : glyph.char = '_'
    · refine (if_pos isSeparator).trans ?_
      rw [if_pos isSeparator, ← ih _ fit.tail]
      rfl
    · refine (if_neg isSeparator).trans ?_
      rw [if_neg isSeparator]
      by_cases isDigit : (isDecimal glyph.char ||
        (radix = .hexadecimal && isHexadecimal glyph.char)) = true
      · refine (if_pos isDigit).trans ?_
        rw [if_pos isDigit, ← ih _ fit.tail]
        congr 1
        simp only [Run.moved, apply_ite (Option.map (Glyph.moved sequel.distance)), Option.map_or,
          Option.map_some]
        rfl
      · refine (if_neg isDigit).trans ?_
        rw [if_neg isDigit]
        rfl

variable {reader start : Reader}

theorem before_readRadix (fit : Fit reader.ahead) : readRadix (reader.before sequel) =
      Prod.map id (Prod.map id (placed sequel)) (readRadix reader) := by
  unfold readRadix
  rw [before_isAt sequel reader (by decide)]
  split
  next isZero =>
    have isFit := fit.of_suffix (Reader.Follows.refl reader).advance
    rw [before_advance sequel (char?_of_isAt isZero) fit]
    dsimp only
    cases stands : reader.advance.char? with
    | none =>
      -- The stop is no letter that announces a radix.
      rw [before_char?_of_none sequel stands, Option.map_some, (not_part_of_isStop sequel.isStop).2.2.2]
      split
      next isLetter => exact absurd (Option.some.inj isLetter) (sequel.stop_ne (by decide))
      next isLetter => exact absurd (Option.some.inj isLetter) (sequel.stop_ne (by decide))
      next isLetter => exact absurd (Option.some.inj isLetter) (sequel.stop_ne (by decide))
      next => rfl
    | some letter =>
      rw [before_char? sequel stands, before_advance sequel stands isFit]
      split <;> rfl
  next => rfl

theorem before_readExponent (radix : Radix) (announced : Announced) (token : Token) (run : Run)
    (fit : Fit reader.ahead) :
    readExponent sequel.whole radix announced token (run.moved sequel.distance) (reader.before sequel) =
      Prod.map id (placed sequel) (readExponent sequel.size radix announced token run reader) := by
  unfold readExponent
  cases stands : reader.char? with
  | none =>
    have none : ¬(decide (sequel.stop.char = 'e') || decide (sequel.stop.char = 'p')) = true := by
      rw [Bool.or_eq_true, decide_eq_true_eq, decide_eq_true_eq, not_or]
      exact ⟨sequel.stop_ne (by decide), sequel.stop_ne (by decide)⟩
    rw [before_char?_of_none sequel stands]
    dsimp only
    rw [(not_part_of_isStop sequel.isStop).2.2.2, if_neg none, before_offset, before_report]
    split <;> rfl
  | some letter =>
    rw [before_char? sequel stands]
    dsimp only
    rw [before_offset, before_report, before_report, ← before_ite,
      ← before_ite]
    generalize checkedRead : (if (decide (lowered letter = 'e') &&
      decide (announced = .letter)) = true then
      reader.report (reader.offset sequel.size) (.exponentNeedsDecimal letter)
      else if (decide (lowered letter = 'p') && !decide (radix = .hexadecimal)) = true then
        reader.report (reader.offset sequel.size) (.exponentNeedsHexadecimal letter) else reader) =
          checked
    have same : checked.ahead = reader.ahead := by
      rw [← checkedRead]
      split
      · rfl
      · split <;> rfl
    have standsToo : checked.char? = some letter := by rw [Reader.char?, same, ← stands, Reader.char?]
    have isFit : Fit checked.ahead := same ▸ fit
    have laterFit := isFit.of_suffix (Reader.Follows.refl checked).advance
    rw [before_advance sequel standsToo isFit, before_isAt sequel _ (by decide),
      before_isAt sequel _ (by decide)]
    generalize signedRead : (if (checked.advance.isAt '+' || checked.advance.isAt '-') = true then
      checked.advance.advance else checked.advance) = signed
    have beforeSigned : (if (checked.advance.isAt '+' || checked.advance.isAt '-') = true then
        (checked.advance.before sequel).advance else checked.advance.before sequel) =
          signed.before sequel := by
      rw [← signedRead]
      split
      next isSign =>
        rw [Bool.or_eq_true] at isSign
        rcases isSign with isSign | isSign
        · rw [before_advance sequel (char?_of_isAt isSign) laterFit]
        · rw [before_advance sequel (char?_of_isAt isSign) laterFit]
      next => rfl
    have signedFit : Fit signed.ahead := by
      refine laterFit.of_suffix ?_
      rw [← signedRead]
      exact Reader.Follows.ite (Reader.Follows.refl _).advance (Reader.Follows.refl _)
    rw [beforeSigned]
    have digits := before_takeDigits sequel .decimal {} signedFit signed.faults
    change takeDigits .decimal {} (signed.before sequel).ahead (signed.before sequel).faults = _ at digits
    rw [digits]
    generalize takeDigits .decimal {} signed.ahead signed.faults = taken
    split
    · refine Prod.ext rfl (Prod.ext (Run.moved_join _ _ _).symm ?_)
      dsimp only [placed, Prod.map]
      rw [before_offset, before_report, before_ite]
      rfl
    · rw [before_report]
      split <;> rfl

theorem before_fraction (radix : Radix) (announced : Announced) (run : Run) (fit : Fit reader.ahead) :
    fraction sequel.whole radix announced (run.moved sequel.distance) (reader.before sequel) =
      Prod.map id (placed sequel) (fraction sequel.size radix announced run reader) := by
  unfold fraction
  rw [before_isAt sequel reader (by decide)]
  split
  next isPoint =>
    dsimp only
    rw [before_offset, before_report, ← before_ite]
    generalize pointedRead : (if (decide (announced = .letter) &&
      decide (radix ≠ .hexadecimal)) = true then
      reader.report (reader.offset sequel.size) (.radixPoint radix) else reader) = pointed
    have same : pointed.ahead = reader.ahead := by
      rw [← pointedRead]
      split <;> rfl
    have stands : pointed.char? = some '.' := by
      rw [Reader.char?, same]
      exact char?_of_isAt isPoint
    have isFit : Fit pointed.ahead := same ▸ fit
    rw [before_advance sequel stands isFit]
    exact congrArg (Prod.mk Token.float) (before_takeDigits sequel radix run
      (isFit.of_suffix (Reader.Follows.refl pointed).advance) pointed.advance.faults)
  next => rfl

theorem before_scale (radix : Radix) (announced : Announced) {found : Token × Run × Reader}
    (fit : Fit found.2.2.ahead) :
    scale sequel.whole radix announced (Prod.map id (placed sequel) found) =
      Prod.map id (placed sequel) (scale sequel.size radix announced found) := by
  rcases found with ⟨token, run, reader⟩
  unfold scale
  dsimp only [Prod.map, id, placed]
  rw [before_offset, before_report]
  change readExponent _ _ _ _ _ (if run.digits = true then _ else _) = _
  rw [← before_ite]
  refine before_readExponent sequel radix announced token run ?_
  split
  · exact fit
  · exact fit

theorem before_checkDigits (radix : Radix) (token : Token) (run : Run) (reader : Reader) :
    checkDigits radix token (run.moved sequel.distance) (reader.before sequel) =
      (checkDigits radix token run reader).before sequel := by
  unfold checkDigits
  cases blamed : run.invalid? with
  | none => simp only [Run.moved, blamed, Option.map_none]
  | some glyph =>
    simp only [Run.moved, blamed, Option.map_some]
    cases token <;> rfl

theorem before_checkSeparators (begins : Nat) (run : Run) (follows : reader.Follows start) :
    checkSeparators (begins + sequel.distance) (start.before sequel) (run.moved sequel.distance)
        (reader.before sequel) = (checkSeparators begins start run reader).before sequel := by
  unfold checkSeparators
  rw [before_between sequel follows]
  dsimp only [Run.moved]
  cases run.separators with
  | false => rfl
  | true =>
    cases misplacedSeparator? (Text.Utf8.chars (Reader.between start reader)) with
    | none => rfl
    | some index =>
      dsimp only
      rw [Nat.add_right_comm, before_report]

theorem before_verify (begins : Nat) (radix : Radix) {found : Token × Run × Reader}
    (fit : Fit start.ahead) (follows : found.2.2.Follows start) :
    verify (begins + sequel.distance) (start.before sequel) radix (Prod.map id (placed sequel) found) =
      Prod.map id (Reader.before sequel) (verify begins start radix found) := by
  rcases found with ⟨token, run, reader⟩
  dsimp only at follows
  unfold verify
  dsimp only [Prod.map, placed, id]
  rw [before_isAt sequel reader (by decide)]
  have beforeUnit : (if reader.isAt 'i' = true then (Token.imag, (reader.before sequel).advance)
      else (token, reader.before sequel)) = Prod.map id (Reader.before sequel)
        (if reader.isAt 'i' = true then (Token.imag, reader.advance) else (token, reader)) := by
    split
    next isUnit =>
      rw [before_advance sequel (char?_of_isAt isUnit) (fit.of_suffix follows)]
      rfl
    next => rfl
  have unitFollows : (if reader.isAt 'i' = true then (Token.imag, reader.advance)
      else (token, reader)).2.Follows start := by
    split
    · exact follows.advance
    · exact follows
  rw [beforeUnit]
  generalize (if reader.isAt 'i' = true then (Token.imag, reader.advance) else (token, reader)) = unit
    at unitFollows
  rcases unit with ⟨kind, last⟩
  have checkedFollows : (checkDigits radix kind run last).Follows start := by
    unfold checkDigits
    split <;> exact unitFollows
  exact congrArg (Prod.mk kind) ((congrArg _ (before_checkDigits sequel radix kind run last)).trans
    (before_checkSeparators sequel begins run checkedFollows))

theorem before_complete (radix : Radix) (announced : Announced) {further : Bool} {found : Run × Reader}
    (fit : Fit start.ahead) (reads : Reads sequel.size start further found)
    (isFurther : further = true ∨ found.2.isAt '.' = true) :
    complete sequel.whole (start.before sequel) radix announced (placed sequel found) =
      Prod.map id (Reader.before sequel) (complete sequel.size start radix announced found) := by
  have fractionReads := fraction_reads radix announced reads isFurther
  unfold complete
  dsimp only [placed]
  rw [before_offset, before_fraction sequel radix announced _ (fit.of_suffix reads.moves.follows),
    before_scale sequel radix announced (fit.of_suffix fractionReads.moves.follows)]
  exact before_verify sequel _ radix fit (scale_reads radix announced fractionReads).moves.follows

theorem before_integral (fit : Fit start.ahead) :
    integral (start.before sequel) = placed sequel (integral start) := by
  have follows : (readRadix start).2.2.2.Follows start := by
    by_cases isZero : start.isAt '0' = true
    · exact (@readRadix_reads sequel.size start true start false .refl isZero).moves.follows
    · rw [readRadix, if_neg isZero]
      exact Reader.Follows.refl start
  unfold integral
  rw [before_readRadix sequel fit]
  exact before_takeDigits sequel _ _ (fit.of_suffix follows) _

/-- A number reads the same at the end of a text and before a stop. -/
theorem before_read {char : Char} (fit : Fit start.ahead) (stands : start.char? = some char)
    (isNumber : isDecimal char = true ∨ char = '.') : read sequel.whole (start.before sequel) =
      Prod.map id (Reader.before sequel) (read sequel.size start) := by
  rw [read_eq, read_eq, before_isAt sequel start (by decide)]
  split
  next isPoint =>
    have nothing : Reads sequel.size start false ({}, start) := .start .refl _ _
    have unread : ({}, start.before sequel) = placed sequel ({}, start) := rfl
    rw [unread]
    exact before_complete sequel _ _ fit nothing (.inr isPoint)
  next notPoint =>
    rw [before_integral sequel fit, before_readRadix sequel fit]
    exact before_complete sequel _ _ fit
      (integral_reads stands (digit_of_notPoint stands isNumber notPoint)) (.inl rfl)

end NumberScan

/-! ## Literals and comments -/

/-- The escape, further on in a text. -/
def Escape.moved (distance : Nat) : Escape → Escape
  | idle => idle
  | opened => opened
  | digits start left base value limit => digits (start + distance) left base value limit

/-- What a glyph does to an escape, further on in a text. -/
def Escape.Fed.moved (distance : Nat) : Escape.Fed → Escape.Fed
  | taken next fault? => taken (next.moved distance) (fault?.map (Fault.moved distance))
  | broken fault => broken (fault.moved distance)

theorem Escape.moved_eq_idle {distance : Nat} {escape : Escape} : escape.moved distance = .idle ↔
      escape = .idle := by
  cases escape <;> simp [Escape.moved]

theorem Escape.moved_feedDigit (distance start left base value limit : Nat) (glyph : Glyph) :
    feedDigit (start + distance) left base value limit (glyph.moved distance) =
      (feedDigit start left base value limit glyph).moved distance := by
  unfold feedDigit
  dsimp only [Glyph.moved]
  split
  · rfl
  · split
    · split <;> rfl
    · split <;> rfl
    · rfl

theorem Escape.moved_feed (distance : Nat) (mark : Char) (glyph : Glyph) (escape : Escape) :
    feed mark (glyph.moved distance) (escape.moved distance) =
      (feed mark glyph escape).moved distance := by
  cases escape with
  | idle => rfl
  | opened =>
    simp only [moved, feed, apply_ite (Fed.moved distance), ← moved_feedDigit]
    rfl
  | digits start left base value limit => exact moved_feedDigit distance start left base value limit glyph

namespace LiteralScan

variable (sequel : Sequel)

/-- How reading a literal ended, in the longer text. -/
def Outcome.before (outcome : Outcome) : Outcome :=
  { outcome with reader := outcome.reader.before sequel }

variable {ahead : List Glyph} {start : Nat} {reader : Reader}

/-- A literal that is closed reads the same wherever it stands. -/
theorem before_body (mark : Char) (escape : Escape) (count : Nat) (valid : Bool) (fit : Fit ahead)
    (faults : List Fault)
    (closed : (body sequel.size mark escape count valid ahead faults).closed = true) :
    body sequel.whole mark (escape.moved sequel.distance) count valid
        (ahead.map (Glyph.moved sequel.distance) ++ sequel.rest)
        (faults.map (Fault.moved sequel.distance)) =
      (body sequel.size mark escape count valid ahead faults).before sequel := by
  induction ahead generalizing escape count valid faults with
  | nil =>
    rw [body] at closed
    split at closed <;> cases closed
  | cons glyph ahead ih =>
    have arrived (faults : List Fault) := fit_before sequel fit.tail faults
    have here (faults : List Fault) := arrive_of_fit fit.tail faults
    have plain (valid : Bool) (faults : List Fault)
        (closed : (unescaped sequel.size mark count valid glyph ahead faults).closed = true) :
        unescaped sequel.whole mark count valid (glyph.moved sequel.distance)
            (ahead.map (Glyph.moved sequel.distance) ++ sequel.rest)
              (faults.map (Fault.moved sequel.distance)) =
          (unescaped sequel.size mark count valid glyph ahead faults).before sequel := by
      have same : (glyph.moved sequel.distance).char = glyph.char := rfl
      simp only [unescaped, same, here, arrived] at closed ⊢
      by_cases isEnd : glyph.char = '\n'
      · rw [if_pos isEnd, if_pos isEnd]
        rfl
      · rw [if_neg isEnd] at closed ⊢
        by_cases isMark : glyph.char = mark
        · rw [if_pos isMark, if_neg isEnd, if_pos isMark]
          rfl
        · rw [if_neg isMark] at closed ⊢
          rw [if_neg isEnd, if_neg isMark, ← ih _ _ _ fit.tail _ closed]
          split <;> rfl
    rw [body] at closed
    rw [map_cons, cons_append, body, body]
    simp only [Escape.moved_eq_idle, Escape.moved_feed] at closed ⊢
    split
    next isIdle =>
      rw [if_pos isIdle] at closed
      exact plain valid faults closed
    next isInside =>
      rw [if_neg isInside] at closed
      generalize escape.feed mark glyph = fed at closed ⊢
      cases fed with
      | taken next fault? =>
        simp only [Escape.Fed.moved, arrived, here] at closed ⊢
        cases fault? with
        | none => exact ih _ _ _ fit.tail _ closed
        | some fault => exact ih _ _ _ fit.tail (fault :: faults) closed
      | broken fault => exact plain false (fault :: faults) closed

theorem valid_of_silent {size : Nat} {mark : Char} {escape : Escape} {count : Nat} {valid : Bool}
    {faults : List Fault} (fit : Fit ahead)
    (silent : (body size mark escape count valid ahead faults).reader.faults = []) :
    faults = [] ∧ (body size mark escape count valid ahead faults).valid = valid := by
  induction ahead generalizing escape count valid faults with
  | nil =>
    rw [body] at silent ⊢
    split
    next isIdle =>
      rw [if_pos isIdle] at silent
      exact ⟨silent, rfl⟩
    next isInside =>
      rw [if_neg isInside] at silent
      cases silent
  | cons glyph ahead ih =>
    have here (faults : List Fault) := arrive_of_fit fit.tail faults
    have plain (valid : Bool) (faults : List Fault)
        (silent : (unescaped size mark count valid glyph ahead faults).reader.faults = []) :
        faults = [] ∧ (unescaped size mark count valid glyph ahead faults).valid = valid := by
      simp only [unescaped, here] at silent ⊢
      split
      next isEnd =>
        rw [if_pos isEnd] at silent
        exact ⟨silent, rfl⟩
      next notEnd =>
        rw [if_neg notEnd] at silent
        split
        next isMark =>
          rw [if_pos isMark] at silent
          exact ⟨silent, rfl⟩
        next notMark =>
          rw [if_neg notMark] at silent
          exact ih fit.tail silent
    rw [body] at silent ⊢
    split
    next isIdle =>
      rw [if_pos isIdle] at silent
      exact plain valid faults silent
    next isInside =>
      rw [if_neg isInside] at silent
      cases fed : escape.feed mark glyph with
      | taken next fault? =>
        cases fault? with
        | none =>
          simp only [fed, here] at silent ⊢
          exact ih fit.tail silent
        | some fault =>
          simp only [fed, here] at silent
          cases (ih fit.tail silent).1
      | broken fault =>
        simp only [fed] at silent
        cases (plain false (fault :: faults) silent).1

theorem before_string (fit : Fit reader.ahead) (silent : (string sequel.size start reader).faults = []) :
    string sequel.whole (start + sequel.distance) (reader.before sequel) =
      (string sequel.size start reader).before sequel := by
  have same := before_body sequel '"' .idle 0 true fit reader.faults
  change _ → body sequel.whole '"' .idle 0 true (reader.before sequel).ahead
    (reader.before sequel).faults = _ at same
  unfold string at silent ⊢
  generalize body sequel.size '"' .idle 0 true reader.ahead reader.faults = outcome at silent same ⊢
  rcases outcome with ⟨last, count, valid, _ | _⟩
  · cases silent
  · rw [same rfl]
    rfl

theorem before_rune (fit : Fit reader.ahead) (silent : (rune sequel.size start reader).faults = []) :
    rune sequel.whole (start + sequel.distance) (reader.before sequel) =
      (rune sequel.size start reader).before sequel := by
  have same := before_body sequel '\'' .idle 0 true fit reader.faults
  change _ → body sequel.whole '\'' .idle 0 true (reader.before sequel).ahead
    (reader.before sequel).faults = _ at same
  have isValid (quiet : (body sequel.size '\'' .idle 0 true reader.ahead
      reader.faults).reader.faults = []) :=
    (valid_of_silent fit quiet).2
  unfold rune at silent ⊢
  generalize body sequel.size '\'' .idle 0 true reader.ahead reader.faults =
    outcome at silent same isValid ⊢
  rcases outcome with ⟨last, count, _ | _, _ | _⟩
  · cases isValid silent
  · cases isValid silent
  · cases silent
  · rw [same rfl]
    change (if count ≠ 1 then (last.before sequel).report _ _ else last.before sequel) =
      Reader.before sequel (if count ≠ 1 then _ else last)
    rw [before_report, before_ite]

theorem before_rawString (fit : Fit reader.ahead) (silent : (rawString start reader).faults = []) :
    rawString (start + sequel.distance) (reader.before sequel) =
      (rawString start reader).before sequel := by
  unfold rawString at silent ⊢
  dsimp only at silent ⊢
  generalize skipped : Reader.skipWhile (fun char => decide (char ≠ '\x60')) reader.ahead
    reader.faults = last
    at silent ⊢
  have suffix := skipWhile_suffix (fun char => decide (char ≠ '\x60')) reader.ahead reader.faults
  rw [skipped] at suffix
  have same : Reader.skipWhile (fun char => decide (char ≠ '\x60')) (reader.before sequel).ahead
      (reader.before sequel).faults = last.before sequel := by
    rw [← skipped]
    refine before_skipWhile sequel fit reader.faults ?_
    rw [skipped]
    intro atEnd
    rw [atEnd] at silent
    cases silent
  rw [same]
  cases ahead : last.ahead with
  | nil =>
    rw [ahead] at silent
    cases silent
  | cons glyph rest =>
    have stands : last.char? = some glyph.char := by rw [Reader.char?, ahead]; rfl
    have some : (last.before sequel).ahead.isEmpty = false := by rw [Reader.before, ahead]; rfl
    rw [some, isEmpty_cons]
    exact before_advance sequel stands (fit.of_suffix suffix)

theorem before_blockComment (newline? : Option Nat) (fit : Fit ahead) (faults : List Fault)
    (closed : (blockComment newline? ahead faults).2.1 = true) :
    blockComment (newline?.map (· + sequel.distance))
      (ahead.map (Glyph.moved sequel.distance) ++ sequel.rest)
        (faults.map (Fault.moved sequel.distance)) =
      ((blockComment newline? ahead faults).1.before sequel, true,
        (blockComment newline? ahead faults).2.2.map (· + sequel.distance)) := by
  induction ahead generalizing newline? faults with
  | nil => cases closed
  | cons glyph ahead ih =>
    cases ahead with
    | nil => cases closed
    | cons second ahead =>
      have arrived := fit_before sequel fit.tail
      have arrivedLater := fit_before sequel fit.tail.tail
      have isNewline : (if (glyph.moved sequel.distance).char = '\n' then
          (newline?.map (· + sequel.distance)).or (some (glyph.moved sequel.distance).offset)
            else newline?.map (· + sequel.distance)) =
          (if glyph.char = '\n' then newline?.or (some glyph.offset) else newline?).map
            (· + sequel.distance) := by
        rw [apply_ite (Option.map _), Option.map_or, Option.map_some]
        rfl
      rw [map_cons, cons_append] at arrived ⊢
      rw [map_cons, cons_append, blockComment, blockComment]
      rw [blockComment] at closed
      simp only [arrived, arrivedLater, arrive_of_fit fit.tail, arrive_of_fit fit.tail.tail,
        isNewline] at closed ⊢
      by_cases isEnd : (glyph.char = '*' && second.char = '/') = true
      · refine (if_pos isEnd).trans ?_
        rw [if_pos isEnd]
        rfl
      · rw [if_neg isEnd] at closed
        refine (if_neg isEnd).trans ?_
        rw [if_neg isEnd]
        exact ih _ fit.tail faults closed

end LiteralScan

/-! ## Lexemes -/

/-- Whether a comment starts where the reader stands that goes on to the end of the line. -/
def Reader.isAtLineComment (reader : Reader) : Bool :=
  reader.isAt '/' && reader.second? == some '/'

namespace Lexeme

/-- The lexeme, further on in a text. -/
def moved (distance : Nat) (lexeme : Lexeme) : Lexeme :=
  { lexeme with
    offset := lexeme.offset + distance
    stop := lexeme.stop + distance
    faults := lexeme.faults.map (Fault.moved distance) }

/-- The step of a scan, in the longer text. -/
def Step.before (sequel : Sequel) (step : Step) : Step where
  lexeme := step.lexeme.moved sequel.distance
  reader := step.reader.before sequel
  lineEnds := step.lineEnds
  newline? := step.newline?.map (· + sequel.distance)

variable (sequel : Sequel)

theorem before_finish (start reader : Reader) (token : Token) (literal : Bytes) (lineEnds : Bool)
    (newline? : Option Nat) :
    finish sequel.whole (start.before sequel) (reader.before sequel) token literal lineEnds
        (newline?.map (· + sequel.distance)) =
      (finish sequel.size start reader token literal lineEnds newline?).before sequel := by
  unfold finish Step.before moved
  rw [before_offset, before_offset, map_reverse]
  rfl

variable {start reader : Reader} {lineEnds : Bool} {char : Char}

theorem silent_of_finish {size : Nat} {token : Token} {literal : Bytes} {newline? : Option Nat}
    (silent : (finish size start reader token literal lineEnds newline?).lexeme.faults = []) :
    reader.faults = [] :=
  reverse_eq_nil_iff.mp silent

theorem before_scanComment {further : Bool} (fit : Fit start.ahead)
    (moves : start.Moves sequel.size further reader) (stands : reader.char? = some char)
    (silent : (scanComment sequel.size lineEnds start reader).lexeme.faults = [])
    (ends : reader.isAt '/' = true → (scanComment sequel.size lineEnds start reader).reader.ahead ≠ []) :
    scanComment sequel.whole lineEnds (start.before sequel) (reader.before sequel) =
      (scanComment sequel.size lineEnds start reader).before sequel := by
  have isFit := fit.of_suffix moves.follows
  unfold scanComment at silent ends ⊢
  rw [before_isAt sequel reader (by decide)]
  split
  next isLine =>
    rw [if_pos isLine] at ends
    have skipped : Reader.skipWhile (fun char => decide (char ≠ '\n')) (reader.before sequel).ahead
        (reader.before sequel).faults =
        (Reader.skipWhile (fun char => decide (char ≠ '\n')) reader.ahead reader.faults).before sequel :=
      before_skipWhile sequel isFit reader.faults fun atEnd => absurd atEnd (ends isLine)
    dsimp only
    rw [skipped, before_between sequel (Reader.skipWhile_moves _ moves).follows]
    exact before_finish sequel _ _ _ _ _ none
  next isGeneral =>
    rw [if_neg isGeneral] at silent
    have same := LiteralScan.before_blockComment sequel none
      (isFit.of_suffix (Reader.Follows.refl reader).advance) reader.advance.faults
    change _ → LiteralScan.blockComment none (reader.advance.before sequel).ahead
      (reader.advance.before sequel).faults = _ at same
    have bodyFollows : (LiteralScan.blockComment none reader.advance.ahead
        reader.advance.faults).1.Follows start :=
      (LiteralScan.blockComment_moves moves.next fun _ found =>
        absurd found (Option.not_mem_none _)).1.follows
    rw [before_advance sequel stands isFit]
    dsimp only at silent ⊢
    generalize LiteralScan.blockComment none reader.advance.ahead reader.advance.faults = outcome
      at silent same bodyFollows ⊢
    rcases outcome with ⟨last, _ | _, newline?⟩
    · cases silent_of_finish silent
    · rw [same rfl]
      dsimp only at bodyFollows ⊢
      rw [if_pos rfl, if_pos rfl, before_between sequel bodyFollows]
      cases lineEnds with
      | false => exact before_finish sequel _ _ _ _ _ none
      | true =>
        simp only [if_true, Option.isNone_map]
        exact before_finish sequel _ _ _ _ _ newline?

theorem before_takeAll? {chars : List Char} (noStops : ∀ char ∈ chars, isStop char = false)
    (fit : Fit reader.ahead) :
    takeAll? chars (reader.before sequel) = (takeAll? chars reader).map (Reader.before sequel) := by
  induction chars generalizing reader with
  | nil => rfl
  | cons char chars ih =>
    rw [takeAll?, takeAll?, before_isAt sequel reader (noStops char mem_cons_self)]
    split
    next isChar =>
      rw [before_advance sequel (char?_of_isAt isChar) fit]
      exact ih (fun other member => noStops other (mem_cons_of_mem _ member))
        (fit.of_suffix (Reader.Follows.refl reader).advance)
    next => rfl

theorem before_operator? (char : Char) (fit : Fit reader.ahead) : operator? char (reader.before sequel) =
      (operator? char reader).map (Prod.map id (Reader.before sequel)) := by
  have table : ∀ entry ∈ operatorTable, ∀ choice ∈ entry.2, ∀ char ∈ choice.1, isStop char = false := by
    have tested : (operatorTable.all fun entry => entry.2.all fun choice => choice.1.all fun char =>
        !isStop char) = true := by
      decide +kernel
    simpa only [all_eq_true, Bool.not_eq_true'] using tested
  unfold operator?
  cases found : operatorTable.lookup char with
  | none => rfl
  | some choices =>
    have noStops := table _ (mem_of_lookup found)
    simp only [Option.bind_eq_bind, Option.bind_some]
    clear found
    induction choices with
    | nil => rfl
    | cons choice choices ih =>
      rw [forall_mem_cons] at noStops
      rw [findSome?_cons, findSome?_cons, before_takeAll? sequel noStops.1 fit, ih noStops.2]
      cases takeAll? choice.1 reader <;> rfl

theorem before_scanIllegal (lineEnds : Bool) (start reader : Reader) (char : Char) :
    scanIllegal sequel.whole lineEnds (start.before sequel) (reader.before sequel) char =
      (scanIllegal sequel.size lineEnds start reader char).before sequel := by
  unfold scanIllegal
  dsimp only
  rw [before_offset, before_report, before_report, ← before_ite, ← before_ite]
  exact before_finish sequel _ _ _ _ _ none

/-- A lexeme is read the same at the end of a text and before a stop, unless it is a comment that
goes on to the end of the line. -/
theorem before_scanAt (fit : Fit start.ahead) (stands : start.char? = some char)
    (silent : (scanAt sequel.size lineEnds start char).lexeme.faults = [])
    (ends : start.isAtLineComment = true → (scanAt sequel.size lineEnds start char).reader.ahead ≠ []) :
    scanAt sequel.whole lineEnds (start.before sequel) char =
      (scanAt sequel.size lineEnds start char).before sequel := by
  have laterFit := fit.of_suffix (Reader.Follows.refl start).advance
  have once : start.Moves sequel.size true start.advance := .advance .refl
  have here : start.Inside sequel.size (start.offset sequel.size) := Reader.Within.le_size
  have second : ((start.before sequel).second?.map NumberScan.isDecimal).getD false =
      (start.second?.map NumberScan.isDecimal).getD false := by
    rcases start with ⟨_ | ⟨glyph, _ | ⟨next, ahead⟩⟩, faults⟩
    · cases stands
    · exact (not_part_of_isStop sequel.isStop).2.1
    · rfl
  unfold scanAt at silent ends ⊢
  rw [second]
  split
  next isName =>
    have skipped : Reader.skipWhile isNamePart (start.before sequel).ahead (start.before sequel).faults =
        (Reader.skipWhile isNamePart start.ahead start.faults).before sequel :=
      before_skipWhile sequel fit start.faults fun _ => (not_part_of_isStop sequel.isStop).1
    dsimp only
    rw [skipped, before_between sequel (skipWhile_suffix _ _ _)]
    exact before_finish sequel _ _ _ _ _ none
  next notName =>
    rw [if_neg notName] at silent ends
    split
    next isNumber =>
      rw [Bool.or_eq_true, Bool.and_eq_true, decide_eq_true_eq] at isNumber
      have isNumber := isNumber.imp_right And.left
      have moves := @NumberScan.read_moves sequel.size char start stands isNumber
      rw [NumberScan.before_read sequel fit stands isNumber]
      generalize NumberScan.read sequel.size start = number at moves
      rcases number with ⟨token, last⟩
      dsimp only [Prod.map, id] at moves ⊢
      rw [before_between sequel moves.follows]
      exact before_finish sequel _ _ _ _ _ none
    next notNumber =>
      rw [if_neg notNumber] at silent ends
      dsimp only at silent ends ⊢
      rw [before_offset, before_advance sequel stands fit]
      split
      · exact before_finish sequel _ _ _ _ _ none
      next notBreak =>
        rw [if_neg notBreak] at silent ends
        split
        next isString =>
          rw [if_pos isString] at silent
          rw [LiteralScan.before_string sequel laterFit (silent_of_finish silent),
            before_between sequel (LiteralScan.string_moves once here).follows]
          exact before_finish sequel _ _ _ _ _ none
        next notString =>
          rw [if_neg notString] at silent ends
          split
          next isRune =>
            rw [if_pos isRune] at silent
            rw [LiteralScan.before_rune sequel laterFit (silent_of_finish silent),
              before_between sequel (LiteralScan.rune_moves once here).follows]
            exact before_finish sequel _ _ _ _ _ none
          next notRune =>
            rw [if_neg notRune] at silent ends
            split
            next isRaw =>
              rw [if_pos isRaw] at silent
              rw [LiteralScan.before_rawString sequel laterFit (silent_of_finish silent),
                before_between sequel (LiteralScan.rawString_moves once here).follows]
              exact before_finish sequel _ _ _ _ _ none
            next notRaw =>
              rw [if_neg notRaw] at silent ends
              rw [before_isAt sequel _ (by decide), before_isAt sequel _ (by decide)]
              split
              next isComment =>
                rw [if_pos isComment] at silent ends
                rw [Bool.and_eq_true, decide_eq_true_eq, Bool.or_eq_true] at isComment
                have standsLater : ∃ next, start.advance.char? = some next :=
                  isComment.2.elim (fun isAt => ⟨_, char?_of_isAt isAt⟩)
                    fun isAt => ⟨_, char?_of_isAt isAt⟩
                rcases standsLater with ⟨next, standsLater⟩
                refine before_scanComment sequel fit once standsLater silent fun isLine => ends ?_
                rcases start with ⟨_ | ⟨glyph, ahead⟩, faults⟩
                · cases stands
                · rw [Reader.isAtLineComment, Reader.isAt, stands, isComment.1]
                  exact isLine
              next notComment =>
                rw [before_operator? sequel char laterFit]
                cases operator? char start.advance with
                | none => exact before_scanIllegal sequel _ _ _ _
                | some found => exact before_finish sequel _ _ _ _ _ none

/-- A lexeme is found in the longer text where it is found in the text. -/
theorem before_scanNext (fit : Fit reader.ahead)
    (skipped : Reader.skipWhile (isSkipped lineEnds) reader.ahead reader.faults = start)
    (stands : start.char? = some char)
    (silent : (scanNext sequel.size lineEnds reader).lexeme.faults = [])
    (ends : start.isAtLineComment = true → (scanNext sequel.size lineEnds reader).reader.ahead ≠ []) :
    scanNext sequel.whole lineEnds (reader.before sequel) =
      (scanNext sequel.size lineEnds reader).before sequel := by
  have suffix := skipWhile_suffix (isSkipped lineEnds) reader.ahead reader.faults
  have skippedBefore : Reader.skipWhile (isSkipped lineEnds) (reader.before sequel).ahead
      (reader.before sequel).faults = start.before sequel := by
    rw [← skipped]
    refine before_skipWhile sequel fit reader.faults fun atEnd => ?_
    rw [skipped] at atEnd
    rw [Reader.char?, atEnd] at stands
    cases stands
  unfold scanNext at silent ends ⊢
  rw [skipped] at suffix silent ends ⊢
  rw [skippedBefore]
  dsimp only at silent ends ⊢
  rw [stands] at silent ends ⊢
  rw [before_char? sequel stands]
  exact before_scanAt sequel (fit.of_suffix suffix) stands silent ends

end Lexeme
end Source
end CaseExpansion
