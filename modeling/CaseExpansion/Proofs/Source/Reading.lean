import CaseExpansion.Proofs.Text.Bytes
import CaseExpansion.Proofs.Text.Glyphs
import CaseExpansion.Source.Lexeme.Scan

namespace CaseExpansion
namespace Source

open List
open Text (Glyph Tiles)

/-!
# Readers move on

Whatever a reader reads, it reads by moving on from glyph to glyph and by reporting faults on the
way (`Reader.Moves`).  This holds for every part of the scanner, down to the digits of a number and
the escapes of a string.  So what a reader has ahead afterwards is a suffix of what it had ahead
before, which is all that the order of lexemes depends on, and it has looked at every glyph between.
All faults are reported inside of the text, or at its end when something is missing there.
-/

/-- One reader stands where another one stands, or further on. -/
def Reader.Follows (later earlier : Reader) : Prop :=
  later.ahead <:+ earlier.ahead

namespace Reader

theorem advance_ahead (reader : Reader) : reader.advance.ahead = reader.ahead.tail := by
  rcases reader with ⟨_ | ⟨glyph, ahead⟩, faults⟩ <;> rfl

namespace Follows

theorem refl (reader : Reader) : reader.Follows reader :=
  suffix_refl _

theorem trans {first second third : Reader} (late : third.Follows second)
    (early : second.Follows first) : third.Follows first :=
  List.IsSuffix.trans late early

variable {earlier : Reader}

theorem ite {condition : Prop} [Decidable condition] {first second : Reader} (yes : first.Follows earlier)
    (no : second.Follows earlier) : (if condition then first else second).Follows earlier := by
  split
  · exact yes
  · exact no

theorem advance {later earlier : Reader} (follows : later.Follows earlier) :
    later.advance.Follows earlier := by
  rw [Follows, advance_ahead]
  exact (tail_suffix _).trans follows

theorem of_advance {later : Reader} (follows : later.Follows earlier.advance) : later.Follows earlier :=
  follows.trans (refl earlier).advance

/-- Readers that both move on keep their order. -/
theorem advance_advance {later : Reader} (follows : later.Follows earlier) :
    later.advance.Follows earlier.advance := by
  rw [Follows, advance_ahead, advance_ahead]
  rcases follows with ⟨taken, ahead⟩
  rw [← ahead]
  cases taken with
  | nil => exact suffix_refl _
  | cons glyph taken => exact (tail_suffix _).trans (suffix_append taken later.ahead)

end Follows

theorem ahead_of_char? {reader : Reader} {char : Char} (stands : reader.char? = some char) :
    ∃ glyph rest, reader.ahead = glyph :: rest ∧ glyph.char = char ∧ reader.advance.ahead = rest := by
  rcases reader with ⟨_ | ⟨glyph, rest⟩, faults⟩
  · cases stands
  · exact ⟨glyph, rest, rfl, Option.some.inj stands, rfl⟩

end Reader

/-! ## Readers in a text -/

/-- What a reader has ahead is the rest of a text of the given size. -/
structure Reader.Within (size : Nat) (reader : Reader) : Prop where
  tiles : Tiles (reader.offset size) reader.ahead size
  plain : ∀ glyph ∈ reader.ahead, glyph.Plain

namespace Reader

variable {size : Nat} {earlier later stop : Reader}

theorem Within.of_follows (within : earlier.Within size) (follows : later.Follows earlier) :
    later.Within size where
  tiles := (within.tiles.of_suffix follows).1
  plain glyph member := within.plain glyph (follows.subset member)

theorem Within.offset_le (within : earlier.Within size) (follows : later.Follows earlier) :
    earlier.offset size ≤ later.offset size :=
  (within.tiles.of_suffix follows).2

theorem Within.le_size {reader : Reader} (within : reader.Within size) : reader.offset size ≤ size :=
  within.tiles.le

/-- A reader that takes the character it stands on moves on in the text. -/
theorem Within.offset_lt {char : Char} (within : earlier.Within size) (stands : earlier.char? = some char)
    (follows : later.Follows earlier.advance) : earlier.offset size < later.offset size := by
  rcases ahead_of_char? stands with ⟨glyph, rest, ahead, _, advanced⟩
  have tiles := within.tiles
  rw [ahead] at tiles
  rw [Follows, advanced] at follows
  exact tiles.lt_of_suffix follows

theorem between_eq {start : Reader} {taken : List Glyph} (ahead : start.ahead = taken ++ stop.ahead) :
    between start stop = taken.flatMap Glyph.bytes := by
  rw [between, ahead, length_append, Nat.add_sub_cancel, take_left]

theorem Within.length_between {start : Reader} (within : start.Within size)
    (follows : stop.Follows start) :
    start.offset size + (between start stop).length = stop.offset size := by
  rcases follows with ⟨taken, ahead⟩
  have tiles := within.tiles
  rw [← ahead] at tiles
  rw [between_eq ahead.symm]
  exact tiles.append.offsetOf_eq.symm

/-- What is read from a character on starts with the bytes of its glyph. -/
theorem Within.between_of_advance {start : Reader} {char : Char} (within : start.Within size)
    (stands : start.char? = some char) (follows : stop.Follows start.advance) :
    ∃ first rest, between start stop = first :: rest ∧
      (first < 0x80 → char = Char.ofNat first.toNat) := by
  rcases ahead_of_char? stands with ⟨glyph, ahead, isAhead, same, advanced⟩
  rcases follows with ⟨taken, restAhead⟩
  have whole : start.ahead = (glyph :: taken) ++ stop.ahead := by
    rw [isAhead, ← advanced, ← restAhead, cons_append]
  have tiles := within.tiles
  have plain := within.plain
  rw [isAhead] at tiles plain
  rw [between_eq whole, flatMap_cons]
  cases bytes : glyph.bytes with
  | nil =>
    have width := tiles.2.1
    rw [bytes] at width
    cases width
  | cons first others =>
    refine ⟨first, _, cons_append, ?_⟩
    rw [← same]
    exact plain glyph mem_cons_self first others bytes

end Reader

/-! ## Moving on -/

/-- An offset in the text, if the reader stands in it. -/
def Reader.Inside (size : Nat) (origin : Reader) (offset : Nat) : Prop :=
  origin.Within size → offset ≤ size

/-- One reader comes from another by moving on and by reporting faults inside of the text.  If
`further` holds it has moved on at least once. -/
inductive Reader.Moves (size : Nat) (origin : Reader) : (further : Bool) → Reader → Prop where
  | refl : Moves size origin false origin
  | advance {before further : Bool} {later : Reader} :
      Moves size origin before later → Moves size origin further later.advance
  | report {further : Bool} {later : Reader} {fault : Fault} :
      Moves size origin further later → origin.Inside size fault.offset →
      Moves size origin further ⟨later.ahead, fault :: later.faults⟩

namespace Reader

variable {size : Nat} {origin later : Reader} {further : Bool}

namespace Moves

theorem follows (moves : origin.Moves size further later) : later.Follows origin := by
  induction moves with
  | refl => exact Follows.refl origin
  | advance _ ih => exact ih.advance
  | report _ _ ih => exact ih

theorem follows_advance (moves : origin.Moves size true later) : later.Follows origin.advance := by
  generalize isFurther : true = further at moves
  induction moves with
  | refl => cases isFurther
  | advance moves _ => exact moves.follows.advance_advance
  | report _ _ ih => exact ih isFurther

theorem offset_inside (moves : origin.Moves size further later) :
    origin.Inside size (later.offset size) :=
  fun within => (within.of_follows moves.follows).le_size

theorem next (moves : origin.Moves size further later) : origin.Moves size further later.advance :=
  moves.advance

theorem weaken (moves : origin.Moves size further later) : origin.Moves size false later := by
  induction moves with
  | refl => exact .refl
  | advance moves _ => exact .advance moves
  | report _ inside ih => exact ih.report inside

theorem trans {first second third : Reader} {before : Bool} (early : first.Moves size before second)
    (late : second.Moves size further third) : first.Moves size further third := by
  induction late with
  | refl => exact early.weaken
  | advance _ ih => exact ih.advance
  | report _ inside ih =>
    exact ih.report fun within => inside (within.of_follows early.follows)

theorem ite {condition : Prop} [Decidable condition] {first second : Reader}
    (yes : origin.Moves size further first) (no : origin.Moves size further second) :
    origin.Moves size further (if condition then first else second) := by
  split
  · exact yes
  · exact no

end Moves

theorem skipWhile_moves (test : Char → Bool) {ahead : List Glyph} {faults : List Fault}
    (moves : origin.Moves size further ⟨ahead, faults⟩) :
    origin.Moves size further (skipWhile test ahead faults) := by
  induction ahead generalizing faults with
  | nil => exact moves
  | cons glyph ahead ih =>
    rw [skipWhile]
    split
    · exact ih moves.advance
    · exact moves

theorem skipWhile_moves_further {test : Char → Bool} {char : Char} (stands : origin.char? = some char)
    (passes : test char = true) : origin.Moves size true (skipWhile test origin.ahead origin.faults) := by
  rcases origin with ⟨_ | ⟨glyph, ahead⟩, faults⟩
  · cases stands
  · have moves : Moves size ⟨glyph :: ahead, faults⟩ true ⟨ahead, arrive ahead faults⟩ := .advance .refl
    cases Option.some.inj stands
    rw [skipWhile, if_pos passes]
    exact skipWhile_moves test moves

theorem skipWhile_suffix (test : Char → Bool) (ahead : List Glyph) (faults : List Fault) :
    (skipWhile test ahead faults).ahead <:+ ahead :=
  (@skipWhile_moves 0 ⟨ahead, faults⟩ false test _ _ .refl).follows

end Reader

/-! ## Numbers -/

namespace NumberScan

variable {size : Nat} {origin : Reader} {further : Bool}

/-- What has been read of a number: a run of digits, of which the first wrong one is inside of the
text, and how far the reader has come. -/
structure Reads (size : Nat) (origin : Reader) (further : Bool) (found : Run × Reader) : Prop where
  inside : ∀ glyph ∈ found.1.invalid?, origin.Inside size glyph.offset
  moves : origin.Moves size further found.2

variable {reader : Reader} {run : Run} {char : Char}

theorem Reads.start (moves : origin.Moves size further reader) (digits separators : Bool) :
    Reads size origin further (⟨digits, separators, none⟩, reader) :=
  ⟨fun _ none => absurd none (Option.not_mem_none _), moves⟩

theorem Reads.digit {before : Bool} {glyph : Glyph} {ahead : List Glyph} {faults : List Fault}
    (reads : Reads size origin before (run, ⟨glyph :: ahead, faults⟩)) (tooLarge : Bool) :
    Reads size origin further ({ run with
      digits := true
      invalid? := if tooLarge then run.invalid?.or (some glyph) else run.invalid? },
      ⟨ahead, Reader.arrive ahead faults⟩) := by
  refine ⟨fun other member => ?_, reads.moves.advance⟩
  dsimp only at member
  split at member
  · rcases Option.or_eq_some_iff.mp member with isEarlier | ⟨_, isHere⟩
    · exact reads.inside other isEarlier
    · cases isHere
      exact reads.moves.offset_inside
  · exact reads.inside other member

theorem takeDigits_reads (radix : Radix) {ahead : List Glyph} {faults : List Fault}
    (reads : Reads size origin further (run, ⟨ahead, faults⟩)) :
    Reads size origin further (takeDigits radix run ahead faults) := by
  induction ahead generalizing run faults with
  | nil => exact reads
  | cons glyph ahead ih =>
    rw [takeDigits]
    dsimp only
    split
    · exact ih ⟨reads.inside, reads.moves.advance⟩
    · split
      · exact ih (reads.digit _)
      · exact reads

theorem readRadix_reads {before : Bool} (moves : origin.Moves size before reader)
    (isZero : reader.isAt '0' = true) : Reads size origin further (readRadix reader).2.2 := by
  unfold readRadix
  rw [if_pos isZero]
  dsimp only
  split
  · exact .start (.advance moves.next) _ _
  · exact .start (.advance moves.next) _ _
  · exact .start (.advance moves.next) _ _
  · exact .start (.advance moves) _ _

theorem Reads.join {before : Bool} {first second : Run} {early late : Reader}
    (reads : Reads size origin before (first, early)) (more : Reads size origin further (second, late)) :
    Reads size origin further (first.join second, late) := by
  refine ⟨fun glyph member => ?_, more.moves⟩
  rcases Option.or_eq_some_iff.mp member with isEarlier | ⟨_, isLater⟩
  · exact reads.inside glyph isEarlier
  · exact more.inside glyph isLater

theorem readExponent_reads (radix : Radix) (announced : Announced) (token : Token)
    (reads : Reads size origin further (run, reader)) :
    Reads size origin further (readExponent size radix announced token run reader).2 := by
  have here := reads.moves.offset_inside
  have digits {next : Reader} (moves : origin.Moves size further next) :
      Reads size origin further (takeDigits .decimal {} next.ahead next.faults) :=
    takeDigits_reads .decimal (.start moves _ _)
  unfold readExponent
  split
  · dsimp only
    split
    · refine reads.join ⟨(digits ?_).inside,
        .ite (digits ?_).moves ((digits ?_).moves.report (digits ?_).moves.offset_inside)⟩
      all_goals
        refine .ite (.next (.next ?_)) (.next ?_)
        all_goals exact .ite (reads.moves.report here) (.ite (reads.moves.report here) reads.moves)
    · split
      · exact ⟨reads.inside, reads.moves.report here⟩
      · exact reads
  · split
    · exact ⟨reads.inside, reads.moves.report here⟩
    · exact reads

/-- The fraction of a number, if there is one. -/
def fraction (size : Nat) (radix : Radix) (announced : Announced) (run : Run) (reader : Reader) :
    Token × Run × Reader :=
  if reader.isAt '.' then
    let reader :=
      if announced = .letter && radix ≠ .hexadecimal then
        reader.report (reader.offset size) (.radixPoint radix)
      else reader
    let reader := reader.advance
    let (run, reader) := takeDigits radix run reader.ahead reader.faults
    (Token.float, run, reader)
  else (Token.int, run, reader)

/-- The exponent of a number, if there is one, after the check that there are digits before it. -/
def scale (size : Nat) (radix : Radix) (announced : Announced) (found : Token × Run × Reader) :
    Token × Run × Reader :=
  let (token, run, reader) := found
  let reader :=
    if run.digits then reader else reader.report (reader.offset size) (.noDigits radix)
  readExponent size radix announced token run reader

/-- The check of the digits of a number. -/
def checkDigits (radix : Radix) (token : Token) (run : Run) (reader : Reader) : Reader :=
  match token, run.invalid? with
  | .int, some glyph => reader.report glyph.offset (.invalidDigit glyph.char radix)
  | _, _ => reader

/-- The check of the separators of a number. -/
def checkSeparators (begins : Nat) (start : Reader) (run : Run) (reader : Reader) : Reader :=
  match run.separators, misplacedSeparator? (Text.Utf8.chars (Reader.between start reader)) with
  | true, some index => reader.report (begins + index) .digitSeparator
  | _, _ => reader

/-- The end of a number and its checks, from its mantissa and exponent on. -/
def verify (begins : Nat) (start : Reader) (radix : Radix) (found : Token × Run × Reader) :
    Token × Reader :=
  let (token, run, reader) := found
  let (token, reader) := if reader.isAt 'i' then (Token.imag, reader.advance) else (token, reader)
  (token, checkSeparators begins start run (checkDigits radix token run reader))

/-- What follows the digits before the point. -/
def complete (size : Nat) (start : Reader) (radix : Radix) (announced : Announced)
    (found : Run × Reader) : Token × Reader :=
  verify (start.offset size) start radix
    (scale size radix announced (fraction size radix announced found.1 found.2))

/-- The digits before the point. -/
def integral (start : Reader) : Run × Reader :=
  takeDigits (readRadix start).1 (readRadix start).2.2.1 (readRadix start).2.2.2.ahead
    (readRadix start).2.2.2.faults

/-- A number is read in stages. -/
theorem read_eq (size : Nat) (start : Reader) :
    read size start = if start.isAt '.' then complete size start .decimal .nothing ({}, start)
      else complete size start (readRadix start).1 (readRadix start).2.1 (integral start) := by
  have staged : read size start =
      let begun := if start.isAt '.' then (.decimal, .nothing, {}, start) else readRadix start
      let found :=
        if start.isAt '.' then begun.2.2
        else takeDigits begun.1 begun.2.2.1 begun.2.2.2.ahead begun.2.2.2.faults
      complete size start begun.1 begun.2.1 found := by
    unfold read complete fraction scale verify checkSeparators checkDigits
    rfl
  rw [staged]
  by_cases isPoint : start.isAt '.' = true
  · simp only [isPoint, if_true]
  · simp only [isPoint]
    rfl

/-- The digits before the point are at least one. -/
theorem integral_reads (stands : origin.char? = some char) (digit : isDecimal char = true) :
    Reads size origin true (integral origin) := by
  unfold integral
  by_cases isZero : origin.isAt '0' = true
  · exact takeDigits_reads _ (readRadix_reads .refl isZero)
  · rw [readRadix, if_neg isZero]
    rcases origin with ⟨_ | ⟨glyph, ahead⟩, faults⟩
    · cases stands
    · cases Option.some.inj stands
      have start : Reads size ⟨glyph :: ahead, faults⟩ false ({}, ⟨glyph :: ahead, faults⟩) :=
        .start .refl _ _
      have notSeparator : glyph.char ≠ '_' := by
        intro isSeparator
        rw [isSeparator] at digit
        cases digit
      rw [takeDigits]
      dsimp only
      rw [if_neg notSeparator, digit, Bool.true_or, if_pos rfl]
      exact takeDigits_reads _ (start.digit _)

theorem fraction_reads (radix : Radix) (announced : Announced)
    (reads : Reads size origin further (run, reader))
    (isFurther : further = true ∨ reader.isAt '.' = true) :
    Reads size origin true (fraction size radix announced run reader).2 := by
  have here := reads.moves.offset_inside
  unfold fraction
  split
  · exact takeDigits_reads radix ⟨reads.inside, .advance (.ite (reads.moves.report here) reads.moves)⟩
  next notPoint =>
    obtain rfl := isFurther.resolve_right notPoint
    exact reads

theorem scale_reads (radix : Radix) (announced : Announced) {found : Token × Run × Reader}
    (reads : Reads size origin further found.2) :
    Reads size origin further (scale size radix announced found).2 :=
  readExponent_reads radix announced found.1
    ⟨reads.inside, .ite reads.moves (reads.moves.report reads.moves.offset_inside)⟩

theorem checkDigits_moves (radix : Radix) (token : Token) {last : Reader}
    (inside : ∀ glyph ∈ run.invalid?, origin.Inside size glyph.offset)
    (moves : origin.Moves size further last) :
    origin.Moves size further (checkDigits radix token run last) := by
  unfold checkDigits
  split
  next glyph blamed => exact moves.report (inside glyph blamed)
  next => exact moves

/-- A misplaced separator is among the characters looked at. -/
theorem misplacedFrom_le {hexadecimal : Bool} {previous : Mark} {index place : Nat} {chars : List Char}
    (found : misplacedFrom hexadecimal previous index chars = some place) :
    place ≤ index + chars.length := by
  induction chars generalizing previous index with
  | nil =>
    rw [misplacedFrom] at found
    split at found <;> cases found
    simp
  | cons char chars ih =>
    rw [misplacedFrom] at found
    rw [length_cons]
    split at found
    · split at found
      · cases found
        omega
      · have := ih found
        omega
    · split at found
      · have := ih found
        omega
      · split at found
        · cases found
          omega
        · have := ih found
          omega

theorem misplacedSeparator?_le {literal : List Char} {place : Nat}
    (found : misplacedSeparator? literal = some place) : place ≤ literal.length := by
  unfold misplacedSeparator? at found
  split at found
  · split at found
    · have := misplacedFrom_le found
      simp only [length_cons]
      omega
    · have := misplacedFrom_le found
      simp only [length_cons]
      omega
    · have := misplacedFrom_le found
      simp only [length_cons]
      omega
    · have := misplacedFrom_le found
      omega
  · have := misplacedFrom_le found
    omega

theorem chars_length_le (text : Bytes) : (Text.Utf8.chars text).length ≤ text.length := by
  have tiles := Text.Utf8.glyphs_tile text
  have count : ∀ {glyphs : List Glyph} {offset : Nat}, Text.Tiles offset glyphs text.length →
      offset + glyphs.length ≤ text.length := by
    intro glyphs
    induction glyphs with
    | nil =>
      intro offset tiles
      exact Nat.le_of_eq tiles
    | cons glyph glyphs ih =>
      intro offset tiles
      have later := ih tiles.2.2
      have first := tiles.1
      have width := tiles.2.1
      rw [Text.Glyph.stop] at later
      rw [length_cons]
      omega
  have whole := count tiles
  rw [Text.Utf8.chars, length_map]
  omega

/-- The last check of a number blames a character of that number. -/
theorem checkSeparators_moves {start : Reader} (run : Run) (moves : start.Moves size further reader) :
    start.Moves size further (checkSeparators (start.offset size) start run reader) := by
  unfold checkSeparators
  split
  next index _ misplaced =>
    refine moves.report fun within => ?_
    have inLiteral := misplacedSeparator?_le misplaced
    have inText := chars_length_le (Reader.between start reader)
    have whole := within.length_between moves.follows
    have inside := moves.offset_inside within
    dsimp only
    omega
  next => exact moves

theorem verify_moves {start : Reader} (radix : Radix) {found : Token × Run × Reader}
    (reads : Reads size start further found.2) :
    start.Moves size further (verify (start.offset size) start radix found).2 := by
  rcases found with ⟨token, run, reader⟩
  have unitMoves : start.Moves size further
      (if reader.isAt 'i' = true then (Token.imag, reader.advance) else (token, reader)).2 := by
    split
    · exact reads.moves.advance
    · exact reads.moves
  exact checkSeparators_moves run (checkDigits_moves radix _ reads.inside unitMoves)

theorem complete_moves {start : Reader} (radix : Radix) (announced : Announced) {found : Run × Reader}
    (reads : Reads size start further found) (isFurther : further = true ∨ found.2.isAt '.' = true) :
    start.Moves size true (complete size start radix announced found).2 :=
  verify_moves radix (scale_reads radix announced (fraction_reads radix announced reads isFurther))

theorem digit_of_notPoint {start : Reader} (stands : start.char? = some char)
    (isNumber : isDecimal char = true ∨ char = '.') (notPoint : ¬start.isAt '.' = true) :
    isDecimal char = true := by
  refine isNumber.resolve_right ?_
  rintro rfl
  exact notPoint (beq_iff_eq.mpr stands)

/-- A number takes at least the character it starts with. -/
theorem read_moves {start : Reader} (stands : start.char? = some char)
    (isNumber : isDecimal char = true ∨ char = '.') : start.Moves size true (read size start).2 := by
  rw [read_eq]
  split
  next isPoint => exact complete_moves _ _ (.start .refl _ _) (.inr isPoint)
  next notPoint =>
    exact complete_moves _ _ (integral_reads stands (digit_of_notPoint stands isNumber notPoint))
      (.inl rfl)

theorem complete_token (size : Nat) (start : Reader) (radix : Radix) (announced : Announced)
    (found : Run × Reader) :
    (complete size start radix announced found).1 ∈ [Token.int, Token.float, Token.imag] := by
  have ofExponent (token : Token) (run : Run) (reader : Reader)
      (isNumber : token ∈ [Token.int, Token.float, Token.imag]) :
      (readExponent size radix announced token run reader).1 ∈ [Token.int, Token.float, Token.imag] := by
    unfold readExponent
    split
    · dsimp only
      split
      · exact mem_of_elem_eq_true rfl
      · split <;> exact isNumber
    · split <;> exact isNumber
  have ofFraction :
      (fraction size radix announced found.1 found.2).1 ∈ [Token.int, Token.float, Token.imag] := by
    unfold fraction
    split <;> exact mem_of_elem_eq_true rfl
  unfold complete verify
  dsimp only
  split
  · exact mem_of_elem_eq_true rfl
  · exact ofExponent _ _ _ ofFraction

theorem read_token (size : Nat) (start : Reader) :
    (read size start).1 ∈ [Token.int, Token.float, Token.imag] := by
  rw [read_eq]
  split
  · exact complete_token _ _ _ _ _
  · exact complete_token _ _ _ _ _

end NumberScan

/-! ## Strings, runes and comments -/

/-- An escape that is being read started inside of the text. -/
def Escape.Inside (size : Nat) (origin : Reader) : Escape → Prop
  | idle | opened => True
  | digits start .. => origin.Inside size start

/-- What a glyph does to an escape stays inside of the text. -/
def Escape.Fed.Inside (size : Nat) (origin : Reader) : Escape.Fed → Prop
  | taken next fault? => next.Inside size origin ∧ ∀ fault ∈ fault?, origin.Inside size fault.offset
  | broken fault => origin.Inside size fault.offset

theorem Escape.feedDigit_inside {size start : Nat} {origin : Reader} {glyph : Glyph}
    (early : origin.Inside size start) (inside : origin.Inside size glyph.offset)
    (left base value limit : Nat) : (feedDigit start left base value limit glyph).Inside size origin := by
  have finished (condition : Prop) [Decidable condition] : Fed.Inside size origin
      (if condition then .taken .idle (some ⟨start, .escapeCodePoint⟩) else .taken .idle none) := by
    split
    · exact ⟨trivial, fun fault member => by cases member; exact early⟩
    · exact ⟨trivial, by simp⟩
  unfold feedDigit
  dsimp only
  split
  · exact inside
  · split
    · exact finished _
    · exact finished _
    · exact ⟨early, by simp⟩

theorem Escape.feed_inside {size : Nat} {origin : Reader} {escape : Escape} {glyph : Glyph}
    (early : escape.Inside size origin) (inside : origin.Inside size glyph.offset) (mark : Char) :
    (escape.feed mark glyph).Inside size origin := by
  cases escape with
  | idle => exact inside
  | opened =>
    rw [feed]
    split
    · exact ⟨trivial, by simp⟩
    · split
      · exact feedDigit_inside inside inside _ _ _ _
      · split
        · exact ⟨inside, by simp⟩
        · split
          · exact ⟨inside, by simp⟩
          · split
            · exact ⟨inside, by simp⟩
            · exact inside
  | digits start left base value limit => exact feedDigit_inside early inside _ _ _ _

namespace LiteralScan

/-- How a literal goes on at a glyph outside of an escape, or where an escape is broken. -/
def unescaped (size : Nat) (mark : Char) (count : Nat) (valid : Bool) (glyph : Glyph) (ahead : List Glyph)
    (faults : List Fault) : Outcome :=
  if glyph.char = '\n' then ⟨⟨glyph :: ahead, faults⟩, count, valid, false⟩
  else if glyph.char = mark then ⟨⟨ahead, Reader.arrive ahead faults⟩, count, valid, true⟩
  else body size mark (if glyph.char = '\\' then .opened else .idle) (count + 1) valid ahead
    (Reader.arrive ahead faults)

variable {size : Nat} {origin : Reader} {further : Bool}

theorem body_moves (mark : Char) {escape : Escape} (early : escape.Inside size origin) (count : Nat)
    (valid : Bool) {ahead : List Glyph} {faults : List Fault}
    (moves : origin.Moves size further ⟨ahead, faults⟩) :
    origin.Moves size further (body size mark escape count valid ahead faults).reader := by
  induction ahead generalizing escape count valid faults with
  | nil =>
    rw [body]
    split
    · exact moves
    · exact moves.report fun _ => Nat.le_refl _
  | cons glyph ahead ih =>
    have plain (valid : Bool) {faults : List Fault}
        (moves : origin.Moves size further ⟨glyph :: ahead, faults⟩) :
        origin.Moves size further (unescaped size mark count valid glyph ahead faults).reader := by
      unfold unescaped
      split
      · exact moves
      · split
        · exact moves.advance
        · refine ih ?_ _ _ moves.advance
          split <;> trivial
    have fed := Escape.feed_inside early moves.offset_inside mark
    rw [body]
    split
    · exact plain valid moves
    · split
      next next found =>
        rw [found] at fed
        exact ih fed.1 _ _ moves.advance
      next next fault found =>
        rw [found] at fed
        exact ih fed.1 _ _ (moves.advance.report (fed.2 fault rfl))
      next fault found =>
        rw [found] at fed
        exact plain false (moves.report fed)

section

variable {start : Nat} {reader : Reader} (moves : origin.Moves size further reader)
  (inside : origin.Inside size start)
include moves inside

theorem string_moves : origin.Moves size further (string size start reader) := by
  have closed := body_moves '"' (show Escape.idle.Inside size origin from trivial) 0 true moves
  unfold string
  exact .ite closed (closed.report inside)

theorem rune_moves : origin.Moves size further (rune size start reader) := by
  have closed := body_moves '\'' (show Escape.idle.Inside size origin from trivial) 0 true moves
  unfold rune
  exact .ite closed (.ite (closed.report inside) (.ite (closed.report inside) closed))

theorem rawString_moves : origin.Moves size further (rawString start reader) := by
  have skipped := Reader.skipWhile_moves (· ≠ '\x60') moves
  unfold rawString
  exact .ite (skipped.report inside) skipped.advance

end

/-- The first line feed of a comment is inside of the text as well. -/
theorem blockComment_moves {newline? : Option Nat} {ahead : List Glyph} {faults : List Fault}
    (moves : origin.Moves size further ⟨ahead, faults⟩)
    (inside : ∀ newline ∈ newline?, origin.Inside size newline) :
    origin.Moves size further (blockComment newline? ahead faults).1 ∧
      ∀ newline ∈ (blockComment newline? ahead faults).2.2, origin.Inside size newline := by
  have next {newline? : Option Nat} {glyph : Glyph}
      (inside : ∀ newline ∈ newline?, origin.Inside size newline)
      (here : origin.Inside size glyph.offset) :
      ∀ newline ∈ (if glyph.char = '\n' then newline?.or (some glyph.offset) else newline?),
        origin.Inside size newline := by
    intro newline member
    split at member
    · rcases Option.or_eq_some_iff.mp member with isEarlier | ⟨_, isHere⟩
      · exact inside newline isEarlier
      · cases isHere
        exact here
    · exact inside newline member
  fun_induction blockComment newline? ahead faults with
  | case1 => exact ⟨moves, inside⟩
  | case2 => exact ⟨moves.advance, next inside moves.offset_inside⟩
  | case3 => exact ⟨moves.next.next, next inside moves.offset_inside⟩
  | case4 newline? glyph second ahead faults _ _ _ ih =>
    exact ih moves.advance (next inside moves.offset_inside)

theorem dropReturns_length_le (general : Bool) (text : Bytes) :
    (dropReturns general text).length ≤ text.length := by
  have go (text kept : Bytes) :
      (dropReturns.go general kept text).length ≤ kept.length + text.length := by
    induction text generalizing kept with
    | nil =>
      rw [dropReturns.go, length_reverse]
      exact Nat.le_add_right _ _
    | cons code rest ih =>
      have keep := ih (code :: kept)
      have drop := ih kept
      rw [length_cons] at keep ⊢
      rw [dropReturns.go]
      split
      · omega
      · split
        · omega
        · omega
  have all := go text []
  rwa [length_nil, Nat.zero_add] at all

theorem commentText_length_le (raw : Bytes) : (commentText raw).length ≤ raw.length := by
  unfold commentText
  refine Nat.le_trans (dropReturns_length_le _ _) ?_
  split
  · exact Nat.le_refl _
  · exact Bytes.dropTail_length_le _ _

/-- The text of a comment that starts with any other byte than a carriage return
has that byte. -/
theorem commentText_ne_nil {first : UInt8} (notReturn : first ≠ byte '\r') (rest : Bytes) :
    commentText (first :: rest) ≠ [] := by
  have go (general : Bool) (text kept : Bytes) :
      kept.length ≤ (dropReturns.go general kept text).length := by
    induction text generalizing kept with
    | nil => exact Nat.le_of_eq length_reverse.symm
    | cons code rest ih =>
      have keep := ih (code :: kept)
      rw [length_cons] at keep
      rw [dropReturns.go]
      split
      · exact Nat.le_of_succ_le keep
      · split
        · exact Nat.le_of_succ_le keep
        · exact ih kept
  have keeps (general : Bool) (rest : Bytes) : dropReturns general (first :: rest) ≠ [] := by
    apply ne_nil_of_length_pos
    rw [dropReturns, dropReturns.go, if_pos notReturn]
    exact go general rest [first]
  unfold commentText
  dsimp only
  split
  · exact keeps _ rest
  · rcases Bytes.dropTail_singleton_cons notReturn rest with ⟨kept, dropped⟩
    rw [dropped]
    exact keeps _ kept

end LiteralScan

end Source
end CaseExpansion
