import CaseExpansion.Proofs.Directive.Heads
import CaseExpansion.Proofs.Source.WholeExpressions
import CaseExpansion.Proofs.Source.LineDirectives
import CaseExpansion.Proofs.Text.Quoting

namespace CaseExpansion
namespace Directive

open List Source.Lexeme
open Source (Fit Lexeme Reader Sequel)
open Text (Glyph Tiles)
open Text.Utf8 (glyphs)

/-!
# Arguments that stand alone

An argument of a case directive that is accepted does not depend on what stands around it: its
lexemes are the same at the end of a text and before a separator, none of them separates
outside of brackets, and it does not end in a comment that would take in what follows.
`Standalone` says so.  The arguments of a directive are found one after the other, from
separator to separator.
-/

/-- The lexemes of a text, which it has wherever it stands before white space or a separator. -/
structure Closed (text : Bytes) (lexemes : List Lexeme) (last : Bool) : Prop where
  fit : Fit (glyphs text)
  scans : Scans text.length false ⟨glyphs text, []⟩ lexemes last ⟨[], []⟩
  anywhere : ∀ sequel : Sequel, sequel.size = text.length →
    Scans sequel.whole false (Reader.before sequel ⟨glyphs text, []⟩)
      (lexemes.map (Lexeme.moved sequel.distance)) last ⟨sequel.rest, []⟩
  faultless : ∀ lexeme ∈ lexemes, lexeme.faults = []
  harmless : ∀ lexeme ∈ lexemes, lexeme.token = .comment → Source.LineDirective.Harmless text lexeme
  passed : depthAfter? 0 (spoken lexemes) = some 0

/-- The text may be an argument, whatever the other ones are. -/
structure Standalone (text : Bytes) : Prop where
  expression : IsExpression text
  trimmed : Text.trim text = text
  closed : ∃ lexemes last, Closed text lexemes last

/-- The lexemes are those of a text, wherever it stands. -/
def AreLexemesOf (text : Bytes) (lexemes : List Lexeme) : Prop :=
  ∃ words last distance, Closed text words last ∧ lexemes = words.map (Lexeme.moved distance)

/-! ## The lexemes of an expression -/

theorem withoutComments_of_faultless {lexemes : List Lexeme}
    (faultless : ∀ lexeme ∈ lexemes, lexeme.faults = []) :
    Source.Parse.withoutComments [] lexemes = spoken lexemes := by
  induction lexemes with
  | nil => rfl
  | cons lexeme lexemes ih =>
    rcases forall_mem_cons.mp faultless with ⟨silent, later⟩
    rw [Source.Parse.withoutComments]
    split
    next isComment =>
      rw [silent, spoken_cons_of_eq isComment]
      exact ih later
    next isWord =>
      rw [spoken_cons_of_ne isWord, ih later, nil_append]

theorem spoken_ends (size : Nat) (lineEnds : Bool) :
    spoken (Lexeme.ends size lineEnds) = Lexeme.ends size lineEnds := by
  cases lineEnds <;> rfl

namespace IsExpression

variable {text : Bytes} (expression : IsExpression text) (fit : Fit (glyphs text))
include expression fit

theorem scanFile_eq : (Source.scanFile [] text).2 = scanAll text.length false ⟨glyphs text, []⟩ := by
  rcases expression with ⟨_, _, parsed⟩
  rw [Source.scanFile_of_faultless (Source.parseExpr_faultless parsed), scan_of_fit fit]

theorem faultless : ∀ lexeme ∈ scanAll text.length false ⟨glyphs text, []⟩, lexeme.faults = [] := by
  rw [← expression.scanFile_eq fit]
  rcases expression with ⟨_, _, parsed⟩
  exact Source.parseExpr_faultless parsed

theorem harmless : ∀ lexeme ∈ scanAll text.length false ⟨glyphs text, []⟩, lexeme.token = .comment →
    Source.LineDirective.Harmless text lexeme := by
  rw [← scan_of_fit fit]
  rcases expression with ⟨_, _, parsed⟩
  exact Source.harmless_of_scanFile (Source.parseExpr_faultless parsed)

/-- If a comment is left open at the end of an expression, a line end there stands for a semicolon. -/
theorem lineEnds_of_opensComment {lexemes : List Lexeme} {last : Bool} {stop : Reader}
    (scans : Scans text.length false ⟨glyphs text, []⟩ lexemes last stop)
    (opens : OpensComment text.length last stop)
    (noLineEnd : ∀ lexeme ∈ lexemes, lexeme.isLineEnd = false) : last = true := by
  have faultless := expression.faultless fit
  have whole := expression.scanFile_eq fit
  rcases opens.scanAll_eq with ⟨comment, isComment, closes⟩
  rw [scans.scanAll_eq, closes] at faultless whole
  rcases expression with ⟨_, _, parsed⟩
  rcases Source.parseExpr_last parsed with ⟨front, final, eof, split, endsWell⟩
  rw [whole, withoutComments_of_faultless faultless, spoken_append, spoken_cons_of_eq isComment] at split
  cases last with
  | true => rfl
  | false =>
    have isFinal : spoken lexemes = front ++ [final] := by
      rw [spoken_ends, append_cons front final [eof]] at split
      exact (append_inj' split rfl).1
    have isLast := lineEnds_of_scans scans fit (forall_mem_append.mp faultless).1 noLineEnd
    rw [isFinal, getLast?_append] at isLast
    rcases endsWell with isLineEnd | ends
    · have member : final ∈ spoken lexemes := isFinal ▸ mem_append_right _ mem_cons_self
      rw [noLineEnd final (mem_spoken.mp member).1] at isLineEnd
      cases isLineEnd
    · exact isLast.trans ends

end IsExpression

/-! ## The text before a separator -/

variable {whole : Nat} {later : List Glyph} {glyph : Glyph} {separator : Lexeme} {text body : Bytes}

/-- What follows a piece of a text, if white space is left out at the end of the piece. -/
theorem exists_sequel {size distance : Nat} {blanks : List Glyph}
    (place : Text.offsetOf whole (blanks ++ glyph :: later) = size + distance)
    (blank : ∀ glyph ∈ blanks, Text.isBlank glyph.char = true)
    (separates : glyph.char = ',' ∨ glyph.char = ';') (fit : Fit (blanks ++ glyph :: later)) :
    ∃ sequel : Sequel, sequel.size = size ∧ sequel.distance = distance ∧ sequel.whole = whole ∧
      sequel.rest = blanks ++ glyph :: later := by
  cases blanks with
  | nil =>
    have stops : Source.isStop glyph.char = true := by
      rcases separates with isComma | isSemicolon
      · rw [isComma]; rfl
      · rw [isSemicolon]; rfl
    exact ⟨⟨size, distance, whole, glyph, later, place, stops, fit glyph mem_cons_self⟩, rfl,
      rfl, rfl, rfl⟩
  | cons first blanks =>
    have stops : Source.isStop first.char = true := by
      rw [Source.isStop, blank first mem_cons_self]
      rfl
    exact ⟨⟨size, distance, whole, first, blanks ++ glyph :: later, place, stops,
      fit first mem_cons_self⟩, rfl, rfl, rfl, rfl⟩

/-- A separator that is found further on does not stand at a glyph. -/
theorem offset_ne_of_later {offset : Nat} {lineEnds : Bool} {ahead : List Glyph}
    (tiles : Tiles offset (glyph :: later) whole) (suffix : ahead <:+ later)
    (member : separator ∈ scanAll whole lineEnds ⟨ahead, []⟩)
    (separates : isSeparator separator = true) : glyph.offset ≠ separator.offset := by
  rcases glyph_of_separator member separates with ⟨other, rest, isOther, place, _⟩
  have after := tiles.lt_of_suffix (isOther.trans suffix)
  rw [← place, tiles.1]
  exact Nat.ne_of_lt after

/-- An element that is not among the first of a list is among the others. -/
theorem exists_of_append_eq {α : Type} {front back before after : List α} {element : α}
    (same : front ++ back = before ++ element :: after) (outside : element ∉ front) :
    ∃ more, before = front ++ more ∧ back = more ++ element :: after := by
  rcases append_eq_append_iff.mp same with ⟨more, isBefore, isBack⟩ | ⟨more, isFront, isRest⟩
  · exact ⟨more, isBefore, isBack⟩
  · cases more with
    | nil => exact ⟨[], by rw [isFront, append_nil, append_nil], isRest.symm⟩
    | cons first more =>
      obtain rfl := (List.cons.inj isRest).1
      exact absurd (isFront ▸ mem_append_right _ mem_cons_self) outside

theorem isLineEnd_of_depthAfter? {depth last : Int} {lexemes : List Lexeme}
    (passed : depthAfter? depth (spoken lexemes) = some last) :
    ∀ lexeme ∈ lexemes, lexeme.isLineEnd = false := by
  intro lexeme member
  rw [← Bool.not_eq_true]
  intro isLineEnd
  have isWord : lexeme.token ≠ .comment := by
    rw [token_of_isLineEnd isLineEnd]
    decide
  have goesOn := isEnd_of_depthAfter? passed lexeme (mem_spoken.mpr ⟨member, isWord⟩)
  rw [isEnd, isLineEnd, Bool.or_true] at goesOn
  cases goesOn

/-- No line end comes before a separator, among lexemes that are passed over. -/
theorem not_first_of_isLineEnd {more after rest : List Lexeme} {lineEnd : Lexeme}
    (noLineEnd : ∀ lexeme ∈ more, lexeme.isLineEnd = false) (separates : isSeparator separator = true)
    (isLineEnd : lineEnd.isLineEnd = true) : more ++ separator :: after ≠ lineEnd :: rest := by
  intro same
  cases more with
  | nil =>
    obtain rfl := (List.cons.inj same).1
    rw [isSeparator_of_isLineEnd isLineEnd] at separates
    cases separates
  | cons first more =>
    obtain rfl := (List.cons.inj same).1
    have goesOn := noLineEnd first mem_cons_self
    rw [isLineEnd] at goesOn
    cases goesOn

theorem spoken_moved (distance : Nat) (lexemes : List Lexeme) :
    spoken (lexemes.map (Lexeme.moved distance)) = (spoken lexemes).map (Lexeme.moved distance) :=
  filter_map ..

section Step

variable {sequel : Sequel} {blanks later : List Glyph} {glyph : Glyph} {offset : Nat}
  {more after : List Lexeme} {separator : Lexeme}
  (isRest : sequel.rest = blanks ++ glyph :: later)
  (written : glyph.char = ',' ∨ glyph.char = ';')
  (tiles : Tiles offset (glyph :: later) sequel.whole)
  (separates : isSeparator separator = true) (place : glyph.offset = separator.offset)
  (noLineEnd : ∀ lexeme ∈ more, lexeme.isLineEnd = false)
  (faultless : ∀ lexeme ∈ more ++ separator :: after, lexeme.faults = [])
include isRest written tiles separates place noLineEnd faultless

/-- After a text that is scanned to its end, only white space stands before the separator. -/
theorem after_of_closed {last : Bool} (fit : Fit sequel.rest)
    (blank : ∀ glyph ∈ blanks, Text.isBlank glyph.char = true)
    (found : scanAll sequel.whole last ⟨sequel.rest, []⟩ = more ++ separator :: after) :
    more = [] ∧ after = scanAll sequel.whole false ⟨later, []⟩ := by
  rw [isRest] at fit found
  have fitLater : Fit (glyph :: later) := fit.of_suffix (suffix_append _ _)
  rw [← found] at faultless
  rcases scanAll_blanks blank fit faultless with same | ⟨_, lineEnd, rest, isFirst, isLineEnd⟩
  · rw [same, scanAll_separator last written fitLater.tail] at found
    cases more with
    | nil => exact ⟨rfl, (List.cons.inj found).2.symm⟩
    | cons first more =>
      have isLater : separator ∈ scanAll sequel.whole false ⟨later, []⟩ := by
        rw [(List.cons.inj found).2]
        exact mem_append_right _ mem_cons_self
      exact absurd place (offset_ne_of_later tiles (suffix_refl _) isLater separates)
  · exact absurd (found.symm.trans isFirst) (not_first_of_isLineEnd noLineEnd separates isLineEnd)

theorem not_opensComment {text : Bytes} (expression : IsExpression text) (fitText : Fit (glyphs text))
    {lexemes : List Lexeme} {last : Bool} {stop : Reader}
    (scans : Scans text.length false ⟨glyphs text, []⟩ lexemes last stop)
    (follows : stop.ahead <:+ glyphs text) (goesOn : ∀ lexeme ∈ lexemes, lexeme.isLineEnd = false)
    (found : scanAll sequel.whole last (stop.before sequel) = more ++ separator :: after) :
    ¬OpensComment text.length last stop := by
  intro opens
  obtain rfl := expression.lineEnds_of_opensComment fitText scans opens goesOn
  rcases opens.scanAll_before (fitText.of_suffix follows) sequel with ⟨comment, isComment, swallows⟩
  rw [swallows, isRest] at found
  cases more with
  | nil =>
    obtain rfl := (List.cons.inj found).1
    rw [isSeparator_eq_false isComment (by decide) (by decide)] at separates
    cases separates
  | cons first more =>
    rw [cons_append] at found faultless
    obtain rfl := (List.cons.inj found).1
    have found := (List.cons.inj found).2
    have noLineEnd := (forall_mem_cons.mp noLineEnd).2
    rw [dropWhile_append] at found
    split at found
    next =>
      -- The comment takes in the separator.
      have notFeed : decide (glyph.char ≠ '\n') = true := by
        rcases written with isComma | isSemicolon
        · rw [isComma]; rfl
        · rw [isSemicolon]; rfl
      rw [dropWhile_cons, if_pos notFeed] at found
      have isLater : separator ∈ scanAll sequel.whole true
          ⟨later.dropWhile fun glyph => decide (glyph.char ≠ '\n'), []⟩ := by
        rw [found]
        exact mem_append_right _ mem_cons_self
      exact offset_ne_of_later tiles (dropWhile_suffix _) isLater separates place
    next some =>
      -- The comment ends at a line feed, which stands for a semicolon.
      cases dropped : blanks.dropWhile fun glyph => decide (glyph.char ≠ '\n') with
      | nil => rw [dropped] at some; exact some rfl
      | cons feed rest =>
        have isFeed := head?_dropWhile_not (fun glyph => decide (glyph.char ≠ '\n')) blanks
        rw [dropped] at isFeed found
        have isFeed : feed.char = '\n' := not_not.mp (of_decide_eq_false isFeed)
        rw [cons_append, Lexeme.scanAll_eq] at found
        rcases @scanNext_blank sequel.whole true feed (rest ++ glyph :: later)
          (by rw [isFeed]; decide) (by rw [isFeed]; rfl) with ⟨_, isLineEnd⟩ | faulty
        · exact not_first_of_isLineEnd noLineEnd separates isLineEnd found.symm
        · rw [← found] at faultless
          exact faulty (faultless _ (mem_cons_of_mem _ mem_cons_self))

end Step

theorem separator_offset_lt {lexemes : List Lexeme} {last : Bool} {stop : Reader}
    (scans : Scans text.length false ⟨glyphs text, []⟩ lexemes last stop) {lexeme : Lexeme}
    (member : lexeme ∈ lexemes) (separates : isSeparator lexeme = true) :
    lexeme.offset < text.length := by
  have found : lexeme ∈ scanAll text.length false ⟨glyphs text, []⟩ := by
    rw [scans.scanAll_eq]
    exact mem_append_left _ member
  rcases glyph_of_separator found separates with ⟨glyph, later, suffix, place, _⟩
  have tiles := Text.Utf8.glyphsFrom_tile text 0 0 (Nat.zero_le _)
  have here := (tiles.of_suffix suffix).1.lt_of_suffix nil_suffix
  rw [Nat.zero_add] at here
  exact place ▸ here

section Step

variable {sequel : Sequel} {text : Bytes} {blanks later : List Glyph} {glyph : Glyph}
  {before after : List Lexeme} {separator : Lexeme}
  (isSize : sequel.size = text.length) (isRest : sequel.rest = blanks ++ glyph :: later)
  (blank : ∀ glyph ∈ blanks, Text.isBlank glyph.char = true) (written : glyph.char = ',' ∨
    glyph.char = ';')
  (tiles : Tiles sequel.stop.offset sequel.rest sequel.whole) (fit : Fit sequel.rest)
  (separates : isSeparator separator = true) (place : glyph.offset = separator.offset)
  (faultless : ∀ lexeme ∈ before ++ separator :: after, lexeme.faults = [])
  (passed : depthAfter? 0 (spoken before) = some 0)
include isSize isRest blank written tiles fit separates place faultless passed

/-- An expression before a separator is scanned as it is alone, and the scan goes on after the
separator. -/
theorem areLexemesOf_of_sequel (expression : IsExpression text)
    (fitText : Fit (glyphs text)) (tight : Tight (glyphs text))
    (found : scanAll sequel.whole false (Reader.before sequel ⟨glyphs text, []⟩) =
      before ++ separator :: after) :
    AreLexemesOf text before ∧ after = scanAll sequel.whole false ⟨later, []⟩ := by
  rcases exists_scans fitText rfl tight (expression.faultless fitText) with
    ⟨lexemes, last, stop, scans, quiet, follows, finished, anywhere⟩
  have located := (anywhere sequel isSize).scanAll_eq
  have fromGlyph : Tiles glyph.offset (glyph :: later) sequel.whole := by
    rw [isRest] at tiles
    exact (tiles.of_suffix (suffix_append _ _)).1
  have beyond : sequel.stop.offset ≤ glyph.offset := by
    rw [isRest] at tiles
    exact (tiles.of_suffix (suffix_append _ _)).2
  have outside : separator ∉ lexemes.map (Lexeme.moved sequel.distance) := by
    intro member
    rcases mem_map.mp member with ⟨lexeme, isLexeme, rfl⟩
    have inside := separator_offset_lt scans isLexeme separates
    have place : glyph.offset = lexeme.offset + sequel.distance := place
    have stands := sequel.place
    omega
  rcases exists_of_append_eq (located.symm.trans found) outside with ⟨more, rfl, isMore⟩
  have noLineEnd := forall_mem_append.mp (isLineEnd_of_depthAfter? passed)
  have silent : ∀ lexeme ∈ more ++ separator :: after, lexeme.faults = [] := fun lexeme member =>
    faultless lexeme (by rw [append_assoc]; exact mem_append_right _ member)
  rcases finished with atEnd | opens
  · rcases stop with ⟨_, _⟩
    cases atEnd
    cases quiet
    rcases after_of_closed isRest written fromGlyph separates place noLineEnd.2 silent fit
      blank isMore with
      ⟨rfl, isAfter⟩
    rw [append_nil, spoken_moved, depthAfter?_moved] at passed
    have ofScan : ∀ lexeme ∈ lexemes, lexeme ∈ scanAll text.length false ⟨glyphs text, []⟩ :=
      fun lexeme member => scans.scanAll_eq ▸ mem_append_left _ member
    refine ⟨⟨lexemes, last, sequel.distance, ⟨fitText, scans, anywhere,
      fun lexeme member => expression.faultless fitText lexeme (ofScan lexeme member),
      fun lexeme member => expression.harmless fitText lexeme (ofScan lexeme member), passed⟩, ?_⟩,
        isAfter⟩
    rw [append_nil]
  · have goesOn : ∀ lexeme ∈ lexemes, lexeme.isLineEnd = false := fun lexeme member =>
      noLineEnd.1 (lexeme.moved sequel.distance) (mem_map_of_mem member)
    exact absurd opens (not_opensComment isRest written fromGlyph separates place noLineEnd.2 silent
      expression fitText scans follows goesOn isMore)

end Step

/-- The text between two separators stands alone, without the white space around it. -/
theorem Standalone.of_piece {start : Nat} {piece : List Glyph} {before after : List Lexeme}
    (tiles : Tiles start (piece ++ glyph :: later) whole) (fit : Fit (piece ++ glyph :: later))
    (sound : ∀ glyph ∈ piece, glyph.Sound) (written : glyph.char = ',' ∨ glyph.char = ';')
    (separates : isSeparator separator = true) (place : glyph.offset = separator.offset)
    (faultless : ∀ lexeme ∈ before ++ separator :: after, lexeme.faults = [])
    (passed : depthAfter? 0 (spoken before) = some 0)
    (expression : IsExpression (Text.trim (piece.flatMap Glyph.bytes)))
    (found : scanAll whole false ⟨piece ++ glyph :: later, []⟩ = before ++ separator :: after) :
    Standalone (Text.trim (piece.flatMap Glyph.bytes)) ∧
      AreLexemesOf (Text.trim (piece.flatMap Glyph.bytes)) before ∧
      after = scanAll whole false ⟨later, []⟩ := by
  have readPiece : Text.Utf8.glyphsFrom 0 start (piece.flatMap Glyph.bytes) = piece :=
    @Tiles.glyphsFrom_part start whole [] piece (glyph :: later) tiles sound
  have isArgument : Text.trim (piece.flatMap Glyph.bytes) =
      (Text.trimGlyphs piece).flatMap Glyph.bytes := by
    rw [← Text.trim_eq_flatMap start, readPiece]
  rw [isArgument] at expression ⊢
  rcases Text.trimGlyphs_split piece with ⟨lead, trail, split, isLead, isTrail⟩
  have tight := Text.getLast?_trimGlyphs piece
  have again := Text.trimGlyphs_trimGlyphs piece
  generalize Text.trimGlyphs piece = text at expression split tight again ⊢
  subst split
  rw [append_assoc, append_assoc] at tiles fit found
  have readText := tiles.glyphsFrom_part fun glyph member =>
    sound glyph (mem_append_right _ (mem_append_left _ member))
  have fromTrail := tiles.append.append
  generalize start + (lead.flatMap Glyph.bytes).length = distance at readText fromTrail
  have fitText : Fit (text ++ (trail ++ glyph :: later)) := fit.of_suffix (suffix_append _ _)
  have fitTrail : Fit (trail ++ glyph :: later) := fitText.of_suffix (suffix_append _ _)
  have trailPlace := fromTrail.offsetOf_eq
  rw [Nat.add_comm] at trailPlace
  rcases exists_sequel trailPlace isTrail written fitTrail with ⟨sequel, isSize, rfl, rfl, isRest⟩
  have moved : (glyphs (text.flatMap Glyph.bytes)).map (Glyph.moved sequel.distance) = text := by
    rw [← Text.Utf8.glyphsFrom_eq_map, readText]
  have restTiles : Tiles sequel.stop.offset sequel.rest sequel.whole := by
    rw [isRest, sequel.place, isSize, Nat.add_comm]
    exact fromTrail
  have isReader : (⟨text ++ (trail ++ glyph :: later), []⟩ : Reader) =
      Reader.before sequel ⟨glyphs (text.flatMap Glyph.bytes), []⟩ := by
    rw [Reader.before, moved, isRest]
    rfl
  have noLead : scanAll sequel.whole false ⟨lead ++ (text ++ (trail ++ glyph :: later)), []⟩ =
      scanAll sequel.whole false ⟨text ++ (trail ++ glyph :: later), []⟩ := by
    rcases scanAll_blanks isLead fit (found ▸ faultless) with same | ⟨impossible, _⟩
    · exact same
    · cases impossible
  rw [noLead, isReader] at found
  have located := areLexemesOf_of_sequel isSize isRest isTrail written restTiles (isRest ▸ fitTrail)
    separates place
    faultless passed expression (fun glyph member => ?_) (fun glyph isLast => ?_) found
  · rcases located with ⟨areLexemes, isAfter⟩
    refine ⟨⟨expression, ?_, ?_⟩, areLexemes, isAfter⟩
    · rw [← Text.trim_eq_flatMap sequel.distance, readText, again]
    · rcases areLexemes with ⟨words, last, _, closed, _⟩
      exact ⟨words, last, closed⟩
  · exact fitText (glyph.moved sequel.distance)
      (mem_append_left _ (moved ▸ mem_map_of_mem member))
  · apply tight (glyph.moved sequel.distance)
    rw [← moved, getLast?_map, isLast]
    rfl

/-! ## All arguments -/

theorem sound_of_fit (fit : Fit (glyphs text)) :
    ∀ glyph ∈ glyphs text, glyph.Sound := fun glyph member =>
  Text.Utf8.glyphs_sound text glyph member
    (Bool.or_eq_false_iff.mp (Bool.or_eq_false_iff.mp (fit glyph member)).1).2

theorem bytes_of_separator (sound : glyph.Sound) (fit : Source.isUnfit glyph = false)
    (written : glyph.char = ',' ∨ glyph.char = ';') : glyph.bytes.length = 1 := by
  rw [← sound.ofChar_eq (Bool.or_eq_false_iff.mp (Bool.or_eq_false_iff.mp fit).1).2]
  rcases written with isComma | isSemicolon
  · rw [isComma]; rfl
  · rw [isSemicolon]; rfl

/-- The first separator of a head, where it stands in the text, and the lexemes around it. -/
structure FirstPiece (body : Bytes) (ahead : List Glyph) (head : Head) (piece later : List Glyph)
    (glyph : Glyph) (before after : List Lexeme) (separator : Lexeme) : Prop where
  split : ahead = piece ++ glyph :: later
  written : glyph.char = ',' ∨ glyph.char = ';'
  place : glyph.offset = separator.offset
  starts : head.Starts separator (spoken after)
  found : scanAll body.length false ⟨ahead, []⟩ = before ++ separator :: after
  passed : depthAfter? 0 (spoken before) = some 0

section

variable {body : Bytes} {taken ahead : List Glyph} {head : Head}

theorem exists_firstPiece (found : splitHead? 0 (spoken (scanAll body.length false ⟨ahead, []⟩)) =
      some head) :
    ∃ piece later glyph before after separator,
      FirstPiece body ahead head piece later glyph before after separator := by
  rcases exists_first_separator found with ⟨passed, separator, rest, split, isPassed, starts⟩
  rcases filter_eq_append_iff.mp split with ⟨before, others, isScan, rfl, isOthers⟩
  rcases filter_eq_cons_iff.mp isOthers with ⟨comments, after, rfl, areComments, _, rfl⟩
  have noneSpoken : spoken comments = [] := filter_eq_nil_iff.mpr areComments
  have isMember : separator ∈ scanAll body.length false ⟨ahead, []⟩ := by
    rw [isScan]
    exact mem_append_right _ (mem_append_right _ mem_cons_self)
  rcases glyph_of_separator isMember starts.isSeparator with
    ⟨glyph, later, ⟨piece, isAhead⟩, place, isMark⟩
  have written : glyph.char = ',' ∨ glyph.char = ';' := isMark ▸ mark_cases separator
  refine ⟨piece, later, glyph, before ++ comments, after, separator, isAhead.symm, written, place,
    starts, ?_, ?_⟩
  · rw [isScan, append_assoc]
  · rw [spoken_append, noneSpoken, append_nil]
    exact isPassed

namespace FirstPiece

variable {piece later : List Glyph} {glyph : Glyph} {before after : List Lexeme} {separator : Lexeme}
  (first : FirstPiece body ahead head piece later glyph before after separator)
  (isBody : glyphs body = taken ++ ahead) (fit : Fit (glyphs body))
include first isBody

theorem offset_eq : separator.offset = (piece.flatMap Glyph.bytes).length +
      (taken.flatMap Glyph.bytes).length := by
  have tiles := Text.Utf8.glyphsFrom_tile body 0 0 (Nat.zero_le _)
  change Tiles 0 (glyphs body) _ at tiles
  rw [isBody, first.split] at tiles
  have here := tiles.append.append.1
  rw [first.place] at here
  omega

/-- The piece is cut out of the text. -/
theorem slice_eq :
    Bytes.slice body (taken.flatMap Glyph.bytes).length separator.offset =
      piece.flatMap Glyph.bytes := by
  have isText : body = taken.flatMap Glyph.bytes ++ piece.flatMap Glyph.bytes ++
      (glyph :: later).flatMap Glyph.bytes := by
    rw [← flatMap_append, ← flatMap_append, append_assoc, ← first.split, ← isBody,
      Text.Utf8.flatMap_glyphs]
  have cut := @Source.slice_append (taken.flatMap Glyph.bytes) (piece.flatMap Glyph.bytes)
    ((glyph :: later).flatMap Glyph.bytes) 0 _ (Nat.le_refl _)
  rw [← isText, Nat.zero_add, ← first.offset_eq isBody] at cut
  rw [cut, Bytes.slice, drop_zero, Nat.sub_zero, take_length]

include fit

theorem next_offset :
    separator.offset + 1 = ((taken ++ (piece ++ [glyph])).flatMap Glyph.bytes).length := by
  have member : glyph ∈ glyphs body := by
    rw [isBody, first.split]
    exact mem_append_right _ (mem_append_right _ mem_cons_self)
  have single := bytes_of_separator (sound_of_fit fit glyph member) (fit glyph member) first.written
  simp only [first.offset_eq isBody, flatMap_append, flatMap_singleton, length_append, single]
  omega

/-- The first argument stands alone, and the scan goes on after the separator. -/
theorem standalone (faultless : ∀ lexeme ∈ scanAll body.length false ⟨ahead, []⟩, lexeme.faults = [])
    (expression : IsExpression (Text.trim (piece.flatMap Glyph.bytes))) :
    Standalone (Text.trim (piece.flatMap Glyph.bytes)) ∧
      AreLexemesOf (Text.trim (piece.flatMap Glyph.bytes)) before ∧
      after = scanAll body.length false ⟨later, []⟩ := by
  have tiles := Text.Utf8.glyphsFrom_tile body 0 0 (Nat.zero_le _)
  change Tiles 0 (glyphs body) _ at tiles
  have sound := sound_of_fit fit
  have found := first.found
  rw [first.found] at faultless
  rw [isBody, first.split] at tiles fit sound
  rw [first.split] at found
  rw [Nat.zero_add] at tiles
  exact Standalone.of_piece tiles.append (fit.of_suffix (suffix_append _ _))
    (fun glyph member => sound glyph (mem_append_right _ (mem_append_left _ member)))
    first.written first.starts.isSeparator first.place faultless first.passed expression found

end FirstPiece

/-- All arguments of a directive stand alone, if they are expressions. -/
theorem standalone_of_pieces
    (isBody : glyphs body = taken ++ ahead) (fit : Fit (glyphs body))
    (faultless : ∀ lexeme ∈ scanAll body.length false ⟨ahead, []⟩, lexeme.faults = [])
    (found : splitHead? 0 (spoken (scanAll body.length false ⟨ahead, []⟩)) = some head)
    (expressions : ∀ piece ∈ pieces body (taken.flatMap Glyph.bytes).length head.commas head.semicolon,
      IsExpression (Text.trim piece.2)) :
    ∀ piece ∈ pieces body (taken.flatMap Glyph.bytes).length head.commas head.semicolon,
      Standalone (Text.trim piece.2) := by
  generalize isCommas : head.commas = commas at expressions ⊢
  induction commas generalizing taken ahead head with
  | nil =>
    rcases exists_firstPiece found with ⟨piece, later, glyph, before, after, separator, first⟩
    cases first.starts with
    | comma _ _ _ commas => cases isCommas.symm.trans commas
    | semicolon _ _ _ place =>
      rw [pieces, forall_mem_singleton] at expressions ⊢
      rw [place, first.slice_eq isBody] at expressions ⊢
      exact (first.standalone isBody fit faultless expressions).1
  | cons comma commas ih =>
    rcases exists_firstPiece found with ⟨piece, later, glyph, before, after, separator, first⟩
    cases first.starts with
    | semicolon _ _ noCommas => cases isCommas.symm.trans noCommas
    | comma _ next foundNext isComma place =>
      obtain ⟨rfl, rfl⟩ := List.cons.inj (isCommas.symm.trans isComma)
      rw [pieces, forall_mem_cons] at expressions ⊢
      rw [first.slice_eq isBody] at expressions ⊢
      rcases first.standalone isBody fit faultless expressions.1 with ⟨standalone, _, isAfter⟩
      refine ⟨standalone, ?_⟩
      rw [first.next_offset isBody fit, place] at expressions ⊢
      rw [isAfter] at foundNext
      refine ih ?_ ?_ foundNext rfl expressions.2
      · rw [isBody, first.split, append_assoc, append_assoc, singleton_append]
      · intro lexeme member
        apply faultless
        rw [first.found, isAfter]
        exact mem_append_right _ (mem_cons_of_mem _ member)

end

/-! ## Accepted directives -/

/-- The body of a directive does not start with a byte order mark. -/
theorem fit_of_body? {mark : Bytes} (hasBody : body? mark text = some body)
    (faultless : ∀ lexeme ∈ Lexeme.scan body, lexeme.faults = []) : Fit (glyphs body) := by
  refine fit_of_faultless faultless fun glyph isFirst => ?_
  unfold body? at hasBody
  split at hasBody
  next =>
    cases hasBody
    cases isFirst
  next code rest _ =>
    split at hasBody
    next isBlank =>
      cases hasBody
      rw [Bool.or_eq_true, decide_eq_true_eq, decide_eq_true_eq] at isBlank
      rcases isBlank with rfl | rfl
      · cases isFirst; rfl
      · cases isFirst; rfl
    next => cases hasBody
  next => cases hasBody

theorem lexemes_eq_spoken (fit : Fit (glyphs body))
    (isScan : (Source.scanFile [] body).2 = Lexeme.scan body)
    (faultless : ∀ lexeme ∈ Lexeme.scan body, lexeme.faults = []) :
    lexemes body = spoken (scanAll body.length false ⟨glyphs body, []⟩) := by
  rw [lexemes, isScan, withoutComments_of_faultless faultless, scan_of_fit fit]

/-- The arguments of a directive that is accepted stand alone. -/
theorem standalone_of_readCase {mark name : Bytes} {arguments : List Bytes}
    (hasBody : body? mark text = some body)
    (reads : readCase body = .ok (arguments, name)) : ∀ argument ∈ arguments, Standalone argument := by
  rcases readCase_eq_ok_iff.mp reads with ⟨head, found, silent, rfl, expressions, isName⟩
  have allSilent : ∀ lexeme ∈ lexemes body, lexeme.faults = [] := by
    rw [eq_append_of_splitHead? found]
    exact forall_mem_append.mpr ⟨silent, isName.faultless⟩
  have faultless :=
    (Source.Parse.faultless_of_withoutComments (Source.scanFile_ended [] body) allSilent).2
  have isScan := Source.scanFile_of_faultless faultless
  rw [isScan] at faultless
  have fit := fit_of_body? hasBody faultless
  rw [lexemes_eq_spoken fit isScan faultless] at found
  rw [scan_of_fit fit] at faultless
  rcases argumentTexts_cases body head with none | all
  · rw [none]
    exact forall_mem_nil _
  · rw [all] at expressions ⊢
    intro argument member
    rcases mem_map.mp member with ⟨piece, isPiece, rfl⟩
    exact @standalone_of_pieces body [] (glyphs body) head rfl fit faultless found expressions
      piece isPiece

end Directive
end CaseExpansion
