import CaseExpansion.Proofs.Source.Quotations
import CaseExpansion.Proofs.Source.Separators

namespace CaseExpansion
namespace Source

open List
open Text (Glyph)

/-!
# What stands between the words of a line

A text on one line that is scanned without faults is made of words and fillers: white space, general
comments, and at the end perhaps a comment that takes in the rest.  `nextWord` cuts off the first
word with what stands before it.  The forms of fillers, strings and commas are told by the bytes of the
text, without the scan.
-/

/-- White space and general comments.  Such a comment ends where it is closed for the first time. -/
inductive Filler : Bytes → Prop where
  | none : Filler []
  | blank {code : UInt8} {rest : Bytes} (isBlank : code ∈ [byte ' ', byte '\t', byte '\r'])
      (more : Filler rest) : Filler (code :: rest)
  | comment {inner rest : Bytes} (isOpen : ¬[byte '*', byte '/'] <:+: inner) (more : Filler rest) :
      Filler (byte '/' :: byte '*' :: (inner ++ byte '*' :: byte '/' :: rest))

/-- Fillers up to the end of the line, where another comment may stand. -/
inductive LastFiller : Bytes → Prop where
  | filler {text : Bytes} (isFiller : Filler text) : LastFiller text
  | comment {text inner : Bytes} (isFiller : Filler text) : LastFiller
      (text ++ byte '/' :: byte '/' :: inner)

/-- The text is a string literal of either form, and stands for a value. -/
structure IsString (text value : Bytes) : Prop where
  marked : text.head? = some (byte '"') ∨ text.head? = some (byte '\x60')
  decoded : Text.Quoted.decode? text = some value

theorem Filler.append {text other : Bytes} (filler : Filler text) (later : Filler other) :
    Filler (text ++ other) := by
  induction filler with
  | none => exact later
  | blank isBlank _ ih => exact .blank isBlank ih
  | comment isOpen _ ih =>
    rw [cons_append, cons_append, append_assoc, cons_append, cons_append]
    exact .comment isOpen ih

theorem Filler.append_last {text other : Bytes} (filler : Filler text) (later : LastFiller other) :
    LastFiller (text ++ other) := by
  cases later with
  | filler isFiller => exact .filler (filler.append isFiller)
  | comment isFiller =>
    rw [← append_assoc]
    exact .comment (filler.append isFiller)

/-! ## Glyphs of a line -/

/-- The glyphs may stand on one line of a source text. -/
structure OnLine (glyphs : List Glyph) : Prop where
  fit : Fit glyphs
  sound : ∀ glyph ∈ glyphs, glyph.Sound
  noFeed : ∀ glyph ∈ glyphs, glyph.char ≠ '\n'

namespace OnLine

variable {glyphs later : List Glyph}

theorem of_suffix (onLine : OnLine glyphs) (suffix : later <:+ glyphs) : OnLine later where
  fit := onLine.fit.of_suffix suffix
  sound glyph member := onLine.sound glyph (suffix.subset member)
  noFeed glyph member := onLine.noFeed glyph (suffix.subset member)

theorem bytes_eq (onLine : OnLine glyphs) {glyph : Glyph} (member : glyph ∈ glyphs) {char : Char}
    (isChar : glyph.char = char) : glyph.bytes = Bytes.ofChar char := by
  have wellFormed := (Bool.or_eq_false_iff.mp (Bool.or_eq_false_iff.mp (onLine.fit glyph member)).1).2
  rw [← isChar, (onLine.sound glyph member).ofChar_eq wellFormed]

end OnLine

theorem map_char_glyphs {glyphs : List Glyph} (sound : ∀ glyph ∈ glyphs, glyph.Sound) :
    (Text.Utf8.glyphs (glyphs.flatMap Glyph.bytes)).map Glyph.char = glyphs.map Glyph.char := by
  have spelled : Text.Spelled (glyphs.flatMap Glyph.bytes) glyphs := ⟨rfl, sound⟩
  rcases spelled.glyphsFrom_append 0 [] with ⟨placed, read, chars, _⟩
  rw [append_nil, Text.Utf8.glyphsFrom, append_nil] at read
  rw [Text.Utf8.glyphs, read, chars]

theorem mem_chars_of_mem {glyphs : List Glyph} (sound : ∀ glyph ∈ glyphs, glyph.Sound) {code : UInt8}
    (ascii : code < 0x80) (member : code ∈ glyphs.flatMap Glyph.bytes) :
    Char.ofNat code.toNat ∈ glyphs.map Glyph.char := by
  rcases Text.Utf8.exists_glyph_of_mem ascii member with ⟨glyph, isGlyph, isChar⟩
  rw [← map_char_glyphs sound, ← isChar]
  exact mem_map_of_mem isGlyph

/-- Two bytes of ASCII that stand together in a text are two characters of it. -/
theorem infix_chars_of_infix {glyphs : List Glyph} (sound : ∀ glyph ∈ glyphs, glyph.Sound)
    {first second : UInt8} (isFirst : first < 0x80) (isSecond : second < 0x80)
    (found : [first, second] <:+: glyphs.flatMap Glyph.bytes) :
    [Char.ofNat first.toNat, Char.ofNat second.toNat] <:+: glyphs.map Glyph.char := by
  rcases found with ⟨front, back, whole⟩
  have starts := Text.Utf8.starts_cons (Text.Utf8.isContinuation_of_ascii isFirst) (second :: back)
  have parts := Text.Utf8.glyphs_append starts front
  rw [Text.Utf8.glyphsFrom, Text.Utf8.decode_plain isFirst] at parts
  dsimp only at parts
  rw [Nat.sub_self, Text.Utf8.glyphsFrom, Text.Utf8.decode_plain isSecond] at parts
  rw [← map_char_glyphs sound, ← whole, append_assoc, cons_append, singleton_append, parts,
    map_append]
  exact infix_append' _ [_, _] _

/-! ## Comments -/

/-- A general comment that is closed ends at the first mark for it. -/
theorem blockComment_closed {newline? : Option Nat} {ahead : List Glyph} {faults : List Fault}
    (closed : (LiteralScan.blockComment newline? ahead faults).2.1 = true) :
    ∃ inner star slash, ahead = inner ++ star :: slash ::
      (LiteralScan.blockComment newline? ahead faults).1.ahead ∧
      star.char = '*' ∧ slash.char = '/' ∧ ¬['*', '/'] <:+: inner.map Glyph.char := by
  fun_induction LiteralScan.blockComment newline? ahead faults with
  | case1 => cases closed
  | case2 => cases closed
  | case3 newline? star slash ahead faults _ _ closes =>
    rw [Bool.and_eq_true, decide_eq_true_eq, decide_eq_true_eq] at closes
    refine ⟨[], star, slash, rfl, closes.1, closes.2, fun found => ?_⟩
    exact absurd (infix_nil.mp found) (cons_ne_nil _ _)
  | case4 newline? glyph second ahead faults _ _ goesOn ih =>
    rcases ih closed with ⟨inner, star, slash, split, isStar, isSlash, isOpen⟩
    refine ⟨glyph :: inner, star, slash, congrArg (glyph :: ·) split, isStar, isSlash, fun found => ?_⟩
    rw [map_cons, infix_cons_iff] at found
    rcases found with atStart | later
    · -- The second character of the mark would be the next one, where the comment is not closed.
      rcases cons_prefix_cons.mp atStart with ⟨isStarToo, nextSlash⟩
      cases inner with
      | nil => exact absurd (prefix_nil.mp nextSlash) (cons_ne_nil _ _)
      | cons next inner =>
        have isSlashToo := (cons_prefix_cons.mp nextSlash).1
        rw [← (List.cons.inj split).1] at isSlashToo
        rw [← isStarToo, ← isSlashToo] at goesOn
        exact goesOn rfl
    · exact isOpen later

/-! ## Raw strings -/

/-- A raw string that is closed ends at the first mark. -/
theorem rawString_closed {here : Nat} {reader : Reader}
    (silent : (LiteralScan.rawString here reader).faults = []) :
    ∃ inner closing, reader.ahead = inner ++ closing :: (LiteralScan.rawString here reader).ahead ∧
      closing.char = '\x60' ∧ ∀ glyph ∈ inner, glyph.char ≠ '\x60' := by
  have skipped := Lexeme.skipWhile_ahead (· ≠ '\x60') reader.ahead reader.faults
  have whole := takeWhile_append_dropWhile (p := fun glyph : Glyph => decide (glyph.char ≠ '\x60'))
    (l := reader.ahead)
  have others := all_takeWhile (p := fun glyph : Glyph => decide (glyph.char ≠ '\x60')) (l :=
    reader.ahead)
  have first := head?_dropWhile_not (fun glyph : Glyph => decide (glyph.char ≠ '\x60')) reader.ahead
  unfold LiteralScan.rawString at silent ⊢
  dsimp only at silent ⊢
  generalize Reader.skipWhile (· ≠ '\x60') reader.ahead reader.faults = later at skipped silent ⊢
  rw [← skipped] at whole first
  rcases later with ⟨_ | ⟨closing, ahead⟩, faults⟩
  · cases silent
  · refine ⟨_, closing, whole.symm, ?_, fun glyph member => ?_⟩
    · simpa using first
    · exact of_decide_eq_true (all_eq_true.mp others glyph member)

/-- A raw text stands for what is between its marks, without carriage returns. -/
theorem decode?_raw {inner : Bytes} (clean : byte '\x60' ∉ inner) :
    Text.Quoted.decode? (byte '\x60' :: (inner ++ [byte '\x60'])) =
      some (inner.filter (· ≠ byte '\r')) := by
  unfold Text.Quoted.decode? Text.Quoted.decodeRaw?
  dsimp only
  rw [if_pos rfl, reverse_append]
  simp [clean]

namespace Lexeme

variable {size : Nat} {lineEnds : Bool} {start : Reader} {char : Char}

theorem scanComment_general (general : start.advance.isAt '/' = false)
    (silent : (scanComment size lineEnds start start.advance).lexeme.faults = []) :
    ∃ inner star slash, start.advance.advance.ahead = inner ++ star :: slash ::
        (scanComment size lineEnds start start.advance).reader.ahead ∧
      star.char = '*' ∧ slash.char = '/' ∧ ¬['*', '/'] <:+: inner.map Glyph.char := by
  have ended := @blockComment_closed none start.advance.advance.ahead start.advance.advance.faults
  unfold scanComment at silent ⊢
  rw [general] at silent ⊢
  dsimp only at silent ⊢
  rw [if_neg Bool.false_ne_true] at silent ⊢
  rcases found : LiteralScan.blockComment none start.advance.advance.ahead
    start.advance.advance.faults with
    ⟨reader, closed, newline?⟩
  rw [found] at ended silent
  cases closed with
  | false => exact absurd (reverse_eq_nil_iff.mp silent) (cons_ne_nil _ _)
  | true => exact ended rfl

theorem Kind.of_comment {step : Step} (kind : Kind size lineEnds start char step)
    (isComment : step.lexeme.token = .comment) : char = '/' ∧
      (start.advance.isAt '/' = true ∨ start.advance.isAt '*' = true) ∧
      step = scanComment size lineEnds start start.advance := by
  cases kind with
  | plain isWord => exact absurd isComment isWord
  | lineEnd _ isLineEnd => cases isComment.symm.trans (token_of_isLineEnd isLineEnd)
  | comment isSlash opens reads => exact ⟨isSlash, opens, reads⟩
  | illegal isIllegal => cases isComment.symm.trans isIllegal

section OnLine

variable {glyph : Glyph} {ahead : List Glyph} (onLine : OnLine (glyph :: ahead))
include onLine

/-- A comment takes in the rest of the line, or it is closed on the line. -/
theorem scanComment_text {step : Step} (isSlash : glyph.char = '/')
    (opens : (Reader.advance ⟨glyph :: ahead, []⟩).isAt '/' = true ∨
      (Reader.advance ⟨glyph :: ahead, []⟩).isAt '*' = true)
    (reads : step = scanComment size lineEnds ⟨glyph :: ahead, []⟩ (Reader.advance ⟨glyph :: ahead, []⟩))
    (silent : step.lexeme.faults = []) :
    (∃ inner, (glyph :: ahead).flatMap Glyph.bytes = byte '/' :: byte '/' :: inner ∧
      step.reader.ahead = []) ∨
    ∃ inner, ¬[byte '*', byte '/'] <:+: inner ∧ (glyph :: ahead).flatMap Glyph.bytes =
      byte '/' :: byte '*' :: (inner ++ byte '*' :: byte '/' :: step.reader.ahead.flatMap
        Glyph.bytes) := by
  subst reads
  have onLineLater := onLine.of_suffix (suffix_cons _ _)
  have slashBytes := onLine.bytes_eq mem_cons_self isSlash
  cases ahead with
  | nil => rcases opens with impossible | impossible <;> cases impossible
  | cons second ahead =>
    cases toEnd : (Reader.advance ⟨glyph :: second :: ahead, []⟩).isAt '/' with
    | true =>
      have isSlashToo : second.char = '/' := Option.some.inj (eq_of_beq toEnd)
      refine .inl ⟨ahead.flatMap Glyph.bytes, ?_, ?_⟩
      · rw [flatMap_cons, flatMap_cons, slashBytes, onLineLater.bytes_eq mem_cons_self isSlashToo]
        rfl
      · rw [scanComment, if_pos toEnd]
        dsimp only
        rw [finish, skipWhile_ahead]
        exact dropWhile_eq_nil_iff.mpr fun other member =>
          decide_eq_true (onLineLater.noFeed other member)
    | false =>
      have isStar : second.char = '*' := by
        rcases opens with impossible | starred
        · cases toEnd.symm.trans impossible
        · exact Option.some.inj (eq_of_beq starred)
      rcases scanComment_general toEnd silent with
        ⟨inner, star, slash, split, isStarToo, isSlashToo, isOpen⟩
      generalize (scanComment size lineEnds _ _).reader.ahead = later at split ⊢
      obtain rfl : ahead = inner ++ star :: slash :: later := split
      have member {other : Glyph} (isOther : other ∈ inner ++ [star, slash]) :
          other ∈ second :: (inner ++ star :: slash :: later) := by
        rw [show star :: slash :: later = [star, slash] ++ later from rfl, ← append_assoc]
        exact mem_cons_of_mem _ (mem_append_left _ isOther)
      have innerSound : ∀ other ∈ inner, other.Sound := fun other isOther =>
        onLineLater.sound other (member (mem_append_left _ isOther))
      refine .inr ⟨inner.flatMap Glyph.bytes, fun found => isOpen ?_, ?_⟩
      · exact infix_chars_of_infix innerSound (by decide) (by decide) found
      · rw [flatMap_cons, flatMap_cons, flatMap_append, flatMap_cons, flatMap_cons,
          slashBytes, onLineLater.bytes_eq mem_cons_self isStar,
          onLineLater.bytes_eq (member (mem_append_right _ mem_cons_self)) isStarToo,
          onLineLater.bytes_eq (member (mem_append_right _ (mem_cons_of_mem _ mem_cons_self)))
            isSlashToo]
        rfl

/-! ## Words -/

theorem string_text {step : Step} (isMark : glyph.char = '"')
    (reads : step = finish size ⟨glyph :: ahead, []⟩
      (LiteralScan.string size (Reader.offset size ⟨glyph :: ahead, []⟩)
        (Reader.advance ⟨glyph :: ahead, []⟩)) .string
      (Reader.between ⟨glyph :: ahead, []⟩
        (LiteralScan.string size (Reader.offset size ⟨glyph :: ahead, []⟩)
          (Reader.advance ⟨glyph :: ahead, []⟩))) true)
    {word : List Glyph} (taken : glyph :: ahead = word ++ step.reader.ahead) (some : word ≠ [])
    {value : Bytes} (decoded : Text.Quoted.decode? step.lexeme.literal = Option.some value) :
    IsString (word.flatMap Glyph.bytes) value := by
  have isLiteral : step.lexeme.literal = word.flatMap Glyph.bytes := by
    rw [reads] at taken ⊢
    exact Reader.between_eq taken
  rw [isLiteral] at decoded
  refine ⟨.inl ?_, decoded⟩
  cases word with
  | nil => exact absurd rfl some
  | cons first word =>
    obtain rfl := (List.cons.inj taken).1
    rw [flatMap_cons, onLine.bytes_eq mem_cons_self isMark]
    rfl

/-- So is a raw string, but for the carriage returns, which do not count. -/
theorem raw_text {step : Step} (isMark : glyph.char = '\x60')
    (reads : step = finish size ⟨glyph :: ahead, []⟩
      (LiteralScan.rawString (Reader.offset size ⟨glyph :: ahead, []⟩)
        (Reader.advance ⟨glyph :: ahead, []⟩)) .string
      ((Reader.between ⟨glyph :: ahead, []⟩ (LiteralScan.rawString (Reader.offset size ⟨glyph :: ahead, []⟩)
        (Reader.advance ⟨glyph :: ahead, []⟩))).filter (· ≠ byte '\r')) true)
    (silent : step.lexeme.faults = []) {word : List Glyph}
    (taken : glyph :: ahead = word ++ step.reader.ahead)
    {value : Bytes} (decoded : Text.Quoted.decode? step.lexeme.literal = some value) :
    IsString (word.flatMap Glyph.bytes) value := by
  have isLiteral : step.lexeme.literal = (word.flatMap Glyph.bytes).filter (· ≠ byte '\r') := by
    rw [reads] at taken ⊢
    exact congrArg (List.filter _) (Reader.between_eq taken)
  have ended : ∃ inner closing, ahead = inner ++ closing :: step.reader.ahead ∧ closing.char = '\x60' ∧
      ∀ other ∈ inner, other.char ≠ '\x60' := by
    rw [reads] at silent ⊢
    exact rawString_closed (reverse_eq_nil_iff.mp silent)
  rcases ended with ⟨inner, closing, split, isClosing, others⟩
  obtain rfl : glyph :: (inner ++ [closing]) = word := by
    rw [split, ← cons_append, append_cons] at taken
    exact append_cancel_right taken
  have onLineLater := onLine.of_suffix (suffix_cons _ _)
  have isText : (glyph :: (inner ++ [closing])).flatMap Glyph.bytes =
      byte '\x60' :: (inner.flatMap Glyph.bytes ++ [byte '\x60']) := by
    have isAhead : closing ∈ ahead := split ▸ mem_append_right _ mem_cons_self
    rw [flatMap_cons, flatMap_append, flatMap_singleton, onLine.bytes_eq mem_cons_self isMark,
      onLineLater.bytes_eq isAhead isClosing]
    rfl
  have innerSound : ∀ other ∈ inner, other.Sound := fun other isOther =>
    onLineLater.sound other (split ▸ mem_append_left _ isOther)
  have clean : byte '\x60' ∉ inner.flatMap Glyph.bytes := by
    intro member
    rcases mem_map.mp (mem_chars_of_mem innerSound (by decide) member) with ⟨other, isOther, isMarkToo⟩
    exact others other isOther isMarkToo
  have filtered : (byte '\x60' :: (inner.flatMap Glyph.bytes ++ [byte '\x60'])).filter (· ≠ byte '\r') =
      byte '\x60' :: ((inner.flatMap Glyph.bytes).filter (· ≠ byte '\r') ++ [byte '\x60']) := by
    rw [filter_cons_of_pos (by decide), filter_append]
    rfl
  rw [isLiteral, isText, filtered, decode?_raw fun member => clean (mem_of_mem_filter member),
    filter_filter]
    at decoded
  rw [isText]
  refine ⟨.inr rfl, ?_⟩
  rw [decode?_raw clean, ← decoded]
  simp only [Bool.and_self]

end OnLine

/-- How a word of the grammar is written. -/
structure WrittenAs (lexeme : Lexeme) (text : Bytes) : Prop where
  isWord : lexeme.token ≠ .comment
  notEnd : lexeme.token ≠ .eof
  goesOn : lexeme.isLineEnd = false
  comma : lexeme.token = .comma → text = [byte ',']
  string : lexeme.token = .string → ∀ value, Text.Quoted.decode? lexeme.literal = some value →
  IsString text value

theorem scanNext_writtenAs {glyph : Glyph} {ahead : List Glyph} (onLine : OnLine (glyph :: ahead))
    {step : Step}
    (notSkipped : isSkipped lineEnds glyph.char = false)
    (reads : step = scanNext size lineEnds ⟨glyph :: ahead, []⟩)
    (silent : step.lexeme.faults = []) (isWord : step.lexeme.token ≠ .comment) :
    ∃ word, glyph :: ahead = word ++ step.reader.ahead ∧
    WrittenAs step.lexeme (word.flatMap Glyph.bytes) := by
  have isAt : step = scanAt size lineEnds ⟨glyph :: ahead, []⟩ glyph.char :=
    reads.trans (scanNext_of_not_isSkipped notSkipped)
  have stands : Reader.char? ⟨glyph :: ahead, []⟩ = some glyph.char := rfl
  have kind : Kind size lineEnds ⟨glyph :: ahead, []⟩ glyph.char step := isAt ▸ scanAt_kind _ _ _ _
  rcases (scanAt_takes size lineEnds stands).follows with ⟨front, taken⟩
  rw [← isAt] at taken
  have taken : glyph :: ahead = (glyph :: front) ++ step.reader.ahead := congrArg (glyph :: ·) taken.symm
  refine ⟨glyph :: front, taken, isWord, ?_, ?_, ?_, ?_⟩
  · rw [isAt]
    exact (scanAt_takes _ _ stands).notEnd
  · rw [isAt]
    exact (scanAt_goesOn size lineEnds stands onLine.noFeed).1
  · intro isComma
    have isGlyph : glyph.char = ',' := by
      cases kind with
      | plain _ _ _ _ separator =>
        refine (separator ?_).trans (if_pos isComma)
        rw [isSeparator, isComma]
        rfl
      | lineEnd _ isLineEnd => cases isComma.symm.trans (token_of_isLineEnd isLineEnd)
      | comment _ _ reads => exact absurd (reads ▸ scanComment_token size lineEnds _ _) isWord
      | illegal isIllegal => cases isComma.symm.trans isIllegal
    have isReader : step.reader = ⟨ahead, []⟩ := by
      rw [reads, scanNext_separator lineEnds (.inl isGlyph) onLine.fit.tail]
    have alone : front = [] := by
      rw [isReader, cons_append] at taken
      exact append_left_eq_self.mp (List.cons.inj taken).2.symm
    rw [alone, flatMap_singleton, onLine.bytes_eq mem_cons_self isGlyph]
    rfl
  · intro isString value decoded
    cases kind with
    | plain _ _ _ _ _ string =>
      rcases string isString with ⟨isMark, reads⟩ | ⟨isMark, reads⟩
      · exact string_text onLine isMark reads taken (cons_ne_nil _ _) decoded
      · exact raw_text onLine isMark reads silent taken decoded
    | lineEnd _ isLineEnd => cases isString.symm.trans (token_of_isLineEnd isLineEnd)
    | comment _ _ reads => exact absurd (reads ▸ scanComment_token size lineEnds _ _) isWord
    | illegal isIllegal => cases isString.symm.trans isIllegal

/-- What is ahead on a line: fillers up to its end, or fillers and a word before what is ahead later. -/
inductive NextWord (size : Nat) (lineEnds : Bool) (ahead : List Glyph) : Prop where
  | none (last : Bool) (isFiller : LastFiller (ahead.flatMap Glyph.bytes))
      (found : spoken (scanAll size lineEnds ⟨ahead, []⟩) = ends size last)
  | some {filler word : Bytes} {lexeme : Lexeme} {flag : Bool} {later : List Glyph}
      (isFiller : Filler filler)
      (text : ahead.flatMap Glyph.bytes = filler ++ (word ++ later.flatMap Glyph.bytes))
      (written : WrittenAs lexeme word) (suffix : later <:+ ahead) (shorter : later.length < ahead.length)
      (found : spoken (scanAll size lineEnds ⟨ahead, []⟩) =
        lexeme :: spoken (scanAll size flag ⟨later, []⟩))
      (faultless : ∀ other ∈ scanAll size flag ⟨later, []⟩, other.faults = [])

theorem NextWord.after {lineEnds flag : Bool} {ahead later : List Glyph} (next : NextWord size flag later)
    {front : Bytes} (filler : Filler front)
    (text : ahead.flatMap Glyph.bytes = front ++ later.flatMap Glyph.bytes) (suffix : later <:+ ahead)
    (found : spoken (scanAll size lineEnds ⟨ahead, []⟩) = spoken (scanAll size flag ⟨later, []⟩)) :
    NextWord size lineEnds ahead := by
  cases next with
  | none last isFiller foundLater =>
    exact .none last (text ▸ filler.append_last isFiller) (found.trans foundLater)
  | some isFiller textLater written suffixLater shorter foundLater faultless =>
    refine .some (filler.append isFiller) ?_ written (suffixLater.trans suffix)
      (Nat.lt_of_lt_of_le shorter suffix.length_le) (found.trans foundLater) faultless
    rw [text, textLater, append_assoc]

theorem filler_of_isSkipped {glyph : Glyph} {ahead : List Glyph} (onLine : OnLine (glyph :: ahead))
    {lineEnds : Bool} (skipped : isSkipped lineEnds glyph.char = true) : Filler glyph.bytes := by
  have written {char : Char} (isChar : glyph.char = char) (single : Bytes.ofChar char = [byte char])
      (isBlank : byte char ∈ [byte ' ', byte '\t', byte '\r']) : Filler glyph.bytes := by
    rw [onLine.bytes_eq mem_cons_self isChar, single]
    exact .blank isBlank .none
  simp only [isSkipped, Bool.or_eq_true, Bool.and_eq_true, beq_iff_eq] at skipped
  rcases skipped with ((isSpace | isTab) | isReturn) | ⟨isFeed, _⟩
  · exact written isSpace rfl (by decide)
  · exact written isTab rfl (by decide)
  · exact written isReturn rfl (by decide)
  · exact absurd isFeed (onLine.noFeed glyph mem_cons_self)

theorem scanAll_at {glyph : Glyph} {ahead : List Glyph} (onLine : OnLine (glyph :: ahead))
    {lineEnds : Bool} (notSkipped : isSkipped lineEnds glyph.char = false) :
    ∃ step : Step, step = scanNext size lineEnds ⟨glyph :: ahead, []⟩ ∧
      Kind size lineEnds ⟨glyph :: ahead, []⟩ glyph.char step ∧ step.reader.ahead <:+ ahead ∧
      scanAll size lineEnds ⟨glyph :: ahead, []⟩ =
        step.lexeme :: scanAll size step.lineEnds ⟨step.reader.ahead, []⟩ := by
  have stands : Reader.char? ⟨glyph :: ahead, []⟩ = some glyph.char := rfl
  have isAt := @scanNext_of_not_isSkipped size lineEnds glyph ahead notSkipped
  have kind := scanAt_kind size lineEnds ⟨glyph :: ahead, []⟩ glyph.char
  have notEnd := (scanAt_takes size lineEnds stands).notEnd
  have follows := (scanAt_takes size lineEnds stands).follows
  have alone := (scanAt_goesOn size lineEnds stands onLine.noFeed).2
  have silent := scanNext_silent size lineEnds ⟨glyph :: ahead, []⟩
  rw [← isAt] at notEnd kind follows alone
  refine ⟨_, rfl, kind, follows, ?_⟩
  rw [scanAll_of_ne_eof notEnd, Step.inserted, alone]
  generalize scanNext size lineEnds ⟨glyph :: ahead, []⟩ = step at silent
  rcases step with ⟨lexeme, ⟨later, faults⟩, flag, newline?⟩
  cases silent
  rfl

theorem nextWord {ahead : List Glyph} (onLine : OnLine ahead) {lineEnds : Bool}
    (faultless : ∀ lexeme ∈ scanAll size lineEnds ⟨ahead, []⟩, lexeme.faults = []) :
    NextWord size lineEnds ahead := by
  -- White space and comments are passed over one by one, so that the induction is on what is ahead.
  induction length : ahead.length using Nat.strongRecOn generalizing ahead lineEnds with
  | ind length ih =>
  subst length
  cases ahead with
  | nil =>
    refine .none lineEnds (.filler .none) ?_
    rw [scanAll_nil]
    cases lineEnds <;> rfl
  | cons glyph ahead =>
    have onLineLater := onLine.of_suffix (suffix_cons _ _)
    cases skipped : isSkipped lineEnds glyph.char with
    | true =>
      have same := @scanAll_skip size lineEnds glyph ahead skipped onLineLater.fit
      rw [same] at faultless
      have next := ih _ (Nat.lt_succ_self _) onLineLater faultless rfl
      exact next.after (filler_of_isSkipped onLine skipped) flatMap_cons (suffix_cons _ _)
        (congrArg spoken same)
    | false =>
      rcases @scanAll_at size _ _ onLine _ skipped with ⟨step, reads, kind, suffix, found⟩
      rw [found, forall_mem_cons] at faultless
      rcases faultless with ⟨silent, faultless⟩
      have shorter := Nat.lt_succ_of_le suffix.length_le
      have onLineRest := onLineLater.of_suffix suffix
      by_cases isComment : step.lexeme.token = .comment
      · rcases kind.of_comment isComment with ⟨isSlash, opensComment, isScan⟩
        have same : spoken (scanAll size lineEnds ⟨glyph :: ahead, []⟩) =
            spoken (scanAll size step.lineEnds ⟨step.reader.ahead, []⟩) := by
          rw [found, spoken_cons_of_eq isComment]
        rcases scanComment_text onLine isSlash opensComment isScan silent with
          ⟨inner, text, toEnd⟩ | ⟨inner, isOpen, text⟩
        · refine .none step.lineEnds (text ▸ .comment .none) ?_
          rw [same, toEnd, scanAll_nil]
          cases step.lineEnds <;> rfl
        · have next := ih _ shorter onLineRest faultless rfl
          refine next.after (.comment isOpen .none) ?_ (suffix.trans (suffix_cons _ _)) same
          rw [text, cons_append, cons_append, append_assoc]
          rfl
      · rcases scanNext_writtenAs onLine skipped reads silent isComment with ⟨word, taken, written⟩
        refine .some .none ?_ written (suffix.trans (suffix_cons _ _)) shorter ?_ faultless
        · rw [taken, flatMap_append, nil_append]
        · rw [found, spoken_cons_of_ne isComment]

end Lexeme
end Source
end CaseExpansion
