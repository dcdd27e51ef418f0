import CaseExpansion.Proofs.Selection
import CaseExpansion.Proofs.Source.Reading
import CaseExpansion.Source.LineDirective

namespace CaseExpansion
namespace Source

open List
open Text (Glyph Tiles offsetOf)

/-!
# Where the lexemes of a text lie

The lexemes of a text come in the order in which they are written, without
overlap and inside of the text, and the last one is the end of the file.  The
exceptions are the semicolons that stand for line ends: one of them may have no
extent of its own and may lie in the comment before it.  What is said here
therefore concerns the lexemes that have an extent; all others than semicolons
and the end of the file do.
-/

/-! ## The last word -/

/-- Some words end with the end of the file, which stands nowhere else. -/
def Token.Ended : List Token → Prop
  | [] => False
  | [last] => last = .eof
  | first :: second :: rest => first ≠ .eof ∧ Ended (second :: rest)

namespace Token.Ended

variable {words : List Token}

theorem cons {word : Token} (ended : Ended words) (notEnd : word ≠ .eof) : Ended (word :: words) := by
  cases words with
  | nil => exact absurd ended id
  | cons second rest => exact ⟨notEnd, ended⟩

theorem getLast? (ended : Ended words) : words.getLast? = some .eof := by
  induction words with
  | nil => exact absurd ended id
  | cons first words ih =>
    cases words with
    | nil => exact congrArg some ended
    | cons second rest =>
      rw [getLast?_cons_cons]
      exact ih ended.2

end Token.Ended

/-! ## One lexeme -/

namespace Lexeme

/-- The place of a lexeme in a text of the given size. -/
structure Lies (size : Nat) (lexeme : Lexeme) : Prop where
  solid : lexeme.token ≠ .semicolon → lexeme.token ≠ .eof → lexeme.offset < lexeme.stop
  inside : lexeme.offset < lexeme.stop → lexeme.stop ≤ size
  comment : lexeme.token = .comment →
    lexeme.literal ≠ [] ∧ lexeme.offset + lexeme.literal.length ≤ lexeme.stop

variable {size : Nat} {lexeme : Lexeme} {start reader : Reader} {step : Step} {char : Char}
  {lineEnds : Bool}

theorem Lies.solid_of_eq {token : Token} (lies : lexeme.Lies size) (isToken : lexeme.token = token)
    (notSemicolon : token ≠ .semicolon) (notEnd : token ≠ .eof) : lexeme.offset < lexeme.stop :=
  lies.solid (isToken ▸ notSemicolon) (isToken ▸ notEnd)

/-- A step of a scan ends where a reader stands, and its lexeme has the faults of that
reader. -/
def Step.EndsAt (step : Step) (last : Reader) : Prop :=
  step.reader = ⟨last.ahead, []⟩ ∧ step.lexeme.faults = last.faults.reverse

/-- What a step of a scan has taken that starts where the given reader stands. -/
structure Step.Takes (size : Nat) (start : Reader) (step : Step) : Prop where
  offset : step.lexeme.offset = start.offset size
  stop : step.lexeme.stop = step.reader.offset size
  moves : ∃ last, start.Moves size true last ∧ step.EndsAt last
  newline : ∀ newline ∈ step.newline?, start.Inside size newline
  notEnd : step.lexeme.token ≠ .eof
  comment : step.lexeme.token = .comment → start.char? = some '/' ∧
    step.lexeme.literal = LiteralScan.commentText (Reader.between start step.reader)
  keyword : step.lexeme.token = .kwPackage → Reader.between start step.reader = "package"

theorem Step.Takes.follows (takes : step.Takes size start) : step.reader.Follows start.advance := by
  rcases takes.moves with ⟨last, moves, stands, _⟩
  rw [stands]
  exact moves.follows_advance

section

variable {size : Nat} {start reader : Reader} (moves : start.Moves size true reader)
include moves

theorem finish_takes {token : Token} (other : token ∉ [Token.comment, .kwPackage, .eof]) (literal : Bytes)
    (lineEnds : Bool) : (finish size start reader token literal lineEnds).Takes size start := by
  have isOther {named : Token} (isNamed : named ∈ [Token.comment, .kwPackage, .eof]) : token ≠ named :=
    fun same => other (same ▸ isNamed)
  exact
    { offset := rfl
      stop := rfl
      moves := ⟨reader, moves, rfl, rfl⟩
      newline := fun _ none => absurd none (Option.not_mem_none _)
      notEnd := isOther (by decide)
      comment := fun isComment => absurd isComment (isOther (by decide))
      keyword := fun isKeyword => absurd isKeyword (isOther (by decide)) }

theorem finish_comment_takes (lineEnds : Bool) {newline? : Option Nat}
    (inside : ∀ newline ∈ newline?, start.Inside size newline) (stands : start.char? = some '/') :
    (finish size start reader .comment (LiteralScan.commentText (Reader.between start reader))
      lineEnds newline?).Takes size start where
  offset := rfl
  stop := rfl
  moves := ⟨reader, moves, rfl, rfl⟩
  newline := inside
  notEnd impossible := nomatch impossible
  comment _ := ⟨stands, rfl⟩
  keyword impossible := nomatch impossible

end

theorem scanComment_takes (size : Nat) (lineEnds : Bool) (stands : start.char? = some '/') :
    (scanComment size lineEnds start start.advance).Takes size start := by
  have once : start.Moves size true start.advance := .advance .refl
  have here : start.Inside size (start.offset size) := Reader.Within.le_size
  have none : ∀ newline ∈ (none : Option Nat), start.Inside size newline :=
    fun _ none => absurd none (Option.not_mem_none _)
  unfold scanComment
  split
  · exact finish_comment_takes (Reader.skipWhile_moves _ once) _ none stands
  · have inner := LiteralScan.blockComment_moves once.next none
    refine finish_comment_takes (.ite inner.1 (inner.1.report here)) _ (fun newline member => ?_) stands
    split at member
    · exact inner.2 newline member
    · cases member

theorem takeAll?_moves {origin : Reader} {further : Bool} {chars : List Char} {later : Reader}
    (moves : origin.Moves size further reader) (taken : takeAll? chars reader = some later) :
    origin.Moves size further later := by
  induction chars generalizing reader with
  | nil =>
    cases taken
    exact moves
  | cons char chars ih =>
    rw [takeAll?] at taken
    split at taken
    · exact ih moves.advance taken
    · cases taken

/-- What holds of all operators of the table and the characters that they start with holds of the one that
is read. -/
theorem operator?_eq_some (holds : Char → Token → Prop)
    (table : ∀ entry ∈ operatorTable, ∀ choice ∈ entry.2, holds entry.1 choice.2) {later : Reader}
    {token : Token} (found : operator? char reader = some (token, later)) :
    (∃ chars, takeAll? chars reader = some later) ∧ holds char token := by
  rw [operator?, Option.bind_eq_bind, Option.bind_eq_some_iff] at found
  rcases found with ⟨choices, isChoices, found⟩
  rcases exists_of_findSome?_eq_some found with ⟨⟨rest, chosen⟩, isChoice, found⟩
  rcases Option.bind_eq_some_iff.mp found with ⟨reader', taken, same⟩
  cases same
  exact ⟨⟨rest, taken⟩, table _ (mem_of_lookup isChoices) _ isChoice⟩

theorem ofWord_holds (holds : Bytes → Token → Prop)
    (table : ∀ entry ∈ Token.keywords, holds entry.1 entry.2)
    {word : Bytes} (name : holds word .ident) : holds word (Token.ofWord word) := by
  rw [Token.ofWord]
  cases found : Token.keywords.lookup word with
  | none => exact name
  | some token => exact table _ (mem_of_lookup found)

/-- A lexeme takes at least the character that it starts with. -/
theorem scanAt_takes (size : Nat) (lineEnds : Bool) (stands : start.char? = some char) :
    (scanAt size lineEnds start char).Takes size start := by
  have once : start.Moves size true start.advance := .advance .refl
  have here : start.Inside size (start.offset size) := Reader.Within.le_size
  unfold scanAt
  split
  next isName =>
    have isPart : isNamePart char = true := by rw [isNamePart, isName, Bool.true_or]
    exact
      { offset := rfl
        stop := rfl
        moves := ⟨_, Reader.skipWhile_moves_further stands isPart, rfl, rfl⟩
        newline := fun _ none => absurd none (Option.not_mem_none _)
        notEnd := ofWord_holds (fun _ token => token ≠ .eof) (by decide) (by decide)
        comment := fun isComment => absurd isComment
          (ofWord_holds (fun _ token => token ≠ .comment) (by decide) (by decide))
        keyword := ofWord_holds (fun word token => token = .kwPackage → word = "package") (by decide)
          (fun impossible => nomatch impossible) }
  · split
    next isNumber =>
      rw [Bool.or_eq_true, Bool.and_eq_true, decide_eq_true_eq] at isNumber
      have others : ∀ token ∈ [Token.int, Token.float, Token.imag],
          token ∉ [Token.comment, .kwPackage, .eof] := by decide
      exact finish_takes (NumberScan.read_moves stands (isNumber.imp_right And.left))
        (others _ (NumberScan.read_token size start)) _ _
    · dsimp only
      split
      · exact finish_takes once (by decide) _ _
      · split
        · exact finish_takes (LiteralScan.string_moves once here) (by decide) _ _
        · split
          · exact finish_takes (LiteralScan.rune_moves once here) (by decide) _ _
          · split
            · exact finish_takes (LiteralScan.rawString_moves once here) (by decide) _ _
            · split
              next isComment =>
                rw [Bool.and_eq_true, decide_eq_true_eq] at isComment
                rw [isComment.1] at stands
                exact scanComment_takes _ _ stands
              · split
                next token reader found =>
                  rcases operator?_eq_some (fun _ token =>
                    token ∉ [Token.comment, .kwPackage, .eof]) (by decide)
                    found with ⟨⟨chars, taken⟩, isOther⟩
                  exact finish_takes (takeAll?_moves once taken) isOther _ _
                · exact finish_takes (.ite once (.ite (once.report here) (once.report here)))
                    (by decide) _ _

theorem commentText_between_ne_nil {stop : Reader} (within : start.Within size)
    (stands : start.char? = some '/')
    (follows : stop.Follows start.advance) :
    LiteralScan.commentText (Reader.between start stop) ≠ [] := by
  rcases within.between_of_advance stands follows with ⟨first, rest, read, plain⟩
  rw [read]
  refine LiteralScan.commentText_ne_nil ?_ rest
  intro isReturn
  rw [isReturn] at plain
  exact absurd (plain (by decide)) (by decide)

theorem Step.Takes.lies (takes : step.Takes size start) (within : start.Within size)
    (stands : start.char? = some char) : step.lexeme.Lies size where
  solid _ _ := by
    rw [takes.offset, takes.stop]
    exact within.offset_lt stands takes.follows
  inside _ := by
    rw [takes.stop]
    exact (within.of_follows takes.follows.of_advance).le_size
  comment isComment := by
    rcases takes.comment isComment with ⟨isSlash, literal⟩
    refine ⟨?_, ?_⟩
    · rw [literal]
      exact commentText_between_ne_nil within isSlash takes.follows
    · have length := LiteralScan.commentText_length_le (Reader.between start step.reader)
      have distance := within.length_between takes.follows.of_advance
      rw [takes.offset, takes.stop, literal]
      omega

/-! ## All lexemes -/

/-- One lexeme stands before another, as far as they have an extent. -/
def Before (earlier later : Lexeme) : Prop :=
  earlier.offset < earlier.stop → later.offset < later.stop → earlier.stop ≤ later.offset

/-- A scan takes a lexeme after some white space, or it is at the end of the text. -/
theorem scanNext_cases (size : Nat) (lineEnds : Bool) (reader : Reader) :
    ∃ start : Reader, reader.Moves size false start ∧
      ((∃ char, start.char? = some char ∧ (scanNext size lineEnds reader).Takes size start) ∨
        start.ahead = [] ∧ scanNext size lineEnds reader = finish size start start
          (if lineEnds then .semicolon else .eof) (if lineEnds then [byte '\n'] else []) false) := by
  refine ⟨_, Reader.skipWhile_moves (isSkipped lineEnds) .refl, ?_⟩
  rw [scanNext]
  generalize Reader.skipWhile (isSkipped lineEnds) reader.ahead reader.faults = start
  cases stands : start.char? with
  | some char => exact Or.inl ⟨char, rfl, scanAt_takes size lineEnds stands⟩
  | none =>
    refine Or.inr ⟨?_, ?_⟩
    · exact head?_eq_none_iff.mp (Option.map_eq_none_iff.mp stands)
    · cases lineEnds <;> rfl

/-- The semicolon that a line feed inside of a comment stands for. -/
def Step.inserted (step : Step) : List Lexeme :=
  step.newline?.toList.map fun newline =>
    { token := .semicolon, offset := newline, stop := newline, literal := [byte '\n'] }

theorem of_mem_inserted (member : lexeme ∈ step.inserted) :
    lexeme.token = .semicolon ∧ lexeme.stop = lexeme.offset := by
  rcases mem_map.mp member with ⟨newline, _, rfl⟩
  exact ⟨rfl, rfl⟩

theorem scanFrom_succ (size fuel : Nat) (lineEnds : Bool) (reader : Reader) :
    scanFrom size (fuel + 1) lineEnds reader = (scanNext size lineEnds reader).lexeme ::
      if (scanNext size lineEnds reader).lexeme.token = .eof then []
      else (scanNext size lineEnds reader).inserted ++ scanFrom size fuel
        (scanNext size lineEnds reader).lineEnds (scanNext size lineEnds reader).reader := by
  rw [scanFrom, Step.inserted]
  generalize scanNext size lineEnds reader = step
  dsimp only
  split
  · rfl
  · cases step.newline? <;> rfl

/-- The lexemes of a text of the given size, from an offset on. -/
structure Spread (size offset : Nat) (lexemes : List Lexeme) : Prop where
  lies : ∀ lexeme ∈ lexemes, lexeme.Lies size
  after : ∀ lexeme ∈ lexemes, lexeme.offset < lexeme.stop → offset ≤ lexeme.offset
  ordered : lexemes.Pairwise Before

namespace Spread

variable {size offset : Nat} {lexemes : List Lexeme}

theorem mono {earlier : Nat} (spread : Spread size offset lexemes) (le : earlier ≤ offset) :
    Spread size earlier lexemes :=
  ⟨spread.lies, fun lexeme member solid => Nat.le_trans le (spread.after lexeme member solid),
    spread.ordered⟩

theorem of_sublist {fewer : List Lexeme} (spread : Spread size offset lexemes)
    (sublist : fewer.Sublist lexemes) : Spread size offset fewer where
  lies lexeme member := spread.lies lexeme (sublist.subset member)
  after lexeme member := spread.after lexeme (sublist.subset member)
  ordered := spread.ordered.sublist sublist

theorem cons {lexeme : Lexeme} (spread : Spread size offset lexemes) (lies : lexeme.Lies size)
    (start : lexeme.offset ≤ lexeme.stop) (stop : lexeme.stop ≤ offset) :
    Spread size lexeme.offset (lexeme :: lexemes) where
  lies := forall_mem_cons.mpr ⟨lies, spread.lies⟩
  after := forall_mem_cons.mpr
    ⟨fun _ => Nat.le_refl _, (spread.mono (Nat.le_trans start stop)).after⟩
  ordered := pairwise_cons.mpr
    ⟨fun later member _ solid => Nat.le_trans stop (spread.after later member solid), spread.ordered⟩

/-- Semicolons without an extent may stand anywhere. -/
theorem append_inserted (step : Step) (spread : Spread size offset lexemes) :
    Spread size offset (step.inserted ++ lexemes) := by
  have thin {lexeme : Lexeme} (member : lexeme ∈ step.inserted) : ¬lexeme.offset < lexeme.stop := by
    rw [(of_mem_inserted member).2]
    exact Nat.lt_irrefl _
  refine ⟨?_, ?_, ?_⟩
  · intro lexeme member
    rcases mem_append.mp member with isInserted | isLater
    · refine ⟨fun notSemicolon => absurd (of_mem_inserted isInserted).1 notSemicolon,
        fun solid => absurd solid (thin isInserted), fun isComment => ?_⟩
      rw [(of_mem_inserted isInserted).1] at isComment
      cases isComment
    · exact spread.lies lexeme isLater
  · intro lexeme member solid
    rcases mem_append.mp member with isInserted | isLater
    · exact absurd solid (thin isInserted)
    · exact spread.after lexeme isLater solid
  · refine pairwise_append.mpr ⟨?_, spread.ordered, ?_⟩
    · exact pairwise_of_forall_mem_list fun earlier isEarlier _ _ solid =>
        absurd solid (thin isEarlier)
    · exact fun earlier isEarlier _ _ solid => absurd solid (thin isEarlier)

end Spread

theorem finish_end_lies (size : Nat) (start : Reader) (lineEnds : Bool) (literal : Bytes) :
    (finish size start start (if lineEnds then .semicolon else .eof) literal false).lexeme.Lies size where
  solid notSemicolon notEnd := by
    cases lineEnds
    · exact absurd rfl notEnd
    · exact absurd rfl notSemicolon
  inside solid := absurd solid (Nat.lt_irrefl _)
  comment isComment := by cases lineEnds <;> cases isComment

/-- A step of a scan goes on where the one before stopped. -/
theorem scanNext_lies (lineEnds : Bool) (within : reader.Within size) :
    (scanNext size lineEnds reader).lexeme.Lies size ∧
      reader.offset size ≤ (scanNext size lineEnds reader).lexeme.offset ∧
      (scanNext size lineEnds reader).lexeme.offset ≤ (scanNext size lineEnds reader).lexeme.stop ∧
      (scanNext size lineEnds reader).lexeme.stop =
        (scanNext size lineEnds reader).reader.offset size ∧
      (scanNext size lineEnds reader).reader.Within size := by
  rcases scanNext_cases size lineEnds reader with ⟨start, skips, ⟨char, stands, takes⟩ | ⟨_, ends⟩⟩
  · have follows := skips.follows
    have inside := within.of_follows follows
    have moves := inside.offset_lt stands takes.follows
    rw [takes.offset, takes.stop]
    exact ⟨takes.lies inside stands, within.offset_le follows, Nat.le_of_lt moves, rfl,
      inside.of_follows takes.follows.of_advance⟩
  · rw [ends]
    exact ⟨finish_end_lies size start lineEnds _, within.offset_le skips.follows, Nat.le_refl _, rfl,
      within.of_follows skips.follows⟩

/-- Lexemes lie in the text, one after another, from where the reader stands. -/
theorem scanFrom_spread (fuel : Nat) (lineEnds : Bool) (within : reader.Within size) :
    Spread size (reader.offset size) (scanFrom size fuel lineEnds reader) := by
  induction fuel generalizing lineEnds reader with
  | zero => exact ⟨nofun, nofun, .nil⟩
  | succ fuel ih =>
    rcases scanNext_lies lineEnds within with ⟨lies, later, start, stop, inside⟩
    have rest := (ih (scanNext size lineEnds reader).lineEnds inside).append_inserted
      (scanNext size lineEnds reader)
    rw [scanFrom_succ]
    split
    · have none : Spread size (scanNext size lineEnds reader).lexeme.stop [] := ⟨nofun, nofun, .nil⟩
      exact (none.cons lies start (Nat.le_refl _)).mono later
    · exact (rest.cons lies start (Nat.le_of_eq stop)).mono later

/-- A step takes a glyph, or the text is at its end and the flag goes down. -/
theorem scanNext_shrinks (notEnd : (scanNext size lineEnds reader).lexeme.token ≠ .eof) :
    2 * (scanNext size lineEnds reader).reader.ahead.length +
      (scanNext size lineEnds reader).lineEnds.toNat < 2 * reader.ahead.length + lineEnds.toNat := by
  rcases scanNext_cases size lineEnds reader with
    ⟨start, skips, ⟨char, stands, takes⟩ | ⟨isEnd, ends⟩⟩
  · rcases Reader.ahead_of_char? stands with ⟨glyph, ahead, isAhead, _, advanced⟩
    have taken := takes.follows.length_le
    have skipped := skips.follows.length_le
    have flag := Bool.toNat_le (scanNext size lineEnds reader).lineEnds
    rw [advanced] at taken
    rw [isAhead, length_cons] at skipped
    omega
  · rw [ends] at notEnd ⊢
    cases lineEnds with
    | false => exact absurd rfl notEnd
    | true =>
      change 2 * start.ahead.length + 0 < _
      rw [isEnd, length_nil, Bool.toNat_true]
      omega

theorem scanFrom_ended {fuel : Nat} (enough : 2 * reader.ahead.length + lineEnds.toNat < fuel) :
    Token.Ended ((scanFrom size fuel lineEnds reader).map Lexeme.token) := by
  induction fuel generalizing lineEnds reader with
  | zero => cases enough
  | succ fuel ih =>
    rw [scanFrom_succ]
    split
    next isEnd => exact isEnd
    next notEnd =>
      have fewer := scanNext_shrinks notEnd
      have rest : Token.Ended ((scanFrom size fuel (scanNext size lineEnds reader).lineEnds
        (scanNext size lineEnds reader).reader).map Lexeme.token) := ih (by omega)
      refine Token.Ended.cons ?_ notEnd
      unfold Step.inserted
      cases (scanNext size lineEnds reader).newline? with
      | none => exact rest
      | some newline => exact rest.cons (by decide : Token.semicolon ≠ .eof)

/-- The keyword of the package clause is written in the text. -/
theorem scanNext_keyword (within : reader.Within size)
    (isKeyword : (scanNext size lineEnds reader).lexeme.token = .kwPackage) :
    ∃ glyph ∈ reader.ahead, glyph.char = 'p' := by
  rcases scanNext_cases size lineEnds reader with ⟨start, skips, ⟨_, stands, takes⟩ | ⟨_, ends⟩⟩
  · have follows := skips.follows
    rcases (within.of_follows follows).between_of_advance stands takes.follows with
      ⟨first, rest, read, plain⟩
    rw [takes.keyword isKeyword] at read
    rw [← (List.cons.inj read).1] at plain
    rcases Reader.ahead_of_char? stands with ⟨glyph, ahead, isAhead, same, _⟩
    refine ⟨glyph, follows.subset ?_, same.trans (plain (by decide))⟩
    rw [isAhead]
    exact mem_cons_self
  · rw [ends] at isKeyword
    cases lineEnds <;> cases isKeyword

theorem scanNext_endsAt (size : Nat) (lineEnds : Bool) (reader : Reader) :
    ∃ last, reader.Moves size false last ∧ (scanNext size lineEnds reader).EndsAt last := by
  rcases scanNext_cases size lineEnds reader with ⟨start, skips, ⟨_, _, takes⟩ | ⟨_, ends⟩⟩
  · rcases takes.moves with ⟨last, moves, stands⟩
    exact ⟨last, skips.trans moves.weaken, stands⟩
  · rw [ends]
    exact ⟨start, skips, rfl, rfl⟩

theorem scanNext_follows (size : Nat) (lineEnds : Bool) (reader : Reader) :
    (scanNext size lineEnds reader).reader.Follows reader := by
  rcases scanNext_endsAt size lineEnds reader with ⟨last, moves, stands, _⟩
  rw [stands]
  exact moves.follows

/-- Every lexeme is that of a step further on, or it is a line end that such a step adds. -/
theorem exists_scanNext_of_mem {fuel : Nat} (member : lexeme ∈ scanFrom size fuel lineEnds reader) :
    ∃ ends later, Reader.Follows later reader ∧
      (lexeme = (scanNext size ends later).lexeme ∨ lexeme ∈ (scanNext size ends later).inserted) := by
  induction fuel generalizing lineEnds reader with
  | zero => cases member
  | succ fuel ih =>
    rw [scanFrom_succ] at member
    rcases mem_cons.mp member with isFirst | isRest
    · exact ⟨lineEnds, reader, .refl reader, .inl isFirst⟩
    · split at isRest
      · cases isRest
      · rcases mem_append.mp isRest with isInserted | isRest
        · exact ⟨lineEnds, reader, .refl reader, .inr isInserted⟩
        · rcases ih isRest with ⟨ends, later, follows, found⟩
          exact ⟨ends, later, follows.trans (scanNext_follows size lineEnds reader), found⟩

theorem glyphs_within (text : Bytes) (faults : List Fault) :
    Reader.Within text.length ⟨Text.Utf8.glyphs text, faults⟩ := by
  have tiles := Text.Utf8.glyphs_tile text
  refine ⟨?_, Text.Utf8.glyphs_plain text⟩
  rw [← tiles.offsetOf_eq] at tiles
  exact tiles

theorem startReader_within (text : Bytes) : (startReader text).Within text.length := by
  have wide (first second : UInt8) (rest : Bytes) (notPlain : ¬first < 0x80) :
      Reader.Within (first :: second :: rest).length
        ⟨[⟨Text.replacement, first :: second :: rest, 0⟩], [⟨0, .wideEncoding⟩]⟩ := by
    refine ⟨⟨rfl, Nat.succ_pos _, Nat.zero_add _⟩, ?_⟩
    intro glyph member lead others bytes isPlain
    cases mem_singleton.mp member
    cases bytes
    exact absurd isPlain notPlain
  unfold startReader
  split
  · exact wide _ _ _ (by decide)
  · exact wide _ _ _ (by decide)
  · dsimp only
    split
    · exact (glyphs_within text _).of_follows (Reader.Follows.refl _).advance
    · exact glyphs_within text _

/-- The lexemes of a text lie in it, and the last one is the end of the file. -/
theorem scan_spread (text : Bytes) : Spread text.length 0 (scan text) :=
  (scanFrom_spread _ _ (startReader_within text)).mono (Nat.zero_le _)

theorem mem_glyphs_of_startReader {text : Bytes} {glyph : Glyph}
    (isAhead : glyph ∈ (startReader text).ahead)
    (isRead : glyph.char ≠ Text.replacement) : glyph ∈ Text.Utf8.glyphs text := by
  unfold startReader at isAhead
  split at isAhead
  · cases mem_singleton.mp isAhead
    exact absurd rfl isRead
  · cases mem_singleton.mp isAhead
    exact absurd rfl isRead
  · dsimp only at isAhead
    split at isAhead
    · exact (Reader.Follows.refl _).advance.subset isAhead
    · exact isAhead

theorem isBlankText_of_keyword {text : Bytes} (member : lexeme ∈ scan text)
    (isKeyword : lexeme.token = .kwPackage) : Text.isBlankText text = false := by
  rcases exists_scanNext_of_mem member with ⟨ends, later, follows, rfl | isInserted⟩
  · rcases scanNext_keyword ((startReader_within text).of_follows follows) isKeyword with
      ⟨glyph, isAhead, isFirst⟩
    have isGlyph := mem_glyphs_of_startReader (follows.subset isAhead) (by rw [isFirst]; decide)
    apply Bool.eq_false_iff.mpr
    intro isBlank
    have blank := all_eq_true.mp isBlank glyph isGlyph
    rw [isFirst] at blank
    cases blank
  · rw [(of_mem_inserted isInserted).1] at isKeyword
    cases isKeyword

/-- A lexeme apart from its faults. -/
def bare (lexeme : Lexeme) : Lexeme :=
  { lexeme with faults := [] }

end Lexeme

/-! ## Line directives -/

namespace LineDirective

/-- Line directives change no lexeme but for its faults, and no size. -/
theorem step_keeps (filename text : Bytes) (starts : List Nat) (state : LineTable × List Lexeme)
    (lexeme : Lexeme) :
    (step filename text starts state lexeme).1.size = state.1.size ∧
      (step filename text starts state lexeme).2.map Lexeme.bare =
        lexeme.bare :: state.2.map Lexeme.bare := by
  unfold step
  dsimp only
  split
  · exact ⟨rfl, rfl⟩
  · split
    · exact ⟨rfl, rfl⟩
    · split
      · exact ⟨rfl, rfl⟩
      · exact ⟨rfl, rfl⟩
      · split <;> exact ⟨rfl, rfl⟩

theorem foldl_step_keeps (filename text : Bytes) (starts : List Nat) (lexemes : List Lexeme)
    (state : LineTable × List Lexeme) :
    (lexemes.foldl (step filename text starts) state).1.size = state.1.size ∧
      (lexemes.foldl (step filename text starts) state).2.map Lexeme.bare =
        (lexemes.map Lexeme.bare).reverse ++ state.2.map Lexeme.bare := by
  induction lexemes generalizing state with
  | nil => exact ⟨rfl, rfl⟩
  | cons lexeme lexemes ih =>
    have one := step_keeps filename text starts state lexeme
    have rest := ih (step filename text starts state lexeme)
    rw [one.1, one.2] at rest
    rw [foldl_cons, map_cons, reverse_cons, append_assoc]
    exact rest

end LineDirective

theorem scanFile_keeps (filename text : Bytes) :
    (scanFile filename text).1.size = text.length ∧
      (scanFile filename text).2.map Lexeme.bare = (Lexeme.scan text).map Lexeme.bare := by
  have keeps := LineDirective.foldl_step_keeps filename text (lineStarts text) (Lexeme.scan text)
    (LineTable.ofText filename text, [])
  refine ⟨keeps.1, ?_⟩
  change (List.reverse _).map Lexeme.bare = _
  rw [map_reverse, keeps.2, map_nil, append_nil, reverse_reverse]

/-- Faults do not matter for where lexemes lie. -/
theorem Lexeme.spread_bare_iff {size offset : Nat} {lexemes : List Lexeme} :
    Spread size offset (lexemes.map bare) ↔ Spread size offset lexemes := by
  constructor
  · intro spread
    refine ⟨fun lexeme member => ?_, fun lexeme member => ?_, ?_⟩
    · have lies := spread.lies _ (mem_map_of_mem member)
      exact ⟨lies.solid, lies.inside, lies.comment⟩
    · exact spread.after lexeme.bare (mem_map_of_mem member)
    · have ordered := pairwise_map.mp spread.ordered
      exact ordered.imp id
  · intro spread
    refine ⟨forall_mem_map.mpr fun lexeme member => ?_, forall_mem_map.mpr spread.after,
      pairwise_map.mpr spread.ordered⟩
    have lies := spread.lies lexeme member
    exact ⟨lies.solid, lies.inside, lies.comment⟩

theorem scanFile_spread (filename text : Bytes) :
    Lexeme.Spread text.length 0 (scanFile filename text).2 := by
  rw [← Lexeme.spread_bare_iff, (scanFile_keeps filename text).2, Lexeme.spread_bare_iff]
  exact Lexeme.scan_spread text

theorem scanFile_tokens (filename text : Bytes) :
    (scanFile filename text).2.map Lexeme.token = (Lexeme.scan text).map Lexeme.token := by
  have tokens (lexemes : List Lexeme) :
      lexemes.map Lexeme.token = (lexemes.map Lexeme.bare).map Lexeme.token := by
    rw [map_map]
    rfl
  rw [tokens, (scanFile_keeps filename text).2, ← tokens]

theorem scanFile_ended (filename text : Bytes) :
    Token.Ended ((scanFile filename text).2.map Lexeme.token) := by
  rw [scanFile_tokens]
  refine Lexeme.scanFrom_ended ?_
  rw [Bool.toNat_false]
  omega

theorem scanFile_closed (filename text : Bytes) :
    (scanFile filename text).2.getLast?.map Lexeme.token = some .eof := by
  rw [← getLast?_map]
  exact (scanFile_ended filename text).getLast?

theorem isBlankText_of_scanFile {filename text : Bytes} {lexeme : Lexeme}
    (member : lexeme ∈ (scanFile filename text).2) (isKeyword : lexeme.token = .kwPackage) :
    Text.isBlankText text = false := by
  have isBare := mem_map_of_mem (f := Lexeme.bare) member
  rw [(scanFile_keeps filename text).2] at isBare
  rcases mem_map.mp isBare with ⟨scanned, isScanned, same⟩
  exact Lexeme.isBlankText_of_keyword isScanned ((congrArg Lexeme.token same).trans isKeyword)

end Source
end CaseExpansion
