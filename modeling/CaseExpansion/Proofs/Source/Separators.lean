import CaseExpansion.Proofs.Source.Stretches
import Mathlib.Data.List.TakeWhile

namespace CaseExpansion
namespace Source

open List Reader
open Text (Glyph)

/-!
# Separators, white space and line ends

What a scan finds at a character falls into a few kinds, as far as separators and line ends go
(`Lexeme.Kind`).  White space is passed over, stands for a line end, or is a fault.
-/

/-- If the line ends at one lexeme, the other one is neither a comment nor faulty. -/
def QuietAfter (earlier later : Lexeme) : Prop :=
  earlier.token = .eof ∨ earlier.isLineEnd = true → later.token ≠ .comment ∧ later.faults = []

namespace Lexeme

/-- A comma or a semicolon that is written in the text. -/
def isSeparator (lexeme : Lexeme) : Bool :=
  lexeme.token == .comma || (lexeme.token == .semicolon && !lexeme.isLineEnd)

/-- The character that a separator is written as. -/
def mark (lexeme : Lexeme) : Char :=
  if lexeme.token = .comma then ',' else ';'

theorem mark_cases (lexeme : Lexeme) : mark lexeme = ',' ∨ mark lexeme = ';' := by
  rw [mark]
  split
  · exact .inl rfl
  · exact .inr rfl

/-- A step reads a string in quotes or a raw string. -/
def ReadsString (size : Nat) (start : Reader) (char : Char) (step : Step) : Prop :=
  (char = '"' ∧ step = finish size start (LiteralScan.string size (start.offset size) start.advance)
    .string
    (Reader.between start (LiteralScan.string size (start.offset size) start.advance)) true) ∨
  (char = '\x60' ∧ step = finish size start
    (LiteralScan.rawString (start.offset size) start.advance) .string
    ((Reader.between start (LiteralScan.rawString (start.offset size) start.advance)).filter
      (· ≠ byte '\r')) true)

/-- What a step of a scan can be that starts at a character. -/
inductive Kind (size : Nat) (lineEnds : Bool) (start : Reader) (char : Char) (step : Step) : Prop where
  | plain (isWord : step.lexeme.token ≠ .comment) (alone : step.newline? = none)
      (flag : step.lineEnds = endsStatement step.lexeme.token) (goesOn : step.lexeme.isLineEnd = false)
      (separates : isSeparator step.lexeme = true → char = mark step.lexeme)
      (string : step.lexeme.token = .string → ReadsString size start char step)
  | lineEnd (isFeed : char = '\n') (isLineEnd : step.lexeme.isLineEnd = true)
  | comment (isSlash : char = '/') (opens : start.advance.isAt '/' = true ∨ start.advance.isAt '*' = true)
      (reads : step = scanComment size lineEnds start start.advance)
  | illegal (isIllegal : step.lexeme.token = .illegal) (alone : step.newline? = none)
      (faulty : char ≠ byteOrderMark → step.lexeme.faults ≠ [])

variable {lexeme : Lexeme} {size fuel : Nat} {lineEnds : Bool} {start reader : Reader}

theorem isSeparator_eq_false {token : Token} (isToken : lexeme.token = token) (notComma : token ≠ .comma)
    (notSemicolon : token ≠ .semicolon) : isSeparator lexeme = false := by
  rw [isSeparator, isToken, beq_eq_false_iff_ne.mpr notComma, beq_eq_false_iff_ne.mpr notSemicolon]
  rfl

theorem isSeparator_of_isLineEnd (isLineEnd : lexeme.isLineEnd = true) : isSeparator lexeme = false := by
  have isSemicolon := eq_of_beq (Bool.and_eq_true_iff.mp isLineEnd).1
  rw [isSeparator, isLineEnd, isSemicolon]
  rfl

theorem isLineEnd_of_mem_inserted {step : Step} (member : lexeme ∈ step.inserted) :
    lexeme.isLineEnd = true := by
  rcases mem_map.mp member with ⟨newline, _, rfl⟩
  rfl

theorem isLineEnd_eq_false (notSemicolon : lexeme.token ≠ .semicolon) : lexeme.isLineEnd = false := by
  rw [isLineEnd, beq_eq_false_iff_ne.mpr notSemicolon]
  rfl

theorem token_of_isLineEnd (isLineEnd : lexeme.isLineEnd = true) : lexeme.token = .semicolon :=
  eq_of_beq (Bool.and_eq_true_iff.mp isLineEnd).1

theorem scanComment_token (size : Nat) (lineEnds : Bool) (start reader : Reader) :
    (scanComment size lineEnds start reader).lexeme.token = .comment := by
  unfold scanComment
  split <;> rfl

/-- A comment that ends no line leaves it open whether a line end counts. -/
theorem scanComment_lineEnds (alone : (scanComment size lineEnds start reader).newline? = none) :
    (scanComment size lineEnds start reader).lineEnds = lineEnds := by
  unfold scanComment at alone ⊢
  split at alone
  next toEnd => rw [if_pos toEnd, finish]
  next general =>
    rw [if_neg general]
    have alone : (if lineEnds then _ else none) = none := alone
    change (lineEnds && Option.isNone (if lineEnds then _ else none)) = lineEnds
    rw [alone, Option.isNone_none, Bool.and_true]

theorem scanIllegal_faulty (size : Nat) (lineEnds : Bool) (start reader : Reader) {char : Char}
    (notMark : char ≠ byteOrderMark) : (scanIllegal size lineEnds start reader char).lexeme.faults ≠
      [] := by
  unfold scanIllegal
  dsimp only
  rw [if_neg notMark]
  refine fun none => absurd (reverse_eq_nil_iff.mp none) ?_
  split <;> exact cons_ne_nil _ _

theorem scanAt_kind (size : Nat) (lineEnds : Bool) (start : Reader) (char : Char) :
    Kind size lineEnds start char (scanAt size lineEnds start char) := by
  have word {step : Step} (token : Token) (isToken : step.lexeme.token = token)
      (alone : step.newline? = none)
      (flag : step.lineEnds = endsStatement token) (isOther : token ∉ [Token.comment, .comma, .semicolon])
      (string : step.lexeme.token = .string → ReadsString size start char step) :
      Kind size lineEnds start char step := by
    subst isToken
    simp only [mem_cons, not_mem_nil, or_false, not_or] at isOther
    refine .plain isOther.1 alone flag (isLineEnd_eq_false isOther.2.2) (fun separates => ?_) string
    rw [isSeparator_eq_false rfl isOther.2.1 isOther.2.2] at separates
    cases separates
  unfold scanAt
  split
  · refine word _ rfl rfl rfl (ofWord_holds (fun _ token => token ∉ [Token.comment, .comma, .semicolon])
      (by decide) (by decide)) fun isString => absurd isString ?_
    exact ofWord_holds (fun _ token => token ≠ .string) (by decide) (by decide)
  · split
    · have isRead := NumberScan.read_token size start
      generalize NumberScan.read size start = number at isRead ⊢
      have others : ∀ token ∈ [Token.int, Token.float, Token.imag], endsStatement token = true ∧
          token ∉ [Token.comment, .comma, .semicolon] ∧ token ≠ .string := by decide
      rcases others _ isRead with ⟨flag, isOther, notString⟩
      exact word _ rfl rfl flag.symm isOther fun isString => absurd isString notString
    · dsimp only
      split
      next isFeed => exact .lineEnd isFeed rfl
      next =>
        split
        next isMark => exact word .string rfl rfl rfl (by decide) fun _ => .inl ⟨isMark, rfl⟩
        next =>
          split
          · exact word .char rfl rfl rfl (by decide) (fun impossible => nomatch impossible)
          · split
            next isMark => exact word .string rfl rfl rfl (by decide) fun _ => .inr ⟨isMark, rfl⟩
            next =>
              split
              next opens =>
                rw [Bool.and_eq_true, decide_eq_true_eq, Bool.or_eq_true] at opens
                exact .comment opens.1 opens.2 rfl
              next =>
                split
                next token reader found =>
                  have fromTable := operator?_eq_some (fun char token => token ≠ .comment ∧
                    token ≠ .string ∧
                    (token = .comma ∨ token = .semicolon → char = if token = .comma then ',' else ';'))
                    (by decide) found
                  rcases fromTable.2 with ⟨isWord, notString, isMark⟩
                  refine .plain isWord rfl rfl ?_ (fun separates => isMark ?_) fun isString =>
                    absurd isString notString
                  · by_cases isSemicolon : token = .semicolon
                    · rw [if_pos isSemicolon]
                      exact Bool.and_false _
                    · exact isLineEnd_eq_false isSemicolon
                  · by_contra isOther
                    rw [not_or] at isOther
                    rw [isSeparator_eq_false rfl isOther.1 isOther.2] at separates
                    cases separates
                next => exact .illegal rfl rfl (scanIllegal_faulty size lineEnds start _)

theorem scanNext_kind (size : Nat) (lineEnds : Bool) (reader : Reader) :
    (∃ glyph later, glyph :: later <:+ reader.ahead ∧
      (scanNext size lineEnds reader).lexeme.offset = glyph.offset ∧
      Kind size lineEnds (Reader.skipWhile (isSkipped lineEnds) reader.ahead reader.faults) glyph.char
        (scanNext size lineEnds reader)) ∨
    (scanNext size lineEnds reader).lexeme.isLineEnd = true ∨
    (scanNext size lineEnds reader).lexeme.token = .eof := by
  have suffix := skipWhile_suffix (isSkipped lineEnds) reader.ahead reader.faults
  unfold scanNext
  generalize Reader.skipWhile (isSkipped lineEnds) reader.ahead reader.faults = start at suffix ⊢
  dsimp only
  cases stands : start.char? with
  | some char =>
    rcases ahead_of_char? stands with ⟨glyph, later, ahead, rfl, _⟩
    refine .inl ⟨glyph, later, ahead ▸ suffix, ?_, scanAt_kind size lineEnds start glyph.char⟩
    dsimp only
    rw [(scanAt_takes size lineEnds stands).offset, Reader.offset, ahead]
    rfl
  | none =>
    cases lineEnds
    · exact .inr (.inr rfl)
    · exact .inr (.inl rfl)

theorem glyph_of_separator (member : lexeme ∈ scanFrom size fuel lineEnds reader)
    (separates : isSeparator lexeme = true) :
    ∃ glyph later, glyph :: later <:+ reader.ahead ∧ glyph.offset = lexeme.offset ∧
      glyph.char = mark lexeme := by
  rcases exists_scanNext_of_mem member with ⟨ends, further, follows, rfl | isInserted⟩
  · rcases scanNext_kind size ends further with ⟨glyph, later, suffix, place, kind⟩ | isLineEnd | isEnd
    · cases kind with
      | plain _ _ _ _ separator =>
        exact ⟨glyph, later, suffix.trans follows, place.symm, separator separates⟩
      | lineEnd _ isLineEnd =>
        rw [isSeparator_of_isLineEnd isLineEnd] at separates
        cases separates
      | comment _ _ reads =>
        rw [reads, isSeparator_eq_false (scanComment_token ..) (by decide) (by decide)] at separates
        cases separates
      | illegal isIllegal =>
        rw [isSeparator_eq_false isIllegal (by decide) (by decide)] at separates
        cases separates
    · rw [isSeparator_of_isLineEnd isLineEnd] at separates
      cases separates
    · rw [isSeparator_eq_false isEnd (by decide) (by decide)] at separates
      cases separates
  · rw [isSeparator_of_isLineEnd (isLineEnd_of_mem_inserted isInserted)] at separates
    cases separates

/-- A separator takes up some of the text. -/
theorem solid_of_separator (within : reader.Within size)
    (member : lexeme ∈ scanFrom size fuel lineEnds reader)
    (separates : isSeparator lexeme = true) : lexeme.offset < lexeme.stop := by
  rcases exists_scanNext_of_mem member with ⟨ends, further, follows, rfl | isInserted⟩
  · rcases scanNext_cases size ends further with ⟨start, moves, ⟨char, stands, takes⟩ | ⟨_, isEnd⟩⟩
    · rw [takes.offset, takes.stop]
      exact ((within.of_follows follows).of_follows moves.follows).offset_lt stands takes.follows
    · rw [isEnd] at separates
      cases ends <;> cases separates
  · rw [isSeparator_of_isLineEnd (isLineEnd_of_mem_inserted isInserted)] at separates
    cases separates

/-! ## Texts of a single line -/

theorem blockComment_newline {ahead : List Glyph} (noFeed : ∀ glyph ∈ ahead, glyph.char ≠ '\n')
    (newline? : Option Nat) (faults : List Fault) :
    (LiteralScan.blockComment newline? ahead faults).2.2 = newline? := by
  fun_induction LiteralScan.blockComment newline? ahead faults with
  | case1 => rfl
  | case2 newline? glyph => exact if_neg (noFeed glyph mem_cons_self)
  | case3 newline? glyph => exact if_neg (noFeed glyph mem_cons_self)
  | case4 newline? glyph second ahead _ noted _ _ ih =>
    rcases forall_mem_cons.mp noFeed with ⟨notFeed, noFeedLater⟩
    rw [ih noFeedLater]
    exact if_neg notFeed

theorem scanComment_goesOn (size : Nat) (lineEnds : Bool)
    (noFeed : ∀ glyph ∈ reader.ahead, glyph.char ≠ '\n') :
    (scanComment size lineEnds start reader).lexeme.isLineEnd = false ∧
      (scanComment size lineEnds start reader).newline? = none := by
  unfold scanComment
  split
  · exact ⟨rfl, rfl⟩
  · have later : ∀ glyph ∈ reader.advance.ahead, glyph.char ≠ '\n' := fun glyph member =>
      noFeed glyph ((Reader.Follows.refl reader).advance.subset member)
    refine ⟨rfl, ?_⟩
    change (if lineEnds then (LiteralScan.blockComment none reader.advance.ahead _).2.2 else none) = none
    rw [blockComment_newline later, ite_self]

theorem scanAt_goesOn (size : Nat) (lineEnds : Bool) {char : Char} (stands : start.char? = some char)
    (noFeed : ∀ glyph ∈ start.ahead, glyph.char ≠ '\n') :
    (scanAt size lineEnds start char).lexeme.isLineEnd = false ∧
      (scanAt size lineEnds start char).newline? = none := by
  cases scanAt_kind size lineEnds start char with
  | plain _ alone _ goesOn => exact ⟨goesOn, alone⟩
  | lineEnd isFeed =>
    rcases ahead_of_char? stands with ⟨glyph, _, ahead, rfl, _⟩
    exact absurd isFeed (noFeed glyph (ahead ▸ mem_cons_self))
  | comment _ _ reads =>
    rw [reads]
    refine scanComment_goesOn size lineEnds fun glyph member => ?_
    exact noFeed glyph ((Reader.Follows.refl start).advance.subset member)
  | illegal isIllegal alone => exact ⟨isLineEnd_eq_false (isIllegal ▸ by decide), alone⟩

/-- If nothing but white space is ahead, all lexemes stand at the end of the text. -/
theorem scanFrom_of_atEnd
    (atEnd : (Reader.skipWhile (isSkipped lineEnds) reader.ahead reader.faults).char? = none) :
    (∀ lexeme ∈ scanFrom size fuel lineEnds reader, lexeme.offset = size) ∧
      (scanFrom size fuel lineEnds reader).Pairwise QuietAfter := by
  cases fuel with
  | zero => exact ⟨forall_mem_nil _, .nil⟩
  | succ fuel =>
    rw [scanFrom_succ, scanNext]
    generalize Reader.skipWhile (isSkipped lineEnds) reader.ahead reader.faults = start at atEnd
    rcases start with ⟨_ | ⟨glyph, ahead⟩, faults⟩
    · cases lineEnds with
      | false => exact ⟨forall_mem_singleton.mpr rfl, pairwise_singleton _ _⟩
      | true =>
        cases fuel with
        | zero => exact ⟨forall_mem_singleton.mpr rfl, pairwise_singleton _ _⟩
        | succ fuel =>
          have isWord : Token.eof ≠ .comment := by decide
          exact ⟨forall_mem_cons.mpr ⟨rfl, forall_mem_singleton.mpr rfl⟩,
            pairwise_pair.mpr fun _ => ⟨isWord, rfl⟩⟩
    · cases atEnd

theorem exists_words_of_noFeed (noFeed : ∀ glyph ∈ reader.ahead, glyph.char ≠ '\n') :
    ∃ words others, scanFrom size fuel lineEnds reader = words ++ others ∧
      (∀ lexeme ∈ words, lexeme.token ≠ .eof ∧ lexeme.isLineEnd = false) ∧
      (∀ lexeme ∈ others, lexeme.offset = size) ∧ others.Pairwise QuietAfter := by
  induction fuel generalizing lineEnds reader with
  | zero => exact ⟨[], [], rfl, forall_mem_nil _, forall_mem_nil _, .nil⟩
  | succ fuel ih =>
    have skipped := skipWhile_suffix (isSkipped lineEnds) reader.ahead reader.faults
    cases stands : (Reader.skipWhile (isSkipped lineEnds) reader.ahead reader.faults).char? with
    | some char =>
      have follows := scanNext_follows size lineEnds reader
      rcases @ih (scanNext size lineEnds reader).lineEnds (scanNext size lineEnds reader).reader
        fun glyph member => noFeed glyph (follows.subset member) with ⟨words, others, found, goOn, atEnd⟩
      rcases scanAt_goesOn size lineEnds stands fun glyph member =>
        noFeed glyph (skipped.subset member) with
        ⟨goesOn, alone⟩
      have notEnd := (scanAt_takes size lineEnds stands).notEnd
      rw [← scanNext_of_char? rfl stands] at goesOn alone notEnd
      refine ⟨_ :: words, others, ?_, forall_mem_cons.mpr ⟨⟨notEnd, goesOn⟩, goOn⟩, atEnd⟩
      rw [scanFrom_succ, if_neg notEnd, found, Step.inserted, alone]
      rfl
    | none => exact ⟨[], _, (nil_append _).symm, forall_mem_nil _, scanFrom_of_atEnd stands⟩

theorem scanFrom_quiet (noFeed : ∀ glyph ∈ reader.ahead, glyph.char ≠ '\n') :
    (scanFrom size fuel lineEnds reader).Pairwise QuietAfter := by
  rcases @exists_words_of_noFeed size fuel lineEnds reader noFeed with
    ⟨words, others, found, goOn, _, quiet⟩
  have goesOn {earlier : Lexeme} (member : earlier ∈ words) (later : Lexeme) : QuietAfter
      earlier later := by
    rintro (isEnd | isLineEnd)
    · exact absurd isEnd (goOn earlier member).1
    · cases (goOn earlier member).2.symm.trans isLineEnd
  rw [found, pairwise_append]
  exact ⟨pairwise_of_forall_mem_list fun _ member later _ => goesOn member later, quiet,
    fun _ member later _ => goesOn member later⟩

/-! ## Line ends after the last lexeme -/

/-- The lexemes that the grammar sees. -/
def spoken (lexemes : List Lexeme) : List Lexeme :=
  lexemes.filter (·.token ≠ .comment)

theorem mem_spoken {lexemes : List Lexeme} : lexeme ∈ spoken lexemes ↔ lexeme ∈ lexemes ∧
      lexeme.token ≠ .comment := by
  rw [spoken, mem_filter, decide_eq_true_eq]

theorem spoken_append (lexemes others : List Lexeme) :
    spoken (lexemes ++ others) = spoken lexemes ++ spoken others :=
  filter_append ..

theorem spoken_cons_of_ne (isWord : lexeme.token ≠ .comment) (lexemes : List Lexeme) :
    spoken (lexeme :: lexemes) = lexeme :: spoken lexemes :=
  filter_cons_of_pos (decide_eq_true isWord)

theorem spoken_cons_of_eq (isComment : lexeme.token = .comment) (lexemes : List Lexeme) :
    spoken (lexeme :: lexemes) = spoken lexemes :=
  filter_cons_of_neg (by simp [isComment])

/-- After lexemes without faults and line ends, a line end stands for a semicolon if the last of
them ends a statement. -/
theorem lineEnds_of_scans {first last : Bool} {stop : Reader} {lexemes : List Lexeme}
    (scans : Scans size first start lexemes last stop) (fit : Fit start.ahead)
    (faultless : ∀ lexeme ∈ lexemes, lexeme.faults = [])
    (noLineEnd : ∀ lexeme ∈ lexemes, lexeme.isLineEnd = false) :
    last = ((spoken lexemes).getLast?.map fun lexeme => endsStatement lexeme.token).getD first := by
  induction scans with
  | none => rfl
  | @step lineEnds last reader later lexemes notEnd rest ih =>
    rcases forall_mem_cons.mp faultless with ⟨silent, faultless⟩
    rcases forall_mem_cons.mp noLineEnd with ⟨goesOn, noLineEnd⟩
    have nothing : (scanNext size lineEnds reader).inserted = [] := by
      refine eq_nil_iff_forall_not_mem.mpr fun lexeme member => ?_
      have goesOn := noLineEnd lexeme (mem_append_left _ member)
      rw [isLineEnd_of_mem_inserted member] at goesOn
      cases goesOn
    have alone : (scanNext size lineEnds reader).newline? = none :=
      Option.toList_eq_nil_iff.mp (map_eq_nil_iff.mp nothing)
    rw [nothing, nil_append] at faultless noLineEnd ⊢
    have later := ih (fit.of_suffix (scanNext_follows size lineEnds reader)) faultless noLineEnd
    rw [later]
    rcases scanNext_kind size lineEnds reader with ⟨glyph, ahead, suffix, _, kind⟩ | isLineEnd | isEnd
    · cases kind with
      | plain isWord _ flag =>
        rw [spoken_cons_of_ne isWord, getLast?_cons, flag]
        cases (spoken lexemes).getLast? <;> rfl
      | lineEnd _ isLineEnd =>
        rw [isLineEnd] at goesOn
        cases goesOn
      | comment _ _ reads =>
        rw [reads] at alone ⊢
        rw [spoken_cons_of_eq (scanComment_token ..), scanComment_lineEnds alone]
      | illegal _ _ faulty =>
        refine absurd silent (faulty fun isMark => ?_)
        have isFit := fit glyph (suffix.subset mem_cons_self)
        rw [isUnfit, isMark, beq_self_eq_true, Bool.or_true] at isFit
        cases isFit
    · rw [isLineEnd] at goesOn
      cases goesOn
    · exact absurd isEnd notEnd

/-! ## White space -/

/-- White space in front of a lexeme does not matter if it is passed over. -/
theorem scanAll_skip {glyph : Glyph} {ahead : List Glyph} (skipped : isSkipped lineEnds glyph.char = true)
    (fit : Fit ahead) : scanAll size lineEnds ⟨glyph :: ahead, []⟩ =
      scanAll size lineEnds ⟨ahead, []⟩ := by
  have same : scanNext size lineEnds ⟨glyph :: ahead, []⟩ = scanNext size lineEnds ⟨ahead, []⟩ := by
    unfold scanNext
    dsimp only
    rw [Reader.skipWhile, if_pos skipped, arrive_of_fit fit]
  rw [scanAll_eq, scanAll_eq size lineEnds ⟨ahead, []⟩, same]

theorem blank_of_mem : ∀ code ∈ Text.blankCodes,
    isNameStart (Char.ofNat code) = false ∧ NumberScan.isDecimal (Char.ofNat code) = false ∧
      Char.ofNat code ∉ ['.', '"', '\'', '\x60', '/', byteOrderMark] ∧
      (operatorTable.lookup (Char.ofNat code)).isNone = true := by
  unfold isNameStart Text.isLetter
  decide +kernel

/-- White space that is not passed over stands for a line end or is a fault. -/
theorem scanNext_blank {glyph : Glyph} {ahead : List Glyph} (blank : Text.isBlank glyph.char = true)
    (notSkipped : isSkipped lineEnds glyph.char = false) :
    lineEnds = true ∧ (scanNext size lineEnds ⟨glyph :: ahead, []⟩).lexeme.isLineEnd = true ∨
      (scanNext size lineEnds ⟨glyph :: ahead, []⟩).lexeme.faults ≠ [] := by
  have facts := blank_of_mem _ (Text.toNat_mem_blankCodes blank)
  rw [Char.ofNat_toNat] at facts
  rcases facts with ⟨notName, notDigit, others, noOperator⟩
  simp only [mem_cons, not_mem_nil, or_false, not_or] at others
  rw [scanNext_of_not_isSkipped notSkipped]
  by_cases isFeed : glyph.char = '\n'
  · have ends : lineEnds = true := by
      rw [isFeed] at notSkipped
      cases lineEnds
      · cases notSkipped
      · rfl
    refine .inl ⟨ends, ?_⟩
    rw [isFeed] at notName notDigit ⊢
    unfold scanAt
    rw [notName, notDigit]
    rfl
  · right
    unfold scanAt
    rw [notName, notDigit]
    simp only [isFeed, others, decide_false, Bool.false_and, Bool.or_false, Bool.false_eq_true, if_false]
    have none : operator? glyph.char (Reader.advance ⟨glyph :: ahead, []⟩) = none := by
      rw [operator?, Option.isNone_iff_eq_none.mp noOperator]
      rfl
    rw [none]
    exact scanIllegal_faulty size lineEnds _ _ others.2.2.2.2.2

/-- White space before a glyph is passed over, or a line end stands there. -/
theorem scanAll_blanks {blanks ahead : List Glyph}
    (blank : ∀ glyph ∈ blanks, Text.isBlank glyph.char = true) (fit : Fit (blanks ++ ahead))
    (faultless : ∀ lexeme ∈ scanAll size lineEnds ⟨blanks ++ ahead, []⟩, lexeme.faults = []) :
    scanAll size lineEnds ⟨blanks ++ ahead, []⟩ = scanAll size lineEnds ⟨ahead, []⟩ ∨
      lineEnds = true ∧ ∃ lineEnd rest, scanAll size lineEnds ⟨blanks ++ ahead, []⟩ = lineEnd :: rest ∧
        lineEnd.isLineEnd = true := by
  induction blanks with
  | nil => exact .inl rfl
  | cons glyph blanks ih =>
    rcases forall_mem_cons.mp blank with ⟨isBlank, blanksLater⟩
    cases skipped : isSkipped lineEnds glyph.char with
    | true =>
      have passed := @scanAll_skip size lineEnds glyph (blanks ++ ahead) skipped fit.tail
      rw [cons_append, passed] at faultless ⊢
      exact ih blanksLater fit.tail faultless
    | false =>
      rw [cons_append, scanAll_eq] at faultless ⊢
      rcases @scanNext_blank size lineEnds glyph (blanks ++ ahead) isBlank skipped with
        ⟨ends, isLineEnd⟩ | faulty
      · exact .inr ⟨ends, _, _, rfl, isLineEnd⟩
      · exact absurd (forall_mem_cons.mp faultless).1 faulty

/-! ## Separators -/

/-- The lexeme of a comma or a semicolon. -/
def separator (glyph : Glyph) (stop : Nat) : Lexeme :=
  if glyph.char = ',' then { token := .comma, offset := glyph.offset, stop }
  else { token := .semicolon, offset := glyph.offset, stop, literal := [byte ';'] }

/-- A comma or a semicolon is a lexeme of its own. -/
theorem scanNext_separator (lineEnds : Bool) {glyph : Glyph} {ahead : List Glyph}
    (separates : glyph.char = ',' ∨ glyph.char = ';') (fit : Fit ahead) :
    scanNext size lineEnds ⟨glyph :: ahead, []⟩ =
      { lexeme := separator glyph (Reader.offset size ⟨ahead, []⟩)
        reader := ⟨ahead, []⟩
        lineEnds := false } := by
  have notSkipped : isSkipped lineEnds glyph.char = false := by
    rcases separates with isComma | isSemicolon
    · rw [isComma]; cases lineEnds <;> rfl
    · rw [isSemicolon]; cases lineEnds <;> rfl
  rw [scanNext_of_not_isSkipped notSkipped]
  rcases separates with isComma | isSemicolon
  · rw [isComma, separator, if_pos isComma]
    unfold scanAt
    rw [not_isNameStart_mark.1, advance_of_fit fit]
    rfl
  · rw [isSemicolon, separator, if_neg (by rw [isSemicolon]; decide)]
    unfold scanAt
    rw [not_isNameStart_mark.2.1, advance_of_fit fit]
    rfl

theorem scanAll_separator (lineEnds : Bool) {glyph : Glyph} {ahead : List Glyph}
    (separates : glyph.char = ',' ∨ glyph.char = ';') (fit : Fit ahead) :
    scanAll size lineEnds ⟨glyph :: ahead, []⟩ =
      separator glyph (Reader.offset size ⟨ahead, []⟩) :: scanAll size false ⟨ahead, []⟩ := by
  have notEnd (stop : Nat) : (separator glyph stop).token ≠ .eof := by
    rw [separator]
    split
    · intro impossible
      cases impossible
    · intro impossible
      cases impossible
  rw [scanAll_eq, scanNext_separator lineEnds separates fit, if_neg (notEnd _)]
  rfl

/-! ## Open comments -/

theorem skipWhile_ahead (test : Char → Bool) (ahead : List Glyph) (faults : List Fault) :
    (Reader.skipWhile test ahead faults).ahead = ahead.dropWhile fun glyph => test glyph.char := by
  induction ahead generalizing faults with
  | nil => rfl
  | cons glyph ahead ih =>
    rw [Reader.skipWhile, dropWhile_cons]
    split
    · exact ih _
    · rfl

theorem Reader.char?_of_isAtLineComment (slashes : reader.isAtLineComment = true) : reader.char? = some '/' :=
  char?_of_isAt (Bool.and_eq_true_iff.mp slashes).1

theorem scanAt_lineComment (slashes : start.isAtLineComment = true) :
    ∃ comment : Lexeme, comment.token = .comment ∧ scanAt size lineEnds start '/' =
      { lexeme := comment
        reader := ⟨start.advance.ahead.dropWhile fun glyph => decide (glyph.char ≠ '\n'), []⟩
        lineEnds := lineEnds } := by
  rcases start with ⟨_ | ⟨first, _ | ⟨second, ahead⟩⟩, faults⟩
  · cases slashes
  · exact absurd (Bool.and_eq_true_iff.mp slashes).2 Bool.false_ne_true
  · have isSlash : second.char = '/' := Option.some.inj (eq_of_beq (Bool.and_eq_true_iff.mp slashes).2)
    have stands : (Reader.advance ⟨first :: second :: ahead, faults⟩).isAt '/' = true := by
      rw [Reader.isAt, Reader.advance]
      exact beq_iff_eq.mpr (congrArg some isSlash)
    have begins : scanAt size lineEnds ⟨first :: second :: ahead, faults⟩ '/' =
        scanComment size lineEnds ⟨first :: second :: ahead, faults⟩
          (Reader.advance ⟨first :: second :: ahead, faults⟩) := by
      unfold scanAt
      rw [not_isNameStart_mark.2.2.1]
      dsimp only
      rw [stands]
      rfl
    rw [begins, scanComment, if_pos stands]
    dsimp only
    rw [finish, skipWhile_ahead]
    exact ⟨_, rfl, rfl⟩

namespace OpensComment

variable {size : Nat} {lineEnds : Bool} {reader : Reader}

theorem scanAll_eq (opens : OpensComment size lineEnds reader) :
    ∃ comment, comment.token = .comment ∧ scanAll size lineEnds reader =
      comment :: ends size lineEnds := by
  rcases opens with ⟨slashes, toEnd⟩
  have stands := Reader.char?_of_isAtLineComment slashes
  rcases @scanAt_lineComment size lineEnds _ slashes with ⟨comment, isComment, step⟩
  rw [← scanNext_of_char? rfl stands] at step
  rw [step] at toEnd
  dsimp only at toEnd
  refine ⟨comment, isComment, ?_⟩
  rw [Lexeme.scanAll_eq, step, if_neg (by rw [isComment]; decide), toEnd, scanAll_nil]
  rfl

/-- In a longer text an open comment goes on to the end of the line. -/
theorem scanAll_before (opens : OpensComment size lineEnds reader) (fit : Fit reader.ahead)
    (sequel : Sequel) : ∃ comment, comment.token = .comment ∧
      scanAll sequel.whole lineEnds (reader.before sequel) = comment :: scanAll sequel.whole lineEnds
        ⟨sequel.rest.dropWhile fun glyph => decide (glyph.char ≠ '\n'), []⟩ := by
  rcases opens with ⟨slashes, toEnd⟩
  have stands := Reader.char?_of_isAtLineComment slashes
  have later := skipWhile_suffix (isSkipped lineEnds) reader.ahead reader.faults
  have skipped : Reader.skipWhile (isSkipped lineEnds) (reader.before sequel).ahead
      (reader.before sequel).faults =
      (Reader.skipWhile (isSkipped lineEnds) reader.ahead reader.faults).before sequel := by
    refine before_skipWhile sequel fit reader.faults fun atEnd => ?_
    rw [Reader.char?, atEnd] at stands
    cases stands
  rcases @scanAt_lineComment size lineEnds _ slashes with ⟨_, _, step⟩
  rw [← scanNext_of_char? rfl stands] at step
  rw [step] at toEnd
  generalize Reader.skipWhile (isSkipped lineEnds) reader.ahead reader.faults = start
    at slashes stands later skipped toEnd
  have slashesToo : (start.before sequel).isAtLineComment = true := by
    rcases start with ⟨_ | ⟨first, _ | ⟨second, ahead⟩⟩, faults⟩
    · cases slashes
    · exact absurd (Bool.and_eq_true_iff.mp slashes).2 Bool.false_ne_true
    · exact slashes
  rcases @scanAt_lineComment sequel.whole lineEnds _ slashesToo with ⟨comment, isComment, stepToo⟩
  rw [← scanNext_of_char? skipped (before_char? sequel stands),
    before_advance sequel stands (fit.of_suffix later)] at stepToo
  have swallowed : (start.advance.before sequel).ahead.dropWhile
      (fun glyph => decide (glyph.char ≠ '\n')) =
      sequel.rest.dropWhile fun glyph => decide (glyph.char ≠ '\n') := by
    refine dropWhile_append_of_pos fun glyph member => ?_
    rcases mem_map.mp member with ⟨glyph, isGlyph, rfl⟩
    exact dropWhile_eq_nil_iff.mp toEnd glyph isGlyph
  rw [swallowed] at stepToo
  refine ⟨comment, isComment, ?_⟩
  rw [Lexeme.scanAll_eq, stepToo, if_neg (by rw [isComment]; decide)]
  rfl

end OpensComment

end Lexeme
end Source
end CaseExpansion
