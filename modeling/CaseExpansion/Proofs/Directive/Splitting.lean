import CaseExpansion.Proofs.Directive.Division
import CaseExpansion.Proofs.Directive.RoundTrip

namespace CaseExpansion
namespace Directive

open List Source.Lexeme
open Source (Fit Lexeme Token)
open Text (Glyph)
open Text.Utf8 (glyphs)

/-!
# Where case directives are split

A case directive is read exactly if it has a certain form (`Form`): texts with commas between them,
a semicolon, and a name.  The form tells which commas and which semicolon these are, by the lexemes
of the directive and the number of brackets that are open before them, and it says nothing about how
they are found.

That number does not tell brackets of different kinds apart, and it may be zero although a bracket
was closed before it was opened.  Since the texts are expressions, this does not happen: before every
separator all brackets are closed in the proper order.
-/

variable {lexeme first semicolon separator : Lexeme} {start : Int} {before front back : List Lexeme}
  {head : Head}
  {texts arguments : List Bytes} {body text : Bytes} {stop : Nat}

/-! ## The form of a directive -/

/-- Texts, and the arguments that they give: nothing for white space alone, and otherwise the
expressions that they are without the white space around them. -/
inductive Yields : (texts arguments : List Bytes) → Prop where
  | blank {text : Bytes} (isBlank : Text.isBlankText text = true) : Yields [text] []
  | expressions {texts : List Bytes} (some : texts ≠ [])
      (areExpressions : ∀ text ∈ texts, IsExpression (Text.trim text)) : Yields texts
        (texts.map Text.trim)

/-- The form of the body of a case directive: texts joined by commas, a semicolon, and the rest.  The
semicolon is the first one outside of brackets, the commas are those before it that are outside of
brackets, and the rest is a string, comments and white space aside. -/
structure Form (body : Bytes) (arguments : List Bytes) (name : Bytes) (texts : List Bytes) (rest : Bytes)
    (before : List Lexeme) (semicolon : Lexeme) (after : List Lexeme) : Prop where
  faultless : ∀ lexeme ∈ (Source.scanFile [] body).2, lexeme.faults = []
  joined : body = Bytes.joinWith "," texts ++ ";" ++ rest
  yields : Yields texts arguments
  scanned : lexemes body = before ++ semicolon :: after
  isSemicolon : semicolon.token = .semicolon
  place : semicolon.offset = (Bytes.joinWith "," texts).length
  outside : depth before = 0
  first : ∀ lexeme, AtTop before lexeme → lexeme.token ≠ .semicolon
  commas : ∀ offset, offset ∈ joints 0 texts ↔
    ∃ comma, AtTop before comma ∧ comma.token = .comma ∧ comma.offset = offset
  named : ∃ string ends, after = string :: ends ∧ string.token = .string ∧
    Text.Quoted.decode? string.literal = some name ∧ ∀ lexeme ∈ ends, isEnd lexeme = true

theorem not_isBlankText_of_isExpression (expression : IsExpression (Text.trim text)) :
    Text.isBlankText text = false := by
  rw [Bool.eq_false_iff]
  intro allBlank
  refine expression.1 ?_
  rw [Text.trim, Text.trimGlyphs_of_isBlank (all_eq_true.mp allBlank)]
  rfl

theorem yields_iff : Yields ((pieces body 0 head.commas head.semicolon).map Prod.snd) arguments ↔
      arguments = (argumentTexts body head).map (fun text => Text.trim text.2) ∧
        ∀ text ∈ argumentTexts body head, IsExpression (Text.trim text.2) := by
  constructor
  · generalize isTexts : (pieces body 0 head.commas head.semicolon).map Prod.snd = texts
    rintro (isBlank | ⟨_, areExpressions⟩)
    · rw [argumentTexts_blank isTexts isBlank]
      exact ⟨rfl, forall_mem_nil _⟩
    · have isPieces : argumentTexts body head = pieces body 0 head.commas head.semicolon := by
        refine argumentTexts_eq_pieces fun text single =>
          not_isBlankText_of_isExpression (areExpressions text ?_)
        rw [← isTexts, single]
        exact mem_cons_self
      rw [isPieces, ← isTexts, map_map]
      refine ⟨rfl, fun piece member => areExpressions piece.2 ?_⟩
      rw [← isTexts]
      exact mem_map_of_mem member
  · rintro ⟨rfl, areExpressions⟩
    by_cases onlyBlank : ∃ text, (pieces body 0 head.commas head.semicolon).map Prod.snd = [text] ∧
        Text.isBlankText text = true
    · rcases onlyBlank with ⟨text, single, isBlank⟩
      rw [argumentTexts_blank single isBlank, single]
      exact .blank isBlank
    · have isPieces : argumentTexts body head = pieces body 0 head.commas head.semicolon :=
        argumentTexts_eq_pieces fun text single =>
          Bool.eq_false_iff.mpr fun isBlank => onlyBlank ⟨text, single, isBlank⟩
      rw [isPieces] at areExpressions ⊢
      have yields := Yields.expressions (pieces_ne_nil body 0 head.commas head.semicolon)
        fun text member => by
        rcases mem_map.mp member with ⟨piece, isPiece, rfl⟩
        exact areExpressions piece isPiece
      rw [map_map] at yields
      exact yields

/-! ## The lexemes of a body without faults -/

/-- A body that is scanned from its first character on. -/
structure Scanned (body : Bytes) : Prop where
  fit : Fit (glyphs body)
  all : (Source.scanFile [] body).2 = scanAll body.length false ⟨glyphs body, []⟩
  faultless : ∀ lexeme ∈ scanAll body.length false ⟨glyphs body, []⟩, lexeme.faults = []

theorem scanned_of_faultless {mark : Bytes} (hasBody : body? mark text = some body)
    (faultless : ∀ lexeme ∈ (Source.scanFile [] body).2, lexeme.faults = []) : Scanned body := by
  have isScan := Source.scanFile_of_faultless faultless
  rw [isScan] at faultless
  have fit := fit_of_body? hasBody faultless
  rw [scan_of_fit fit] at isScan faultless
  exact ⟨fit, isScan, faultless⟩

namespace Scanned

variable {body : Bytes} (scanned : Scanned body)
include scanned

theorem lexemes_eq : lexemes body = spoken (scanAll body.length false ⟨glyphs body, []⟩) := by
  rw [lexemes, scanned.all, withoutComments_of_faultless scanned.faultless]

theorem mem_scan {lexeme : Lexeme} (member : lexeme ∈ lexemes body) :
    lexeme ∈ scanAll body.length false ⟨glyphs body, []⟩ := by
  rw [scanned.lexemes_eq] at member
  exact (mem_spoken.mp member).1

theorem spread : Lexeme.Spread body.length 0 (scanAll body.length false ⟨glyphs body, []⟩) := by
  rw [← scan_of_fit scanned.fit]
  exact scan_spread body

variable {separator : Lexeme}

theorem bytes_eq {glyph : Glyph} (isGlyph : glyph ∈ glyphs body) :
    Bytes.ofChar glyph.char = glyph.bytes := by
  have wellFormed := (Bool.or_eq_false_iff.mp (Bool.or_eq_false_iff.mp (scanned.fit glyph isGlyph)).1).2
  exact (sound_of_fit scanned.fit glyph isGlyph).ofChar_eq wellFormed

theorem noFeed (singleLine : byte '\n' ∉ body) : ∀ glyph ∈ glyphs body, glyph.char ≠ '\n' := by
  intro glyph isGlyph isFeed
  have bytes := scanned.bytes_eq isGlyph
  rw [isFeed] at bytes
  apply singleLine
  rw [← Text.Utf8.flatMap_glyphs body]
  exact mem_flatMap.mpr ⟨glyph, isGlyph, bytes ▸ mem_cons_self⟩

/-- Separators are not inside of other lexemes. -/
theorem apart (member : separator ∈ lexemes body) (separates : isSeparator separator = true) :
    ∀ lexeme ∈ (Source.scanFile [] body).2, lexeme.token ∈ [Token.string, .char, .comment] →
      lexeme.stop ≤ separator.offset ∨ separator.offset < lexeme.offset := by
  intro lexeme isLexeme isText
  rw [scanned.all] at isLexeme
  have others : ∀ token ∈ [Token.string, .char, .comment], token ≠ .comma ∧ token ≠ .semicolon ∧
      token ≠ .eof := by
    decide
  rcases others _ isText with ⟨notComma, notSemicolon, notEnd⟩
  have solidLexeme := (scanned.spread.lies lexeme isLexeme).solid notSemicolon notEnd
  have solidSeparator := (separator_stands member separates).1
  rcases append_of_mem (scanned.mem_scan member) with ⟨front, back, split⟩
  have ordered := scanned.spread.ordered
  rw [split, pairwise_append, pairwise_cons] at ordered
  rw [split, mem_append, mem_cons] at isLexeme
  rcases isLexeme with isBefore | rfl | isAfter
  · exact .inl (ordered.2.2 lexeme isBefore separator mem_cons_self solidLexeme solidSeparator)
  · rw [isSeparator_eq_false rfl notComma notSemicolon] at separates
    cases separates
  · exact .inr (Nat.lt_of_lt_of_le solidSeparator
      (ordered.2.1.1 lexeme isAfter solidSeparator solidLexeme))

end Scanned

/-! ## Reading and the form -/

theorem exists_form {mark name : Bytes} (hasBody : body? mark text = some body)
    (reads : readCase body = .ok (arguments, name)) :
    ∃ texts rest before semicolon after, Form body arguments name texts rest before semicolon after := by
  rcases readCase_eq_ok_iff.mp reads with ⟨head, found, silent, isArguments, expressions, isName⟩
  have allSilent : ∀ lexeme ∈ lexemes body, lexeme.faults = [] := by
    rw [eq_append_of_splitHead? found]
    exact forall_mem_append.mpr ⟨silent, isName.faultless⟩
  have faultless :=
    (Source.Parse.faultless_of_withoutComments (Source.scanFile_ended [] body) allSilent).2
  have scanned := scanned_of_faultless hasBody faultless
  rcases exists_divides found with ⟨before, semicolon, after, split, divides, rfl⟩
  rcases joined_of_divides split divides rfl with ⟨joined, place, isJoints⟩
  refine ⟨_, _, before, semicolon, after, faultless, joined,
    yields_iff.mpr ⟨isArguments, expressions⟩, split,
    divides.isSemicolon, place, (Int.zero_add _).symm.trans divides.outside,
    fun lexeme isTop => divides.first lexeme (atTopFrom_zero.mpr isTop), fun offset => ?_, isName.reads⟩
  rw [isJoints, mem_map]
  simp only [mem_topCommas, atTopFrom_zero, and_assoc]

namespace Form

variable {body name rest : Bytes} {arguments texts : List Bytes} {before after : List Lexeme}
  {semicolon : Lexeme}
  (form : Form body arguments name texts rest before semicolon after)
include form

/-- Where a text is a single line, the semicolon of the form divides its lexemes. -/
theorem divides (scanned : Scanned body) (singleLine : byte '\n' ∉ body) :
    Divides 0 before semicolon := by
  refine ⟨form.isSemicolon, (Int.zero_add _).trans form.outside,
    fun lexeme isTop => form.first lexeme (atTopFrom_zero.mp isTop), ?_⟩
  have singleScan := @exists_words_of_noFeed body.length (2 * (glyphs body).length + 2) false
    ⟨glyphs body, []⟩ (scanned.noFeed singleLine)
  rcases singleScan with ⟨words, others, found, goOn, atEnd, _⟩
  have isScan : scanAll body.length false ⟨glyphs body, []⟩ = words ++ others := found
  have same := form.scanned
  rw [scanned.lexemes_eq, isScan, spoken_append] at same
  have inside : semicolon.offset ≠ body.length := by
    rw [form.place, form.joined, length_append, length_append]
    have single : (Bytes.ofString ";").length = 1 := rfl
    omega
  have isOutside : semicolon ∉ spoken others := fun member =>
    inside (atEnd semicolon (mem_spoken.mp member).1)
  intro lexeme member
  have isWord : lexeme ∈ spoken words := by
    rcases append_eq_append_iff.mp same with ⟨more, isBefore, isOthers⟩ | ⟨more, isWords, isRest⟩
    · exact absurd (isOthers ▸ mem_append_right _ mem_cons_self) isOutside
    · cases more with
      | nil =>
        rw [nil_append] at isRest
        exact absurd (isRest ▸ mem_cons_self) isOutside
      | cons first more =>
        obtain rfl := (List.cons.inj isRest).1
        rw [isWords, append_cons]
        exact mem_append_left _ member
  rcases goOn lexeme (mem_spoken.mp isWord).1 with ⟨notEnd, notLineEnd⟩
  rw [isEnd, notLineEnd, beq_eq_false_iff_ne.mpr notEnd]
  rfl

theorem splitHead?_eq (scanned : Scanned body) (singleLine : byte '\n' ∉ body) :
    splitHead? 0 (lexemes body) = some (headOf 0 before semicolon after) := by
  rw [form.scanned]
  exact splitHead?_of_divides (form.divides scanned singleLine) after

/-- The texts of the form are cut out at its separators. -/
theorem pieces_eq : (pieces body 0 (headOf 0 before semicolon after).commas
    (headOf 0 before semicolon after).semicolon).map Prod.snd = texts := by
  have some : texts ≠ [] := by
    rcases form.yields with _ | ⟨some, _⟩
    · exact cons_ne_nil _ _
    · exact some
  exact (pieces_of_commas form.scanned some form.joined form.place form.commas).2

theorem readCase (scanned : Scanned body) (singleLine : byte '\n' ∉ body) :
    readCase body = .ok (arguments, name) := by
  have found := form.splitHead?_eq scanned singleLine
  have silent : ∀ lexeme ∈ lexemes body, lexeme.faults = [] := fun lexeme member =>
    scanned.faultless lexeme (scanned.mem_scan member)
  rw [eq_append_of_splitHead? found, forall_mem_append] at silent
  have yields := form.yields
  rw [← form.pieces_eq] at yields
  rcases yields_iff.mp yields with ⟨isArguments, areExpressions⟩
  exact readCase_eq_ok_iff.mpr ⟨_, found, silent.1, isArguments, areExpressions, silent.2, form.named⟩

end Form

/-! ## Balanced brackets before separators -/

/-- Among lexemes that are passed over, no separator stands outside of brackets. -/
theorem depth_of_depthAfter? {last : Int} {lexemes : List Lexeme}
    (passed : depthAfter? start lexemes = some last) :
    start + depth lexemes = last ∧ ∀ lexeme, AtTopFrom start lexemes lexeme →
    isSeparator lexeme = false := by
  induction lexemes generalizing start with
  | nil => exact ⟨(Int.add_zero start).trans (Option.some.inj passed),
      fun _ none => absurd none not_atTopFrom_nil⟩
  | cons first lexemes ih =>
    rcases depthAfter?_cons passed with ⟨_, notComma, notSemicolon, later⟩
    rcases ih later with ⟨isLast, others⟩
    refine ⟨?_, fun lexeme isTop => ?_⟩
    · rw [depth_cons, ← Int.add_assoc]
      exact isLast
    · rcases atTopFrom_cons.mp isTop with ⟨rfl, rfl⟩ | isLater
      · rw [isSeparator]
        rw [beq_self_eq_true, Bool.true_and] at notComma notSemicolon
        rw [notComma, notSemicolon]
        rfl
      · exact others lexeme isLater

/-- A separator outside of brackets comes after lexemes that are passed over, and is the one that
follows them or stands further on. -/
theorem eq_or_exists_of_passed {passed rest : List Lexeme} (isPassed : depthAfter? 0 passed = some 0)
    (split : passed ++ first :: rest = front ++ separator :: back)
    (separates : isSeparator separator = true) (outside : depth front = 0) :
    front = passed ∨ ∃ more, front = passed ++ first :: more ∧ rest = more ++ separator :: back := by
  rcases append_eq_append_iff.mp split with ⟨more, isFront, isRest⟩ | ⟨more, rfl, isRest⟩
  · cases more with
    | nil => exact .inl (isFront.trans (append_nil _))
    | cons other more =>
      obtain rfl := (List.cons.inj isRest).1
      exact .inr ⟨more, isFront, (List.cons.inj isRest).2⟩
  · cases more with
    | nil => exact .inl (append_nil _).symm
    | cons other more =>
      obtain rfl := (List.cons.inj isRest).1
      have isTop : AtTopFrom 0 (front ++ separator :: more) separator :=
        ⟨front, more, rfl, (Int.zero_add _).trans outside⟩
      rw [(depth_of_depthAfter? isPassed).2 separator isTop] at separates
      cases separates

theorem due?_ends (due : List Token) (size : Nat) (lineEnds : Bool) :
    Token.due? due ((Lexeme.ends size lineEnds).map Lexeme.token) = some due := by
  cases lineEnds <;> rfl

/-- The brackets of an expression are balanced wherever it stands. -/
theorem balanced_of_areLexemesOf {lexemes : List Lexeme} (expression : IsExpression text)
    (areLexemes : AreLexemesOf text lexemes) : Token.Balanced ((spoken lexemes).map Lexeme.token) := by
  rcases areLexemes with ⟨words, last, distance, closed, rfl⟩
  have whole := closed.scans.scanAll_eq
  rw [scanAll_nil] at whole
  have faultless := expression.faultless closed.fit
  have isScan := expression.scanFile_eq closed.fit
  rcases expression with ⟨_, _, parsed⟩
  have balanced := Source.parseExpr_balanced parsed
  rw [isScan, withoutComments_of_faultless faultless, whole, spoken_append, spoken_ends, map_append,
    Token.Balanced, Token.due?_append] at balanced
  have sameTokens : (spoken (words.map (Lexeme.moved distance))).map Lexeme.token =
      (spoken words).map Lexeme.token := by
    rw [spoken_moved, map_map]
    rfl
  rw [sameTokens]
  rcases Option.bind_eq_some_iff.mp balanced with ⟨left, isLeft, isNone⟩
  rw [due?_ends] at isNone
  exact isLeft.trans isNone

theorem balanced_comma {comma : Lexeme} (isComma : comma.token = .comma)
    (ofFront : Token.Balanced (front.map Lexeme.token))
    (ofBack : Token.Balanced (back.map Lexeme.token)) :
    Token.Balanced ((front ++ comma :: back).map Lexeme.token) := by
  rw [Token.Balanced, map_append, Token.due?_append_of ofFront, map_cons, isComma, Token.due?_cons]
  exact ofBack

theorem ne_comment_of_isSeparator (separates : isSeparator lexeme = true) : lexeme.token ≠ .comment := by
  intro isComment
  rw [isSeparator_eq_false isComment (by decide) (by decide)] at separates
  cases separates

theorem isSeparator_separator (glyph : Glyph) (stop : Nat) :
    isSeparator (Lexeme.separator glyph stop) = true := by
  rw [Lexeme.separator]
  split <;> rfl

namespace FirstPiece

variable {body : Bytes} {ahead piece later : List Glyph} {head : Head} {glyph : Glyph}
  {before after : List Lexeme}
  {first : Lexeme} (isFirst : FirstPiece body ahead head piece later glyph before after first)
include isFirst

theorem mem_pieces {taken : List Glyph} (isBody : glyphs body = taken ++ ahead) :
    ((taken.flatMap Glyph.bytes).length, piece.flatMap Glyph.bytes) ∈
      pieces body (taken.flatMap Glyph.bytes).length head.commas head.semicolon := by
  rw [← isFirst.slice_eq isBody]
  cases isFirst.starts with
  | semicolon _ _ noCommas place =>
    rw [noCommas, place]
    exact mem_cons_self
  | comma _ _ _ commas _ =>
    rw [commas]
    exact mem_cons_self

theorem spoken_eq : spoken (scanAll body.length false ⟨ahead, []⟩) =
      spoken before ++ first :: spoken after := by
  rw [isFirst.found, spoken_append,
    spoken_cons_of_ne (ne_comment_of_isSeparator isFirst.starts.isSeparator)]

/-- A piece that is white space has no lexemes. -/
theorem spoken_eq_nil (blank : ∀ glyph ∈ piece, Text.isBlank glyph.char = true)
    (fit : Fit (piece ++ glyph :: later))
    (faultless : ∀ lexeme ∈ scanAll body.length false ⟨piece ++ glyph :: later, []⟩,
      lexeme.faults = []) :
    spoken before = [] := by
  have fitLater : Fit later := fun other member =>
    fit other (mem_append_right _ (mem_cons_of_mem _ member))
  rcases scanAll_blanks blank fit faultless with isScan | ⟨impossible, _⟩
  · rw [← isFirst.split, isFirst.found, scanAll_separator false isFirst.written fitLater] at isScan
    cases before with
    | nil => rfl
    | cons other before =>
      -- The scan starts with a separator, and none is passed over.
      have separates : isSeparator other = true := by
        rw [(List.cons.inj isScan).1]
        exact isSeparator_separator _ _
      have passed := isFirst.passed
      rw [spoken_cons_of_ne (ne_comment_of_isSeparator separates)] at passed
      rw [(depth_of_depthAfter? passed).2 other ⟨[], spoken before, rfl, rfl⟩] at separates
      cases separates
  · cases impossible

end FirstPiece

/-- Before every separator of a directive all brackets are closed, if its arguments are expressions. -/
theorem balanced_of_pieces {taken ahead : List Glyph} (isBody : glyphs body = taken ++ ahead)
    (fit : Fit (glyphs body))
    (faultless : ∀ lexeme ∈ scanAll body.length false ⟨ahead, []⟩, lexeme.faults = [])
    (found : splitHead? 0 (spoken (scanAll body.length false ⟨ahead, []⟩)) = some head)
    (expressions : ∀ piece ∈ pieces body (taken.flatMap Glyph.bytes).length head.commas head.semicolon,
      IsExpression (Text.trim piece.2))
    (split : spoken (scanAll body.length false ⟨ahead, []⟩) = front ++ separator :: back)
    (separates : isSeparator separator = true) (outside : depth front = 0)
    (noSemicolon : ∀ lexeme, AtTop front lexeme → lexeme.token ≠ .semicolon) :
    Token.Balanced (front.map Lexeme.token) := by
  -- The induction is on the text ahead: up to the first separator it is one expression, whose brackets
  -- balance, and what follows a comma is a shorter text of the same kind.
  induction isLength : ahead.length using Nat.strongRecOn generalizing taken ahead head front with
  | ind length ih =>
  rcases exists_firstPiece found with ⟨piece, later, glyph, before, after, first, isFirst⟩
  have expression := expressions _ (isFirst.mem_pieces isBody)
  rcases isFirst.standalone isBody fit faultless expression with ⟨_, areLexemes, isAfter⟩
  have balanced := balanced_of_areLexemesOf expression areLexemes
  rcases eq_or_exists_of_passed isFirst.passed (isFirst.spoken_eq.symm.trans split) separates
    outside with
    rfl | ⟨more, rfl, isRest⟩
  · exact balanced
  · have topBefore : depth (spoken before) = 0 :=
      (Int.zero_add _).symm.trans (depth_of_depthAfter? isFirst.passed).1
    cases isFirst.starts with
    | semicolon isSemicolon => exact absurd isSemicolon (noSemicolon first ⟨_, more, rfl, topBefore⟩)
    | comma isComma next foundNext commas place =>
      have noChange : depthChange first.token = 0 := by
        rw [isComma]
        rfl
      rw [depth_append, depth_cons, topBefore, noChange, Int.zero_add, Int.zero_add] at outside
      rw [isAfter] at foundNext isRest
      have isBodyLater : glyphs body = taken ++ (piece ++ [glyph]) ++ later := by
        rw [isBody, isFirst.split, append_assoc, append_assoc, singleton_append]
      refine balanced_comma isComma balanced ?_
      refine ih later.length ?_ isBodyLater ?_ foundNext ?_ isRest outside ?_ rfl
      · rw [← isLength, isFirst.split, length_append, length_cons]
        omega
      · intro lexeme member
        apply faultless
        rw [isFirst.found, isAfter]
        exact mem_append_right _ (mem_cons_of_mem _ member)
      · intro piece member
        apply expressions
        rw [commas, pieces, isFirst.next_offset isBody fit, place]
        exact mem_cons_of_mem _ member
      · rintro lexeme ⟨inner, outer, rfl, isTop⟩
        refine noSemicolon lexeme ⟨spoken before ++ first :: inner, outer, ?_, ?_⟩
        · rw [append_assoc, cons_append]
        · rw [depth_append, depth_cons, topBefore, noChange, isTop]
          rfl

theorem eq_nil_of_blank (scanned : Scanned body) (found : splitHead? 0 (lexemes body) = some head)
    (isText : (pieces body 0 head.commas head.semicolon).map Prod.snd = [text])
    (isBlank : Text.isBlankText text = true) (split : lexemes body = front ++ separator :: back)
    (separates : isSeparator separator = true) (outside : depth front = 0)
    (noSemicolon : ∀ lexeme, AtTop front lexeme → lexeme.token ≠ .semicolon) : front = [] := by
  rw [scanned.lexemes_eq] at found split
  rcases exists_firstPiece found with ⟨piece, later, glyph, before, after, first, isFirst⟩
  have isGlyphs := isFirst.split
  have isPiece := @FirstPiece.slice_eq body [] _ _ _ _ _ _ _ _ isFirst rfl
  cases isFirst.starts with
  | comma _ _ _ commas _ =>
    rw [commas, pieces, map_cons] at isText
    exact absurd (List.cons.inj isText).2 (pieces_ne_nil _ _ _ _)
  | semicolon isSemicolon _ noCommas place =>
    rw [noCommas, place] at isText
    obtain rfl : piece.flatMap Glyph.bytes = text := isPiece.symm.trans (List.cons.inj isText).1
    have tiles := Text.Utf8.glyphs_tile body
    rw [isGlyphs] at tiles
    have isBlankPiece : ∀ glyph ∈ piece, Text.isBlank glyph.char = true := by
      have read := @Text.Tiles.glyphsFrom_part 0 body.length [] piece (glyph :: later) tiles
        fun glyph member =>
        sound_of_fit scanned.fit glyph (isGlyphs ▸ mem_append_left _ member)
      have allBlank := all_eq_true.mp isBlank
      rwa [show glyphs (piece.flatMap Glyph.bytes) = piece from read] at allBlank
    have nothing := isFirst.spoken_eq_nil isBlankPiece (isGlyphs ▸ scanned.fit)
      (isGlyphs ▸ scanned.faultless)
    rcases eq_or_exists_of_passed isFirst.passed (isFirst.spoken_eq.symm.trans split) separates
      outside with
      isFront | ⟨more, isFront, _⟩
    · exact isFront.trans nothing
    · rw [nothing, nil_append] at isFront
      exact absurd isSemicolon (noSemicolon first ⟨[], more, isFront, rfl⟩)

/-- All brackets before the separator are closed, each by one of its own kind, and the separator is not
inside of a string, a rune or a comment. -/
structure StandsApart (body : Bytes) (front : List Lexeme) (separator : Lexeme) : Prop where
  balanced : Token.Balanced (front.map Lexeme.token)
  apart : ∀ lexeme ∈ (Source.scanFile [] body).2, lexeme.token ∈ [Token.string, .char, .comment] →
    lexeme.stop ≤ separator.offset ∨ separator.offset < lexeme.offset

theorem Form.standsApart {name rest : Bytes} {after : List Lexeme}
    (form : Form body arguments name texts rest before semicolon after) (scanned : Scanned body)
    (singleLine : byte '\n' ∉ body) (split : before ++ [semicolon] = front ++ separator :: back)
    (separates : separator.token = .comma ∨ separator.token = .semicolon) (outside : depth front = 0) :
    StandsApart body front separator := by
  have isSplit : lexemes body = front ++ separator :: (back ++ after) := by
    rw [form.scanned, append_cons, split, append_assoc, cons_append]
  have goesOn : isEnd separator = false := by
    refine (form.divides scanned singleLine).goesOn separator ?_
    rw [split]
    exact mem_append_right _ mem_cons_self
  have separatesToo : isSeparator separator = true :=
    separates.elim isSeparator_of_comma fun isSemicolon => isSeparator_of_semicolon isSemicolon goesOn
  have noSemicolon : ∀ lexeme, AtTop front lexeme → lexeme.token ≠ .semicolon := by
    rintro lexeme ⟨inner, outer, rfl, isTop⟩
    rcases append_eq_append_iff.mp split with ⟨more, isFront, isRest⟩ | ⟨more, isBefore, _⟩
    · cases more with
      | nil =>
        rw [append_nil] at isFront
        exact form.first lexeme ⟨inner, outer, isFront.symm, isTop⟩
      | cons other more =>
        have impossible := (List.cons.inj isRest).2
        exact absurd impossible.symm (append_ne_nil_of_right_ne_nil _ (cons_ne_nil _ _))
    · refine form.first lexeme ⟨inner, outer ++ more, ?_, isTop⟩
      rw [isBefore, append_assoc, cons_append]
  have found := form.splitHead?_eq scanned singleLine
  have isTexts := form.pieces_eq
  refine ⟨?_, scanned.apart (isSplit ▸ mem_append_right _ mem_cons_self) separatesToo⟩
  rcases form.yields with isBlank | ⟨_, areExpressions⟩
  · rw [eq_nil_of_blank scanned found isTexts isBlank isSplit separatesToo outside noSemicolon]
    rfl
  · rw [scanned.lexemes_eq] at found isSplit
    refine @balanced_of_pieces _ _ _ _ body [] _ rfl scanned.fit scanned.faultless found ?_ isSplit
      separatesToo
      outside noSemicolon
    intro piece member
    apply areExpressions
    rw [← isTexts]
    exact mem_map_of_mem member

/-- A case directive of a single line is read exactly if its body has the form, with the arguments and
the name that the form tells.  The separators of the form stand apart from everything else. -/
theorem case_is_split_outside_of_brackets (place : Nat → Source.Position) (comment : Source.Comment)
    (singleLine : byte '\n' ∉ comment.text) :
    (∀ case, Case.parse place comment = .ok case ↔ ∃ body texts rest before semicolon after,
      body? caseMark comment.text = some body ∧ case.position = place comment.offset ∧
        Form body case.arguments case.name texts rest before semicolon after) ∧
    ∀ body arguments name texts rest before semicolon after, body? caseMark comment.text = some body →
      Form body arguments name texts rest before semicolon after →
        ∀ front separator back, before ++ [semicolon] = front ++ separator :: back →
          separator.token = .comma ∨ separator.token = .semicolon → depth front = 0 →
            StandsApart body front separator := by
  have singleBody {body : Bytes} (hasBody : body? caseMark comment.text = some body) : byte
      '\n' ∉ body :=
    fun member => singleLine (eq_append_of_body? hasBody ▸ mem_append_right _ member)
  constructor
  · intro case
    rw [parse_eq_ok_iff]
    constructor
    · rintro ⟨body, hasBody, reads, isPlace⟩
      rcases exists_form hasBody reads with ⟨texts, rest, before, semicolon, after, form⟩
      exact ⟨body, texts, rest, before, semicolon, after, hasBody, isPlace, form⟩
    · rintro ⟨body, texts, rest, before, semicolon, after, hasBody, isPlace, form⟩
      have scanned := scanned_of_faultless hasBody form.faultless
      exact ⟨body, hasBody, form.readCase scanned (singleBody hasBody), isPlace⟩
  · intro body arguments name texts rest before semicolon after hasBody form front separator back split
      separates outside
    have scanned := scanned_of_faultless hasBody form.faultless
    exact form.standsApart scanned (singleBody hasBody) split separates outside

/-- A directive with separators in brackets, strings, runes and comments. -/
def entangled : Bytes :=
  "//casegen:case f(a, \";\") /* , ; */, []rune\x7b',', ';'\x7d ; \x60b,\x60 // ; c"

/-- The case that the directive gives. -/
def disentangled : Case where
  arguments := ["f(a, \";\") /* , ; */", "[]rune\x7b',', ';'\x7d"]
  name := "b,"

theorem entangled_case_is_split :
    byte '\n' ∉ entangled ∧ Case.parse (fun _ => {}) ⟨0, entangled⟩ = .ok disentangled ∧
      ∃ body texts rest before semicolon after, body? caseMark entangled = some body ∧
        Form body disentangled.arguments disentangled.name texts rest before semicolon after ∧
        StandsApart body before semicolon ∧
        ∀ front comma back, before = front ++ comma :: back → comma.token = .comma → depth front = 0 →
          StandsApart body front comma := by
  have singleLine : byte '\n' ∉ entangled := by decide +kernel
  have parsed : Case.parse (fun _ => {}) ⟨0, entangled⟩ = .ok disentangled := by decide +kernel
  rcases case_is_split_outside_of_brackets (fun _ => {}) ⟨0, entangled⟩ singleLine with ⟨isRead, apart⟩
  rcases (isRead disentangled).mp parsed with
    ⟨body, texts, rest, before, semicolon, after, hasBody, _, form⟩
  refine ⟨singleLine, parsed, body, texts, rest, before, semicolon, after, hasBody, form, ?_, ?_⟩
  · exact apart _ _ _ _ _ _ _ _ hasBody form before semicolon [] rfl (.inr form.isSemicolon) form.outside
  · rintro front comma back rfl isComma outside
    refine apart _ _ _ _ _ _ _ _ hasBody form front comma (back ++ [semicolon]) ?_ (.inl isComma) outside
    rw [append_assoc, cons_append]

end Directive
end CaseExpansion
