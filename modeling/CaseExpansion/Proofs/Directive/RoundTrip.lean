import CaseExpansion.Proofs.Directive.Arguments
import CaseExpansion.Proofs.Source.Quotations

namespace CaseExpansion
namespace Directive

open List
open Source (Fit Lexeme Reader Sequel)
open Source.Lexeme (scanAll separator spoken)
open Source.LineDirective (Harmless)
open Text (Glyph)
open Text.Utf8 (glyphs glyphsFrom)
open Text.Quoted (encode)

/-!
# Writing and reading case directives

A case is written as a directive with a comma and a blank between two arguments, and its name
as a quoted text.  Reading gives the case back, if its arguments stand alone: their lexemes
are found in the directive one after the other, with the separators between them.
-/

/-- A case as a directive. -/
def written (arguments : List Bytes) (name : Bytes) : Bytes :=
  caseMark ++ " " ++ Bytes.joinWith ", " arguments ++ "; " ++ encode name

/-- What is written from an argument on. -/
def rest : (argument : Bytes) → (arguments : List Bytes) → (name : Bytes) → Bytes
  | argument, [], name => byte ' ' :: (argument ++ byte ';' :: byte ' ' :: encode name)
  | argument, next :: arguments, name => byte ' ' :: (argument ++ byte ',' :: rest next arguments name)

theorem written_cons (argument : Bytes) (arguments : List Bytes) (name : Bytes) :
    written (argument :: arguments) name = caseMark ++ rest argument arguments name := by
  have joined : Bytes.ofString " " ++ Bytes.joinWith ", " (argument :: arguments) ++ "; " ++
      encode name = rest argument arguments name := by
    induction arguments generalizing argument with
    | nil =>
      rw [rest, Bytes.joinWith]
      simp only [append_assoc]
      rfl
    | cons next arguments ih =>
      rw [rest, ← ih, Bytes.joinWith]
      · simp only [append_assoc]
        rfl
      · exact cons_ne_nil _ _
  rw [written, ← joined]
  simp only [append_assoc]

theorem written_nil (name : Bytes) : written [] name = caseMark ++ rest [] [] name := by
  rw [written]
  simp only [append_assoc]
  rfl

/-! ## Glyphs -/

/-- The glyph of an ASCII character. -/
def glyphOf (char : Char) (offset : Nat) : Glyph :=
  ⟨char, [byte char], offset⟩

theorem fit_glyphsFrom {text : Bytes} (fit : Fit (glyphs text)) (offset : Nat) :
    Fit (glyphsFrom 0 offset text) := by
  rw [Text.Utf8.glyphsFrom_eq_map]
  intro glyph member
  rcases mem_map.mp member with ⟨glyph, isGlyph, rfl⟩
  exact fit glyph isGlyph

variable {argument body : Bytes} {arguments : List Bytes}

theorem glyphsFrom_argument (fit : Fit (glyphs argument)) (start : Nat) {char : Char}
    (separates : char = ',' ∨ char = ';') (more : Bytes) :
    glyphsFrom 0 start (byte ' ' :: (argument ++ byte char :: more)) =
      glyphOf ' ' start :: (glyphsFrom 0 (start + 1) argument ++
        glyphOf char (start + 1 + argument.length) ::
          glyphsFrom 0 (start + 1 + argument.length + 1) more) := by
  have tiles := Text.Utf8.glyphsFrom_tile argument 0 (start + 1) (Nat.zero_le _)
  have sound : ∀ glyph ∈ glyphsFrom 0 (start + 1) argument, glyph.Sound := fun glyph member =>
    Text.Utf8.glyphsFrom_sound argument 0 (start + 1) glyph member
      (Bool.or_eq_false_iff.mp (Bool.or_eq_false_iff.mp (fit_glyphsFrom fit _ glyph member)).1).2
  have read := tiles.glyphsFrom_eq sound (byte char :: more)
  rw [Text.Utf8.flatMap_glyphsFrom, drop_zero] at read
  have last : glyphsFrom 0 (start + 1 + argument.length) (byte char :: more) =
      glyphOf char (start + 1 + argument.length) ::
        glyphsFrom 0 (start + 1 + argument.length + 1) more := by
    rcases separates with rfl | rfl <;> rfl
  rw [last] at read
  exact congrArg (glyphOf ' ' start :: ·) read

/-! ## Lexemes -/

/-- The empty text has no lexemes. -/
theorem closed_nil : Closed [] [] false where
  fit _ member := absurd member not_mem_nil
  scans := .none _ _
  anywhere _ _ := .none _ _
  faultless _ member := absurd member not_mem_nil
  harmless _ member := absurd member not_mem_nil
  passed := rfl

/-- The lexeme has no fault, and it adds none to the text. -/
structure Clean (text : Bytes) (lexeme : Lexeme) : Prop where
  faultless : lexeme.faults = []
  harmless : lexeme.token = .comment → Harmless text lexeme

theorem clean_separator (text : Bytes) (glyph : Glyph) (stop : Nat) :
    Clean text (separator glyph stop) := by
  rw [separator]
  split
  · exact ⟨rfl, fun impossible => (by cases impossible)⟩
  · exact ⟨rfl, fun impossible => (by cases impossible)⟩

section Argument

variable {argument : Bytes} {words : List Lexeme} {last : Bool} (closed : Closed argument words last)
include closed

theorem Closed.clean_moved (front back : Bytes) :
    ∀ lexeme ∈ words.map (Lexeme.moved front.length), Clean (front ++ argument ++ back) lexeme := by
  intro lexeme member
  rcases mem_map.mp member with ⟨word, isWord, rfl⟩
  refine ⟨?_, fun isComment => ?_⟩
  · rw [Lexeme.moved, closed.faultless word isWord]
    rfl
  · have scanned : word ∈ Lexeme.scan argument := by
      rw [Lexeme.scan_of_fit closed.fit, closed.scans.scanAll_eq]
      exact mem_append_left _ isWord
    have lies := (Lexeme.scan_spread argument).lies word scanned
    have solid := lies.solid_of_eq isComment (by decide) (by decide)
    exact (closed.harmless word isWord isComment).moved solid (lies.inside solid)

theorem Closed.scanAll_argument (whole start : Nat) {char : Char}
    (separates : char = ',' ∨ char = ';') {more : Bytes}
    (fitMore : Fit (glyphsFrom 0 (start + 1 + argument.length + 1) more)) :
    Fit (glyphsFrom 0 start (byte ' ' :: (argument ++ byte char :: more))) ∧
      ∃ stop, scanAll whole false ⟨glyphsFrom 0 start (byte ' ' :: (argument ++ byte char :: more)),
        []⟩ =
        words.map (Lexeme.moved (start + 1)) ++ separator
          (glyphOf char (start + 1 + argument.length)) stop ::
          scanAll whole false ⟨glyphsFrom 0 (start + 1 + argument.length + 1) more, []⟩ := by
  rw [glyphsFrom_argument closed.fit start separates more]
  have fitChar : Source.isUnfit (glyphOf char (start + 1 + argument.length)) = false := by
    rcases separates with rfl | rfl <;> rfl
  have stops : Source.isStop char = true := by
    rcases separates with rfl | rfl <;> rfl
  have fitArgument := fit_glyphsFrom closed.fit (start + 1)
  generalize glyphsFrom 0 (start + 1 + argument.length + 1) more = later at fitMore ⊢
  have fit : Fit (glyphsFrom 0 (start + 1) argument ++
      glyphOf char (start + 1 + argument.length) :: later) :=
    forall_mem_append.mpr ⟨fitArgument, forall_mem_cons.mpr ⟨fitChar, fitMore⟩⟩
  refine ⟨forall_mem_cons.mpr ⟨rfl, fit⟩, Reader.offset whole ⟨later, []⟩, ?_⟩
  have scans := (closed.anywhere ⟨argument.length, start + 1, whole, glyphOf char
    (start + 1 + argument.length), later, Nat.add_comm _ _, stops, fitChar⟩ rfl).scanAll_eq
  dsimp only [Reader.before, Sequel.rest] at scans
  rw [← Text.Utf8.glyphsFrom_eq_map, Lexeme.scanAll_separator last separates fitMore] at scans
  rw [Lexeme.scanAll_skip rfl fit]
  exact scans

end Argument

/-! ## Reading what is written -/

/-- Texts after each other, with commas between them, and a name. -/
structure ReadsAs (body : Bytes) (start : Nat) (ahead : List Glyph) (texts : List Bytes)
    (name : Bytes) : Prop where
  fit : Fit ahead
  clean : ∀ lexeme ∈ scanAll body.length false ⟨ahead, []⟩, Clean body lexeme
  head : ∃ head, splitHead? 0 (spoken (scanAll body.length false ⟨ahead, []⟩)) = some head ∧
    IsName head.after name ∧ (pieces body start head.commas head.semicolon).map Prod.snd = texts

/-- The lexemes of a name, from an offset on, at the end of a text of the given size. -/
def nameLexemes (offset size : Nat) (name : Bytes) : List Lexeme :=
  ⟨.string, offset, size, encode name, []⟩ :: Lexeme.ends size true

theorem scanAll_name {start : Nat} {name : Bytes}
    (isEnd : body.length = start + 1 + (encode name).length) :
    Fit (glyphsFrom 0 start (byte ' ' :: encode name)) ∧
      scanAll body.length false ⟨glyphsFrom 0 start (byte ' ' :: encode name), []⟩ =
        nameLexemes (start + 1) body.length name := by
  have fit := Source.fit_encode name (start + 1)
  have isGlyphs : glyphsFrom 0 start (byte ' ' :: encode name) =
      glyphOf ' ' start :: glyphsFrom 0 (start + 1) (encode name) := rfl
  rw [isGlyphs]
  refine ⟨forall_mem_cons.mpr ⟨rfl, fit⟩, ?_⟩
  have step := Lexeme.scanNext_encode name (start + 1)
  rw [← isEnd] at step
  have notEnd : Source.Token.string ≠ .eof := by decide
  rw [Lexeme.scanAll_skip rfl fit, Lexeme.scanAll_eq, step, if_neg notEnd, Lexeme.scanAll_nil]
  rfl

theorem isName_nameLexemes (offset size : Nat) (name : Bytes) :
    IsName (nameLexemes offset size name) name := by
  have ends : Lexeme.ends size true = [⟨.semicolon, size, size, [byte '\n'], []⟩,
      ⟨.eof, size, size, [], []⟩] := rfl
  rw [nameLexemes, ends]
  refine ⟨?_, _, _, rfl, rfl, Text.Quoted.decode?_encode name, ?_⟩
  · simp only [forall_mem_cons, not_mem_nil, false_imp_iff, implies_true, and_self]
  · simp only [forall_mem_cons, not_mem_nil, false_imp_iff, implies_true, and_true]
    exact ⟨rfl, rfl⟩

theorem spoken_nameLexemes (offset size : Nat) (name : Bytes) :
    spoken (nameLexemes offset size name) = nameLexemes offset size name := by
  have isWord : Source.Token.string ≠ .comment := by decide
  rw [nameLexemes, Lexeme.spoken_cons_of_ne isWord, spoken_ends]

theorem clean_nameLexemes (text : Bytes) (offset size : Nat) (name : Bytes) :
    ∀ lexeme ∈ nameLexemes offset size name, Clean text lexeme := by
  intro lexeme member
  refine ⟨(isName_nameLexemes offset size name).faultless lexeme member, fun isComment => ?_⟩
  rw [← spoken_nameLexemes] at member
  exact absurd isComment (Lexeme.mem_spoken.mp member).2

/-- The text of an argument is cut out with the blank before it. -/
theorem slice_argument (front argument back : Bytes) :
    Bytes.slice (front ++ byte ' ' :: (argument ++ back)) front.length
      (front.length + 1 + argument.length) = byte ' ' :: argument := by
  have cut := @Source.slice_append front (byte ' ' :: argument) back 0 _ (Nat.le_refl _)
  rw [append_assoc, cons_append, Nat.zero_add, length_cons] at cut
  rw [show front.length + 1 + argument.length = argument.length + 1 +
    front.length by omega, cut, Bytes.slice, drop_zero, Nat.sub_zero, ← length_cons, take_length]

section Argument

variable {argument : Bytes} {words : List Lexeme} {last : Bool} (closed : Closed argument words last)
include closed

theorem Closed.clean_scan (front back : Bytes) (glyph : Glyph) (stop : Nat) {others : List Lexeme}
    (clean : ∀ lexeme ∈ others, Clean (front ++ byte ' ' :: (argument ++ back)) lexeme) :
    ∀ lexeme ∈ words.map (Lexeme.moved (front.length + 1)) ++ separator glyph stop :: others,
      Clean (front ++ byte ' ' :: (argument ++ back)) lexeme := by
  have cleanWords := closed.clean_moved (front ++ [byte ' ']) back
  rw [length_append, length_singleton, append_assoc, append_assoc, singleton_append]
    at cleanWords
  exact forall_mem_append.mpr
    ⟨cleanWords, forall_mem_cons.mpr ⟨clean_separator _ glyph stop, clean⟩⟩

theorem Closed.splitHead?_scan (distance : Nat) {lexeme : Lexeme} (isWord : lexeme.token ≠ .comment)
    (others : List Lexeme) :
    splitHead? 0 (spoken (words.map (Lexeme.moved distance) ++ lexeme :: others)) =
      (splitHead? 0 (lexeme :: spoken others)).map fun head =>
        { head with before := spoken (words.map (Lexeme.moved distance)) ++ head.before } := by
  have passed : depthAfter? 0 (spoken (words.map (Lexeme.moved distance))) = some 0 := by
    rw [spoken_moved, depthAfter?_moved, closed.passed]
  rw [Lexeme.spoken_append, Lexeme.spoken_cons_of_ne isWord, splitHead?_append passed]

theorem readsAs_last (front name : Bytes) :
    ReadsAs (front ++ rest argument [] name) front.length
      (glyphsFrom 0 front.length (rest argument [] name)) [byte ' ' :: argument] name := by
  rw [rest]
  have size : (front ++ byte ' ' :: (argument ++ byte ';' :: byte ' ' :: encode name)).length =
      front.length + 1 + argument.length + 1 + 1 + (encode name).length := by
    simp only [length_append, length_cons]
    omega
  have cut := slice_argument front argument (byte ';' :: byte ' ' :: encode name)
  have clean := closed.clean_scan front (byte ';' :: byte ' ' :: encode name)
  generalize front ++ byte ' ' :: (argument ++ byte ';' :: byte ' ' :: encode name) = body
    at size cut clean ⊢
  rcases scanAll_name size with ⟨fitName, scansName⟩
  rcases closed.scanAll_argument body.length front.length (.inr rfl) fitName with ⟨fit, stop, scans⟩
  have isSemicolon : (separator (glyphOf ';' (front.length + 1 + argument.length)) stop).token =
      .semicolon := rfl
  refine ⟨fit, ?_, ?_⟩
  · rw [scans, scansName]
    exact clean _ stop (clean_nameLexemes body _ _ name)
  · rw [scans, closed.splitHead?_scan _ (by rw [isSemicolon]; decide),
      splitHead?_semicolon isSemicolon rfl, scansName, spoken_nameLexemes]
    exact ⟨_, rfl, isName_nameLexemes _ _ name, congrArg ([·]) cut⟩

/-- An argument, a comma and what follows. -/
theorem readsAs_cons (front : Bytes) {more name : Bytes} {texts : List Bytes}
    (later : ReadsAs (front ++ byte ' ' :: (argument ++ byte ',' :: more))
      (front.length + 1 + argument.length + 1)
      (glyphsFrom 0 (front.length + 1 + argument.length + 1) more) texts name) :
    ReadsAs (front ++ byte ' ' :: (argument ++ byte ',' :: more)) front.length
      (glyphsFrom 0 front.length (byte ' ' :: (argument ++ byte ',' :: more)))
      ((byte ' ' :: argument) :: texts) name := by
  have cut := slice_argument front argument (byte ',' :: more)
  have clean := closed.clean_scan front (byte ',' :: more)
  generalize front ++ byte ' ' :: (argument ++ byte ',' :: more) = body at later cut clean ⊢
  rcases later with ⟨fitLater, cleanLater, head, found, isName, isTexts⟩
  rcases closed.scanAll_argument body.length front.length (.inl rfl) fitLater with ⟨fit, stop, scans⟩
  have isComma : (separator (glyphOf ',' (front.length + 1 + argument.length)) stop).token =
      .comma := rfl
  refine ⟨fit, ?_, ?_⟩
  · rw [scans]
    exact clean _ stop cleanLater
  · rw [scans, closed.splitHead?_scan _ (by rw [isComma]; decide), splitHead?_comma isComma, found]
    refine ⟨_, rfl, isName, ?_⟩
    rw [← isTexts]
    exact congrArg (· :: _) cut

end Argument

theorem readsAs_rest (closed : ∀ text ∈ argument :: arguments, ∃ words last, Closed text words last)
    (front name : Bytes) : ReadsAs (front ++ rest argument arguments name) front.length
      (glyphsFrom 0 front.length (rest argument arguments name))
      ((argument :: arguments).map (byte ' ' :: ·)) name := by
  induction arguments generalizing argument front with
  | nil =>
    rcases closed argument mem_cons_self with ⟨words, last, closedHere⟩
    exact readsAs_last closedHere front name
  | cons next arguments ih =>
    rcases forall_mem_cons.mp closed with ⟨⟨words, last, closedHere⟩, closedLater⟩
    have later := ih closedLater (front ++ byte ' ' :: (argument ++ [byte ',']))
    have size : (front ++ byte ' ' :: (argument ++ [byte ','])).length =
        front.length + 1 + argument.length + 1 := by
      simp only [length_append, length_cons, length_nil]
      omega
    rw [size, append_assoc, cons_append, append_assoc, singleton_append] at later
    exact readsAs_cons closedHere front later

/-! ## Reading the directive -/

theorem ReadsAs.exists_head {name : Bytes} {texts : List Bytes}
    (reads : ReadsAs body 0 (glyphs body) texts name) :
    ∃ head, splitHead? 0 (lexemes body) = some head ∧ (∀ lexeme ∈ head.before, lexeme.faults = []) ∧
      IsName head.after name ∧ (pieces body 0 head.commas head.semicolon).map Prod.snd = texts := by
  rcases reads with ⟨fit, clean, head, found, isName, isTexts⟩
  rw [← Lexeme.scan_of_fit fit] at clean
  have isScan := @Source.scanFile_of_harmless [] body fun lexeme member => (clean lexeme member).harmless
  have isLexemes := lexemes_eq_spoken fit isScan fun lexeme member => (clean lexeme member).faultless
  rw [← isLexemes] at found
  refine ⟨head, found, fun lexeme member => ?_, isName, isTexts⟩
  have isWord : lexeme ∈ lexemes body := by
    rw [eq_append_of_splitHead? found]
    exact mem_append_left _ member
  rw [isLexemes, ← Lexeme.scan_of_fit fit] at isWord
  exact (clean lexeme (Lexeme.mem_spoken.mp isWord).1).faultless

theorem exists_head_rest (closed : ∀ text ∈ argument :: arguments, ∃ words last, Closed text words last)
    (name : Bytes) : ∃ head, splitHead? 0 (lexemes (rest argument arguments name)) = some head ∧
      (∀ lexeme ∈ head.before, lexeme.faults = []) ∧ IsName head.after name ∧
      (pieces (rest argument arguments name) 0 head.commas head.semicolon).map Prod.snd =
        (argument :: arguments).map (byte ' ' :: ·) :=
  (readsAs_rest closed [] name).exists_head

/-- The body of a directive that is written is read back. -/
theorem readCase_rest (standalone : ∀ text ∈ argument :: arguments, Standalone text) (name : Bytes) :
    readCase (rest argument arguments name) = .ok (argument :: arguments, name) := by
  rcases exists_head_rest (fun text member => (standalone text member).closed) name with
    ⟨head, found, silent, isName, isTexts⟩
  have texts (text : Bytes) (member : text ∈ argument :: arguments) : Text.trim (byte ' ' :: text) =
      text :=
    (Text.trim_blank text).trans (standalone text member).trimmed
  have isPieces : argumentTexts (rest argument arguments name) head =
      pieces (rest argument arguments name) 0 head.commas head.semicolon := by
    refine argumentTexts_eq_pieces fun text single => ?_
    obtain rfl := (List.cons.inj (single.symm.trans isTexts)).1
    have first := standalone argument mem_cons_self
    exact Text.isBlankText_blank first.trimmed first.expression.1
  have arguments_eq : argument :: arguments =
      (pieces (rest argument arguments name) 0 head.commas head.semicolon).map fun text =>
        Text.trim text.2 := by
    calc argument :: arguments = (argument :: arguments).map fun text => Text.trim (byte ' ' :: text) := by
          rw [map_congr_left texts, map_id']
      _ = ((argument :: arguments).map (byte ' ' :: ·)).map Text.trim := by rw [map_map]; rfl
      _ = _ := by rw [← isTexts, map_map]; rfl
  refine readCase_eq_ok_iff.mpr ⟨head, found, silent, isPieces ▸ arguments_eq,
    fun text member => ?_, isName⟩
  rw [isPieces] at member
  have isArgument : Text.trim text.2 ∈ argument :: arguments := by
    rw [arguments_eq]
    exact mem_map_of_mem member
  exact (standalone _ isArgument).expression

theorem readCase_rest_nil (name : Bytes) : readCase (rest [] [] name) = .ok ([], name) := by
  have closed : ∀ text ∈ [([] : Bytes)], ∃ words last, Closed text words last := by
    rw [forall_mem_singleton]
    exact ⟨[], false, closed_nil⟩
  rcases exists_head_rest closed name with ⟨head, found, silent, isName, isTexts⟩
  have none := argumentTexts_blank isTexts rfl
  refine readCase_eq_ok_iff.mpr ⟨head, found, silent, ?_, ?_, isName⟩
  · rw [none]
    rfl
  · rw [none]
    exact forall_mem_nil _

/-! ## Directives as comments -/

theorem body?_rest (argument : Bytes) (arguments : List Bytes) (name : Bytes) :
    body? caseMark (caseMark ++ rest argument arguments name) = some (rest argument arguments name) := by
  rw [body?, Bytes.cutLead?_eq_some_iff.mpr rfl]
  cases arguments with
  | nil => rfl
  | cons next arguments => rfl

/-- A case is read back from its directive. -/
theorem parse_written (standalone : ∀ argument ∈ arguments, Standalone argument) (name : Bytes)
    (place : Nat → Source.Position) (offset : Nat) :
    Case.parse place ⟨offset, written arguments name⟩ = .ok ⟨arguments, name, place offset⟩ := by
  cases arguments with
  | nil =>
    rw [parse_eq_ok_iff, written_nil]
    exact ⟨_, body?_rest [] [] name, readCase_rest_nil name, rfl⟩
  | cons argument arguments =>
    rw [parse_eq_ok_iff, written_cons]
    exact ⟨_, body?_rest argument arguments name, readCase_rest standalone name, rfl⟩

theorem standalone_of_parse {place : Nat → Source.Position} {comment : Source.Comment} {case : Case}
    (parsed : Case.parse place comment = .ok case) :
    ∀ argument ∈ case.arguments, Standalone argument := by
  rcases parse_eq_ok_iff.mp parsed with ⟨body, hasBody, reads, _⟩
  exact standalone_of_readCase hasBody reads

/-- The text is read back from a directive of which it is the only argument.  Where the directive
stands makes no difference. -/
def IsAtomic (argument : Bytes) : Prop :=
  ∃ place offset case, Case.parse place ⟨offset, caseMark ++ " " ++ argument ++ "; \"x\""⟩ = .ok case ∧
    case.arguments = [argument]

theorem isAtomic_iff : IsAtomic argument ↔ Standalone argument := by
  constructor
  · rintro ⟨place, offset, case, parsed, isArgument⟩
    exact standalone_of_parse parsed argument (isArgument ▸ mem_cons_self)
  · intro standalone
    have isWritten : written [argument] (Bytes.ofString "x") =
        caseMark ++ " " ++ argument ++ "; \"x\"" := by
      have quoted : encode (Bytes.ofString "x") = "\"x\"" := by decide +kernel
      rw [written, quoted, Bytes.joinWith, append_assoc]
      rfl
    have parsed := parse_written (forall_mem_singleton.mpr standalone) "x" (fun _ => {}) 0
    rw [isWritten] at parsed
    exact ⟨_, _, _, parsed, rfl⟩

/-- A case with atomic arguments is read back from the directive that it is written as, and the
arguments of every directive that is accepted are atomic. -/
theorem directives_read_back :
    (∀ arguments name, (∀ argument ∈ arguments, IsAtomic argument) → ∀ place offset,
      Case.parse place ⟨offset, written arguments name⟩ = .ok ⟨arguments, name, place offset⟩) ∧
    ∀ place comment case, Case.parse place comment = .ok case →
      (∀ argument ∈ case.arguments, IsAtomic argument) ∧ ∀ otherPlace offset,
        Case.parse otherPlace ⟨offset, written case.arguments case.name⟩ =
          .ok { case with position := otherPlace offset } := by
  constructor
  · intro arguments name atomic place offset
    exact parse_written (fun argument member => isAtomic_iff.mp (atomic argument member)) name
      place offset
  · intro place comment case parsed
    have standalone := standalone_of_parse parsed
    refine ⟨fun argument member => isAtomic_iff.mpr (standalone argument member),
      fun otherPlace offset => ?_⟩
    exact parse_written standalone case.name otherPlace offset

/-- Arguments with separators in brackets, runes, strings and comments. -/
def bracketed : List Bytes :=
  ["[]rune\x7b',', ';'\x7d", "f(1, /* ; */ \"a,\")"]

/-- A directive that is not written as `written` does. -/
def loose : Bytes :=
  "//casegen:case\t(1),x /* , */ ;\x60b\x60 // c"

theorem bracketed_directive_reads_back :
    (∀ argument ∈ bracketed, IsAtomic argument) ∧
      (∀ place offset, Case.parse place ⟨offset, written bracketed "a; \n"⟩ =
        .ok ⟨bracketed, "a; \n", place offset⟩) ∧
      Case.parse (fun _ => {}) ⟨0, loose⟩ = .ok ⟨["(1)", "x /* , */"], "b", {}⟩ ∧
      (∀ argument ∈ [Bytes.ofString "(1)", "x /* , */"], IsAtomic argument) ∧
      ∀ place offset, Case.parse place ⟨offset, written ["(1)", "x /* , */"] "b"⟩ =
        .ok ⟨["(1)", "x /* , */"], "b", place offset⟩ := by
  have atomic : ∀ argument ∈ bracketed, IsAtomic argument := by
    have computed : ∀ argument ∈ bracketed,
        Case.parse (fun _ => {}) ⟨0, caseMark ++ " " ++ argument ++ "; \"x\""⟩ =
          .ok ⟨[argument], "x", {}⟩ := by
      decide +kernel
    exact fun argument member => ⟨_, _, _, computed argument member, rfl⟩
  have parsed : Case.parse (fun _ => {}) ⟨0, loose⟩ = .ok ⟨["(1)", "x /* , */"], "b", {}⟩ := by
    decide +kernel
  have readBack := directives_read_back.2 _ _ _ parsed
  exact ⟨atomic, directives_read_back.1 _ _ atomic, parsed, readBack.1, readBack.2⟩

end Directive
end CaseExpansion
