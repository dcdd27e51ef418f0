import CaseExpansion.Proofs.Directive.QuotedArguments
import CaseExpansion.Proofs.Directive.Splitting
import CaseExpansion.Proofs.Source.Fillers
import CaseExpansion.Proofs.Source.LineEnds

namespace CaseExpansion
namespace Directive

open List
open Source (Filler Fit IsString LastFiller Lexeme OnLine QuietAfter)
open Source.Lexeme (scanAll spoken)
open Text (Glyph)
open Text.Quoted (encode)

/-!
# Lists of directories

A directory directive is a list of string literals with commas between them, and with white space and
comments wherever they may stand (`Listed`).  Every directive that is accepted has this form, and
names the directories that the literals stand for.  Directories that are quoted and put in a list are
read back.
-/

/-- The text is a list of string literals, of which each stands for a directory.  There is a comma
between two literals and none after the last one. -/
inductive Listed : Bytes → List Bytes → Prop where
  | last {before text after directory : Bytes} (isFiller : Filler before)
      (isString : IsString text directory)
      (some : directory ≠ []) (isLast : LastFiller after) : Listed
        (before ++ (text ++ after)) [directory]
  | more {before text between rest directory : Bytes} {directories : List Bytes}
      (isFiller : Filler before)
      (isString : IsString text directory) (some : directory ≠ []) (isBetween : Filler between)
      (later : Listed rest directories) :
      Listed (before ++ (text ++ (between ++ byte ',' :: rest))) (directory :: directories)

variable {directories : List Bytes} {lexeme : Lexeme} {directory body : Bytes}

theorem Listed.ne_nil {text : Bytes} (listed : Listed text directories) :
    directories ≠ [] ∧ ∀ directory ∈ directories, directory ≠ [] := by
  induction listed with
  | last _ _ some _ => exact ⟨cons_ne_nil _ _, forall_mem_singleton.mpr some⟩
  | more _ _ some _ _ ih =>
    exact ⟨cons_ne_nil _ _, forall_mem_cons.mpr ⟨some, ih.2⟩⟩

/-! ## Reading lexemes -/

/-- A lexeme names a directory. -/
structure NamesDirectory (lexeme : Lexeme) (directory : Bytes) : Prop where
  silent : lexeme.faults = []
  isString : lexeme.token = .string
  decoded : Text.Quoted.decode? lexeme.literal = some directory
  some : directory ≠ []

/-- Lexemes name directories, with commas between them, up to where the line ends. -/
inductive ListsOut : List Lexeme → List Bytes → Prop where
  | alone {lexeme : Lexeme} {directory : Bytes} (names : NamesDirectory lexeme directory) :
      ListsOut [lexeme] [directory]
  | last {lexeme separator : Lexeme} {directory : Bytes} (names : NamesDirectory lexeme directory)
      (silent : separator.faults = []) (ends : isEnd separator = true) (rest : List Lexeme) :
      ListsOut (lexeme :: separator :: rest) [directory]
  | more {lexeme comma : Lexeme} {rest : List Lexeme} {directory : Bytes} {directories : List Bytes}
      (names : NamesDirectory lexeme directory) (silent : comma.faults = [])
        (isComma : comma.token = .comma)
      (later : ListsOut rest directories) : ListsOut (lexeme :: comma :: rest) (directory :: directories)

theorem listsOut_of_readDirectories {lexemes : List Lexeme}
    (reads : readDirectories lexemes = .ok directories) : ListsOut lexemes directories := by
  induction length : lexemes.length using Nat.strongRecOn generalizing lexemes directories with
  | ind length ih =>
  subst length
  cases lexemes with
  | nil => cases reads
  | cons lexeme rest =>
    rw [readDirectories] at reads
    rcases bound_eq_ok_iff.mp reads with ⟨_, checked, reads⟩
    have silent := forall_mem_singleton.mp (checkFaults_eq_ok_iff.mp checked)
    dsimp only at reads
    by_cases isString : lexeme.token = .string
    · rw [if_neg (not_not.mpr isString)] at reads
      cases decoded : Text.Quoted.decode? lexeme.literal with
      | none =>
        rw [decoded] at reads
        cases reads
      | some directory =>
        rw [decoded] at reads
        cases directory with
        | nil => cases reads
        | cons code directory =>
          have names : NamesDirectory lexeme (code :: directory) :=
            ⟨silent, isString, decoded, cons_ne_nil _ _⟩
          cases rest with
          | nil =>
            cases reads
            exact .alone names
          | cons separator rest =>
            rcases bound_eq_ok_iff.mp reads with ⟨_, checked, reads⟩
            have silentToo := forall_mem_singleton.mp (checkFaults_eq_ok_iff.mp checked)
            by_cases ends : isEnd separator = true
            · rw [if_pos ends] at reads
              cases reads
              exact .last names silentToo ends rest
            · rw [if_neg ends] at reads
              by_cases isComma : separator.token = .comma
              · rw [if_neg (not_not.mpr isComma)] at reads
                rcases bound_eq_ok_iff.mp reads with ⟨others, readsLater, same⟩
                cases same
                have shorter : rest.length < (lexeme :: separator :: rest).length := by
                  simp only [length_cons]
                  omega
                exact .more names silentToo isComma (ih _ shorter readsLater rfl)
              · rw [if_pos isComma] at reads
                cases reads
    · rw [if_pos isString] at reads
      cases ends : isEnd lexeme <;> rw [ends] at reads <;> cases reads

/-- A directory is read, whatever follows it. -/
theorem NamesDirectory.readDirectories_eq (names : NamesDirectory lexeme directory) :
    readDirectories [lexeme] = .ok [directory] ∧ ∀ separator rest, separator.faults = [] →
      (isEnd separator = true → readDirectories (lexeme :: separator :: rest) = .ok [directory]) ∧
      (separator.token = .comma → ∀ directories, readDirectories rest = .ok directories →
        readDirectories (lexeme :: separator :: rest) = .ok (directory :: directories)) := by
  have checks {lexeme : Lexeme} (silent : lexeme.faults = []) : checkFaults [lexeme] = .ok () :=
    checkFaults_eq_ok_iff.mpr (forall_mem_singleton.mpr silent)
  rcases names with ⟨silent, isString, decoded, some⟩
  cases directory with
  | nil => exact absurd rfl some
  | cons code directory =>
    have notOther : ¬lexeme.token ≠ .string := not_not.mpr isString
    refine ⟨?_, fun separator rest silentToo => ⟨fun ends => ?_, fun isComma directories reads => ?_⟩⟩
    · rw [readDirectories]
      refine bound_eq_ok_iff.mpr ⟨(), checks silent, ?_⟩
      dsimp only
      rw [if_neg notOther, decoded]
      rfl
    · rw [readDirectories]
      refine bound_eq_ok_iff.mpr ⟨(), checks silent, ?_⟩
      dsimp only
      rw [if_neg notOther, decoded]
      refine bound_eq_ok_iff.mpr ⟨(), checks silentToo, ?_⟩
      rw [if_pos ends]
      rfl
    · have goesOn : ¬isEnd separator = true := by
        rw [isEnd, Lexeme.isLineEnd, isComma]
        exact Bool.false_ne_true
      rw [readDirectories]
      refine bound_eq_ok_iff.mpr ⟨(), checks silent, ?_⟩
      dsimp only
      rw [if_neg notOther, decoded]
      refine bound_eq_ok_iff.mpr ⟨(), checks silentToo, ?_⟩
      rw [if_neg goesOn, if_neg (not_not.mpr isComma)]
      exact bound_eq_ok_iff.mpr ⟨directories, reads, rfl⟩

theorem readDirectories_of_listsOut {lexemes : List Lexeme} (lists : ListsOut lexemes directories) :
    readDirectories lexemes = .ok directories := by
  induction lists with
  | alone names => exact names.readDirectories_eq.1
  | last names silent ends rest => exact (names.readDirectories_eq.2 _ rest silent).1 ends
  | more names silent isComma _ ih =>
    exact (names.readDirectories_eq.2 _ _ silent).2 isComma _ ih

/-! ## Accepted lists -/

/-- Where nothing comes after the end of the line, all lexemes are looked at. -/
theorem ListsOut.faultless {lexemes : List Lexeme} (lists : ListsOut lexemes directories)
    (quiet : lexemes.Pairwise QuietAfter) : ∀ lexeme ∈ lexemes, lexeme.faults = [] := by
  induction lists with
  | alone names => exact forall_mem_singleton.mpr names.silent
  | last names silent ends rest =>
    have quietLater := (pairwise_cons.mp (pairwise_cons.mp quiet).2).1
    rw [isEnd, Bool.or_eq_true, beq_iff_eq] at ends
    exact forall_mem_cons.mpr ⟨names.silent, forall_mem_cons.mpr
      ⟨silent, fun lexeme member => (quietLater lexeme member ends).2⟩⟩
  | more names silent _ _ ih =>
    have quietLater := (pairwise_cons.mp (pairwise_cons.mp quiet).2).2
    exact forall_mem_cons.mpr ⟨names.silent, forall_mem_cons.mpr ⟨silent, ih quietLater⟩⟩

theorem ends_ne_cons {size : Nat} {last : Bool} {rest : List Lexeme} (goesOn : isEnd lexeme = false) :
    Lexeme.ends size last ≠ lexeme :: rest := by
  intro same
  cases last <;> cases same <;> cases goesOn

theorem isEnd_of_token {token : Source.Token} (isToken : lexeme.token = token) (notEnd : token ≠ .eof)
    (notSemicolon : token ≠ .semicolon) : isEnd lexeme = false := by
  rw [isEnd, Lexeme.isLineEnd, isToken, beq_eq_false_iff_ne.mpr notEnd,
    beq_eq_false_iff_ne.mpr notSemicolon]
  rfl

section Scan

variable {size : Nat} {lineEnds : Bool} {ahead : List Glyph} (onLine : OnLine ahead)
  (faultless : ∀ lexeme ∈ scanAll size lineEnds ⟨ahead, []⟩, lexeme.faults = [])
include onLine faultless

theorem spoken_ne_nil : spoken (scanAll size lineEnds ⟨ahead, []⟩) ≠ [] := by
  cases Source.Lexeme.nextWord onLine faultless with
  | none last _ atEnd =>
    rw [atEnd]
    cases last <;> exact cons_ne_nil _ _
  | some _ _ _ _ _ isFound _ =>
    rw [isFound]
    exact cons_ne_nil _ _

theorem exists_written {lexeme : Lexeme} {rest : List Lexeme} (goesOn : isEnd lexeme = false)
    (found : spoken (scanAll size lineEnds ⟨ahead, []⟩) = lexeme :: rest) :
    ∃ filler word flag later, Filler filler ∧ Source.Lexeme.WrittenAs lexeme word ∧
      ahead.flatMap Glyph.bytes = filler ++ (word ++ later.flatMap Glyph.bytes) ∧ OnLine later ∧
      rest = spoken (scanAll size flag ⟨later, []⟩) ∧
      ∀ lexeme ∈ scanAll size flag ⟨later, []⟩, lexeme.faults = [] := by
  cases Source.Lexeme.nextWord onLine faultless with
  | none last _ atEnd => exact absurd (atEnd.symm.trans found) (ends_ne_cons goesOn)
  | @some filler word other flag later isFiller text written suffix _ isFound faultlessLater =>
    rcases List.cons.inj (isFound.symm.trans found) with ⟨rfl, rfl⟩
    exact ⟨filler, word, flag, later, isFiller, written, text, onLine.of_suffix suffix, rfl,
      faultlessLater⟩

theorem lastFiller_of_isEnd {separator : Lexeme} {rest : List Lexeme} (ends : isEnd separator = true)
    (found : spoken (scanAll size lineEnds ⟨ahead, []⟩) = separator :: rest) :
    LastFiller (ahead.flatMap Glyph.bytes) := by
  cases Source.Lexeme.nextWord onLine faultless with
  | none _ isFiller _ => exact isFiller
  | some _ _ written _ _ isFound _ =>
    obtain rfl := (List.cons.inj (isFound.symm.trans found)).1
    rw [isEnd, written.goesOn, beq_eq_false_iff_ne.mpr written.notEnd] at ends
    cases ends

end Scan

theorem NamesDirectory.goesOn (names : NamesDirectory lexeme directory) : isEnd lexeme = false :=
  isEnd_of_token names.isString (by decide) (by decide)

/-- Lexemes that name directories come from a list of literals. -/
theorem ListsOut.listed {lexemes : List Lexeme} {directories : List Bytes}
    (lists : ListsOut lexemes directories)
    {size : Nat} {lineEnds : Bool} {ahead : List Glyph} (onLine : OnLine ahead)
    (faultless : ∀ lexeme ∈ scanAll size lineEnds ⟨ahead, []⟩, lexeme.faults = [])
    (found : spoken (scanAll size lineEnds ⟨ahead, []⟩) = lexemes) :
    Listed (ahead.flatMap Glyph.bytes) directories := by
  induction lists generalizing lineEnds ahead with
  | alone names =>
    rcases exists_written onLine faultless names.goesOn found with
      ⟨_, _, _, _, _, _, _, onLineLater, isRest, faultlessLater⟩
    exact absurd isRest.symm (spoken_ne_nil onLineLater faultlessLater)
  | last names silent ends rest =>
    rcases exists_written onLine faultless names.goesOn found with
      ⟨filler, word, flag, later, isFiller, written, text, onLineLater, isRest, faultlessLater⟩
    rw [text]
    exact .last isFiller (written.string names.isString _ names.decoded) names.some
      (lastFiller_of_isEnd onLineLater faultlessLater ends isRest.symm)
  | more names silent isComma _ ih =>
    rcases exists_written onLine faultless names.goesOn found with
      ⟨filler, word, flag, later, isFiller, written, text, onLineLater, isRest, faultlessLater⟩
    have goesOn := isEnd_of_token isComma (by decide) (by decide)
    rcases exists_written onLineLater faultlessLater goesOn isRest.symm with
      ⟨between, comma, _, rest, isBetween, writtenComma, textLater, onLineRest, isRest, faultlessRest⟩
    have listed := ih onLineRest faultlessRest isRest.symm
    rw [text, textLater, writtenComma.comma isComma]
    exact .more isFiller (written.string names.isString _ names.decoded) names.some isBetween listed

theorem Scanned.onLine (scanned : Scanned body) (singleLine : byte '\n' ∉ body) :
    OnLine (Text.Utf8.glyphs body) where
  fit := scanned.fit
  sound := sound_of_fit scanned.fit
  noFeed := scanned.noFeed singleLine

theorem listed_of_readDirectories {mark text : Bytes} (hasBody : body? mark text = some body)
    (singleLine : byte '\n' ∉ body) (reads : readDirectories (lexemes body) = .ok directories) :
    Listed body directories := by
  have lists := listsOut_of_readDirectories reads
  have quiet : (lexemes body).Pairwise QuietAfter :=
    Source.Parse.withoutComments_quiet (Source.scanFile_quiet singleLine []) []
  have faultless := Source.Parse.faultless_of_withoutComments (Source.scanFile_ended [] body)
    (lists.faultless quiet)
  have scanned := scanned_of_faultless hasBody faultless.2
  have listed := lists.listed (scanned.onLine singleLine) scanned.faultless scanned.lexemes_eq.symm
  rwa [Text.Utf8.flatMap_glyphs] at listed

/-! ## Lists that are written -/

/-- What is written from a directory on. -/
def listing : (directory : Bytes) → (directories : List Bytes) → Bytes
  | directory, [] => byte ' ' :: encode directory
  | directory, next :: directories =>
    byte ' ' :: (encode directory ++ byte ',' :: listing next directories)

theorem listing_eq (directory : Bytes) (directories : List Bytes) :
    Bytes.ofString " " ++ Bytes.joinWith ", " ((directory :: directories).map encode) =
      listing directory directories := by
  induction directories generalizing directory with
  | nil => rfl
  | cons next directories ih =>
    rw [listing, ← ih, map_cons, map_cons, joinWith_cons _ _ (cons_ne_nil _ _)]
    simp only [append_assoc]
    rfl

/-- The lexemes of a list that is written, wherever it stands at the end of a text. -/
theorem scanAll_listing (some : ∀ other ∈ directory :: directories, other ≠ []) {start : Nat}
    (isEnd : body.length = start + (listing directory directories).length) :
    Fit (Text.Utf8.glyphsFrom 0 start (listing directory directories)) ∧
      ∃ lexemes,
        scanAll body.length false ⟨Text.Utf8.glyphsFrom 0 start (listing directory directories),
          []⟩ = lexemes ∧
        (∀ lexeme ∈ lexemes, lexeme.token ≠ .comment ∧ lexeme.faults = []) ∧
        ListsOut lexemes (directory :: directories) := by
  have isWord : Source.Token.string ≠ .comment := by decide
  induction directories generalizing directory start with
  | nil =>
    rw [listing, length_cons] at isEnd
    rcases @scanAll_name body start directory (by omega) with ⟨fit, scans⟩
    refine ⟨fit, _, scans, ?_, ?_⟩
    · intro lexeme member
      have clean := clean_nameLexemes body _ _ directory lexeme member
      rw [← spoken_nameLexemes] at member
      exact ⟨(Lexeme.mem_spoken.mp member).2, clean.faultless⟩
    · have names : NamesDirectory ⟨.string, start + 1, body.length, encode directory, []⟩ directory :=
        ⟨rfl, rfl, Text.Quoted.decode?_encode directory, some directory mem_cons_self⟩
      exact .last names rfl rfl _
  | cons next directories ih =>
    rcases forall_mem_cons.mp some with ⟨someHere, someLater⟩
    rw [listing, length_cons, length_append, length_cons] at isEnd
    have isEndLater : body.length = start + 1 + (encode directory).length + 1 +
        (listing next directories).length := by omega
    rcases ih someLater isEndLater with ⟨fitLater, others, scansLater, plain, lists⟩
    rcases (closed_encode directory).scanAll_argument body.length start (.inl rfl) fitLater with
      ⟨fit, stop, scans⟩
    rw [scansLater] at scans
    have clean := clean_separator body (glyphOf ',' (start + 1 + (encode directory).length)) stop
    have isComma : Source.Token.comma ≠ .comment := by decide
    refine ⟨fit, _, scans, ?_, ?_⟩
    · exact forall_mem_cons.mpr ⟨⟨isWord, rfl⟩, forall_mem_cons.mpr ⟨⟨isComma, clean.faultless⟩, plain⟩⟩
    · have names : NamesDirectory ((quotedLexeme directory).moved (start + 1)) directory :=
        ⟨rfl, rfl, Text.Quoted.decode?_encode directory, someHere⟩
      exact .more names clean.faultless rfl lists

/-- Directories are read back from the list that is written for them. -/
theorem readDirectories_listing (some : ∀ other ∈ directory :: directories, other ≠ []) :
    readDirectories (lexemes (listing directory directories)) = .ok (directory :: directories) := by
  rcases scanAll_listing some (Nat.zero_add _).symm with ⟨fit, found, scans, plain, lists⟩
  have isScan : Lexeme.scan (listing directory directories) = found :=
    (Lexeme.scan_of_fit fit).trans scans
  rw [← isScan] at plain lists
  have isFile := @Source.scanFile_of_harmless [] (listing directory directories)
    fun lexeme member isComment =>
    absurd isComment (plain lexeme member).1
  rw [lexemes, isFile, Source.Parse.withoutComments_eq_self plain]
  exact readDirectories_of_listsOut lists

/-! ## Directives as comments -/

/-- Directories are read back from the directive that lists them as quoted texts.  A directive on
one line that is accepted is a list of string literals, white space and comments aside, and gives the
directories that they stand for. -/
theorem directory_lists_are_read :
    (∀ directories : List Bytes, directories ≠ [] → (∀ directory ∈ directories, directory ≠ []) →
      ∀ place offset, CaseDirectories.parse place
          ⟨offset, directoryMark ++ " " ++ Bytes.joinWith ", " (directories.map Text.Quoted.encode)⟩ =
        .ok ⟨directories, place offset⟩) ∧
    ∀ place comment several, byte '\n' ∉ comment.text → CaseDirectories.parse place comment =
      .ok several → ∃ body, comment.text = directoryMark ++ body ∧ Listed body several.directories ∧
        several.directories ≠ [] ∧ ∀ directory ∈ several.directories, directory ≠ [] := by
  constructor
  · intro directories some eachSome place offset
    cases directories with
    | nil => exact absurd rfl some
    | cons directory directories =>
      rw [append_assoc, listing_eq]
      refine parse_directories_eq_ok_iff.mpr ⟨_, ?_, readDirectories_listing eachSome, rfl⟩
      rw [body?, Bytes.cutLead?_eq_some_iff.mpr rfl]
      cases directories <;> rfl
  · intro place comment several singleLine parsed
    rcases parse_directories_eq_ok_iff.mp parsed with ⟨body, hasBody, reads, _⟩
    have isText := eq_append_of_body? hasBody
    have singleBody : byte '\n' ∉ body := fun member => singleLine (isText ▸ mem_append_right _ member)
    have listed := listed_of_readDirectories hasBody singleBody reads
    exact ⟨body, isText, listed, listed.ne_nil⟩

/-- A directive with commas in strings and comments, and with strings of both forms. -/
def interspersed : Bytes := "//casegen:dir\t/* \"z\", */\"a, b\" /* , */,\x60c\\\x60 // , \"d\""

theorem interspersed_directories_are_read :
    CaseDirectories.parse (fun _ => {}) ⟨0, directoryMark ++ " " ++
        Bytes.joinWith ", " ([[0x61, 0x22, 0x2C], [0xFF, 0x0A, 0x5C]].map Text.Quoted.encode)⟩ =
      .ok ⟨[[0x61, 0x22, 0x2C], [0xFF, 0x0A, 0x5C]], {}⟩ ∧
    byte '\n' ∉ interspersed ∧
    CaseDirectories.parse (fun _ => {}) ⟨0, interspersed⟩ = .ok ⟨["a, b", "c\\"], {}⟩ ∧
    ∃ body, interspersed = directoryMark ++ body ∧ Listed body ["a, b", "c\\"] := by
  have singleLine : byte '\n' ∉ interspersed := by decide +kernel
  have parsed : CaseDirectories.parse (fun _ => {}) ⟨0, interspersed⟩ = .ok ⟨["a, b", "c\\"], {}⟩ := by
    decide +kernel
  rcases directory_lists_are_read with ⟨readsBack, isListed⟩
  rcases isListed (fun _ => {}) ⟨0, interspersed⟩ _ singleLine parsed with ⟨body, isText, listed, _⟩
  have eachSome : ∀ directory ∈ [[0x61, 0x22, 0x2C], [0xFF, 0x0A, 0x5C]], directory ≠ ([] : Bytes) :=
    forall_mem_cons.mpr ⟨cons_ne_nil _ _, forall_mem_singleton.mpr (cons_ne_nil _ _)⟩
  exact ⟨readsBack _ (cons_ne_nil _ _) eachSome (fun _ => {}) 0, singleLine, parsed, body,
    isText, listed⟩

end Directive
end CaseExpansion
