import CaseExpansion.Proofs.Directive.Division
import CaseExpansion.Proofs.Source.FaultPlaces

namespace CaseExpansion

open List Source

/-!
# Failures of directives

What is wrong with a directive is wrong somewhere in its comment, or something is missing at the
end of it.  An argument that is no expression is reported where it starts, which is after the mark of
the directive or after a comma that stands outside of brackets, and only if all arguments before it
are expressions.
-/

/-- A computation fails only with errors of a certain sort. -/
def Blames {ε α : Type} (sort : ε → Prop) (outcome : Except ε α) : Prop :=
  ∀ error, outcome = .error error → sort error

namespace Blames

variable {ε α β : Type} {sort : ε → Prop}

theorem ok (value : α) : Blames sort (.ok value) :=
  fun _ impossible => nomatch impossible

theorem error {fault : ε} (holds : sort fault) : Blames sort (.error fault : Except ε α) := by
  rintro _ ⟨rfl⟩
  exact holds

theorem imp {other : ε → Prop} {outcome : Except ε α} (blames : Blames sort outcome)
    (implies : ∀ error, sort error → other error) : Blames other outcome :=
  fun error failed => implies error (blames error failed)

theorem bind {first : Except ε α} {next : α → Except ε β} (ofFirst : Blames sort first)
    (ofNext : ∀ value, Blames sort (next value)) : Blames sort (first >>= next) := by
  cases first with
  | error fault => exact error (ofFirst fault rfl)
  | ok value => exact ofNext value

theorem map {outcome : Except ε α} (ofOutcome : Blames sort outcome) (change : α → β) :
    Blames sort (outcome.map change) := by
  cases outcome with
  | error fault => exact error (ofOutcome fault rfl)
  | ok value => exact ok _

theorem mapM {read : α → Except ε β} (ofRead : ∀ value, Blames sort (read value)) (values : List α) :
    Blames sort (values.mapM read) := by
  induction values with
  | nil => exact ok _
  | cons value values ih =>
    rw [mapM_cons]
    exact (ofRead value).bind fun _ => ih.bind fun _ => ok _

end Blames

namespace Directive

variable {size : Nat} {body : Bytes} {failure : Failure}

/-- The number of the argument that a problem is about. -/
def argument? : Problem → Option Nat
  | .emptyArgument number | .notExpression number _ => some number
  | _ => none

/-- A problem of a directive, at an offset of a body of the given size or at its end. -/
structure Failure.Inside (size : Nat) (failure : Failure) : Prop where
  offset : failure.offset ≤ size
  kind : failure.problem.kind = .directive

/-- A problem that is not about an argument. -/
structure Failure.OfWords (size : Nat) (failure : Failure) :
    Prop extends Failure.Inside size failure where
  noArgument : argument? failure.problem = none

/-! ## Problems with the parts of a body -/

theorem lexemes_bounded (body : Bytes) : ∀ lexeme ∈ lexemes body, lexeme.Bounded body.length :=
  Parse.withoutComments_bounded (by simp) (scanFile_bounded [] body)

theorem checkFaults_blames {lexemes : List Lexeme} (bounded : ∀ lexeme ∈ lexemes, lexeme.Bounded size) :
    Blames (Failure.OfWords size) (checkFaults lexemes) := by
  unfold checkFaults firstFault?
  split
  next isFault =>
    rcases Option.map_eq_some_iff.mp isFault with ⟨fault, isFirst, rfl⟩
    rcases mem_flatMap.mp (mem_of_mem_head? isFirst) with ⟨lexeme, among, within⟩
    exact .error ⟨⟨(bounded lexeme among).faults fault within, rfl⟩, rfl⟩
  next => exact .ok _

theorem readName_blames {lexemes : List Lexeme} (bounded : ∀ lexeme ∈ lexemes, lexeme.Bounded size) :
    Blames (Failure.OfWords size) (readName lexemes) := by
  cases lexemes with
  | nil => exact .error ⟨⟨Nat.zero_le _, rfl⟩, rfl⟩
  | cons lexeme rest =>
    rcases forall_mem_cons.mp bounded with ⟨first, later⟩
    have here {problem : Problem} (kind : problem.kind = .directive)
        (noArgument : argument? problem = none) :
        Failure.OfWords size ⟨lexeme.offset, problem⟩ := ⟨⟨first.offset, kind⟩, noArgument⟩
    unfold readName
    refine (checkFaults_blames (forall_mem_singleton.mpr first)).bind fun _ => ?_
    dsimp only
    split
    · split
      · exact .error (here rfl rfl)
      · exact .error (here rfl rfl)
    · split
      · exact .error (here rfl rfl)
      · split
        next found => exact .error ⟨⟨(later _ (mem_of_find?_eq_some found)).offset, rfl⟩, rfl⟩
        · exact (checkFaults_blames later).bind fun _ => .ok _

theorem readDirectories_blames : (lexemes : List Lexeme) → (∀ lexeme ∈ lexemes, lexeme.Bounded size) →
    Blames (Failure.Inside size) (readDirectories lexemes)
  | [], _ => .error ⟨Nat.zero_le _, rfl⟩
  | lexeme :: rest, bounded => by
    rcases forall_mem_cons.mp bounded with ⟨first, later⟩
    have check {lexeme : Lexeme} (isBounded : lexeme.Bounded size) :
        Blames (Failure.Inside size) (checkFaults [lexeme]) :=
      (checkFaults_blames (forall_mem_singleton.mpr isBounded)).imp fun _ blamed => blamed.toInside
    unfold readDirectories
    refine (check first).bind fun _ => ?_
    dsimp only
    split
    · split
      · exact .error ⟨first.offset, rfl⟩
      · exact .error ⟨first.offset, rfl⟩
    · split
      · exact .error ⟨first.offset, rfl⟩
      · exact .error ⟨first.offset, rfl⟩
      · cases rest with
        | nil => exact .ok _
        | cons separator rest =>
          rcases forall_mem_cons.mp later with ⟨second, others⟩
          refine (check second).bind fun _ => ?_
          split
          · exact .ok _
          · split
            · exact .error ⟨second.offset, rfl⟩
            · exact (readDirectories_blames rest others).bind fun _ => .ok _

theorem readDirectories_inside (body : Bytes) :
    Blames (Failure.Inside body.length) (readDirectories (lexemes body)) :=
  readDirectories_blames _ (lexemes_bounded body)

/-! ## Problems with arguments -/

/-- What is wrong with an argument that is no expression. -/
def badArgument (number : Nat) (text : Bytes) : Problem :=
  if text = [] then .emptyArgument number else .notExpression number text

theorem badArgument_spec (number : Nat) (text : Bytes) :
    argument? (badArgument number text) = some number ∧ (badArgument number text).kind = .directive := by
  unfold badArgument
  split <;> exact ⟨rfl, rfl⟩

theorem readArgument_of_not_isExpression {number start : Nat} {text : Bytes}
    (bad : ¬IsExpression (Text.trim text)) :
    readArgument number start text = .error ⟨start, badArgument number (Text.trim text)⟩ := by
  unfold readArgument badArgument
  dsimp only
  cases trimmed : Text.trim text with
  | nil => rfl
  | cons code rest =>
    rw [isEmpty_cons, if_neg Bool.false_ne_true, if_neg (cons_ne_nil _ _)]
    cases parsed : Source.parseExpr (code :: rest) with
    | error failure => rfl
    | ok expression =>
      rw [trimmed] at bad
      exact absurd ⟨cons_ne_nil _ _, expression, parsed⟩ bad

/-- The text at the given index is no expression, and those before it are. -/
structure FirstBad (texts : List Bytes) (index : Nat) (text : Bytes) : Prop where
  stands : texts[index]? = some text
  bad : ¬IsExpression (Text.trim text)
  first : ∀ earlier ∈ texts.take index, IsExpression (Text.trim earlier)

/-- Arguments are not read because of the first that is no expression. -/
theorem readArguments_eq_error_iff {number : Nat} {texts : List (Nat × Bytes)} :
    readArguments number texts = .error failure ↔ ∃ index text, (texts.map Prod.fst)[index]? =
      some failure.offset ∧
      FirstBad (texts.map Prod.snd) index text ∧ failure.problem = badArgument (number + index)
        (Text.trim text) := by
  induction texts generalizing number with
  | nil =>
    refine ⟨fun impossible => (by cases impossible), ?_⟩
    rintro ⟨index, text, impossible, _⟩
    cases impossible
  | cons text texts ih =>
    rw [readArguments]
    by_cases expression : IsExpression (Text.trim text.2)
    · have read : readArgument number text.1 text.2 = .ok (Text.trim text.2) :=
        readArgument_eq_ok_iff.mpr ⟨rfl, expression⟩
      have later : (do return (← readArgument number text.1 text.2) :: (← readArguments (number + 1) texts)) =
          Except.error failure ↔ readArguments (number + 1) texts = .error failure := by
        rw [read]
        refine (@bound_eq_error_iff _ _ _ (readArguments (number + 1) texts) _ _).trans (or_iff_left ?_)
        rintro ⟨_, _, ⟨⟩⟩
      rw [later, ih]
      constructor
      · rintro ⟨index, other, place, ⟨stands, bad, first⟩, problem⟩
        refine ⟨index + 1, other, place, ⟨stands, bad, forall_mem_cons.mpr ⟨expression, first⟩⟩, ?_⟩
        rw [problem, Nat.add_right_comm, Nat.add_assoc]
      · rintro ⟨_ | index, other, place, ⟨stands, bad, first⟩, problem⟩
        · cases stands
          exact absurd expression bad
        · refine ⟨index, other, place, ⟨stands, bad, (forall_mem_cons.mp first).2⟩, ?_⟩
          rw [problem, Nat.add_right_comm, Nat.add_assoc]
    · rw [readArgument_of_not_isExpression expression]
      constructor
      · rintro ⟨⟩
        exact ⟨0, text.2, rfl, ⟨rfl, expression, forall_mem_nil _⟩, rfl⟩
      · rintro ⟨_ | index, other, place, ⟨stands, bad, first⟩, problem⟩
        · cases stands
          cases failure
          cases place
          cases problem
          rfl
        · exact absurd ((forall_mem_cons.mp first).1) expression

theorem readArguments_blames {texts : List (Nat × Bytes)} (inside : ∀ text ∈ texts, text.1 ≤ size)
    (number : Nat) : Blames (Failure.Inside size) (readArguments number texts) := by
  intro failure failed
  rcases readArguments_eq_error_iff.mp failed with ⟨index, text, place, _, problem⟩
  rcases mem_map.mp (mem_of_getElem? place) with ⟨start, isText, isStart⟩
  exact ⟨isStart ▸ inside start isText, problem ▸ (badArgument_spec _ _).2⟩

/-! ## Problems with a body -/

/-- Where texts start that are joined by commas: at the beginning and after every comma. -/
def starts (texts : List Bytes) : List Nat :=
  0 :: (joints 0 texts).map (· + 1)

/-- A body is parted at its first semicolon outside of brackets and at the commas before it that are
outside of brackets. -/
structure Parted (body : Bytes) (texts : List Bytes) (before : List Lexeme) (semicolon : Lexeme)
    (after : List Lexeme) : Prop where
  scanned : lexemes body = before ++ semicolon :: after
  divides : Divides 0 before semicolon
  joined : body = Bytes.joinWith "," texts ++ ";" ++ body.drop (semicolon.offset + 1)
  place : semicolon.offset = (Bytes.joinWith "," texts).length
  commas : ∀ offset, offset ∈ joints 0 texts ↔
    ∃ comma, AtTop before comma ∧ comma.token = .comma ∧ comma.offset = offset

theorem pieces_starts (body : Bytes) (start : Nat) (commas : List Nat) (stop : Nat) :
    (pieces body start commas stop).map Prod.fst = start :: commas.map (· + 1) := by
  induction commas generalizing start with
  | nil => rfl
  | cons comma commas ih => rw [pieces, map_cons, ih, map_cons]

/-- A head gives the parts of a body, each with the offset at which it starts. -/
theorem exists_parted {head : Head} (found : splitHead? 0 (lexemes body) = some head) :
    ∃ texts before semicolon after, Parted body texts before semicolon after ∧
    head.before = before ++ [semicolon] ∧
      (pieces body 0 head.commas head.semicolon).map Prod.fst = starts texts ∧
      (pieces body 0 head.commas head.semicolon).map Prod.snd = texts := by
  rcases exists_divides found with ⟨before, semicolon, after, split, divides, rfl⟩
  rcases joined_of_divides split divides rfl with ⟨joined, place, isJoints⟩
  refine ⟨_, before, semicolon, after, ⟨split, divides, joined, place, fun offset => ?_⟩, rfl, ?_, rfl⟩
  · rw [isJoints, mem_map]
    simp only [mem_topCommas, atTopFrom_zero, and_assoc]
  · rw [pieces_starts, starts, isJoints]
    rfl

theorem Parted.exists_head {texts : List Bytes} {before after : List Lexeme} {semicolon : Lexeme}
    (parted : Parted body texts before semicolon after) (some : texts ≠ []) :
    ∃ head, splitHead? 0 (lexemes body) = .some head ∧ head.before = before ++ [semicolon] ∧
      (pieces body 0 head.commas head.semicolon).map Prod.fst = starts texts ∧
      (pieces body 0 head.commas head.semicolon).map Prod.snd = texts := by
  refine ⟨headOf 0 before semicolon after, ?_, rfl, ?_⟩
  · rw [parted.scanned]
    exact splitHead?_of_divides parted.divides after
  · rcases pieces_of_commas parted.scanned some parted.joined parted.place parted.commas with
      ⟨isCommas, cut⟩
    refine ⟨?_, cut⟩
    rw [pieces_starts, starts, ← isCommas]
    rfl

theorem starts_le {texts : List Bytes} {before after : List Lexeme} {semicolon : Lexeme}
    (parted : Parted body texts before semicolon after) :
    ∀ start ∈ starts texts, start ≤ body.length := by
  refine forall_mem_cons.mpr ⟨Nat.zero_le _, fun start isStart => ?_⟩
  rcases mem_map.mp isStart with ⟨offset, isJoint, rfl⟩
  rcases (parted.commas offset).mp isJoint with ⟨comma, ⟨front, back, rfl, _⟩, isComma, rfl⟩
  have isLexeme : comma ∈ lexemes body := by
    rw [parted.scanned]
    exact mem_append_left _ (mem_append_right _ mem_cons_self)
  exact (List.getElem?_eq_some_iff.mp (separator_stands isLexeme (isSeparator_of_comma isComma)).2).1

theorem readCase_inside (body : Bytes) : Blames (Failure.Inside body.length) (readCase body) := by
  have bounded := lexemes_bounded body
  unfold readCase
  split
  · exact .error ⟨Nat.le_refl _, rfl⟩
  next head found =>
    rw [eq_append_of_splitHead? found, forall_mem_append] at bounded
    rcases exists_parted found with ⟨texts, before, semicolon, after, parted, _, isStarts, _⟩
    refine ((checkFaults_blames bounded.1).imp fun _ blamed => blamed.toInside).bind fun _ =>
      (readArguments_blames (fun text member => ?_) _).bind fun _ =>
        ((readName_blames bounded.2).imp fun _ blamed => blamed.toInside).bind fun _ => .ok _
    refine starts_le parted text.1 ?_
    rw [← isStarts]
    rcases argumentTexts_cases body head with none | all
    · rw [none] at member
      cases member
    · exact mem_map_of_mem (all ▸ member)

/-- Problems about arguments are those that reading the arguments gives. -/
theorem exists_head_of_readCase {number : Nat} (failed : readCase body = .error failure)
    (about : argument? failure.problem = some number) :
    ∃ head, splitHead? 0 (lexemes body) = some head ∧ (∀ lexeme ∈ head.before, lexeme.faults = []) ∧
      readArguments 1 (argumentTexts body head) = .error failure := by
  have notWords (blamed : failure.OfWords body.length) : False := by
    rw [blamed.noArgument] at about
    cases about
  have bounded := lexemes_bounded body
  unfold readCase at failed
  split at failed
  · cases failed
    cases about
  next head found =>
    rw [eq_append_of_splitHead? found, forall_mem_append] at bounded
    rcases bound_eq_error_iff.mp failed with checked | ⟨_, checked, failed⟩
    · exact (notWords (checkFaults_blames bounded.1 failure checked)).elim
    refine ⟨head, found, checkFaults_eq_ok_iff.mp checked, ?_⟩
    rcases bound_eq_error_iff.mp failed with read | ⟨_, _, failed⟩
    · exact read
    rcases bound_eq_error_iff.mp failed with named | ⟨_, _, ⟨⟩⟩
    exact (notWords (readName_blames bounded.2 failure named)).elim

/-- A body with an argument that is the first to be no expression, and its start.  White space alone is
no argument. -/
structure Spoiled (body : Bytes) (texts : List Bytes) (before : List Lexeme) (semicolon : Lexeme)
    (after : List Lexeme) (index start : Nat) (text : Bytes) : Prop where
  parted : Parted body texts before semicolon after
  silent : ∀ lexeme ∈ before ++ [semicolon], lexeme.faults = []
  solid : texts = [text] → Text.isBlankText text = false
  firstBad : FirstBad texts index text
  start : (starts texts)[index]? = some start

/-- A body is not read because of an argument exactly if it is spoiled by one. -/
theorem readCase_blames_iff {number : Nat} :
    readCase body = .error failure ∧ argument? failure.problem = some number ↔
      ∃ texts before semicolon after index text,
        Spoiled body texts before semicolon after index failure.offset text ∧ number = index + 1 ∧
          failure.problem = badArgument number (Text.trim text) := by
  constructor
  · rintro ⟨failed, about⟩
    rcases exists_head_of_readCase failed about with ⟨head, found, silent, failed⟩
    rcases readArguments_eq_error_iff.mp failed with ⟨index, text, place, firstBad, problem⟩
    rw [problem, (badArgument_spec _ _).1] at about
    obtain rfl : number = index + 1 := (Option.some.inj about).symm.trans (Nat.add_comm _ _)
    rcases exists_parted found with ⟨texts, before, semicolon, after, parted, isBefore,
      isStarts, isTexts⟩
    rcases argumentTexts_cases body head with none | all
    · rw [none] at place
      cases place
    · rw [all, isStarts] at place
      rw [all, isTexts] at firstBad
      refine ⟨texts, before, semicolon, after, index, text,
        ⟨parted, isBefore ▸ silent, fun single => ?_, firstBad,
        place⟩, rfl, Nat.add_comm 1 index ▸ problem⟩
      rw [Bool.eq_false_iff]
      intro isBlank
      rw [argumentTexts_blank (isTexts.trans single) isBlank] at failed
      cases failed
  · rintro ⟨texts, before, semicolon, after, index, text, ⟨parted, silent, solid, firstBad, place⟩,
      rfl, problem⟩
    refine ⟨?_, problem ▸ (badArgument_spec _ _).1⟩
    have some : texts ≠ [] := fun none => by
      have stands := firstBad.stands
      rw [none] at stands
      cases stands
    rcases parted.exists_head some with ⟨head, found, isBefore, isStarts, isTexts⟩
    have isPieces : argumentTexts body head = pieces body 0 head.commas head.semicolon := by
      refine argumentTexts_eq_pieces fun other single => ?_
      rw [isTexts] at single
      have stands := firstBad.stands
      rw [single] at stands
      obtain rfl : other = text := mem_singleton.mp (mem_of_getElem? stands) |>.symm
      exact solid single
    have failed : readArguments 1 (argumentTexts body head) = .error failure := by
      refine readArguments_eq_error_iff.mpr ⟨index, text, ?_, ?_, Nat.add_comm index 1 ▸ problem⟩
      · rw [isPieces, isStarts, place]
      · rw [isPieces, isTexts]
        exact firstBad
    unfold readCase
    rw [found]
    dsimp only
    rw [checkFaults_eq_ok_iff.mpr (isBefore ▸ silent), failed]
    rfl

end Directive

/-! ## Errors of comments -/

/-- An error of a directive, at a byte of its comment or just after it. -/
structure Error.Inside (place : Nat → Position) (comment : Comment) (error : Error) : Prop where
  kind : error.kind = .directive
  place : ∃ index ≤ comment.text.length, error.position = place (comment.offset + index)

section

variable (place : Nat → Position) (comment : Comment)

theorem Directive.locate_blames {α : Type} (mark : Bytes) {read : Bytes → Except Failure α}
    (ofRead : ∀ body, Blames (Failure.Inside body.length) (read body)) :
    Blames (Error.Inside place comment) (locate mark read place comment) := by
  unfold locate
  split
  · exact .error ⟨rfl, 0, Nat.zero_le _, rfl⟩
  next body hasBody =>
    have parts := congrArg List.length (eq_append_of_body? hasBody)
    rw [length_append] at parts
    split
    next failure failed =>
      have inside := ofRead body failure failed
      have within := inside.offset
      refine .error ⟨inside.kind, mark.length + failure.offset, by omega, ?_⟩
      rw [Nat.add_assoc]
    next => exact .ok _

theorem Case.parse_blames : Blames (Error.Inside place comment) (Case.parse place comment) :=
  (Directive.locate_blames place comment _ Directive.readCase_inside).map _

theorem CaseDirectories.parse_blames : Blames (Error.Inside place comment)
      (CaseDirectories.parse place comment) :=
  (Directive.locate_blames place comment _ Directive.readDirectories_inside).map _

end

namespace Directive

theorem parse_eq_error_iff {place : Nat → Position} {comment : Comment} {error : Error} {number : Nat} :
    Case.parse place comment = .error error ∧ argument? error.problem = some number ↔
      ∃ body start, body? caseMark comment.text = some body ∧
        error.position = place (comment.offset + caseMark.length + start) ∧
        readCase body = .error ⟨start, error.problem⟩ ∧ argument? error.problem = some number := by
  unfold Case.parse locate
  cases body? caseMark comment.text with
  | none =>
    constructor
    · rintro ⟨⟨⟩, ⟨⟩⟩
    · rintro ⟨_, _, ⟨⟩, _⟩
  | some body =>
    dsimp only
    cases read : readCase body with
    | ok result =>
      constructor
      · rintro ⟨⟨⟩, _⟩
      · rintro ⟨_, _, ⟨⟩, _, impossible, _⟩
        cases read.symm.trans impossible
    | error failure =>
      constructor
      · rintro ⟨⟨⟩, about⟩
        exact ⟨body, failure.offset, rfl, rfl, read, about⟩
      · rintro ⟨_, start, ⟨⟩, isPlace, failed, about⟩
        cases error
        cases read.symm.trans failed
        cases isPlace
        exact ⟨rfl, about⟩

/-- What is wrong with a directive is reported inside of its comment or at its end.  An argument is
reported exactly if it is the first that is no expression, and at its start: after the mark, or after the
comma outside of brackets that stands before it. -/
theorem failures_point_into_the_directive (table : LineTable) (comment : Comment)
    (fits : comment.stop ≤ table.size) :
    (∀ error, Case.parse table.position comment = .error error ∨
        CaseDirectories.parse table.position comment = .error error →
      error.kind = .directive ∧ comment.offset ≤ error.position.offset ∧
      error.position.offset ≤ comment.stop) ∧
    ∀ error number,
      Case.parse table.position comment = .error error ∧ argument? error.problem = some number ↔
        ∃ body texts before semicolon after index start text, body? caseMark comment.text = some body ∧
          Spoiled body texts before semicolon after index start text ∧ number = index + 1 ∧
          error.problem = badArgument number (Text.trim text) ∧
          error.position = table.position (comment.offset + caseMark.length + start) ∧
          error.position.offset = comment.offset + caseMark.length + start := by
  rw [Comment.stop] at fits ⊢
  constructor
  · intro error failed
    have inside : error.Inside table.position comment :=
      failed.elim (Case.parse_blames _ _ error) (CaseDirectories.parse_blames _ _ error)
    rcases inside with ⟨kind, index, within, isPlace⟩
    rw [isPlace, LineTable.position_offset (by omega)]
    exact ⟨kind, by omega, by omega⟩
  · intro error number
    rw [parse_eq_error_iff]
    constructor
    · rintro ⟨body, start, hasBody, isPlace, failed⟩
      have within := (readCase_inside body _ failed.1).offset
      rcases readCase_blames_iff.mp failed with
        ⟨texts, before, semicolon, after, index, text, spoiled, isNumber, problem⟩
      refine ⟨body, texts, before, semicolon, after, index, start, text, hasBody, spoiled, isNumber,
        problem, isPlace, ?_⟩
      have parts := congrArg List.length (eq_append_of_body? hasBody)
      rw [length_append] at parts
      rw [isPlace]
      refine LineTable.position_offset ?_
      dsimp only at within
      omega
    · rintro ⟨body, texts, before, semicolon, after, index, start, text, hasBody, spoiled, isNumber,
        problem, isPlace, _⟩
      refine ⟨body, start, hasBody, isPlace, readCase_blames_iff.mpr ?_⟩
      exact ⟨texts, before, semicolon, after, index, text, spoiled, isNumber, problem⟩

/-- A directive with two bad arguments, the second and the third, and a name that does not end. -/
def misprinted : Comment where
  offset := 10
  text := "//casegen:case f(a, \";\"), [,], ; \"n"

/-- The lines of a file with the directive. -/
def misprintedLines : LineTable :=
  .ofText "x.go" ("package p\n" ++ misprinted.text)

theorem misprint_is_reported_at_its_start :
    misprinted.stop ≤ misprintedLines.size ∧
      Case.parse misprintedLines.position misprinted =
        .error ⟨misprintedLines.position 35, .notExpression 2 "[,]"⟩ ∧
      ∃ body texts before semicolon after text, body? caseMark misprinted.text = some body ∧
        Spoiled body texts before semicolon after 1 11 text := by
  have fits : misprinted.stop ≤ misprintedLines.size := by decide +kernel
  have failed : Case.parse misprintedLines.position misprinted =
      .error ⟨misprintedLines.position 35, .notExpression 2 "[,]"⟩ := by decide +kernel
  refine ⟨fits, failed, ?_⟩
  rcases ((failures_point_into_the_directive misprintedLines misprinted fits).2 _ 2).mp
    ⟨failed, rfl⟩ with
    ⟨body, texts, before, semicolon, after, index, start, text, hasBody, spoiled, isNumber, _,
      _, isOffset⟩
  have isPlace : (misprintedLines.position 35).offset = 35 := by decide +kernel
  have marked : misprinted.offset + caseMark.length = 24 := by decide +kernel
  dsimp only at isOffset
  rw [isPlace, marked] at isOffset
  obtain rfl : index = 1 := by omega
  obtain rfl : start = 11 := by omega
  exact ⟨body, texts, before, semicolon, after, text, hasBody, spoiled⟩

end Directive
end CaseExpansion
