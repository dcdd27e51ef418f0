import CaseExpansion.Proofs.Source.Separators

namespace CaseExpansion
namespace Directive

open List
open Source (Lexeme Token)

/-!
# The parts of a case directive

The head of a case directive is found lexeme by lexeme, with the depth of brackets carried along.
Here it is taken apart at its first separator: what stands before it is passed over, from depth
zero to depth zero, and the rest is a head again or starts the name.  The readers of the parts
succeed exactly when what they check holds, and so do those of whole comments.
-/

theorem eq_append_of_body? {mark text body : Bytes} (hasBody : body? mark text = some body) :
    text = mark ++ body := by
  unfold body? at hasBody
  cases cut : Bytes.cutLead? mark text with
  | none =>
    rw [cut] at hasBody
    cases hasBody
  | some rest =>
    rw [cut] at hasBody
    rw [Bytes.cutLead?_eq_some_iff.1 cut]
    cases rest with
    | nil => cases hasBody; rfl
    | cons first rest =>
      dsimp only at hasBody
      split at hasBody <;> cases hasBody
      rfl

/-! ## Splitting at the first separator -/

/-- The depth of brackets after some lexemes, as long as the line does not end and no
separator stands outside of brackets among them. -/
def depthAfter? : (depth : Int) → List Lexeme → Option Int
  | depth, [] => some depth
  | depth, lexeme :: lexemes =>
    if isEnd lexeme || (depth == 0 && (lexeme.token == .comma || lexeme.token == .semicolon)) then none
    else depthAfter? (depth + depthChange lexeme.token) lexemes

theorem depthAfter?_moved (distance : Nat) (depth : Int) (lexemes : List Lexeme) :
    depthAfter? depth (lexemes.map (Lexeme.moved distance)) = depthAfter? depth lexemes := by
  induction lexemes generalizing depth with
  | nil => rfl
  | cons lexeme lexemes ih =>
    rw [map_cons, depthAfter?, depthAfter?, ih]
    rfl

variable {depth last : Int} {place : Nat → Source.Position} {comment : Source.Comment}

theorem depthAfter?_cons {lexeme : Lexeme} {lexemes : List Lexeme}
    (passed : depthAfter? depth (lexeme :: lexemes) = some last) :
    isEnd lexeme = false ∧ (depth == 0 && lexeme.token == .comma) = false ∧
      (depth == 0 && lexeme.token == .semicolon) = false ∧
      depthAfter? (depth + depthChange lexeme.token) lexemes = some last := by
  rw [depthAfter?] at passed
  split at passed
  next => cases passed
  next goesOn =>
    rw [Bool.not_eq_true, Bool.or_eq_false_iff, Bool.and_or_distrib_left, Bool.or_eq_false_iff] at goesOn
    exact ⟨goesOn.1, goesOn.2.1, goesOn.2.2, passed⟩

theorem isEnd_of_depthAfter? {lexemes : List Lexeme} (passed : depthAfter? depth lexemes = some last) :
    ∀ lexeme ∈ lexemes, isEnd lexeme = false := by
  induction lexemes generalizing depth with
  | nil => exact forall_mem_nil _
  | cons lexeme lexemes ih =>
    rcases depthAfter?_cons passed with ⟨goesOn, _, _, later⟩
    exact forall_mem_cons.mpr ⟨goesOn, ih later⟩

/-- Lexemes without separators stand before the head of what follows them. -/
theorem splitHead?_append {lexemes : List Lexeme} (passed : depthAfter? depth lexemes = some last)
    (tail : List Lexeme) : splitHead? depth (lexemes ++ tail) =
      (splitHead? last tail).map fun head => { head with before := lexemes ++ head.before } := by
  induction lexemes generalizing depth with
  | nil =>
    obtain rfl := Option.some.inj passed
    rw [nil_append]
    cases splitHead? depth tail <;> rfl
  | cons lexeme lexemes ih =>
    rcases depthAfter?_cons passed with ⟨goesOn, notComma, notSemicolon, later⟩
    rw [cons_append, splitHead?, goesOn, if_neg Bool.false_ne_true]
    refine (if_neg ?_).trans ?_
    · exact fun isSemicolon => Bool.false_ne_true (notSemicolon.symm.trans isSemicolon)
    · rw [ih later, Option.map_map]
      cases splitHead? last tail with
      | none => rfl
      | some head =>
        have same : (decide (depth = 0) && lexeme.token == .comma) = false := notComma
        simp only [Option.map_some, Function.comp_apply, same, Bool.false_eq_true, if_false, cons_append]

theorem splitHead?_comma {comma : Lexeme} (isComma : comma.token = .comma) (tail : List Lexeme) :
    splitHead? 0 (comma :: tail) = (splitHead? 0 tail).map fun head =>
      { head with commas := comma.offset :: head.commas, before := comma :: head.before } := by
  have goesOn : isEnd comma = false := by
    rw [isEnd, Lexeme.isLineEnd, isComma]
    rfl
  rw [splitHead?, goesOn, isComma]
  rfl

theorem splitHead?_semicolon {semicolon : Lexeme} (isSemicolon : semicolon.token = .semicolon)
    (written : semicolon.isLineEnd = false) (tail : List Lexeme) :
    splitHead? 0 (semicolon :: tail) = some ⟨[], semicolon.offset, [semicolon], tail⟩ := by
  have goesOn : isEnd semicolon = false := by
    rw [isEnd, written, isSemicolon]
    rfl
  rw [splitHead?, goesOn, isSemicolon]
  rfl

/-- What a head is, from its first separator on. -/
inductive Head.Starts (head : Head) (separator : Lexeme) (rest : List Lexeme) : Prop where
  | semicolon (isSemicolon : separator.token = .semicolon) (written : separator.isLineEnd = false)
      (noCommas : head.commas = []) (place : head.semicolon = separator.offset)
  | comma (isComma : separator.token = .comma) (later : Head) (found : splitHead? 0 rest = some later)
      (commas : head.commas = separator.offset :: later.commas)
        (place : head.semicolon = later.semicolon)

theorem Head.Starts.isSeparator {head : Head} {separator : Lexeme} {rest : List Lexeme}
    (starts : head.Starts separator rest) : Lexeme.isSeparator separator = true := by
  cases starts with
  | semicolon isSemicolon written =>
    rw [Lexeme.isSeparator, isSemicolon, written]
    rfl
  | comma isComma =>
    rw [Lexeme.isSeparator, isComma]
    rfl

theorem exists_first_separator {lexemes : List Lexeme} {head : Head}
    (found : splitHead? depth lexemes = some head) :
    ∃ passed separator rest, lexemes = passed ++ separator :: rest ∧
      depthAfter? depth passed = some 0 ∧ head.Starts separator rest := by
  induction lexemes generalizing depth head with
  | nil => cases found
  | cons lexeme lexemes ih =>
    rw [splitHead?] at found
    split at found
    next => cases found
    next goesOn =>
      rw [Bool.not_eq_true] at goesOn
      split at found
      next isSemicolon =>
        rw [Bool.and_eq_true, decide_eq_true_eq, beq_iff_eq] at isSemicolon
        rcases isSemicolon with ⟨rfl, isSemicolon⟩
        cases found
        exact ⟨[], lexeme, lexemes, rfl, rfl, .semicolon isSemicolon
          (Bool.or_eq_false_iff.mp goesOn).2 rfl rfl⟩
      next notSemicolon =>
        rcases Option.map_eq_some_iff.mp found with ⟨later, foundLater, rfl⟩
        by_cases isComma : (decide (depth = 0) && lexeme.token == .comma) = true
        · have both := Bool.and_eq_true_iff.mp isComma
          obtain rfl := of_decide_eq_true both.1
          have token := eq_of_beq both.2
          rw [token] at foundLater
          exact ⟨[], lexeme, lexemes, rfl, rfl, .comma token later foundLater (if_pos isComma) rfl⟩
        · rcases ih foundLater with ⟨passed, separator, rest, split, isPassed, starts⟩
          refine ⟨lexeme :: passed, separator, rest, congrArg _ split, ?_, ?_⟩
          · rw [depthAfter?, if_neg, isPassed]
            rw [goesOn, Bool.false_or, Bool.and_or_distrib_left, Bool.or_eq_true]
            exact fun separates => separates.elim isComma notSemicolon
          · rw [if_neg isComma]
            cases starts with
            | semicolon isSemicolon written noCommas place =>
              exact .semicolon isSemicolon written noCommas place
            | comma isComma later found commas place => exact .comma isComma later found commas place

theorem eq_append_of_splitHead? {lexemes : List Lexeme} {head : Head}
    (found : splitHead? depth lexemes = some head) : lexemes = head.before ++ head.after := by
  induction lexemes generalizing depth head with
  | nil => cases found
  | cons lexeme lexemes ih =>
    rw [splitHead?] at found
    split at found
    next => cases found
    next =>
      split at found
      next =>
        cases found
        rfl
      next =>
        rcases Option.map_eq_some_iff.mp found with ⟨later, foundLater, rfl⟩
        exact congrArg _ (ih foundLater)

/-! ## Reading the parts -/

theorem checkFaults_eq_ok_iff {lexemes : List Lexeme} :
    checkFaults lexemes = .ok () ↔ ∀ lexeme ∈ lexemes, lexeme.faults = [] := by
  rw [← flatMap_eq_nil_iff]
  unfold checkFaults firstFault?
  cases lexemes.flatMap Lexeme.faults with
  | nil => exact ⟨fun _ => rfl, fun _ => rfl⟩
  | cons fault faults => exact ⟨fun ok => (by cases ok), fun none => (by cases none)⟩

/-- The text is an expression of the language. -/
def IsExpression (text : Bytes) : Prop :=
  text ≠ [] ∧ ∃ expression, Source.parseExpr text = .ok expression

theorem readArgument_eq_ok_iff {number start : Nat} {text argument : Bytes} :
    readArgument number start text = .ok argument ↔
      argument = Text.trim text ∧ IsExpression (Text.trim text) := by
  unfold readArgument IsExpression
  dsimp only
  cases trimmed : Text.trim text with
  | nil => exact ⟨fun ok => (by cases ok), fun none => absurd rfl none.2.1⟩
  | cons code rest =>
    rw [isEmpty_cons, if_neg Bool.false_ne_true]
    cases parsed : Source.parseExpr (code :: rest) with
    | error failure =>
      refine ⟨fun ok => (by cases ok), fun isExpression => ?_⟩
      rcases isExpression.2.2 with ⟨_, impossible⟩
      cases impossible
    | ok expression =>
      constructor
      · rintro ⟨⟩
        exact ⟨rfl, cons_ne_nil _ _, expression, rfl⟩
      · rintro ⟨rfl, _⟩
        rfl

theorem readArguments_eq_ok_iff {number : Nat} {texts : List (Nat × Bytes)} {arguments : List Bytes} :
    readArguments number texts = .ok arguments ↔
      arguments = texts.map (fun text => Text.trim text.2) ∧
      ∀ text ∈ texts, IsExpression (Text.trim text.2) := by
  induction texts generalizing number arguments with
  | nil =>
    constructor
    · rintro ⟨⟩
      exact ⟨rfl, forall_mem_nil _⟩
    · rintro ⟨rfl, _⟩
      rfl
  | cons text texts ih =>
    rw [readArguments, forall_mem_cons, map_cons, bound_eq_ok_iff]
    simp only [readArgument_eq_ok_iff, bound_eq_ok_iff, ih]
    constructor
    · rintro ⟨_, ⟨rfl, isExpression⟩, _, ⟨rfl, areExpressions⟩, ⟨⟩⟩
      exact ⟨rfl, isExpression, areExpressions⟩
    · rintro ⟨rfl, isExpression, areExpressions⟩
      exact ⟨_, ⟨rfl, isExpression⟩, _, ⟨rfl, areExpressions⟩, rfl⟩

/-- A name is a string that makes sense, and the end of the line after it. -/
structure IsName (lexemes : List Lexeme) (name : Bytes) : Prop where
  faultless : ∀ lexeme ∈ lexemes, lexeme.faults = []
  reads : ∃ string rest, lexemes = string :: rest ∧ string.token = .string ∧
    Text.Quoted.decode? string.literal = some name ∧ ∀ lexeme ∈ rest, isEnd lexeme = true

theorem readName_eq_ok_iff {lexemes : List Lexeme} {name : Bytes} :
    readName lexemes = .ok name ↔ IsName lexemes name := by
  cases lexemes with
  | nil =>
    refine ⟨fun ok => (by cases ok), fun isName => ?_⟩
    rcases isName.reads with ⟨_, _, impossible, _⟩
    cases impossible
  | cons lexeme rest =>
    rw [readName, bound_eq_ok_iff]
    dsimp only
    constructor
    · rintro ⟨_, checked, ok⟩
      have silent := checkFaults_eq_ok_iff.mp checked
      split at ok
      next => split at ok <;> cases ok
      next isString =>
        split at ok
        next => cases ok
        next text decoded =>
          split at ok
          next => cases ok
          next onlyEnds =>
            rcases bound_eq_ok_iff.mp ok with ⟨_, checkedRest, ⟨⟩⟩
            refine ⟨?_, lexeme, rest, rfl, not_not.mp isString, decoded, fun other member => ?_⟩
            · exact forall_mem_cons.mpr
                ⟨silent lexeme mem_cons_self, checkFaults_eq_ok_iff.mp checkedRest⟩
            · have ends := find?_eq_none.mp onlyEnds other member
              rwa [Bool.not_eq_true', Bool.not_eq_false] at ends
    · rintro ⟨faultless, _, _, ⟨⟩, isString, decoded, ends⟩
      rcases forall_mem_cons.mp faultless with ⟨silent, silentRest⟩
      refine ⟨(), checkFaults_eq_ok_iff.mpr (forall_mem_singleton.mpr silent), ?_⟩
      have onlyEnds : rest.find? (fun lexeme => !isEnd lexeme) = none := by
        refine find?_eq_none.mpr fun other member => ?_
        rw [ends other member]
        exact Bool.false_ne_true
      rw [if_neg (not_not.mpr isString), decoded]
      dsimp only
      rw [onlyEnds, checkFaults_eq_ok_iff.mpr silentRest]
      rfl

theorem readCase_eq_ok_iff {body name : Bytes} {arguments : List Bytes} :
    readCase body = .ok (arguments, name) ↔
      ∃ head, splitHead? 0 (lexemes body) = some head ∧ (∀ lexeme ∈ head.before, lexeme.faults = []) ∧
        arguments = (argumentTexts body head).map (fun text => Text.trim text.2) ∧
        (∀ text ∈ argumentTexts body head, IsExpression (Text.trim text.2)) ∧
        IsName head.after name := by
  unfold readCase
  cases splitHead? 0 (lexemes body) with
  | none => exact ⟨fun ok => (by cases ok), fun ⟨_, impossible, _⟩ => (by cases impossible)⟩
  | some head =>
    dsimp only
    simp only [bound_eq_ok_iff, readArguments_eq_ok_iff, readName_eq_ok_iff]
    constructor
    · rintro ⟨_, checked, _, ⟨rfl, areExpressions⟩, _, isName, ⟨⟩⟩
      exact ⟨head, rfl, checkFaults_eq_ok_iff.mp checked, rfl, areExpressions, isName⟩
    · rintro ⟨_, ⟨⟩, silent, rfl, areExpressions, isName⟩
      exact ⟨(), checkFaults_eq_ok_iff.mpr silent, _, ⟨rfl, areExpressions⟩, name, isName, rfl⟩

/-! ## Argument texts -/

theorem argumentTexts_cases (body : Bytes) (head : Head) :
    argumentTexts body head = [] ∨ argumentTexts body head =
      pieces body 0 head.commas head.semicolon := by
  unfold argumentTexts
  split
  next start text isPiece =>
    split
    · exact .inl rfl
    · exact .inr isPiece.symm
  next => exact .inr rfl

theorem argumentTexts_eq_pieces {body : Bytes} {head : Head}
    (solid : ∀ text, (pieces body 0 head.commas head.semicolon).map Prod.snd = [text] →
      Text.isBlankText text = false) :
    argumentTexts body head = pieces body 0 head.commas head.semicolon := by
  unfold argumentTexts
  split
  next start text isPiece =>
    rw [isPiece] at solid ⊢
    rw [solid text rfl]
    rfl
  next => rfl

theorem argumentTexts_blank {body text : Bytes} {head : Head}
    (single : (pieces body 0 head.commas head.semicolon).map Prod.snd = [text])
    (blank : Text.isBlankText text = true) : argumentTexts body head = [] := by
  unfold argumentTexts
  split
  next start other isPiece =>
    rw [isPiece] at single
    obtain rfl : other = text := (List.cons.inj single).1
    rw [if_pos blank]
  next others =>
    rcases map_eq_singleton_iff.mp single with ⟨piece, isPiece, _⟩
    exact absurd isPiece (others piece.1 piece.2)

/-! ## Reading a comment -/

theorem map_eq_ok_iff {ε α β : Type} {outcome : Except ε α} {change : α → β} {result : β} :
    outcome.map change = .ok result ↔ ∃ value, outcome = .ok value ∧ change value = result := by
  cases outcome with
  | error failure => exact ⟨fun ok => (by cases ok), fun ⟨_, impossible, _⟩ => (by cases impossible)⟩
  | ok value => exact ⟨fun ok => ⟨value, rfl, Except.ok.inj ok⟩,
      fun ⟨_, same, ok⟩ => (by cases same; exact ok ▸ rfl)⟩

theorem locate_eq_ok_iff {α : Type} {mark : Bytes} {read : Bytes → Except Failure α}
    {result : α × Source.Position} :
    locate mark read place comment = .ok result ↔ ∃ body, body? mark comment.text = some body ∧
      read body = .ok result.1 ∧ result.2 = place comment.offset := by
  unfold locate
  cases body? mark comment.text with
  | none => exact ⟨fun ok => (by cases ok), fun ⟨_, impossible, _⟩ => (by cases impossible)⟩
  | some body =>
    dsimp only
    cases reads : read body with
    | error failure =>
      refine ⟨fun ok => (by cases ok), ?_⟩
      rintro ⟨_, ⟨⟩, impossible, _⟩
      cases reads.symm.trans impossible
    | ok found =>
      constructor
      · rintro ⟨⟩
        exact ⟨body, rfl, reads, rfl⟩
      · rintro ⟨_, ⟨⟩, readsToo, isPlace⟩
        cases reads.symm.trans readsToo
        rw [← isPlace]

theorem parse_eq_ok_iff {case : Case} : Case.parse place comment = .ok case ↔
      ∃ body, body? caseMark comment.text = some body ∧ readCase body = .ok (case.arguments, case.name) ∧
        case.position = place comment.offset := by
  simp only [Case.parse, map_eq_ok_iff, locate_eq_ok_iff]
  constructor
  · rintro ⟨_, found, rfl⟩
    exact found
  · intro found
    exact ⟨((case.arguments, case.name), case.position), found, rfl⟩

theorem parse_directories_eq_ok_iff {several : CaseDirectories} :
    CaseDirectories.parse place comment = .ok several ↔
      ∃ body, body? directoryMark comment.text = some body ∧
        readDirectories (lexemes body) = .ok several.directories ∧
        several.position = place comment.offset := by
  simp only [CaseDirectories.parse, map_eq_ok_iff, locate_eq_ok_iff]
  constructor
  · rintro ⟨_, found, rfl⟩
    exact found
  · intro found
    exact ⟨(several.directories, several.position), found, rfl⟩

theorem isExpression_of_parse {case : Case} (parsed : Case.parse place comment = .ok case) :
    ∀ argument ∈ case.arguments, IsExpression argument := by
  rcases parse_eq_ok_iff.mp parsed with ⟨body, _, reads, _⟩
  rcases readCase_eq_ok_iff.mp reads with ⟨head, _, _, isArguments, areExpressions, _⟩
  rw [isArguments]
  exact forall_mem_map.mpr areExpressions

end Directive
end CaseExpansion
