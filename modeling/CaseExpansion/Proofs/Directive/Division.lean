import CaseExpansion.Proofs.Directive.Heads
import CaseExpansion.Proofs.Source.Brackets
import CaseExpansion.Proofs.Source.Spans
import CaseExpansion.Proofs.Splicing
import Mathlib.Data.List.Sort

namespace CaseExpansion

open List
open Source (Fault Lexeme)
open Source.Lexeme (isSeparator)

/-!
# How case directives are divided

The arguments of a case directive stand before its first semicolon outside of brackets, and between
them are the commas outside of brackets.  Which ones these are is told by the lexemes and by the
number of brackets that are open before them.  The lexemes may have faults: a separator is the byte
that it stands for even so, and the texts and the commas make up what stands before the semicolon.
-/

theorem Source.Parse.withoutComments_bare (faults : List Fault) (lexemes : List Lexeme) :
    (withoutComments faults lexemes).map Lexeme.bare =
      (lexemes.filter (·.token ≠ .comment)).map Lexeme.bare := by
  induction lexemes generalizing faults with
  | nil => rfl
  | cons lexeme lexemes ih =>
    rw [withoutComments, filter_cons]
    by_cases isComment : lexeme.token = .comment
    · simp only [isComment, if_true, ne_eq, not_true_eq_false, decide_false,
        Bool.false_eq_true, if_false]
      exact ih _
    · simp only [isComment, if_false, ne_eq, not_false_eq_true, decide_true, if_true, map_cons, ih]
      rfl

namespace Directive

/-! ## Lexemes outside of brackets -/

/-- How many brackets are open after some lexemes: those that open less those that close. -/
def depth (lexemes : List Lexeme) : Int :=
  lexemes.countP (·.token.partner?.isSome) - lexemes.countP (·.token.isClosing)

/-- The lexeme is one of the given ones, and as many brackets are closed before it as are opened. -/
def AtTop (lexemes : List Lexeme) (lexeme : Lexeme) : Prop :=
  ∃ before after, lexemes = before ++ lexeme :: after ∧ depth before = 0

theorem depth_cons (lexeme : Lexeme) (lexemes : List Lexeme) :
    depth (lexeme :: lexemes) = depthChange lexeme.token + depth lexemes := by
  have change : ((if lexeme.token.partner?.isSome then 1 else 0 : Nat) : Int) -
      (if lexeme.token.isClosing then 1 else 0 : Nat) = depthChange lexeme.token := by
    cases lexeme.token <;> rfl
  rw [depth, depth, countP_cons, countP_cons, ← change]
  omega

theorem depth_append (lexemes others : List Lexeme) :
    depth (lexemes ++ others) = depth lexemes + depth others := by
  rw [depth, depth, depth, countP_append, countP_append]
  omega

/-- Like `AtTop`, for lexemes before which some brackets are open. -/
def AtTopFrom (start : Int) (lexemes : List Lexeme) (lexeme : Lexeme) : Prop :=
  ∃ before after, lexemes = before ++ lexeme :: after ∧ start + depth before = 0

variable {lexeme first semicolon separator : Lexeme} {start : Int} {before front back : List Lexeme}
  {head : Head}
  {texts arguments : List Bytes} {body text : Bytes} {stop : Nat}

theorem atTopFrom_zero {lexemes : List Lexeme} : AtTopFrom 0 lexemes lexeme ↔ AtTop lexemes lexeme := by
  unfold AtTopFrom AtTop
  simp only [Int.zero_add]

theorem atTopFrom_cons {lexemes : List Lexeme} : AtTopFrom start (first :: lexemes) lexeme ↔
      lexeme = first ∧ start = 0 ∨ AtTopFrom (start + depthChange first.token) lexemes lexeme := by
  constructor
  · rintro ⟨before, after, split, isTop⟩
    cases before with
    | nil =>
      cases split
      exact .inl ⟨rfl, (Int.add_zero start).symm.trans isTop⟩
    | cons other before =>
      cases split
      rw [depth_cons, ← Int.add_assoc] at isTop
      exact .inr ⟨before, after, rfl, isTop⟩
  · rintro (⟨rfl, rfl⟩ | ⟨before, after, rfl, isTop⟩)
    · exact ⟨[], lexemes, rfl, rfl⟩
    · refine ⟨first :: before, after, rfl, ?_⟩
      rw [depth_cons, ← Int.add_assoc]
      exact isTop

theorem not_atTopFrom_nil : ¬AtTopFrom start [] lexeme := by
  rintro ⟨before, after, impossible, _⟩
  cases before <;> cases impossible

/-- The commas outside of brackets. -/
def topCommas : (start : Int) → List Lexeme → List Lexeme
  | _, [] => []
  | start, lexeme :: lexemes =>
    if start = 0 ∧ lexeme.token = .comma then
      lexeme :: topCommas (start + depthChange lexeme.token) lexemes
    else topCommas (start + depthChange lexeme.token) lexemes

theorem mem_topCommas {lexemes : List Lexeme} :
    lexeme ∈ topCommas start lexemes ↔ AtTopFrom start lexemes lexeme ∧ lexeme.token = .comma := by
  induction lexemes generalizing start with
  | nil => exact ⟨fun none => absurd none not_mem_nil, fun none => absurd none.1 not_atTopFrom_nil⟩
  | cons first lexemes ih =>
    rw [topCommas, atTopFrom_cons, or_and_right]
    split
    next isComma =>
      rw [mem_cons, ih]
      refine or_congr_left ⟨?_, fun here => here.1.1⟩
      rintro rfl
      exact ⟨⟨rfl, isComma.1⟩, isComma.2⟩
    next notComma =>
      rw [ih]
      refine ⟨.inr, fun either => either.resolve_left ?_⟩
      rintro ⟨⟨rfl, isTop⟩, isComma⟩
      exact notComma ⟨isTop, isComma⟩

theorem topCommas_sublist (start : Int) (lexemes : List Lexeme) :
    (topCommas start lexemes).Sublist lexemes := by
  induction lexemes generalizing start with
  | nil => exact .slnil
  | cons first lexemes ih =>
    rw [topCommas]
    split
    · exact (ih _).cons_cons _
    · exact (ih _).cons _

/-! ## The head of a directive -/

/-- The lexemes are divided by the first semicolon outside of brackets, and the line does not end
before it. -/
structure Divides (start : Int) (before : List Lexeme) (semicolon : Lexeme) : Prop where
  isSemicolon : semicolon.token = .semicolon
  outside : start + depth before = 0
  first : ∀ lexeme, AtTopFrom start before lexeme → lexeme.token ≠ .semicolon
  goesOn : ∀ lexeme ∈ before ++ [semicolon], isEnd lexeme = false

theorem divides_cons : Divides start (first :: before) semicolon ↔ isEnd first = false ∧
      ¬(start = 0 ∧ first.token = .semicolon) ∧
      Divides (start + depthChange first.token) before semicolon := by
  constructor
  · rintro ⟨isSemicolon, outside, isFirst, goesOn⟩
    rw [depth_cons, ← Int.add_assoc] at outside
    rw [cons_append, forall_mem_cons] at goesOn
    refine ⟨goesOn.1, fun both => ?_, isSemicolon, outside, fun lexeme isTop => ?_, goesOn.2⟩
    · exact isFirst first (atTopFrom_cons.mpr (.inl ⟨rfl, both.1⟩)) both.2
    · exact isFirst lexeme (atTopFrom_cons.mpr (.inr isTop))
  · rintro ⟨goesOn, notFirst, isSemicolon, outside, isFirst, goesOnLater⟩
    refine ⟨isSemicolon, ?_, fun lexeme isTop isSemicolon => ?_, ?_⟩
    · rw [depth_cons, ← Int.add_assoc]
      exact outside
    · rcases atTopFrom_cons.mp isTop with ⟨rfl, atZero⟩ | later
      · exact notFirst ⟨atZero, isSemicolon⟩
      · exact isFirst lexeme later isSemicolon
    · rw [cons_append, forall_mem_cons]
      exact ⟨goesOn, goesOnLater⟩

/-- The head that a division of the lexemes gives. -/
def headOf (start : Int) (before : List Lexeme) (semicolon : Lexeme) (after : List Lexeme) : Head where
  commas := (topCommas start before).map Lexeme.offset
  semicolon := semicolon.offset
  before := before ++ [semicolon]
  after := after

theorem headOf_cons (start : Int) (first : Lexeme) (before : List Lexeme) (semicolon : Lexeme)
    (after : List Lexeme) :
    headOf start (first :: before) semicolon after =
      { headOf (start + depthChange first.token) before semicolon after with
        commas :=
          if start = 0 && first.token == .comma then
            first.offset :: (headOf (start + depthChange first.token) before semicolon after).commas
          else (headOf (start + depthChange first.token) before semicolon after).commas
        before :=
          first :: (headOf (start + depthChange first.token) before semicolon after).before } := by
  rw [headOf, headOf, topCommas]
  by_cases isComma : start = 0 ∧ first.token = .comma
  · simp [isComma]
  · have notComma : (decide (start = 0) && first.token == .comma) = false := by
      simpa using isComma
    rw [if_neg isComma, notComma]
    rfl

theorem splitHead?_of_divides (divides : Divides start before semicolon) (after : List Lexeme) :
    splitHead? start (before ++ semicolon :: after) = some (headOf start before semicolon after) := by
  induction before generalizing start with
  | nil =>
    have atZero : start = 0 := (Int.add_zero start).symm.trans divides.outside
    have goesOn := divides.goesOn semicolon (mem_append_right _ mem_cons_self)
    rw [nil_append, splitHead?, goesOn, atZero, divides.isSemicolon]
    rfl
  | cons first before ih =>
    rcases divides_cons.mp divides with ⟨goesOn, notFirst, later⟩
    have notSemicolon : (decide (start = 0) && first.token == .semicolon) = false := by
      simpa using notFirst
    rw [cons_append, splitHead?, goesOn, notSemicolon, ih later, headOf_cons]
    rfl

theorem exists_divides {lexemes : List Lexeme} (found : splitHead? start lexemes = some head) :
    ∃ before semicolon after,
      lexemes = before ++ semicolon :: after ∧ Divides start before semicolon ∧
        head = headOf start before semicolon after := by
  induction lexemes generalizing start head with
  | nil => cases found
  | cons first lexemes ih =>
    rw [splitHead?] at found
    split at found
    next => cases found
    next goesOn =>
      rw [Bool.not_eq_true] at goesOn
      split at found
      next isSemicolon =>
        rw [Bool.and_eq_true, decide_eq_true_eq, beq_iff_eq] at isSemicolon
        rcases isSemicolon with ⟨rfl, isSemicolon⟩
        cases found
        refine ⟨[], first, lexemes, rfl, ⟨isSemicolon, rfl,
          fun _ none => absurd none not_atTopFrom_nil, ?_⟩, rfl⟩
        exact forall_mem_singleton.mpr goesOn
      next notSemicolon =>
        rcases Option.map_eq_some_iff.mp found with ⟨later, foundLater, rfl⟩
        rcases ih foundLater with ⟨before, semicolon, after, rfl, divides, rfl⟩
        refine ⟨first :: before, semicolon, after, rfl, divides_cons.mpr ⟨goesOn, ?_, divides⟩, ?_⟩
        · simpa using notSemicolon
        · rw [headOf_cons]

/-! ## Texts with commas between them -/

/-- The offsets of the commas between texts that are joined from an offset on. -/
def joints (start : Nat) : List Bytes → List Nat
  | [] | [_] => []
  | text :: next :: texts => (start + text.length) :: joints (start + text.length + 1) (next :: texts)

theorem le_of_mem_joints {start offset : Nat} (member : offset ∈ joints start texts) :
    start ≤ offset := by
  fun_induction joints start texts with
  | case1 => cases member
  | case2 => cases member
  | case3 start text next texts ih =>
    rcases mem_cons.mp member with rfl | isLater
    · exact Nat.le_add_right _ _
    · have later := ih isLater
      omega

theorem joints_increase (start : Nat) (texts : List Bytes) : (joints start texts).Pairwise (· < ·) := by
  fun_induction joints start texts with
  | case1 => exact .nil
  | case2 => exact .nil
  | case3 start text next texts ih =>
    exact pairwise_cons.mpr ⟨fun offset member => le_of_mem_joints member, ih⟩

theorem pieces_ne_nil (body : Bytes) (start : Nat) (commas : List Nat) (stop : Nat) :
    (pieces body start commas stop).map Prod.snd ≠ [] := by
  cases commas <;> exact cons_ne_nil _ _

theorem joinWith_cons (separator text : Bytes) (some : texts ≠ []) :
    Bytes.joinWith separator (text :: texts) = text ++ separator ++ Bytes.joinWith separator texts := by
  cases texts with
  | nil => exact absurd rfl some
  | cons next texts => rfl

theorem slice_append_slice {start middle : Nat} (first : start ≤ middle) (second : middle ≤ stop) :
    Bytes.slice body start middle ++ Bytes.slice body middle stop = Bytes.slice body start stop := by
  unfold Bytes.slice
  rw [show stop - start = (middle - start) + (stop - middle) by omega, take_add, drop_drop,
    Nat.add_sub_cancel' first]

theorem slice_of_byte {start : Nat} {code : UInt8} (isByte : body[start]? = some code)
    (before : start < stop) :
    Bytes.slice body start stop = code :: Bytes.slice body (start + 1) stop := by
  unfold Bytes.slice
  rcases List.getElem?_eq_some_iff.mp isByte with ⟨inside, rfl⟩
  rw [drop_eq_getElem_cons inside, show stop - start = stop - (start + 1) + 1 by omega, take_succ_cons]

/-- Pieces with commas between them make up the text, and the commas stand between them. -/
theorem join_pieces {start : Nat} {commas : List Nat} (increase : commas.Pairwise (· < ·))
    (inside : ∀ comma ∈ commas, start ≤ comma ∧ comma < stop) (within : start ≤ stop)
    (fits : stop ≤ body.length) (written : ∀ comma ∈ commas, body[comma]? = some (byte ',')) :
    Bytes.joinWith "," ((pieces body start commas stop).map Prod.snd) = Bytes.slice body start stop ∧
      joints start ((pieces body start commas stop).map Prod.snd) = commas := by
  induction commas generalizing start with
  | nil => exact ⟨rfl, rfl⟩
  | cons comma commas ih =>
    rcases pairwise_cons.mp increase with ⟨isFirst, increaseLater⟩
    rcases forall_mem_cons.mp inside with ⟨⟨after, before⟩, insideLater⟩
    rcases forall_mem_cons.mp written with ⟨isComma, writtenLater⟩
    have later := ih increaseLater
      (fun other member => ⟨isFirst other member, (insideLater other member).2⟩) before writtenLater
    have some := pieces_ne_nil body (comma + 1) commas stop
    rw [pieces, map_cons]
    refine ⟨?_, ?_⟩
    · rw [joinWith_cons _ _ some, later.1, ← slice_append_slice after (Nat.le_of_lt before),
        slice_of_byte isComma before, append_assoc]
      rfl
    · have size : start + (Bytes.slice body start comma).length = comma := by
        rw [Edit.slice_length (Nat.le_trans (Nat.le_of_lt before) fits), Nat.add_sub_cancel' after]
      generalize (pieces body (comma + 1) commas stop).map Prod.snd = texts at later some
      cases texts with
      | nil => exact absurd rfl some
      | cons next texts =>
        rw [joints]
        dsimp only
        rw [size, later.2]

theorem slice_part (front text back : Bytes) :
    Bytes.slice (front ++ text ++ back) front.length (front.length + text.length) = text := by
  rw [Bytes.slice, append_assoc, drop_left, Nat.add_sub_cancel_left, take_left]

/-- Texts that are joined are cut out again at the commas between them. -/
theorem pieces_join (some : texts ≠ []) (front back : Bytes) :
    (pieces (front ++ Bytes.joinWith "," texts ++ back) front.length (joints front.length texts)
      (front.length + (Bytes.joinWith "," texts).length)).map Prod.snd = texts := by
  induction texts generalizing front with
  | nil => exact absurd rfl some
  | cons text texts ih =>
    cases texts with
    | nil =>
      have cut := slice_part front text back
      exact congrArg ([·]) cut
    | cons next texts =>
      have later := ih (cons_ne_nil _ _) (front ++ text ++ [byte ','])
      have cut := slice_part front text ([byte ','] ++ Bytes.joinWith "," (next :: texts) ++ back)
      have size : (front ++ text ++ [byte ',']).length = front.length + text.length + 1 := by
        rw [length_append, length_append, length_singleton]
      have isBody : front ++ Bytes.joinWith "," (text :: next :: texts) ++ back =
          front ++ text ++ [byte ','] ++ Bytes.joinWith "," (next :: texts) ++ back := by
        rw [joinWith_cons _ _ (cons_ne_nil _ _)]
        simp only [append_assoc]
        rfl
      have isStop : front.length + (Bytes.joinWith "," (text :: next :: texts)).length =
          front.length + text.length + 1 + (Bytes.joinWith "," (next :: texts)).length := by
        rw [joinWith_cons _ _ (cons_ne_nil _ _), length_append, length_append]
        have single : (Bytes.ofString ",").length = 1 := rfl
        omega
      rw [size] at later
      simp only [append_assoc] at cut isBody later
      rw [isStop, joints, pieces, map_cons, append_assoc, isBody, later]
      exact congrArg (· :: next :: texts) cut

/-! ## Separators of a body -/

theorem isSeparator_of_comma (isComma : lexeme.token = .comma) : isSeparator lexeme = true := by
  rw [isSeparator, isComma]
  rfl

theorem isSeparator_of_semicolon (isSemicolon : semicolon.token = .semicolon)
    (goesOn : isEnd semicolon = false) : isSeparator semicolon = true := by
  rw [isSeparator, isSemicolon, (Bool.or_eq_false_iff.mp goesOn).2]
  rfl

/-- A separator takes up some of the body, and is found where its character is written. -/
theorem separator_stands (isLexeme : separator ∈ lexemes body)
    (separates : isSeparator separator = true) :
    separator.offset < separator.stop ∧ body[separator.offset]? =
      some (byte (Lexeme.mark separator)) := by
  have isBare : separator.bare ∈ (lexemes body).map Lexeme.bare := mem_map_of_mem isLexeme
  rw [lexemes, Source.Parse.withoutComments_bare] at isBare
  rcases mem_map.mp isBare with ⟨read, isRead, sameRead⟩
  have isScan : read.bare ∈ (Source.scanFile [] body).2.map Lexeme.bare :=
    mem_map_of_mem (mem_filter.mp isRead).1
  rw [(Source.scanFile_keeps [] body).2, sameRead] at isScan
  rcases mem_map.mp isScan with ⟨scanned, isScanned, same⟩
  have separatesToo : isSeparator scanned = true := (congrArg isSeparator same).trans separates
  have solid := Lexeme.solid_of_separator (Lexeme.startReader_within body) isScanned separatesToo
  have isByte := Lexeme.scan_separator isScanned separatesToo
  change scanned.bare.offset < scanned.bare.stop at solid
  change body[scanned.bare.offset]? = some (byte (Lexeme.mark scanned.bare)) at isByte
  rw [same] at solid isByte
  exact ⟨solid, isByte⟩

theorem lexemes_ordered (body : Bytes) : (lexemes body).Pairwise Lexeme.Before := by
  have ordered : ((lexemes body).map Lexeme.bare).Pairwise Lexeme.Before := by
    rw [lexemes, Source.Parse.withoutComments_bare]
    exact pairwise_map.mpr ((Source.scanFile_spread [] body).ordered.sublist filter_sublist)
  have bare := pairwise_map.mp ordered
  exact bare

section

variable {after : List Lexeme} (split : lexemes body = before ++ semicolon :: after)
include split

theorem offset_lt {earlier : Lexeme} (isEarlier : earlier ∈ before)
    (separates : isSeparator earlier = true)
    (separatesToo : isSeparator semicolon = true) : earlier.offset < semicolon.offset := by
  have ordered := lexemes_ordered body
  have solid := (separator_stands (split ▸ mem_append_left _ isEarlier) separates).1
  have solidToo := (separator_stands (split ▸ mem_append_right _ mem_cons_self) separatesToo).1
  rw [split, pairwise_append] at ordered
  exact Nat.lt_of_lt_of_le solid (ordered.2.2 earlier isEarlier semicolon mem_cons_self solid solidToo)

/-- The commas outside of brackets are found from left to right. -/
theorem topCommas_increase : ((topCommas 0 before).map Lexeme.offset).Pairwise (· < ·) := by
  have sublist : (topCommas 0 before).Sublist (lexemes body) := by
    rw [split]
    exact (topCommas_sublist 0 before).trans (sublist_append_left _ _)
  have solid {comma : Lexeme} (member : comma ∈ topCommas 0 before) : comma.offset < comma.stop :=
    (separator_stands (sublist.subset member) (isSeparator_of_comma (mem_topCommas.mp member).2)).1
  rw [pairwise_map]
  refine ((lexemes_ordered body).sublist sublist).imp_of_mem fun isEarlier isLater isBefore => ?_
  exact Nat.lt_of_lt_of_le (solid isEarlier) (isBefore (solid isEarlier) (solid isLater))

theorem joined_of_divides (divides : Divides 0 before semicolon) {texts : List Bytes}
    (isTexts : (pieces body 0 ((topCommas 0 before).map Lexeme.offset) semicolon.offset).map
      Prod.snd = texts) :
    body = Bytes.joinWith "," texts ++ ";" ++ body.drop (semicolon.offset + 1) ∧
      semicolon.offset = (Bytes.joinWith "," texts).length ∧
      joints 0 texts = (topCommas 0 before).map Lexeme.offset := by
  have isLexeme : semicolon ∈ lexemes body := split ▸ mem_append_right _ mem_cons_self
  have separates := isSeparator_of_semicolon divides.isSemicolon
    (divides.goesOn semicolon (mem_append_right _ mem_cons_self))
  have isByte := (separator_stands isLexeme separates).2
  rw [Lexeme.mark, divides.isSemicolon] at isByte
  have inside : semicolon.offset < body.length := (List.getElem?_eq_some_iff.mp isByte).1
  have isCut : ∀ comma ∈ (topCommas 0 before).map Lexeme.offset,
      comma < semicolon.offset ∧ body[comma]? = some (byte ',') := by
    intro offset member
    rcases mem_map.mp member with ⟨comma, isTop, rfl⟩
    have isComma := (mem_topCommas.mp isTop).2
    have isBefore := (topCommas_sublist 0 before).subset isTop
    have isByte :=
      (separator_stands (split ▸ mem_append_left _ isBefore) (isSeparator_of_comma isComma)).2
    rw [Lexeme.mark, if_pos isComma] at isByte
    exact ⟨offset_lt split isBefore (isSeparator_of_comma isComma) separates, isByte⟩
  have cuts := join_pieces (topCommas_increase split)
    (fun comma member => ⟨Nat.zero_le _, (isCut comma member).1⟩) (Nat.zero_le _) (Nat.le_of_lt inside)
    fun comma member => (isCut comma member).2
  rw [isTexts] at cuts
  refine ⟨?_, ?_, cuts.2⟩
  · have whole := @Edit.drop_eq_slice_append body 0 semicolon.offset (Nat.zero_le _)
    rcases List.getElem?_eq_some_iff.mp isByte with ⟨_, isByte⟩
    rw [drop_zero, ← cuts.1, drop_eq_getElem_cons inside, isByte] at whole
    rw [append_assoc]
    exact whole
  · rw [cuts.1, Edit.slice_length (Nat.le_of_lt inside), Nat.sub_zero]

/-- Texts with the commas outside of brackets between them are cut out at these commas. -/
theorem pieces_of_commas {rest : Bytes} (some : texts ≠ [])
    (joined : body = Bytes.joinWith "," texts ++ ";" ++ rest)
    (place : semicolon.offset = (Bytes.joinWith "," texts).length)
    (commas : ∀ offset, offset ∈ joints 0 texts ↔
      ∃ comma, AtTop before comma ∧ comma.token = .comma ∧ comma.offset = offset) :
    (topCommas 0 before).map Lexeme.offset = joints 0 texts ∧
      (pieces body 0 ((topCommas 0 before).map Lexeme.offset) semicolon.offset).map Prod.snd =
      texts := by
  have isCommas : (topCommas 0 before).map Lexeme.offset = joints 0 texts := by
    refine (topCommas_increase split).eq_of_mem_iff (joints_increase 0 texts) fun offset => ?_
    rw [commas, mem_map]
    simp only [mem_topCommas, atTopFrom_zero, and_assoc]
  have cut := pieces_join some [] (Bytes.ofString ";" ++ rest)
  rw [nil_append, ← append_assoc, ← joined, length_nil, Nat.zero_add, ← place, ← isCommas] at cut
  exact ⟨isCommas, cut⟩

end

end Directive
end CaseExpansion
