import CaseExpansion.Proofs.Build.Spelling
import CaseExpansion.Proofs.Selection
import Mathlib.Data.List.TakeWhile

namespace CaseExpansion
namespace Build

open List
open ConstraintReader (State advance maxSize insideParens)
open ConstraintToken (Spells)
open Text.Utf8 (glyphsFrom)

/-!
# Reading a written constraint

The grammar of constraints is read by descent.  Chains of one operator are grouped from
the left, whatever grouping they had when they were written, so reading the written
form does not give the same constraint again.  It gives one that holds under the same
assignments.

Two things stop the reader.  It does not accept a negation right under a negation,
although nothing else in the grammar is wrong with it, and it counts operands, groups
in parentheses included, up to a limit.  The written form is read back exactly if
neither applies.  The proof goes up the grammar level by level, from atoms to
alternatives, and says at each level both what is read and when reading fails.
-/

namespace Constraint

/-- Whether no negation stands right under another one. -/
def singlyNegated : Constraint → Bool
  | .tag _ => true
  | .not operand => !operand.isNot && operand.singlyNegated
  | .and left right => left.singlyNegated && right.singlyNegated
  | .or left right => left.singlyNegated && right.singlyNegated

/-- The number of operands of the written form.  A group in parentheses is one, in
addition to those inside. -/
def operands : Constraint → Nat
  | .tag _ => 1
  | .not operand => (operand.isAnd || operand.isOr).toNat + operand.operands
  | .and left right => left.isOr.toNat + left.operands + (right.isOr.toNat + right.operands)
  | .or left right => left.isAnd.toNat + left.operands + (right.isAnd.toNat + right.operands)

end Constraint

namespace ConstraintReader

/-! ## Words ahead -/

/-- The reader has the given words ahead. -/
def Ahead (state : State) (words : List ConstraintToken) : Prop :=
  ∃ offset text, state.rest = glyphsFrom 0 offset text ∧ Spells text words

/-- The reader stands on the first of the given words, having met some operands. -/
def Stands (state : State) (words : List ConstraintToken) (size : Nat) : Prop :=
  state.token = words.headD .stop ∧ Ahead state words.tail ∧ state.size = size

theorem headD_ne_bad {text : Bytes} {words : List ConstraintToken} (spells : Spells text words)
    (char : Char) : words.headD .stop ≠ .bad char := by
  induction spells with
  | nil => exact fun impossible => by cases impossible
  | blank _ ih => exact ih
  | mark isMark =>
    intro isBad
    simp only [ConstraintToken.marks, mem_cons, Prod.mk.injEq, not_mem_nil, or_false] at isMark
    rcases isMark with ⟨_, rfl⟩ | ⟨_, rfl⟩ | ⟨_, rfl⟩ | ⟨_, rfl⟩ | ⟨_, rfl⟩ <;> cases isBad
  | name => exact fun impossible => by cases impossible

theorem advance_ahead {state : State} {words : List ConstraintToken} (ahead : Ahead state words) :
    ∃ later, advance state = .ok later ∧ Stands later words state.size := by
  rcases ahead with ⟨offset, text, rest, spells⟩
  rcases spells.next_eq offset with ⟨later, remaining, read, spellsLater⟩
  refine ⟨⟨words.headD .stop, glyphsFrom 0 later remaining, state.size⟩, ?_, rfl,
    ⟨later, remaining, rfl, spellsLater⟩, rfl⟩
  unfold advance
  rw [rest, read]
  split
  next isBad => exact absurd (congrArg Prod.fst isBad) (headD_ne_bad spells _)
  next same =>
    cases same
    rfl

/-! ## The levels of the grammar -/

/-- Reading fails. -/
def Fails {α : Type} (result : Except ConstraintError α) : Prop :=
  ∃ error, result = .error error

theorem Fails.bind {α β : Type} {result : Except ConstraintError α} (fails : Fails result)
    (rest : α → Except ConstraintError β) : Fails (result >>= rest) := by
  rcases fails with ⟨error, rfl⟩
  exact ⟨error, rfl⟩

theorem Fails.insideParens {α : Type} {result : Except ConstraintError α} (fails : Fails result) :
    Fails (insideParens result) := by
  rcases fails with ⟨error, rfl⟩
  cases error <;> exact ⟨_, rfl⟩

/-- A constraint holds under the assignments that a truth function names. -/
def Means (constraint : Constraint) (truth : (Bytes → Bool) → Bool) : Prop :=
  ∀ isSet, constraint.holds isSet = truth isSet

/-- What a level of the grammar gives: if the operands fit, a constraint with the given
truth and the reader on the words after it, and an error otherwise. -/
def Gives (fits : Prop) (truth : (Bytes → Bool) → Bool) (words : List ConstraintToken) (size : Nat)
    (result : Except ConstraintError (Constraint × State)) : Prop :=
  (fits → ∃ constraint state, result = .ok (constraint, state) ∧ Means constraint truth ∧
    Stands state words size) ∧ (¬ fits → Fails result)

/-- Like `Gives`, for a loop that goes on from there with at least some fuel. -/
def Resumes (loop : Nat → Constraint → State → Except ConstraintError (Constraint × State))
    (fits : Prop) (least : Nat) (truth : (Bytes → Bool) → Bool) (words : List ConstraintToken)
    (size : Nat) (result : Except ConstraintError (Constraint × State)) : Prop :=
  (fits → ∃ fuel constraint state, result = loop fuel constraint state ∧ least ≤ fuel ∧
    Means constraint truth ∧ Stands state words size) ∧ (¬ fits → Fails result)

/-- An operand that starts with the current word. -/
def operandAt (fuel : Nat) (state : State) : Except ConstraintError (Constraint × State) := do
  if state.token = .not then
    let state ← advance state
    if state.token = .not then .error .doubleNegation
    else
      let (operand, state) ← atom fuel state
      return (.not operand, state)
  else atom fuel state

/-- The next part of a conjunction, after what stands on its left. -/
def conjoin (fuel : Nat) (left? : Option Constraint) (state : State) :
    Except ConstraintError (Constraint × State) := do
  let (right, state) ← negation fuel state
  moreConjunction fuel (left?.elim right (.and · right)) state

/-- The next alternative, after what stands on its left. -/
def disjoin (fuel : Nat) (left? : Option Constraint) (state : State) :
    Except ConstraintError (Constraint × State) := do
  let (right, state) ← conjunction fuel state
  moreAlternatives fuel (left?.elim right (.or · right)) state

/-- Words that are read as an atom.  The reader stands on the first one. -/
def ReadsAtom (words : List ConstraintToken) (count : Nat) (good : Prop)
    (truth : (Bytes → Bool) → Bool) : Prop :=
  ∀ state rest size fuel, Stands state (words ++ rest) size → size ≤ maxSize →
    4 * words.length ≤ fuel + 2 →
    Gives (good ∧ size + count ≤ maxSize) truth rest (size + count) (atom fuel state)

/-- Words that are read as an operand. -/
def ReadsOperand (words : List ConstraintToken) (count : Nat) (good : Prop)
    (truth : (Bytes → Bool) → Bool) : Prop :=
  ∀ state rest fuel, Ahead state (words ++ rest) → 4 * words.length ≤ fuel →
    Gives (good ∧ state.size + count ≤ maxSize) truth rest (state.size + count) (negation fuel state)

/-- Words that are read as a part of a conjunction. -/
def ReadsConjunct (words : List ConstraintToken) (count : Nat) (good : Prop)
    (truth : (Bytes → Bool) → Bool) : Prop :=
  ∀ left? state rest least fuel, Ahead state (words ++ rest) → 4 * words.length + least ≤ fuel →
    Resumes moreConjunction (good ∧ state.size + count ≤ maxSize) least
      (fun isSet => left?.elim true (Constraint.holds isSet) && truth isSet) rest (state.size + count)
      (conjoin fuel left? state)

/-- Words that are read as an alternative, unless they go on as a conjunction. -/
def ReadsDisjunct (words : List ConstraintToken) (count : Nat) (good : Prop)
    (truth : (Bytes → Bool) → Bool) : Prop :=
  ∀ left? state rest least fuel, Ahead state (words ++ rest) → rest.headD .stop ≠ .and →
    2 ≤ least → 4 * words.length + least ≤ fuel →
    Resumes moreAlternatives (good ∧ state.size + count ≤ maxSize) least
      (fun isSet => left?.elim false (Constraint.holds isSet) || truth isSet) rest (state.size + count)
      (disjoin fuel left? state)

/-- Words that are read as a whole expression. -/
def ReadsWhole (words : List ConstraintToken) (count : Nat) (good : Prop)
    (truth : (Bytes → Bool) → Bool) : Prop :=
  ∀ state rest fuel, Ahead state (words ++ rest) → rest.headD .stop ≠ .and →
    rest.headD .stop ≠ .or → 4 * words.length + 4 ≤ fuel →
    Gives (good ∧ state.size + count ≤ maxSize) truth rest (state.size + count) (alternatives fuel state)

variable {words later : List ConstraintToken} {word : ConstraintToken} {count laterCount : Nat}
  {good laterGood : Prop} {truth laterTruth : (Bytes → Bool) → Bool}

theorem readsAtom_tag (name : Bytes) (always : good) :
    ReadsAtom [.tag name] 0 good fun isSet => isSet name := by
  intro state rest size fuel stands small enough
  rcases stands with ⟨onTag, ahead, rfl⟩
  cases fuel with
  | zero => simp at enough
  | succ fuel =>
    rcases advance_ahead ahead with ⟨later, advanced, standsLater⟩
    have read : atom (fuel + 1) state = .ok (.tag name, later) := by
      unfold atom
      rw [onTag]
      dsimp only [List.headD, singleton_append]
      rw [advanced]
      rfl
    constructor
    · intro _
      exact ⟨_, _, read, fun _ => rfl, standsLater⟩
    · intro unfit
      exact absurd ⟨always, small⟩ unfit

theorem readsAtom_group (whole : ReadsWhole words count good truth) :
    ReadsAtom (.open_ :: (words ++ [.close])) count good truth := by
  intro state rest size fuel stands small enough
  rcases stands with ⟨onOpen, ahead, rfl⟩
  rw [cons_append, append_assoc] at ahead
  cases fuel with
  | zero =>
    simp only [length_cons, length_append] at enough
    omega
  | succ fuel =>
    have deep : 4 * words.length + 4 ≤ fuel := by
      simp only [length_cons, length_append] at enough
      omega
    have notAnd : (.close :: rest).headD ConstraintToken.stop ≠ .and := fun isAnd => by cases isAnd
    have notOr : (.close :: rest).headD ConstraintToken.stop ≠ .or := fun isOr => by cases isOr
    rcases whole state (.close :: rest) fuel ahead notAnd notOr deep with ⟨reads, fails⟩
    unfold atom
    rw [onOpen]
    dsimp only [cons_append, List.headD]
    constructor
    · intro fits
      rcases reads fits with ⟨constraint, inner, read, means, onClose, aheadRest, counted⟩
      rcases advance_ahead aheadRest with ⟨last, advanced, standsLast⟩
      have closed : inner.token = .close := onClose
      refine ⟨constraint, last, ?_, means, counted ▸ standsLast⟩
      rw [read]
      simp only [bind, Except.bind]
      rw [if_pos closed, advanced]
      rfl
    · intro unfit
      exact ((fails unfit).bind _).insideParens

/-- Operands are counted before they are read. -/
theorem readsOperand_of_first (counts : good → 0 < count)
    (reads : ∀ first rest size fuel, Stands first (word :: words ++ rest) (size + 1) →
      size + 1 ≤ maxSize → 4 * (word :: words).length ≤ fuel + 1 →
      Gives (good ∧ size + count ≤ maxSize) truth rest (size + count) (operandAt fuel first)) :
    ReadsOperand (word :: words) count good truth := by
  intro state rest fuel ahead enough
  cases fuel with
  | zero => simp at enough
  | succ fuel =>
    unfold negation
    by_cases full : state.size ≥ maxSize
    · rw [if_pos full]
      exact ⟨fun fits => absurd (counts fits.1) (by omega), fun _ => ⟨_, rfl⟩⟩
    · rw [if_neg full]
      have aheadMore : Ahead { state with size := state.size + 1 } (word :: words ++ rest) := ahead
      rcases advance_ahead aheadMore with ⟨first, advanced, stands⟩
      rw [advanced]
      exact reads first rest _ fuel stands (by omega) enough

theorem readsOperand_of_atom (reads : ReadsAtom (word :: words) count good truth) (plain : word ≠ .not) :
    ReadsOperand (word :: words) (1 + count) good truth := by
  refine readsOperand_of_first (fun _ => by omega) fun first rest size fuel stands small enough => ?_
  rw [operandAt, if_neg (stands.1 ▸ plain), ← Nat.add_assoc]
  exact reads first rest _ fuel stands small (by omega)

theorem readsOperand_not (reads : ReadsAtom (word :: words) count good truth) (plain : word ≠ .not) :
    ReadsOperand (.not :: word :: words) (1 + count) good fun isSet => !truth isSet := by
  refine readsOperand_of_first (fun _ => by omega) fun first rest size fuel stands small enough => ?_
  rcases stands with ⟨onNot, ahead, counted⟩
  rcases advance_ahead ahead with ⟨second, advanced, stands⟩
  rw [counted] at stands
  rw [length_cons] at enough
  rcases reads second rest _ fuel stands small (by omega) with ⟨inner, fails⟩
  rw [operandAt, if_pos (show first.token = .not from onNot), advanced]
  simp only [bind, Except.bind]
  rw [if_neg (stands.1 ▸ plain), ← Nat.add_assoc]
  refine ⟨fun fits => ?_, fun unfit => (fails unfit).bind _⟩
  rcases inner fits with ⟨constraint, last, read, means, standsLast⟩
  refine ⟨.not constraint, last, ?_, fun isSet => ?_, standsLast⟩
  · rw [read]
    rfl
  · rw [Constraint.holds, means]

/-- A negation right under a negation is not read. -/
theorem readsOperand_double (bad : ¬ good) : ReadsOperand (.not :: .not :: words) count good truth := by
  refine readsOperand_of_first (fun isGood => absurd isGood bad)
    fun first rest size fuel stands _ _ => ?_
  refine ⟨fun fits => absurd fits.1 bad, fun _ => ?_⟩
  rcases stands with ⟨onNot, ahead, _⟩
  rcases advance_ahead ahead with ⟨second, advanced, onNotAgain, _⟩
  rw [operandAt, if_pos (show first.token = .not from onNot), advanced]
  simp only [bind, Except.bind]
  rw [if_pos (show second.token = .not from onNotAgain)]
  exact ⟨_, rfl⟩

theorem readsConjunct_of_operand (reads : ReadsOperand words count good truth) :
    ReadsConjunct words count good truth := by
  intro left? state rest least fuel ahead enough
  rcases reads state rest fuel ahead (by omega) with ⟨inner, fails⟩
  refine ⟨fun fits => ?_, fun unfit => (fails unfit).bind _⟩
  rcases inner fits with ⟨constraint, last, read, means, standsLast⟩
  refine ⟨fuel, left?.elim constraint (.and · constraint), last, ?_,
    by omega, fun isSet => ?_, standsLast⟩
  · unfold conjoin
    rw [read]
    rfl
  · cases left? with
    | none => exact (means isSet).trans (Bool.true_and _).symm
    | some left => exact congrArg (left.holds isSet && ·) (means isSet)

theorem moreConjunction_and {fuel : Nat} {left : Constraint} {state : State}
    (onAnd : state.token = .and) :
    moreConjunction (fuel + 1) left state = conjoin fuel (some left) state := by
  unfold moreConjunction
  rw [if_pos onAnd]
  rfl

/-- After an operator the loop goes on with what follows it, on both levels with chains. -/
theorem Resumes.append {loop : Nat → Constraint → State → Except ConstraintError (Constraint × State)}
    {least more size : Nat} {joined : (Bytes → Bool) → Bool}
    {result : Except ConstraintError (Constraint × State)}
    (first : Resumes loop (good ∧ size + count ≤ maxSize) (more + 1) truth words (size + count) result)
    (goesOn : ∀ fuel constraint state, more ≤ fuel → Means constraint truth →
      Stands state words (size + count) →
      Resumes loop (laterGood ∧ size + count + laterCount ≤ maxSize) least joined later
        (size + count + laterCount) (loop (fuel + 1) constraint state)) :
    Resumes loop ((good ∧ laterGood) ∧ size + (count + laterCount) ≤ maxSize) least joined later
      (size + (count + laterCount)) result := by
  rw [← Nat.add_assoc]
  by_cases fits : good ∧ size + count ≤ maxSize
  · rcases first.1 fits with ⟨fuel, constraint, middle, rfl, deep, means, stands⟩
    cases fuel with
    | zero => omega
    | succ fuel =>
      have readLater := goesOn fuel constraint middle (by omega) means stands
      exact ⟨fun fitsAll => readLater.1 ⟨fitsAll.1.2, fitsAll.2⟩,
        fun unfit => readLater.2 fun fitsLater => unfit ⟨⟨fits.1, fitsLater.1⟩, fitsLater.2⟩⟩
  · exact ⟨fun fitsAll => absurd ⟨fitsAll.1.1, by omega⟩ fits, fun _ => first.2 fits⟩

theorem readsConjunct_append (reads : ReadsConjunct words count good truth)
    (readsLater : ReadsConjunct later laterCount laterGood laterTruth) :
    ReadsConjunct (words ++ .and :: later) (count + laterCount) (good ∧ laterGood)
      fun isSet => truth isSet && laterTruth isSet := by
  intro left? state rest least fuel ahead enough
  rw [length_append, length_cons] at enough
  rw [append_assoc] at ahead
  have first := reads left? state _ (4 * later.length + least + 1) fuel ahead (by omega)
  refine first.append fun more constraint middle deep means stands => ?_
  have readLater := readsLater (some constraint) middle rest least more stands.2.1 deep
  rw [moreConjunction_and stands.1, ← stands.2.2]
  simpa only [Option.elim_some, means _, Bool.and_assoc] using readLater

theorem readsDisjunct_of_conjunct (reads : ReadsConjunct words count good truth) :
    ReadsDisjunct words count good truth := by
  intro left? state rest least fuel ahead notAnd _ enough
  cases fuel with
  | zero => omega
  | succ fuel =>
    have read := reads none state rest 1 fuel ahead (by omega)
    have descends : conjunction (fuel + 1) state = conjoin fuel none state := by
      unfold conjunction
      rfl
    unfold disjoin
    rw [descends]
    refine ⟨fun fits => ?_, fun unfit => (read.2 unfit).bind _⟩
    rcases read.1 fits with ⟨more, constraint, last, resumed, deep, means, standsLast⟩
    have ended : moreConjunction more constraint last = .ok (constraint, last) := by
      cases more with
      | zero => omega
      | succ more =>
        unfold moreConjunction
        rw [if_neg (standsLast.1 ▸ notAnd)]
    refine ⟨fuel + 1, left?.elim constraint (.or · constraint), last, ?_,
      by omega, fun isSet => ?_, standsLast⟩
    · rw [resumed, ended]
      rfl
    · have holds : constraint.holds isSet = truth isSet := (means isSet).trans (Bool.true_and _)
      cases left? with
      | none => exact holds.trans (Bool.false_or _).symm
      | some left => exact congrArg (left.holds isSet || ·) holds

theorem moreAlternatives_or {fuel : Nat} {left : Constraint} {state : State} (onOr : state.token = .or) :
    moreAlternatives (fuel + 1) left state = disjoin fuel (some left) state := by
  unfold moreAlternatives
  rw [if_pos onOr]
  rfl

theorem readsDisjunct_append (reads : ReadsDisjunct words count good truth)
    (readsLater : ReadsDisjunct later laterCount laterGood laterTruth) :
    ReadsDisjunct (words ++ .or :: later) (count + laterCount) (good ∧ laterGood)
      fun isSet => truth isSet || laterTruth isSet := by
  intro left? state rest least fuel ahead notAnd loose enough
  rw [length_append, length_cons] at enough
  rw [append_assoc] at ahead
  have notAndYet : (.or :: later ++ rest).headD ConstraintToken.stop ≠ .and :=
    fun isAnd => by cases isAnd
  have first := reads left? state _ (4 * later.length + least + 1) fuel ahead notAndYet
    (by omega) (by omega)
  refine first.append fun more constraint middle deep means stands => ?_
  have readLater := readsLater (some constraint) middle rest least more stands.2.1 notAnd loose deep
  rw [moreAlternatives_or stands.1, ← stands.2.2]
  simpa only [Option.elim_some, means _, Bool.or_assoc] using readLater

theorem readsWhole_of_disjunct (reads : ReadsDisjunct words count good truth) :
    ReadsWhole words count good truth := by
  intro state rest fuel ahead notAnd notOr enough
  cases fuel with
  | zero => omega
  | succ fuel =>
    have read := reads none state rest 2 fuel ahead notAnd (Nat.le_refl 2) (by omega)
    have descends : alternatives (fuel + 1) state = disjoin fuel none state := by
      unfold alternatives
      rfl
    rw [descends]
    refine ⟨fun fits => ?_, read.2⟩
    rcases read.1 fits with ⟨more, constraint, last, resumed, deep, means, standsLast⟩
    refine ⟨constraint, last, ?_, fun isSet => (means isSet).trans (Bool.false_or _), standsLast⟩
    cases more with
    | zero => omega
    | succ more =>
      rw [resumed]
      unfold moreAlternatives
      rw [if_neg (standsLast.1 ▸ notOr)]

theorem readsConjunct_group (whole : ReadsWhole words count good truth) :
    ReadsConjunct (.open_ :: (words ++ [.close])) (1 + count) good truth :=
  readsConjunct_of_operand (readsOperand_of_atom (readsAtom_group whole) (by decide))

end ConstraintReader

/-! ## Whole constraints -/

namespace Constraint

open ConstraintReader

/-- The words of a constraint are read as a whole expression, and, in parentheses where
the level needs them, as an alternative and as a part of a conjunction. -/
structure ReadsBack (constraint : Constraint) : Prop where
  conjunct : ReadsConjunct (enclose constraint.isOr constraint.words)
    (constraint.isOr.toNat + constraint.operands) (constraint.singlyNegated = true)
    (Constraint.holds · constraint)
  disjunct : ReadsDisjunct (enclose constraint.isAnd constraint.words)
    (constraint.isAnd.toNat + constraint.operands) (constraint.singlyNegated = true)
    (Constraint.holds · constraint)
  whole : ReadsWhole constraint.words constraint.operands (constraint.singlyNegated = true)
    (Constraint.holds · constraint)

variable {constraint : Constraint}

theorem readsBack_of_conjunct (notOr : constraint.isOr = false)
    (conjunct : ReadsConjunct constraint.words constraint.operands (constraint.singlyNegated = true)
      (Constraint.holds · constraint)) : constraint.ReadsBack := by
  have whole := readsWhole_of_disjunct (readsDisjunct_of_conjunct conjunct)
  refine ⟨?_, ?_, whole⟩
  · rw [notOr, Bool.toNat_false, Nat.zero_add]
    exact conjunct
  · cases constraint.isAnd with
    | false =>
      rw [Bool.toNat_false, Nat.zero_add]
      exact readsDisjunct_of_conjunct conjunct
    | true => exact readsDisjunct_of_conjunct (readsConjunct_group whole)

theorem readsOperand_negate (reads : ReadsBack constraint) :
    ReadsOperand (not constraint).words (not constraint).operands ((not constraint).singlyNegated = true)
      (Constraint.holds · (not constraint)) := by
  cases constraint with
  | tag name => exact readsOperand_not (readsAtom_tag name rfl) fun isNot => by cases isNot
  | not operand => exact readsOperand_double Bool.false_ne_true
  | and left right => exact readsOperand_not (readsAtom_group reads.whole) (by decide)
  | or left right => exact readsOperand_not (readsAtom_group reads.whole) (by decide)

theorem readsBack (constraint : Constraint) : constraint.ReadsBack := by
  induction constraint with
  | tag name =>
    have operand : ReadsOperand (tag name).words (tag name).operands _ _ :=
      readsOperand_of_atom (readsAtom_tag name trivial) fun isNot => by cases isNot
    rw [← eq_self true] at operand
    exact readsBack_of_conjunct rfl (readsConjunct_of_operand operand)
  | not operand ih =>
    exact readsBack_of_conjunct rfl (readsConjunct_of_operand (readsOperand_negate ih))
  | and left right ihLeft ihRight =>
    have joined := readsConjunct_append ihLeft.conjunct ihRight.conjunct
    rw [← Bool.and_eq_true] at joined
    exact readsBack_of_conjunct rfl joined
  | or left right ihLeft ihRight =>
    have joined := readsDisjunct_append ihLeft.disjunct ihRight.disjunct
    rw [← Bool.and_eq_true] at joined
    have whole : ReadsWhole (or left right).words _ _ _ := readsWhole_of_disjunct joined
    refine ⟨readsConjunct_group whole, ?_, whole⟩
    rw [show (or left right).isAnd = false from rfl, Bool.toNat_false, Nat.zero_add]
    exact joined

end Constraint

namespace ConstraintReader

theorem length_le_of_spells {text : Bytes} {words : List ConstraintToken} (spells : Spells text words)
    (offset : Nat) : words.length ≤ (glyphsFrom 0 offset text).length := by
  induction spells generalizing offset with
  | nil => exact Nat.zero_le _
  | blank _ ih => exact Nat.le_succ_of_le (ih (offset + 1))
  | mark isMark _ ih =>
    simp only [ConstraintToken.marks, mem_cons, Prod.mk.injEq, not_mem_nil, or_false] at isMark
    rcases isMark with ⟨rfl, rfl⟩ | ⟨rfl, rfl⟩ | ⟨rfl, rfl⟩ | ⟨rfl, rfl⟩ | ⟨rfl, rfl⟩
    · exact Nat.succ_le_succ (ih _)
    · exact Nat.succ_le_succ (ih _)
    · exact Nat.succ_le_succ (ih _)
    · exact Nat.succ_le_succ (Nat.le_succ_of_le (ih _))
    · exact Nat.succ_le_succ (Nat.le_succ_of_le (ih _))
  | @name name text words isName _ _ ih =>
    rcases isName with ⟨glyphs, spelled, nonempty, _⟩
    rcases spelled.glyphsFrom_append offset text with ⟨placed, read, chars, _⟩
    have lengths : placed.length = glyphs.length := by
      simpa only [length_map] using congrArg List.length chars
    have := length_pos_iff.mpr nonempty
    have := ih (offset + name.length)
    rw [read, length_append, length_cons]
    omega

variable {constraint : Constraint}

/-- The written form of a constraint is read back to one with the same meaning, unless it
has a doubled negation or too many operands: then it is not read at all. -/
theorem expression_render (nameable : constraint.Nameable) :
    (constraint.singlyNegated = true ∧ constraint.operands ≤ maxSize →
      ∃ written, expression constraint.render = .ok written ∧
        ∀ isSet, written.holds isSet = constraint.holds isSet) ∧
    (¬ (constraint.singlyNegated = true ∧ constraint.operands ≤ maxSize) →
      Fails (expression constraint.render)) := by
  have spells := constraint.render_spells nameable [] [] (.inl rfl) .nil
  rw [append_nil] at spells
  have short := length_le_of_spells spells 0
  rw [append_nil] at short
  have read := constraint.readsBack.whole ⟨.stop, Text.Utf8.glyphs constraint.render, 0⟩ []
    (4 * (Text.Utf8.glyphs constraint.render).length + 8) ⟨0, _, rfl, spells⟩
    (fun isAnd => by cases isAnd) (fun isOr => by cases isOr) (by unfold Text.Utf8.glyphs; omega)
  dsimp only at read
  rw [Nat.zero_add] at read
  unfold expression
  refine ⟨fun fits => ?_, fun unfit => (read.2 unfit).bind _⟩
  rcases read.1 fits with ⟨written, last, isRead, means, onStop, _⟩
  refine ⟨written, ?_, means⟩
  dsimp only
  rw [isRead]
  simp only [bind, Except.bind]
  rw [if_pos (show last.token = .stop from onStop)]
  rfl

/-! ## Names that are read -/

/-- What is well-formed in the text is read the same anywhere. -/
def Faithful (glyphs : List Text.Glyph) : Prop :=
  ∀ glyph ∈ glyphs, glyph.isMalformed = false → glyph.Sound

/-- The word is no tag, or a tag with a name that can be written. -/
def NamesTag : ConstraintToken → Prop
  | .tag name => ConstraintToken.IsName name
  | _ => True

theorem Faithful.next {glyphs : List Text.Glyph} (faithful : Faithful glyphs) :
    NamesTag (ConstraintToken.next glyphs).1 ∧ Faithful (ConstraintToken.next glyphs).2 := by
  have later {rest : List Text.Glyph} (isSuffix : rest <:+ glyphs) : Faithful rest :=
    fun glyph member => faithful glyph (isSuffix.subset member)
  unfold ConstraintToken.next
  have isSuffix := dropWhile_suffix (l := glyphs) fun glyph => glyph.char == ' ' || glyph.char == '\t'
  split
  next => exact ⟨trivial, later nil_suffix⟩
  next glyph rest dropped =>
    rw [dropped] at isSuffix
    have ofRest := (suffix_cons glyph rest).trans isSuffix
    have ofSecond {second : Text.Glyph} {others : List Text.Glyph} (isRest : rest = second :: others) :
        others <:+ glyphs :=
      (suffix_cons second others).trans (isRest ▸ ofRest)
    split
    next => exact ⟨trivial, later ofRest⟩
    next => exact ⟨trivial, later ofRest⟩
    next => exact ⟨trivial, later ofRest⟩
    next =>
      split
      next =>
        split
        next => exact ⟨trivial, later (ofSecond rfl)⟩
        next => exact ⟨trivial, later (ofSecond rfl)⟩
      next => exact ⟨trivial, later nil_suffix⟩
    next =>
      split
      next =>
        split
        next => exact ⟨trivial, later (ofSecond rfl)⟩
        next => exact ⟨trivial, later (ofSecond rfl)⟩
      next => exact ⟨trivial, later nil_suffix⟩
    next =>
      split
      next isTag =>
        refine ⟨?_, later ((dropWhile_suffix _).trans ofRest)⟩
        have allTag : ∀ part ∈ glyph :: rest.takeWhile fun glyph => ConstraintToken.isTagChar glyph.char,
            ConstraintToken.isTagChar part.char = true :=
          forall_mem_cons.mpr ⟨isTag, fun part member => by
            have := mem_takeWhile_imp member
            exact this⟩
        refine ⟨_, ⟨rfl, fun part member => ?_⟩, cons_ne_nil _ _, allTag⟩
        refine faithful part (isSuffix.subset ?_)
          (ConstraintToken.isMalformed_of_isTagChar (allTag part member))
        exact cons_subset_cons glyph (List.takeWhile_prefix _).subset member
      next => exact ⟨trivial, later ofRest⟩

/-- The reader stands on a name that can be written, or on no name, and has a faithful text
ahead. -/
def Legible (state : State) : Prop :=
  NamesTag state.token ∧ Faithful state.rest

/-- What has been read has names that can be written, and so has what is to be read. -/
def ReadsNames (result : Except ConstraintError (Constraint × State)) : Prop :=
  ∀ constraint state, result = .ok (constraint, state) → constraint.Nameable ∧ Legible state

theorem ReadsNames.bind {result : Except ConstraintError (Constraint × State)}
    (reads : ReadsNames result)
    {next : Constraint × State → Except ConstraintError (Constraint × State)}
    (goesOn : ∀ constraint state, constraint.Nameable → Legible state →
      ReadsNames (next (constraint, state))) :
    ReadsNames (result >>= next) := by
  cases result with
  | error error => exact fun _ _ impossible => by cases impossible
  | ok parsed =>
    have names := reads parsed.1 parsed.2 rfl
    exact goesOn parsed.1 parsed.2 names.1 names.2

theorem readsNames_error (error : ConstraintError) : ReadsNames (.error error) :=
  fun _ _ impossible => by cases impossible

variable {state : State}

theorem readsNames_ok (nameable : constraint.Nameable) (legible : Legible state) :
    ReadsNames (.ok (constraint, state)) := by
  intro _ _ same
  cases same
  exact ⟨nameable, legible⟩

theorem ReadsNames.insideParens {result : Except ConstraintError (Constraint × State)}
    (reads : ReadsNames result) : ReadsNames (insideParens result) := by
  cases result with
  | ok parsed => exact reads
  | error error => cases error <;> exact readsNames_error _

theorem readsNames_advance (faithful : Faithful state.rest)
    {next : State → Except ConstraintError (Constraint × State)}
    (goesOn : ∀ later, Legible later → ReadsNames (next later)) :
    ReadsNames (advance state >>= next) := by
  have read := faithful.next
  unfold advance
  split
  next => exact readsNames_error _
  next isNext =>
    rw [isNext] at read
    exact goesOn _ read

/-- What each level of the grammar reads has names that can be written. -/
structure LevelsReadNames (fuel : Nat) : Prop where
  alternatives : ∀ state, Faithful state.rest → ReadsNames (alternatives fuel state)
  moreAlternatives : ∀ left state, left.Nameable → Legible state →
  ReadsNames (moreAlternatives fuel left state)
  conjunction : ∀ state, Faithful state.rest → ReadsNames (conjunction fuel state)
  moreConjunction : ∀ left state, left.Nameable → Legible state →
  ReadsNames (moreConjunction fuel left state)
  negation : ∀ state, Faithful state.rest → ReadsNames (negation fuel state)
  atom : ∀ state, Legible state → ReadsNames (atom fuel state)

theorem readsNames_negation {fuel : Nat}
    (readsAtom : ∀ state, Legible state → ReadsNames (atom fuel state))
    (faithful : Faithful state.rest) : ReadsNames (negation (fuel + 1) state) := by
  unfold negation
  split
  next => exact readsNames_error _
  next =>
    refine readsNames_advance (by exact faithful) fun first ofFirst => ?_
    split
    next =>
      refine readsNames_advance ofFirst.2 fun second ofSecond => ?_
      split
      next => exact readsNames_error _
      next => exact (readsAtom second ofSecond).bind fun _ _ nameable legible =>
        readsNames_ok nameable legible
    next => exact readsAtom first ofFirst

theorem readsNames_atom {fuel : Nat}
    (readsWhole : ∀ state, Faithful state.rest → ReadsNames (alternatives fuel state))
    (legible : Legible state) : ReadsNames (atom (fuel + 1) state) := by
  have closes {constraint : Constraint} {inner : State} (nameable : constraint.Nameable)
      (faithful : Faithful inner.rest) :
      ReadsNames (do return (constraint, ← advance inner)) :=
    readsNames_advance faithful fun _ legible => readsNames_ok nameable legible
  unfold atom
  split
  next =>
    refine ((readsWhole state legible.2).bind fun constraint inner nameable legible => ?_).insideParens
    dsimp only
    split
    next => exact closes nameable legible.2
    next => exact readsNames_error _
  next name onTag =>
    have isName := legible.1
    rw [onTag] at isName
    exact closes isName legible.2
  next => exact readsNames_error _
  next => exact readsNames_error _

theorem levelsReadNames (fuel : Nat) : LevelsReadNames fuel := by
  induction fuel with
  | zero => constructor <;> intros <;> exact readsNames_error _
  | succ fuel ih =>
    refine ⟨fun state faithful => ?_, fun left state nameable legible => ?_, fun state faithful => ?_,
      fun left state nameable legible => ?_,
      fun state faithful => readsNames_negation ih.atom faithful,
      fun state legible => readsNames_atom ih.alternatives legible⟩
    · unfold ConstraintReader.alternatives
      exact (ih.conjunction state faithful).bind ih.moreAlternatives
    · unfold ConstraintReader.moreAlternatives
      split
      next =>
        refine (ih.conjunction state legible.2).bind fun right state rightNameable legible => ?_
        exact ih.moreAlternatives _ state ⟨nameable, rightNameable⟩ legible
      next => exact readsNames_ok nameable legible
    · unfold ConstraintReader.conjunction
      exact (ih.negation state faithful).bind ih.moreConjunction
    · unfold ConstraintReader.moreConjunction
      split
      next =>
        refine (ih.negation state legible.2).bind fun right state rightNameable legible => ?_
        exact ih.moreConjunction _ state ⟨nameable, rightNameable⟩ legible
      next => exact readsNames_ok nameable legible

/-- The tags of a constraint that is read have names that can be written. -/
theorem nameable_of_expression {text : Bytes} (read : expression text = .ok constraint) :
    constraint.Nameable := by
  have faithful : Faithful (Text.Utf8.glyphs text) := Text.Utf8.glyphs_sound text
  have names := (levelsReadNames (4 * (Text.Utf8.glyphs text).length + 8)).alternatives
    ⟨.stop, Text.Utf8.glyphs text, 0⟩ faithful
  rcases bound_eq_ok_iff.mp read with ⟨result, parsed, read⟩
  dsimp only at read
  split at read
  next =>
    cases read
    exact (names _ _ parsed).1
  next => cases read

end ConstraintReader
end Build
end CaseExpansion
