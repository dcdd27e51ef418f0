import CaseExpansion.Proofs.Generator.FlippedGuard

namespace CaseExpansion
namespace Build
namespace Constraint

/-!
# Negating a tag is substitution

Putting the negation of a tag in its place gives a constraint that means the same with the
value of the tag turned around.  As trees the two are less close: a negation that meets the
negated tag is cancelled, and then the way back leads to the same tree only if there was a
single negation.  `isSettled` says which trees come back when the tag is negated twice.
-/

/-- Whether no negation of a negation has the tag below it. -/
def isSettled (wanted : Bytes) : Constraint → Bool
  | .tag _ => true
  | .not operand => !(operand.isNot && operand.mentions wanted) && operand.isSettled wanted
  | .and left right => left.isSettled wanted && right.isSettled wanted
  | .or left right => left.isSettled wanted && right.isSettled wanted

variable {constraint operand : Constraint} {wanted : Bytes}

theorem isSettled_not : (not operand).isSettled wanted = true ↔
    (operand.mentions wanted = true → operand.isNot = false) ∧ operand.isSettled wanted = true := by
  rw [isSettled, Bool.and_eq_true]
  cases operand.isNot <;> cases operand.mentions wanted <;> simp

theorem isSettled_of_not_mentions (absent : constraint.mentions wanted = false) :
    constraint.isSettled wanted = true := by
  induction constraint with
  | tag name => rfl
  | not operand ih =>
    have absentBelow : operand.mentions wanted = false := absent
    apply isSettled_not.mpr
    constructor
    · intro mentioned
      rw [absentBelow] at mentioned
      cases mentioned
    · exact ih absentBelow
  | and left right ihLeft ihRight =>
    rw [mentions, Bool.or_eq_false_iff] at absent
    rw [isSettled, ihLeft absent.1, ihRight absent.2]
    rfl
  | or left right ihLeft ihRight =>
    rw [mentions, Bool.or_eq_false_iff] at absent
    rw [isSettled, ihLeft absent.1, ihRight absent.2]
    rfl

theorem isSettled_of_singlyNegated (single : constraint.singlyNegated = true) :
    constraint.isSettled wanted = true := by
  induction constraint with
  | tag name => rfl
  | not operand ih =>
    rw [singlyNegated, Bool.and_eq_true, Bool.not_eq_true'] at single
    exact isSettled_not.mpr ⟨fun _ => single.1, ih single.2⟩
  | and left right ihLeft ihRight =>
    rw [singlyNegated, Bool.and_eq_true] at single
    rw [isSettled, ihLeft single.1, ihRight single.2]
    rfl
  | or left right ihLeft ihRight =>
    rw [singlyNegated, Bool.and_eq_true] at single
    rw [isSettled, ihLeft single.1, ihRight single.2]
    rfl

/-- What becomes of a negation: it stays as it is, it is cancelled, or it stays above a changed
operand that is no negation. -/
theorem negate_not_cases (operand : Constraint) (wanted : Bytes) :
    (operand.mentions wanted = false ∧ (not operand).negate wanted = (not operand, false)) ∨
    operand.mentions wanted = true ∧
      ((∃ inner, operand.negate wanted = (not inner, true) ∧ (not operand).negate wanted =
        (inner, true)) ∨
       ∃ plain, plain.isNot = false ∧ operand.negate wanted = (plain, true) ∧
         (not operand).negate wanted = (not plain, true)) := by
  cases mentioned : operand.mentions wanted with
  | false => exact .inl ⟨rfl, negate_eq_self mentioned⟩
  | true =>
    refine .inr ⟨rfl, ?_⟩
    have found := operand.negate_snd wanted
    rw [mentioned] at found
    cases negated : operand.negate wanted with
    | mk result flag =>
      rw [negated] at found
      cases found
      cases result with
      | not inner => exact .inl ⟨inner, rfl, by rw [negate, negated]⟩
      | tag name => exact .inr ⟨tag name, rfl, rfl, by rw [negate, negated]⟩
      | and left right => exact .inr ⟨and left right, rfl, rfl, by rw [negate, negated]⟩
      | or left right => exact .inr ⟨or left right, rfl, rfl, by rw [negate, negated]⟩

/-- Negating a tag leaves no negation of a negation above it. -/
theorem isSettled_negate (constraint : Constraint) (wanted : Bytes) :
    (constraint.negate wanted).1.isSettled wanted = true := by
  induction constraint with
  | tag name =>
    rw [negate]
    split
    · rfl
    · rfl
  | not operand ih =>
    rcases negate_not_cases operand wanted with
      ⟨absent, kept⟩ | ⟨_, ⟨inner, negated, cancelled⟩ | ⟨plain, isPlain, negated, changed⟩⟩
    · rw [kept]
      exact isSettled_of_not_mentions absent
    · rw [negated] at ih
      rw [cancelled]
      exact (isSettled_not.mp ih).2
    · rw [negated] at ih
      rw [changed]
      exact isSettled_not.mpr ⟨fun _ => isPlain, ih⟩
  | and left right ihLeft ihRight =>
    exact Bool.and_eq_true_iff.mpr ⟨ihLeft, ihRight⟩
  | or left right ihLeft ihRight =>
    exact Bool.and_eq_true_iff.mpr ⟨ihLeft, ihRight⟩

/-- The only constraint without a negation at its top that gets one is the tag. -/
theorem eq_tag_of_negate_eq_not {inner : Constraint} (plain : operand.isNot = false)
    (negated : operand.negate wanted = (not inner, true)) :
    operand = tag wanted ∧ inner = tag wanted := by
  cases operand with
  | tag name =>
    rw [negate] at negated
    split at negated
    next same =>
      cases negated
      rw [same]
      exact ⟨rfl, rfl⟩
    next => cases negated
  | not operand => cases plain
  | and left right => cases negated
  | or left right => cases negated

theorem negate_negate_of_isSettled (settled : constraint.isSettled wanted = true) :
    ((constraint.negate wanted).1.negate wanted).1 = constraint := by
  induction constraint with
  | tag name =>
    by_cases same : name = wanted
    · subst same
      simp only [negate, if_true]
    · simp only [negate, if_neg same]
  | not operand ih =>
    rcases isSettled_not.mp settled with ⟨plainIfMentioned, settledBelow⟩
    have back := ih settledBelow
    rcases negate_not_cases operand wanted with
      ⟨_, kept⟩ | ⟨mentioned, ⟨inner, negated, cancelled⟩ | ⟨plain, _, negated, changed⟩⟩
    · rw [kept, kept]
    · -- The operand is the tag, which is negated again.
      rcases eq_tag_of_negate_eq_not (plainIfMentioned mentioned) negated with ⟨rfl, rfl⟩
      rw [cancelled, negated]
    · rw [negated] at back
      rw [changed]
      rcases negate_not_cases plain wanted with
        ⟨absent, kept⟩ | ⟨_, ⟨inner, negatedAgain, _⟩ | ⟨result, _, negatedAgain, changedAgain⟩⟩
      · rw [kept, ← back, negate_eq_self absent]
      · -- The operand would be a negation above the tag.
        rw [negatedAgain] at back
        have impossible := plainIfMentioned mentioned
        rw [← back] at impossible
        cases impossible
      · rw [negatedAgain] at back
        rw [changedAgain, ← back]
  | and left right ihLeft ihRight =>
    rw [isSettled, Bool.and_eq_true] at settled
    exact congrArg₂ and (ihLeft settled.1) (ihRight settled.2)
  | or left right ihLeft ihRight =>
    rw [isSettled, Bool.and_eq_true] at settled
    exact congrArg₂ or (ihLeft settled.1) (ihRight settled.2)

/-- Negating a tag twice gives a constraint back exactly if no negation of a negation stands above
the tag. -/
theorem negate_negate_eq_iff :
    ((constraint.negate wanted).1.negate wanted).1 = constraint ↔
    constraint.isSettled wanted = true := by
  constructor
  · intro back
    rw [← back]
    exact isSettled_negate _ _
  · exact negate_negate_of_isSettled

/-- Negating a tag is substitution: the result means the constraint with the value of the tag turned
around, and it is the constraint itself if the tag does not occur, which the flag tells.  Negating
twice gives the constraint back exactly if no negation of a negation stands above the tag, so in
particular if there is no negation of a negation at all. -/
theorem negated_tag_is_substituted (constraint : Constraint) (wanted : Bytes) :
    (∀ isSet, (constraint.negate wanted).1.holds isSet = constraint.holds (inverted wanted isSet)) ∧
      ((constraint.negate wanted).2 = true ↔ constraint.mentions wanted = true) ∧
      ((constraint.negate wanted).2 = false → (constraint.negate wanted).1 = constraint) ∧
      (((constraint.negate wanted).1.negate wanted).1 = constraint ↔
        constraint.isSettled wanted = true) ∧
      (constraint.singlyNegated = true → ((constraint.negate wanted).1.negate wanted).1 =
        constraint) := by
  refine ⟨constraint.holds_negate wanted, ?_, ?_, negate_negate_eq_iff, ?_⟩
  · rw [negate_snd]
  · intro notFound
    rw [negate_snd] at notFound
    rw [negate_eq_self notFound]
  · intro single
    exact negate_negate_eq_iff.mpr (isSettled_of_singlyNegated single)

/-- A group with the tag below two negations comes back without them. -/
theorem negated_tag_below_two_negations_is_substituted :
    (not (and (tag "casegen") (not (tag "linux")))).singlyNegated = true ∧
      (((not (and (tag "casegen") (not (tag "linux")))).negate "casegen").1.negate "casegen").1 =
        not (and (tag "casegen") (not (tag "linux"))) ∧
      ((tag "linux").negate "casegen").2 = false ∧ ((tag "linux").negate "casegen").1 = tag "linux" ∧
      (((not (not (tag "casegen"))).negate "casegen").1.negate "casegen").1 = tag "casegen" ∧
      ((not (not (tag "casegen"))).isSettled "casegen" = false) := by
  have single : (not (and (tag "casegen") (not (tag "linux")))).singlyNegated = true := by decide +kernel
  have absent : ((tag "linux").negate "casegen").2 = false := by decide +kernel
  refine ⟨single, ?_, absent, ?_, ?_, ?_⟩
  · exact (negated_tag_is_substituted _ _).2.2.2.2 single
  · exact (negated_tag_is_substituted _ _).2.2.1 absent
  · decide +kernel
  · decide +kernel

end Constraint
end Build
end CaseExpansion
