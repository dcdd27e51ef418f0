import CaseExpansion.Text.Bytes

namespace CaseExpansion
namespace Bytes

open List

/-!
# Cutting a text at its ends

A text has a lead cut off exactly when it is that lead with the rest after it,
and likewise at its end.  Later statements use the two equivalences and not the
recursion behind them.
-/

theorem cutLead?_eq_some_iff {lead text rest : Bytes} :
    cutLead? lead text = some rest ↔ text = lead ++ rest := by
  induction lead generalizing text with
  | nil =>
    rw [cutLead?, Option.some.injEq, nil_append]
  | cons first lead ih =>
    cases text with
    | nil => simp only [cutLead?, cons_append, reduceCtorEq]
    | cons head text =>
      rw [cutLead?, cons_append, List.cons.injEq]
      split
      next same =>
        rw [ih]
        exact ⟨fun equal => ⟨same.symm, equal⟩, fun equal => equal.2⟩
      next different =>
        constructor
        · intro impossible
          cases impossible
        · intro equal
          exact absurd equal.1.symm different

theorem cutTail?_eq_some_iff {tail text rest : Bytes} :
    cutTail? tail text = some rest ↔ text = rest ++ tail := by
  unfold cutTail?
  rw [Option.map_eq_some_iff]
  constructor
  · rintro ⟨reversed, cut, rfl⟩
    have whole := congrArg List.reverse (cutLead?_eq_some_iff.mp cut)
    rwa [reverse_reverse, reverse_append, reverse_reverse] at whole
  · intro whole
    refine ⟨rest.reverse, cutLead?_eq_some_iff.mpr ?_, reverse_reverse rest⟩
    rw [whole, reverse_append]

theorem dropTail_length_le (tail text : Bytes) : (dropTail tail text).length ≤ text.length := by
  unfold dropTail
  cases cut : cutTail? tail text with
  | none => exact Nat.le_refl _
  | some rest =>
    rw [cutTail?_eq_some_iff.mp cut, length_append]
    exact Nat.le_add_right _ _

/-- What is cut off a text of other bytes leaves the first one. -/
theorem dropTail_singleton_cons {code first : UInt8} (different : first ≠ code) (rest : Bytes) :
    ∃ kept, dropTail [code] (first :: rest) = first :: kept := by
  unfold dropTail
  cases cut : cutTail? [code] (first :: rest) with
  | none => exact ⟨rest, rfl⟩
  | some before =>
    have whole := cutTail?_eq_some_iff.mp cut
    cases before with
    | nil => exact absurd (List.cons.inj whole).1 different
    | cons head kept =>
      rw [(List.cons.inj whole).1]
      exact ⟨kept, rfl⟩

end Bytes
end CaseExpansion
