import CaseExpansion.Problem
import Mathlib.Data.Prod.Lex
import Mathlib.Data.List.Lex

namespace CaseExpansion

open List
open Source (Position)

/-!
# Errors in the order of their places

Errors are ordered by the file, the line and the column of their places.  Errors at
one place stay in the order in which they were found.  These two facts and that no
error is lost or added determine the result, so that parts of a list may be sorted
on their own beforehand.
-/

/-! ## The order of places -/

/-- Texts are compared byte by byte, as numbers. -/
theorem Bytes.compare_cases (left right : Bytes) :
    (compare left right = .lt ∧ left.map UInt8.toNat < right.map UInt8.toNat) ∨
      (compare left right = .eq ∧ left = right) ∨
      (compare left right = .gt ∧ right.map UInt8.toNat < left.map UInt8.toNat) := by
  induction left generalizing right with
  | nil =>
    cases right with
    | nil => exact .inr (.inl ⟨rfl, rfl⟩)
    | cons second right => exact .inl ⟨rfl, List.Lex.nil⟩
  | cons first left ih =>
    cases right with
    | nil => exact .inr (.inr ⟨rfl, List.Lex.nil⟩)
    | cons second right =>
      rw [compare]
      by_cases less : first < second
      · rw [if_pos less]
        exact .inl ⟨rfl, List.Lex.rel (UInt8.lt_iff_toNat_lt.1 less)⟩
      · by_cases greater : second < first
        · rw [if_neg less, if_pos greater]
          exact .inr (.inr ⟨rfl, List.Lex.rel (UInt8.lt_iff_toNat_lt.1 greater)⟩)
        · rw [UInt8.lt_iff_toNat_lt] at less greater
          have same : first = second := UInt8.toNat_inj.1 (by omega)
          subst same
          rw [if_neg (by simp), if_neg (by simp)]
          rcases ih right with ⟨found, less⟩ | ⟨found, rfl⟩ | ⟨found, greater⟩
          · exact .inl ⟨found, List.Lex.cons less⟩
          · exact .inr (.inl ⟨found, rfl⟩)
          · exact .inr (.inr ⟨found, List.Lex.cons greater⟩)

/-- What places are ordered by: the file, the line in it, and the column. -/
def Source.Position.key (position : Position) : List Nat ×ₗ Int ×ₗ Int :=
  toLex (position.filename.map UInt8.toNat, toLex (position.line, position.column))

theorem Source.Position.compare_isLE_iff (left right : Position) :
    (left.compare right).isLE = true ↔ left.key ≤ right.key := by
  rw [Prod.Lex.le_iff, Prod.Lex.le_iff]
  unfold Position.compare Position.key
  dsimp only [ofLex_toLex]
  rcases Bytes.compare_cases left.filename right.filename with
    ⟨found, less⟩ | ⟨found, same⟩ | ⟨found, greater⟩
  · simp [found, less]
  · rw [found, same]
    rcases lt_trichotomy left.line right.line with less | sameLine | greater
    · simp [compare_lt_iff_lt.2 less, less]
    · rw [sameLine]
      rcases lt_trichotomy left.column right.column with less | sameColumn | greater
      · simp [compare_lt_iff_lt.2 less, less.le]
      · simp [sameColumn]
      · simp [compare_gt_iff_gt.2 greater, greater]
    · simp [compare_gt_iff_gt.2 greater, greater.not_gt, greater.ne']
  · simp [found, greater.not_gt, greater.ne']

namespace Error

/-- A list of errors in the order of their places, with errors at one place in the order of
another list. -/
structure IsStableSort (errors sorted : List Error) : Prop where
  perm : sorted.Perm errors
  ordered : sorted.Pairwise fun earlier later => earlier.position.key ≤ later.position.key
  stable : ∀ key, sorted.filter (fun error => error.position.key = key) =
    errors.filter fun error => error.position.key = key

theorem sort_isStableSort (errors : List Error) : IsStableSort errors (sort errors) := by
  have trans : ∀ first second third : Error, (first.position.compare second.position).isLE = true →
      (second.position.compare third.position).isLE = true →
      (first.position.compare third.position).isLE = true := by
    intro first second third
    simp only [Position.compare_isLE_iff]
    exact le_trans
  have total : ∀ first second : Error, ((first.position.compare second.position).isLE ||
      (second.position.compare first.position).isLE) = true := by
    intro first second
    rw [Bool.or_eq_true, Position.compare_isLE_iff, Position.compare_isLE_iff]
    exact le_total _ _
  have perm : (sort errors).Perm errors := mergeSort_perm ..
  refine ⟨perm, ?_, ?_⟩
  · apply (pairwise_mergeSort trans total errors).imp
    intro earlier later
    exact (Position.compare_isLE_iff _ _).1
  · intro key
    -- The errors at one place are ordered already, so that they stay a part of the list.
    have together : (errors.filter fun error => error.position.key = key).Pairwise
        fun earlier later => (earlier.position.compare later.position).isLE = true := by
      apply pairwise_of_forall_mem_list
      intro earlier isEarlier later isLater
      rw [Position.compare_isLE_iff]
      simp only [mem_filter, decide_eq_true_eq] at isEarlier isLater
      rw [isEarlier.2, isLater.2]
    have kept := sublist_mergeSort trans total together filter_sublist
    have inside := kept.filter fun error => error.position.key = key
    simp only [filter_filter, Bool.and_self] at inside
    exact (inside.eq_of_length ((perm.filter _).length_eq.symm)).symm

/-- Lists with the same errors at every place, in the same order, are sorted alike. -/
theorem IsStableSort.unique {errors others sorted other : List Error}
    (first : IsStableSort errors sorted) (second : IsStableSort others other)
    (same : ∀ key, errors.filter (fun error => error.position.key = key) =
      others.filter fun error => error.position.key = key) : sorted = other := by
  have alike : ∀ key, sorted.filter (fun error => error.position.key = key) =
      other.filter fun error => error.position.key = key := by
    intro key
    rw [first.stable, same, second.stable]
  have ordered := first.ordered
  have otherOrdered := second.ordered
  clear first second same
  have occurs : ∀ {left right : List Error},
      (∀ key, left.filter (fun error => error.position.key = key) =
      right.filter fun error => error.position.key = key) → ∀ error ∈ left, error ∈ right := by
    intro left right alike error member
    have within : error ∈ left.filter fun other => other.position.key = error.position.key := by
      simpa using member
    rw [alike] at within
    exact (mem_filter.1 within).1
  induction sorted generalizing other with
  | nil =>
    cases other with
    | nil => rfl
    | cons error rest => cases occurs (fun key => (alike key).symm) error mem_cons_self
  | cons error rest ih =>
    cases other with
    | nil => cases occurs alike error mem_cons_self
    | cons head tail =>
      rw [pairwise_cons] at ordered otherOrdered
      have samePlace : head.position.key = error.position.key := by
        apply le_antisymm
        · rcases mem_cons.1 (occurs alike error mem_cons_self) with rfl | member
          · exact le_rfl
          · exact otherOrdered.1 error member
        · rcases mem_cons.1 (occurs (fun key => (alike key).symm) head mem_cons_self) with
            rfl | member
          · exact le_rfl
          · exact ordered.1 head member
      have sameHead : error = head := by
        have heads := alike error.position.key
        simp only [filter_cons, samePlace, decide_true, if_true] at heads
        exact (List.cons.inj heads).1
      subst sameHead
      congr 1
      apply ih _ ordered.2 otherOrdered.2
      intro key
      have tails := alike key
      rw [filter_cons, filter_cons] at tails
      split at tails
      · exact (List.cons.inj tails).2
      · exact tails

/-- Sorting parts of a list beforehand leaves the errors at each place in their order. -/
theorem filter_flatMap_sort {α : Type} (parts : List α) {errors sorted : α → List Error}
    (isSort : ∀ part, sorted part = sort (errors part)) (key : List Nat ×ₗ Int ×ₗ Int) :
    (parts.flatMap sorted).filter (fun error => error.position.key = key) =
      (parts.flatMap errors).filter fun error => error.position.key = key := by
  rw [filter_flatMap, filter_flatMap]
  apply flatMap_congr
  intro part _
  rw [isSort, (sort_isStableSort _).stable]

end Error
end CaseExpansion
