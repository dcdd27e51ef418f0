import Mathlib.Data.List.Forall2
import Mathlib.Data.List.Nodup

namespace CaseExpansion

open List

/-!
# Selecting from a list

A test that no two members of a list pass selects one member at most.  What
members with different keys contribute to a list can be taken apart again by the
keys.  Lists that are related member by member have corresponding members in
corresponding order; the results of a step for each member are such a list, since steps
in a row succeed if each of them does.
-/

/-- Only one member of a list passes a test that no two of its members pass. -/
theorem filter_eq_singleton {α : Type} {test : α → Bool} {members : List α} {chosen : α}
    (apart : members.Pairwise fun left right => ¬(test left = true ∧ test right = true))
    (member : chosen ∈ members) (passes : test chosen = true) : members.filter test = [chosen] := by
  rcases append_of_mem member with ⟨before, after, rfl⟩
  rw [pairwise_append, pairwise_cons] at apart
  have noneBefore : before.filter test = [] :=
    filter_eq_nil_iff.mpr fun other isBefore isPassing =>
      apart.2.2 other isBefore chosen mem_cons_self ⟨isPassing, passes⟩
  have noneAfter : after.filter test = [] :=
    filter_eq_nil_iff.mpr fun other isAfter isPassing =>
      apart.2.1.1 other isAfter ⟨passes, isPassing⟩
  rw [filter_append, noneBefore, filter_cons_of_pos passes, noneAfter, nil_append]

/-- What members with different keys contribute can be told apart by the key. -/
theorem filter_flatMap_eq {α β κ : Type} [DecidableEq κ] {members : List α} {contribute : α → List β}
    {keyOf : β → κ} {key : α → κ} (distinct : (members.map key).Nodup)
    (keyed : ∀ member ∈ members, ∀ part ∈ contribute member, keyOf part = key member)
    {chosen : α} (member : chosen ∈ members) :
    (members.flatMap contribute).filter (fun part => keyOf part = key chosen) = contribute chosen := by
  induction members with
  | nil => cases member
  | cons first members ih =>
    rw [map_cons, nodup_cons] at distinct
    rw [flatMap_cons, filter_append]
    have ofFirst := keyed first mem_cons_self
    have ofOthers (other : α) (isOther : other ∈ members) :=
      keyed other (mem_cons_of_mem _ isOther)
    rcases mem_cons.mp member with rfl | isLater
    · have all : (contribute chosen).filter (fun part => keyOf part = key chosen) = contribute chosen :=
        filter_eq_self.mpr fun part isPart => decide_eq_true (ofFirst part isPart)
      have none : (members.flatMap contribute).filter (fun part => keyOf part = key chosen) = [] := by
        refine filter_eq_nil_iff.mpr fun part isPart same => distinct.1 ?_
        rcases mem_flatMap.mp isPart with ⟨other, isOther, inOther⟩
        rw [← of_decide_eq_true same, ofOthers other isOther part inOther]
        exact mem_map_of_mem isOther
      rw [all, none, append_nil]
    · have none : (contribute first).filter (fun part => keyOf part = key chosen) = [] := by
        refine filter_eq_nil_iff.mpr fun part isPart same => distinct.1 ?_
        rw [← ofFirst part isPart, of_decide_eq_true same]
        exact mem_map_of_mem isLater
      rw [none, nil_append]
      exact ih distinct.2 ofOthers isLater

section Pointwise

variable {α β : Type} {relation : α → β → Prop} {members : List α} {images : List β}

theorem exists_left_of_forall₂ (pointwise : List.Forall₂ relation members images) {image : β}
    (isImage : image ∈ images) : ∃ member ∈ members, relation member image := by
  induction pointwise with
  | nil => cases isImage
  | cons related _ ih =>
    rw [exists_mem_cons_iff]
    rcases mem_cons.mp isImage with rfl | isLater
    · exact .inl related
    · exact .inr (ih isLater)

theorem exists_right_of_forall₂ (pointwise : List.Forall₂ relation members images) {member : α}
    (isMember : member ∈ members) : ∃ image ∈ images, relation member image :=
  exists_left_of_forall₂ pointwise.flip isMember

theorem pairwise_of_forall₂ {order : α → α → Prop} {imageOrder : β → β → Prop}
    (pointwise : List.Forall₂ relation members images) (ordered : members.Pairwise order)
    (preserves : ∀ left right leftImage rightImage, left ∈ members → right ∈ members →
      order left right → relation left leftImage → relation right rightImage →
        imageOrder leftImage rightImage) : images.Pairwise imageOrder := by
  induction pointwise with
  | nil => exact .nil
  | cons related pointwise ih =>
    rw [pairwise_cons] at ordered
    refine .cons (fun image isImage => ?_) (ih ordered.2 fun left right _ _ isLeft isRight =>
      preserves left right _ _ (mem_cons_of_mem _ isLeft) (mem_cons_of_mem _ isRight))
    rcases exists_left_of_forall₂ pointwise isImage with ⟨member, isMember, isRelated⟩
    exact preserves _ member _ _ mem_cons_self (mem_cons_of_mem _ isMember)
      (ordered.1 member isMember) related isRelated

end Pointwise

theorem bound_eq_ok_iff {ε α β : Type} {first : Except ε α} {next : α → Except ε β} {result : β} :
    (first >>= next) = .ok result ↔ ∃ value, first = .ok value ∧ next value = .ok result := by
  cases first <;> simp [bind, Except.bind]

theorem bound_eq_error_iff {ε α β : Type} {first : Except ε α} {next : α → Except ε β} {failure : ε} :
    (first >>= next) = .error failure ↔
      first = .error failure ∨ ∃ value, first = .ok value ∧ next value = .error failure := by
  cases first <;> simp [bind, Except.bind]

/-- Steps that succeed together succeed one by one. -/
theorem mapM_eq_ok {ε α β : Type} {f : α → Except ε β} {members : List α} {results : List β}
    (mapped : members.mapM f = .ok results) :
    List.Forall₂ (fun member result => f member = .ok result) members results := by
  induction members generalizing results with
  | nil =>
    cases mapped
    exact .nil
  | cons member members ih =>
    rw [mapM_cons] at mapped
    rcases bound_eq_ok_iff.mp mapped with ⟨result, first, mapped⟩
    rcases bound_eq_ok_iff.mp mapped with ⟨rest, later, ⟨⟩⟩
    exact .cons first (ih later)

theorem mem_of_lookup {κ β : Type} [BEq κ] [LawfulBEq κ] {entries : List (κ × β)} {key : κ} {value : β}
    (found : entries.lookup key = some value) : (key, value) ∈ entries := by
  rcases lookup_eq_some_iff.mp found with ⟨before, after, rfl, _⟩
  exact mem_append_right before mem_cons_self

theorem exists_ok_of_any {ε α : Type} {outcome : Except ε α} {test : α → Bool}
    (passes : outcome.toOption.any test = true) : ∃ value, outcome = .ok value ∧ test value = true := by
  cases outcome with
  | error error => cases passes
  | ok value => exact ⟨value, rfl, passes⟩

end CaseExpansion
