import CaseExpansion.Proofs.Source.Arrangement
import CaseExpansion.Proofs.Splicing
import Mathlib.Data.List.TakeWhile

namespace CaseExpansion

open List Source

/-!
# The edits of a guard

Which comments the generator changes to turn the guard of a template file around,
and how: exactly those before the package clause that are constraints with the
tag, or constraints in the old form.
-/

namespace Build.Constraint

/-- Negating a tag tells whether the tag occurs. -/
theorem negate_snd (constraint : Constraint) (wanted : Bytes) :
    (constraint.negate wanted).2 = constraint.mentions wanted := by
  induction constraint with
  | tag name =>
    rw [negate, mentions]
    split
    next same => rw [same, beq_self_eq_true]
    next differ => rw [beq_eq_false_iff_ne.mpr differ]
  | not operand ih =>
    rw [negate, mentions, ← ih]
    split
    next negated => rw [negated]
    next negated => rw [negated]
  | and left right ihLeft ihRight =>
    rw [negate, mentions, ← ihLeft, ← ihRight]
  | or left right ihLeft ihRight =>
    rw [negate, mentions, ← ihLeft, ← ihRight]

/-- Negating a tag turns its truth value around. -/
theorem holds_negate (constraint : Constraint) (wanted : Bytes) (isSet : Bytes → Bool) :
    (constraint.negate wanted).1.holds isSet =
      constraint.holds fun name => if name = wanted then !isSet name else isSet name := by
  induction constraint with
  | tag name =>
    rw [negate, holds]
    split
    next same => rfl
    next differ => rfl
  | not operand ih =>
    rw [negate, holds, ← ih]
    split
    next inner negated =>
      rw [negated, holds, Bool.not_not]
    next negated =>
      rw [negated, holds]
  | and left right ihLeft ihRight =>
    rw [holds, ← ihLeft, ← ihRight]
    rfl
  | or left right ihLeft ihRight =>
    rw [holds, ← ihLeft, ← ihRight]
    rfl

end Build.Constraint

namespace Guard

/-- The change that a comment before the package clause calls for: a constraint with
the tag is written with the tag negated, and a constraint in the old form is dropped. -/
def Replaces (tag : Bytes) (comment : Comment) (edit : Edit) : Prop :=
  (Build.Constraint.isExpressionLine comment.text = true ∧ ∃ constraint,
    Build.Constraint.parse comment.text = .ok constraint ∧ constraint.mentions tag = true ∧
      edit = ⟨comment.offset, comment.stop, "//go:build " ++ (constraint.negate tag).1.render⟩) ∨
  (Build.Constraint.isExpressionLine comment.text = false ∧
    Build.Constraint.isOldLine comment.text = true ∧ edit = ⟨comment.offset, comment.stop, []⟩)

variable {comment : Comment}

theorem Replaces.extent {tag : Bytes} {edit : Edit} (replaces : Replaces tag comment edit) :
    edit.start = comment.offset ∧ edit.stop = comment.stop := by
  rcases replaces with ⟨_, _, _, _, rfl⟩ | ⟨_, _, rfl⟩
  · exact ⟨rfl, rfl⟩
  · exact ⟨rfl, rfl⟩

theorem commentEdit_eq_ok {place : Nat → Position} {tag : Bytes} {change : Option Edit × Bool}
    (changed : commentEdit place tag comment = .ok change) (edit : Edit) :
    change.1 = some edit ↔ Replaces tag comment edit := by
  unfold commentEdit at changed
  split at changed
  next isExpression =>
    cases parsed : Build.Constraint.parse comment.text with
    | error error =>
      rw [parsed] at changed
      cases changed
    | ok constraint =>
      rw [parsed] at changed
      dsimp only at changed
      have mentions := constraint.negate_snd tag
      split at changed
      next negated isNegated =>
        cases changed
        rw [isNegated] at mentions
        constructor
        · rintro ⟨rfl⟩
          exact .inl ⟨isExpression, constraint, parsed, mentions.symm, by rw [isNegated]⟩
        · rintro (⟨_, other, isOther, _, rfl⟩ | ⟨notExpression, _⟩)
          · rw [parsed] at isOther
            cases isOther
            rw [isNegated]
          · rw [isExpression] at notExpression
            cases notExpression
      next negated isNegated =>
        cases changed
        rw [isNegated] at mentions
        constructor
        · intro impossible
          cases impossible
        · rintro (⟨_, other, isOther, isMentioned, _⟩ | ⟨notExpression, _⟩)
          · rw [parsed] at isOther
            cases isOther
            rw [← mentions] at isMentioned
            cases isMentioned
          · rw [isExpression] at notExpression
            cases notExpression
  next notExpression =>
    rw [Bool.not_eq_true] at notExpression
    have notFirst (isExpression : Build.Constraint.isExpressionLine comment.text = true) : False := by
      rw [notExpression] at isExpression
      cases isExpression
    split at changed
    next isOld =>
      cases changed
      constructor
      · rintro ⟨rfl⟩
        exact .inr ⟨notExpression, isOld, rfl⟩
      · rintro (⟨isExpression, _⟩ | ⟨_, _, rfl⟩)
        · exact (notFirst isExpression).elim
        · rfl
    next notOld =>
      cases changed
      constructor
      · intro impossible
        cases impossible
      · rintro (⟨isExpression, _⟩ | ⟨_, isOld, _⟩)
        · exact (notFirst isExpression).elim
        · exact absurd isOld notOld

theorem exists_commentEdits {source : ParsedFile} {tag : Bytes} {changes : List Edit}
    (guarded : edits source tag = .ok changes) :
    ∃ each, (headComments source.file).mapM (commentEdit source.place tag) = .ok each ∧
      each.any Prod.snd = true ∧ changes = each.filterMap Prod.fst := by
  rcases bound_eq_ok_iff.mp guarded with ⟨each, mapped, guarded⟩
  split at guarded
  next meets =>
    cases guarded
    exact ⟨each, mapped, meets, rfl⟩
  next => cases guarded

theorem edits_eq_ok {source : ParsedFile} {tag : Bytes} {changes : List Edit}
    (guarded : edits source tag = .ok changes) :
    ∃ each : List (Option Edit), changes = each.filterMap id ∧
      List.Forall₂ (fun comment change => ∀ edit, change = some edit ↔ Replaces tag comment edit)
        (headComments source.file) each := by
  rcases exists_commentEdits guarded with ⟨each, mapped, _, rfl⟩
  refine ⟨each.map Prod.fst, ?_, ?_⟩
  · rw [filterMap_map]
    rfl
  · rw [forall₂_map_right_iff]
    exact (mapM_eq_ok mapped).imp fun _ _ changed => commentEdit_eq_ok changed

/-- A comment of a group lies between the ends of the group. -/
theorem mem_group_bounds {source : ParsedFile} (arranged : source.Arranged) {group : CommentGroup}
    (isGroup : group ∈ source.file.comments) (member : comment ∈ group) :
    group.start ≤ comment.offset ∧ comment.stop ≤ group.stop := by
  have increasing := (pairwise_flatten.mp arranged.ordered).1 group isGroup
  have inside (other : Comment) (isOther : other ∈ group) :=
    (arranged.inside other (mem_flatten.mpr ⟨group, isGroup, isOther⟩)).1
  constructor
  · cases group with
    | nil => cases member
    | cons first rest =>
      rw [pairwise_cons] at increasing
      change first.offset ≤ comment.offset
      rcases mem_cons.mp member with rfl | isLater
      · exact Nat.le_refl _
      · have := increasing.1 comment isLater
        have := inside first mem_cons_self
        omega
  · rcases eq_nil_or_concat group with rfl | ⟨before, last, rfl⟩
    · cases member
    · rw [concat_eq_append] at *
      rw [CommentGroup.stop, getLast?_append, getLast?_singleton]
      change comment.stop ≤ last.stop
      rcases mem_append.mp member with isBefore | isLast
      · have := (pairwise_append.mp increasing).2.2 comment isBefore last (mem_singleton_self _)
        have := inside last (mem_append_right _ (mem_singleton_self _))
        omega
      · rw [mem_singleton.mp isLast]

/-- The head comments are those that lie before the package clause. -/
theorem mem_headComments {source : ParsedFile} (arranged : source.Arranged) :
    comment ∈ headComments source.file ↔
      comment ∈ source.comments ∧ comment.offset < source.file.package := by
  constructor
  · intro member
    rcases mem_flatten.mp member with ⟨group, isHead, inGroup⟩
    have isGroup := (takeWhile_sublist _).subset isHead
    have begins : CommentGroup.start group < source.file.package := by
      simpa using mem_takeWhile_imp isHead
    have inComments := mem_flatten.mpr ⟨group, isGroup, inGroup⟩
    have := mem_group_bounds arranged isGroup inGroup
    have := arranged.head group isGroup begins
    have := (arranged.inside comment inComments).1
    exact ⟨inComments, by omega⟩
  · rintro ⟨member, before⟩
    rcases mem_flatten.mp member with ⟨group, isGroup, inGroup⟩
    refine mem_flatten.mpr ⟨group, ?_, inGroup⟩
    have := mem_group_bounds arranged isGroup inGroup
    rcases append_of_mem isGroup with ⟨earlier, later, shape⟩
    have earlierHead : ∀ other ∈ earlier ++ [group],
        decide (CommentGroup.start other < source.file.package) = true := by
      intro other member
      refine decide_eq_true ?_
      rcases mem_append.mp member with isEarlier | isGroup
      · have isOther : other ∈ source.file.comments := by
          rw [shape]
          exact mem_append_left _ isEarlier
        rcases exists_mem_of_ne_nil _ (arranged.nonempty other isOther) with ⟨first, inOther⟩
        have ordered := (pairwise_flatten.mp arranged.ordered).2
        rw [shape] at ordered
        have := (pairwise_append.mp ordered).2.2 other isEarlier group mem_cons_self
          first inOther comment inGroup
        have := mem_group_bounds arranged isOther inOther
        have := (arranged.inside first (mem_flatten.mpr ⟨other, isOther, inOther⟩)).1
        omega
      · rw [mem_singleton.mp isGroup]
        omega
    rw [shape, show earlier ++ group :: later = (earlier ++ [group]) ++ later by simp,
      takeWhile_append_of_pos earlierHead]
    simp

theorem headComments_sublist (source : ParsedFile) :
    (headComments source.file).Sublist source.comments :=
  (takeWhile_sublist _).flatten

variable {source : ParsedFile} {tag : Bytes} {changes : List Edit}

/-- The edits of a guard are exactly the changes that comments before the package
clause call for. -/
theorem mem_edits (arranged : source.Arranged) (guarded : edits source tag = .ok changes) {edit : Edit} :
    edit ∈ changes ↔ ∃ comment ∈ source.comments,
      comment.offset < source.file.package ∧ Replaces tag comment edit := by
  rcases edits_eq_ok guarded with ⟨each, rfl, pointwise⟩
  constructor
  · intro member
    rcases mem_filterMap.mp member with ⟨change, isChange, isSome⟩
    rcases exists_left_of_forall₂ pointwise isChange with ⟨comment, isHead, replaces⟩
    have ⟨inComments, before⟩ := (mem_headComments arranged).mp isHead
    exact ⟨comment, inComments, before, (replaces edit).mp isSome⟩
  · rintro ⟨comment, inComments, before, isReplaced⟩
    have isHead := (mem_headComments arranged).mpr ⟨inComments, before⟩
    rcases exists_right_of_forall₂ pointwise isHead with ⟨change, isChange, replaces⟩
    exact mem_filterMap.mpr ⟨change, isChange, (replaces edit).mpr isReplaced⟩

/-- The edits of a guard come in the order of the file. -/
theorem edits_pairwise (arranged : source.Arranged) (guarded : edits source tag = .ok changes) :
    changes.Pairwise fun earlier later => earlier.stop ≤ later.start := by
  rcases edits_eq_ok guarded with ⟨each, rfl, pointwise⟩
  refine pairwise_filterMap.mpr ?_
  refine pairwise_of_forall₂ pointwise (arranged.ordered.sublist (headComments_sublist source)) ?_
  intro left right leftChange rightChange _ _ ordered ofLeft ofRight leftEdit isLeft rightEdit isRight
  rw [((ofLeft leftEdit).mp isLeft).extent.2, ((ofRight rightEdit).mp isRight).extent.1]
  exact ordered

/-- The edits of a guard lie before the package clause. -/
theorem edits_inside (arranged : source.Arranged) (guarded : edits source tag = .ok changes)
    {edit : Edit} (member : edit ∈ changes) :
    edit.start < edit.stop ∧ edit.stop ≤ source.file.package ∧ edit.stop ≤ source.text.length := by
  rcases (mem_edits arranged guarded).mp member with ⟨comment, inComments, before, replaces⟩
  rw [replaces.extent.1, replaces.extent.2]
  have inside := arranged.inside comment inComments
  refine ⟨inside.1, ?_, inside.2⟩
  rcases mem_flatten.mp inComments with ⟨group, isGroup, inGroup⟩
  have bounds := mem_group_bounds arranged isGroup inGroup
  have := arranged.head group isGroup (by omega)
  omega

end Guard
end CaseExpansion
