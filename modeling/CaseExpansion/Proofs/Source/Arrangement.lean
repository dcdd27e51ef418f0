import CaseExpansion.Proofs.Selection
import CaseExpansion.Template.Read
import Mathlib.Data.List.Flatten

namespace CaseExpansion
namespace Source

open List

/-!
# How the parts of a file lie in its text

The generator takes for granted that comments and declarations lie in the text
one after another.  `ParsedFile.Arranged` says what this amounts to, for comments
and for functions; it holds for every file that has been parsed
(`parseFile_arranged`).  Consequences of use to others are that a comment is
identified by its position, and that no comment is in the doc comments of two
functions.
-/

theorem LineTable.position_offset {table : LineTable} {offset : Nat} (inside : offset ≤ table.size) :
    (table.position offset).offset = offset := by
  rw [position]
  split <;> exact Nat.min_eq_left inside

/-- The comments above a function. -/
def FuncDecl.docComments (function : FuncDecl) : List Comment :=
  function.doc.getD []

namespace ParsedFile

/-- The comments of a file, in source order. -/
def comments (source : ParsedFile) : List Comment :=
  source.file.comments.flatten

/-- The parts of a file lie in its text, in the order of the tree and without
overlap.  Comments count from their own start to the end of their own text. -/
structure Arranged (source : ParsedFile) : Prop where
  size : source.table.size = source.text.length
  ordered : source.comments.Pairwise fun earlier later => earlier.stop ≤ later.offset
  inside : ∀ comment ∈ source.comments,
    comment.offset < comment.stop ∧ comment.stop ≤ source.text.length
  nonempty : ∀ group ∈ source.file.comments, group ≠ []
  docs : (source.file.functions.filterMap FuncDecl.doc).Sublist source.file.comments
  /-- No group of comments stands on both sides of the package clause. -/
  head : ∀ group ∈ source.file.comments, group.start < source.file.package →
    group.stop ≤ source.file.package
  tail : ∀ function ∈ source.file.functions, ∀ doc, function.doc = some doc →
    source.file.package ≤ CommentGroup.start doc
  bodies : ∀ function ∈ source.file.functions, ∀ doc body, function.doc = some doc →
    function.body = some body →
    CommentGroup.stop doc ≤ body.rbrace ∧ body.rbrace < source.text.length
  apart : source.file.functions.Pairwise fun earlier later => ∀ body doc,
    earlier.body = some body → later.doc = some doc → body.rbrace < CommentGroup.start doc

namespace Arranged

variable {source : ParsedFile} (arranged : source.Arranged)
include arranged

/-- The comments of a file come in the order of their offsets. -/
theorem offsets_increase :
    source.comments.Pairwise fun earlier later => earlier.offset < later.offset := by
  refine arranged.ordered.imp_of_mem ?_
  intro earlier later isEarlier _ apart
  have := (arranged.inside earlier isEarlier).1
  omega

theorem place_offset {comment : Comment} (member : comment ∈ source.comments) :
    (source.place comment.offset).offset = comment.offset := by
  have inside := arranged.inside comment member
  refine LineTable.position_offset ?_
  rw [arranged.size]
  omega

/-- A comment is identified by its position. -/
theorem place_inj {left right : Comment} (isLeft : left ∈ source.comments)
    (isRight : right ∈ source.comments)
    (same : source.place left.offset = source.place right.offset) : left = right := by
  have offsets : left.offset = right.offset := by
    rw [← arranged.place_offset isLeft, ← arranged.place_offset isRight, same]
  have distinct : (source.comments.map Comment.offset).Nodup :=
    pairwise_map.mpr (arranged.offsets_increase.imp Nat.ne_of_lt)
  exact inj_on_of_nodup_map distinct isLeft isRight offsets

theorem docComments_sublist :
    (source.file.functions.flatMap FuncDecl.docComments).Sublist source.comments := by
  have flattened (functions : List FuncDecl) :
      functions.flatMap FuncDecl.docComments = (functions.filterMap FuncDecl.doc).flatten := by
    induction functions with
    | nil => rfl
    | cons function functions ih =>
      rw [flatMap_cons, ih, FuncDecl.docComments]
      cases doc : function.doc with
      | none => rw [filterMap_cons_none doc, Option.getD_none, nil_append]
      | some group => rw [filterMap_cons_some doc, flatten_cons, Option.getD_some]
  rw [flattened]
  exact arranged.docs.flatten

theorem mem_comments {function : FuncDecl} {comment : Comment}
    (isFunction : function ∈ source.file.functions) (member : comment ∈ function.docComments) :
    comment ∈ source.comments :=
  arranged.docComments_sublist.subset (mem_flatMap.mpr ⟨function, isFunction, member⟩)

/-- The doc comment of a function comes before those of the functions after it. -/
theorem docComments_pairwise :
    source.file.functions.Pairwise fun earlier later =>
      ∀ left ∈ earlier.docComments, ∀ right ∈ later.docComments, left.offset < right.offset := by
  have increasing := arranged.offsets_increase.sublist arranged.docComments_sublist
  rw [flatMap_def, pairwise_flatten, pairwise_map] at increasing
  exact increasing.2

/-- No comment is above two functions. -/
theorem docComments_apart (comment : Comment) :
    source.file.functions.Pairwise fun earlier later =>
      ¬(comment ∈ earlier.docComments ∧ comment ∈ later.docComments) := by
  refine arranged.docComments_pairwise.imp ?_
  rintro earlier later increasing ⟨ofEarlier, ofLater⟩
  exact Nat.lt_irrefl _ (increasing comment ofEarlier comment ofLater)

theorem function_unique {left right : FuncDecl} {comment : Comment}
    (isLeft : left ∈ source.file.functions) (isRight : right ∈ source.file.functions)
    (ofLeft : comment ∈ left.docComments) (ofRight : comment ∈ right.docComments) : left = right := by
  have apart : source.file.functions.Pairwise fun earlier later =>
      ¬(decide (comment ∈ earlier.docComments) = true ∧
        decide (comment ∈ later.docComments) = true) :=
    (arranged.docComments_apart comment).imp fun notBoth =>
      mt (And.imp of_decide_eq_true of_decide_eq_true) notBoth
  have onlyLeft := filter_eq_singleton apart isLeft (decide_eq_true ofLeft)
  rw [filter_eq_singleton apart isRight (decide_eq_true ofRight)] at onlyLeft
  exact (head_eq_of_cons_eq onlyLeft).symm

/-- The comments above one function come in the order of their offsets. -/
theorem docComments_increase {function : FuncDecl} (isFunction : function ∈ source.file.functions) :
    function.docComments.Pairwise fun earlier later => earlier.offset < later.offset := by
  have increasing := arranged.offsets_increase.sublist arranged.docComments_sublist
  rw [flatMap_def, pairwise_flatten] at increasing
  exact increasing.1 _ (mem_map_of_mem isFunction)

end Arranged
end ParsedFile
end Source
end CaseExpansion
