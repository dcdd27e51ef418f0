import CaseExpansion.Generator.Edit
import Mathlib.Algebra.GroupWithZero.Nat
import Mathlib.Data.List.Pairwise
import Mathlib.Data.List.Perm.Basic

namespace CaseExpansion
namespace Edit

open List

/-!
# What a text with edits is

`Spliced` says, byte by byte, what it means that one text is another one with
some of its ranges replaced: a byte that no edit covers is kept, and where an edit
starts, its text stands for everything it covers.  The relation looks at edits as
a set and knows no order among them.

Edits that are `Separate` can be applied in this sense, in one way only, and
`applyAll?` does so.  In particular it never takes a range that is out of bounds.

Edits that only insert a text cover nothing, and the relation does not see them.  `replaced`
computes the text with such edits as well.  It goes through the source from left to right and asks
at each offset which edits start there and whether one covers it, so that no order of the edits
plays a part, as long as no two start at one offset.  `splice?` goes from edit to edit instead.
The two agree because the first edit can be taken out of what is read (`replaced_cons_of_start`).
-/

/-- The edits lie inside of a text of some size, each covers something, and no two
cover the same. -/
structure Separate (size : Nat) (edits : List Edit) : Prop where
  inside : ∀ edit ∈ edits, edit.start < edit.stop ∧ edit.stop ≤ size
  apart : edits.Pairwise fun left right => left.stop ≤ right.start ∨ right.stop ≤ left.start

/-- The edits lie inside of a text of some size, no two start at one offset, and of any two one stops
where the other starts or before.  Unlike separate edits they may cover nothing. -/
structure Spaced (size : Nat) (edits : List Edit) : Prop where
  inside : ∀ edit ∈ edits, edit.start ≤ edit.stop ∧ edit.stop ≤ size
  distinct : (edits.map Edit.start).Nodup
  apart : edits.Pairwise fun left right => left.stop ≤ right.start ∨ right.stop ≤ left.start

/-- The second text is what the first one, which starts at the offset, becomes by the
edits. -/
inductive Spliced (edits : List Edit) : (offset : Nat) → (source content : Bytes) → Prop where
  | done (offset : Nat) : Spliced edits offset [] []
  | keep {offset : Nat} {code : UInt8} {rest content : Bytes}
    (uncovered : ∀ edit ∈ edits, ¬(edit.start ≤ offset ∧ offset < edit.stop))
    (later : Spliced edits (offset + 1) rest content) :
    Spliced edits offset (code :: rest) (code :: content)
  | replace {edit : Edit} {covered rest content : Bytes} (member : edit ∈ edits)
    (extent : edit.start + covered.length = edit.stop)
    (later : Spliced edits edit.stop rest content) :
    Spliced edits edit.start (covered ++ rest) (edit.text ++ content)

/-- Some edit covers the byte at the offset. -/
def Covered (edits : List Edit) (offset : Nat) : Prop :=
  ∃ edit ∈ edits, edit.start ≤ offset ∧ offset < edit.stop

instance coveredDecidable (edits : List Edit) (offset : Nat) : Decidable (Covered edits offset) :=
  inferInstanceAs (Decidable (∃ edit ∈ edits, _))

/-- The texts of the edits that start at an offset. -/
def textsAt (edits : List Edit) (offset : Nat) : Bytes :=
  (edits.filter fun edit => edit.start = offset).flatMap Edit.text

/-- The source, which starts at the offset, read from left to right: where an edit starts, its text
is put in, and of the bytes those are kept that no edit covers. -/
def replaced (edits : List Edit) : (offset : Nat) → (source : Bytes) → Bytes
  | offset, [] => textsAt edits offset
  | offset, code :: rest =>
    textsAt edits offset ++ ((if Covered edits offset then [] else [code]) ++
      replaced edits (offset + 1) rest)

variable {size offset used : Nat} {edit : Edit} {edits others : List Edit} {code : UInt8}
  {source part rest content : Bytes}

/-! ## Edits that lie apart -/

theorem Separate.eq_or_apart (separate : Separate size edits) {left right : Edit} (isLeft : left ∈ edits)
    (isRight : right ∈ edits) : left = right ∨ left.stop ≤ right.start ∨ right.stop ≤ left.start := by
  have symmetric : Std.Symm fun left right : Edit =>
      left.stop ≤ right.start ∨ right.stop ≤ left.start := ⟨fun _ _ => Or.symm⟩
  exact or_iff_not_imp_left.mpr (separate.apart.forall isLeft isRight)

theorem Separate.starts_nodup (separate : Separate size edits) : (edits.map Edit.start).Nodup := by
  refine pairwise_map.mpr (separate.apart.imp_of_mem fun isLeft isRight apart same => ?_)
  have ofLeft := separate.inside _ isLeft
  have ofRight := separate.inside _ isRight
  omega

theorem Separate.spaced (separate : Separate size edits) : Spaced size edits where
  inside edit member := (separate.inside edit member).imp_left Nat.le_of_lt
  distinct := separate.starts_nodup
  apart := separate.apart

theorem Spaced.perm (spaced : Spaced size edits) (perm : others.Perm edits) : Spaced size others where
  inside edit member := spaced.inside edit (perm.subset member)
  distinct := (perm.map Edit.start).nodup_iff.mpr spaced.distinct
  apart := perm.symm.pairwise spaced.apart Or.symm

/-- Spaced edits that are in order of their starts come one after another. -/
theorem Spaced.in_order (spaced : Spaced size edits)
    (sorted : edits.Pairwise fun earlier later => earlier.start ≤ later.start) :
    edits.Pairwise fun earlier later => earlier.start < later.start ∧ earlier.stop ≤ later.start := by
  have differ := pairwise_map.mp spaced.distinct
  refine ((sorted.and differ).and spaced.apart).imp_of_mem fun _ isLater ⟨⟨starts, differ⟩, apart⟩ => ?_
  have ofLater := spaced.inside _ isLater
  omega

theorem sort_sorted (edits : List Edit) :
    (sort edits).Pairwise fun earlier later => earlier.start ≤ later.start := by
  have sorted : (sort edits).Pairwise fun earlier later => decide (earlier.start ≤ later.start) =
      true := by
    refine pairwise_mergeSort ?_ ?_ edits
    · intro first second third isFirst isSecond
      simp only [decide_eq_true_eq] at isFirst isSecond ⊢
      omega
    · intro first second
      simp only [Bool.or_eq_true, decide_eq_true_eq]
      omega
  exact sorted.imp of_decide_eq_true

/-! ## Reading with edits -/

theorem textsAt_cons : textsAt (edit :: edits) offset =
    (if edit.start = offset then edit.text else []) ++ textsAt edits offset := by
  by_cases here : edit.start = offset <;> simp [textsAt, here]

theorem covered_cons : Covered (edit :: edits) offset ↔
    (edit.start ≤ offset ∧ offset < edit.stop) ∨ Covered edits offset :=
  exists_mem_cons_iff ..

theorem textsAt_eq_nil (elsewhere : ∀ edit ∈ edits, edit.start ≠ offset) : textsAt edits offset = [] := by
  rw [textsAt, filter_eq_nil_iff.mpr, flatMap_nil]
  simpa using elsewhere

/-- What is read depends on what the edits do from the offset on. -/
theorem replaced_congr (alike : ∀ place, offset ≤ place →
      textsAt edits place = textsAt others place ∧ (Covered edits place ↔ Covered others place)) :
    replaced edits offset source = replaced others offset source := by
  induction source generalizing offset with
  | nil => exact (alike offset (Nat.le_refl _)).1
  | cons code rest ih =>
    have here := alike offset (Nat.le_refl _)
    rw [replaced, replaced, here.1, ih fun place later => alike place (Nat.le_of_succ_le later)]
    simp only [here.2]

/-- An edit that has been passed does not matter any more. -/
theorem replaced_cons_of_past (began : edit.start < offset) (ended : edit.stop ≤ offset) :
    replaced (edit :: edits) offset source = replaced edits offset source := by
  refine replaced_congr fun place later => ⟨?_, ?_⟩
  · rw [textsAt_cons, if_neg (by omega), nil_append]
  · rw [covered_cons]
    exact or_iff_right (by omega)

/-- What stands before all edits is kept. -/
theorem replaced_of_before (before : ∀ edit ∈ edits, offset + part.length ≤ edit.start) :
    replaced edits offset (part ++ rest) = part ++ replaced edits (offset + part.length) rest := by
  induction part generalizing offset with
  | nil => rfl
  | cons code part ih =>
    rw [length_cons, Nat.add_comm part.length, ← Nat.add_assoc] at before ⊢
    have later : ∀ edit ∈ edits, offset < edit.start := fun edit member => by
      have := before edit member
      omega
    have uncovered : ¬Covered edits offset := by
      rintro ⟨edit, member, begins, _⟩
      exact Nat.not_lt_of_le begins (later edit member)
    rw [cons_append, replaced, textsAt_eq_nil fun edit member => Nat.ne_of_gt (later edit member),
      if_neg uncovered, ih before]
    rfl

/-- Inside of an edit everything up to its end is left out. -/
theorem replaced_cons_of_inside (began : edit.start < offset) (extent : offset + part.length = edit.stop)
    (apart : ∀ other ∈ edits, other.start ≤ edit.start ∨ edit.stop ≤ other.start) :
    replaced (edit :: edits) offset (part ++ rest) = replaced edits edit.stop rest := by
  induction part generalizing offset with
  | nil => exact extent ▸ replaced_cons_of_past began (Nat.le_of_eq extent.symm)
  | cons code part ih =>
    rw [length_cons] at extent
    have elsewhere : ∀ other ∈ edit :: edits, other.start ≠ offset := by
      refine forall_mem_cons.mpr ⟨Nat.ne_of_lt began, fun other member => ?_⟩
      have := apart other member
      omega
    have covered : Covered (edit :: edits) offset := covered_cons.mpr (.inl (by omega))
    rw [cons_append, replaced, textsAt_eq_nil elsewhere, if_pos covered,
      ih (Nat.lt_succ_of_lt began) (by omega)]
    rfl

/-- Where an edit starts, its text stands for all that it covers. -/
theorem replaced_cons_of_start (extent : edit.start + part.length = edit.stop)
    (apart : ∀ other ∈ edits, other.start < edit.start ∨ edit.start < other.start ∧
      edit.stop ≤ other.start) :
    replaced (edit :: edits) edit.start (part ++ rest) = edit.text ++ replaced edits edit.stop rest := by
  cases part with
  | nil =>
    -- The edit covers nothing, so that reading goes on at the same offset without it.
    rw [length_nil, Nat.add_zero] at extent
    rw [nil_append, ← extent]
    cases rest with
    | nil => rw [replaced, textsAt_cons, if_pos rfl, replaced]
    | cons code rest =>
      have same : Covered (edit :: edits) edit.start ↔ Covered edits edit.start :=
        covered_cons.trans (or_iff_right (by omega))
      rw [replaced, textsAt_cons, if_pos rfl, replaced_cons_of_past (Nat.lt_succ_self _) (by omega),
        replaced, append_assoc]
      simp only [same]
  | cons code part =>
    rw [length_cons] at extent
    have elsewhere : ∀ other ∈ edits, other.start ≠ edit.start := fun other member => by
      have := apart other member
      omega
    have covered : Covered (edit :: edits) edit.start := covered_cons.mpr (.inl (by omega))
    have inside : ∀ other ∈ edits, other.start ≤ edit.start ∨ edit.stop ≤ other.start :=
      fun other member => (apart other member).imp Nat.le_of_lt And.right
    rw [cons_append, replaced, textsAt_cons, if_pos rfl, textsAt_eq_nil elsewhere, append_nil,
      if_pos covered, replaced_cons_of_inside (Nat.lt_succ_self _) (by omega) inside]
    rfl

/-- At most one text is put in at an offset, so that the order of the edits does not matter there. -/
theorem textsAt_perm (distinct : (edits.map Edit.start).Nodup) (perm : others.Perm edits) :
    textsAt others offset = textsAt edits offset := by
  have found := perm.filter fun edit => edit.start = offset
  have single : ((edits.filter fun edit => edit.start = offset).map Edit.start).Nodup :=
    distinct.sublist (filter_sublist.map Edit.start)
  have starts : ∀ edit ∈ edits.filter fun edit => edit.start = offset, edit.start = offset :=
    fun edit member => of_decide_eq_true (mem_filter.mp member).2
  rw [textsAt, textsAt]
  generalize edits.filter (fun edit => edit.start = offset) = here at found single starts ⊢
  rcases here with _ | ⟨first, _ | ⟨second, more⟩⟩
  · rw [found.eq_nil]
  · rw [perm_singleton.mp found]
  · rw [forall_mem_cons, forall_mem_cons] at starts
    rw [map_cons, map_cons, starts.1, starts.2.1, nodup_cons] at single
    exact absurd mem_cons_self single.1

theorem replaced_perm (distinct : (edits.map Edit.start).Nodup) (perm : others.Perm edits) :
    replaced others offset source = replaced edits offset source := by
  refine replaced_congr fun place _ => ⟨textsAt_perm distinct perm, ?_⟩
  simp only [Covered, perm.mem_iff]

/-! ## Going from edit to edit -/

theorem drop_eq_slice_append {start stop : Nat} (ordered : start ≤ stop) :
    source.drop start = Bytes.slice source start stop ++ source.drop stop := by
  have rest : source.drop stop = (source.drop start).drop (stop - start) := by
    rw [drop_drop, Nat.add_sub_cancel' ordered]
  rw [rest, Bytes.slice, take_append_drop]

theorem slice_length {start stop : Nat} (inside : stop ≤ source.length) :
    (Bytes.slice source start stop).length = stop - start := by
  rw [Bytes.slice, length_take, length_drop]
  omega

theorem range?_eq_some_iff {start stop : Nat} : range? source start stop = some content ↔
    start ≤ stop ∧ stop ≤ source.length ∧ Bytes.slice source start stop = content := by
  rw [range?, Option.ite_none_right_eq_some, Option.some.injEq, and_assoc]

/-- Edits that come one after another are applied from an offset on as the source is read from there. -/
theorem splice?_eq_replaced (isUsed : used ≤ source.length)
    (ordered : edits.Pairwise fun earlier later => earlier.start < later.start ∧
      earlier.stop ≤ later.start)
    (inside : ∀ edit ∈ edits, used ≤ edit.start ∧ edit.start ≤ edit.stop ∧ edit.stop ≤ source.length) :
    splice? source used edits = some (replaced edits used (source.drop used)) := by
  induction edits generalizing used with
  | nil =>
    have whole : replaced [] used (source.drop used ++ []) = source.drop used ++ [] :=
      replaced_of_before (forall_mem_nil _)
    rw [append_nil] at whole
    rw [whole, splice?, range?_eq_some_iff.mpr ⟨isUsed, Nat.le_refl _, rfl⟩, drop_eq_slice_append isUsed,
      drop_length, append_nil]
  | cons edit edits ih =>
    rw [pairwise_cons] at ordered
    rw [forall_mem_cons] at inside
    have ⟨⟨begins, forward, ends⟩, insideLater⟩ := inside
    have started : used + (Bytes.slice source used edit.start).length = edit.start := by
      rw [slice_length (Nat.le_trans forward ends), Nat.add_sub_cancel' begins]
    have stopped : edit.start + (Bytes.slice source edit.start edit.stop).length = edit.stop := by
      rw [slice_length ends, Nat.add_sub_cancel' forward]
    have before : ∀ other ∈ edit :: edits,
        used + (Bytes.slice source used edit.start).length ≤ other.start := by
      rw [started, forall_mem_cons]
      exact ⟨Nat.le_refl _, fun other member => Nat.le_of_lt (ordered.1 other member).1⟩
    have later := ih ends ordered.2 fun other member =>
      ⟨(ordered.1 other member).2, (insideLater other member).2⟩
    rw [drop_eq_slice_append begins, drop_eq_slice_append forward, replaced_of_before before, started,
      replaced_cons_of_start stopped fun other member => .inr (ordered.1 other member), splice?,
      range?_eq_some_iff.mpr ⟨begins, Nat.le_trans forward ends, rfl⟩, later, ← append_assoc]
    rfl

/-- However spaced edits are put in order of their starts, they are applied as the source is read. -/
theorem Spaced.splice?_eq (spaced : Spaced source.length edits) (perm : others.Perm edits)
    (sorted : others.Pairwise fun earlier later => earlier.start ≤ later.start) :
    splice? source 0 others = some (replaced edits 0 source) := by
  have ofOthers := spaced.perm perm
  rw [splice?_eq_replaced (Nat.zero_le _) (ofOthers.in_order sorted)
    fun edit member => ⟨Nat.zero_le _, ofOthers.inside edit member⟩, drop_zero,
    replaced_perm spaced.distinct perm]

theorem Spaced.applyAll?_eq (spaced : Spaced source.length edits) (perm : others.Perm edits) :
    applyAll? source others = some (replaced edits 0 source) :=
  spaced.splice?_eq ((mergeSort_perm ..).trans perm) (sort_sorted others)

/-- Edits that come in order are applied as they come. -/
theorem applyAll?_of_pairwise (sorted : edits.Pairwise fun earlier later => earlier.start ≤ later.start) :
    applyAll? source edits = splice? source 0 edits := by
  have ordered : edits.Pairwise fun earlier later => decide (earlier.start ≤ later.start) = true :=
    sorted.imp decide_eq_true
  rw [applyAll?, sort, mergeSort_of_pairwise ordered]

/-! ## The one text that separate edits splice -/

/-- Where a separate edit starts, its text is read and what it covers is passed over. -/
theorem Separate.replaced_of_mem (separate : Separate size edits) (member : edit ∈ edits)
    (extent : edit.start + part.length = edit.stop) :
    replaced edits edit.start (part ++ rest) = edit.text ++ replaced edits edit.stop rest := by
  have perm := perm_cons_erase member
  have distinct := separate.starts_nodup
  have ofCons := separate.spaced.perm perm.symm
  have ⟨differ, _⟩ := nodup_cons.mp ofCons.distinct
  have covers := (separate.inside edit member).1
  rw [← replaced_perm distinct perm.symm, replaced_cons_of_start extent,
    ← replaced_perm distinct perm.symm, replaced_cons_of_past covers (Nat.le_refl _)]
  intro other isOther
  have apart := (pairwise_cons.mp ofCons.apart).1 other isOther
  have ofOther := ofCons.inside other (mem_cons_of_mem _ isOther)
  have notSame : other.start ≠ edit.start := fun same => differ (same ▸ mem_map_of_mem isOther)
  omega

theorem Separate.elsewhere (separate : Separate size edits) (uncovered : ¬Covered edits offset) :
    ∀ edit ∈ edits, edit.start ≠ offset := by
  rintro edit member rfl
  exact uncovered ⟨edit, member, Nat.le_refl _, (separate.inside edit member).1⟩

/-- There is only one way to apply separate edits. -/
theorem Spliced.eq_replaced (separate : Separate size edits)
    (spliced : Spliced edits offset source content)
    (fits : offset + source.length = size) : content = replaced edits offset source := by
  induction spliced with
  | done offset =>
    rw [replaced, textsAt_eq_nil]
    rintro edit member rfl
    have := separate.inside edit member
    rw [length_nil] at fits
    omega
  | keep uncovered later ih =>
    have notCovered : ¬Covered edits _ := fun ⟨edit, member, covers⟩ => uncovered edit member covers
    rw [length_cons] at fits
    rw [replaced, textsAt_eq_nil (separate.elsewhere notCovered), if_neg notCovered, ← ih (by omega)]
    rfl
  | replace member extent later ih =>
    rw [length_append] at fits
    rw [separate.replaced_of_mem member extent, ← ih (by omega)]

/-- Reading from an offset inside of no edit splices the separate edits. -/
theorem Separate.spliced_replaced (separate : Separate size edits) (fits : offset + source.length = size)
    (whole : ∀ edit ∈ edits, edit.start < offset → edit.stop ≤ offset) :
    Spliced edits offset source (replaced edits offset source) := by
  induction length : source.length using Nat.strongRecOn generalizing offset source with
  | ind count ih =>
    by_cases covered : Covered edits offset
    · rcases covered with ⟨edit, member, begins, ends⟩
      have inside := separate.inside edit member
      have := whole edit member
      obtain rfl : edit.start = offset := by omega
      have extent : edit.start + (source.take (edit.stop - edit.start)).length = edit.stop := by
        rw [length_take]
        omega
      rw [← take_append_drop (edit.stop - edit.start) source, separate.replaced_of_mem member extent]
      refine .replace member extent (ih _ ?_ ?_ (fun other isOther earlier => ?_) rfl)
      · rw [length_drop]
        omega
      · rw [length_drop]
        omega
      · rcases separate.eq_or_apart member isOther with rfl | apart
        · exact Nat.le_refl _
        · omega
    · have elsewhere := separate.elsewhere covered
      cases source with
      | nil =>
        rw [replaced, textsAt_eq_nil elsewhere]
        exact .done offset
      | cons code rest =>
        rw [length_cons] at fits length
        rw [replaced, textsAt_eq_nil elsewhere, if_neg covered]
        refine .keep (fun edit member covers => covered ⟨edit, member, covers⟩) ?_
        refine ih _ (by omega) (by omega) (fun edit member earlier => ?_) rfl
        have := whole edit member
        have := elsewhere edit member
        omega

/-- Separate edits have a result, which is the only text that they splice. -/
theorem Separate.applyAll?_eq (separate : Separate source.length edits) :
    ∃ content, applyAll? source edits = some content ∧
      ∀ other, Spliced edits 0 source other ↔ other = content := by
  refine ⟨_, separate.spaced.applyAll?_eq (List.Perm.refl edits), fun other => ⟨fun isOther => ?_, ?_⟩⟩
  · exact isOther.eq_replaced separate (Nat.zero_add _)
  · rintro rfl
    exact separate.spliced_replaced (Nat.zero_add _) fun _ _ before => absurd before (Nat.not_lt_zero _)

/-! ## The order of edits -/

/-- Of the bytes of a source those that no edit covers are left, and the texts of the edits are added. -/
theorem length_of_splice? (forward : ∀ edit ∈ edits, edit.start ≤ edit.stop)
    (spliced : splice? source used edits = some content) :
    ∃ kept, used + (edits.map fun edit => edit.stop - edit.start).sum + kept = source.length ∧
      content.length = kept + (edits.map fun edit => edit.text.length).sum := by
  induction edits generalizing used content with
  | nil =>
    rcases range?_eq_some_iff.mp spliced with ⟨isUsed, _, rfl⟩
    refine ⟨source.length - used, Nat.add_sub_cancel' isUsed, ?_⟩
    rw [slice_length (Nat.le_refl _)]
    rfl
  | cons edit edits ih =>
    rw [forall_mem_cons] at forward
    rcases Option.bind_eq_some_iff.mp spliced with ⟨before, isBefore, spliced⟩
    rcases Option.bind_eq_some_iff.mp spliced with ⟨rest, isRest, whole⟩
    rcases range?_eq_some_iff.mp isBefore with ⟨begins, inside, rfl⟩
    rcases ih forward.2 isRest with ⟨kept, counted, restLength⟩
    cases whole
    have forwardHere := forward.1
    simp only [map_cons, sum_cons, length_append, slice_length inside, restLength]
    exact ⟨edit.start - used + kept, by omega, by omega⟩

/-- Spaced edits are applied without taking a range that is out of bounds, with the same result for
every order in which they are given and for every way to sort them.  The result is the source read from
left to right with the texts of the edits in place of what they cover. -/
theorem edits_are_applied_in_any_order (spaced : Spaced source.length edits) :
    (∀ others, others.Perm edits → applyAll? source others = some (replaced edits 0 source)) ∧
      (∀ others, others.Perm edits → (others.Pairwise fun earlier later => earlier.start ≤ later.start) →
        splice? source 0 others = some (replaced edits 0 source)) ∧
      (edits.map fun edit => edit.stop - edit.start).sum ≤ source.length ∧
      (replaced edits 0 source).length =
        source.length - (edits.map fun edit => edit.stop - edit.start).sum +
          (edits.map fun edit => edit.text.length).sum := by
  refine ⟨fun _ perm => spaced.applyAll?_eq perm, fun _ perm sorted => spaced.splice?_eq perm sorted, ?_⟩
  have perm : (sort edits).Perm edits := mergeSort_perm ..
  have forward : ∀ edit ∈ sort edits, edit.start ≤ edit.stop := fun edit member =>
    (spaced.inside edit (perm.subset member)).1
  rcases length_of_splice? forward (spaced.applyAll?_eq (List.Perm.refl edits)) with
    ⟨kept, counted, length⟩
  rw [(perm.map _).sum_nat] at counted length
  omega

/-- Edits that touch each other, two of which cover nothing. -/
def touchingEdits : List Edit :=
  [⟨4, 6, "Z"⟩, ⟨2, 2, "++"⟩, ⟨6, 6, "!"⟩, ⟨0, 2, "x"⟩]

theorem touching_edits_are_applied_in_any_order :
    Spaced 6 touchingEdits ∧
      (∀ others, others.Perm touchingEdits → applyAll? "abcdef" others = some "x++cdZ!") ∧
      ("x++cdZ!" : Bytes).length = 6 - 4 + 5 := by
  have spaced : Spaced ("abcdef" : Bytes).length touchingEdits :=
    ⟨by decide +kernel, by decide +kernel, by decide +kernel⟩
  have read : replaced touchingEdits 0 "abcdef" = "x++cdZ!" := by decide +kernel
  have applied := edits_are_applied_in_any_order spaced
  rw [read] at applied
  exact ⟨spaced, applied.1, applied.2.2.2⟩

end Edit
end CaseExpansion
