import CaseExpansion.Text.Path
import Mathlib.Data.List.Basic

namespace CaseExpansion

open List

/-!
# Elements of paths

A path is its elements with a slash between them, and its directory is what its
elements but the last one lead to.  Cleaning goes through the elements and keeps a
stack of those that are left.  The stack is in a form that cleaning does not change
any more, so that the path written from it leads back to it.
-/

namespace Bytes

variable {separator : UInt8}

theorem splitOn_ne_nil (separator : UInt8) (text : Bytes) : splitOn separator text ≠ [] := by
  cases text with
  | nil => simp [splitOn]
  | cons head text =>
    rw [splitOn]
    split
    · simp
    · split <;> simp

/-- The pieces of a text with a separator in it are those before it and those after it. -/
theorem splitOn_append (text rest : Bytes) :
    splitOn separator (text ++ separator :: rest) =
      splitOn separator text ++ splitOn separator rest := by
  induction text with
  | nil =>
    obtain ⟨piece, pieces, found⟩ := exists_cons_of_ne_nil (splitOn_ne_nil separator rest)
    simp [splitOn, found]
  | cons head text ih =>
    obtain ⟨piece, pieces, found⟩ := exists_cons_of_ne_nil (splitOn_ne_nil separator text)
    rw [cons_append, splitOn, ih, splitOn, found]
    simp only [cons_append]
    split <;> rfl

theorem splitOn_of_notMem {text : Bytes} (absent : separator ∉ text) :
    splitOn separator text = [text] := by
  induction text with
  | nil => rfl
  | cons head text ih =>
    rw [mem_cons, not_or] at absent
    rw [splitOn, ih absent.2]
    exact if_neg (Ne.symm absent.1)

/-- Pieces without separators are found again between the separators. -/
theorem splitOn_joinWith {pieces : List Bytes} (some : pieces ≠ [])
    (absent : ∀ piece ∈ pieces, separator ∉ piece) :
    splitOn separator (joinWith [separator] pieces) = pieces := by
  induction pieces with
  | nil => exact absurd rfl some
  | cons piece rest ih =>
    have first := splitOn_of_notMem (absent piece mem_cons_self)
    cases rest with
    | nil => exact first
    | cons next rest =>
      have later := ih (cons_ne_nil _ _) fun other member => absent other (mem_cons_of_mem _ member)
      rw [joinWith, append_assoc, singleton_append, splitOn_append, first, later,
        singleton_append]
      simp

theorem mem_of_mem_splitOn {text piece : Bytes} (member : piece ∈ splitOn separator text) {code : UInt8}
    (within : code ∈ piece) : code ∈ text ∧ code ≠ separator := by
  induction text generalizing piece with
  | nil =>
    rw [splitOn, mem_singleton] at member
    rw [member] at within
    cases within
  | cons head text ih =>
    obtain ⟨first, pieces, found⟩ := exists_cons_of_ne_nil (splitOn_ne_nil separator text)
    have earlier : ∀ other ∈ first :: pieces, code ∈ other → code ∈ text ∧ code ≠ separator := by
      intro other among within
      exact ih (found ▸ among) within
    rw [splitOn, found] at member
    dsimp only at member
    split at member
    · rcases mem_cons.1 member with rfl | member
      · cases within
      · have known := earlier piece member within
        exact ⟨mem_cons_of_mem _ known.1, known.2⟩
    · rename_i different
      rcases mem_cons.1 member with rfl | member
      · rcases mem_cons.1 within with rfl | within
        · exact ⟨mem_cons_self, different⟩
        · have known := earlier first mem_cons_self within
          exact ⟨mem_cons_of_mem _ known.1, known.2⟩
      · have known := earlier piece (mem_cons_of_mem _ member) within
        exact ⟨mem_cons_of_mem _ known.1, known.2⟩

theorem head?_joinWith {separator piece : Bytes} (some : piece ≠ []) (pieces : List Bytes) :
    (joinWith separator (piece :: pieces)).head? = piece.head? := by
  obtain ⟨code, rest, rfl⟩ := exists_cons_of_ne_nil some
  cases pieces <;> rfl

theorem mem_joinWith {pieces : List Bytes} {code : UInt8} (member : code ∈ joinWith [separator] pieces) :
    code = separator ∨ ∃ piece ∈ pieces, code ∈ piece := by
  induction pieces with
  | nil => cases member
  | cons piece rest ih =>
    cases rest with
    | nil => exact .inr ⟨piece, mem_cons_self, member⟩
    | cons next rest =>
      rw [joinWith, mem_append, mem_append, mem_singleton] at member
      · rcases member with (member | isSeparator) | member
        · exact .inr ⟨piece, mem_cons_self, member⟩
        · exact .inl isSeparator
        · rcases ih member with isSeparator | ⟨other, among, within⟩
          · exact .inl isSeparator
          · exact .inr ⟨other, mem_cons_of_mem _ among, within⟩
      · simp

end Bytes

namespace Path

theorem split_of_notMem {path : Bytes} (absent : slash ∉ path) : split path = ([], path) := by
  have none : path.reverse.findIdx? (· == slash) = none := by
    rw [findIdx?_eq_none_iff]
    intro code member
    rw [beq_eq_false_iff_ne]
    rintro rfl
    exact absent (mem_reverse.1 member)
  rw [split, Bytes.lastIndexOf?, none]
  rfl

theorem split_append {name : Bytes} (absent : slash ∉ name) (stem : Bytes) :
    split (stem ++ slash :: name) = (stem ++ [slash], name) := by
  have found : (stem ++ slash :: name).reverse.findIdx? (· == slash) = some name.length := by
    rw [findIdx?_eq_some_iff_getElem]
    refine ⟨by simp, by simp, ?_⟩
    intro index below
    have bound : index < name.reverse.length := by simpa using below
    have inside : name.reverse[index] ∈ name := mem_reverse.1 (getElem_mem bound)
    simp only [reverse_append, reverse_cons, append_assoc, singleton_append]
    rw [getElem_append_left bound]
    intro isSlash
    rw [beq_iff_eq] at isSlash
    exact absent (isSlash ▸ inside)
  rw [split, Bytes.lastIndexOf?, found]
  have length : (stem ++ slash :: name).length - 1 - name.length + 1 = (stem ++ [slash]).length := by
    simp
  have parts : stem ++ slash :: name = (stem ++ [slash]) ++ name := by simp
  dsimp only [Option.map_some]
  rw [length, parts, take_left, drop_left]

/-- A path ends in a name, and what is before that name is empty or ends in a slash. -/
theorem exists_split (path : Bytes) :
    slash ∉ path ∨ ∃ stem name, path = stem ++ slash :: name ∧ slash ∉ name := by
  by_cases member : slash ∈ path
  · obtain ⟨name, stem, parts, absent⟩ := eq_append_cons_of_mem (mem_reverse.2 member)
    refine .inr ⟨stem.reverse, name.reverse, ?_, fun within => absent (mem_reverse.1 within)⟩
    rw [← reverse_reverse path, parts]
    simp
  · exact .inl member

/-- An ending without a slash belongs to the name. -/
theorem split_append_of_notMem {ending : Bytes} (absent : slash ∉ ending) (stem : Bytes) :
    split (stem ++ ending) = ((split stem).1, (split stem).2 ++ ending) := by
  rcases exists_split stem with noSlash | ⟨directory, name, rfl, noSlash⟩
  · have none : slash ∉ stem ++ ending := by
      rw [mem_append, not_or]
      exact ⟨noSlash, absent⟩
    rw [split_of_notMem none, split_of_notMem noSlash]
  · have none : slash ∉ name ++ ending := by
      rw [mem_append, not_or]
      exact ⟨noSlash, absent⟩
    rw [append_assoc, cons_append, split_append none, split_append noSlash]

/-! ## The stack of elements -/

/-- Elements, last first, that adding them one after the other gives back. -/
def Canonical (rooted : Bool) : List Bytes → Prop
  | [] => True
  | element :: before =>
    element ≠ [] ∧ slash ∉ element ∧ addElement rooted before element = element :: before ∧
      Canonical rooted before

/-- Adding an element leaves the elements before, takes the last one away, or puts the
element on top of them. -/
theorem addElement_cases (rooted : Bool) (before : List Bytes) (element : Bytes) :
    addElement rooted before element = before ∨ addElement rooted before element = before.tail ∨
      element ≠ [] ∧ addElement rooted before element = element :: before := by
  unfold addElement
  split
  · exact .inl rfl
  · rename_i present
    have nonempty : element ≠ [] := by
      rintro rfl
      exact present rfl
    split
    · cases before with
      | nil =>
        cases rooted with
        | true => exact .inl rfl
        | false => exact .inr (.inr ⟨nonempty, rfl⟩)
      | cons last rest =>
        dsimp only
        split
        · exact .inr (.inr ⟨nonempty, rfl⟩)
        · exact .inr (.inl rfl)
    · exact .inr (.inr ⟨nonempty, rfl⟩)

theorem Canonical.tail {rooted : Bool} {reached : List Bytes} (canonical : Canonical rooted reached) :
    Canonical rooted reached.tail := by
  cases reached with
  | nil => exact canonical
  | cons element before => exact canonical.2.2.2

theorem Canonical.addElement {rooted : Bool} {before : List Bytes} (canonical : Canonical rooted before)
    {element : Bytes} (absent : slash ∉ element) :
    Canonical rooted (addElement rooted before element) := by
  rcases addElement_cases rooted before element with same | fewer | ⟨nonempty, added⟩
  · rwa [same]
  · rw [fewer]
    exact canonical.tail
  · rw [added]
    exact ⟨nonempty, absent, added, canonical⟩

theorem Canonical.of_mem {rooted : Bool} {reached : List Bytes} (canonical : Canonical rooted reached)
    {element : Bytes} (member : element ∈ reached) : element ≠ [] ∧ slash ∉ element := by
  induction reached with
  | nil => cases member
  | cons last before ih =>
    rcases mem_cons.1 member with rfl | member
    · exact ⟨canonical.1, canonical.2.1⟩
    · exact ih canonical.2.2.2 member

end Path
end CaseExpansion
