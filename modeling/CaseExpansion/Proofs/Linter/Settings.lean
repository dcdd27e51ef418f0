import CaseExpansion.Linter.Settings
import CaseExpansion.Proofs.Selection
import Mathlib.Data.List.Perm.Basic

namespace CaseExpansion
namespace Linter

open List

/-!
# Applying the settings of the linter

The settings of the linter are a map, so that no name occurs twice and the entries are met
in any order.  Whether they can be applied does not depend on the order.  What is left of
them after a failure does: entries are applied up to the first that fails, and nothing is
taken back.  As the linter has one flag, all that can be left is the effect of an entry for
that flag which comes first.
-/

variable {current : Bool} {config : Config} {texts order : List (Bytes × Bytes)}

/-- The names that a section has entries for. -/
def Config.names : Config → List Bytes
  | entries named => named.map Prod.fst
  | absent | value _ => []

/-- The texts of a section stand under the names of its entries. -/
theorem Config.map_fst_texts (accepted : config.texts = .ok texts) :
    texts.map Prod.fst = config.names := by
  cases config with
  | absent =>
    cases accepted
    rfl
  | value found => cases accepted
  | entries named =>
    change _ = named.map Prod.fst
    rw [eq_comm, ← forall₂_eq_eq_eq, forall₂_map_left_iff, forall₂_map_right_iff]
    apply (mapM_eq_ok accepted).imp
    rintro ⟨name, found⟩ text isText
    cases found <;> cases isText
    rfl

/-! ## One entry -/

theorem setFlag_lateFlag (current : Bool) (value : Bytes) :
    setFlag current lateFlag value =
      ((truthValue? value).getD false, if (truthValue? value).isSome then none else some
        .notTruthValue) := by
  unfold setFlag
  cases truthValue? value <;> simp

theorem setFlag_of_ne {name : Bytes} (other : name ≠ lateFlag) (current : Bool) (value : Bytes) :
    setFlag current name value = (current, some (.unknown name)) := by
  simp [setFlag, other]

/-- An entry can be applied if it is for the flag of the linter and gives a truth value. -/
theorem setFlag_snd_eq_none_iff (current : Bool) (name value : Bytes) :
    (setFlag current name value).2 = none ↔ name = lateFlag ∧ (truthValue? value).isSome = true := by
  by_cases known : name = lateFlag
  · rw [known, setFlag_lateFlag]
    cases truthValue? value <;> simp
  · rw [setFlag_of_ne known]
    simp [known]

/-! ## All entries -/

theorem applyTexts_cons (current : Bool) (name value : Bytes) (rest : List (Bytes × Bytes)) :
    applyTexts current ((name, value) :: rest) =
      (setFlag current name value).2.elim (applyTexts (setFlag current name value).1 rest) fun error =>
        ((setFlag current name value).1, some (.rejected name value error)) := by
  rw [applyTexts]
  rcases setFlag current name value with ⟨after, _ | error⟩ <;> rfl

/-- Entries can be applied together if each of them can. -/
theorem applyTexts_snd_eq_none_iff (current : Bool) (order : List (Bytes × Bytes)) :
    (applyTexts current order).2 = none ↔
      ∀ entry ∈ order, entry.1 = lateFlag ∧ (truthValue? entry.2).isSome = true := by
  induction order generalizing current with
  | nil => simp [applyTexts]
  | cons entry rest ih =>
    obtain ⟨name, value⟩ := entry
    rw [applyTexts_cons, forall_mem_cons, ← setFlag_snd_eq_none_iff current name value]
    cases (setFlag current name value).2 with
    | none => simp [ih]
    | some error => simp

/-- An entry that is not for the flag ends everything when it comes first. -/
theorem applyTexts_fst_of_other (other : ∀ value rest, order ≠ (lateFlag, value) :: rest)
    (current : Bool) : (applyTexts current order).1 = current := by
  cases order with
  | nil => rfl
  | cons entry rest =>
    obtain ⟨name, value⟩ := entry
    have unknown : name ≠ lateFlag := by
      rintro rfl
      exact other value rest rfl
    rw [applyTexts_cons, setFlag_of_ne unknown]
    rfl

/-- An entry for the flag that comes first decides about it, also if it cannot be applied. -/
theorem applyTexts_fst_of_first {value : Bytes} {rest : List (Bytes × Bytes)}
    (distinct : (((lateFlag, value) :: rest).map Prod.fst).Nodup) (current : Bool) :
    (applyTexts current ((lateFlag, value) :: rest)).1 = (truthValue? value).getD false := by
  rw [applyTexts_cons, setFlag_lateFlag]
  cases truthValue? value with
  | none => rfl
  | some truth =>
    apply applyTexts_fst_of_other
    rintro again later rfl
    exact (nodup_cons.mp distinct).1 mem_cons_self

/-- Settings are applied as a whole or up to the first entry that fails.  They can be applied,
in every order, exactly if each entry gives a truth value for the flag of the linter, and
then the flag has that value, or the one from before if there is no entry.  If they cannot
be applied, the flag keeps its value, unless the entry for it comes first: then it has the
value of that entry, which is false for a text that is no truth value. -/
theorem settings_are_applied_until_failure (accepted : config.texts = .ok texts)
    (distinct : config.names.Nodup) (current : Bool) (anyOrder : order.Perm texts) :
    ((applyTexts current order).2 = none ↔
      ∀ entry ∈ texts, entry.1 = lateFlag ∧ (truthValue? entry.2).isSome = true) ∧
    ((applyTexts current order).2 = none →
      (∀ value, (lateFlag, value) ∈ texts → truthValue? value = some (applyTexts current order).1) ∧
      (lateFlag ∉ config.names → (applyTexts current order).1 = current)) ∧
    ((applyTexts current order).2 ≠ none →
      (∀ value rest, order = (lateFlag, value) :: rest →
        (applyTexts current order).1 = (truthValue? value).getD false) ∧
      ((∀ value rest, order ≠ (lateFlag, value) :: rest) → (applyTexts current order).1 = current)) := by
  have names : (order.map Prod.fst).Perm config.names := by
    rw [← Config.map_fst_texts accepted]
    exact anyOrder.map _
  have distinctOrder : (order.map Prod.fst).Nodup := names.nodup_iff.mpr distinct
  have succeeds : (applyTexts current order).2 = none ↔
      ∀ entry ∈ texts, entry.1 = lateFlag ∧ (truthValue? entry.2).isSome = true := by
    rw [applyTexts_snd_eq_none_iff]
    simp only [anyOrder.mem_iff]
  have first : ∀ value rest, order = (lateFlag, value) :: rest →
      (applyTexts current order).1 = (truthValue? value).getD false := by
    rintro value rest rfl
    exact applyTexts_fst_of_first distinctOrder current
  refine ⟨succeeds, fun success => ⟨?_, ?_⟩,
    fun _ => ⟨first, fun other => applyTexts_fst_of_other other current⟩⟩
  · intro value member
    have valid := succeeds.mp success
    -- All entries are for the flag, so that the one in question comes first.
    cases order with
    | nil => cases anyOrder.mem_iff.mpr member
    | cons entry rest =>
      obtain ⟨name, given⟩ := entry
      obtain ⟨rfl, isTruth⟩ : name = lateFlag ∧ (truthValue? given).isSome = true :=
        valid _ (anyOrder.mem_iff.mp mem_cons_self)
      have same : value = given := by
        rcases mem_cons.mp (anyOrder.mem_iff.mpr member) with same | later
        · exact congrArg Prod.snd same
        · have absent := (nodup_cons.mp distinctOrder).1
          exact absurd (mem_map_of_mem (f := Prod.fst) later) absent
      obtain ⟨truth, isValue⟩ := Option.isSome_iff_exists.mp isTruth
      rw [first given rest rfl, same, isValue]
      rfl
  · intro absent
    apply applyTexts_fst_of_other
    rintro value rest rfl
    exact absent (names.mem_iff.mp mem_cons_self)

/-- Settings with a text that is no truth value, and settings with a name that is not known. -/
def unclearConfig : Config :=
  .entries [("misordered", .text "maybe")]

def foreignConfig : Config :=
  .entries [("misordered", .text "false"), ("invalid", .text "123")]

/-- Settings that fail change the flag: with a text that is no truth value, and in one of
two orders with a name that is not known. -/
theorem failed_settings_change_flag :
    (∃ texts, unclearConfig.texts = .ok texts ∧ unclearConfig.names.Nodup ∧
      (applyTexts true texts).2 ≠ none ∧ (applyTexts true texts).1 = false) ∧
    ∃ texts, foreignConfig.texts = .ok texts ∧ foreignConfig.names.Nodup ∧
      (applyTexts true texts).2 ≠ none ∧ (applyTexts true texts).1 = false ∧
      (applyTexts true texts.reverse).2 ≠ none ∧ (applyTexts true texts.reverse).1 = true := by
  constructor
  · refine ⟨[("misordered", "maybe")], ?_⟩
    decide +kernel
  · refine ⟨[("misordered", "false"), ("invalid", "123")], ?_⟩
    decide +kernel

theorem foreign_settings_are_applied_until_failure :
    foreignConfig.texts = .ok [("misordered", "false"), ("invalid", "123")] ∧ foreignConfig.names.Nodup ∧
    (applyTexts true [("misordered", "false"), ("invalid", "123")]).2 ≠ none ∧
    (applyTexts true [("misordered", "false"), ("invalid", "123")]).1 = false := by
  have accepted : foreignConfig.texts = .ok [("misordered", "false"), ("invalid", "123")] :=
    by decide +kernel
  have distinct : foreignConfig.names.Nodup := by decide +kernel
  have fails : (applyTexts true [("misordered", "false"), ("invalid", "123")]).2 ≠ none :=
    by decide +kernel
  have applied := settings_are_applied_until_failure accepted distinct true (List.Perm.refl _)
  exact ⟨accepted, distinct, fails, (applied.2.2 fails).1 "false" [("invalid", "123")] rfl⟩

end Linter
end CaseExpansion
