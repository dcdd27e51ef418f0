import CaseExpansion.Proofs.Template.Expanding

namespace CaseExpansion

open List Source

/-!
# Templates without their places

Templates, cases and parameters remember where they stand, for the sake of messages.
Nothing else depends on it: a template whose places are wiped out is accepted or
refused as before, and gives the same namespace with its places wiped out.
-/

/-! ## Wiping out places -/

namespace Case

def unplaced (case : Case) : Case :=
  { case with position := {} }

end Case

namespace CaseDirectories

def unplaced (several : CaseDirectories) : CaseDirectories :=
  { several with position := {} }

end CaseDirectories

namespace Param

def unplaced (param : Param) : Param :=
  { param with position := {} }

end Param

namespace Binding

def unplaced (binding : Binding) : Binding :=
  { binding with param := binding.param.unplaced }

end Binding

namespace Function

def unplaced (function : Function) : Function :=
  { function with case := function.case.unplaced, bindings := function.bindings.map Binding.unplaced }

end Function

namespace Namespace

def unplaced (space : Namespace) : Namespace :=
  { space with functions := space.functions.map Function.unplaced }

end Namespace

namespace Template

def unplaced (template : Template) : Template :=
  { template with
    cases := template.cases.map Case.unplaced
    directories := template.directories.map CaseDirectories.unplaced
    params := template.params.map Param.unplaced
    position := {}
    misordered := [] }

end Template

/-! ## Expansion -/

theorem toOption_bind {ε α β : Type} (first : Except ε α) (next : α → Except ε β) :
    (first >>= next).toOption = first.toOption.bind fun value => (next value).toOption := by
  cases first <;> rfl

namespace Template

variable (template : Template)

theorem unusedNames_unplaced (bindings : List Binding) :
    template.unplaced.unusedNames (bindings.map Binding.unplaced) = template.unusedNames bindings := by
  rw [unusedNames, map_map]
  rfl

theorem bind_unplaced (case : Case) (params : List Param) :
    (case.unplaced.bind (params.map Param.unplaced)).toOption =
      (case.bind params).toOption.map (List.map Binding.unplaced) := by
  have bindings : List.zipWith Binding.mk (params.map Param.unplaced) case.arguments =
      (List.zipWith Binding.mk params case.arguments).map Binding.unplaced := by
    rw [zipWith_map_left, map_zipWith]
    rfl
  unfold Case.bind
  rw [length_map, show case.unplaced.arguments = case.arguments from rfl]
  split
  · rfl
  · exact congrArg some bindings

theorem instantiate_unplaced (case : Case) :
    (template.unplaced.instantiate case.unplaced).toOption =
      (template.instantiate case).toOption.map Function.unplaced := by
  unfold instantiate
  rw [toOption_bind, toOption_bind, Option.map_bind]
  rw [show template.unplaced.params = template.params.map Param.unplaced from rfl, bind_unplaced,
    Option.bind_map]
  congr 1
  funext bindings
  dsimp only [Function.comp_apply, Case.unplaced]
  split
  · rw [unusedNames_unplaced]
    rfl
  · rfl

theorem acceptCase_unplaced (accepted : List Function) (case : Case) :
    (template.unplaced.acceptCase (accepted.map Function.unplaced) case.unplaced).toOption =
      (template.acceptCase accepted case).toOption.map Function.unplaced := by
  unfold acceptCase
  rw [toOption_bind, toOption_bind, Option.map_bind, instantiate_unplaced, Option.bind_map]
  congr 1
  funext function
  dsimp only [Function.comp_apply]
  rw [show function.unplaced.ident = function.ident from rfl, find?_map]
  split
  · rfl
  · have same : ((fun earlier : Function => earlier.ident == function.ident) ∘ Function.unplaced) =
        fun earlier => earlier.ident == function.ident := rfl
    rw [same]
    cases accepted.find? fun earlier => earlier.ident == function.ident with
    | none => rfl
    | some earlier => rfl

theorem expandCases_unplaced (accepted : List Function) (cases : List Case) :
    (template.unplaced.expandCases (accepted.map Function.unplaced) (cases.map Case.unplaced)).1 =
        (template.expandCases accepted cases).1.map Function.unplaced ∧
      ((template.unplaced.expandCases (accepted.map Function.unplaced) (cases.map Case.unplaced)).2 = [] ↔
        (template.expandCases accepted cases).2 = []) := by
  induction cases generalizing accepted with
  | nil => exact ⟨rfl, Iff.rfl⟩
  | cons case cases ih =>
    have same := template.acceptCase_unplaced accepted case
    rw [map_cons, expandCases, expandCases]
    cases placed : template.acceptCase accepted case with
    | error error =>
      cases unplaced : template.unplaced.acceptCase (accepted.map Function.unplaced) case.unplaced with
      | error other => exact ⟨(ih accepted).1, by simp⟩
      | ok function =>
        rw [placed, unplaced] at same
        cases same
    | ok function =>
      cases unplaced : template.unplaced.acceptCase (accepted.map Function.unplaced) case.unplaced with
      | error other =>
        rw [placed, unplaced] at same
        cases same
      | ok other =>
        rw [placed, unplaced] at same
        cases Option.some.inj same
        have step := ih (accepted ++ [function])
        rw [map_append] at step
        exact step

/-- Wiping out places does not change whether a template is expanded, and to what. -/
theorem expand_unplaced :
    template.unplaced.expand.toOption = template.expand.toOption.map Namespace.unplaced := by
  have same := template.expandCases_unplaced [] template.cases
  unfold expand
  rw [show template.unplaced.cases = template.cases.map Case.unplaced from rfl]
  rcases placed : template.expandCases [] template.cases with ⟨functions, errors⟩
  rcases unplaced : template.unplaced.expandCases [] (template.cases.map Case.unplaced) with
    ⟨others, otherErrors⟩
  rw [map_nil, placed, unplaced] at same
  rcases same with ⟨rfl, none⟩
  cases errors with
  | nil =>
    cases none.mpr rfl
    rfl
  | cons error errors =>
    cases otherErrors with
    | nil => cases none.mp rfl
    | cons other otherErrors => rfl

end Template

/-! ## Directories -/

/-- Outcomes that agree up to changes of the results have the same results up to these
changes, and both have errors or none has. -/
theorem outcomes_of_same {α β γ : Type} {change : α → γ} {otherChange : β → γ}
    {results : List (Except Error α)} {others : List (Except Error β)}
    (same : results.map (fun result => result.toOption.map change) =
      others.map fun result => result.toOption.map otherChange) :
    (outcomes results).1.map change = (outcomes others).1.map otherChange ∧
      ((outcomes results).2 = [] ↔ (outcomes others).2 = []) := by
  induction results generalizing others with
  | nil =>
    cases map_eq_nil_iff.mp same.symm
    exact ⟨rfl, Iff.rfl⟩
  | cons result results ih =>
    rcases map_eq_cons_iff.mp same.symm with ⟨other, later, rfl, sameFirst, sameLater⟩
    have step := ih sameLater.symm
    cases result with
    | ok value =>
      cases other with
      | error error => cases sameFirst
      | ok otherValue =>
        refine ⟨?_, step.2⟩
        exact congrArg₂ List.cons (Option.some.inj sameFirst).symm step.1
    | error error =>
      cases other with
      | ok otherValue => cases sameFirst
      | error otherError => exact ⟨step.1, iff_of_false nofun nofun⟩

namespace CaseDirectories

theorem readDirectory_unplaced (files : FileSystem) (position : Position) (directory : Bytes) :
    (readDirectory files {} directory).map (fun result => result.toOption.map id) =
      (readDirectory files position directory).map fun result => result.toOption.map Case.unplaced := by
  unfold readDirectory
  dsimp only
  split
  · rfl
  · split
    · rfl
    · rw [map_map, map_map]
      refine map_congr_left fun entry _ => ?_
      dsimp only [Function.comp_apply, readFile]
      split <;> rfl

theorem readAll_unplaced (files : FileSystem) (several : CaseDirectories) :
    (several.unplaced.readAll files).map (fun result => result.toOption.map id) =
      (several.readAll files).map fun result => result.toOption.map Case.unplaced := by
  unfold readAll
  rw [map_flatMap, map_flatMap]
  exact flatMap_congr fun directory _ => readDirectory_unplaced files _ directory

end CaseDirectories

namespace Template

/-- Wiping out places does not change which cases are loaded. -/
theorem loadDirectories_unplaced (template : Template) (files : FileSystem) :
    (template.unplaced.loadDirectories files).1 = (template.loadDirectories files).1.unplaced ∧
      ((template.unplaced.loadDirectories files).2 = [] ↔ (template.loadDirectories files).2 = []) := by
  have sameResults :
      (template.unplaced.directories.flatMap (CaseDirectories.readAll files)).map
          (fun result => result.toOption.map id) =
        (template.directories.flatMap (CaseDirectories.readAll files)).map
          fun result => result.toOption.map Case.unplaced := by
    rw [map_flatMap, map_flatMap, unplaced, flatMap_map]
    exact flatMap_congr fun several _ => several.readAll_unplaced files
  rcases outcomes_of_same sameResults with ⟨sameCases, sameErrors⟩
  rw [loadDirectories_eq_outcomes, loadDirectories_eq_outcomes]
  dsimp only
  rw [Error.sort_eq_nil_iff, Error.sort_eq_nil_iff]
  refine ⟨?_, sameErrors⟩
  rw [map_id] at sameCases
  rw [sameCases]
  simp only [unplaced, map_append]

/-- The namespace that a template expands to, with the cases of its directories. -/
def space? (files : FileSystem) (template : Template) : Option Namespace :=
  if (template.loadDirectories files).2 = [] then (template.loadDirectories files).1.expand.toOption
  else none

theorem space?_unplaced (files : FileSystem) (template : Template) :
    template.unplaced.space? files = (template.space? files).map Namespace.unplaced := by
  rcases template.loadDirectories_unplaced files with ⟨sameTemplate, sameErrors⟩
  unfold space?
  rw [sameTemplate]
  simp only [sameErrors]
  split
  · exact expand_unplaced _
  · rfl

end Template
end CaseExpansion
