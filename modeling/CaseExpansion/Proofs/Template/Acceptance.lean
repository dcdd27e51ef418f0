import CaseExpansion.Proofs.Template.Expanding

namespace CaseExpansion

open List

/-!
# Which cases are accepted

Cases are accepted or rejected one after the other, and whether a case collides with
an earlier one depends on what became of that one.  The verdict can be given without
following the scan, however.  A case is fit if nothing is wrong with it on its own.
Of the fit cases with one identifier the first is accepted and all others are rejected,
with the first one named.  So the verdict on a case depends only on the fit cases before
it (`Template.problem?`), and a template expands exactly if all its cases are fit and
their identifiers differ.
-/

/-- The identifier of the function for a case. -/
def Case.ident (case : Case) : Bytes :=
  Identifier.ofName case.name

namespace Template

variable {template : Template}

/-- Nothing is wrong with a case on its own: it has an argument for each parameter, and
its name gives an identifier that a function may have. -/
def IsFit (template : Template) (case : Case) : Prop :=
  case.arguments.length = template.params.length ∧
    case.ident ≠ [] ∧ case.ident ≠ [byte '_'] ∧ case.ident ≠ listMethod

instance (template : Template) (case : Case) : Decidable (template.IsFit case) :=
  inferInstanceAs (Decidable (_ ∧ _ ∧ _ ∧ _))

/-- The case that takes an identifier: the first fit one among the given cases. -/
def holder? (template : Template) (cases : List Case) (ident : Bytes) : Option Case :=
  cases.find? fun case => decide (template.IsFit case) && case.ident == ident

/-- The reason for which a case is rejected after the cases before it.  The number of
arguments counts before the name, and both count before collisions. -/
def problem? (template : Template) (before : List Case) (case : Case) : Option Problem :=
  if case.arguments.length ≠ template.params.length then
    some (.wrongArgumentCount case.name case.arguments.length template.params.length)
  else if case.ident = [] ∨ case.ident = [byte '_'] then some (.unusableName case.name)
  else if case.ident = listMethod then some (.listsCases case.name template.name case.ident)
  else (template.holder? before case.ident).map fun first =>
    .sameIdent first.name case.name template.name case.ident

/-- The errors of cases after others: one for each case that is rejected, at its place. -/
def rejections (template : Template) (before : List Case) : List Case → List Error
  | [] => []
  | case :: cases =>
    ((template.problem? before case).map (Error.mk case.position)).toList ++
      template.rejections (before ++ [case]) cases

/-! ## The verdict on one case -/

variable {case : Case} {before cases : List Case} {accepted : List Function}

theorem problem?_of_isFit (before : List Case) (fit : template.IsFit case) :
    template.problem? before case = (template.holder? before case.ident).map fun first =>
      .sameIdent first.name case.name template.name case.ident := by
  obtain ⟨count, nonempty, named, free⟩ := fit
  simp [problem?, count, nonempty, named, free]

/-- A case that is not fit is rejected, whatever stands before it. -/
theorem problem?_of_not_isFit (before : List Case) (unfit : ¬template.IsFit case) :
    ∃ problem, template.problem? before case = some problem := by
  unfold problem?
  by_cases count : case.arguments.length = template.params.length
  · rw [if_neg (not_not.mpr count)]
    by_cases unusable : case.ident = [] ∨ case.ident = [byte '_']
    · rw [if_pos unusable]
      exact ⟨_, rfl⟩
    · rw [if_neg unusable]
      rw [not_or] at unusable
      by_cases listing : case.ident = listMethod
      · rw [if_pos listing]
        exact ⟨_, rfl⟩
      · exact absurd ⟨count, unusable.1, unusable.2, listing⟩ unfit
  · rw [if_pos count]
    exact ⟨_, rfl⟩

/-- A case is accepted exactly if it is fit and no fit case before it has its identifier. -/
theorem problem?_eq_none_iff : template.problem? before case = none ↔
      template.IsFit case ∧ template.holder? before case.ident = none := by
  by_cases fit : template.IsFit case
  · rw [problem?_of_isFit before fit, Option.map_eq_none_iff]
    simp [fit]
  · obtain ⟨problem, rejected⟩ := problem?_of_not_isFit before fit
    simp [rejected, fit]

theorem holder?_eq_none_iff {ident : Bytes} :
    template.holder? cases ident = none ↔ ∀ case ∈ cases, template.IsFit case → case.ident ≠ ident := by
  simp [holder?]

/-- The case that takes an identifier is the one that is accepted with it. -/
theorem holder?_eq_some_iff {ident : Bytes} {first : Case} : template.holder? cases ident = some first ↔
      ∃ before after, cases = before ++ first :: after ∧ first.ident = ident ∧
        template.problem? before first = none := by
  unfold holder?
  rw [find?_eq_some_iff_append]
  constructor
  · rintro ⟨holds, before, after, rfl, noneBefore⟩
    rw [Bool.and_eq_true, decide_eq_true_eq, beq_iff_eq] at holds
    refine ⟨before, after, rfl, holds.2, problem?_eq_none_iff.mpr ⟨holds.1, ?_⟩⟩
    rw [holder?_eq_none_iff]
    intro case member fit same
    have refused := noneBefore case member
    simp [fit, same, holds.2] at refused
  · rintro ⟨before, after, rfl, rfl, accepted⟩
    obtain ⟨fit, noneBefore⟩ := problem?_eq_none_iff.mp accepted
    rw [holder?_eq_none_iff] at noneBefore
    refine ⟨by simp [fit], before, after, rfl, ?_⟩
    intro case member
    by_cases fits : template.IsFit case
    · simp [noneBefore case member fits]
    · simp [fits]

theorem holder?_append_singleton (before : List Case) (case : Case) (ident : Bytes) :
    template.holder? (before ++ [case]) ident = (template.holder? before ident).or
      (if template.IsFit case ∧ case.ident = ident then some case else none) := by
  unfold holder?
  rw [find?_append, find?_singleton]
  simp

/-! ## The scan -/

/-- The function for a case that is accepted. -/
def functionFor (template : Template) (case : Case) : Function where
  ident := case.ident
  case := case
  bindings := List.zipWith Binding.mk template.params case.arguments
  unused := template.unusedNames (List.zipWith Binding.mk template.params case.arguments)

theorem instantiate_eq (template : Template) (case : Case) :
    template.instantiate case =
      if case.arguments.length ≠ template.params.length then
        .error ⟨case.position,
          .wrongArgumentCount case.name case.arguments.length template.params.length⟩
      else if case.ident = [] ∨ case.ident = [byte '_'] then .error
        ⟨case.position, .unusableName case.name⟩
      else .ok (template.functionFor case) := by
  have usable : Identifier.isUsable (Identifier.ofName case.name) = true ↔
      ¬(case.ident = [] ∨ case.ident = [byte '_']) := by
    simp [Identifier.isUsable, Case.ident]
  unfold instantiate Case.bind
  by_cases count : case.arguments.length = template.params.length
  · by_cases unusable : case.ident = [] ∨ case.ident = [byte '_']
    · simp [count, usable, unusable, bind, Except.bind, throw, throwThe, MonadExceptOf.throw]
    · simp only [count, usable, unusable, ne_eq, not_true_eq_false, not_false_eq_true, if_false, if_true,
        bind, Except.bind]
      rfl
  · simp [count, bind, Except.bind]

theorem acceptCase_of_instantiate_eq_error {error : Error}
    (refused : template.instantiate case = .error error)
    (accepted : List Function) : template.acceptCase accepted case = .error error := by
  rw [acceptCase, refused]
  rfl

theorem acceptCase_of_instantiate_eq_ok {function : Function}
    (instantiated : template.instantiate case = .ok function) (accepted : List Function) :
    template.acceptCase accepted case =
      if function.ident = listMethod then
        .error ⟨case.position, .listsCases case.name template.name function.ident⟩
      else (accepted.find? fun earlier => earlier.ident == function.ident).elim (.ok function)
        fun earlier =>
        .error ⟨case.position, .sameIdent earlier.case.name case.name template.name function.ident⟩ := by
  rw [acceptCase, instantiated]
  by_cases listing : function.ident = listMethod
  · simp [listing, bind, Except.bind, throw, throwThe, MonadExceptOf.throw]
  · cases taken : accepted.find? fun earlier => earlier.ident == function.ident with
    | none => simp [listing, taken, bind, Except.bind, pure, Except.pure]
    | some earlier => simp [listing, taken, bind, Except.bind, throw, throwThe, MonadExceptOf.throw]

/-- The functions accepted so far are those of the cases that have taken an identifier. -/
def Tracks (template : Template) (before : List Case) (accepted : List Function) : Prop :=
  ∀ ident, (accepted.find? fun function => function.ident == ident).map Function.case =
    template.holder? before ident

/-- A case is accepted or rejected as `problem?` says. -/
theorem Tracks.acceptCase_eq (tracks : template.Tracks before accepted) (case : Case) :
    template.acceptCase accepted case =
      (template.problem? before case).elim (.ok (template.functionFor case)) fun problem =>
        .error ⟨case.position, problem⟩ := by
  have instantiated := template.instantiate_eq case
  unfold problem?
  by_cases count : case.arguments.length ≠ template.params.length
  · rw [if_pos count] at instantiated ⊢
    exact acceptCase_of_instantiate_eq_error instantiated accepted
  · rw [if_neg count] at instantiated ⊢
    by_cases unusable : case.ident = [] ∨ case.ident = [byte '_']
    · rw [if_pos unusable] at instantiated ⊢
      exact acceptCase_of_instantiate_eq_error instantiated accepted
    · rw [if_neg unusable] at instantiated ⊢
      rw [acceptCase_of_instantiate_eq_ok instantiated]
      by_cases listing : case.ident = listMethod
      · rw [if_pos listing]
        exact if_pos listing
      · rw [if_neg listing, ← tracks case.ident]
        refine (if_neg listing).trans ?_
        change (accepted.find? fun earlier => earlier.ident == case.ident).elim _ _ = _
        cases accepted.find? fun earlier => earlier.ident == case.ident <;> rfl

/-- An accepted case takes its identifier. -/
theorem Tracks.accept (tracks : template.Tracks before accepted)
    (isAccepted : template.problem? before case = none) :
    template.Tracks (before ++ [case]) (accepted ++ [template.functionFor case]) := by
  intro ident
  rw [find?_append, find?_singleton, holder?_append_singleton, ← tracks ident]
  have fit := (problem?_eq_none_iff.mp isAccepted).1
  cases accepted.find? fun function => function.ident == ident with
  | some function => rfl
  | none =>
    by_cases same : case.ident = ident
    · simp [functionFor, fit, same]
    · simp [functionFor, same]

/-- A rejected case takes no identifier. -/
theorem Tracks.reject {problem : Problem} (tracks : template.Tracks before accepted)
    (isRejected : template.problem? before case = some problem) :
    template.Tracks (before ++ [case]) accepted := by
  intro ident
  rw [tracks ident, holder?_append_singleton]
  by_cases fits : template.IsFit case ∧ case.ident = ident
  · obtain ⟨fit, rfl⟩ := fits
    -- The case is fit, so that another one has the identifier.
    rw [problem?_of_isFit before fit, Option.map_eq_some_iff] at isRejected
    obtain ⟨first, taken, _⟩ := isRejected
    rw [taken]
    rfl
  · rw [if_neg fits, Option.or_none]

theorem expandCases_snd (tracks : template.Tracks before accepted) (cases : List Case) :
    (template.expandCases accepted cases).2 = template.rejections before cases := by
  induction cases generalizing before accepted with
  | nil => rfl
  | cons case cases ih =>
    rw [expandCases, rejections, tracks.acceptCase_eq]
    cases verdict : template.problem? before case with
    | none => exact ih (tracks.accept verdict)
    | some problem =>
      change _ :: _ = _ :: _
      rw [ih (tracks.reject verdict)]
      rfl

theorem tracks_nil (template : Template) : template.Tracks [] [] :=
  fun _ => rfl

/-! ## Whole templates -/

/-- No case is rejected exactly if all are fit and take identifiers that are free. -/
theorem rejections_eq_nil_iff : template.rejections before cases = [] ↔
      (∀ case ∈ cases, template.IsFit case) ∧ (cases.map Case.ident).Nodup ∧
        ∀ case ∈ cases, template.holder? before case.ident = none := by
  induction cases generalizing before with
  | nil => simp [rejections]
  | cons case cases ih =>
    have first : ((template.problem? before case).map (Error.mk case.position)).toList = [] ↔
        template.IsFit case ∧ template.holder? before case.ident = none := by
      rw [← problem?_eq_none_iff]
      cases template.problem? before case <;> simp
    rw [rejections, append_eq_nil_iff, first, ih]
    simp only [holder?_append_singleton, Option.or_eq_none_iff, map_cons, nodup_cons,
      mem_map, forall_mem_cons]
    constructor
    · rintro ⟨⟨fit, free⟩, allFit, distinct, later⟩
      refine ⟨⟨fit, allFit⟩, ⟨?_, distinct⟩, free, fun other member => (later other member).1⟩
      rintro ⟨other, member, same⟩
      have taken := (later other member).2
      rw [if_pos ⟨fit, same.symm⟩] at taken
      cases taken
    · rintro ⟨⟨fit, allFit⟩, ⟨fresh, distinct⟩, free, later⟩
      refine ⟨⟨fit, free⟩, allFit, distinct, fun other member => ⟨later other member, ?_⟩⟩
      rw [if_neg]
      rintro ⟨_, same⟩
      exact fresh ⟨other, member, same.symm⟩

/-- A template expands exactly if none of its cases is rejected. -/
theorem exists_expand_eq_ok_iff :
    (∃ space, template.expand = .ok space) ↔ template.rejections [] template.cases = [] := by
  have errors := expandCases_snd template.tracks_nil template.cases
  unfold expand
  rw [← errors]
  split
  next functions none => simp [none]
  next functions some nonempty expanded =>
    rw [expanded]
    constructor
    · rintro ⟨space, impossible⟩
      cases impossible
    · intro none
      exact absurd none nonempty

theorem expand_eq_error_rejections {errors : List Error} (refused : template.expand = .error errors) :
    errors = Error.sort (template.rejections [] template.cases) := by
  rw [(expand_eq_error refused).2, expandCases_snd template.tracks_nil]

theorem functions_eq_map {space : Namespace} (expanded : template.expand = .ok space) :
    space.functions = template.cases.map template.functionFor := by
  have pointwise := (expand_eq_ok expanded).imp fun case function => fun instantiated =>
    (show template.functionFor case = function by
      rw [instantiate_eq] at instantiated
      split at instantiated
      next => cases instantiated
      next =>
        split at instantiated
        next => cases instantiated
        next => exact Except.ok.inj instantiated)
  rw [← forall₂_map_left_iff (f := template.functionFor) (R := Eq), forall₂_eq_eq_eq] at pointwise
  exact pointwise.symm

/-- The function of a fit case binds each parameter to the argument in its place, and
guards the bound names that the body does not refer to. -/
theorem functionFor_of_isFit (fit : template.IsFit case) :
    (template.functionFor case).bindings.map Binding.param = template.params ∧
      (template.functionFor case).bindings.map Binding.value = case.arguments ∧
      (template.functionFor case).unused = (template.params.map Param.name).filter fun name =>
        name ≠ [byte '_'] ∧ name ∉ template.references := by
  rcases map_bindings fit.1 with ⟨params, values⟩
  refine ⟨params, values, ?_⟩
  · have names : (template.functionFor case).bindings.map (fun binding => binding.param.name) =
        template.params.map Param.name := by
      conv_rhs => rw [← params, map_map]
      rfl
    change template.unusedNames (template.functionFor case).bindings = _
    rw [unusedNames, names]
    simp

/-- Expansion accepts exactly the lists of cases in which every case has an argument for
each parameter and a usable name, and no two have the same identifier.  Then there is one
function for each case, in order.  Otherwise there is one error for each case that is
rejected, at its place, and a collision names the accepted case with the same identifier. -/
theorem well_formed_cases_are_expanded (template : Template) :
    ((∃ space, template.expand = .ok space) ↔
      (∀ case ∈ template.cases, case.arguments.length = template.params.length ∧
        case.ident ≠ [] ∧ case.ident ≠ [byte '_'] ∧ case.ident ≠ "Cases") ∧
      (template.cases.map Case.ident).Nodup) ∧
    (∀ space, template.expand = .ok space →
      space.functions.map Function.case = template.cases ∧
      (∀ function ∈ space.functions,
        function.ident = Identifier.ofName function.case.name ∧
        function.bindings.map Binding.param = template.params ∧
        function.bindings.map Binding.value = function.case.arguments ∧
        function.unused = (template.params.map Param.name).filter fun name =>
          name ≠ [byte '_'] ∧ name ∉ template.references) ∧
      space = {
        name := template.name
        doc := template.doc
        context := template.context
        results := template.results
        runType := "func(" ++ template.contextType ++ ")" ++
          if template.results = [] then [] else byte ' ' :: template.results
        body := template.body
        trailing := template.trailing
        functions := space.functions }) ∧
    (∀ errors, template.expand = .error errors →
      errors = Error.sort (template.rejections [] template.cases)) ∧
    ∀ before ident first, template.holder? before ident = some first ↔
      ∃ earlier later, before = earlier ++ first :: later ∧ first.ident = ident ∧
        template.problem? earlier first = none := by
  have accepted : (∃ space, template.expand = .ok space) ↔
      (∀ case ∈ template.cases, template.IsFit case) ∧ (template.cases.map Case.ident).Nodup := by
    rw [exists_expand_eq_ok_iff, rejections_eq_nil_iff]
    simp [holder?]
  refine ⟨accepted, ?_, fun errors => expand_eq_error_rejections, fun _ _ _ => holder?_eq_some_iff⟩
  intro space expanded
  have fit := (accepted.mp ⟨space, expanded⟩).1
  refine ⟨map_case_functions expanded, ?_, ?_⟩
  · intro function member
    rw [functions_eq_map expanded] at member
    obtain ⟨case, isCase, rfl⟩ := mem_map.mp member
    exact ⟨rfl, functionFor_of_isFit (fit case isCase)⟩
  · unfold expand at expanded
    split at expanded
    next functions none =>
      cases expanded
      simp [runType]
    next => cases expanded

/-- A template with cases of every kind: one that is accepted, two that collide with it, and
one each with too many arguments, without a usable name, and with the name of the list. -/
def collidingTemplate : Template where
  name := "k"
  cases := [⟨["1"], "edge!", {}⟩, ⟨["2"], "edge?", {}⟩, ⟨["1", "2"], "too many", {}⟩, ⟨["3"], "!", {}⟩,
    ⟨["4"], "edge.", {}⟩, ⟨["5"], "Cases", {}⟩]
  params := [⟨"n", "int", {}⟩]

/-- The template with its first case only. -/
def edgeTemplate : Template :=
  { collidingTemplate with cases := [⟨["1"], "edge!", {}⟩] }

theorem colliding_cases_are_rejected :
    (∃ errors, collidingTemplate.expand = .error errors ∧
      errors = Error.sort [
        ⟨{}, .sameIdent "edge!" "edge?" "k" "edge_"⟩,
        ⟨{}, .wrongArgumentCount "too many" 2 1⟩,
        ⟨{}, .unusableName "!"⟩,
        ⟨{}, .sameIdent "edge!" "edge." "k" "edge_"⟩,
        ⟨{}, .listsCases "Cases" "k" "Cases"⟩]) ∧
    ∃ space, edgeTemplate.expand = .ok space ∧ space.functions.map Function.case =
      [⟨["1"], "edge!", {}⟩] := by
  constructor
  · have whole := well_formed_cases_are_expanded collidingTemplate
    cases expanded : collidingTemplate.expand with
    | ok space =>
      exact absurd (whole.1.mp ⟨space, expanded⟩).2 (by decide +kernel)
    | error errors =>
      refine ⟨errors, rfl, (whole.2.2.1 errors expanded).trans (congrArg Error.sort ?_)⟩
      decide +kernel
  · have whole := well_formed_cases_are_expanded edgeTemplate
    obtain ⟨space, expanded⟩ := whole.1.mpr (by decide +kernel)
    exact ⟨space, expanded, (whole.2.1 space expanded).1⟩

end Template
end CaseExpansion
