import CaseExpansion.Proofs.Rendering.Builtin
import CaseExpansion.Proofs.Template.Scope

namespace CaseExpansion

open List Source

/-!
# Names in arguments and types

A generated function declares its parameters one after the other, each with the type
from the template and the argument from the case.  Both are copied as they are written,
and nothing looks at the names in them.  A name that the context parameter, a result or
an earlier parameter has as well therefore means that one and not what it means at the
directive.  Every other name keeps its meaning.

The tree of a generated function makes this precise.  An argument or type is a place in
the tree.  The tree keeps a name at a place if the name is free in the whole whenever
it is free in what stands there.  It captures the name if what stands there makes no
difference to whether the name is free in the whole.
-/

namespace Free

variable {name : Bytes} {role : Role}

theorem of_bareName {expr : Expr} (isBare : expr.bareName? = some name) :
    Free name .use (.expr expr) := by
  cases expr with
  | ident ident =>
    cases isBare
    exact .ident rfl
  | paren lparen inner rparen => exact .operand (mem_singleton_self inner) (of_bareName isBare)
  | _ => cases isBare
termination_by structural expr

/-! ## Blocks -/

theorem block_cons_iff {statement : Stmt} {statements : List Stmt} :
    Free name role (.block (statement :: statements)) ↔
      Free name role (.stmt statement) ∨ name ∉ statement.declared ∧
      Free name role (.block statements) := by
  constructor
  · intro occurs
    cases occurs with
    | head here => exact .inl here
    | tail visible later => exact .inr ⟨visible, later⟩
  · rintro (here | ⟨visible, later⟩)
    · exact .head here
    · exact .tail visible later

/-- What follows in a block is in the scope of what is declared before it. -/
theorem block_append {statements others : List Stmt} (visible : name ∉ statements.flatMap Stmt.declared)
    (occurs : Free name role (.block others)) : Free name role (.block (statements ++ others)) := by
  induction statements with
  | nil => exact occurs
  | cons statement statements ih =>
    rw [flatMap_cons, mem_append, not_or] at visible
    exact .tail visible.1 (ih visible.2)

/-- What follows the declaration of a name does not matter to whether the name is free. -/
theorem block_append_congr {statements : List Stmt} (hidden : name ∈ statements.flatMap Stmt.declared)
    (others rest : List Stmt) :
    Free name role (.block (statements ++ others)) ↔ Free name role (.block (statements ++ rest)) := by
  induction statements with
  | nil => cases hidden
  | cons statement statements ih =>
    rw [cons_append, cons_append, block_cons_iff, block_cons_iff]
    rw [flatMap_cons, mem_append] at hidden
    by_cases here : name ∈ statement.declared
    · simp only [here, not_true_eq_false, false_and]
    · rw [ih (hidden.resolve_left here)]

end Free

/-! ## Generated functions as trees -/

/-- A variable that a generated function declares for a parameter. -/
structure LocalVar where
  ident : Ident
  type : Expr
  value : Expr

namespace LocalVar

/-- The declaration of a variable. -/
def statement (local_ : LocalVar) : Stmt :=
  .declaration ⟨0, .kwVar, none, [.value [local_.ident] (some local_.type) [local_.value] false], none⟩

theorem declared_statement (local_ : LocalVar) : local_.statement.declared = [local_.ident.name] := rfl

theorem free_statement {local_ : LocalVar} {name : Bytes} {role : Role}
    (occurs : Free name role (.expr local_.type) ∨ Free name role (.expr local_.value)) :
    Free name role (.stmt local_.statement) := by
  have first (spec : Spec) : [spec] = [] ++ spec :: [] := rfl
  have specified (operand : Expr) (isOperand : operand ∈ [local_.type, local_.value])
      (inside : Free name role (.expr operand)) : Free name role (.stmt local_.statement) :=
    .specified (first _) not_mem_nil not_mem_nil isOperand inside
  rcases occurs with inType | inValue
  · exact specified _ mem_cons_self inType
  · exact specified _ (mem_cons_of_mem _ mem_cons_self) inValue

theorem flatMap_declared (locals : List LocalVar) :
    (locals.map statement).flatMap Stmt.declared = locals.map fun local_ => local_.ident.name := by
  induction locals with
  | nil => rfl
  | cons local_ locals ih =>
    rw [map_cons, map_cons, flatMap_cons, ih, declared_statement]
    rfl

end LocalVar

/-- A generated function without its name: the context parameter and the results, the
variables for the parameters, their guards, and the body of the template. -/
structure GeneratedTree where
  context? : Option (Ident × Expr)
  results : FieldList
  unused : List Bytes
  body : Block

namespace GeneratedTree

/-- The signature of a generated function. -/
def signature (tree : GeneratedTree) : Signature where
  keyword := none
  typeParams := {}
  params := { fields := tree.context?.toList.map fun (ident, type) => { names := [ident], type } }
  results := tree.results

/-- The guard of a name that the body does not use. -/
def guard (name : Bytes) : Stmt :=
  .assign [.ident ⟨0, [byte '_']⟩] 0 .assign [.ident ⟨0, name⟩]

/-- The function with the given variables. -/
def function (tree : GeneratedTree) (locals : List LocalVar) : Expr :=
  .function tree.signature
    ⟨0, locals.map LocalVar.statement ++ (tree.unused.map guard ++ tree.body.statements), 0⟩

/-- The names that are declared where a variable is, if others come before it. -/
def hidden (tree : GeneratedTree) (earlier : List LocalVar) : List Bytes :=
  tree.context?.toList.map (fun (ident, _) => ident.name) ++ tree.results.declared ++
    earlier.map fun local_ => local_.ident.name

theorem declared_signature (tree : GeneratedTree) :
    tree.signature.declared = tree.context?.toList.map (fun (ident, _) => ident.name) ++
      tree.results.declared := by
  cases tree with
  | mk context? results unused body =>
    cases context? with
    | none => rfl
    | some context => rfl

end GeneratedTree

/-- Where a name is free in an operand, it is free in the whole. -/
def Keeps (name : Bytes) (whole : Expr → Expr) : Prop :=
  ∀ role operand, Free name role (.expr operand) → Free name role (.expr (whole operand))

/-- Whether a name is free in the whole does not depend on the operand. -/
def Captures (name : Bytes) (whole : Expr → Expr) : Prop :=
  ∀ role operand other, Free name role (.expr (whole operand)) ↔ Free name role (.expr (whole other))

namespace GeneratedTree

variable {tree : GeneratedTree} {name : Bytes} {role : Role} {earlier : List LocalVar}

theorem free_function (visible : name ∉ tree.hidden earlier) {local_ : LocalVar} (later : List LocalVar)
    (occurs : Free name role (.expr local_.type) ∨ Free name role (.expr local_.value)) :
    Free name role (.expr (tree.function (earlier ++ local_ :: later))) := by
  rw [hidden, mem_append, not_or, ← declared_signature] at visible
  refine .body visible.1 ?_
  rw [map_append, append_assoc]
  refine Free.block_append ?_ (.head (LocalVar.free_statement occurs))
  rw [LocalVar.flatMap_declared]
  exact visible.2

theorem function_congr (isHidden : name ∈ tree.hidden earlier) (locals others : List LocalVar) :
    Free name role (.expr (tree.function (earlier ++ locals))) ↔
      Free name role (.expr (tree.function (earlier ++ others))) := by
  have oneWay (locals others : List LocalVar)
      (occurs : Free name role (.expr (tree.function (earlier ++ locals)))) :
      Free name role (.expr (tree.function (earlier ++ others))) := by
    cases occurs with
    | operand isOperand inside => exact .operand isOperand inside
    | body visible inside =>
      rw [declared_signature] at visible
      rw [hidden, mem_append] at isHidden
      refine .body (declared_signature tree ▸ visible) ?_
      rw [map_append, append_assoc] at inside ⊢
      refine (Free.block_append_congr ?_ _ _).mp inside
      rw [LocalVar.flatMap_declared]
      exact isHidden.resolve_left visible
  exact ⟨oneWay locals others, oneWay others locals⟩

/-- A name that is declared before an argument or a type is captured there, and any other
one is kept. -/
theorem keeps_or_captures (tree : GeneratedTree) (earlier later : List LocalVar) (local_ : LocalVar)
    (name : Bytes) :
    (name ∉ tree.hidden earlier →
      Keeps name (fun value => tree.function (earlier ++ { local_ with value } :: later)) ∧
        Keeps name fun type => tree.function (earlier ++ { local_ with type } :: later)) ∧
    (name ∈ tree.hidden earlier →
      Captures name (fun value => tree.function (earlier ++ { local_ with value } :: later)) ∧
        Captures name fun type => tree.function (earlier ++ { local_ with type } :: later)) := by
  constructor
  · intro visible
    exact ⟨fun _ _ occurs => free_function visible later (.inr occurs),
      fun _ _ occurs => free_function visible later (.inl occurs)⟩
  · intro isHidden
    exact ⟨fun _ _ _ => function_congr isHidden _ _, fun _ _ _ => function_congr isHidden _ _⟩

end GeneratedTree

/-! ## Arguments and parameters of a template -/

namespace Template

theorem arguments_of_mem_cases {source : ParsedFile} {function : FuncDecl} {strict : Bool}
    {template : Template} (isRead : read source function strict = .ok (some template)) {case : Case}
    (isCase : case ∈ template.cases) :
    ∃ values, List.Forall₂ (fun argument value => parseExpr argument = .ok value) case.arguments
      values := by
  rcases exists_directive_of_mem_cases isRead isCase with ⟨comment, _, parsed⟩
  have expressions := Directive.isExpression_of_parse parsed
  generalize case.arguments = arguments at expressions
  induction arguments with
  | nil => exact ⟨[], .nil⟩
  | cons argument arguments ih =>
    rcases forall_mem_cons.mp expressions with ⟨⟨_, value, isValue⟩, others⟩
    rcases ih others with ⟨values, areValues⟩
    exact ⟨value :: values, .cons isValue areValues⟩

/-- The declared parameters with their types. -/
def declaredParams (fields : List Field) : List (Ident × Expr) :=
  fields.flatMap fun field => field.names.map fun ident => (ident, field.type)

/-- The context parameter and the bound ones, with their types. -/
def splitDeclared (source : ParsedFile) (fields : List Field) :
    Option (Ident × Expr) × List (Ident × Expr) :=
  match keepsContext source fields, declaredParams fields with
  | true, first :: rest => (some first, rest)
  | _, declared => (none, declared)

/-- A declared parameter as a template has it. -/
def paramOf (source : ParsedFile) (declared : Ident × Expr) : Param :=
  { name := declared.1.name, type := paramType source declared.2
    position := source.place declared.1.offset }

theorem splitParams_eq (source : ParsedFile) (fields : List Field) :
    splitParams source fields =
      ((splitDeclared source fields).1.map (paramOf source),
        (splitDeclared source fields).2.map (paramOf source)) := by
  have same : fields.flatMap (fieldParams source) = (declaredParams fields).map (paramOf source) := by
    rw [declaredParams, map_flatMap]
    refine flatMap_congr fun field _ => ?_
    rw [map_map]
    rfl
  unfold splitParams splitDeclared
  rw [same]
  cases keepsContext source fields with
  | false => rfl
  | true =>
    cases declaredParams fields with
    | nil => rfl
    | cons first rest => rfl

/-- The type of the variable for a parameter. -/
def variableType : Expr → Expr
  | .ellipsis offset (some element) => .arrayType offset none element
  | type => type

/-- The variable declares what the binding gives: its name, its type and its value. -/
def Declares (source : ParsedFile) (binding : Binding) (local_ : LocalVar) : Prop :=
  binding.param.name = local_.ident.name ∧ parseExpr binding.value = .ok local_.value ∧
    ∃ type, binding.param.type = paramType source type ∧ local_.type = variableType type

/-- The variables for parameters with given values. -/
def localsOf (params : List (Ident × Expr)) (values : List Expr) : List LocalVar :=
  List.zipWith (fun param value => ⟨param.1, variableType param.2, value⟩) params values

theorem declares_localsOf {source : ParsedFile} {params : List (Ident × Expr)} {arguments : List Bytes}
    {values : List Expr}
    (areValues : List.Forall₂ (fun argument value => parseExpr argument = .ok value) arguments values)
    (fits : arguments.length = params.length) :
    List.Forall₂ (Declares source) (List.zipWith Binding.mk (params.map (paramOf source)) arguments)
      (localsOf params values) := by
  induction areValues generalizing params with
  | nil =>
    cases eq_nil_of_length_eq_zero fits.symm
    exact .nil
  | cons isValue areValues ih =>
    cases params with
    | nil => cases fits
    | cons param params =>
      refine .cons ⟨rfl, isValue, param.2, rfl, rfl⟩ (ih ?_)
      simpa only [length_cons, Nat.add_right_cancel_iff] using fits

theorem bind_eq_ok {case : Case} {params : List Param} {bindings : List Binding}
    (bound : case.bind params = .ok bindings) :
    case.arguments.length = params.length ∧ bindings = List.zipWith Binding.mk params case.arguments := by
  unfold Case.bind at bound
  split at bound
  next => cases bound
  next fits =>
    cases bound
    exact ⟨Decidable.not_not.mp fits, rfl⟩

/-- A case fits or not by the number of its arguments. -/
theorem instantiate_of_length {template : Template} {case : Case} {generated : Function}
    (instantiated : template.instantiate case = .ok generated) {arguments : List Bytes}
    (sameLength : arguments.length = case.arguments.length) :
    ∃ other, template.instantiate { case with arguments } = .ok other ∧ other.ident = generated.ident ∧
      other.bindings = List.zipWith Binding.mk template.params arguments := by
  have fits := (bind_eq_ok (instantiate_eq_ok instantiated).2.1).1
  have bound (given : List Bytes) (enough : given.length = template.params.length) :
      Case.bind { case with arguments := given } template.params =
        .ok (List.zipWith Binding.mk template.params given) := by
    unfold Case.bind
    rw [if_neg (not_not.mpr enough)]
  have original : case.bind template.params =
      .ok (List.zipWith Binding.mk template.params case.arguments) :=
    bound case.arguments fits
  unfold instantiate at instantiated ⊢
  rw [original] at instantiated
  rw [bound arguments (sameLength.trans fits)]
  simp only [bind, Except.bind] at instantiated ⊢
  split at instantiated
  next usable =>
    cases instantiated
    rw [if_pos usable]
    exact ⟨_, rfl, rfl, rfl⟩
  next => cases instantiated

/-- The function of an accepted case declares its parameters in order, each with the type
that the template declares and the argument that the case gives.  A name in an argument or a type is captured if the context
parameter, a result or a parameter before it has the name, and is kept otherwise.  Cases
are accepted whatever names their arguments hold. -/
theorem argument_names_are_captured_if_hidden {source : ParsedFile} {function : FuncDecl} {strict : Bool}
    {template : Template} {space : Namespace} {generated : Function}
    (isRead : read source function strict = .ok (some template)) (expanded : template.expand = .ok space)
    (isGenerated : generated ∈ space.functions) :
    ∃ (tree : GeneratedTree) (locals : List LocalVar),
      tree.context? = (splitDeclared source function.params.fields).1 ∧ tree.results = function.results ∧
      tree.unused = generated.unused ∧ function.body = some tree.body ∧
      (∃ values, List.Forall₂ (fun argument value => parseExpr argument = .ok value)
          generated.case.arguments values ∧
        locals = localsOf (splitDeclared source function.params.fields).2 values) ∧
      List.Forall₂ (Declares source) generated.bindings locals ∧
      (∀ earlier local_ later, locals = earlier ++ local_ :: later → ∀ name, name ≠ [byte '_'] →
        (name ∉ tree.hidden earlier →
          Keeps name (fun value => tree.function (earlier ++ { local_ with value } :: later)) ∧
            Keeps name fun type => tree.function (earlier ++ { local_ with type } :: later)) ∧
        (name ∈ tree.hidden earlier →
          Captures name (fun value => tree.function (earlier ++ { local_ with value } :: later)) ∧
            Captures name fun type => tree.function (earlier ++ { local_ with type } :: later))) ∧
      (∀ arguments : List Bytes, arguments.length = generated.case.arguments.length →
        ∃ other, template.instantiate { generated.case with arguments } = .ok other ∧
          other.bindings = List.zipWith Binding.mk template.params arguments) ∧
      ∃ before after, Rendering.namespaceText space =
        before ++ Rendering.functionText space generated ++ after := by
  rcases exists_left_of_forall₂ (expand_eq_ok expanded) isGenerated with ⟨case, isCase, instantiated⟩
  rcases arguments_of_mem_cases isRead isCase with ⟨values, areValues⟩
  rcases read_eq_some isRead with ⟨_, _, body, items, hasBody, _, rfl⟩
  rcases instantiate_eq_ok instantiated with ⟨rfl, bound, _⟩
  rcases bind_eq_ok bound with ⟨fits, areBindings⟩
  have params : (assemble source function body items).params =
      (splitDeclared source function.params.fields).2.map (paramOf source) :=
    congrArg Prod.snd (splitParams_eq source function.params.fields)
  refine ⟨⟨(splitDeclared source function.params.fields).1, function.results, generated.unused, body⟩,
    localsOf (splitDeclared source function.params.fields).2 values, rfl, rfl, rfl, hasBody,
    ⟨values, areValues, rfl⟩, ?_, ?_, ?_, ?_⟩
  · rw [areBindings, params]
    rw [params, length_map] at fits
    exact declares_localsOf areValues fits
  · intro earlier local_ later _ name _
    exact GeneratedTree.keeps_or_captures _ earlier later local_ name
  · intro arguments sameLength
    rcases instantiate_of_length instantiated sameLength with ⟨other, isOther, _, areOthers⟩
    exact ⟨other, isOther, areOthers⟩
  · rcases append_of_mem isGenerated with ⟨others, rest, functions⟩
    have shape : ∃ front, Rendering.namespaceText space =
        front ++ space.functions.flatMap (Rendering.functionText space) := ⟨_, rfl⟩
    rcases shape with ⟨front, shape⟩
    refine ⟨front ++ others.flatMap (Rendering.functionText space),
      rest.flatMap (Rendering.functionText space), ?_⟩
    rw [shape, functions, flatMap_append, flatMap_cons, append_assoc, append_assoc]

/-- Whether a text gives a function that passes a test. -/
def expandsTo (text : Bytes) (test : Function → Bool) : Bool :=
  (parseFile "cases.go" text).toOption.any fun source =>
    source.file.functions.any fun function =>
      (read source function false).toOption.any fun template? => template?.any fun template =>
        template.expand.toOption.any fun space => space.functions.any test

theorem exists_of_expandsTo {text : Bytes} {test : Function → Bool}
    (passes : expandsTo text test = true) :
    ∃ source function template space generated, parseFile "cases.go" text = .ok source ∧
      function ∈ source.file.functions ∧ read source function false = .ok (some template) ∧
      template.expand = .ok space ∧ generated ∈ space.functions ∧ test generated = true := by
  rcases exists_ok_of_any passes with ⟨source, parsed, passes⟩
  rcases any_eq_true.mp passes with ⟨function, isFunction, passes⟩
  rcases exists_ok_of_any passes with ⟨template?, isRead, passes⟩
  rcases (Option.any_eq_true ..).mp passes with ⟨template, rfl, passes⟩
  rcases exists_ok_of_any passes with ⟨space, expanded, passes⟩
  rcases any_eq_true.mp passes with ⟨generated, isGenerated, passes⟩
  exact ⟨source, function, template, space, generated, parsed, isFunction, isRead, expanded,
    isGenerated, passes⟩

/-- A file with a template that keeps a context and names its result. -/
def scopedFile : Bytes :=
  "package p\n\nimport \"context\"\n\n//casegen:case k, k; \"a\"\nfunc f(ctx context.Context, n int, m ...int) (err error) \x7b\n\treturn g(ctx, n, m)\n\x7d\n"

theorem argument_names_of_scoped_file_are_captured_if_hidden :
    ∃ source function template space generated tree locals, parseFile "cases.go" scopedFile = .ok source ∧
      function ∈ source.file.functions ∧ read source function false = .ok (some template) ∧
      template.expand = .ok space ∧ generated ∈ space.functions ∧
      List.Forall₂ (Declares source) generated.bindings locals ∧
      ∀ earlier local_ later, locals = earlier ++ local_ :: later → ∀ name, name ≠ [byte '_'] →
        (name ∉ GeneratedTree.hidden tree earlier →
          Keeps name fun value => tree.function (earlier ++ { local_ with value } :: later)) ∧
        (name ∈ tree.hidden earlier →
          Captures name fun value => tree.function (earlier ++ { local_ with value } :: later)) := by
  have computed : expandsTo scopedFile (fun _ => true) = true := by decide +kernel
  rcases exists_of_expandsTo computed with
    ⟨source, function, template, space, generated, parsed, isFunction, isRead, expanded, isGenerated, _⟩
  rcases argument_names_are_captured_if_hidden isRead expanded isGenerated with
    ⟨tree, locals, _, _, _, _, _, declared, captured, _⟩
  refine ⟨source, function, template, space, generated, tree, locals, parsed, isFunction,
    isRead, expanded, isGenerated, declared, fun earlier local_ later split name named => ?_⟩
  have both := captured earlier local_ later split name named
  exact ⟨fun visible => (both.1 visible).1, fun isHidden => (both.2 isHidden).1⟩

/-- A file with an argument that names an earlier parameter. -/
def capturedFile : Bytes :=
  "package p\n\n//casegen:case 1, n; \"a\"\nfunc f(n int, m int) \x7b\n\tg(n, m)\n\x7d\n"

/-- An accepted case can have an argument with the name of an earlier parameter. -/
theorem argument_with_earlier_name_is_accepted :
    ∃ source function template space generated value, parseFile "cases.go" capturedFile = .ok source ∧
      function ∈ source.file.functions ∧ read source function false = .ok (some template) ∧
      template.expand = .ok space ∧ generated ∈ space.functions ∧
      generated.bindings.map (fun binding => (binding.param.name, binding.value)) =
        [(Bytes.ofString "n", Bytes.ofString "1"), (Bytes.ofString "m", Bytes.ofString "n")] ∧
      parseExpr "n" = .ok value ∧ Free "n" .use (.expr value) := by
  have computed : expandsTo capturedFile (fun generated => decide
      (generated.bindings.map (fun binding => (binding.param.name, binding.value)) =
        [(Bytes.ofString "n", Bytes.ofString "1"), (Bytes.ofString "m", Bytes.ofString "n")])) =
          true := by
    decide +kernel
  have isName : (parseExpr "n").toOption.any
      (fun value => value.bareName? == some (Bytes.ofString "n")) = true := by
    decide +kernel
  rcases exists_of_expandsTo computed with
    ⟨source, function, template, space, generated, parsed, isFunction, isRead, expanded,
      isGenerated, bound⟩
  rcases exists_ok_of_any isName with ⟨value, isValue, isBare⟩
  exact ⟨source, function, template, space, generated, value, parsed, isFunction, isRead, expanded,
    isGenerated, of_decide_eq_true bound, isValue, Free.of_bareName (eq_of_beq isBare)⟩

end Template
end CaseExpansion
