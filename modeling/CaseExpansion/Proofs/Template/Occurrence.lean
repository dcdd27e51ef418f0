import CaseExpansion.Proofs.Template.NamePositions

namespace CaseExpansion

open List Source

/-!
# References occur freely

A name that `references` finds is nowhere declared in the body.  So no scope hides
it, and wherever it is mentioned it occurs freely.  The proof follows the path from the
body to a mention: what is free in a node at a plain place stays free in the node around
it.
-/

namespace Source.Node

/-- A name occurs freely in a node. -/
def Occurs (name : Bytes) : Node → Prop
  | .name ident => ident.name = name
  | .expr inner => OccursIn name inner
  | .field declaring => OccursIn name declaring.type
  | .spec declaring => ∃ operand ∈ declaring.operands, OccursIn name operand
  | .stmt statement => OccursInStmt name statement
  | .block body => ∃ role, Free name role (.block body.statements)

/-- If a name occurs in one of the nodes that stand at plain places, one of the parts has it. -/
def Covered {α : Type} (name : Bytes) (has : α → Prop) (parts : List α)
    (entries : List (Place × Node)) : Prop :=
  ∀ child, (.plain, child) ∈ entries → child.Occurs name → ∃ part ∈ parts, has part

section Covered

variable {α : Type} {name : Bytes} {has : α → Prop}

theorem Covered.append {parts others : List α} {entries later : List (Place × Node)}
    (first : Covered name has parts entries) (second : Covered name has others later) :
    Covered name has (parts ++ others) (entries ++ later) := by
  intro child member occurs
  rcases mem_append.mp member with isFirst | isLater
  · rcases first child isFirst occurs with ⟨part, isPart, holds⟩
    exact ⟨part, mem_append_left _ isPart, holds⟩
  · rcases second child isLater occurs with ⟨part, isPart, holds⟩
    exact ⟨part, mem_append_right _ isPart, holds⟩

theorem covered_names {place : Place} (aside : place ≠ .plain) (idents : List Ident) :
    Covered name has [] (names place idents) := by
  intro child member
  rcases mem_map.mp member with ⟨ident, _, same⟩
  exact absurd (Prod.mk.inj same).1 aside

theorem covered_map {β : Type} (part : β → α) (node : β → Node) (place : Place) (values : List β)
    (holds : ∀ value, (node value).Occurs name → has (part value)) :
    Covered name has (values.map part) (values.map fun value => (place, node value)) := by
  intro child member occurs
  rcases mem_map.mp member with ⟨value, isValue, same⟩
  rw [← (Prod.mk.inj same).2] at occurs
  exact ⟨part value, mem_map_of_mem isValue, holds value occurs⟩

theorem covered_exprs (place : Place) (list : List Expr) :
    Covered name (OccursIn name) list (exprs place list) := by
  have covered := covered_map id .expr place list fun _ (occurs : OccursIn name _) => occurs
  rwa [map_id] at covered

theorem covered_stmts (statements : List Stmt) :
    Covered name (OccursInStmt name) statements (stmts statements) := by
  have covered := covered_map id .stmt .plain statements fun _ (occurs : OccursInStmt name _) => occurs
  rwa [map_id] at covered

theorem covered_fields (list : FieldList) : Covered name (OccursIn name) list.types (fields list) :=
  covered_map FieldOf.type .field .plain list.fields fun _ occurs => occurs

theorem covered_signature (type : Signature) : Covered name (OccursIn name) type.types (signature type) :=
  ((covered_fields _).append (covered_fields _)).append (covered_fields _)

theorem covered_elements (elements : List Expr) :
    Covered name (OccursIn name) (elements.map Expr.elementOperand) (elements.flatMap element) := by
  intro child member occurs
  rcases mem_flatMap.mp member with ⟨inner, isElement, isChild⟩
  refine ⟨inner.elementOperand, mem_map_of_mem isElement, ?_⟩
  unfold element at isChild
  split at isChild
  next =>
    rcases mem_pair.mp isChild with impossible | isValue
    · cases impossible
    · cases isValue
      exact occurs
  next notKeyed =>
    cases mem_singleton.mp isChild
    rwa [Expr.elementOperand.eq_2 inner notKeyed]

/-- Conditions, tags and values of clauses are statements of their own. -/
theorem covered_evaluated (list : List Expr) :
    Covered name (OccursInStmt name) (list.map .expression) (exprs .plain list) := by
  refine covered_map Stmt.expression .expr .plain list fun inner occurs => ?_
  rcases occurs with ⟨role, occurs⟩
  exact ⟨role, .evaluated mem_cons_self occurs⟩

theorem covered_block (body : Block) :
    Covered name (OccursInStmt name) [.block body] [(.plain, .block body)] :=
  covered_map Stmt.block .block .plain [body] fun _ => Free.of_block

end Covered

variable {name : Bytes} {child : Node}

theorem occurs_expr {inner : Expr} (isChild : (.plain, child) ∈ ofExpr inner) (occurs : child.Occurs name)
    (undeclared : .declared name ∉ Mention.ofExpr inner) : OccursIn name inner := by
  have ofOperands {entries : List (Place × Node)} (isEntry : (.plain, child) ∈ entries)
      (covered : Covered name (OccursIn name) inner.operands entries) : OccursIn name inner := by
    rcases covered child isEntry occurs with ⟨operand, isOperand, role, inside⟩
    exact ⟨role, .operand isOperand inside⟩
  cases inner with
  | ident ident =>
    cases mem_singleton.mp isChild
    exact ⟨.use, .ident occurs⟩
  | function type body =>
    rcases mem_append.mp isChild with inSignature | isBody
    · exact ofOperands inSignature (covered_signature type)
    · cases mem_singleton.mp isBody
      rcases occurs with ⟨role, inside⟩
      refine ⟨role, .body (fun declared => undeclared ?_) inside⟩
      exact mem_append_left _ (Mention.declared_mem_ofSignature declared)
  | composite type lbrace elements rbrace =>
    exact ofOperands isChild ((covered_exprs _ _).append (covered_elements elements))
  | selector base field =>
    exact ofOperands isChild ((covered_exprs .plain [base]).append (covered_names (by decide) [field]))
  | structType offset list => exact ofOperands isChild (covered_fields list)
  | interfaceType offset list => exact ofOperands isChild (covered_fields list)
  | funcType type => exact ofOperands isChild (covered_signature type)
  | _ => exact ofOperands isChild (covered_exprs .plain _)

theorem operand_of_mem_ofSpec {declaring : Spec} :
    Covered name (OccursIn name) declaring.operands (ofSpec declaring) := by
  cases declaring with
  | importing doc given path comment => exact covered_names (by decide) _
  | value idents type values hasComment =>
    exact (covered_names (by decide) idents).append (covered_exprs .plain _)
  | type ident typeParams assign type hasComment =>
    refine Covered.append ?_ (covered_exprs .plain [type])
    exact (covered_names (by decide) [ident]).append (covered_fields typeParams)

theorem side_eq_plain {defines : Prop} [Decidable defines] (isPlain : side defines = .plain) :
    ¬defines := by
  intro holds
  rw [side, if_pos holds] at isPlain
  cases isPlain

/-- The left-hand side of an assignment is evaluated or assigned to, unless it is defined. -/
theorem occurs_assign {left right : List Expr} {offset : Nat} {operator : Token}
    (isChild : (.plain, child) ∈ exprs (side (operator = .define)) left ++ exprs .plain right)
    (occurs : child.Occurs name) : OccursInStmt name (.assign left offset operator right) := by
  have evaluated {operand : Expr} (isOperand : operand ∈
      Stmt.operands (.assign left offset operator right))
      (occurs : OccursIn name operand) : OccursInStmt name (.assign left offset operator right) := by
    rcases occurs with ⟨role, occurs⟩
    exact ⟨role, .evaluated isOperand occurs⟩
  rcases mem_append.mp isChild with isLeft | isRight
  · rcases mem_map.mp isLeft with ⟨target, isTarget, same⟩
    rcases Prod.mk.inj same with ⟨isPlain, rfl⟩
    by_cases isAssign : operator = .assign
    · subst isAssign
      exact Free.of_target isTarget occurs
    · refine evaluated ?_ occurs
      rw [Stmt.operands, if_neg (side_eq_plain isPlain), if_neg isAssign]
      exact mem_append_left _ isTarget
  · rcases covered_exprs .plain right child isRight occurs with ⟨operand, isOperand, inside⟩
    refine evaluated ?_ inside
    dsimp only [Stmt.operands]
    split
    · exact isOperand
    · split <;> exact mem_append_right _ isOperand

/-- A range clause is an assignment from its subject before the body, or a declaration after it. -/
theorem covered_range {offset operatorOffset keywordOffset : Nat} {key value : Option Expr}
    {operator : Option Token} {subject : Expr} {body : Block} :
    Covered name (OccursInStmt name)
      (Stmt.inner (.range offset key value operatorOffset operator keywordOffset subject body))
      (ofStmt (.range offset key value operatorOffset operator keywordOffset subject body)) := by
  intro child isChild occurs
  rw [ofStmt] at isChild
  dsimp only [Stmt.inner]
  split
  next isDefine =>
    rw [side, if_pos isDefine] at isChild
    rcases mem_append.mp isChild with isClause | isBody
    · rcases mem_append.mp isClause with isTarget | isSubject
      · rcases mem_map.mp isTarget with ⟨_, _, impossible⟩
        cases impossible
      · rcases covered_evaluated [subject] child isSubject occurs with ⟨part, isPart, inside⟩
        exact ⟨part, mem_append_left [_, _] isPart, inside⟩
    · rcases covered_block body child isBody occurs with ⟨part, isPart, inside⟩
      exact ⟨part, mem_append_right [_, _] isPart, inside⟩
  next notDefine =>
    rw [side, if_neg notDefine] at isChild
    rcases mem_append.mp isChild with isClause | isBody
    · exact ⟨_, mem_cons_self, occurs_assign isClause occurs⟩
    · rcases covered_block body child isBody occurs with ⟨part, isPart, inside⟩
      exact ⟨part, mem_append_right [_] isPart, inside⟩

theorem occurs_stmt {statement : Stmt} (isChild : (.plain, child) ∈ ofStmt statement)
    (occurs : child.Occurs name)
    (undeclared : .declared name ∉ Mention.ofStmt statement) : OccursInStmt name statement := by
  have evaluated (covered : Covered name (OccursIn name) statement.operands (ofStmt statement)) :
      OccursInStmt name statement := by
    rcases covered child isChild occurs with ⟨operand, isOperand, role, inside⟩
    exact ⟨role, .evaluated isOperand inside⟩
  have ofInner (covered : Covered name (OccursInStmt name) statement.inner (ofStmt statement)) :
      OccursInStmt name statement :=
    Free.of_inner undeclared (covered child isChild occurs)
  cases statement with
  | bad | empty => cases isChild
  | declaration group =>
    rcases mem_map.mp isChild with ⟨spec, isSpec, same⟩
    cases same
    exact Free.of_group undeclared ⟨spec, isSpec, occurs⟩
  | expression | send | step | go | defer | return_ => exact evaluated (covered_exprs .plain _)
  | assign left offset operator right => exact occurs_assign isChild occurs
  | branch offset keyword label => exact evaluated (covered_names (by decide) _)
  | block body =>
    cases mem_singleton.mp isChild
    exact Free.of_block occurs
  | labeled label colon inner =>
    exact ofInner ((covered_names (by decide) [label]).append (covered_stmts [inner]))
  | if_ offset init condition body otherwise =>
    refine ofInner ?_
    have covered := (((covered_stmts init.toList).append (covered_evaluated [condition])).append
      (covered_block body)).append (@covered_stmts name otherwise.toList)
    simpa only [Stmt.inner, ofStmt, map_cons, map_nil, append_assoc, cons_append,
      nil_append] using covered
  | switch offset init tag body =>
    exact ofInner (((covered_stmts _).append (covered_evaluated _)).append (covered_block body))
  | typeSwitch offset init guard body =>
    refine ofInner ?_
    have covered := (@covered_stmts name (init.toList ++ [guard])).append (covered_block body)
    simpa only [Stmt.inner, ofStmt, append_assoc, cons_append, nil_append] using covered
  | caseClause offset values colon body => exact ofInner ((covered_evaluated _).append (covered_stmts _))
  | select offset body => exact ofInner (covered_block body)
  | commClause offset communication colon body => exact ofInner (covered_stmts _)
  | for_ offset init condition post body =>
    exact ofInner ((((covered_stmts _).append (covered_evaluated _)).append (covered_stmts _)).append
      (covered_block body))
  | range offset key value operatorOffset operator keywordOffset subject body =>
    exact ofInner covered_range

/-- What occurs in a node at a plain place occurs in the node around it. -/
theorem occurs_of_child {node : Node} (isChild : (.plain, child) ∈ node.children)
    (occurs : child.Occurs name)
    (undeclared : .declared name ∉ node.mentions) : node.Occurs name := by
  cases node with
  | name ident => cases isChild
  | expr inner => exact occurs_expr isChild occurs undeclared
  | field declaring =>
    rcases mem_append.mp isChild with isName | isType
    · rcases mem_map.mp isName with ⟨_, _, impossible⟩
      cases impossible
    · cases mem_singleton.mp isType
      exact occurs
  | spec declaring => exact operand_of_mem_ofSpec child isChild occurs
  | stmt statement => exact occurs_stmt isChild occurs undeclared
  | block body =>
    rcases body with ⟨lbrace, statements, rbrace⟩
    exact Free.of_statements undeclared (covered_stmts statements child isChild occurs)

/-- What occurs where a path of plain places leads occurs where it starts, if nothing declares it. -/
theorem Path.occurs {node last : Node} {places : List Place} (path : Path node places last)
    (allPlain : ∀ place ∈ places, place = .plain) (occurs : last.Occurs name)
    (undeclared : .declared name ∉ node.mentions) : node.Occurs name := by
  induction path with
  | here node => exact occurs
  | @inside node child last place places isChild rest ih =>
    rcases forall_mem_cons.mp allPlain with ⟨rfl, allPlainLater⟩
    refine occurs_of_child isChild (ih allPlainLater occurs fun declared => ?_) undeclared
    exact undeclared (mem_mentions_of_child isChild declared)

end Source.Node

theorem OnlyUsed.occursInBlock {name : Bytes} {body : Block}
    (only : OnlyUsed name (Mention.ofBlock body)) :
    ∃ role, Free name role (.block body.statements) := by
  rcases used_mem_iff.mp only.used with ⟨places, ident, path, isName, allPlain⟩
  exact path.occurs allPlain isName only.undeclared

/-! ## Parameters without a guard -/

/-- A function binds names that the body refers to, apart from those that it guards. -/
theorem Template.mem_references_of_unguarded {template : Template} {case : Case} {generated : Function}
    (instantiated : template.instantiate case = .ok generated) {binding : Binding}
    (isBound : binding ∈ generated.bindings) (named : binding.param.name ≠ [byte '_'])
    (unguarded : binding.param.name ∉ generated.unused) : binding.param.name ∈ template.references := by
  rw [(Template.instantiate_eq_ok instantiated).2.2, Template.unusedNames, mem_filter] at unguarded
  by_contra unreferenced
  refine unguarded ⟨mem_map_of_mem isBound, ?_⟩
  rw [Bool.and_eq_true, decide_eq_true_eq, Bool.not_eq_true', ← Bool.not_eq_true, contains_iff_mem]
  exact ⟨named, unreferenced⟩

/-- A parameter that a generated function binds without a guard occurs freely in the
body of the template.  It is used there, unless it occurs as the bare target of an
assignment. -/
theorem unguarded_parameter_occurs {source : ParsedFile} {function : FuncDecl} {strict : Bool}
    {template : Template} {body : Block} {case : Case} {generated : Function} {binding : Binding}
    (isRead : Template.read source function strict = .ok (some template))
    (hasBody : function.body = some body) (instantiated : template.instantiate case = .ok generated)
    (isBound : binding ∈ generated.bindings) (named : binding.param.name ≠ [byte '_'])
    (unguarded : binding.param.name ∉ generated.unused) :
    Free binding.param.name .use (.block body.statements) ∨
      Free binding.param.name .target (.block body.statements) := by
  rcases Template.read_eq_some isRead with ⟨_, _, _, items, isBody, _, rfl⟩
  cases hasBody.symm.trans isBody
  have referenced := Template.mem_references_of_unguarded instantiated isBound named unguarded
  rcases (mem_references_iff.mp referenced).occursInBlock with ⟨role, occurs⟩
  cases role with
  | use => exact .inl occurs
  | target => exact .inr occurs

/-! ## Parameters with and without uses -/

/-- Whether a text gives a function that binds a name without a guard, from a template
whose body passes a test. -/
def bindsUnguarded (text name : Bytes) (test : Block → Bool) : Bool :=
  (parseFile "cases.go" text).toOption.any fun source =>
    source.file.functions.any fun function =>
      (Template.read source function false).toOption.any fun read => read.any fun template =>
        template.cases.any fun case => (template.instantiate case).toOption.any fun generated =>
          function.body.any test && !generated.unused.contains name &&
            generated.bindings.any fun binding => binding.param.name == name

theorem exists_of_bindsUnguarded {text name : Bytes} {test : Block → Bool}
    (passes : bindsUnguarded text name test = true) :
    ∃ source function template body case generated binding,
      parseFile "cases.go" text = .ok source ∧ function ∈ source.file.functions ∧
      Template.read source function false = .ok (some template) ∧ function.body = some body ∧
      template.instantiate case = .ok generated ∧ binding ∈ generated.bindings ∧
      binding.param.name = name ∧ name ∉ generated.unused ∧ test body = true := by
  rcases exists_ok_of_any passes with ⟨source, parsed, passes⟩
  rcases any_eq_true.mp passes with ⟨function, isFunction, passes⟩
  rcases exists_ok_of_any passes with ⟨read, isRead, passes⟩
  rcases (Option.any_eq_true ..).mp passes with ⟨template, rfl, passes⟩
  rcases any_eq_true.mp passes with ⟨case, _, passes⟩
  rcases exists_ok_of_any passes with ⟨generated, instantiated, passes⟩
  rw [Bool.and_eq_true, Bool.and_eq_true, Bool.not_eq_true'] at passes
  rcases passes with ⟨⟨ofBody, unguarded⟩, bound⟩
  rcases (Option.any_eq_true ..).mp ofBody with ⟨body, hasBody, ofBody⟩
  rcases any_eq_true.mp bound with ⟨binding, isBound, isName⟩
  refine ⟨source, function, template, body, case, generated, binding, parsed, isFunction, isRead,
    hasBody, instantiated, isBound, eq_of_beq isName, fun member => ?_, ofBody⟩
  rw [contains_iff_mem.mpr member] at unguarded
  cases unguarded

/-- A file in which a parameter is used in an inner statement, next to a variable that
does not hide it. -/
def usedInBranch : Bytes :=
  "package p\n\n//casegen:case 1; \"a\"\nfunc f(n int) \x7b\n\tif m := 2; m > 1 \x7b\n\t\tg(m, n)\n\t\x7d\n\x7d\n"

theorem unguarded_parameter_occurs_in_branch :
    ∃ source function template body case generated binding,
      parseFile "cases.go" usedInBranch = .ok source ∧ function ∈ source.file.functions ∧
      Template.read source function false = .ok (some template) ∧ function.body = some body ∧
      template.instantiate case = .ok generated ∧ binding ∈ generated.bindings ∧
      binding.param.name ≠ [byte '_'] ∧ binding.param.name ∉ generated.unused ∧
      (Free binding.param.name .use (.block body.statements) ∨
        Free binding.param.name .target (.block body.statements)) := by
  have computed : bindsUnguarded usedInBranch "n" (fun _ => true) = true := by decide +kernel
  rcases exists_of_bindsUnguarded computed with ⟨source, function, template, body, case, generated,
    binding, parsed, isFunction, isRead, hasBody, instantiated, isBound, isName, unguarded, _⟩
  rw [← isName] at unguarded
  have named : binding.param.name ≠ [byte '_'] := by
    rw [isName]
    decide
  exact ⟨source, function, template, body, case, generated, binding, parsed, isFunction, isRead,
    hasBody, instantiated, isBound, named, unguarded,
    unguarded_parameter_occurs isRead hasBody instantiated isBound named unguarded⟩

/-- Whether a block does nothing but assign a literal to a name. -/
def assignsLiteral (name : Bytes) : Block → Bool
  | ⟨_, [.assign [.ident target] _ .assign [.literal _]], _⟩ => target.name == name
  | _ => false

theorem not_used_of_assignsLiteral {name other : Bytes} {body : Block}
    (assigns : assignsLiteral name body = true) : ¬ Free other .use (.block body.statements) := by
  unfold assignsLiteral at assigns
  split at assigns
  next =>
    intro occurs
    cases occurs with
    | tail _ occurs => cases occurs
    | head occurs =>
      cases occurs with
      | inner occurs => cases occurs
      | evaluated isOperand occurs =>
        cases mem_singleton.mp isOperand
        cases occurs with
        | operand isOperand => cases isOperand
  next => cases assigns

/-- A file in which a parameter is assigned to and not used. -/
def assignedOnly : Bytes :=
  "package p\n\n//casegen:case 1; \"a\"\nfunc f(n int) \x7b\n\tn = 2\n\x7d\n"

/-- A parameter that is only assigned to is bound without a guard and is not used. -/
theorem assigned_parameter_is_unguarded :
    ∃ source function template body case generated binding,
      parseFile "cases.go" assignedOnly = .ok source ∧ function ∈ source.file.functions ∧
      Template.read source function false = .ok (some template) ∧ function.body = some body ∧
      template.instantiate case = .ok generated ∧ binding ∈ generated.bindings ∧
      binding.param.name ≠ [byte '_'] ∧ binding.param.name ∉ generated.unused ∧
      ¬ Free binding.param.name .use (.block body.statements) := by
  have computed : bindsUnguarded assignedOnly "n" (assignsLiteral "n") = true := by decide +kernel
  rcases exists_of_bindsUnguarded computed with ⟨source, function, template, body, case, generated,
    binding, parsed, isFunction, isRead, hasBody, instantiated, isBound, isName, unguarded, assigns⟩
  refine ⟨source, function, template, body, case, generated, binding, parsed, isFunction, isRead,
    hasBody, instantiated, isBound, ?_, ?_, not_used_of_assignsLiteral assigns⟩
  · rw [isName]
    decide
  · rwa [isName]

end CaseExpansion
