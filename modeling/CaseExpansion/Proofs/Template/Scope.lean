import CaseExpansion.Proofs.Template.Expanding

namespace CaseExpansion

open List Source

/-!
# Free names of a function body

A generated function declares each parameter as a local variable, and a local
variable that is not used is an error.  Whether a variable is used is a matter of
the scopes in the body, which `references` does not look at: it takes the body as
one heap of names.  Here the scopes are spelled out.  `Free` says that a name occurs
in a body where no declaration of the body has hidden it, and in which role: as a
use, or as the bare target of an assignment, which does not count as a use.

A name that is not guarded always has a free occurrence.  If it is a target only,
however, the generated function has an unused variable.
-/

namespace Source

/-- The name that an expression consists of, apart from parentheses. -/
def Expr.bareName? : Expr → Option Bytes
  | .ident name => some name.name
  | .paren _ inner _ => inner.bareName?
  | _ => none

/-- The names that fields declare. -/
def FieldListOf.declared (list : FieldList) : List Bytes :=
  list.fields.flatMap fun field => field.names.map Ident.name

/-- The types of fields. -/
def FieldListOf.types (list : FieldList) : List Expr :=
  list.fields.map FieldOf.type

/-- The names that a signature declares in the body of a function. -/
def SignatureOf.declared (signature : Signature) : List Bytes :=
  signature.typeParams.declared ++ signature.params.declared ++ signature.results.declared

/-- The types in a signature. -/
def SignatureOf.types (signature : Signature) : List Expr :=
  signature.typeParams.types ++ signature.params.types ++ signature.results.types

/-- What an element of a composite literal evaluates.  A bare key is left out, since it
may be the name of a field. -/
def Expr.elementOperand : Expr → Expr
  | .keyValue (.ident _) _ value => value
  | element => element

/-- The expressions and types right inside an expression, in whose scope it is.  The
body of a function is not among them. -/
def Expr.operands : Expr → List Expr
  | .bad .. | .ident _ | .literal _ => []
  | .function signature _ => signature.types
  | .composite type _ elements _ => type.toList ++ elements.map elementOperand
  | .paren _ inner _ => [inner]
  | .selector base _ => [base]
  | .index base _ indices _ => base :: indices
  | .slice base _ low high max _ _ => base :: (low.toList ++ high.toList ++ max.toList)
  | .assertion base _ type _ => base :: type.toList
  | .call callee _ arguments _ _ => callee :: arguments
  | .star _ inner => [inner]
  | .unary _ _ operand => [operand]
  | .binary left _ _ right => [left, right]
  | .keyValue key _ value => [key, value]
  | .ellipsis _ element => element.toList
  | .arrayType _ length element => length.toList ++ [element]
  | .structType _ fields => fields.types
  | .funcType signature => signature.types
  | .interfaceType _ methods => methods.types
  | .mapType _ key value => [key, value]
  | .chanType _ _ _ value => [value]

namespace SpecOf

/-- The names that a specification declares for what comes after it. -/
def declared : Spec → List Bytes
  | .importing .. => []
  | .value names .. => names.map Ident.name
  | .type name .. => [name.name]

/-- The names that a specification declares within itself: a type may refer to itself
and to its parameters. -/
def within : Spec → List Bytes
  | .importing .. | .value .. => []
  | .type name typeParams .. => name.name :: typeParams.declared

/-- The expressions and types of a specification. -/
def operands : Spec → List Expr
  | .importing .. => []
  | .value _ valueType values _ => valueType.toList ++ values
  | .type _ typeParams _ meaning _ => typeParams.types ++ [meaning]

end SpecOf

namespace Stmt

/-- The names that a statement declares for those after it in its block. -/
def declared : Stmt → List Bytes
  | .declaration group => group.specs.flatMap SpecOf.declared
  | .labeled _ _ statement => statement.declared
  | .assign left _ operator _ =>
    if operator = .define then
      left.filterMap fun
        | .ident ident => some ident.name
        | _ => none
    else []
  | _ => []

/-- The names that a statement assigns to as a whole. -/
def targets : Stmt → List Bytes
  | .assign left _ operator _ => if operator = .assign then left.filterMap Expr.bareName? else []
  | _ => []

/-- The expressions that a simple statement evaluates in the scope in which it stands. -/
def operands : Stmt → List Expr
  | .expression expr => [expr]
  | .send channel _ value => [channel, value]
  | .step operand _ _ => [operand]
  | .assign left _ operator right =>
    if operator = .define then right
    else if operator = .assign then left.filter (fun target => target.bareName?.isNone) ++ right
    else left ++ right
  | .go _ call => [call]
  | .defer _ call => [call]
  | .return_ _ results => results
  | _ => []

/-- The statements that a statement opens a scope for, in order.  Conditions, tags and
subjects are evaluated like statements of their own. -/
def inner : Stmt → List Stmt
  | .labeled _ _ statement => [statement]
  | .block body => body.statements
  | .if_ _ init condition body otherwise =>
    init.toList ++ .expression condition :: .block body :: otherwise.toList
  | .switch _ init tag body => init.toList ++ tag.toList.map .expression ++ [.block body]
  | .typeSwitch _ init guard body => init.toList ++ [guard, .block body]
  | .caseClause _ values _ body => values.map .expression ++ body
  | .select _ body => [.block body]
  | .commClause _ communication _ body => communication.toList ++ body
  | .for_ _ init condition post body =>
    init.toList ++ condition.toList.map .expression ++ post.toList ++ [.block body]
  | .range _ key value offset operator _ subject body =>
    if operator = some .define then
      [.expression subject, .assign (key.toList ++ value.toList) offset .define [], .block body]
    else [.assign (key.toList ++ value.toList) offset .assign [subject], .block body]
  | _ => []

end Stmt
end Source

/-- How a name occurs in a body. -/
inductive Role where
  /-- The name is evaluated, or read as a type. -/
  | use
  /-- The name is assigned to as a whole. -/
  | target
deriving DecidableEq, Repr

/-- What a name can occur in. -/
inductive Part where
  | expr (expr : Expr)
  | stmt (statement : Stmt)
  | block (statements : List Stmt)

/-- A name occurs in a part of a body, outside of the scope of every declaration of the
name in that part. -/
inductive Free (name : Bytes) : Role → Part → Prop
  | ident {ident : Ident} : ident.name = name → Free name .use (.expr (.ident ident))
  | operand {role : Role} {expr operand : Expr} :
      operand ∈ expr.operands → Free name role (.expr operand) → Free name role (.expr expr)
  | body {role : Role} {signature : Signature} {body : Block} :
      name ∉ signature.declared → Free name role (.block body.statements) →
      Free name role (.expr (.function signature body))
  | target {statement : Stmt} : name ∈ statement.targets → Free name .target (.stmt statement)
  | evaluated {role : Role} {statement : Stmt} {operand : Expr} :
      operand ∈ statement.operands → Free name role (.expr operand) → Free name role (.stmt statement)
  | specified {role : Role} {group : DeclGroup} {earlier later : List Spec} {spec : Spec}
      {operand : Expr} :
      group.specs = earlier ++ spec :: later → name ∉ earlier.flatMap SpecOf.declared →
      name ∉ spec.within → operand ∈ spec.operands → Free name role (.expr operand) →
      Free name role (.stmt (.declaration group))
  | inner {role : Role} {statement : Stmt} :
      Free name role (.block statement.inner) → Free name role (.stmt statement)
  | head {role : Role} {statement : Stmt} {statements : List Stmt} :
      Free name role (.stmt statement) → Free name role (.block (statement :: statements))
  | tail {role : Role} {statement : Stmt} {statements : List Stmt} :
      name ∉ statement.declared → Free name role (.block statements) →
      Free name role (.block (statement :: statements))

/-! ## Mentions of the parts of a body -/

namespace Mention

theorem mem_ofFieldList {list : FieldList} {mention : Mention} :
    mention ∈ ofFieldList list ↔ ∃ field ∈ list.fields, mention ∈ ofField field := by
  rcases list with ⟨opening, fields, closing⟩
  rw [ofFieldList]
  induction fields with
  | nil => simp [ofFields]
  | cons field fields ih => simp [ofFields, ih]

theorem mem_ofSpecs {specs : List Spec} {mention : Mention} :
    mention ∈ ofSpecs specs ↔ ∃ spec ∈ specs, mention ∈ ofSpec spec := by
  induction specs with
  | nil => simp [ofSpecs]
  | cons spec specs ih => simp [ofSpecs, ih]

variable {name : Bytes}

theorem declared_mem_ofFieldList {list : FieldList} (declared : name ∈ list.declared) :
    Mention.declared name ∈ ofFieldList list := by
  rcases mem_flatMap.mp declared with ⟨field, isField, isName⟩
  rcases mem_map.mp isName with ⟨ident, isIdent, rfl⟩
  refine mem_ofFieldList.mpr ⟨field, isField, ?_⟩
  rcases field with ⟨names, type, tag, hasComment⟩
  exact mem_append_left _ (mem_map_of_mem isIdent)

theorem declared_mem_ofSignature {signature : Signature} (declared : name ∈ signature.declared) :
    Mention.declared name ∈ ofSignature signature := by
  rcases signature with ⟨keyword, typeParams, params, results⟩
  rw [ofSignature]
  rcases mem_append.mp declared with declared | ofResults
  · rcases mem_append.mp declared with ofTypeParams | ofParams
    · exact mem_append_left _ (mem_append_left _ (declared_mem_ofFieldList ofTypeParams))
    · exact mem_append_left _ (mem_append_right _ (declared_mem_ofFieldList ofParams))
  · exact mem_append_right _ (declared_mem_ofFieldList ofResults)

theorem declared_mem_ofSpec {spec : Spec} (declared : name ∈ spec.declared ∨ name ∈ spec.within) :
    Mention.declared name ∈ ofSpec spec := by
  cases spec with
  | importing doc given path comment => rcases declared with declared | declared <;> cases declared
  | value names type values hasComment =>
    rcases declared with declared | declared
    · rcases mem_map.mp declared with ⟨ident, isIdent, rfl⟩
      exact mem_append_left _ (mem_append_left _ (mem_map_of_mem isIdent))
    · cases declared
  | type ident typeParams assign type hasComment =>
    rw [ofSpec]
    rcases declared with declared | declared
    · cases mem_singleton.mp declared
      exact mem_cons_self
    · rcases mem_cons.mp declared with rfl | declared
      · exact mem_cons_self
      · exact mem_cons_of_mem _ (mem_append_left _ (declared_mem_ofFieldList declared))

theorem declared_mem_ofStmt (statement : Stmt) (declared : name ∈ statement.declared) :
    Mention.declared name ∈ ofStmt statement := by
  cases statement with
  | declaration group =>
    rcases mem_flatMap.mp declared with ⟨spec, isSpec, isName⟩
    rcases group with ⟨offset, keyword, lparen, specs, rparen⟩
    exact mem_ofSpecs.mpr ⟨spec, isSpec, declared_mem_ofSpec (.inl isName)⟩
  | labeled label colon statement => exact declared_mem_ofStmt statement declared
  | assign left offset operator right =>
    unfold Stmt.declared at declared
    unfold ofStmt
    split at declared
    next isDefine =>
      rw [if_pos isDefine]
      refine mem_append_left _ ?_
      rcases mem_filterMap.mp declared with ⟨expr, isExpr, isName⟩
      refine mem_filterMap.mpr ⟨expr, isExpr, ?_⟩
      cases expr with
      | ident ident =>
        cases isName
        rfl
      | _ => cases isName
    next => cases declared
  | _ => cases declared
termination_by structural statement

@[simp] theorem ofStmts_append (statements others : List Stmt) :
    ofStmts (statements ++ others) = ofStmts statements ++ ofStmts others := by
  induction statements with
  | nil => rfl
  | cons statement statements ih =>
    rw [cons_append, ofStmts, ofStmts, ih, append_assoc]

@[simp] theorem ofStmts_toList (statement? : Option Stmt) :
    ofStmts statement?.toList = ofOptionStmt statement? := by
  cases statement? with
  | none => rfl
  | some statement => exact append_nil _

theorem ofStmts_map_expression (exprs : List Expr) :
    ofStmts (exprs.map .expression) = ofExprs exprs := by
  induction exprs with
  | nil => rfl
  | cons expr exprs ih =>
    rw [map_cons, ofStmts, ofExprs, ih, ofStmt]

@[simp] theorem ofExprs_append (exprs others : List Expr) :
    ofExprs (exprs ++ others) = ofExprs exprs ++ ofExprs others := by
  induction exprs with
  | nil => rfl
  | cons expr exprs ih =>
    rw [cons_append, ofExprs, ofExprs, ih, append_assoc]

@[simp] theorem ofExprs_toList (expr? : Option Expr) : ofExprs expr?.toList = ofOption expr? := by
  cases expr? with
  | none => rfl
  | some expr => exact append_nil _

/-- The statements that a statement opens a scope for mention nothing of their own. -/
theorem mem_ofStmt_of_inner (statement : Stmt) {mention : Mention}
    (member : mention ∈ ofStmts statement.inner) : mention ∈ ofStmt statement := by
  cases statement with
  | bad | declaration | empty | expression | send | step | assign | go | defer | return_ | branch =>
    cases member
  | block body =>
    rcases body with ⟨lbrace, statements, rbrace⟩
    exact member
  | range offset key value operatorOffset operator keywordOffset subject body =>
    dsimp only [Stmt.inner] at member
    unfold ofStmt
    split at member
    next isDefine =>
      rw [if_pos isDefine]
      simp only [ofStmts, ofStmt, ofExprs, if_true, mem_append, append_nil] at member ⊢
      rcases member with ofSubject | ofNames | ofBody
      · exact .inl (.inr ofSubject)
      · exact .inl (.inl ofNames)
      · exact .inr ofBody
    next notDefine =>
      have notDefining : Token.assign ≠ .define := by decide
      rw [if_neg notDefine]
      simpa only [ofStmts, ofStmt, if_neg notDefining, ofExprs_append, ofExprs_toList, ofExprs,
        append_nil, append_assoc] using member
  | _ =>
    simpa only [Stmt.inner, ofStmts_append, ofStmts_toList, ofStmts_map_expression, ofExprs_toList,
      ofStmts, ofStmt, append_nil, append_assoc] using member

end Mention

/-! ## Occurrences in parts -/

/-- A name is mentioned as used, and is not mentioned as declared. -/
structure OnlyUsed (name : Bytes) (mentions : List Mention) : Prop where
  used : Mention.used name ∈ mentions
  undeclared : Mention.declared name ∉ mentions

/-- A name occurs freely in an expression. -/
def OccursIn (name : Bytes) (expr : Expr) : Prop :=
  ∃ role, Free name role (.expr expr)

/-- A name occurs freely in a statement. -/
def OccursInStmt (name : Bytes) (statement : Stmt) : Prop :=
  ∃ role, Free name role (.stmt statement)

namespace Free

variable {name : Bytes}

theorem eq_of_bareName {role : Role} {bare : Bytes} (expr : Expr) (isBare : expr.bareName? = some bare)
    (occurs : Free name role (.expr expr)) : bare = name := by
  cases expr with
  | ident ident =>
    cases isBare
    cases occurs with
    | ident same => exact same
    | operand isOperand => cases isOperand
  | paren lparen inner rparen =>
    cases occurs with
    | operand isOperand inside =>
      cases mem_singleton.mp isOperand
      exact eq_of_bareName inner isBare inside
  | _ => cases isBare
termination_by structural expr

/-- A name on the left-hand side of an assignment is a target, if it stands alone there,
and is evaluated otherwise. -/
theorem of_target {left right : List Expr} {offset : Nat} {expr : Expr} (isLeft : expr ∈ left)
    (occurs : OccursIn name expr) : OccursInStmt name (.assign left offset .assign right) := by
  rcases occurs with ⟨role, occurs⟩
  cases isBare : expr.bareName? with
  | some bare =>
    cases eq_of_bareName expr isBare occurs
    exact ⟨.target, .target (mem_filterMap.mpr ⟨expr, isLeft, isBare⟩)⟩
  | none =>
    refine ⟨role, .evaluated (mem_append_left _ (mem_filter.mpr ⟨isLeft, ?_⟩)) occurs⟩
    rw [isBare]
    rfl

theorem of_statements {statements : List Stmt}
    (undeclared : Mention.declared name ∉ Mention.ofStmts statements)
    (among : ∃ statement ∈ statements, OccursInStmt name statement) :
    ∃ role, Free name role (.block statements) := by
  rcases among with ⟨statement, member, role, occurs⟩
  refine ⟨role, ?_⟩
  induction statements with
  | nil => cases member
  | cons first statements ih =>
    rw [Mention.ofStmts] at undeclared
    rcases mem_cons.mp member with rfl | isLater
    · exact .head occurs
    · refine .tail (fun declared => undeclared ?_) (ih (fun declared => undeclared ?_) isLater)
      · exact mem_append_left _ (Mention.declared_mem_ofStmt first declared)
      · exact mem_append_right _ declared

theorem of_block {block : Block} (occurs : ∃ role, Free name role (.block block.statements)) :
    OccursInStmt name (.block block) := by
  rcases occurs with ⟨role, occurs⟩
  exact ⟨role, .inner occurs⟩

theorem of_group {group : DeclGroup}
    (undeclared : Mention.declared name ∉ Mention.ofStmt (.declaration group))
    (among : ∃ spec ∈ group.specs, ∃ operand ∈ SpecOf.operands spec, OccursIn name operand) :
    OccursInStmt name (.declaration group) := by
  rcases among with ⟨spec, isSpec, operand, isOperand, role, occurs⟩
  rcases append_of_mem isSpec with ⟨earlier, later, specs⟩
  have nowhere (other : Spec) (isOther : other ∈ group.specs) : Mention.declared name ∉
      Mention.ofSpec other := by
    rcases group with ⟨offset, keyword, lparen, all, rparen⟩
    exact fun declared => undeclared (Mention.mem_ofSpecs.mpr ⟨other, isOther, declared⟩)
  refine ⟨role, .specified specs (fun declared => ?_) (fun declared => ?_) isOperand occurs⟩
  · rcases mem_flatMap.mp declared with ⟨other, isEarlier, isDeclared⟩
    refine nowhere other ?_ (Mention.declared_mem_ofSpec (.inl isDeclared))
    rw [specs]
    exact mem_append_left _ isEarlier
  · exact nowhere spec isSpec (Mention.declared_mem_ofSpec (.inr declared))

theorem of_inner {statement : Stmt} (undeclared : Mention.declared name ∉ Mention.ofStmt statement)
    (among : ∃ part ∈ statement.inner, OccursInStmt name part) : OccursInStmt name statement := by
  rcases of_statements (fun declared => undeclared (Mention.mem_ofStmt_of_inner _ declared)) among with
    ⟨role, occurs⟩
  exact ⟨role, .inner occurs⟩

end Free
end CaseExpansion
