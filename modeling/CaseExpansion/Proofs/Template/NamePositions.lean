import CaseExpansion.Proofs.Sorting
import CaseExpansion.Proofs.Template.Scope

namespace CaseExpansion

open List Source

/-!
# Where the names of a body stand

`references` reads a body by one function for each kind of node.  What it should find is said here
without following it.  A node has the nodes right inside it as its children, each at a place.  A
name is used where it can be reached from the body through plain places only, and a construct
declares names wherever it stands.

The two agree, apart from declarations on the left-hand side of `:=`.  Nothing there is looked at,
so that a function literal on such a side may declare a name that is taken for a free one.
-/

namespace Source

/-- Where a node stands in the one around it. -/
inductive Place where
  /-- None of the places below. -/
  | plain
  /-- The name that is selected. -/
  | selected
  /-- A bare name as a key in a composite literal. -/
  | key
  /-- A name of a field, a method, a parameter or a result. -/
  | fieldName
  /-- The label of a statement, or the one that a branch names. -/
  | label
  /-- The left-hand side of `:=`, or the key or value of a range clause with it. -/
  | defined
  /-- A name that is introduced by a declaration of variables, constants or types. -/
  | introduced
  /-- The name that is given to an import. -/
  | imported
deriving DecidableEq, Repr

/-- A part of a tree that may have parts of its own. -/
inductive Node where
  | name (ident : Ident)
  | expr (expr : Expr)
  | field (field : Field)
  | spec (spec : Spec)
  | stmt (statement : Stmt)
  | block (block : Block)

namespace Node

/-- Names at a place. -/
def names (place : Place) (idents : List Ident) : List (Place × Node) :=
  idents.map fun ident => (place, .name ident)

/-- Expressions at a place. -/
def exprs (place : Place) (exprs : List Expr) : List (Place × Node) :=
  exprs.map fun expr => (place, .expr expr)

/-- Statements. -/
def stmts (statements : List Stmt) : List (Place × Node) :=
  statements.map fun statement => (.plain, .stmt statement)

/-- The fields of a list. -/
def fields (list : FieldList) : List (Place × Node) :=
  list.fields.map fun field => (.plain, .field field)

/-- The fields of a signature. -/
def signature (signature : Signature) : List (Place × Node) :=
  fields signature.typeParams ++ fields signature.params ++ fields signature.results

/-- What stands in an element of a composite literal. -/
def element : Expr → List (Place × Node)
  | .keyValue (.ident key) _ value => [(.key, .name key), (.plain, .expr value)]
  | element => [(.plain, .expr element)]

/-- The place of what stands to the left of an operator. -/
def side (defines : Prop) [Decidable defines] : Place :=
  if defines then .defined else .plain

/-- The nodes right inside an expression. -/
def ofExpr : Expr → List (Place × Node)
  | .bad .. | .literal _ => []
  | .ident ident => [(.plain, .name ident)]
  | .function type body => signature type ++ [(.plain, .block body)]
  | .composite type _ elements _ => exprs .plain type.toList ++ elements.flatMap element
  | .paren _ inner _ => exprs .plain [inner]
  | .selector base chosen => [(.plain, .expr base), (.selected, .name chosen)]
  | .index base _ indices _ => exprs .plain (base :: indices)
  | .slice base _ low high max _ _ => exprs .plain (base :: (low.toList ++ high.toList ++ max.toList))
  | .assertion base _ type _ => exprs .plain (base :: type.toList)
  | .call callee _ arguments _ _ => exprs .plain (callee :: arguments)
  | .star _ inner => exprs .plain [inner]
  | .unary _ _ operand => exprs .plain [operand]
  | .binary left _ _ right => exprs .plain [left, right]
  | .keyValue key _ value => exprs .plain [key, value]
  | .ellipsis _ element => exprs .plain element.toList
  | .arrayType _ length element => exprs .plain (length.toList ++ [element])
  | .structType _ list => fields list
  | .funcType type => signature type
  | .interfaceType _ list => fields list
  | .mapType _ key value => exprs .plain [key, value]
  | .chanType _ _ _ value => exprs .plain [value]

/-- The nodes right inside a specification. -/
def ofSpec : Spec → List (Place × Node)
  | .importing _ given _ _ => names .imported given.toList
  | .value idents type values _ => names .introduced idents ++ exprs .plain (type.toList ++ values)
  | .type ident typeParams _ type _ =>
    names .introduced [ident] ++ fields typeParams ++ exprs .plain [type]

/-- The nodes right inside a statement. -/
def ofStmt : Stmt → List (Place × Node)
  | .bad .. | .empty .. => []
  | .declaration group => group.specs.map fun spec => (.plain, .spec spec)
  | .labeled label _ statement => names .label [label] ++ stmts [statement]
  | .expression inner => exprs .plain [inner]
  | .send channel _ value => exprs .plain [channel, value]
  | .step operand _ _ => exprs .plain [operand]
  | .assign left _ operator right => exprs (side (operator = .define)) left ++ exprs .plain right
  | .go _ call => exprs .plain [call]
  | .defer _ call => exprs .plain [call]
  | .return_ _ results => exprs .plain results
  | .branch _ _ label => names .label label.toList
  | .block body => [(.plain, .block body)]
  | .if_ _ init condition body otherwise =>
    stmts init.toList ++ exprs .plain [condition] ++ [(.plain, .block body)] ++ stmts otherwise.toList
  | .switch _ init tag body => stmts init.toList ++ exprs .plain tag.toList ++ [(.plain, .block body)]
  | .typeSwitch _ init guard body => stmts (init.toList ++ [guard]) ++ [(.plain, .block body)]
  | .caseClause _ values _ body => exprs .plain values ++ stmts body
  | .select _ body => [(.plain, .block body)]
  | .commClause _ communication _ body => stmts (communication.toList ++ body)
  | .for_ _ init condition post body =>
    stmts init.toList ++ exprs .plain condition.toList ++ stmts post.toList ++ [(.plain, .block body)]
  | .range _ key value _ operator _ subject body =>
    exprs (side (operator = some .define)) (key.toList ++ value.toList) ++ exprs .plain [subject] ++
      [(.plain, .block body)]

/-- The nodes right inside a node, with their places. -/
def children : Node → List (Place × Node)
  | .name _ => []
  | .expr inner => ofExpr inner
  | .field declaring => names .fieldName declaring.names ++ exprs .plain [declaring.type]
  | .spec declaring => ofSpec declaring
  | .stmt statement => ofStmt statement
  | .block body => stmts body.statements

/-- The bare names among expressions. -/
def bareNames (exprs : List Expr) : List Bytes :=
  exprs.filterMap fun
    | .ident ident => some ident.name
    | _ => none

/-- The names that a construct declares. -/
def declared : Node → List Bytes
  | .field declaring => declaring.names.map Ident.name
  | .spec declaring => declaring.declared
  | .stmt (.assign left _ operator _) => if operator = .define then bareNames left else []
  | .stmt (.range _ key value _ operator _ _ _) =>
    if operator = some .define then bareNames (key.toList ++ value.toList) else []
  | _ => []

/-- The last node is reached from the first through the given places. -/
inductive Path : Node → List Place → Node → Prop where
  | here (node : Node) : Path node [] node
  | inside {node child last : Node} {place : Place} {places : List Place}
      (isChild : (place, child) ∈ node.children) (rest : Path child places last) :
      Path node (place :: places) last

end Node
end Source

/-- A name is used in a body. -/
def UsedIn (name : Bytes) (body : Block) : Prop :=
  ∃ places ident, Node.Path (.block body) places (.name ident) ∧ ident.name = name ∧
    ∀ place ∈ places, place = .plain

/-- A construct anywhere in a body declares a name. -/
def DeclaredIn (name : Bytes) (body : Block) : Prop :=
  ∃ places node, Node.Path (.block body) places node ∧ name ∈ node.declared

/-- A construct that is on no left-hand side of `:=` declares a name. -/
def DeclaredAside (name : Bytes) (body : Block) : Prop :=
  ∃ places node, Node.Path (.block body) places node ∧ name ∈ node.declared ∧ .defined ∉ places

/-! ## The mentions of a node -/

namespace Source.Node

/-- The names that are read off a node. -/
def mentions : Node → List Mention
  | .name ident => [.used ident.name]
  | .expr inner => Mention.ofExpr inner
  | .field declaring => Mention.ofField declaring
  | .spec declaring => Mention.ofSpec declaring
  | .stmt statement => Mention.ofStmt statement
  | .block body => Mention.ofBlock body

/-- What a node mentions by itself. -/
def own : Node → List Mention
  | .name ident => [.used ident.name]
  | node => node.declared.map .declared

/-- What nodes at plain places mention. -/
def within (entries : List (Place × Node)) : List Mention :=
  entries.flatMap fun entry => if entry.1 = .plain then entry.2.mentions else []

@[simp] theorem within_nil : within [] = [] := rfl

@[simp] theorem within_cons (entry : Place × Node) (entries : List (Place × Node)) :
    within (entry :: entries) = (if entry.1 = .plain then entry.2.mentions else []) ++
      within entries := rfl

@[simp] theorem within_append (entries later : List (Place × Node)) :
    within (entries ++ later) = within entries ++ within later :=
  flatMap_append

theorem within_eq_nil {entries : List (Place × Node)} (aside : ∀ entry ∈ entries, entry.1 ≠ .plain) :
    within entries = [] := by
  refine flatMap_eq_nil_iff.mpr fun entry member => ?_
  rw [if_neg (aside entry member)]

variable {place : Place} {node : Node} {bound : Nat}

theorem within_names (aside : place ≠ .plain) (idents : List Ident) :
    within (names place idents) = [] := by
  refine within_eq_nil fun entry member => ?_
  rcases mem_map.mp member with ⟨ident, _, rfl⟩
  exact aside

@[simp] theorem within_exprs (list : List Expr) : within (exprs .plain list) = Mention.ofExprs list := by
  induction list with
  | nil => rfl
  | cons first list ih => exact congrArg (Mention.ofExpr first ++ ·) ih

theorem within_exprs_aside (list : List Expr) : within (exprs .defined list) = [] := by
  refine within_eq_nil fun entry member => ?_
  rcases mem_map.mp member with ⟨inner, _, rfl⟩
  exact Place.noConfusion

@[simp] theorem within_stmts (statements : List Stmt) :
    within (stmts statements) = Mention.ofStmts statements := by
  induction statements with
  | nil => rfl
  | cons first later ih => exact congrArg (Mention.ofStmt first ++ ·) ih

@[simp] theorem within_specs (specs : List Spec) :
    within (specs.map fun declaring => (.plain, .spec declaring)) = Mention.ofSpecs specs := by
  induction specs with
  | nil => rfl
  | cons first later ih => exact congrArg (Mention.ofSpec first ++ ·) ih

@[simp] theorem within_fields (list : FieldList) : within (fields list) = Mention.ofFieldList list := by
  rcases list with ⟨opening, members, closing⟩
  show within (members.map fun declaring => (.plain, .field declaring)) = Mention.ofFields members
  induction members with
  | nil => rfl
  | cons first later ih => exact congrArg (Mention.ofField first ++ ·) ih

@[simp] theorem within_signature (type : Signature) :
    within (signature type) = Mention.ofSignature type := by
  rcases type with ⟨keyword, typeParams, params, results⟩
  simp [signature, Mention.ofSignature]

@[simp] theorem within_elements (elements : List Expr) :
    within (elements.flatMap element) = Mention.ofElements elements := by
  induction elements with
  | nil => rfl
  | cons first later ih =>
    rw [flatMap_cons, within_append, ih]
    unfold element
    split
    · simp [mentions, Mention.ofElements]
    · simp [mentions, Mention.ofElements]

theorem declaredNames_eq (list : List Expr) :
    Mention.declaredNames list = (bareNames list).map .declared := by
  unfold Mention.declaredNames bareNames
  rw [map_filterMap]
  refine filterMap_congr fun inner _ => ?_
  cases inner <;> rfl

/-- An expression mentions what the nodes inside it do. -/
theorem within_ofExpr (inner : Expr) : within (ofExpr inner) = Mention.ofExpr inner := by
  cases inner <;> simp [ofExpr, Mention.ofExpr, mentions, Mention.ofExprs]

theorem mentions_ofSpec (declaring : Spec) :
    Mention.ofSpec declaring = declaring.declared.map .declared ++ within (ofSpec declaring) := by
  cases declaring with
  | importing doc given path comment => exact (within_names (by decide) _).symm
  | value idents type values hasComment =>
    simp [ofSpec, Mention.ofSpec, SpecOf.declared, within_names]
  | type ident typeParams assign type hasComment =>
    simp [ofSpec, Mention.ofSpec, SpecOf.declared, within_names, Mention.ofExprs]

theorem mentions_ofStmt (statement : Stmt) :
    Mention.ofStmt statement = (declared (.stmt statement)).map .declared ++
      within (ofStmt statement) := by
  cases statement with
  | declaration group =>
    rcases group with ⟨offset, keyword, lparen, specs, rparen⟩
    simp [ofStmt, Mention.ofStmt, Mention.ofGroup, declared]
  | assign left offset operator right =>
    by_cases defines : operator = .define <;>
      simp [ofStmt, Mention.ofStmt, declared, side, defines, within_exprs_aside, declaredNames_eq]
  | range offset key value operatorOffset operator keywordOffset subject body =>
    by_cases defines : operator = some .define <;>
      simp [ofStmt, Mention.ofStmt, Mention.ofExprs, mentions, declared, side, defines,
        within_exprs_aside, declaredNames_eq]
  | _ =>
    simp [ofStmt, Mention.ofStmt, Mention.ofExprs, Mention.ofStmts, mentions, declared, within_names]

/-- A node mentions what it declares itself, and what the nodes at plain places in it mention. -/
theorem mentions_eq (node : Node) : node.mentions = node.own ++ within node.children := by
  cases node with
  | name ident => rfl
  | expr inner => exact (within_ofExpr inner).symm
  | field declaring =>
    rcases declaring with ⟨idents, type, tag, hasComment⟩
    simp [mentions, own, declared, children, Mention.ofField, within_names, Mention.ofExprs]
  | spec declaring => exact mentions_ofSpec declaring
  | stmt statement => exact mentions_ofStmt statement
  | block body =>
    rcases body with ⟨lbrace, statements, rbrace⟩
    exact (within_stmts statements).symm

/-! ## Reaching what is mentioned -/

/-- Nodes are small. -/
def AreBelow (bound : Nat) (entries : List (Place × Node)) : Prop :=
  ∀ entry ∈ entries, sizeOf entry.2 ≤ bound

@[simp] theorem areBelow_nil (bound : Nat) : AreBelow bound [] :=
  forall_mem_nil _

@[simp] theorem areBelow_cons (bound : Nat) (entry : Place × Node) (entries : List (Place × Node)) :
    AreBelow bound (entry :: entries) ↔ sizeOf entry.2 ≤ bound ∧ AreBelow bound entries :=
  forall_mem_cons

@[simp] theorem areBelow_append (bound : Nat) (entries later : List (Place × Node)) :
    AreBelow bound (entries ++ later) ↔ AreBelow bound entries ∧ AreBelow bound later :=
  forall_mem_append

theorem areBelow_map {α : Type} [SizeOf α] {node : α → Node}
    (size : ∀ part, sizeOf (node part) = 1 + sizeOf part)
    {list : List α} (small : sizeOf list ≤ bound) :
    AreBelow bound (list.map fun part => (place, node part)) := by
  intro entry member
  rcases mem_map.mp member with ⟨part, isPart, rfl⟩
  have smaller := sizeOf_lt_of_mem isPart
  rw [size]
  omega

theorem sizeOf_toList_le {α : Type} [SizeOf α] (optional : Option α) :
    sizeOf optional.toList ≤ 1 + sizeOf optional := by
  cases optional with
  | none => simp
  | some inner =>
    simp only [Option.toList_some, List.cons.sizeOf_spec, List.nil.sizeOf_spec, Option.some.sizeOf_spec]
    omega

theorem areBelow_names {idents : List Ident} (small : sizeOf idents ≤ bound) :
    AreBelow bound (names place idents) :=
  areBelow_map (fun _ => rfl) small

theorem areBelow_exprs {list : List Expr} (small : sizeOf list ≤ bound) :
    AreBelow bound (exprs place list) :=
  areBelow_map (fun _ => rfl) small

theorem areBelow_stmts {statements : List Stmt} (small : sizeOf statements ≤ bound) :
    AreBelow bound (stmts statements) :=
  areBelow_map (fun _ => rfl) small

theorem areBelow_fields {list : FieldList} (small : sizeOf list ≤ bound) :
    AreBelow bound (fields list) := by
  rcases list with ⟨opening, members, closing⟩
  refine areBelow_map (fun _ => rfl) ?_
  simp at small
  simp
  omega

theorem areBelow_signature {type : Signature} (small : sizeOf type ≤ bound) :
    AreBelow bound (signature type) := by
  rcases type with ⟨keyword, typeParams, params, results⟩
  simp at small
  simp only [signature, areBelow_append]
  exact ⟨⟨areBelow_fields (by omega), areBelow_fields (by omega)⟩, areBelow_fields (by omega)⟩

theorem areBelow_elements {elements : List Expr} (small : sizeOf elements ≤ bound) :
    AreBelow bound (elements.flatMap element) := by
  induction elements with
  | nil => exact areBelow_nil bound
  | cons first later ih =>
    simp at small
    rw [flatMap_cons, areBelow_append]
    refine ⟨?_, ih (by omega)⟩
    unfold element
    split
    · simp at small
      simp
      omega
    · simp
      omega

@[simp] theorem names_singleton (place : Place) (ident : Ident) :
    names place [ident] = [(place, .name ident)] := rfl

@[simp] theorem exprs_nil (place : Place) : exprs place [] = [] := rfl

@[simp] theorem exprs_cons (place : Place) (first : Expr) (later : List Expr) :
    exprs place (first :: later) = (place, .expr first) :: exprs place later := rfl

@[simp] theorem exprs_append (place : Place) (list later : List Expr) :
    exprs place (list ++ later) = exprs place list ++ exprs place later :=
  map_append

theorem areBelow_exprs_toList {optional : Option Expr} (small : 1 + sizeOf optional ≤ bound) :
    AreBelow bound (exprs place optional.toList) :=
  areBelow_exprs (le_trans (sizeOf_toList_le optional) small)

theorem areBelow_ofExpr (inner : Expr) : AreBelow (sizeOf inner) (ofExpr inner) := by
  cases inner <;>
    simp (disch := omega) [ofExpr, areBelow_exprs, areBelow_exprs_toList, areBelow_fields,
      areBelow_signature, areBelow_elements]
  all_goals omega

@[simp] theorem stmts_nil : stmts [] = [] := rfl

@[simp] theorem stmts_cons (first : Stmt) (later : List Stmt) :
    stmts (first :: later) = (.plain, .stmt first) :: stmts later := rfl

@[simp] theorem stmts_append (list later : List Stmt) :
    stmts (list ++ later) = stmts list ++ stmts later :=
  map_append

theorem areBelow_stmts_toList {optional : Option Stmt} (small : 1 + sizeOf optional ≤ bound) :
    AreBelow bound (stmts optional.toList) :=
  areBelow_stmts (le_trans (sizeOf_toList_le optional) small)

theorem areBelow_names_toList {optional : Option Ident} (small : 1 + sizeOf optional ≤ bound) :
    AreBelow bound (names place optional.toList) :=
  areBelow_names (le_trans (sizeOf_toList_le optional) small)

theorem areBelow_specs {group : DeclGroup} (small : sizeOf group ≤ bound) :
    AreBelow bound (group.specs.map fun declaring => (.plain, .spec declaring)) := by
  rcases group with ⟨offset, keyword, lparen, specs, rparen⟩
  refine areBelow_map (fun _ => rfl) ?_
  simp at small
  simp
  omega

theorem areBelow_ofSpec (declaring : Spec) : AreBelow (sizeOf declaring) (ofSpec declaring) := by
  cases declaring <;>
    simp (disch := omega) [ofSpec, areBelow_names, areBelow_names_toList, areBelow_exprs,
      areBelow_exprs_toList, areBelow_fields]
  all_goals omega

theorem areBelow_ofStmt (statement : Stmt) : AreBelow (sizeOf statement) (ofStmt statement) := by
  cases statement <;>
    simp (disch := omega) [ofStmt, areBelow_names_toList, areBelow_exprs, areBelow_exprs_toList,
      areBelow_stmts, areBelow_stmts_toList, areBelow_specs]
  all_goals omega

theorem areBelow_ofField (declaring : Field) : AreBelow (sizeOf declaring)
      (children (.field declaring)) := by
  rcases declaring with ⟨idents, type, tag, hasComment⟩
  simp (disch := omega) [children, areBelow_names]
  omega

/-- A tree has no node within itself. -/
theorem sizeOf_lt_of_mem_children {child : Node} (isChild : (place, child) ∈ node.children) :
    sizeOf child < sizeOf node := by
  cases node with
  | name ident => cases isChild
  | expr inner =>
    have below := areBelow_ofExpr inner _ isChild
    simp at below ⊢
    omega
  | field declaring =>
    have below := areBelow_ofField declaring _ isChild
    simp at below ⊢
    omega
  | spec declaring =>
    have below := areBelow_ofSpec declaring _ isChild
    simp at below ⊢
    omega
  | stmt statement =>
    have below := areBelow_ofStmt statement _ isChild
    simp at below ⊢
    omega
  | block body =>
    rcases body with ⟨lbrace, statements, rbrace⟩
    have below : sizeOf child ≤ _ := areBelow_stmts (le_refl (sizeOf statements)) _ isChild
    simp
    omega

/-- What a node mentions is mentioned by a node that is reached through plain places. -/
theorem exists_path_of_mem_mentions {node : Node} {mention : Mention} (member : mention ∈ node.mentions) :
    ∃ places last, Path node places last ∧ (∀ place ∈ places, place = .plain) ∧ mention ∈ last.own := by
  rw [mentions_eq, mem_append] at member
  rcases member with isOwn | isWithin
  · exact ⟨[], node, .here node, forall_mem_nil _, isOwn⟩
  · rcases mem_flatMap.mp isWithin with ⟨⟨place, child⟩, isChild, member⟩
    split at member
    next plain =>
      have smaller := sizeOf_lt_of_mem_children isChild
      rcases exists_path_of_mem_mentions member with ⟨places, last, path, allPlain, isOwn⟩
      exact ⟨place :: places, last, .inside isChild path, forall_mem_cons.mpr ⟨plain, allPlain⟩, isOwn⟩
    next => cases member
termination_by sizeOf node

theorem mem_mentions_of_child {child : Node} (isChild : (.plain, child) ∈ node.children)
    {mention : Mention} (member : mention ∈ child.mentions) : mention ∈ node.mentions := by
  rw [mentions_eq]
  refine mem_append_right _ (mem_flatMap.mpr ⟨(.plain, child), isChild, ?_⟩)
  rwa [if_pos rfl]

theorem mem_mentions_of_path {last : Node} {places : List Place} (path : Path node places last)
    (allPlain : ∀ place ∈ places, place = .plain) {mention : Mention} (isOwn : mention ∈ last.own) :
    mention ∈ node.mentions := by
  induction path with
  | here node =>
    rw [mentions_eq]
    exact mem_append_left _ isOwn
  | @inside node child last place places isChild rest ih =>
    rcases forall_mem_cons.mp allPlain with ⟨rfl, allPlainLater⟩
    exact mem_mentions_of_child isChild (ih allPlainLater isOwn)

theorem used_mem_own_iff {used : Bytes} :
    Mention.used used ∈ node.own ↔ ∃ ident, node = .name ident ∧ ident.name = used := by
  cases node <;> simp [own, eq_comm]

theorem declared_mem_own_iff {introduced : Bytes} :
    Mention.declared introduced ∈ node.own ↔ introduced ∈ node.declared := by
  cases node <;> simp [own, declared]

/-- A node that is no name stands at a plain place or on a left-hand side. -/
def IsPlaced (entry : Place × Node) : Prop :=
  entry.1 = .plain ∨ entry.1 = .defined ∨ ∃ ident, entry.2 = .name ident

theorem isPlaced_of_mem_element {inner : Expr} {entry : Place × Node} (member : entry ∈ element inner) :
    IsPlaced entry := by
  unfold element at member
  split at member
  · rcases mem_pair.mp member with rfl | rfl
    · exact .inr (.inr ⟨_, rfl⟩)
    · exact .inl rfl
  · cases mem_singleton.mp member
    exact .inl rfl

/-- Only names stand at other places than plain ones and left-hand sides. -/
theorem isPlaced_of_mem_children (node : Node) : ∀ entry ∈ node.children, IsPlaced entry := by
  cases node with
  | name ident => simp [children]
  | expr inner =>
    cases inner with
    | composite type lbrace elements rbrace =>
      intro entry member
      rcases mem_append.mp member with isType | isElement
      · rcases mem_map.mp isType with ⟨inner, _, rfl⟩
        exact .inl rfl
      · rcases mem_flatMap.mp isElement with ⟨inner, _, member⟩
        exact isPlaced_of_mem_element member
    | _ => simp [children, ofExpr, exprs, fields, signature, IsPlaced, or_imp, forall_and]
  | field declaring => simp [children, names, exprs, IsPlaced, or_imp, forall_and]
  | spec declaring =>
    cases declaring <;> simp [children, ofSpec, names, exprs, fields, IsPlaced, or_imp, forall_and]
  | stmt statement =>
    cases statement <;>
      simp [children, ofStmt, names, exprs, stmts, side, IsPlaced, or_imp, forall_and, ← imp_iff_not_or]
  | block body => simp [children, stmts, IsPlaced]

/-- A construct that declares names and is on no left-hand side is reached through plain places. -/
theorem Path.plain_of_declared {last : Node} {places : List Place} (path : Path node places last)
    {introduced : Bytes} (declares : introduced ∈ last.declared) (aside : .defined ∉ places) :
    ∀ place ∈ places, place = .plain := by
  induction path with
  | here node => exact forall_mem_nil _
  | @inside node child last place places isChild rest ih =>
    rw [mem_cons, not_or] at aside
    refine forall_mem_cons.mpr ⟨?_, ih declares aside.2⟩
    rcases isPlaced_of_mem_children node _ isChild with plain | defined | ⟨ident, isName⟩
    · exact plain
    · exact absurd defined.symm aside.1
    -- Nothing is inside a name, and a name declares nothing.
    · cases isName
      cases rest with
      | here => cases declares
      | inside impossible => cases impossible

end Source.Node

/-! ## The names that a body refers to -/

variable {name : Bytes} {body : Block}

theorem mem_insertName_iff {other : Bytes} {names : List Bytes} :
    other ∈ insertName name names ↔ other = name ∨ other ∈ names := by
  induction names with
  | nil => rw [insertName, mem_singleton, or_iff_left not_mem_nil]
  | cons first names ih =>
    rw [insertName]
    rcases Bytes.compare_cases name first with ⟨isLess, _⟩ | ⟨isSame, rfl⟩ | ⟨isGreater, _⟩
    · rw [isLess]
      exact mem_cons
    · rw [isSame]
      exact (or_iff_right_of_imp fun isName => isName ▸ mem_cons_self).symm
    · rw [isGreater, mem_cons, ih, mem_cons]
      exact or_left_comm

theorem mem_foldr_insertName_iff {names : List Bytes} : name ∈ names.foldr insertName [] ↔
      name ∈ names := by
  induction names with
  | nil => rfl
  | cons first names ih =>
    rw [foldr_cons, mem_insertName_iff, ih, mem_cons]

/-- A body refers to the names that it only uses. -/
theorem mem_references_iff : name ∈ references body ↔ OnlyUsed name (Mention.ofBlock body) := by
  refine mem_foldr_insertName_iff.trans (mem_filterMap.trans ⟨?_, fun only => ?_⟩)
  · rintro ⟨mention, isMention, isName⟩
    cases mention with
    | declared other => cases isName
    | used other =>
      dsimp only at isName
      split at isName
      next => cases isName
      next undeclared =>
        cases isName
        exact ⟨isMention, fun declared => undeclared (contains_iff_mem.mpr declared)⟩
  · refine ⟨.used name, only.used, ?_⟩
    dsimp only
    rw [if_neg]
    exact fun contains => only.undeclared (contains_iff_mem.mp contains)

theorem used_mem_iff : .used name ∈ Mention.ofBlock body ↔ UsedIn name body := by
  constructor
  · intro member
    rcases Node.exists_path_of_mem_mentions (show _ ∈ Node.mentions (.block body) from member) with
      ⟨places, last, path, allPlain, isOwn⟩
    rcases Node.used_mem_own_iff.mp isOwn with ⟨ident, rfl, isName⟩
    exact ⟨places, ident, path, isName, allPlain⟩
  · rintro ⟨places, ident, path, isName, allPlain⟩
    exact Node.mem_mentions_of_path path allPlain (Node.used_mem_own_iff.mpr ⟨ident, rfl, isName⟩)

theorem declared_mem_iff : .declared name ∈ Mention.ofBlock body ↔ DeclaredAside name body := by
  constructor
  · intro member
    rcases Node.exists_path_of_mem_mentions (show _ ∈ Node.mentions (.block body) from member) with
      ⟨places, last, path, allPlain, isOwn⟩
    exact ⟨places, last, path, Node.declared_mem_own_iff.mp isOwn, fun defined =>
      Place.noConfusion (allPlain _ defined)⟩
  · rintro ⟨places, last, path, declares, aside⟩
    exact Node.mem_mentions_of_path path (path.plain_of_declared declares aside)
      (Node.declared_mem_own_iff.mpr declares)

/-- A body refers to the names that are used in it and that no construct in it declares, apart
from constructs on the left-hand side of `:=`.  That every construct counts is right for a name
exactly if the name is not used, or is declared elsewhere whenever it is declared on such a side. -/
theorem references_follow_rule_iff (body : Block) (name : Bytes) :
    (name ∈ references body ↔ UsedIn name body ∧ ¬ DeclaredAside name body) ∧
    ((name ∈ references body ↔ UsedIn name body ∧ ¬ DeclaredIn name body) ↔
      (UsedIn name body → DeclaredIn name body → DeclaredAside name body)) := by
  have found : name ∈ references body ↔ UsedIn name body ∧ ¬ DeclaredAside name body := by
    rw [mem_references_iff, ← used_mem_iff, ← declared_mem_iff]
    exact ⟨fun only => ⟨only.used, only.undeclared⟩, fun both => ⟨both.1, both.2⟩⟩
  have weaker : DeclaredAside name body → DeclaredIn name body := by
    rintro ⟨places, node, path, declares, _⟩
    exact ⟨places, node, path, declares⟩
  refine ⟨found, ?_⟩
  rw [found]
  constructor
  · intro rule used declared
    by_contra aside
    exact (rule.mp ⟨used, aside⟩).2 declared
  · intro covered
    refine and_congr_right fun used => not_congr ⟨weaker, covered used⟩

/-! ## Bodies that follow the rule, and one that does not -/

/-- The node that is reached through the children with the given numbers, with their places. -/
def Source.Node.follow? : Node → List Nat → Option (List Place × Node)
  | node, [] => some ([], node)
  | node, index :: rest => node.children[index]?.bind fun entry =>
    (follow? entry.2 rest).map fun reached => (entry.1 :: reached.1, reached.2)

theorem Source.Node.path_of_follow? {node last : Node} {indices : List Nat} {places : List Place}
    (reached : node.follow? indices = some (places, last)) : Path node places last := by
  induction indices generalizing node places with
  | nil =>
    cases reached
    exact .here _
  | cons index rest ih =>
    rcases Option.bind_eq_some_iff.mp reached with ⟨entry, isChild, mapped⟩
    rcases Option.map_eq_some_iff.mp mapped with ⟨⟨later, end_⟩, further, same⟩
    cases same
    exact .inside (mem_of_getElem? isChild) (ih further)

/-- Whether the body of the first function of a text passes a test. -/
def testsBody (text : Bytes) (test : Block → Bool) : Bool :=
  (parseFile "f.go" text).toOption.any fun source =>
    source.file.functions.any fun function => function.body.any test

theorem exists_of_testsBody {text : Bytes} {test : Block → Bool} (passes : testsBody text test = true) :
    ∃ source function body, parseFile "f.go" text = .ok source ∧ function ∈ source.file.functions ∧
      function.body = some body ∧ test body = true := by
  rcases exists_ok_of_any passes with ⟨source, parsed, passes⟩
  rcases any_eq_true.mp passes with ⟨function, isFunction, passes⟩
  rcases (Option.any_eq_true ..).mp passes with ⟨body, hasBody, passes⟩
  exact ⟨source, function, body, parsed, isFunction, hasBody, passes⟩

/-- A function with names at all places that a body has. -/
def manifoldFile : Bytes :=
  "package p\n\nfunc f() \x7b\nL:\n\tfor i := range xs \x7b\n\t\ts.n = T\x7bk: i, v: n\x7d\n\t\tbreak L\n\t\x7d\n\tvar m int\n\tg(func(p, int U) (r R) \x7b h(p, m) \x7d)\n\x7d\n"

/-- The names that the body of this function refers to.  The type of `m` is not among them, since
it has the name of a parameter. -/
def manifoldNames : List Bytes :=
  ["R", "T", "U", "g", "h", "n", "s", "xs"]

theorem references_of_manifold_file_follow_rule :
    ∃ source function body, parseFile "f.go" manifoldFile =
      .ok source ∧ function ∈ source.file.functions ∧ function.body = some body ∧
      ∀ name, UsedIn name body ∧ ¬ DeclaredAside name body ↔ name ∈ manifoldNames := by
  have computed : testsBody manifoldFile (fun body => references body == manifoldNames) = true := by
    decide +kernel
  rcases exists_of_testsBody computed with ⟨source, function, body, parsed, isFunction, hasBody, same⟩
  refine ⟨source, function, body, parsed, isFunction, hasBody, fun name => ?_⟩
  rw [← (references_follow_rule_iff body name).1, eq_of_beq same]

/-- A function with a function literal on the left-hand side of a short declaration. -/
def literalTargetFile : Bytes :=
  "package p\n\nfunc f() \x7b\na[func(n int) int \x7b return n \x7d(0)] := 1\ng(n)\n\x7d\n"

/-- A name that is declared on the left-hand side of a short declaration only is referred to. -/
theorem parameter_of_literal_target_is_referenced :
    ∃ source function body, parseFile "f.go" literalTargetFile = .ok source ∧
    function ∈ source.file.functions ∧
      function.body = some body ∧ DeclaredIn "n" body ∧ ("n" : Bytes) ∈ references body := by
  have computed : testsBody literalTargetFile (fun body => (references body).contains ("n" : Bytes) &&
      ((Node.block body).follow? [0, 0, 1, 0, 0]).any fun reached =>
        reached.2.declared.contains ("n" : Bytes)) = true := by decide +kernel
  rcases exists_of_testsBody computed with ⟨source, function, body, parsed, isFunction, hasBody, passes⟩
  rw [Bool.and_eq_true] at passes
  rcases (Option.any_eq_true ..).mp passes.2 with ⟨⟨places, node⟩, reached, declares⟩
  exact ⟨source, function, body, parsed, isFunction, hasBody,
    ⟨places, node, Node.path_of_follow? reached, contains_iff_mem.mp declares⟩,
    contains_iff_mem.mp passes.1⟩

end CaseExpansion
