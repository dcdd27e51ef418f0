import CaseExpansion.Source.Tree

namespace CaseExpansion

open Source

/-!
# References of a function body

Which names does a body use and never declare?  The body is read once, and
every name in it is mentioned as used or as declared.  Selected names, names of
fields and methods, bare keys of composite literals and labels are not uses.
The left-hand side of a short declaration is not used either, and its bare
names are declared.

A name that is declared anywhere in the body does not count as referenced, even
where it is used outside of the scope of the declaration.  A parameter that is
left out wrongly costs no more than a superfluous guard.
-/

inductive Mention where
  | used (name : Bytes)
  | declared (name : Bytes)
deriving DecidableEq, Repr

namespace Mention

def declaredNames (exprs : List Expr) : List Mention :=
  exprs.filterMap fun
    | .ident name => some (.declared name.name)
    | _ => none

mutual
def ofExpr : Expr → List Mention
  | .bad .. => []
  | .ident name => [.used name.name]
  | .literal _ => []
  | .function signature body => ofSignature signature ++ ofBlock body
  | .composite type _ elements _ => ofOption type ++ ofElements elements
  | .paren _ inner _ => ofExpr inner
  | .selector base _ => ofExpr base
  | .index base _ indices _ => ofExpr base ++ ofExprs indices
  | .slice base _ low high max _ _ => ofExpr base ++ ofOption low ++ ofOption high ++ ofOption max
  | .assertion base _ type _ => ofExpr base ++ ofOption type
  | .call callee _ arguments _ _ => ofExpr callee ++ ofExprs arguments
  | .star _ inner => ofExpr inner
  | .unary _ _ operand => ofExpr operand
  | .binary left _ _ right => ofExpr left ++ ofExpr right
  | .keyValue key _ value => ofExpr key ++ ofExpr value
  | .ellipsis _ element => ofOption element
  | .arrayType _ length element => ofOption length ++ ofExpr element
  | .structType _ fields => ofFieldList fields
  | .funcType signature => ofSignature signature
  | .interfaceType _ methods => ofFieldList methods
  | .mapType _ key value => ofExpr key ++ ofExpr value
  | .chanType _ _ _ value => ofExpr value
termination_by structural expr => expr

def ofOption : Option Expr → List Mention
  | none => []
  | some expr => ofExpr expr
termination_by structural expr? => expr?

def ofExprs : List Expr → List Mention
  | [] => []
  | expr :: exprs => ofExpr expr ++ ofExprs exprs
termination_by structural exprs => exprs

/-- The names in the elements of a composite literal.  A bare key may be the
name of a field and is left out. -/
def ofElements : List Expr → List Mention
  | [] => []
  | .keyValue (.ident _) _ value :: elements => ofExpr value ++ ofElements elements
  | element :: elements => ofExpr element ++ ofElements elements
termination_by structural elements => elements

def ofField : FieldOf Expr → List Mention
  | ⟨names, type, _, _⟩ => names.map (fun name => .declared name.name) ++ ofExpr type
termination_by structural field => field

def ofFields : List (FieldOf Expr) → List Mention
  | [] => []
  | field :: fields => ofField field ++ ofFields fields
termination_by structural fields => fields

def ofFieldList : FieldListOf Expr → List Mention
  | ⟨_, fields, _⟩ => ofFields fields
termination_by structural list => list

def ofSignature : SignatureOf Expr → List Mention
  | ⟨_, typeParams, params, results⟩ =>
    ofFieldList typeParams ++ ofFieldList params ++ ofFieldList results
termination_by structural signature => signature

def ofSpec : SpecOf Expr → List Mention
  | .importing .. => []
  | .value names type values _ =>
    names.map (fun name => .declared name.name) ++ ofOption type ++ ofExprs values
  | .type name typeParams _ type _ =>
    .declared name.name :: (ofFieldList typeParams ++ ofExpr type)
termination_by structural spec => spec

def ofSpecs : List (SpecOf Expr) → List Mention
  | [] => []
  | spec :: specs => ofSpec spec ++ ofSpecs specs
termination_by structural specs => specs

def ofGroup : GroupOf Expr → List Mention
  | ⟨_, _, _, specs, _⟩ => ofSpecs specs
termination_by structural group => group

def ofStmt : Stmt → List Mention
  | .bad .. | .empty .. => []
  | .declaration group => ofGroup group
  | .labeled _ _ statement => ofStmt statement
  | .expression expr => ofExpr expr
  | .send channel _ value => ofExpr channel ++ ofExpr value
  | .step operand _ _ => ofExpr operand
  | .assign left _ operator right =>
    if operator = .define then declaredNames left ++ ofExprs right
    else ofExprs left ++ ofExprs right
  | .go _ call => ofExpr call
  | .defer _ call => ofExpr call
  | .return_ _ results => ofExprs results
  | .branch .. => []
  | .block body => ofBlock body
  | .if_ _ init condition body otherwise =>
    ofOptionStmt init ++ ofExpr condition ++ ofBlock body ++ ofOptionStmt otherwise
  | .switch _ init tag body => ofOptionStmt init ++ ofOption tag ++ ofBlock body
  | .typeSwitch _ init guard body => ofOptionStmt init ++ ofStmt guard ++ ofBlock body
  | .caseClause _ values _ body => ofExprs values ++ ofStmts body
  | .select _ body => ofBlock body
  | .commClause _ communication _ body => ofOptionStmt communication ++ ofStmts body
  | .for_ _ init condition post body =>
    ofOptionStmt init ++ ofOption condition ++ ofOptionStmt post ++ ofBlock body
  | .range _ key value _ operator _ subject body =>
    if operator = some .define then
      declaredNames (key.toList ++ value.toList) ++ ofExpr subject ++ ofBlock body
    else ofOption key ++ ofOption value ++ ofExpr subject ++ ofBlock body
termination_by structural statement => statement

def ofOptionStmt : Option Stmt → List Mention
  | none => []
  | some statement => ofStmt statement
termination_by structural statement? => statement?

def ofStmts : List Stmt → List Mention
  | [] => []
  | statement :: statements => ofStmt statement ++ ofStmts statements
termination_by structural statements => statements

def ofBlock : BlockOf Stmt → List Mention
  | ⟨_, statements, _⟩ => ofStmts statements
termination_by structural block => block
end

end Mention

/-- Adds a name to names in order, unless it is among them. -/
def insertName (name : Bytes) : List Bytes → List Bytes
  | [] => [name]
  | first :: rest =>
    match Bytes.compare name first with
    | .lt => name :: first :: rest
    | .eq => first :: rest
    | .gt => first :: insertName name rest

/-- The names that a block uses and nowhere declares, each once, in order. -/
def references (body : Block) : List Bytes :=
  let mentions := Mention.ofBlock body
  let free := mentions.filterMap fun
    | .used name => if mentions.contains (.declared name) then none else some name
    | .declared _ => none
  free.foldr insertName []

end CaseExpansion
