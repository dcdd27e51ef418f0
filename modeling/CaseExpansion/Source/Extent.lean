import CaseExpansion.Source.Tree

namespace CaseExpansion
namespace Source

/-!
# Where a node starts and stops

The offset of the first byte of a node and the offset just after its last one,
computed from the tokens that bound it.
-/

namespace SignatureOf

/-- The offset at which a signature starts: its keyword, or the parentheses of
its parameters. -/
def start {ε : Type} (signature : SignatureOf ε) : Nat :=
  signature.keyword.getD (signature.params.opening.getD 0)

end SignatureOf

namespace Expr

mutual
def start : Expr → Nat
  | .bad start _ => start
  | .ident name => name.offset
  | .literal value => value.offset
  | .function signature _ => signature.start
  | .composite type lbrace _ _ => startOr lbrace type
  | .paren lparen _ _ => lparen
  | .selector base _ => base.start
  | .index base _ _ _ => base.start
  | .slice base _ _ _ _ _ _ => base.start
  | .assertion base _ _ _ => base.start
  | .call callee _ _ _ _ => callee.start
  | .star offset _ => offset
  | .unary offset _ _ => offset
  | .binary left _ _ _ => left.start
  | .keyValue key _ _ => key.start
  | .ellipsis offset _ => offset
  | .arrayType lbrack _ _ => lbrack
  | .structType offset _ => offset
  | .funcType signature => signature.start
  | .interfaceType offset _ => offset
  | .mapType offset _ _ => offset
  | .chanType offset _ _ _ => offset
termination_by structural expr => expr

/-- The offset at which an optional expression starts, or another offset. -/
def startOr (offset : Nat) : Option Expr → Nat
  | some expr => expr.start
  | none => offset
termination_by structural expr? => expr?
end

mutual
def stop : Expr → Nat
  | .bad _ stop => stop
  | .ident name => name.stop
  | .literal value => value.stop
  | .function _ body => body.rbrace + 1
  | .composite _ _ _ rbrace => rbrace + 1
  | .paren _ _ rparen => rparen + 1
  | .selector _ field => field.stop
  | .index _ _ _ rbrack => rbrack + 1
  | .slice _ _ _ _ _ _ rbrack => rbrack + 1
  | .assertion _ _ _ rparen => rparen + 1
  | .call _ _ _ _ rparen => rparen + 1
  | .star _ inner => inner.stop
  | .unary _ _ operand => operand.stop
  | .binary _ _ _ right => right.stop
  | .keyValue _ _ value => value.stop
  | .ellipsis offset element => stopOr (offset + 3) element
  | .arrayType _ _ element => element.stop
  | .structType _ fields => listStop fields
  | .funcType signature => signatureStop signature
  | .interfaceType _ methods => listStop methods
  | .mapType _ _ value => value.stop
  | .chanType _ _ _ value => value.stop
termination_by structural expr => expr

/-- The offset just after an optional expression, or another offset. -/
def stopOr (offset : Nat) : Option Expr → Nat
  | some expr => expr.stop
  | none => offset
termination_by structural expr? => expr?

def fieldStop : FieldOf Expr → Nat
  | ⟨_, type, tag, _⟩ => (tag.map Literal.stop).getD type.stop
termination_by structural field => field

def fieldsStop (offset : Nat) : List (FieldOf Expr) → Nat
  | [] => offset
  | field :: fields => fieldsStop (fieldStop field) fields
termination_by structural fields => fields

def listStop : FieldListOf Expr → Nat
  | ⟨opening, fields, closing⟩ =>
    let last := fieldsStop (opening.getD 0) fields
    (closing.map (· + 1)).getD last
termination_by structural list => list

def signatureStop : SignatureOf Expr → Nat
  | ⟨_, _, params, results⟩ =>
    let paramsStop := listStop params
    let resultsStop := listStop results
    if results.fields.isEmpty && results.closing.isNone then paramsStop else resultsStop
termination_by structural signature => signature
end

end Expr

/-- The offset at which a field starts: its first name, or its type. -/
def fieldStart (field : Field) : Nat :=
  (field.names.head?.map Ident.offset).getD field.type.start

def FieldListOf.start (list : FieldList) : Nat :=
  list.opening.getD ((list.fields.head?.map fieldStart).getD 0)

def FieldListOf.stop (list : FieldList) : Nat :=
  Expr.listStop list

def SpecOf.start : Spec → Nat
  | .importing _ name path _ => (name.map Ident.offset).getD path.offset
  | .value names _ _ _ => (names.head?.map Ident.offset).getD 0
  | .type name _ _ _ _ => name.offset

def SpecOf.stop : Spec → Nat
  | .importing _ _ path _ => path.stop
  | .value names declared values _ =>
    match values.getLast?, declared with
    | some last, _ => last.stop
    | none, some declared => declared.stop
    | none, none => (names.getLast?.map Ident.stop).getD 0
  | .type _ _ _ definition _ => definition.stop

def GroupOf.stop (group : DeclGroup) : Nat :=
  match group.rparen, group.specs with
  | some rparen, _ => rparen + 1
  | none, spec :: _ => spec.stop
  | none, [] => group.offset

namespace Stmt

def start : Stmt → Nat
  | .bad start _ => start
  | .declaration group => group.offset
  | .empty offset _ => offset
  | .labeled label _ _ => label.offset
  | .expression expr => expr.start
  | .send channel _ _ => channel.start
  | .step operand _ _ => operand.start
  | .assign left offset _ _ => (left.head?.map Expr.start).getD offset
  | .go offset _ => offset
  | .defer offset _ => offset
  | .return_ offset _ => offset
  | .branch offset _ _ => offset
  | .block inner => inner.lbrace
  | .if_ offset _ _ _ _ => offset
  | .switch offset _ _ _ => offset
  | .typeSwitch offset _ _ _ => offset
  | .caseClause offset _ _ _ => offset
  | .select offset _ => offset
  | .commClause offset _ _ _ => offset
  | .for_ offset _ _ _ _ => offset
  | .range offset _ _ _ _ _ _ _ => offset

mutual
def stop : Stmt → Nat
  | .bad _ stop => stop
  | .declaration group => group.stop
  | .empty offset implicit => if implicit then offset else offset + 1
  | .labeled _ _ statement => statement.stop
  | .expression expr => expr.stop
  | .send _ _ value => value.stop
  | .step _ offset _ => offset + 2
  | .assign _ offset _ right => (right.getLast?.map Expr.stop).getD offset
  | .go _ call => call.stop
  | .defer _ call => call.stop
  | .return_ offset results => (results.getLast?.map Expr.stop).getD (offset + 6)
  | .branch offset keyword label =>
    (label.map Ident.stop).getD (offset + keyword.spelling.length)
  | .block inner => inner.rbrace + 1
  | .if_ _ _ _ body otherwise => stopOr (body.rbrace + 1) otherwise
  | .switch _ _ _ body => body.rbrace + 1
  | .typeSwitch _ _ _ body => body.rbrace + 1
  | .caseClause _ _ colon body => listStop (colon + 1) body
  | .select _ body => body.rbrace + 1
  | .commClause _ _ colon body => listStop (colon + 1) body
  | .for_ _ _ _ _ body => body.rbrace + 1
  | .range _ _ _ _ _ _ _ body => body.rbrace + 1
termination_by structural statement => statement

/-- The offset just after an optional statement, or another offset. -/
def stopOr (offset : Nat) : Option Stmt → Nat
  | some statement => statement.stop
  | none => offset
termination_by structural statement? => statement?

/-- The offset just after the last of some statements, or another offset. -/
def listStop (offset : Nat) : List Stmt → Nat
  | [] => offset
  | statement :: statements => listStop statement.stop statements
termination_by structural statements => statements
end

end Stmt

namespace FuncDecl

def signature (function : FuncDecl) : Signature :=
  ⟨some function.keyword, function.typeParams, function.params, function.results⟩

def stop (function : FuncDecl) : Nat :=
  match function.body with
  | some body => body.rbrace + 1
  | none => Expr.signatureStop function.signature

end FuncDecl
end Source
end CaseExpansion
