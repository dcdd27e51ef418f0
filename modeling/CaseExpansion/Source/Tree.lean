import CaseExpansion.Source.Position
import CaseExpansion.Source.Token

namespace CaseExpansion
namespace Source

/-!
# The tree of a source file

Expressions, statements and declarations as the grammar groups them, with the
offsets of the tokens that a reader or a formatter may need.  Types and
expressions share one type, since the grammar cannot tell them apart before
names are known.

Fields, signatures, blocks and declaration specifications take the type of the
nodes inside of them as a parameter.  They are ordinary structures for code
that builds or reads them, and `Expr` and `Stmt` nest through them.

Absent lists are empty lists.  An absent token is an absent offset: the
parentheses of a single result, or the keyword of a method's signature.
-/

/-- A comment as it is written, without carriage returns. -/
structure Comment where
  offset : Nat
  text : Bytes
deriving DecidableEq, Repr

namespace Comment

def stop (comment : Comment) : Nat :=
  comment.offset + comment.text.length

end Comment

/-- Comments with nothing but white space between them and no empty line. -/
abbrev CommentGroup := List Comment

namespace CommentGroup

def start (group : CommentGroup) : Nat :=
  (group.head?.map Comment.offset).getD 0

def stop (group : CommentGroup) : Nat :=
  (group.getLast?.map Comment.stop).getD 0

end CommentGroup

structure Ident where
  offset : Nat
  name : Bytes
deriving DecidableEq, Repr

def Ident.stop (ident : Ident) : Nat :=
  ident.offset + ident.name.length

structure Literal where
  offset : Nat
  token : Token
  text : Bytes
  stop : Nat
deriving DecidableEq, Repr

inductive Direction where
  | send | receive | both
deriving DecidableEq, Repr

/-- Names that share a type: parameters, results, fields or methods.  A field
without names is an unnamed parameter or an embedded type. -/
structure FieldOf (ε : Type) where
  names : List Ident
  type : ε
  tag : Option Literal := none
  hasComment : Bool := false

/-- Fields between parentheses, brackets or braces. -/
structure FieldListOf (ε : Type) where
  opening : Option Nat := none
  fields : List (FieldOf ε) := []
  closing : Option Nat := none

/-- The parameters and results of a function or a function type. -/
structure SignatureOf (ε : Type) where
  keyword : Option Nat
  typeParams : FieldListOf ε
  params : FieldListOf ε
  results : FieldListOf ε

structure BlockOf (σ : Type) where
  lbrace : Nat
  statements : List σ
  rbrace : Nat

/-- One declared import, constant or variable list, or type. -/
inductive SpecOf (ε : Type) where
  | importing (doc : Option CommentGroup) (name : Option Ident) (path : Literal)
    (comment : Option CommentGroup)
  | value (names : List Ident) (type : Option ε) (values : List ε) (hasComment : Bool)
  | type (name : Ident) (typeParams : FieldListOf ε) (assign : Option Nat) (type : ε)
    (hasComment : Bool)

/-- A declaration of imports, constants, variables or types. -/
structure GroupOf (ε : Type) where
  offset : Nat
  keyword : Token
  lparen : Option Nat
  specs : List (SpecOf ε)
  rparen : Option Nat

mutual
inductive Expr where
  | bad (start stop : Nat)
  | ident (ident : Ident)
  | literal (literal : Literal)
  | function (signature : SignatureOf Expr) (body : BlockOf Stmt)
  | composite (type : Option Expr) (lbrace : Nat) (elements : List Expr) (rbrace : Nat)
  | paren (lparen : Nat) (inner : Expr) (rparen : Nat)
  | selector (base : Expr) (field : Ident)
  | index (base : Expr) (lbrack : Nat) (indices : List Expr) (rbrack : Nat)
  | slice (base : Expr) (lbrack : Nat) (low high max : Option Expr) (full : Bool) (rbrack : Nat)
  | assertion (base : Expr) (lparen : Nat) (type : Option Expr) (rparen : Nat)
  | call (function : Expr) (lparen : Nat) (arguments : List Expr) (ellipsis : Option Nat)
    (rparen : Nat)
  | star (offset : Nat) (inner : Expr)
  | unary (offset : Nat) (operator : Token) (operand : Expr)
  | binary (left : Expr) (offset : Nat) (operator : Token) (right : Expr)
  | keyValue (key : Expr) (colon : Nat) (value : Expr)
  | ellipsis (offset : Nat) (element : Option Expr)
  | arrayType (lbrack : Nat) (length : Option Expr) (element : Expr)
  | structType (offset : Nat) (fields : FieldListOf Expr)
  | funcType (signature : SignatureOf Expr)
  | interfaceType (offset : Nat) (methods : FieldListOf Expr)
  | mapType (offset : Nat) (key value : Expr)
  | chanType (offset : Nat) (arrow : Option Nat) (direction : Direction) (value : Expr)

/-- A statement.  The clauses of a switch or select are the statements of its
block. -/
inductive Stmt where
  | bad (start stop : Nat)
  | declaration (group : GroupOf Expr)
  | empty (offset : Nat) (implicit : Bool)
  | labeled (label : Ident) (colon : Nat) (statement : Stmt)
  | expression (expr : Expr)
  | send (channel : Expr) (arrow : Nat) (value : Expr)
  | step (operand : Expr) (offset : Nat) (operator : Token)
  | assign (left : List Expr) (offset : Nat) (operator : Token) (right : List Expr)
  | go (offset : Nat) (call : Expr)
  | defer (offset : Nat) (call : Expr)
  | return_ (offset : Nat) (results : List Expr)
  | branch (offset : Nat) (keyword : Token) (label : Option Ident)
  | block (block : BlockOf Stmt)
  | if_ (offset : Nat) (init : Option Stmt) (condition : Expr) (body : BlockOf Stmt)
    (otherwise : Option Stmt)
  | switch (offset : Nat) (init : Option Stmt) (tag : Option Expr) (body : BlockOf Stmt)
  | typeSwitch (offset : Nat) (init : Option Stmt) (guard : Stmt) (body : BlockOf Stmt)
  | caseClause (offset : Nat) (values : List Expr) (colon : Nat) (body : List Stmt)
  | select (offset : Nat) (body : BlockOf Stmt)
  | commClause (offset : Nat) (communication : Option Stmt) (colon : Nat) (body : List Stmt)
  | for_ (offset : Nat) (init : Option Stmt) (condition : Option Expr) (post : Option Stmt)
    (body : BlockOf Stmt)
  | range (offset : Nat) (key value : Option Expr) (operatorOffset : Nat)
    (operator : Option Token) (keywordOffset : Nat) (subject : Expr) (body : BlockOf Stmt)
end

instance : Inhabited Expr := ⟨.bad 0 0⟩
instance : Inhabited Stmt := ⟨.bad 0 0⟩

abbrev Field := FieldOf Expr
abbrev FieldList := FieldListOf Expr
abbrev Signature := SignatureOf Expr
abbrev Block := BlockOf Stmt
abbrev Spec := SpecOf Expr
abbrev DeclGroup := GroupOf Expr

structure FuncDecl where
  doc : Option CommentGroup
  keyword : Nat
  receiver : Option FieldList
  name : Ident
  typeParams : FieldList
  params : FieldList
  results : FieldList
  body : Option Block

inductive Decl where
  | bad (start stop : Nat)
  | group (doc : Option CommentGroup) (group : DeclGroup)
  | function (function : FuncDecl)

/-- An import of a file: the name it is given, if any, and its path literal. -/
structure Import where
  name : Option Ident
  path : Literal

structure File where
  package : Nat
  name : Ident
  decls : List Decl
  /-- All comments of the file, in source order. -/
  comments : List CommentGroup
  imports : List Import

def Decl.function? : Decl → Option FuncDecl
  | .function declared => some declared
  | _ => none

namespace File

/-- The function declarations of a file, in source order. -/
def functions (file : File) : List FuncDecl :=
  file.decls.filterMap Decl.function?

end File
end Source
end CaseExpansion
