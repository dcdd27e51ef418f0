import CaseExpansion.Source.Parse.Statements

namespace CaseExpansion
namespace Source

/-!
# Files and single expressions

The recursive parts of the grammar are tied together by depth: the parser for
a depth refers to the parsers for the depth below.  A text of `n` lexemes
nests less than eight levels per lexeme, since every cycle of the grammar
takes a lexeme at least every eight steps.
-/

namespace Grammar

def above (below : Grammar) : Grammar where
  binary := Parse.binary below
  unary := Parse.unary below
  type? := Parse.type? below
  literalValue := Parse.literalValue below
  statement := Parse.statement below
  ifStatement := Parse.ifStatement below

def ofDepth : Nat → Grammar
  | 0 => exhausted
  | depth + 1 => above (ofDepth depth)

end Grammar

namespace Parse

/-- The receiver of a method, if there is one. -/
def receiver? (grammar : Grammar) : Parse (Option FieldList) := do
  if ← isAt .lparen then return some (← parameters grammar true) else return none

/-- The type parameters of a function, if there are any. -/
def functionTypeParameters (grammar : Grammar) : Parse FieldList := do
  if ← isAt .lbrack then typeParameters grammar else return {}

def functionBody (grammar : Grammar) : Parse (Option Block) := do
  match ← token with
  | .lbrace =>
    let body ← block grammar
    let _ ← expectSemicolon
    return some body
  | .semicolon =>
    next
    if ← isAt .lbrace then
      complain (← offset) "unexpected semicolon or newline before \x7b"
      let body ← block grammar
      let _ ← expectSemicolon
      return some body
    else return none
  | _ =>
    let _ ← expectSemicolon
    return none

def funcDecl (grammar : Grammar) : Parse FuncDecl := do
  let doc := (← get).lead
  let keyword ← expect .kwFunc
  let receiver ← receiver? grammar
  let name ← ident
  let typeParams ← functionTypeParameters grammar
  let params ← parameters grammar true
  let results ← results grammar
  let body ← functionBody grammar
  return { doc, keyword, receiver, name, typeParams, params, results, body }

def decl (grammar : Grammar) : Parse Decl := do
  let current := (← get).current
  match current.token with
  | .kwImport | .kwConst | .kwVar | .kwType =>
    let doc := (← get).lead
    return .group doc (← declGroup grammar current.token)
  | .kwFunc => return .function (← funcDecl grammar)
  | _ =>
    complainExpected current.offset "declaration"
    synchronize declarationStarts
    return .bad current.offset (← offset)

def hasComplaints : Parse Bool :=
  return !(← get).diagnostics.isEmpty

/-- One more declaration of a file.  Imports come first. -/
def anotherDecl (grammar : Grammar) (onlyImports : Bool) (decls : List Decl) :
    Parse (Round (Bool × List Decl) (List Decl)) := do
  if ← isAt .eof then return .done decls.reverse
  let isImport ← isAt .kwImport
  if isImport && !onlyImports then
    complain (← offset) "imports must appear before other declarations"
  let decl ← decl grammar
  return .again (isImport, decl :: decls)

def decls (grammar : Grammar) : Parse (List Decl) :=
  loop (true, []) fun (onlyImports, decls) => anotherDecl grammar onlyImports decls

/-- A file.  What does not even start like one is not read any further. -/
def file (grammar : Grammar) : Parse File := do
  next
  if ← hasComplaints then giveUp
  let package ← expect .kwPackage
  let name ← ident
  let _ ← expectSemicolon
  if ← hasComplaints then giveUp
  let decls ← decls grammar
  let state ← get
  return {
    package, name, decls
    comments := state.comments.reverse
    imports := state.notes.imports.reverse }

def initial (table : LineTable) (lexemes : List Lexeme) : ParseState where
  table
  ahead := lexemes
  current := { token := .eof, offset := 0, stop := 0 }

def depthFor (lexemes : List Lexeme) : Nat :=
  8 * lexemes.length + 16

/-- Runs a parser on lexemes.  The result counts only if there were no
complaints; otherwise they are given in order. -/
def runOn {α : Type} (parser : Grammar → Parse α) (table : LineTable) (lexemes : List Lexeme) :
    Except (List Diagnostic) α :=
  match (parser (Grammar.ofDepth (depthFor lexemes))).run (initial table lexemes) with
  | (some result, state) =>
    if state.diagnostics.isEmpty then .ok result
    else .error (Diagnostic.sort state.diagnostics.reverse)
  | (none, state) => .error (Diagnostic.sort state.diagnostics.reverse)

/-- The lexemes without comments.  The faults of a comment pass to the lexeme
after it. -/
def withoutComments (faults : List Fault) : List Lexeme → List Lexeme
  | [] => []
  | lexeme :: lexemes =>
    if lexeme.token = .comment then withoutComments (faults ++ lexeme.faults) lexemes
    else { lexeme with faults := faults ++ lexeme.faults } :: withoutComments [] lexemes

def wholeExpr (grammar : Grammar) : Parse Expr := do
  next
  let expr ← grammar.operand
  if ← isAtLineEnd then next
  let _ ← expect .eof
  return expr

end Parse

structure ParsedFile where
  text : Bytes
  table : LineTable
  file : File

def parseFile (filename text : Bytes) : Except (List Diagnostic) ParsedFile := do
  let (table, lexemes) := scanFile filename text
  return { text, table, file := ← Parse.runOn Parse.file table lexemes }

def parseExpr (text : Bytes) : Except (List Diagnostic) Expr :=
  let (table, lexemes) := scanFile [] text
  Parse.runOn Parse.wholeExpr table (Parse.withoutComments [] lexemes)

end Source
end CaseExpansion
