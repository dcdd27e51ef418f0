import CaseExpansion.Directive.Basic

namespace CaseExpansion

open Source (Comment Lexeme Position Token)

/-!
# Case directives

The body of a case directive is a list of argument expressions, separated by
commas, then a semicolon and the name of the case as a string literal.  Commas
and semicolons count only outside of brackets.  Arguments are kept as they are
written, without the white space around them.
-/

/-- A case of a template: argument expressions, and a name for the case. -/
structure Case where
  arguments : List Bytes
  name : Bytes
  position : Position := {}
deriving DecidableEq, Repr

namespace Directive

/-- The head of a case directive: the offsets of the commas and of the semicolon
that separate its parts, the lexemes up to the semicolon, and those after it. -/
structure Head where
  commas : List Nat
  semicolon : Nat
  before : List Lexeme
  after : List Lexeme

def depthChange (token : Token) : Int :=
  match token with
  | .lparen | .lbrack | .lbrace => 1
  | .rparen | .rbrack | .rbrace => -1
  | _ => 0

/-- Finds the separators of a case directive.  A line end before the semicolon
means that there is none, whatever its depth. -/
def splitHead? : (depth : Int) → List Lexeme → Option Head
  | _, [] => none
  | depth, lexeme :: lexemes =>
    if isEnd lexeme then none
    else if depth = 0 && lexeme.token == .semicolon then some ⟨[], lexeme.offset, [lexeme], lexemes⟩
    else
      (splitHead? (depth + depthChange lexeme.token) lexemes).map fun head =>
        { head with
          commas :=
            if depth = 0 && lexeme.token == .comma then lexeme.offset :: head.commas
            else head.commas
          before := lexeme :: head.before }

/-- The texts between separators, each with the offset at which it starts. -/
def pieces (body : Bytes) (start : Nat) : List Nat → (stop : Nat) → List (Nat × Bytes)
  | [], stop => [(start, Bytes.slice body start stop)]
  | comma :: commas, stop =>
    (start, Bytes.slice body start comma) :: pieces body (comma + 1) commas stop

/-- The argument texts of a head.  Nothing but white space is no argument. -/
def argumentTexts (body : Bytes) (head : Head) : List (Nat × Bytes) :=
  match pieces body 0 head.commas head.semicolon with
  | [(start, text)] => if Text.isBlankText text then [] else [(start, text)]
  | texts => texts

def readArgument (number start : Nat) (text : Bytes) : Except Failure Bytes :=
  let expression := Text.trim text
  if expression.isEmpty then .error ⟨start, .emptyArgument number⟩
  else
    match Source.parseExpr expression with
    | .error _ => .error ⟨start, .notExpression number expression⟩
    | .ok _ => .ok expression

/-- Reads arguments, the first of which has the given number. -/
def readArguments : (number : Nat) → List (Nat × Bytes) → Except Failure (List Bytes)
  | _, [] => .ok []
  | number, (start, text) :: texts => do
    return (← readArgument number start text) :: (← readArguments (number + 1) texts)

/-- Reads the name of a case, and checks that nothing follows it. -/
def readName : List Lexeme → Except Failure Bytes
  | [] => .error ⟨0, .missingName⟩
  | lexeme :: rest => do
    checkFaults [lexeme]
    if lexeme.token ≠ .string then
      if isEnd lexeme then throw ⟨lexeme.offset, .missingName⟩
      throw ⟨lexeme.offset, .nameNotString (found lexeme)⟩
    match Text.Quoted.decode? lexeme.literal with
    | none => throw ⟨lexeme.offset, .invalidName lexeme.literal⟩
    | some name =>
      match rest.find? fun lexeme => !isEnd lexeme with
      | some lexeme => throw ⟨lexeme.offset, .afterName (found lexeme)⟩
      | none =>
        checkFaults rest
        return name

def readCase (body : Bytes) : Except Failure (List Bytes × Bytes) :=
  match splitHead? 0 (lexemes body) with
  | none => .error ⟨body.length, .missingSemicolon⟩
  | some head => do
    checkFaults head.before
    let arguments ← readArguments 1 (argumentTexts body head)
    return (arguments, ← readName head.after)

end Directive

namespace Case

/-- Reads a comment that is a case directive.  Offsets of the file become
positions by `place`. -/
def parse (place : Nat → Position) (comment : Comment) : Except Error Case :=
  (Directive.locate Directive.caseMark Directive.readCase place comment).map
    fun ((arguments, name), position) => { arguments, name, position }

end Case
end CaseExpansion
