import CaseExpansion.Source.Parse.Expressions

namespace CaseExpansion
namespace Source
namespace Parse

/-!
# Declarations inside functions, and statements

Constants, variables and types are declared the same way inside of functions
and at the top level.  A type declaration whose name is followed by a bracket
may be an array type or a generic type; it is read as an expression first and
then split (`splitTypeParameter`).
-/

/-! ## Declarations -/

def isTypeOnly : Expr → Bool
  | .arrayType .. | .structType .. | .funcType .. | .interfaceType .. | .mapType .. | .chanType .. =>
    true
  | .binary left _ _ right => isTypeOnly left || isTypeOnly right
  | .unary _ operator _ => operator = .tilde
  | .paren _ inner _ => isTypeOnly inner
  | _ => false

/-- Splits an expression into the name of a type parameter and its constraint,
if it can be read that way.  With `force`, a constraint that could also be an
operand is taken as a constraint. -/
def splitTypeParameter (force : Bool) : Expr → Option (Ident × Option Expr)
  | .ident name => some (name, none)
  | .binary (.ident name) place .mul right =>
    if force || isTypeOnly right then some (name, some (.star place right)) else none
  | .binary left place .or right =>
    match splitTypeParameter (force || isTypeOnly right) left with
    | some (name, some first) => some (name, some (.binary first place .or right))
    | _ => none
  | .call (.ident name) lparen [argument] none rparen =>
    if force || isTypeOnly argument then some (name, some (.paren lparen argument rparen)) else none
  | _ => none

/-- The sign of an alias declaration, if there is one. -/
def aliasSign : Parse (Option Nat) := do
  if ← isAt .assign then
    let place ← offset
    next
    return some place
  return none

def typeDefinition (grammar : Grammar) : Parse (FieldList × Option Nat × Expr) := do
  if ← isAt .lbrack then
    let opening ← offset
    next
    unless ← isAt .ident do return ({}, none, ← arrayType grammar opening none)
    let name ← ident
    let first ←
      if ← isAt .lbrack then pure (.ident name)
      else nested do binaryFrom grammar 1 (← primaryFrom grammar (.ident name))
    let split? := splitTypeParameter (← isAt .comma) first
    match split? with
    | some (parameter, constraint) =>
      if constraint.isSome || !(← isAt .rbrack) then
        let fields ← parameterList grammar (some parameter) constraint .rbrack false
        let closing ← expect .rbrack
        let sign ← aliasSign
        return (⟨some opening, fields, some closing⟩, sign, ← type grammar)
      else return ({}, none, ← arrayType grammar opening (some first))
    | none => return ({}, none, ← arrayType grammar opening (some first))
  else
    let sign ← aliasSign
    return ({}, sign, ← type grammar)

def typeSpec (grammar : Grammar) : Parse Spec := do
  let name ← ident
  let (typeParams, sign, definition) ← typeDefinition grammar
  let comment ← expectSemicolon
  return .type name typeParams sign definition comment.isSome

/-- The values after an equals sign, if there is one. -/
def initialValues (grammar : Grammar) : Parse (List Expr) := do
  if ← isAt .assign then
    next
    grammar.exprs true
  else return []

def valueSpec (grammar : Grammar) (keyword : Token) : Parse Spec := do
  let first ← ident
  let rest ← many (isAt .comma) do
    next
    ident
  let (declared, values) ←
    if keyword = .kwConst then
      if ← isAtAny [.eof, .semicolon, .rparen] then pure (none, [])
      else
        let declared ← grammar.type?
        pure (declared, ← initialValues grammar)
    else
      let declared ← if ← isAt .assign then pure none else pure (some (← type grammar))
      pure (declared, ← initialValues grammar)
  let comment ← expectSemicolon
  return .value (first :: rest) declared values comment.isSome

/-- An import.  The lead comment of a grouped import documents it. -/
def importSpec (doc : Option CommentGroup) : Parse Spec := do
  let name ← match ← token with
    | .ident => pure (some (← ident))
    | .period =>
      let place ← offset
      next
      pure (some ⟨place, "."⟩)
    | _ => pure none
  let current := (← get).current
  let path ←
    if current.token = .string then
      next
      pure current.literal
    else if current.token.isLiteral then
      complain current.offset "import path must be a string"
      next
      pure []
    else
      complain current.offset "missing import path; require quoted string"
      synchronize expressionEnds
      pure []
  let comment ← expectSemicolon
  let path : Literal := ⟨current.offset, .string, path, current.stop⟩
  note fun notes => { notes with imports := ⟨name, path⟩ :: notes.imports }
  return .importing doc name path comment

def spec (grammar : Grammar) (keyword : Token) (doc : Option CommentGroup) : Parse Spec :=
  match keyword with
  | .kwImport => importSpec doc
  | .kwType => typeSpec grammar
  | _ => valueSpec grammar keyword

/-- A declaration of imports, constants, variables or types. -/
def declGroup (grammar : Grammar) (keyword : Token) : Parse DeclGroup := do
  let place ← expect keyword
  if ← isAt .lparen then
    let opening ← offset
    next
    let specs ← many (return !(← isAtAny [.rparen, .eof])) do
      spec grammar keyword (← get).lead
    let closing ← expect .rparen
    let _ ← expectSemicolon
    return ⟨place, keyword, some opening, specs, some closing⟩
  else return ⟨place, keyword, none, [← spec grammar keyword none], none⟩

/-! ## Simple statements -/

inductive SimpleMode where
  | basic | labelAllowed | rangeAllowed
deriving DecidableEq

def rangeClause (grammar : Grammar) : Parse Expr := do
  let place ← offset
  next
  return .unary place .kwRange (← grammar.operand)

/-- A statement without a keyword.  The flag tells whether it is a range
clause. -/
def simpleStatement (grammar : Grammar) (mode : SimpleMode) : Parse (Stmt × Bool) := do
  let left ← grammar.exprs false
  let current := (← get).current
  let first := left.headD (.bad current.offset current.offset)
  if current.token.isAssignment then
    next
    if mode = .rangeAllowed && (← isAt .kwRange)
        && (current.token = .define || current.token = .assign) then
      return (.assign left current.offset current.token [← rangeClause grammar], true)
    return (.assign left current.offset current.token (← grammar.exprs true), false)
  if left.length > 1 then complainExpected first.start "1 expression"
  match current.token with
  | .colon =>
    next
    match first, mode with
    | .ident label, .labelAllowed =>
      return (.labeled label current.offset (← grammar.statement), false)
    | _, _ =>
      complain current.offset "illegal label declaration"
      return (.bad first.start (current.offset + 1), false)
  | .arrow =>
    next
    return (.send first current.offset (← grammar.operand), false)
  | .inc | .dec =>
    next
    return (.step first current.offset current.token, false)
  | _ => return (.expression first, false)

/-- The expression of a statement where only an expression is allowed. -/
def expressionOf (wanted : Bytes) : Option Stmt → Parse (Option Expr)
  | none => return none
  | some (.expression expr) => return some expr
  | some statement => do
    let found : Bytes := match statement with
      | .assign .. => "assignment"
      | _ => "simple statement"
    complain statement.start
      ("expected " ++ wanted ++ ", found " ++ found
        ++ " (missing parentheses around composite literal?)")
    return some (.bad statement.start statement.stop)

/-! ## Control statements -/

def deferredCall (grammar : Grammar) (keyword : Bytes) : Parse (Option Expr) := do
  let expr ← grammar.operand
  let inner := unparenthesized expr
  if let .paren .. := expr then
    complain expr.start ("expression in " ++ keyword ++ " must not be parenthesized")
  match inner with
  | .call .. => return some inner
  | .bad .. => return none
  | _ =>
    complain inner.stop ("expression in " ++ keyword ++ " must be function call")
    return none

def returnStatement (grammar : Grammar) : Parse Stmt := do
  let place ← expect .kwReturn
  let results ← if ← isAtAny [.semicolon, .rbrace] then pure [] else grammar.exprs true
  let _ ← expectSemicolon
  return .return_ place results

/-- A break, continue, goto or fallthrough statement. -/
def branchStatement (keyword : Token) : Parse Stmt := do
  let place ← expect keyword
  let mayHaveLabel := keyword = .kwBreak || keyword = .kwContinue
  let label ←
    if keyword = .kwGoto || (mayHaveLabel && (← isAt .ident)) then pure (some (← ident))
    else pure none
  let _ ← expectSemicolon
  return .branch place keyword label

/-- The initial statement and the condition of an if statement. -/
def ifHeader (grammar : Grammar) : Parse (Option Stmt × Expr) := do
  let place ← offset
  if ← isAt .lbrace then
    complain place "missing condition in if statement"
    return (none, .bad place place)
  withLevel (fun _ => -1) do
    let first ←
      if ← isAt .semicolon then pure none
      else
        if ← isAt .kwVar then
          next
          complain (← offset) "var declaration not allowed in if initializer"
        pure (some (← simpleStatement grammar .basic).1)
    let (init, condition, semicolon?) ←
      if ← isAt .lbrace then pure (none, first, none)
      else
        let current := (← get).current
        let semicolon? ←
          if current.token = .semicolon then
            next
            pure (some current)
          else
            let _ ← expect .semicolon
            pure none
        let condition ←
          if ← isAt .lbrace then pure none
          else pure (some (← simpleStatement grammar .basic).1)
        pure (first, condition, semicolon?)
    match condition, semicolon? with
    | none, some semicolon =>
      complain semicolon.offset
        (if semicolon.isLineEnd then "unexpected newline, expecting \x7b after if clause"
          else "missing condition in if statement")
    | _, _ => pure ()
    let expr ← expressionOf "boolean expression" condition
    return (init, expr.getD (.bad (← offset) (← offset)))

def ifStatement (grammar : Grammar) : Parse Stmt := do
  let place ← expect .kwIf
  let (init, condition) ← ifHeader grammar
  let body ← block grammar
  let otherwise ←
    if ← isAt .kwElse then
      next
      match ← token with
      | .kwIf => pure (some (← grammar.ifStatement))
      | .lbrace =>
        let otherwise ← block grammar
        let _ ← expectSemicolon
        pure (some (.block otherwise))
      | _ =>
        let here ← offset
        complainExpected here "if statement or block"
        pure (some (.bad here here))
    else
      let _ ← expectSemicolon
      pure none
  return .if_ place init condition body otherwise

def caseClause (grammar : Grammar) : Parse Stmt := do
  let place ← offset
  let values ←
    if ← isAt .kwCase then
      next
      grammar.exprs true
    else
      let _ ← expect .kwDefault
      pure []
  let colon ← expect .colon
  return .caseClause place values colon (← statements grammar)

def isTypeGuard : Expr → Bool
  | .assertion _ _ none _ => true
  | _ => false

/-- Whether a statement is the guard of a type switch.  Plain assignment is
accepted there and complained about. -/
def isTypeSwitchGuard : Option Stmt → Parse Bool
  | some (.expression expr) => return isTypeGuard expr
  | some (.assign [_] place operator [right]) => do
    unless isTypeGuard right do return false
    if operator = .assign then complain place "expected ':=', found '='"
    return operator = .assign || operator = .define
  | _ => return false

/-- The clauses of a switch or select statement in braces. -/
def clauses (clause : Parse Stmt) : Parse Block := do
  let opening ← expect .lbrace
  let list ← many (isAtAny [.kwCase, .kwDefault]) clause
  let closing ← expect .rbrace
  let _ ← expectSemicolon
  return ⟨opening, list, closing⟩

def switchStatement (grammar : Grammar) : Parse Stmt := do
  let place ← expect .kwSwitch
  let (init, subject) ←
    if ← isAt .lbrace then pure (none, none)
    else withLevel (fun _ => -1) do
      let first ←
        if ← isAt .semicolon then pure none
        else pure (some (← simpleStatement grammar .basic).1)
      if ← isAt .semicolon then
        next
        if ← isAt .lbrace then return (first, none)
        return (first, some (← simpleStatement grammar .basic).1)
      return (none, first)
  let isTypeSwitch ← isTypeSwitchGuard subject
  let body ← clauses (caseClause grammar)
  match isTypeSwitch, subject with
  | true, some guard => return .typeSwitch place init guard body
  | _, _ => return .switch place init (← expressionOf "switch expression" subject) body

def communication (grammar : Grammar) : Parse Stmt := do
  let left ← grammar.exprs false
  let current := (← get).current
  let first := left.headD (.bad current.offset current.offset)
  match current.token with
  | .arrow =>
    if left.length > 1 then complainExpected first.start "1 expression"
    next
    return .send first current.offset (← grammar.operand)
  | .assign | .define =>
    if left.length > 2 then complainExpected first.start "1 or 2 expressions"
    next
    return .assign (left.take 2) current.offset current.token [← grammar.operand]
  | _ =>
    if left.length > 1 then complainExpected first.start "1 expression"
    return .expression first

def commClause (grammar : Grammar) : Parse Stmt := do
  let place ← offset
  let communication ←
    if ← isAt .kwCase then
      next
      pure (some (← communication grammar))
    else
      let _ ← expect .kwDefault
      pure none
  let colon ← expect .colon
  return .commClause place communication colon (← statements grammar)

/-- What stands between the keyword and the body of a for statement. -/
inductive ForHeader where
  | range (left : List Expr) (offset : Nat) (operator : Option Token) (clause : Expr)
  | clauses (init condition post : Option Stmt)

def forHeader (grammar : Grammar) : Parse ForHeader := do
  if ← isAt .lbrace then return .clauses none none none
  withLevel (fun _ => -1) do
    if ← isAt .kwRange then
      let clause ← rangeClause grammar
      return .range [] 0 none clause
    let first ←
      if ← isAt .semicolon then pure none
      else
        let (statement, isRange) ← simpleStatement grammar .rangeAllowed
        match statement, isRange with
        | .assign left place operator [clause], true =>
          return .range left place (some operator) clause
        | statement, _ => pure (some statement)
    unless ← isAt .semicolon do return .clauses none first none
    next
    let condition ←
      if ← isAt .semicolon then pure none
      else
        if ← isAt .lbrace then complainExpected (← offset) "for loop condition"
        pure (some (← simpleStatement grammar .basic).1)
    let _ ← expectSemicolon
    let post ←
      if ← isAt .lbrace then pure none
      else pure (some (← simpleStatement grammar .basic).1)
    return .clauses first condition post

def forStatement (grammar : Grammar) : Parse Stmt := do
  let place ← expect .kwFor
  let header ← forHeader grammar
  let body ← block grammar
  let _ ← expectSemicolon
  match header with
  | .clauses init condition post =>
    return .for_ place init (← expressionOf "boolean or range expression" condition) post body
  | .range left operatorPlace operator clause =>
    let (keywordPlace, subject) := match clause with
      | .unary keywordPlace _ subject => (keywordPlace, subject)
      | other => (other.start, other)
    match left with
    | [] => return .range place none none operatorPlace operator keywordPlace subject body
    | [key] => return .range place (some key) none operatorPlace operator keywordPlace subject body
    | [key, value] =>
      return .range place (some key) (some value) operatorPlace operator keywordPlace subject body
    | _ =>
      complainExpected ((left.getLast?.map Expr.start).getD place) "at most 2 expressions"
      return .bad place (body.rbrace + 1)

def expressionStarts : List Token :=
  [.ident, .int, .float, .imag, .char, .string, .kwFunc, .lparen, .lbrack, .kwStruct, .kwMap,
    .kwChan, .kwInterface, .add, .sub, .mul, .and, .xor, .arrow, .not]

def statement (grammar : Grammar) : Parse Stmt := do
  let current := (← get).current
  match current.token with
  | .kwConst | .kwType | .kwVar => return .declaration (← declGroup grammar current.token)
  | .kwGo =>
    let place ← expect .kwGo
    let call ← deferredCall grammar "go"
    let _ ← expectSemicolon
    return (call.map (Stmt.go place)).getD (.bad place (place + 2))
  | .kwDefer =>
    let place ← expect .kwDefer
    let call ← deferredCall grammar "defer"
    let _ ← expectSemicolon
    return (call.map (Stmt.defer place)).getD (.bad place (place + 5))
  | .kwReturn => returnStatement grammar
  | .kwBreak | .kwContinue | .kwGoto | .kwFallthrough => branchStatement current.token
  | .lbrace =>
    let inner ← block grammar
    let _ ← expectSemicolon
    return .block inner
  | .kwIf => grammar.ifStatement
  | .kwSwitch => switchStatement grammar
  | .kwSelect => return .select (← expect .kwSelect) (← clauses (commClause grammar))
  | .kwFor => forStatement grammar
  | .semicolon =>
    next
    return .empty current.offset current.isLineEnd
  | .rbrace => return .empty current.offset true
  | other =>
    if expressionStarts.contains other then
      let (statement, _) ← simpleStatement grammar .labelAllowed
      match statement with
      | .labeled .. => return statement
      | _ =>
        let _ ← expectSemicolon
        return statement
    else
      complainExpected current.offset "statement"
      synchronize statementStarts
      return .bad current.offset (← offset)

end Parse
end Source
end CaseExpansion
