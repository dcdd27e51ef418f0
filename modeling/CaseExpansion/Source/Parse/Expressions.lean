import CaseExpansion.Source.Parse.Types

namespace CaseExpansion
namespace Source
namespace Parse

/-!
# Expressions

Operands, the selectors, calls and indices that follow them, and operators.
Whether a brace after an operand starts a literal depends on the operand and,
in the header of a control statement, on the nesting level.
-/

def unparenthesized : Expr → Expr
  | .paren _ inner _ => unparenthesized inner
  | expr => expr

def statements (grammar : Grammar) : Parse (List Stmt) :=
  many (return !(← isAtAny [.kwCase, .kwDefault, .rbrace, .eof])) grammar.statement

def block (grammar : Grammar) : Parse Block := do
  let opening ← expect .lbrace
  let list ← statements grammar
  return ⟨opening, list, ← expect .rbrace⟩

/-- A function type, or a function literal when a body follows. -/
def funcTypeOrLiteral (grammar : Grammar) : Parse Expr := do
  let signature ← funcType grammar
  if ← isAt .lbrace then return .function signature (← nested (block grammar))
  return .funcType signature

def simpleOperand (grammar : Grammar) : Parse Expr := do
  let current := (← get).current
  match current.token with
  | .ident => return .ident (← ident)
  | .int | .float | .imag | .char | .string =>
    next
    return .literal ⟨current.offset, current.token, current.literal, current.stop⟩
  | .lparen =>
    next
    let inner ← nested grammar.operand
    return .paren current.offset inner (← expect .rparen)
  | .kwFunc => funcTypeOrLiteral grammar
  | _ =>
    match ← grammar.type? with
    | some type => return type
    | none =>
      complainExpected current.offset "operand"
      synchronize statementStarts
      return .bad current.offset (← offset)

def assertion (grammar : Grammar) (base : Expr) : Parse Expr := do
  let opening ← expect .lparen
  let asserted ←
    if ← isAt .kwType then
      next
      pure none
    else pure (some (← type grammar))
  return .assertion base opening asserted (← expect .rparen)

/-- The bounds of a slice expression after its first index, with the offsets of
the colons. -/
def sliceBounds (grammar : Grammar) : Parse (List (Nat × Option Expr)) := do
  let bound : Parse (Nat × Option Expr) := do
    let colon ← offset
    next
    if ← isAtAny [.colon, .rbrack, .eof] then return (colon, none)
    return (colon, some (← grammar.operand))
  let first ← bound
  if ← isAt .colon then return [first, ← bound]
  return [first]

/-- An index, slice or instantiation. -/
def indexOrSlice (grammar : Grammar) (base : Expr) : Parse Expr := do
  let opening ← expect .lbrack
  if ← isAt .rbrack then
    let closing ← offset
    complainExpected closing "operand"
    next
    return .index base opening [.bad closing closing] closing
  let (first, bounds, more) ← nested do
    let first ← if ← isAt .colon then pure none else pure (some (← grammar.operand))
    match ← token with
    | .colon => return (first, ← sliceBounds grammar, [])
    | .comma =>
      let more ← many (isAt .comma) do
        next
        if ← isAtAny [.rbrack, .eof] then return none
        return some (← type grammar)
      return (first, [], more)
    | _ => return (first, [], [])
  let closing ← expect .rbrack
  match bounds with
  | [(_, high)] => return .slice base opening first high none false closing
  | (colon, high) :: (colon', max) :: _ =>
    if high.isNone then complain colon "middle index required in 3-index slice"
    if max.isNone then complain colon' "final index required in 3-index slice"
    return .slice base opening first high max true closing
  | [] => return .index base opening (first.toList ++ more.filterMap id) closing

def call (grammar : Grammar) (callee : Expr) : Parse Expr := do
  let context : Bytes := "argument list"
  let opening ← expect .lparen
  let (arguments, ellipsis) ← nested <| loop ([], none) fun (arguments, ellipsis) => do
    if ellipsis.isSome || (← isAtAny [.rparen, .eof]) then return .done (arguments, ellipsis)
    let arguments := (← grammar.operand) :: arguments
    let ellipsis ←
      if ← isAt .ellipsis then
        let place ← offset
        next
        pure (some place)
      else pure none
    if ← atComma context .rparen then
      next
      return .again (arguments, ellipsis)
    return .done (arguments, ellipsis)
  let closing ← expectClosing .rparen context
  return .call callee opening arguments.reverse ellipsis closing

def elementValue (grammar : Grammar) : Parse Expr := do
  if ← isAt .lbrace then grammar.literalValue none else grammar.expr

def element (grammar : Grammar) : Parse Expr := do
  let value ← elementValue grammar
  if ← isAt .colon then
    let colon ← offset
    next
    return .keyValue value colon (← elementValue grammar)
  return value

/-- The elements of a composite literal, with its braces. -/
def literalValue (grammar : Grammar) (type : Option Expr) : Parse Expr := do
  let context : Bytes := "composite literal"
  let opening ← expect .lbrace
  let elements ← nested <| loop [] fun elements => do
    if ← isAtAny [.rbrace, .eof] then return .done elements
    let elements := (← element grammar) :: elements
    if ← atComma context .rbrace then
      next
      return .again elements
    return .done elements
  let closing ← expectClosing .rbrace context
  return .composite type opening elements.reverse closing

/-- Whether a brace after an operand starts a literal of that type, given the
nesting level. -/
def mayBeLiteralType (level : Int) : Expr → Bool
  | .bad .. | .ident .. | .selector .. | .index .. => level ≥ 0
  | .arrayType .. | .structType .. | .mapType .. => true
  | _ => false

def selector (grammar : Grammar) (base : Expr) : Parse Expr := do
  match ← token with
  | .ident => return .selector base (← ident)
  | .lparen => assertion grammar base
  | current =>
    let place ← offset
    complainExpected place "selector or type assertion"
    if current ≠ .rbrace then next
    return .selector base ⟨place, "_"⟩

def primaryFrom (grammar : Grammar) (operand : Expr) : Parse Expr :=
  loop operand fun base => do
    match ← token with
    | .period =>
      next
      return .again (← selector grammar base)
    | .lbrack => return .again (← indexOrSlice grammar base)
    | .lparen => return .again (← call grammar base)
    | .lbrace =>
      let type := unparenthesized base
      unless mayBeLiteralType (← get).notes.level type do return .done base
      if let .paren .. := base then
        complain type.start "cannot parenthesize type in composite literal"
      return .again (← grammar.literalValue (some base))
    | _ => return .done base

/-- A channel type to which an arrow in front belongs.  The arrows of nested
channel types move inwards; the last one has to find its channel. -/
def arrowChannel (arrow : Nat) : Expr → Parse Expr
  | .chanType _ ownArrow direction value => do
    let ownPlace := ownArrow.getD arrow
    if direction = .receive then complainExpected ownPlace "'chan'"
    let value ←
      if direction = .send then
        match value with
        | .chanType .. => arrowChannel ownPlace value
        | _ =>
          complainExpected ownPlace "channel type"
          pure value
      else pure value
    return .chanType arrow (some arrow) .receive value
  | expr => return expr

def unary (grammar : Grammar) : Parse Expr := do
  let place ← offset
  match ← token with
  | .add | .sub | .not | .xor | .and | .tilde =>
    let operator ← token
    next
    return .unary place operator (← grammar.unary)
  | .arrow =>
    next
    let operand ← grammar.unary
    match operand with
    | .chanType .. => arrowChannel place operand
    | _ => return .unary place .arrow operand
  | .mul =>
    next
    return .star place (← grammar.unary)
  | _ => primaryFrom grammar (← simpleOperand grammar)

/-- The binary operator that stands here.  On a right-hand side an assignment
sign is read as a comparison, and complained about. -/
def binaryOperator : Parse Token := do
  let current ← token
  return if (← get).notes.inOperand && current = .assign then .eql else current

/-- The operators and operands that follow a first operand. -/
def binaryFrom (grammar : Grammar) (precedence : Nat) (first : Expr) : Parse Expr :=
  loop first fun left => do
    let operator ← binaryOperator
    if operator.precedence < precedence then return .done left
    let place ← expect operator
    return .again (.binary left place operator (← grammar.binary (operator.precedence + 1)))

/-- An expression of operators that bind at least as tightly as given. -/
def binary (grammar : Grammar) (precedence : Nat) : Parse Expr := do
  binaryFrom grammar precedence (← grammar.unary)

end Parse
end Source
end CaseExpansion
