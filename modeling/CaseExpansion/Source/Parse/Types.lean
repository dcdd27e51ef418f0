import CaseExpansion.Source.Parse.Basic

namespace CaseExpansion
namespace Source
namespace Parse

/-!
# Types, fields and parameters

A parameter list mixes names and types freely until its end is seen: whether
`a, b` are two types or two names of a type to come depends on what follows.
The list is therefore read as pairs of an optional name and an optional type,
and sorted out afterwards.
-/

/-- A type.  Something else is complained about and skipped. -/
def type (grammar : Grammar) : Parse Expr := do
  match ← grammar.type? with
  | some type => return type
  | none =>
    let place ← offset
    complainExpected place "type"
    synchronize expressionEnds
    return .bad place (← offset)

/-- A name, possibly qualified by a package. -/
def typeName (first : Option Ident) : Parse Expr := do
  let name ← match first with
    | some name => pure name
    | none => ident
  if ← isAt .period then
    next
    return .selector (.ident name) (← ident)
  return .ident name

def typeInstance (grammar : Grammar) (base : Expr) : Parse Expr := do
  let context : Bytes := "type argument list"
  let opening ← expect .lbrack
  let arguments ← nested <| loop [] fun arguments => do
    if ← isAtAny [.rbrack, .eof] then return .done arguments
    let arguments := (← type grammar) :: arguments
    if ← atComma context .rbrack then
      next
      return .again arguments
    return .done arguments
  let closing ← expectClosing .rbrack context
  if arguments.isEmpty then
    complainExpected closing context
    return .index base opening [.bad (opening + 1) closing] closing
  return .index base opening arguments.reverse closing

/-- A type name with its type arguments, if any. -/
def qualifiedType (grammar : Grammar) (first : Option Ident) : Parse Expr := do
  let name ← typeName first
  if ← isAt .lbrack then typeInstance grammar name else return name

/-- An array or slice type after its opening bracket; the length may already
have been read. -/
def arrayType (grammar : Grammar) (opening : Nat) (length : Option Expr) : Parse Expr := do
  let length ← match length with
    | some length => pure (some length)
    | none => nested do
      if ← isAt .ellipsis then
        let place ← offset
        next
        return some (.ellipsis place none)
      else if ← isAt .rbrack then return none
      else return some (← grammar.operand)
  if ← isAt .comma then
    complain (← offset) "unexpected comma; expecting ]"
    next
  let _ ← expect .rbrack
  return .arrayType opening length (← type grammar)

/-- What follows a name and starts with a bracket: the array type of a field of
that name, or the type arguments of an embedded type of that name.  The name
is given back only in the first case. -/
def arrayFieldOrInstance (grammar : Grammar) (name : Ident) : Parse (Option Ident × Expr) := do
  let opening ← expect .lbrack
  let (arguments, trailingComma?) ←
    if ← isAt .rbrack then pure ([], none)
    else nested do
      let first ← grammar.operand
      loop [first] fun arguments => do
        unless ← isAt .comma do return .done (arguments.reverse, none)
        let comma ← offset
        next
        if ← isAt .rbrack then return .done (arguments.reverse, some comma)
        return .again ((← grammar.operand) :: arguments)
  let closing ← expect .rbrack
  match arguments with
  | [] => return (some name, .arrayType opening none (← type grammar))
  | [length] =>
    match ← grammar.type? with
    | some element =>
      if let some comma := trailingComma? then complain comma "unexpected comma; expecting ]"
      return (some name, .arrayType opening (some length) element)
    | none => return (none, .index (.ident name) opening arguments closing)
  | _ => return (none, .index (.ident name) opening arguments closing)

def unionTerm (grammar : Grammar) : Parse Expr := do
  if ← isAt .tilde then
    let place ← offset
    next
    return .unary place .tilde (← type grammar)
  match ← grammar.type? with
  | some type => return type
  | none =>
    let place ← offset
    complainExpected place "~ term or type"
    synchronize expressionEnds
    return .bad place (← offset)

/-- A union of types, of which the first term may already have been read. -/
def union (grammar : Grammar) (first : Option Expr) : Parse Expr := do
  let first ← match first with
    | some first => pure first
    | none => unionTerm grammar
  loop first fun left => do
    unless ← isAt .or do return .done left
    let place ← offset
    next
    return .again (.binary left place .or (← unionTerm grammar))

/-! ## Parameters -/

/-- A parameter whose name or type may be missing. -/
structure Parameter where
  name : Option Ident := none
  type : Option Expr := none

def dotsType (grammar : Grammar) : Parse Expr := do
  let place ← expect .ellipsis
  return .ellipsis place (some (← type grammar))

def typeStarts : List Token :=
  [.mul, .arrow, .kwFunc, .lbrack, .kwChan, .kwMap, .kwStruct, .kwInterface, .lparen]

/-- Adds the rest of a union to a parameter's type, where unions are allowed. -/
def finishParameter (grammar : Grammar) (unions : Bool) (parameter : Parameter) :
    Parse Parameter := do
  match parameter.type with
  | some type =>
    if unions && (← isAt .or) then
      return { parameter with type := some (← union grammar (some type)) }
    return parameter
  | none => return parameter

def parameterAfterName (grammar : Grammar) (unions : Bool) (name : Ident) : Parse Parameter := do
  match ← token with
  | .lbrack =>
    let (name, type) ← arrayFieldOrInstance grammar name
    finishParameter grammar unions ⟨name, some type⟩
  | .ellipsis => return ⟨some name, some (← dotsType grammar)⟩
  | .period => finishParameter grammar unions ⟨none, some (← qualifiedType grammar (some name))⟩
  | .tilde =>
    if unions then return ⟨some name, some (← union grammar none)⟩
    return ⟨some name, none⟩
  | .or =>
    if unions then return ⟨none, some (← union grammar (some (.ident name)))⟩
    return ⟨some name, none⟩
  | current =>
    if current = .ident || typeStarts.contains current then
      finishParameter grammar unions ⟨some name, some (← type grammar)⟩
    else return ⟨some name, none⟩

/-- One entry of a parameter list.  Its name may already have been read. -/
def parameter (grammar : Grammar) (name : Option Ident) (unions : Bool) : Parse Parameter := do
  match name with
  | some name => parameterAfterName grammar unions name
  | none =>
    match ← token with
    | .ident => parameterAfterName grammar unions (← ident)
    | .ellipsis => return ⟨none, some (← dotsType grammar)⟩
    | current =>
      if unions && current = .tilde then return ⟨none, some (← union grammar none)⟩
      if typeStarts.contains current then
        finishParameter grammar unions ⟨none, some (← type grammar)⟩
      else
        complainExpected (← offset) "')'"
        synchronize expressionEnds
        return {}

/-- A parameter with name and type, and whether the type is that of the
parameter after it. -/
structure TypedParameter where
  name : Ident
  type : Expr
  shared : Bool

/-- Gives every parameter a name and a type, from right to left.  The second
result is the leftmost place where either was missing. -/
def completeParameters (here : Nat) : List Parameter → List TypedParameter × Option Nat
  | [] => ([], none)
  | parameter :: rest =>
    let (done, fault?) := completeParameters here rest
    match parameter.type, parameter.name, done with
    | some type, some name, _ => (⟨name, type, false⟩ :: done, fault?)
    | some type, none, _ => (⟨⟨type.start, "_"⟩, type, false⟩ :: done, some type.start)
    | none, some name, following :: _ => (⟨name, following.type, true⟩ :: done, fault?)
    | none, some name, [] => (⟨name, .bad name.offset here, false⟩ :: done, some name.offset)
    | none, none, _ => (done, fault?)

def groupParameters : List TypedParameter → List Field
  | [] => []
  | parameter :: rest =>
    match parameter.shared, groupParameters rest with
    | true, field :: fields => { field with names := parameter.name :: field.names } :: fields
    | _, fields => { names := [parameter.name], type := parameter.type } :: fields

/-- The complaint about a list in which some parameters lack a name or a type. -/
def incompleteMessage (types onlyTypesMissing single : Bool) : Bytes :=
  if onlyTypesMissing then
    if types then "missing type constraint" else "missing parameter type"
  else if types then
    if single then "missing type parameter name or invalid array length"
    else "missing type parameter name"
  else "missing parameter name"

def variadic? : Expr → Option Nat
  | .ellipsis place _ => some place
  | _ => none

/-- Complains about the first variadic parameter that is not allowed to be one:
only the last parameter of a function may be. -/
def checkVariadic (allowed : Bool) (types : List Expr) : Parse Unit := do
  let checked := if allowed then types.dropLast else types
  match checked.findSome? variadic? with
  | none => pure ()
  | some place =>
    complain place (if allowed then "can only use ... with final parameter" else "invalid use of ...")

/-- Reads the entries of a parameter list up to its closing token, whose first
name and type may already have been read. -/
def parameterEntries (grammar : Grammar) (name : Option Ident) (firstType : Option Expr)
    (closing : Token) : Parse (List Parameter) := do
  let unions := closing = .rbrack
  let entries ← loop (name, firstType, []) fun (name, firstType, entries) => do
    if name.isNone && (← isAtAny [closing, .eof]) then return .done entries
    let entry ← match firstType with
      | some type =>
        let type ← if unions then union grammar (some type) else pure type
        pure (⟨name, some type⟩ : Parameter)
      | none => parameter grammar name unions
    let entries := if entry.name.isSome || entry.type.isSome then entry :: entries else entries
    if ← atComma "parameter list" closing then
      next
      return .again (none, none, entries)
    return .done entries
  return entries.reverse

/-- A list of parameters, results or type parameters, without the tokens around
it. -/
def parameterList (grammar : Grammar) (name : Option Ident) (firstType : Option Expr)
    (closing : Token) (variadicAllowed : Bool) : Parse (List Field) := do
  let types := closing = .rbrack
  let entries ← parameterEntries grammar name firstType closing
  if entries.isEmpty then return []
  let here ← offset
  let named := entries.countP fun entry => entry.name.isSome && entry.type.isSome
  let typed := entries.countP fun entry => entry.type.isSome
  if named = 0 && !types then
    let unnamed := entries.filterMap fun entry => (entry.name.map Expr.ident).or entry.type
    checkVariadic variadicAllowed unnamed
    return unnamed.map fun type => { names := [], type }
  let (complete, fault?) := completeParameters here entries
  if named ≠ entries.length then
    if let some fault := fault? then
      let onlyTypesMissing := named = typed
      complain (if onlyTypesMissing then here else fault)
        (incompleteMessage types onlyTypesMissing (entries.length = 1))
  checkVariadic variadicAllowed (complete.map TypedParameter.type)
  return groupParameters complete

def parameters (grammar : Grammar) (variadicAllowed : Bool) : Parse FieldList := do
  let opening ← expect .lparen
  let fields ←
    if ← isAt .rparen then pure []
    else parameterList grammar none none .rparen variadicAllowed
  let closing ← expect .rparen
  return ⟨some opening, fields, some closing⟩

/-- Results: in parentheses, a single type, or none. -/
def results (grammar : Grammar) : Parse FieldList := do
  if ← isAt .lparen then parameters grammar false
  else
    match ← grammar.type? with
    | some type => return { fields := [{ names := [], type }] }
    | none => return {}

/-- Type parameters in brackets.  An empty list is complained about and counts
as none. -/
def typeParameters (grammar : Grammar) : Parse FieldList := do
  let opening ← expect .lbrack
  let fields ←
    if ← isAt .rbrack then pure []
    else parameterList grammar none none .rbrack false
  let closing ← expect .rbrack
  if fields.isEmpty then
    complain closing "empty type parameter list"
    return {}
  return ⟨some opening, fields, some closing⟩

def funcType (grammar : Grammar) : Parse Signature := do
  let keyword ← expect .kwFunc
  if ← isAt .lbrack then
    if let some opening := (← typeParameters grammar).opening then
      complain opening "function type must have no type parameters"
  let params ← parameters grammar true
  return ⟨some keyword, {}, params, ← results grammar⟩

/-! ## Structs and interfaces -/

/-- A type in parentheses where none are allowed, after the opening one. -/
def parenthesized (grammar : Grammar) : Parse Expr := do
  complain (← offset) "cannot parenthesize embedded type"
  next
  let type ←
    if ← isAt .mul then
      let place ← offset
      next
      pure (.star place (← qualifiedType grammar none))
    else qualifiedType grammar none
  if ← isAt .rparen then next
  return type

def fieldType (grammar : Grammar) : Parse (List Ident × Expr) := do
  match ← token with
  | .ident =>
    let name ← ident
    if ← isAtAny [.string, .semicolon, .rbrace] then return ([], .ident name)
    if ← isAt .period then return ([], ← qualifiedType grammar (some name))
    let rest ← many (isAt .comma) do
      next
      ident
    if rest.isEmpty && (← isAt .lbrack) then
      let (name, type) ← arrayFieldOrInstance grammar name
      return (name.toList, type)
    return (name :: rest, ← type grammar)
  | .mul =>
    let place ← offset
    next
    if ← isAt .lparen then
      complain (← offset) "cannot parenthesize embedded type"
      next
      let type ← qualifiedType grammar none
      if ← isAt .rparen then next
      return ([], .star place type)
    return ([], .star place (← qualifiedType grammar none))
  | .lparen => return ([], ← parenthesized grammar)
  | _ =>
    let place ← offset
    complainExpected place "field name or embedded type"
    synchronize expressionEnds
    return ([], .bad place (← offset))

def structField (grammar : Grammar) : Parse Field := do
  let (names, type) ← fieldType grammar
  let current := (← get).current
  let tag ←
    if current.token = .string then
      next
      pure (some ⟨current.offset, current.token, current.literal, current.stop⟩)
    else pure none
  let comment ← expectSemicolon
  return { names, type, tag, hasComment := comment.isSome }

def structType (grammar : Grammar) : Parse Expr := do
  let place ← expect .kwStruct
  let opening ← expect .lbrace
  let fields ← many (isAtAny [.ident, .mul, .lparen]) (structField grammar)
  let closing ← expect .rbrace
  return .structType place ⟨some opening, fields, some closing⟩

def methodSignature (grammar : Grammar) : Parse Expr := do
  let params ← parameters grammar true
  return .funcType ⟨none, {}, params, ← results grammar⟩

/-- What follows a method's name or an embedded type's name and starts with a
bracket. -/
def bracketedElement (grammar : Grammar) (name : Ident) : Parse (List Ident × Expr) := do
  let opening ← offset
  next
  let first ← nested grammar.expr
  let generic? ← match first with
    | .ident parameter =>
      if ← isAtAny [.comma, .rbrack] then pure none else pure (some parameter)
    | _ => pure none
  match generic? with
  | some parameter =>
    let _ ← parameterList grammar (some parameter) none .rbrack false
    let _ ← expect .rbrack
    complain opening "interface method must have no type parameters"
    return ([name], ← methodSignature grammar)
  | none =>
    let context : Bytes := "type argument list"
    let arguments ←
      if ← atComma context .rbrack then
        nested do
          next
          loop [first] fun arguments => do
            if ← isAtAny [.rbrack, .eof] then return .done arguments
            let arguments := (← type grammar) :: arguments
            if ← atComma context .rbrack then
              next
              return .again arguments
            return .done arguments
      else pure [first]
    let closing ← expectClosing .rbrack context
    return ([], .index (.ident name) opening arguments.reverse closing)

/-- A method or an embedded type that starts with a name. -/
def namedElement (grammar : Grammar) : Parse (List Ident × Expr) := do
  match ← typeName none with
  | .ident name =>
    match ← token with
    | .lbrack => bracketedElement grammar name
    | .lparen => return ([name], ← methodSignature grammar)
    | _ => return ([], .ident name)
  | qualified =>
    if ← isAt .lbrack then return ([], ← typeInstance grammar qualified)
    return ([], qualified)

/-- One element of an interface, if there is one. -/
def interfaceElement (grammar : Grammar) : Parse (Option Field) := do
  let element? : Option (List Ident × Expr) ← match ← token with
    | .ident => do
      let (names, type) ← namedElement grammar
      if names.isEmpty then pure (some ([], ← union grammar (some type)))
      else pure (some (names, type))
    | .tilde => pure (some ([], ← union grammar none))
    | _ => do
      match ← grammar.type? with
      | some type => pure (some ([], ← union grammar (some type)))
      | none => pure none
  match element? with
  | some (names, type) =>
    let comment ← expectSemicolon
    return some { names, type, hasComment := comment.isSome }
  | none => return none

def interfaceType (grammar : Grammar) : Parse Expr := do
  let place ← expect .kwInterface
  let opening ← expect .lbrace
  let methods ← loop [] fun methods => do
    match ← interfaceElement grammar with
    | some method => return .again (method :: methods)
    | none => return .done methods.reverse
  let closing ← expect .rbrace
  return .interfaceType place ⟨some opening, methods, some closing⟩

def mapType (grammar : Grammar) : Parse Expr := do
  let place ← expect .kwMap
  let _ ← expect .lbrack
  let key ← type grammar
  let _ ← expect .rbrack
  return .mapType place key (← type grammar)

def chanType (grammar : Grammar) : Parse Expr := do
  let place ← offset
  let (arrow, direction) ←
    if ← isAt .kwChan then
      next
      if ← isAt .arrow then
        let arrow ← offset
        next
        pure (some arrow, Direction.send)
      else pure (none, Direction.both)
    else
      let arrow ← expect .arrow
      let _ ← expect .kwChan
      pure (some arrow, Direction.receive)
  return .chanType place arrow direction (← type grammar)

/-- A type, if one starts here. -/
def type? (grammar : Grammar) : Parse (Option Expr) := do
  match ← token with
  | .ident => return some (← qualifiedType grammar none)
  | .lbrack =>
    let opening ← expect .lbrack
    return some (← arrayType grammar opening none)
  | .kwStruct => return some (← structType grammar)
  | .mul =>
    let place ← expect .mul
    return some (.star place (← type grammar))
  | .kwFunc => return some (.funcType (← funcType grammar))
  | .kwInterface => return some (← interfaceType grammar)
  | .kwMap => return some (← mapType grammar)
  | .kwChan | .arrow => return some (← chanType grammar)
  | .lparen =>
    let opening ← offset
    next
    let inner ← type grammar
    let closing ← expect .rparen
    return some (.paren opening inner closing)
  | _ => return none

end Parse
end Source
end CaseExpansion
