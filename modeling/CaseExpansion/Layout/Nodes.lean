import CaseExpansion.Layout.Printer
import CaseExpansion.Layout.Spacing

namespace CaseExpansion
namespace Layout

open Source
open Writing

/-!
# Formatting of source nodes

One function per class of nodes writes the node in standard form.  Line breaks of
the source are kept inside of lists, after binary operators and before selectors;
everywhere else the form decides.

Functions on lists of nodes carry what they need to know of the nodes before.  The
decisions around a list, which depend on all of it, are made by `layoutList` and its
like, which take the function that walks through the list as an argument.
-/

/-! ## Lists -/

structure ListForm where
  /-- The offsets of the tokens before and after the list, where they matter. -/
  previous : Option Nat := none
  next : Option Nat := none
  depth : Nat := 1
  /-- Whether a comma ends a list whose closing token is on a new line. -/
  endsInComma : Bool := false
  indents : Bool := true

structure ListState where
  index : Nat := 0
  /-- The white space before the next line break: indentation, unless there was a
  line break already. -/
  before : Space := .indent
  lastBreak : Int := -1
  line : Int := 0
  /-- The size of the last element, or zero if it does not fit on a line. -/
  size : Nat := 0
  /-- The number of elements that were aligned and the sum of their sizes. -/
  count : Nat := 0
  sum : Nat := 0

structure ListWalk where
  form : ListForm
  isOneLine : Bool
  /-- Whether the sizes of elements decide about columns. -/
  measures : Bool
  length : Nat

def sizeLimit : Nat := 1000000

/-- Writes a comma and the white space or line break before an element of a list over
several lines.  Returns the state for the element. -/
def beforeElement (state : ListState) (start : Nat) (size : Nat) :
    Writing (ListState × Bool) := do
  let line ← lineOf start
  let startsSection :=
    if state.size > 0 && size > 0 then
      state.count > 0 && !(state.size ≤ smallSize && size ≤ smallSize)
        && isOutOfProportion size state.count state.sum
    else true
  let needsBreak := 0 < state.line && state.line < line
  if state.index = 0 then return ({ state with line, size }, needsBreak)
  if !needsBreak then goTo start
  token .comma
  if !needsBreak then
    space .blank
    return ({ state with line, size }, needsBreak)
  let breaks ← breakTo line 0 state.before (startsSection || state.lastBreak + 1 < state.index)
  if breaks = 0 then
    space .blank
    return ({ state with line, size }, needsBreak)
  let state := { state with before := .dropped, lastBreak := state.index, line, size }
  return (if breaks > 1 then { state with count := 0, sum := 0 } else state, needsBreak)

def afterElement (state : ListState) : ListState :=
  if state.size > 0 then
    { state with
      index := state.index + 1, count := state.count + 1, sum := state.sum + state.size }
  else { state with index := state.index + 1 }

/-- Writes a list, given the function that walks through its elements. -/
def layoutList (form : ListForm) (list : List Expr)
    (walk : ListWalk → ListState → Writing ListState) : Writing Unit := do
  match list, list.getLast? with
  | first :: _, some last =>
    let lines := (← get).lines
    let previousLine := (form.previous.map lines.line).getD 0
    let line := lines.line first.start
    let isOneLine := form.previous.isSome && previousLine = line && line = lines.line last.stop
    let measures := form.previous.isSome && form.next.isSome
    let walkForm : ListWalk := { form, isOneLine, measures, length := list.length }
    if isOneLine then
      let _ ← walk walkForm {}
    else
      let before : Space := if form.indents then .indent else .dropped
      let breaks ←
        if form.previous.isSome && previousLine < line then breakTo line 0 before true else pure 0
      let state ← walk walkForm
        (if breaks > 0 then { before := .dropped, lastBreak := 0, line := previousLine }
        else { before, line := previousLine })
      let reached := (← get).place.line
      let endsLater := form.next.any fun next => reached < lines.line next
      if form.endsInComma && endsLater then
        token .comma
        if state.before = .dropped && form.indents then space .unindent
        space .sectionBreak
      else if state.before = .dropped && form.indents then space .unindent
  | _, _ => return

def names (indents : Bool) (idents : List Ident) : Writing Unit :=
  layoutList { indents } (idents.map .ident) fun _ state => walkNames state idents
where
  walkNames : ListState → List Ident → Writing ListState
    | state, [] => pure state
    | state, ident :: idents => do
      let (state, _) ← beforeElement state ident.offset 0
      goTo ident.offset
      name ident
      walkNames (afterElement state) idents

/-! ## Fields -/

/-- The number of columns that names take, with commas between them. -/
def namesSize (idents : List Ident) : Nat :=
  total (idents.map fun ident => (Text.Utf8.chars ident.name).length + 2) - 2

/-- The largest size of a struct or an interface that is written on one line. -/
def oneLineFieldLimit : Nat := 30

/-- The lists of parameters, which differ in their brackets. -/
inductive ParamKind where
  | values | functionTypes | declaredTypes
deriving DecidableEq

/-- Whether a list of type parameters needs a comma at its end in order not to be
read as an array length. -/
def needsTypeComma (kind : ParamKind) : List Field → Bool
  | [field] =>
    kind = .declaredTypes && field.names.length ≤ 1 && combinesWithName (withoutParens field.type)
  | _ => false

structure ParamState where
  isFirst : Bool := true
  line : Int
  before : Space := .indent

def beforeParam (state : ParamState) (field : Field) : Writing ParamState := do
  let start := fieldStart field
  let line ← lineOf start
  let needsBreak := 0 < state.line && state.line < line
  if !state.isFirst then
    if !needsBreak then goTo start
    token .comma
  let stopLine ← lineOf (Expr.fieldStop field)
  if needsBreak then
    if (← breakTo line 0 state.before true) > 0 then
      return { isFirst := false, line := stopLine, before := .dropped }
  if !state.isFirst then space .blank
  return { state with isFirst := false, line := stopLine }

/-! ## Expressions and statements -/

/-- Which parentheses around an expression are left out. -/
inductive ParenRule where
  | keep
  | unlessNeeded
  | drop
deriving DecidableEq

structure ExprForm where
  /-- How tightly the operator around the expression binds. -/
  precedence : Nat := 0
  depth : Nat := 1
  parens : ParenRule := .keep
  isCallee : Bool := false
  /-- Whether the value of a key stands in a column of its own. -/
  alignsPair : Bool := false

def oneLineFunctionLimit : Nat := 100

def hugeSize : Nat := 1073741824

/-- The number of columns from a column of the output up to the current one, if the
given offset is on the current line of the source. -/
def distanceFrom (start : Nat) (column : Int) : Writing Nat := do
  let printer ← get
  return if printer.lines.line start = printer.place.line then (printer.written.column - column).toNat
    else hugeSize

/-- Runs an action with comments between marks treated as inside of a literal: no line
break after them and, unless the literal is empty, no blank. -/
def insideLiteral (isEmpty : Bool) (action : Writing Unit) : Writing Unit := do
  let flip : Writing Unit := do
    noteOpening
    modify fun printer =>
      { printer with
        noExtraBreak := !printer.noExtraBreak
        noExtraBlank := printer.noExtraBlank != !isEmpty }
  flip
  action
  flip

def atLevelZero (action : Writing Unit) : Writing Unit := do
  let level := (← get).level
  modify fun printer => { printer with level := 0 }
  action
  modify fun printer => { printer with level }

def labelCount : Stmt → Nat
  | .labeled _ _ statement => labelCount statement + 1
  | _ => 0
termination_by structural statement => statement

def isEmptyStmt : Stmt → Bool
  | .empty .. => true
  | _ => false

structure StmtState where
  index : Nat := 0
  /-- The mark of the last statement, and the number of its labels. -/
  mark : Nat := 0
  labels : Nat := 0

structure StmtWalk where
  /-- Whether the statements are indented.  Those of a switch are not. -/
  indents : Bool
  beforeBrace : Bool
  length : Nat

def beforeStmt (walk : StmtWalk) (state : StmtState) (start : Nat) : Writing Nat := do
  if !(← get).output.isEmpty then
    let startsSection := state.index = 0 || !walk.indents
    let startsSection ←
      if startsSection then pure true
      else do pure ((← linesSince state.mark state.labels) > 0)
    let _ ← breakTo (← lineOf start) 1 .dropped startsSection
  mark

/-- The white space between the parts of a declaration in a group of declarations. -/
def specBreak (state : Option Nat) (start : Nat) : Writing Nat := do
  match state with
  | some previous =>
    let startsSection := (← linesSince previous 0) > 0
    let _ ← breakTo (← lineOf start) 1 .dropped startsSection
  | none => pure ()
  mark

def spacesBeforeComment (count : Nat) (separator : Space) : Writing Unit :=
  spaces (List.replicate count separator)

def oneLineNames (isFirst : Bool) : List Ident → Writing Unit
  | [] => return
  | ident :: idents => do
    if !isFirst then
      token .comma
      space .blank
    goTo ident.offset
    name ident
    oneLineNames false idents

mutual
/-- Writes an expression.  Returns whether indentation was left open, which happens
for a selector that is called and that stands on a line of its own. -/
def expr (form : ExprForm) : Expr → Writing Bool
  | .bad start _ => do
    goTo start
    literal .string "BadExpr"
    return false
  | .ident ident => do
    goTo ident.offset
    name ident
    return false
  | .literal value => do
    goTo value.offset
    let text := if (← get).normalizes then normalLiteral value else value.text
    literal value.token text
    return false
  | .function signatureOf body => do
    goTo signatureOf.start
    token .kwFunc
    let column := (← get).written.column - 4
    signature signatureOf
    let size ← distanceFrom signatureOf.start column
    functionBody size .blank body
    return false
  | .composite type lbrace elements rbrace => do
    goTo (Expr.startOr lbrace type)
    maybeExpr { precedence := highestPrecedence, depth := form.depth } type
    modify fun printer => { printer with level := printer.level + 1 }
    goTo lbrace
    token .lbrace
    layoutList { previous := some lbrace, next := some rbrace, endsInComma := true } elements
      fun walk state => elementList walk state elements
    spaces [.indent, .unindent]
    insideLiteral elements.isEmpty do
      goTo rbrace
      token .rbrace
    modify fun printer => { printer with level := printer.level - 1 }
    return false
  | .paren lparen inner rparen => do
    let isNested := match inner with
      | .paren .. => true
      | _ => false
    if form.parens = .drop || (form.parens = .unlessNeeded && !hasBareLiteral inner) then
      expr form inner
    else if isNested then
      goTo lparen
      let _ ← expr { depth := form.depth } inner
      return false
    else
      goTo lparen
      token .lparen
      let _ ← expr { depth := reduceDepth form.depth } inner
      goTo rparen
      token .rparen
      return false
  | .selector base field => do
    let _ ← expr { precedence := highestPrecedence, depth := form.depth } base
    token .period
    if (← get).place.line < (← lineOf field.offset) then
      spaces [.indent, .lineBreak]
      goTo field.offset
      name field
      if !form.isCallee then space .unindent
      return form.isCallee
    else
      goTo field.offset
      name field
      return false
  | .index base lbrack indices rbrack => do
    let _ ← expr { precedence := highestPrecedence } base
    goTo lbrack
    token .lbrack
    if indices.length = 1 then
      let _ ← elementList ⟨{ depth := form.depth + 1 }, true, false, 1⟩ {} indices
    else
      layoutList
        { previous := some lbrack, next := some rbrack, depth := form.depth + 1, endsInComma := true }
        indices fun walk state => elementList walk state indices
    goTo rbrack
    token .rbrack
    return false
  | .slice base lbrack low high max _ rbrack => do
    let _ ← expr { precedence := highestPrecedence } base
    goTo lbrack
    token .lbrack
    let present := [low, high, max].filterMap id
    let hasBlanks := form.depth ≤ 1 && present.length > 1 && present.any isBinary
    let inner : ExprForm := { depth := form.depth + 1 }
    maybeExpr inner low
    if hasBlanks && low.isSome then space .blank
    token .colon
    if hasBlanks && high.isSome then space .blank
    maybeExpr inner high
    if max.isSome then
      if hasBlanks && high.isSome then space .blank
      token .colon
      if hasBlanks then space .blank
      maybeExpr inner max
    goTo rbrack
    token .rbrack
    return false
  | .assertion base lparen type rparen => do
    let _ ← expr { precedence := highestPrecedence, depth := form.depth } base
    token .period
    goTo lparen
    token .lparen
    maybeExpr {} type
    if type.isNone then token .kwType
    goTo rparen
    token .rparen
    return false
  | .call callee lparen arguments ellipsis rparen => do
    let depth := if arguments.length > 1 then form.depth + 1 else form.depth
    let needsParens := match callee with
      | .funcType _ => true
      | .chanType _ _ .receive _ => true
      | _ => false
    goTo callee.start
    if needsParens then token .lparen
    let isOpen ← expr { precedence := highestPrecedence, depth, isCallee := true } callee
    if needsParens then token .rparen
    goTo lparen
    token .lparen
    match ellipsis with
    | some offset => do
      layoutList { previous := some lparen, next := some offset, depth } arguments
        fun walk state => elementList walk state arguments
      goTo offset
      token .ellipsis
      if (← lineOf offset) < (← lineOf rparen) then
        token .comma
        space .sectionBreak
    | none =>
      layoutList { previous := some lparen, next := some rparen, depth, endsInComma := true } arguments
        fun walk state => elementList walk state arguments
    goTo rparen
    token .rparen
    if isOpen then space .unindent
    return false
  | .star offset inner => do
    goTo offset
    let needsParens := unaryPrecedence < form.precedence
    if needsParens then token .lparen
    token .mul
    let _ ← expr {} inner
    if needsParens then token .rparen
    return false
  | .unary offset operator operand => do
    goTo offset
    let needsParens := unaryPrecedence < form.precedence
    if needsParens then token .lparen
    token operator
    if operator = .kwRange then space .blank
    let depth := if needsParens then 1 else form.depth
    let _ ← expr { precedence := unaryPrecedence, depth } operand
    if needsParens then token .rparen
    return false
  | .binary left offset operator right => do
    let precedence := operator.precedence
    let hasBlanks := precedence < blankCutoff form.depth (.binary left offset operator right)
    let _ ← expr { precedence, depth := form.depth + depthStep precedence left } left
    if hasBlanks then space .blank
    let leftLine := (← get).place.line
    let rightLine ← lineOf right.start
    goTo offset
    token operator
    let mut isBroken := false
    if leftLine ≠ rightLine && leftLine > 0 && rightLine > 0 then
      isBroken := (← breakTo rightLine 1 .indent true) > 0
    if hasBlanks && !isBroken then space .blank
    let _ ← expr { precedence := precedence + 1, depth := form.depth + 1 } right
    if isBroken then space .unindent
    return false
  | .keyValue key colon value => do
    let _ ← expr {} key
    goTo colon
    token .colon
    space (if form.alignsPair then .tab else .blank)
    let _ ← expr {} value
    return false
  | .ellipsis offset element => do
    goTo offset
    token .ellipsis
    maybeExpr {} element
    return false
  | .arrayType lbrack length element => do
    goTo lbrack
    token .lbrack
    maybeExpr {} length
    token .rbrack
    let _ ← expr {} element
    return false
  | .structType offset fields => do
    goTo offset
    token .kwStruct
    fieldList true fields
    return false
  | .funcType signatureOf => do
    goTo signatureOf.start
    token .kwFunc
    signature signatureOf
    return false
  | .interfaceType offset methods => do
    goTo offset
    token .kwInterface
    fieldList false methods
    return false
  | .mapType offset key value => do
    goTo offset
    token .kwMap
    token .lbrack
    let _ ← expr {} key
    token .rbrack
    let _ ← expr {} value
    return false
  | .chanType offset arrow direction value => do
    goTo offset
    match direction with
    | .both => token .kwChan
    | .receive => do
      token .arrow
      token .kwChan
    | .send => do
      token .kwChan
      goTo (arrow.getD offset)
      token .arrow
    space .blank
    let _ ← expr {} value
    return false
termination_by structural expr => expr

def maybeExpr (form : ExprForm) : Option Expr → Writing Unit
  | some inner => do
    let _ ← expr form inner
    return
  | none => return
termination_by structural expr? => expr?

def keySize? : Expr → Writing (Option Nat)
  | .keyValue key _ _ => do
    let size ← measure sizeLimit 0 do
      let _ ← expr {} key
      return
    return some size
  | _ => return none
termination_by structural expr => expr

def elementList (walk : ListWalk) (state : ListState) : List Expr → Writing ListState
  | [] => return state
  | element :: elements => do
    if walk.isOneLine then
      if state.index > 0 then
        goTo element.start
        token .comma
        space .blank
      let _ ← expr { depth := walk.form.depth } element
      elementList walk { state with index := state.index + 1 } elements
    else
      let whole ← measure sizeLimit 0 do
        let _ ← expr {} element
        return
      let key? ← keySize? element
      let size := if whole ≤ sizeLimit && walk.measures then key?.getD whole else 0
      let (state, startsLine) ← beforeElement state element.start size
      let alignsPair := walk.length > 1 && key?.isSome && size > 0 && startsLine
      let _ ← expr { depth := walk.form.depth, alignsPair } element
      elementList walk (afterElement state) elements
termination_by structural elements => elements

def signature : SignatureOf Expr → Writing Unit
  | ⟨_, typeParams, params, results⟩ => do
    if typeParams.opening.isSome then parameters .functionTypes typeParams
    parameters .values params
    if !results.fields.isEmpty then
      space .blank
      if results.fields.length = 1 && results.fields.all (fun field => field.names.isEmpty) then
        resultType results
      else parameters .values results
termination_by structural signatureOf => signatureOf

def resultType : FieldListOf Expr → Writing Unit
  | ⟨_, fields, _⟩ => fieldTypes fields
termination_by structural list => list

def fieldTypes : List (FieldOf Expr) → Writing Unit
  | [] => return
  | field :: fields => do
    fieldType { parens := .drop } field
    fieldTypes fields
termination_by structural fields => fields

def fieldType (form : ExprForm) : FieldOf Expr → Writing Unit
  | ⟨_, type, _, _⟩ => do
    let _ ← expr form type
    return
termination_by structural field => field

def parameters (kind : ParamKind) : FieldListOf Expr → Writing Unit
  | ⟨opening, fields, closing⟩ => do
    let (open_, close) : Token × Token :=
      if kind = .values then (.lparen, .rparen) else (.lbrack, .rbrack)
    if let some offset := opening then goTo offset
    token open_
    if !fields.isEmpty then
      let line ← lineOf (opening.getD 0)
      let state ← paramList { line := if opening.isSome then line else 0 } fields
      let closingLine ← match closing with
        | some offset => lineOf offset
        | none => pure 0
      if 0 < state.line && state.line < closingLine then
        token .comma
        let _ ← breakTo closingLine 0 .dropped true
      else if needsTypeComma kind fields then token .comma
      if state.before = .dropped then space .unindent
    if let some offset := closing then goTo offset
    token close
termination_by structural list => list

def paramList (state : ParamState) : List (FieldOf Expr) → Writing ParamState
  | [] => return state
  | field :: fields => do
    let state ← beforeParam state field
    if !field.names.isEmpty then
      names (state.before = .indent) field.names
      space .blank
    fieldType { parens := .drop } field
    paramList state fields
termination_by structural fields => fields

/-- Writes the fields of a struct or the methods of an interface, in braces.  A single
small one may stand on the line of the braces. -/
def fieldList (isStruct : Bool) : FieldListOf Expr → Writing Unit
  | ⟨opening, fields, closing⟩ => do
    let lbrace := opening.getD 0
    let rbrace := closing.getD 0
    let hasComments ← commentBefore (← spot rbrace)
    let isOneLine := (← lineOf lbrace) = (← lineOf rbrace)
    let fits ← if !hasComments && isOneLine then fitsOneLine fields else pure false
    if !hasComments && isOneLine && fields.isEmpty then
      goTo lbrace
      token .lbrace
      goTo rbrace
      token .rbrace
    else if fits then
      goTo lbrace
      token .lbrace
      space .blank
      oneLineField isStruct fields
      space .blank
      goTo rbrace
      token .rbrace
    else
      space .blank
      goTo lbrace
      token .lbrace
      space .indent
      if hasComments || !fields.isEmpty then space .sectionBreak
      if isStruct then
        structFields (if fields.length = 1 then .blank else .tab) none fields
      else methods none fields
      spaces [.unindent, .sectionBreak]
      goTo rbrace
      token .rbrace
termination_by structural list => list

def fitsOneLine : List (FieldOf Expr) → Writing Bool
  | [field] => do
    if field.tag.isSome || field.hasComment then return false
    let size ← measure oneLineFieldLimit 0 (fieldType {} field)
    let before := if namesSize field.names > 0 then 1 else 0
    return before + size ≤ oneLineFieldLimit
  | _ => return false
termination_by structural fields => fields

def oneLineField (isStruct : Bool) : List (FieldOf Expr) → Writing Unit
  | [] => return
  | field :: fields => do
    if isStruct then
      oneLineNames true field.names
      if !field.names.isEmpty then space .blank
      fieldType {} field
    else methodOrType field
    oneLineField isStruct fields
termination_by structural fields => fields

/-- Writes a method, without a keyword, or an embedded type. -/
def methodOrType : FieldOf Expr → Writing Unit
  | ⟨ident :: _, .funcType signatureOf, _, _⟩ => do
    goTo ident.offset
    name ident
    signature signatureOf
  | ⟨_, type, _, _⟩ => do
    let _ ← expr {} type
    return
termination_by structural field => field

def structFields (separator : Space) (previous : Option Nat) : List (FieldOf Expr) → Writing Unit
  | [] => return
  | field :: fields => do
    let start ← specBreak previous (fieldStart field)
    let isNamed := !field.names.isEmpty
    if isNamed then
      names false field.names
      space separator
    fieldType {} field
    if let some tag := field.tag then
      if isNamed && separator = .tab then space separator
      space separator
      goTo tag.offset
      literal tag.token tag.text
    if field.hasComment then
      let missing := if field.tag.isSome then 0 else if isNamed then 1 else 2
      spacesBeforeComment missing separator
    structFields separator (some start) fields
termination_by structural fields => fields

/-- Writes the methods of an interface over several lines. -/
def methods (previous : Option Nat) : List (FieldOf Expr) → Writing Unit
  | [] => return
  | field :: fields => do
    let start ← specBreak previous (fieldStart field)
    methodOrType field
    methods (some start) fields
termination_by structural fields => fields

def stmt (beforeBrace : Bool) : Stmt → Writing Unit
  | .bad start _ => do
    goTo start
    literal .string "BadStmt"
  | .declaration group => declGroup group
  | .empty offset _ => goTo offset
  | .labeled label colon statement => do
    goTo label.offset
    space .unindent
    goTo label.offset
    name label
    goTo colon
    token .colon
    space .indent
    if isEmptyStmt statement then
      if beforeBrace then stmt beforeBrace statement
      else
        space .lineBreak
        goTo statement.start
        token .semicolon
    else
      let _ ← breakTo (← lineOf statement.start) 1 .dropped true
      stmt beforeBrace statement
  | .expression inner => do
    let _ ← expr {} inner
    return
  | .send channel arrow value => do
    let _ ← expr {} channel
    space .blank
    goTo arrow
    token .arrow
    space .blank
    let _ ← expr {} value
    return
  | .step operand offset operator => do
    let _ ← expr { depth := 2 } operand
    goTo offset
    token operator
  | .assign left offset operator right => do
    let depth := if left.length > 1 && right.length > 1 then 2 else 1
    layoutList { previous := left.head?.map Expr.start, next := some offset, depth } left
      fun walk state => elementList walk state left
    space .blank
    goTo offset
    token operator
    space .blank
    layoutList { previous := some offset, depth } right
      fun walk state => elementList walk state right
  | .go offset call => do
    goTo offset
    token .kwGo
    space .blank
    let _ ← expr {} call
    return
  | .defer offset call => do
    goTo offset
    token .kwDefer
    space .blank
    let _ ← expr {} call
    return
  | .return_ offset results => do
    goTo offset
    token .kwReturn
    if !results.isEmpty then
      space .blank
      let lines := (← get).lines
      let extents := results.map fun result =>
        (lines.line result.start, lines.line result.stop, endsInBrace result)
      if isBestIndented extents then
        space .indent
        layoutList { indents := false } results fun walk state => elementList walk state results
        space .unindent
      else layoutList {} results fun walk state => elementList walk state results
  | .branch offset keyword label => do
    goTo offset
    token keyword
    if let some label := label then
      space .blank
      goTo label.offset
      name label
  | .block inner => block true inner
  | .if_ offset init condition body otherwise => do
    goTo offset
    token .kwIf
    space .blank
    if init.isSome then
      maybeStmt init
      token .semicolon
      space .blank
    let _ ← expr { parens := .unlessNeeded } condition
    space .blank
    block true body
    if otherwise.isSome then
      space .blank
      token .kwElse
      space .blank
      elseStmt beforeBrace otherwise
  | .switch offset init tag body => do
    goTo offset
    token .kwSwitch
    space .blank
    if init.isSome then
      maybeStmt init
      token .semicolon
      space .blank
    maybeExpr { parens := .unlessNeeded } tag
    if tag.isSome then space .blank
    block false body
  | .typeSwitch offset init guard body => do
    goTo offset
    token .kwSwitch
    if init.isSome then
      space .blank
      maybeStmt init
      token .semicolon
    space .blank
    stmt false guard
    space .blank
    block false body
  | .caseClause offset values colon body => do
    goTo offset
    if values.isEmpty then token .kwDefault
    else
      token .kwCase
      space .blank
      layoutList { previous := some offset, next := some colon } values
        fun walk state => elementList walk state values
    goTo colon
    token .colon
    space .indent
    stmtList ⟨true, beforeBrace, body.length⟩ {} body
    space .unindent
  | .select offset body => do
    goTo offset
    token .kwSelect
    space .blank
    if body.statements.isEmpty && !(← commentBefore (← spot body.rbrace)) then
      goTo body.lbrace
      token .lbrace
      goTo body.rbrace
      token .rbrace
    else block false body
  | .commClause offset communication colon body => do
    goTo offset
    if communication.isSome then
      token .kwCase
      space .blank
      maybeStmt communication
    else token .kwDefault
    goTo colon
    token .colon
    space .indent
    stmtList ⟨true, beforeBrace, body.length⟩ {} body
    space .unindent
  | .for_ offset init condition post body => do
    goTo offset
    token .kwFor
    space .blank
    if init.isNone && post.isNone then
      maybeExpr { parens := .unlessNeeded } condition
      if condition.isSome then space .blank
    else
      maybeStmt init
      token .semicolon
      space .blank
      maybeExpr { parens := .unlessNeeded } condition
      token .semicolon
      space .blank
      maybeStmt post
      if post.isSome then space .blank
    block true body
  | .range offset key value operatorOffset operator _ subject body => do
    goTo offset
    token .kwFor
    space .blank
    maybeExpr {} key
    if let some second := value then
      goTo second.start
      token .comma
      space .blank
    maybeExpr {} value
    if let some operator := operator then
      space .blank
      goTo operatorOffset
      token operator
      space .blank
    token .kwRange
    space .blank
    let _ ← expr { parens := .unlessNeeded } subject
    space .blank
    block true body
termination_by structural statement => statement

/-- Writes an optional statement in the head of another one. -/
def maybeStmt : Option Stmt → Writing Unit
  | some statement => stmt false statement
  | none => return
termination_by structural statement? => statement?

/-- Writes the statement after `else`. -/
def elseStmt (beforeBrace : Bool) : Option Stmt → Writing Unit
  | some statement => stmt beforeBrace statement
  | none => return
termination_by structural statement? => statement?

def stmtList (walk : StmtWalk) (state : StmtState) : List Stmt → Writing Unit
  | [] => return
  | statement :: statements => do
    if isEmptyStmt statement then stmtList walk state statements
    else
      let start ← beforeStmt walk state statement.start
      stmt (walk.beforeBrace && state.index + 1 = walk.length) statement
      stmtList walk ⟨state.index + 1, start, labelCount statement⟩ statements
termination_by structural statements => statements

/-- Writes a block over several lines.  Columns end before the closing brace, so that
what follows the brace on its line does not widen the indentation of the block. -/
def block (indents : Bool) : BlockOf Stmt → Writing Unit
  | ⟨lbrace, statements, rbrace⟩ => do
    goTo lbrace
    token .lbrace
    if indents then space .indent
    stmtList ⟨indents, true, statements.length⟩ {} statements
    if indents then space .unindent
    let _ ← breakTo (← lineOf rbrace) 1 .dropped true
    goTo rbrace
    token .rbrace
termination_by structural inner => inner

/-- Writes the body of a function, on the line of its header if both are small and
the source has it on one line. -/
def functionBody (headerSize : Nat) (separator : Space) : BlockOf Stmt → Writing Unit
  | ⟨lbrace, statements, rbrace⟩ => atLevelZero do
    let lines := (← get).lines
    let size ←
      if lines.line lbrace ≠ lines.line rbrace || statements.length > 5 then pure hugeSize
      else do
        let comments ← commentSizeBefore (lines.spot rbrace)
        bodySize true comments statements
    if headerSize + size ≤ oneLineFunctionLimit then
      space separator
      goTo lbrace
      token .lbrace
      if !statements.isEmpty then
        space .blank
        oneLineStmts true statements
        space .blank
      modify fun printer => { printer with noExtraBreak := !printer.noExtraBreak }
      goTo rbrace
      token .rbrace
      modify fun printer => { printer with noExtraBreak := !printer.noExtraBreak }
    else
      space .blank
      goTo lbrace
      token .lbrace
      space .indent
      stmtList ⟨true, true, statements.length⟩ {} statements
      space .unindent
      let _ ← breakTo (lines.line rbrace) 1 .dropped true
      goTo rbrace
      token .rbrace
termination_by structural inner => inner

def bodySize (isFirst : Bool) (size : Nat) : List Stmt → Writing Nat
  | [] => return size
  | statement :: statements => do
    if size > oneLineFunctionLimit then return size
    let own ← measure oneLineFunctionLimit (min 1 (labelCount statement)) (stmt false statement)
    bodySize false (size + (if isFirst then 0 else 2) + own) statements
termination_by structural statements => statements

def oneLineStmts (isFirst : Bool) : List Stmt → Writing Unit
  | [] => return
  | statement :: statements => do
    if !isFirst then
      token .semicolon
      space .blank
    stmt statements.isEmpty statement
    oneLineStmts false statements
termination_by structural statements => statements

def declGroup : GroupOf Expr → Writing Unit
  | ⟨offset, keyword, lparen, specs, rparen⟩ => do
    goTo offset
    token keyword
    space .blank
    if lparen.isSome || specs.length ≠ 1 then
      if let some offset := lparen then goTo offset
      token .lparen
      if !specs.isEmpty then
        spaces [.indent, .sectionBreak]
        let columns := keepsTypeColumn (specs.map fun
          | .value _ type values _ => (type.isSome, !values.isEmpty)
          | _ => (false, false))
        let isValueList := specs.length > 1 && (keyword = .kwConst || keyword = .kwVar)
        specList isValueList specs.length none columns specs
        spaces [.unindent, .sectionBreak]
      if let some offset := rparen then goTo offset
      token .rparen
    else lastSpec specs
termination_by structural group => group

def specList (isValueList : Bool) (count : Nat) (previous : Option Nat) (columns : List Bool) :
    List (SpecOf Expr) → Writing Unit
  | [] => return
  | first :: specs => do
    let start ← specBreak previous (SpecOf.start first)
    if isValueList then valueSpec (columns.headD false) first else spec count false first
    specList isValueList count (some start) columns.tail specs
termination_by structural specs => specs

def lastSpec : List (SpecOf Expr) → Writing Unit
  | [] => return
  | first :: specs => do
    spec 1 true first
    lastSpec specs
termination_by structural specs => specs

def valueSpec (keepsType : Bool) : SpecOf Expr → Writing Unit
  | .value idents type values hasComment => do
    names false idents
    if type.isSome || keepsType then space .tab
    maybeExpr {} type
    if !values.isEmpty then
      space .tab
      token .assign
      space .blank
      layoutList {} values fun walk state => elementList walk state values
    if hasComment then
      let used := (if type.isSome || keepsType then 1 else 0) + (if values.isEmpty then 0 else 1)
      spacesBeforeComment (3 - used) .tab
  | _ => return
termination_by structural spec => spec

/-- Writes a specification, one of `count` in its group. -/
def spec (count : Nat) (indents : Bool) : SpecOf Expr → Writing Unit
  | .importing _ ident path _ => do
    if let some ident := ident then
      goTo ident.offset
      name ident
      space .blank
    goTo path.offset
    literal path.token (importPathText path)
    goTo path.stop
  | .value idents type values _ => do
    names indents idents
    if type.isSome then space .blank
    maybeExpr {} type
    if !values.isEmpty then
      space .blank
      token .assign
      space .blank
      layoutList {} values fun walk state => elementList walk state values
  | .type ident typeParams assign type _ => do
    goTo ident.offset
    name ident
    if typeParams.opening.isSome then parameters .declaredTypes typeParams
    space (if count = 1 then .blank else .tab)
    if assign.isSome then
      token .assign
      space .blank
    let _ ← expr {} type
    return
termination_by structural spec => spec
end

end Layout
end CaseExpansion
