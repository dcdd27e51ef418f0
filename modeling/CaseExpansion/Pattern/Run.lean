import CaseExpansion.Pattern.Operation
import CaseExpansion.Pattern.Parse

namespace CaseExpansion
namespace Pattern

/-!
# Running patterns

A pattern is run on a value, its data, and writes a text.  Variables live on a
stack: a branch or loop takes those away again that were declared inside of it.
A named pattern sees none of the variables of its caller.

The part of the pattern that was looked at last is remembered, because messages
point to it.
-/

inductive RunFault where
  | noField (name type : Bytes)
  | fieldWithArguments (name : Bytes)
  | argumentsToValue (term : Bytes)
  | nilCommand
  | nilChain (term : Bytes)
  | noVariable (name : Bytes)
  | tooFewArguments (function : Bytes) (want got : Nat)
  | wrongArguments (function : Bytes) (want got : Nat)
  | notText (term : Bytes)
  | nilText
  | absentText
  | wrongType (type : Bytes)
  | notIterable (value : Bytes)
  | oneVariable (value : Bytes)
  | noPattern (name : Bytes)
  | tooDeep
  | overflow (term : Bytes)
  | call (function : Bytes) (fault : CallFault)
deriving DecidableEq, Repr

/-- How deep calls of named patterns may nest. -/
def maxDepth : Nat := 100000

namespace RunFault

def message : RunFault → Bytes
  | noField name type => "can't evaluate field " ++ name ++ " in type " ++ type
  | fieldWithArguments name => name ++ " has arguments but cannot be invoked as function"
  | argumentsToValue term => "can't give argument to non-function " ++ term
  | nilCommand => "nil is not a command"
  | nilChain term => "indirection through explicit nil in " ++ term
  | noVariable name => "undefined variable: " ++ name
  | tooFewArguments function want got =>
    "wrong number of args for " ++ function ++ ": want at least " ++ Bytes.decimal want ++ " got "
      ++ Bytes.decimal got
  | wrongArguments function want got =>
    "wrong number of args for " ++ function ++ ": want " ++ Bytes.decimal want ++ " got "
      ++ Bytes.decimal got
  | notText term => "expected string; found " ++ term
  | nilText => "cannot assign nil to string"
  | absentText => "invalid value; expected string"
  | wrongType type => "wrong type for value; expected string; got " ++ type
  | notIterable value => "range can't iterate over " ++ value
  | oneVariable value => "can't use " ++ value ++ " to iterate over more than one variable"
  | noPattern name => "template " ++ Text.Quoted.encode name ++ " not defined"
  | tooDeep => "exceeded maximum template depth (" ++ Bytes.decimal maxDepth ++ ")"
  | overflow term => term ++ " overflows int"
  | call function fault => "error calling " ++ function ++ ": " ++ fault.message

end RunFault

/-- A fault, with the named pattern that was running and what it was at. -/
structure RunError where
  self : Bytes
  site : Site
  fault : RunFault

namespace RunError

/-- The line of an offset of a text, and the number of bytes before it there. -/
def lineAndColumn (text : Bytes) (offset : Nat) : Nat × Nat :=
  let before := text.take offset
  let lineFeed := byte '\n'
  (before.count lineFeed + 1, (before.reverse.takeWhile (· != lineFeed)).length)

def message (pattern : Compiled) (error : RunError) : Bytes :=
  let (line, column) := lineAndColumn pattern.text error.site.offset
  "template: " ++ pattern.name ++ ":" ++ Bytes.decimal line ++ ":" ++ Bytes.decimal column
    ++ ": executing " ++ Text.Quoted.encode error.self ++ " at <" ++ error.site.render ++ ">: "
    ++ error.fault.message

end RunError

structure Running where
  /-- Variables, the newest first. -/
  scope : List (Bytes × Value)
  site : Site
  /-- The pieces of text written so far, the newest first. -/
  written : List Bytes := []

/-- A step of running the named pattern that is given first. -/
abbrev Run (α : Type) := ReaderT Bytes (StateT Running (Except RunError)) α

namespace Run

def look (site : Site) : Run Unit :=
  modify fun state => { state with site }

def fail {α : Type} (fault : RunFault) : Run α := do
  throw ⟨← read, (← get).site, fault⟩

def write (text : Bytes) : Run Unit :=
  modify fun state => { state with written := text :: state.written }

/-! ## Variables -/

def push (name : Bytes) (value : Value) : Run Unit :=
  modify fun state => { state with scope := (name, value) :: state.scope }

def mark : Run Nat :=
  return (← get).scope.length

def pop (count : Nat) : Run Unit :=
  modify fun state =>
    { state with scope := state.scope.drop (state.scope.length - count) }

def inScope {α : Type} (run : Run α) : Run α := do
  let count ← mark
  let result ← run
  pop count
  return result

def valueOf (name : Bytes) : Run Value := do
  match (← get).scope.find? fun (entry : Bytes × Value) => entry.1 == name with
  | some (_, value) => return value
  | none => fail (.noVariable name)

def assigned (name : Bytes) (value : Value) : List (Bytes × Value) → Option (List (Bytes × Value))
  | [] => none
  | entry :: entries =>
    if entry.1 == name then some ((name, value) :: entries)
    else (assigned name value entries).map (entry :: ·)

def assign (name : Bytes) (value : Value) : Run Unit := do
  let state ← get
  match assigned name value state.scope with
  | some scope => set { state with scope }
  | none => fail (.noVariable name)

/-- Gives a variable a value, counted from the newest. -/
def setNewest (index : Nat) (value : Value) : Run Unit :=
  modify fun state =>
    { state with scope := state.scope.modify index fun entry => (entry.1, value) }

/-! ## Values -/

def constant (term : Operand) : NumberConstant → Run Value
  | .int value => return .int value
  | .large => fail (.overflow term.render)
  | .real value => return .real value
  | .complex real imaginary => return .complex real imaginary

/-- Selects a field, or calls a method.  Only a method can be called, and none
takes arguments. -/
def select (name : Bytes) (given : Nat) (receiver : Value) : Run Value :=
  match receiver with
  | .absent => return .absent
  | receiver =>
    match receiver.follow.select? name with
    | some (.method value) =>
      if given = 0 then return value else fail (.wrongArguments name 0 given)
    | some (.field value) => if given = 0 then return value else fail (.fieldWithArguments name)
    | none => fail (.noField name receiver.typeName)

/-- Selects through several names.  The arguments belong to the last one. -/
def selectAll (given : Nat) (receiver : Value) : List Bytes → Run Value
  | [] => return receiver
  | [name] => select name given receiver
  | name :: names => do selectAll given (← select name 0 receiver) names

def checkText (value : Value) : Run Value :=
  match value with
  | .text _ => return value
  | .absent => fail .absentText
  | value => fail (.wrongType value.typeName)

/-- Checks the number of arguments of a function, of which one may come from
the command before. -/
def checkCount (function : Bytes) (given : Nat) (final : Option Value) : Run Unit := do
  let count := given + final.toList.length
  let (least, takesMore) := Operation.arity function
  if takesMore then
    if count < least then fail (.tooFewArguments function least given)
  else if count ≠ least then fail (.wrongArguments function least count)

def calleeName (arguments : List Operand) (final : Option Value) : Bytes :=
  match arguments, final with
  | argument :: _, _ => argument.render
  | [], some (.text text) => text
  | [], some value => "<" ++ value.typeName ++ " Value>"
  | [], none => []

def call (site : Site) (function callee : Bytes) (arguments : List Value) : Run Value :=
  match Operation.apply function callee arguments with
  | .ok value => return value
  | .error fault => do
    look site
    fail (.call function fault)

/-- Whether a function looks at its arguments only as far as needed. -/
def shortCircuit? (function : Bytes) : Option Bool :=
  if function == ("or" : Bytes) then some true
  else if function == ("and" : Bytes) then some false
  else none

def wantsText (function : Bytes) : Bool :=
  function == ("printf" : Bytes)

/-- Fails if a value that is no function has arguments. -/
def checkAlone (term : Operand) (given : Nat) : Run Unit :=
  if given = 0 then return else fail (.argumentsToValue term.render)

def checkBase (base whole : Operand) : Run Unit :=
  match base with
  | .nil _ => fail (.nilChain whole.render)
  | _ => return

/-- Checks the value from the command before, as the last argument. -/
def checkFinal (function : Bytes) (given : Nat) (final : Option Value) : Run (List Value) :=
  match final with
  | none => return []
  | some value =>
    if wantsText function && given = 0 then do return [← checkText value] else return [value]

def declare (isAssignment : Bool) (value : Value) : List Declared → Run Unit
  | [] => return
  | declared :: rest => do
    if isAssignment then assign declared.name value else push declared.name value
    declare isAssignment value rest

mutual
def pipeline (dot : Value) : PipelineOf Operand → Run Value
  | ⟨offset, isAssignment, declared, stages⟩ => do
    look (.pipeline ⟨offset, isAssignment, declared, stages⟩)
    let value := (← commands dot none stages).getD .absent
    declare isAssignment value declared
    return value
termination_by structural pipeline => pipeline

/-- The value of the last of some commands, given the value before them. -/
def commands (dot : Value) (final : Option Value) : List (CommandOf Operand) → Run (Option Value)
  | [] => return final
  | stage :: stages => do commands dot (some (← command dot final stage)) stages
termination_by structural stages => stages

def command (dot : Value) (final : Option Value) : CommandOf Operand → Run Value
  | ⟨_, []⟩ => return .absent
  | ⟨offset, .function place function :: rest⟩ => do
    look (.operand (.function place function))
    checkCount function rest.length final
    match shortCircuit? function with
    | some stopsAt => firstWith dot stopsAt final rest
    | none =>
      let values ← arguments dot (wantsText function) rest
      let last ← checkFinal function rest.length final
      call (.command ⟨offset, .function place function :: rest⟩) function (calleeName rest final)
        (values ++ last)
  | ⟨_, first :: rest⟩ => value dot (rest.length + final.toList.length) first
termination_by structural command => command

/-- The first argument whose truth is as given, or else the last one. -/
def firstWith (dot : Value) (stopsAt : Bool) (final : Option Value) : List Operand → Run Value
  | [] => return final.getD .absent
  | operand :: operands => do
    let value ← argument dot false operand
    if value.isTrue == stopsAt || (operands.isEmpty && final.isNone) then return value
    firstWith dot stopsAt final operands
termination_by structural operands => operands

/-- The values of arguments.  The first one may have to be a text. -/
def arguments (dot : Value) (isText : Bool) : List Operand → Run (List Value)
  | [] => return []
  | operand :: operands => do
    let value ← argument dot isText operand
    return value :: (← arguments dot false operands)
termination_by structural operands => operands

def argument (dot : Value) (isText : Bool) : Operand → Run Value
  | .nil offset => do
    look (.operand (.nil offset))
    if isText then fail .nilText else return .absent
  | .bool offset truth => do
    look (.operand (.bool offset truth))
    if isText then fail (.notText (Operand.bool offset truth).render) else return .bool truth
  | .number offset text number => do
    look (.operand (.number offset text number))
    if isText then fail (.notText text) else constant (.number offset text number) number
  | .string offset quoted text => do
    look (.operand (.string offset quoted text))
    return .text text
  | .dot offset => do
    look (.operand (.dot offset))
    if isText then checkText dot else return dot
  | .field offset names => do
    look (.operand (.field offset names))
    let value ← selectAll 0 dot names
    if isText then checkText value else return value
  | .variable offset names => do
    look (.operand (.variable offset names))
    let value ← selectAll 0 (← valueOf (names.headD [])) names.tail
    if isText then checkText value else return value
  | .function offset name => do
    look (.operand (.function offset name))
    checkCount name 0 none
    let value ← call (.operand (.function offset name)) name [] []
    if isText then checkText value else return value
  | .chain offset base names => do
    look (.operand (.chain offset base names))
    checkBase base (.chain offset base names)
    let value ← selectAll 0 (← argument dot false base) names
    if isText then checkText value else return value
  | .parens inner => do
    look (.operand (.parens inner))
    let value ← pipeline dot inner
    if isText then checkText value else return value
termination_by structural operand => operand

/-- The value of the first word of a command that is no function, with the
number of its arguments. -/
def value (dot : Value) (given : Nat) : Operand → Run Value
  | .field offset names => do
    look (.operand (.field offset names))
    selectAll given dot names
  | .chain offset base names => do
    look (.operand (.chain offset base names))
    checkBase base (.chain offset base names)
    selectAll given (← argument dot false base) names
  | .variable offset names => do
    look (.operand (.variable offset names))
    let value ← valueOf (names.headD [])
    match names.tail with
    | [] => do
      checkAlone (.variable offset names) given
      return value
    | fields => selectAll given value fields
  | .parens inner => do
    checkAlone (.parens inner) given
    pipeline dot inner
  | .nil offset => do
    look (.operand (.nil offset))
    checkAlone (.nil offset) given
    fail .nilCommand
  | .dot offset => do
    look (.operand (.dot offset))
    checkAlone (.dot offset) given
    return dot
  | .bool offset truth => do
    look (.operand (.bool offset truth))
    checkAlone (.bool offset truth) given
    return .bool truth
  | .number offset text number => do
    look (.operand (.number offset text number))
    checkAlone (.number offset text number) given
    constant (.number offset text number) number
  | .string offset quoted text => do
    look (.operand (.string offset quoted text))
    checkAlone (.string offset quoted text) given
    return .text text
  | .function offset name => do
    look (.operand (.function offset name))
    call (.operand (.function offset name)) name [] []
termination_by structural operand => operand
end

/-! ## Nodes -/

inductive Signal where
  | next | break_ | continue_
deriving DecidableEq

def shown (value : Value) : Bytes :=
  match value.follow with
  | .absent => "<no value>"
  | value => formatPlain value

/-- The rounds of a loop: what each round calls its index, and its element. -/
def rounds (isPair : Bool) (value : Value) : Run (List (Value × Value)) :=
  match value.follow with
  | .list _ _ elements =>
    return elements.zipIdx.map fun (element, index) => (.int index, element)
  | .integer type count =>
    if isPair then fail (.oneVariable (formatPlain value))
    else return (List.range count.toNat).map fun index => (.absent, .integer type (index : Nat))
  | .absent => return []
  | value => fail (.notIterable (formatPlain value))

def startRound (pipeline : Pipeline) (index element : Value) : Run Unit :=
  match pipeline.isAssignment, pipeline.declared with
  | _, [] => return
  | true, [only] => assign only.name element
  | true, first :: second :: _ => do
    assign first.name index
    assign second.name element
  | false, [_] => setNewest 0 element
  | false, _ :: _ :: _ => do
    setNewest 0 element
    setNewest 1 index

def loop (pipeline : Pipeline) (body : Value → Run Signal) (count : Nat) :
    List (Value × Value) → Run Unit
  | [] => return
  | (index, element) :: rest => do
    startRound pipeline index element
    let signal ← body element
    pop count
    if signal = .break_ then return else loop pipeline body count rest

/-- How a named pattern is run on a value, unless calls nest too deep already. -/
abbrev Caller := Option (Bytes → List Node → Value → Run Unit)

def callNamed (named : List (Bytes × List Node)) (caller : Caller) (name : Bytes)
    (dot : Run Value) : Run Unit := do
  match named.find? fun (entry : Bytes × List Node) => entry.1 == name, caller with
  | none, _ => fail (.noPattern name)
  | some _, none => fail .tooDeep
  | some (_, nodes), some run => run name nodes (← dot)

mutual
def node (named : List (Bytes × List Node)) (caller : Caller) (dot : Value) : Node → Run Signal
  | .text offset text => do
    look (.node (.text offset text))
    write text
    return .next
  | .action offset part => do
    look (.node (.action offset part))
    let value ← pipeline dot part
    if part.declared.isEmpty then
      look (.node (.action offset part))
      write (shown value)
    return .next
  | .choice kind offset part body otherwise => inScope do
    look (.node (.choice kind offset part body otherwise))
    let value ← pipeline dot part
    if value.isTrue then nodes named caller (if kind = .with_ then value else dot) body
    else nodesOrNone named caller dot otherwise
  | .range offset part body otherwise => inScope do
    look (.node (.range offset part body otherwise))
    let value ← pipeline dot part
    let count ← mark
    match ← rounds (part.declared.length > 1) value with
    | [] => nodesOrNone named caller dot otherwise
    | first :: rest => do
      loop part (fun element => nodes named caller element body) count (first :: rest)
      return .next
  | .call offset name part => do
    look (.node (.call offset name part))
    callNamed named caller name (match part with
      | some part => pipeline dot part
      | none => return .absent)
    return .next
  | .break_ offset => do
    look (.node (.break_ offset))
    return .break_
  | .continue_ offset => do
    look (.node (.continue_ offset))
    return .continue_
termination_by structural node => node

/-- Runs nodes, up to one that leaves a round of a loop. -/
def nodes (named : List (Bytes × List Node)) (caller : Caller) (dot : Value) :
    List Node → Run Signal
  | [] => return .next
  | first :: rest => do
    match ← node named caller dot first with
    | .next => nodes named caller dot rest
    | signal => return signal
termination_by structural nodes => nodes

/-- Runs the other branch, if there is one. -/
def nodesOrNone (named : List (Bytes × List Node)) (caller : Caller) (dot : Value) :
    Option (List Node) → Run Signal
  | none => return .next
  | some branch => nodes named caller dot branch
termination_by structural branch? => branch?
end

/-- Runs the nodes of a named pattern, with variables of its own.  What it
writes stays, and what was looked at is forgotten. -/
def inside (run : Caller → Value → List Node → Run Signal) (caller : Caller) :
    Bytes → List Node → Value → Run Unit :=
  fun name nodes dot _ state => do
    let (_, final) ← run caller dot nodes name { state with scope := [("$", dot)] }
    return ((), { state with written := final.written })

def caller (named : List (Bytes × List Node)) : (depth : Nat) → Caller
  | 0 => none
  | depth + 1 => some (inside (nodes named) (caller named depth))

end Run

namespace Compiled

def run (pattern : Compiled) (data : Value) : Except RunError Bytes := do
  let named := pattern.named
  let body := ((named.find? fun (entry : Bytes × List Node) => entry.1 == pattern.name).map
    Prod.snd).getD []
  let start : Running := { scope := [("$", data)], site := .node (.text 0 []) }
  let (_, final) ← Run.nodes named (Run.caller named maxDepth) data body pattern.name start
  return final.written.reverse.flatten

end Compiled
end Pattern
end CaseExpansion
