import CaseExpansion.Pattern.Node

namespace CaseExpansion
namespace Pattern

/-!
# Reading patterns

The reader takes items one at a time and may put some back.  White space
separates operands and is skipped everywhere else.  Branches and loops end with
an `end` action, and named patterns may be defined on the way; they are kept by
name in the order in which they were completed.

A variable is known from its declaration to the end of the branch or loop that
it stands in.
-/

inductive ParseFault where
  /-- An item that could not even be split off, and the line on which the action
  around it starts, if that is another one. -/
  | broken (message : Bytes) (start : Option (Bytes × Nat))
  | unexpected (item : Item) (context : Bytes)
  | unexpectedPart (part : Bytes)
  | unexpectedPartIn (part context : Bytes)
  | unexpectedEnd
  | expectedEnd (part : Bytes)
  | missingValue (context : Bytes)
  | notExecutable (stage : Nat)
  | onlyVariables
  | tooManyDeclarations (context : Bytes)
  | emptyCommand
  | unknownFunction (name : Bytes)
  | unknownVariable (name : Bytes)
  | fieldAfter (term : Bytes)
  | outsideRange (word : Bytes)
  | number (error : NumberError)
  | literal
  | definedTwice (name : Bytes)
deriving DecidableEq, Repr

namespace ParseFault

def message : ParseFault → Bytes
  | broken text none => text
  | broken text (some (name, line)) =>
    let place := " started at " ++ name ++ ":" ++ Bytes.decimal line
    if Bytes.endsWith " action" text then text ++ place else text ++ " in action" ++ place
  | unexpected item context => "unexpected " ++ item.render ++ " in " ++ context
  | unexpectedPart part => "unexpected " ++ part
  | unexpectedPartIn part context => "unexpected " ++ part ++ " in " ++ context
  | unexpectedEnd => "unexpected EOF"
  | expectedEnd part => "expected end; found " ++ part
  | missingValue context => "missing value for " ++ context
  | notExecutable stage => "non executable command in pipeline stage " ++ Bytes.decimal stage
  | onlyVariables => "range can only initialize variables"
  | tooManyDeclarations context => "too many declarations in " ++ context
  | emptyCommand => "empty command"
  | unknownFunction name => "function " ++ Text.Quoted.encode name ++ " not defined"
  | unknownVariable name => "undefined variable " ++ Text.Quoted.encode name
  | fieldAfter term => "unexpected . after term " ++ Text.Quoted.encode term
  | outsideRange word => delimited word ++ " outside " ++ delimited "range"
  | number error => error.message
  | literal => "invalid syntax"
  | definedTwice name => "template: multiple definition of template " ++ Text.Quoted.encode name

end ParseFault

/-- A fault of a named pattern, with the line that was read last. -/
structure ParseError where
  name : Bytes
  line : Nat
  fault : ParseFault
deriving DecidableEq, Repr

namespace ParseError

def message (error : ParseError) : Bytes :=
  "template: " ++ error.name ++ ":" ++ Bytes.decimal error.line ++ ": " ++ error.fault.message

end ParseError

def functionNames : List String :=
  ["and", "call", "html", "index", "slice", "js", "len", "not", "or", "print",
   "printf", "println", "urlquery", "eq", "ge", "gt", "le", "lt", "ne"]

structure Reading where
  /-- The name of the whole pattern, for messages. -/
  name : Bytes
  /-- Items that were put back, the next one first. -/
  putBack : List Item := []
  fresh : List Item
  line : Nat := 1
  scope : List Bytes := ["$"]
  rangeDepth : Nat := 0
  /-- The line on which the current action starts, or zero. -/
  actionLine : Nat := 0
  named : List (Bytes × List Node) := []

abbrev Read := StateT Reading (Except ParseError)

namespace Read

def fail {α : Type} (fault : ParseFault) : Read α := do
  let state ← get
  throw ⟨state.name, state.line, fault⟩

def next : Read Item :=
  modifyGet fun state =>
    match state.putBack, state.fresh with
    | item :: rest, _ => (item, { state with putBack := rest })
    | [], item :: rest => (item, { state with fresh := rest, line := item.line })
    | [], [] => (⟨.eof, 0, [], state.line⟩, state)

/-- Puts items back, to be taken in the given order. -/
def restore (items : List Item) : Read Unit :=
  modify fun state => { state with putBack := items ++ state.putBack }

/-- The next item, which stays. -/
def peek : Read Item := do
  let item ← next
  restore [item]
  return item

/-- Takes the next item that is not white space.  There is never more than one
item of white space in a row. -/
def nextWord : Read Item := do
  let item ← next
  if item.kind = .space then next else return item

/-- The next item that is not white space, which stays. -/
def peekWord : Read Item := do
  let item ← nextWord
  restore [item]
  return item

def unexpected {α : Type} (item : Item) (context : Bytes) : Read α := do
  if item.kind = .error then
    let state ← get
    let start :=
      if state.actionLine ≠ 0 && state.actionLine ≠ item.line then
        some (state.name, state.actionLine)
      else none
    fail (.broken item.text start)
  else fail (.unexpected item context)

def expect (kind : ItemKind) (context : Bytes) : Read Item := do
  let item ← nextWord
  if item.kind = kind then return item else unexpected item context

def unquote (item : Item) : Read Bytes :=
  match Text.Quoted.decode? item.text with
  | some text => return text
  | none => fail .literal

def addVariable (name : Bytes) : Read Unit :=
  modify fun state => { state with scope := state.scope ++ [name] }

def numberConstant (item : Item) : Read NumberConstant :=
  let result := match item.kind with
    | .charConstant => NumberConstant.readCharacter item.text
    | .complex => NumberConstant.readComplex item.text
    | _ =>
      match NumberConstant.readImaginary? item.text with
      | some value => .ok value
      | none => NumberConstant.read item.text
  match result with
  | .ok value => return value
  | .error error => fail (.number error)

/-! ## Pipelines -/

/-- The variables that a pipeline declares or assigns.  A loop may have two. -/
def declarations (context : Bytes) : (left : Nat) → List Declared → Read (List Declared × Bool)
  | left, declared => do
    let name ← peekWord
    if name.kind ≠ .variable then return (declared, false)
    let _ ← next
    let adjacent ← peek
    let sign ← peekWord
    let declared' := declared ++ [⟨name.offset, name.text⟩]
    if sign.kind = .assign || sign.kind = .declare then
      let _ ← nextWord
      addVariable name.text
      return (declared', sign.kind = .assign)
    if sign.kind = .char && sign.text == ("," : Bytes) then
      let _ ← nextWord
      addVariable name.text
      match left with
      | left + 1 =>
        let following ← peekWord
        if following.kind = .variable || following.kind = .rightDelim || following.kind =
          .rightParen then
          declarations context left declared'
        else fail .onlyVariables
      | 0 => fail (.tooManyDeclarations context)
    else
      if adjacent.kind = .space then restore [name, adjacent] else restore [name]
      return (declared, false)

def startsCommand (kind : ItemKind) : Bool :=
  [.bool, .charConstant, .complex, .dot, .field, .identifier, .number, .nil, .rawString, .string,
   .variable, .leftParen].contains kind

def isConstant : Operand → Bool
  | .bool .. | .dot .. | .nil .. | .number .. | .string .. => true
  | _ => false

def checkPipeline (pipeline : Pipeline) (context : Bytes) : Read Pipeline := do
  if pipeline.commands.isEmpty then fail (.missingValue context)
  let isStuck (command : Command) : Bool := (command.arguments.head?.map isConstant).getD false
  match (pipeline.commands.drop 1).findIdx? isStuck with
  | some index => fail (.notExecutable (index + 2))
  | none => return pipeline

def fieldNames : (fuel : Nat) → Read (List Bytes)
  | 0 => return []
  | fuel + 1 => do
    if (← peek).kind = .field then
      let item ← next
      return item.text.drop 1 :: (← fieldNames fuel)
    else return []

def withFields (term : Operand) (offset : Nat) (names : List Bytes) : Read Operand :=
  match term with
  | .field _ first => return .field offset (first ++ names)
  | .variable _ first => return .variable offset (first ++ names)
  | .bool .. | .string .. | .number .. | .nil .. | .dot .. => fail (.fieldAfter term.render)
  | term => return .chain offset term names

mutual
def pipeline : (fuel : Nat) → (context : Bytes) → (stop : ItemKind) → Read Pipeline
  | 0, _, _ => fail .unexpectedEnd
  | fuel + 1, context, stop => do
    let start ← peekWord
    let (declared, isAssignment) ←
      declarations context (if context == ("range" : Bytes) then 1 else 0) []
    let commands ← commands fuel context stop
    checkPipeline { offset := start.offset, isAssignment, declared, commands } context

def commands : (fuel : Nat) → (context : Bytes) → (stop : ItemKind) → Read (List Command)
  | 0, _, _ => fail .unexpectedEnd
  | fuel + 1, context, stop => do
    let item ← nextWord
    if item.kind = stop then return []
    else if startsCommand item.kind then
      restore [item]
      let offset := (← peekWord).offset
      let arguments ← arguments fuel
      if arguments.isEmpty then fail .emptyCommand
      return ⟨offset, arguments⟩ :: (← commands fuel context stop)
    else unexpected item context

/-- The operands of a command, and the pipe sign after them. -/
def arguments : (fuel : Nat) → Read (List Operand)
  | 0 => fail .unexpectedEnd
  | fuel + 1 => do
    let _ ← peekWord
    let operand? ← operand? fuel
    let item ← next
    let rest ← match item.kind with
      | .space => arguments fuel
      | .rightDelim | .rightParen => do
        restore [item]
        pure []
      | .pipe => pure []
      | _ => unexpected item "operand"
    return operand?.toList ++ rest

def operand? : (fuel : Nat) → Read (Option Operand)
  | 0 => fail .unexpectedEnd
  | fuel + 1 => do
    match ← term? fuel with
    | none => return none
    | some term =>
      let following ← peek
      if following.kind = .field then
        return some (← withFields term following.offset (← fieldNames fuel))
      else return some term

/-- A single term, if there is one. -/
def term? : (fuel : Nat) → Read (Option Operand)
  | 0 => fail .unexpectedEnd
  | fuel + 1 => do
    let item ← nextWord
    match item.kind with
    | .identifier =>
      if functionNames.any fun name => Bytes.ofString name == item.text then
        return some (.function item.offset item.text)
      else fail (.unknownFunction item.text)
    | .dot => return some (.dot item.offset)
    | .nil => return some (.nil item.offset)
    | .variable =>
      if (← get).scope.contains item.text then return some (.variable item.offset [item.text])
      else fail (.unknownVariable item.text)
    | .field => return some (.field item.offset [item.text.drop 1])
    | .bool => return some (.bool item.offset (item.text == ("true" : Bytes)))
    | .charConstant | .complex | .number =>
      return some (.number item.offset item.text (← numberConstant item))
    | .leftParen => return some (.parens (← pipeline fuel "parenthesized pipeline" .rightParen))
    | .string | .rawString => return some (.string item.offset item.text (← unquote item))
    | _ => do
      restore [item]
      return none
end

/-! ## Nodes -/

inductive Closer where
  | end_ | else_
deriving DecidableEq, Repr

def Closer.render : Closer → Bytes
  | .end_ => delimited "end"
  | .else_ => delimited "else"

/-- A node, or the end of a list of nodes. -/
inductive Part where
  | node (node : Node)
  | closer (closer : Closer)

/-- Reads with a fresh scope, as the body of a named pattern. -/
def inOwnScope {α : Type} (read : Read α) : Read α := do
  let outer ← get
  set { outer with scope := ["$"], rangeDepth := 0, actionLine := 0 }
  let result ← read
  modify fun state => { state with
    scope := outer.scope, rangeDepth := outer.rangeDepth, actionLine := outer.actionLine }
  return result

/-- Keeps a named pattern.  An empty one never replaces another. -/
def define (name : Bytes) (nodes : List Node) : Read Unit := do
  let state ← get
  match state.named.find? fun (entry : Bytes × List Node) => entry.1 == name with
  | none => set { state with named := state.named ++ [(name, nodes)] }
  | some (_, earlier) =>
    if isEmptyTree earlier then
      set { state with
        named := state.named.map fun (entry : Bytes × List Node) =>
          if entry.1 == name then (name, nodes) else entry }
    else if !isEmptyTree nodes then fail (.definedTwice name)

/-- A break or continue action, after its word. -/
def leaveRange (word : Bytes) (node : Node) : Read Part := do
  let item ← nextWord
  if item.kind ≠ .rightDelim then unexpected item (delimited word)
  if (← get).rangeDepth = 0 then fail (.outsideRange word)
  return .node node

def patternName (item : Item) (context : Bytes) : Read Bytes :=
  match item.kind with
  | .string | .rawString => unquote item
  | _ => unexpected item context

inductive ControlWord where
  | choice (choice : Choice)
  | range
deriving DecidableEq

def ControlWord.text : ControlWord → Bytes
  | .choice kind => kind.word
  | .range => "range"

def ControlWord.node (word : ControlWord) (pipeline : Pipeline) (body : List Node)
    (otherwise : Option (List Node)) : Node :=
  match word with
  | .choice kind => .choice kind pipeline.offset pipeline body otherwise
  | .range => .range pipeline.offset pipeline body otherwise

/-- Whether a word after `else` continues the branch with a condition. -/
def ControlWord.chains (word : ControlWord) (kind : ItemKind) : Bool :=
  match word with
  | .choice .if_ => kind = .if_
  | .choice .with_ => kind = .with_
  | .range => false

def enterRange (word : ControlWord) (change : Nat → Nat) : Read Unit :=
  if word = .range then modify fun state => { state with rangeDepth := change state.rangeDepth }
  else return

mutual
def nodes : (fuel : Nat) → Read (List Node × Closer)
  | 0 => fail .unexpectedEnd
  | fuel + 1 => do
    if (← peekWord).kind = .eof then fail .unexpectedEnd
    match ← part fuel with
    | .closer closer => return ([], closer)
    | .node node =>
      let (rest, closer) ← nodes fuel
      return (node :: rest, closer)

def part : (fuel : Nat) → Read Part
  | 0 => fail .unexpectedEnd
  | fuel + 1 => do
    let item ← nextWord
    match item.kind with
    | .text => return .node (.text item.offset item.text)
    | .leftDelim =>
      modify fun state => { state with actionLine := item.line }
      let part ← action fuel
      modify fun state => { state with actionLine := 0 }
      return part
    | _ => unexpected item "input"

/-- The inside of an action, with its right delimiter. -/
def action : (fuel : Nat) → Read Part
  | 0 => fail .unexpectedEnd
  | fuel + 1 => do
    let item ← nextWord
    match item.kind with
    | .block => return .node (← block fuel)
    | .break_ => leaveRange "break" (.break_ item.offset)
    | .continue_ => leaveRange "continue" (.continue_ item.offset)
    | .else_ => do
      let following ← peekWord
      if following.kind = .if_ || following.kind = .with_ then return .closer .else_
      let _ ← expect .rightDelim "else"
      return .closer .else_
    | .end_ => do
      let _ ← expect .rightDelim "end"
      return .closer .end_
    | .if_ => return .node (← control fuel (.choice .if_))
    | .with_ => return .node (← control fuel (.choice .with_))
    | .range => return .node (← control fuel .range)
    | .template => do
      let nameItem ← nextWord
      let name ← patternName nameItem "template clause"
      let following ← nextWord
      if following.kind = .rightDelim then return .node (.call nameItem.offset name none)
      restore [following]
      return .node (.call nameItem.offset name (some (← pipeline fuel "template clause" .rightDelim)))
    | _ => do
      restore [item]
      return .node (.action item.offset (← pipeline fuel "command" .rightDelim))

def control : (fuel : Nat) → ControlWord → Read Node
  | 0, _ => fail .unexpectedEnd
  | fuel + 1, word => do
    let outer := (← get).scope
    let pipeline ← pipeline fuel word.text .rightDelim
    enterRange word (· + 1)
    let (body, closer) ← nodes fuel
    enterRange word (· - 1)
    let otherwise ← match closer with
      | .end_ => pure none
      | .else_ => do
        let following ← peek
        if word.chains following.kind then
          let _ ← next
          pure (some [← control fuel word])
        else
          let (otherwise, closer) ← nodes fuel
          if closer ≠ .end_ then fail (.expectedEnd closer.render)
          pure (some otherwise)
    modify fun state => { state with scope := outer }
    return word.node pipeline body otherwise

/-- A named pattern that is defined where it is called. -/
def block : (fuel : Nat) → Read Node
  | 0 => fail .unexpectedEnd
  | fuel + 1 => do
    let nameItem ← nextWord
    let name ← patternName nameItem "block clause"
    let pipeline ← pipeline fuel "block clause" .rightDelim
    let state ← get
    let (body, closer) ← inOwnScope (nodes fuel)
    if closer ≠ .end_ then
      throw ⟨state.name, state.line, .unexpectedPartIn closer.render "block clause"⟩
    define name body
    return .call nameItem.offset name (some pipeline)
end

def definition (fuel : Nat) : Read Unit := do
  let name ← patternName (← nextWord) "define clause"
  let _ ← expect .rightDelim "define clause"
  let (body, closer) ← nodes fuel
  if closer ≠ .end_ then fail (.unexpectedPartIn closer.render "define clause")
  define name body

def whole (depth : Nat) : (fuel : Nat) → Read (List Node)
  | 0 => fail .unexpectedEnd
  | fuel + 1 => do
    let item ← peek
    if item.kind = .eof then return []
    let isDefinition ← do
      if item.kind ≠ .leftDelim then pure false
      else
        let delim ← next
        let word ← nextWord
        if word.kind = .define then pure true
        else
          restore [delim, word]
          pure false
    if isDefinition then
      inOwnScope (definition depth)
      whole depth fuel
    else
      match ← part depth with
      | .closer closer => fail (.unexpectedPart closer.render)
      | .node node => return node :: (← whole depth fuel)

end Read

/-- A pattern that has been read: its name, its text, and the nodes of all named
patterns, its own included. -/
structure Compiled where
  name : Bytes
  text : Bytes
  named : List (Bytes × List Node)

/-- Reads a pattern.  No step of the reader recurses more than eight times
without taking an item. -/
def compile (name text : Bytes) : Except ParseError Compiled := do
  let items := items text
  let fuel := 8 * items.length + 16
  let read : Read Unit := do
    let nodes ← Read.whole fuel fuel
    Read.define name nodes
  let (_, state) ← read.run { name, fresh := items }
  return { name, text, named := state.named }

end Pattern
end CaseExpansion
