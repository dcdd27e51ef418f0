import CaseExpansion.Pattern.Number

namespace CaseExpansion
namespace Pattern

/-!
# The tree of a pattern

A pattern is a list of nodes: text, actions, branches and calls of named
patterns.  An action evaluates a pipeline of commands; the value of a command is
the last argument of the next one.  A pipeline may also declare or assign
variables.

Every node can be written back (`render`), which is how messages show it.
-/

/-- A command: a function or a value, and its arguments. -/
structure CommandOf (ο : Type) where
  offset : Nat
  arguments : List ο

structure Declared where
  offset : Nat
  name : Bytes
deriving DecidableEq, Repr

/-- Commands that hand their values on, and the variables for the last one. -/
structure PipelineOf (ο : Type) where
  offset : Nat
  isAssignment : Bool := false
  declared : List Declared := []
  commands : List (CommandOf ο) := []

inductive Operand where
  | dot (offset : Nat)
  | nil (offset : Nat)
  | bool (offset : Nat) (value : Bool)
  | number (offset : Nat) (text : Bytes) (value : NumberConstant)
  | string (offset : Nat) (quoted value : Bytes)
  | field (offset : Nat) (names : List Bytes)
  | variable (offset : Nat) (names : List Bytes)
  | function (offset : Nat) (name : Bytes)
  | chain (offset : Nat) (base : Operand) (names : List Bytes)
  | parens (pipeline : PipelineOf Operand)

abbrev Command := CommandOf Operand
abbrev Pipeline := PipelineOf Operand

inductive Choice where
  | if_ | with_
deriving DecidableEq, Repr

inductive Node where
  | text (offset : Nat) (text : Bytes)
  | action (offset : Nat) (pipeline : Pipeline)
  | choice (choice : Choice) (offset : Nat) (pipeline : Pipeline) (body : List Node)
    (otherwise : Option (List Node))
  | range (offset : Nat) (pipeline : Pipeline) (body : List Node) (otherwise : Option (List Node))
  | call (offset : Nat) (name : Bytes) (pipeline : Option Pipeline)
  | break_ (offset : Nat)
  | continue_ (offset : Nat)

/-! ## Writing -/

namespace Declared

def renderAll (isAssignment : Bool) (declared : List Declared) : Bytes :=
  if declared.isEmpty then []
  else
    Bytes.joinWith ", " (declared.map Declared.name)
      ++ (if isAssignment then Bytes.ofString " = " else Bytes.ofString " := ")

end Declared

/-- Names, each after a point. -/
def renderNames (names : List Bytes) : Bytes :=
  names.flatMap fun name => byte '.' :: name

mutual
/-- An operand as it is written after or before others: pipelines stand in
parentheses. -/
def Operand.renderArgument : Operand → Bytes
  | .dot _ => "."
  | .nil _ => "nil"
  | .bool _ value => if value then "true" else "false"
  | .number _ text _ => text
  | .string _ quoted _ => quoted
  | .field _ names => renderNames names
  | .variable _ names => Bytes.joinWith "." names
  | .function _ name => name
  | .chain _ base names => base.renderArgument ++ renderNames names
  | .parens pipeline => "(" ++ renderPipeline pipeline ++ ")"
termination_by structural operand => operand

/-- The arguments of a command, each after a blank. -/
def renderArguments : List Operand → Bytes
  | [] => []
  | operand :: operands => byte ' ' :: operand.renderArgument ++ renderArguments operands
termination_by structural operands => operands

def renderCommand : CommandOf Operand → Bytes
  | ⟨_, arguments⟩ => (renderArguments arguments).drop 1
termination_by structural command => command

/-- Commands, each after a pipe sign. -/
def renderCommands : List (CommandOf Operand) → Bytes
  | [] => []
  | command :: commands => " | " ++ renderCommand command ++ renderCommands commands
termination_by structural commands => commands

def renderPipeline : PipelineOf Operand → Bytes
  | ⟨_, isAssignment, declared, commands⟩ =>
    Declared.renderAll isAssignment declared ++ (renderCommands commands).drop 3
termination_by structural pipeline => pipeline
end

namespace Operand

def render : Operand → Bytes
  | .parens pipeline => renderPipeline pipeline
  | operand => operand.renderArgument

def offset : Operand → Nat
  | .dot offset | .nil offset | .bool offset _ | .number offset _ _ | .string offset _ _
  | .field offset _ | .variable offset _ | .function offset _ | .chain offset _ _ => offset
  | .parens pipeline => pipeline.offset

end Operand

namespace Choice

def word : Choice → Bytes
  | if_ => "if"
  | with_ => "with"

end Choice

def delimited (text : Bytes) : Bytes :=
  "\x7b\x7b" ++ text ++ "\x7d\x7d"

mutual
def Node.render : Node → Bytes
  | .text _ text => text
  | .action _ pipeline => delimited (renderPipeline pipeline)
  | .choice choice _ pipeline body otherwise =>
    delimited (choice.word ++ " " ++ renderPipeline pipeline) ++ renderNodes body
      ++ renderOtherwise otherwise ++ delimited "end"
  | .range _ pipeline body otherwise =>
    delimited ("range " ++ renderPipeline pipeline) ++ renderNodes body
      ++ renderOtherwise otherwise ++ delimited "end"
  | .call _ name pipeline =>
    let argument : Bytes := match pipeline with
      | some pipeline => byte ' ' :: renderPipeline pipeline
      | none => []
    delimited ("template " ++ Text.Quoted.encode name ++ argument)
  | .break_ _ => delimited "break"
  | .continue_ _ => delimited "continue"
termination_by structural node => node

def renderNodes : List Node → Bytes
  | [] => []
  | node :: nodes => node.render ++ renderNodes nodes
termination_by structural nodes => nodes

/-- The other branch, if there is one. -/
def renderOtherwise : Option (List Node) → Bytes
  | none => []
  | some nodes => delimited "else" ++ renderNodes nodes
termination_by structural nodes? => nodes?
end

/-- Whether nodes produce nothing, because they hold nothing but white space. -/
def isEmptyTree (nodes : List Node) : Bool :=
  nodes.all fun
    | .text _ text => Text.isBlankText text
    | _ => false

/-- Where a message is to point: the part of a pattern that was looked at last. -/
inductive Site where
  | operand (operand : Operand)
  | command (command : Command)
  | pipeline (pipeline : Pipeline)
  | node (node : Node)

namespace Site

def offset : Site → Nat
  | .operand part => part.offset
  | .command part => part.offset
  | .pipeline part => part.offset
  | .node part =>
    match part with
    | .text offset _ | .action offset _ | .choice _ offset _ _ _ | .range offset _ _ _
    | .call offset _ _ | .break_ offset | .continue_ offset => offset

def render : Site → Bytes
  | .operand part => part.render
  | .command part => renderCommand part
  | .pipeline part => renderPipeline part
  | .node part => part.render

end Site
end Pattern
end CaseExpansion
