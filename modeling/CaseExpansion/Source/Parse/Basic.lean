import CaseExpansion.Source.Parse.State

namespace CaseExpansion
namespace Source

/-!
# Reading the grammar: parsers and complaints

A parser takes a state to a later one and gives a result, or it gives up there.
That the later state is reached from the first in the proper way is part of what
a parser is.

A text that violates the grammar gets complaints, and reading goes on so that
the complaint that comes first in the text is found even when it is noticed
late.  Two rules keep the list short: a complaint on the same line as the one
before it is dropped, and more than ten complaints end the parse.  After a
complaint the parser skips to a lexeme at which it can resume; `synchronize`
makes sure that this always gets somewhere.

Every loop of the grammar carries an explicit bound computed from the number of
lexemes ahead, so that all definitions are total.
-/

/-- A parser: it takes a state to one that is reached from it and gives a result,
or gives up. -/
structure Parse (α : Type) where
  run : ParseState → Option α × ParseState
  steady (state : ParseState) : state.Reaches (run state).2

namespace Parse

open ParseState (Reaches)

def give {α : Type} (result : α) : Parse α where
  run state := (some result, state)
  steady state := .refl state

def giveUp {α : Type} : Parse α where
  run state := (none, state)
  steady state := .refl state

def after {α β : Type} (rest : α → Parse β) : Option α × ParseState → Option β × ParseState
  | (some result, state) => (rest result).run state
  | (none, state) => (none, state)

theorem reaches_after {α β : Type} (rest : α → Parse β) (outcome : Option α × ParseState) :
    outcome.2.Reaches (after rest outcome).2 := by
  rcases outcome with ⟨_ | result, state⟩
  · exact .refl state
  · exact (rest result).steady state

def andThen {α β : Type} (first : Parse α) (rest : α → Parse β) : Parse β where
  run state := after rest (first.run state)
  steady state := (first.steady state).trans (reaches_after rest (first.run state))

instance : Monad Parse where
  pure := give
  bind := andThen

def get : Parse ParseState where
  run state := (some state, state)
  steady state := .refl state

/-- Makes the next lexeme that is no comment the current one. -/
def next : Parse Unit where
  run state := (some (), state.next)
  steady state := (Reaches.refl state).next

def note (change : ParseNotes → ParseNotes) : Parse Unit where
  run state := (some (), { state with notes := change state.notes })
  steady state := (Reaches.refl state).amend ⟨change state.notes, [], rfl⟩

def record (diagnostic : Diagnostic) : Parse Unit where
  run state := (some (), { state with diagnostics := diagnostic :: state.diagnostics })
  steady state := (Reaches.refl state).amend ⟨state.notes, [diagnostic], rfl⟩

/-! ## The current lexeme -/

def token : Parse Token :=
  return (← get).current.token

def offset : Parse Nat :=
  return (← get).current.offset

def literal : Parse Bytes :=
  return (← get).current.literal

def isAt (wanted : Token) : Parse Bool :=
  return (← get).current.token == wanted

def isAtAny (wanted : List Token) : Parse Bool :=
  return wanted.contains (← get).current.token

/-- Whether the current lexeme is a semicolon that stands for a line end. -/
def isAtLineEnd : Parse Bool :=
  return (← get).current.isLineEnd

/-! ## Complaints -/

def complain (place : Nat) (message : Bytes) : Parse Unit := do
  let state ← get
  let position := state.table.position place
  match state.diagnostics with
  | last :: _ =>
    if last.position.line = position.line then return
    if state.diagnostics.length > 10 then giveUp
  | [] => pure ()
  record ⟨position, message⟩

/-- Complains that something else was expected.  The complaint tells what was
found when it is about the current lexeme. -/
def complainExpected (place : Nat) (wanted : Bytes) : Parse Unit := do
  let current := (← get).current
  let found : Bytes :=
    if place ≠ current.offset then []
    else if current.isLineEnd then ", found newline"
    else if current.token.isLiteral then ", found " ++ current.literal
    else ", found '" ++ current.token.spelling ++ "'"
  complain place ("expected " ++ wanted ++ found)

def quoted (token : Token) : Bytes :=
  "'" ++ token.spelling ++ "'"

/-! ## Loops -/

inductive Round (σ β : Type) where
  | again (state : σ)
  | done (result : β)

/-- Repeats a step at most `limit` times. -/
def iterate {σ β : Type} (step : σ → Parse (Round σ β)) : (limit : Nat) → σ → Parse β
  | 0, _ => giveUp
  | limit + 1, state => do
    match ← step state with
    | .again state => iterate step limit state
    | .done result => return result

/-- A bound on the rounds of a loop that a parser state allows.  A round takes a
lexeme, or it is one of the few that resume at the same lexeme. -/
def roundLimit : Parse Nat :=
  return 16 * (← get).ahead.length + 32

def loop {σ β : Type} (start : σ) (step : σ → Parse (Round σ β)) : Parse β := do
  iterate step (← roundLimit) start

def many {α : Type} (more : Parse Bool) (item : Parse α) : Parse (List α) := do
  let items ← loop [] fun items => do
    if ← more then return .again ((← item) :: items) else return .done items
  return items.reverse

/-! ## Expected lexemes -/

/-- Takes a lexeme of the given token, or complains and takes whatever stands
there.  The result is the offset. -/
def expect (wanted : Token) : Parse Nat := do
  let place ← offset
  unless ← isAt wanted do complainExpected place (quoted wanted)
  next
  return place

/-- Like `expect`, with a clearer complaint about a missing comma at the end of
a line. -/
def expectClosing (wanted : Token) (context : Bytes) : Parse Nat := do
  if !(← isAt wanted) && (← isAtLineEnd) then
    complain (← offset) ("missing ',' before newline in " ++ context)
    next
  expect wanted

def statementStarts : List Token :=
  [.kwBreak, .kwConst, .kwContinue, .kwDefer, .kwFallthrough, .kwFor, .kwGo, .kwGoto, .kwIf,
    .kwReturn, .kwSelect, .kwSwitch, .kwType, .kwVar]

def declarationStarts : List Token :=
  [.kwImport, .kwConst, .kwType, .kwVar]

def expressionEnds : List Token :=
  [.comma, .colon, .rparen, .rbrack, .rbrace]

/-- Skips to one of the given tokens.  To make progress certain, parsing
resumes at one place ten times at most before the lexeme there is skipped as
well. -/
def synchronize (targets : List Token) : Parse Unit :=
  loop () fun _ => do
    let state ← get
    let place := state.current.offset + 1
    if state.current.token = .eof then return .done ()
    if targets.contains state.current.token then
      if place = state.notes.syncPoint && state.notes.syncCount < 10 then
        note fun notes => { notes with syncCount := notes.syncCount + 1 }
        return .done ()
      if place > state.notes.syncPoint then
        note fun notes => { notes with syncPoint := place, syncCount := 0 }
        return .done ()
    next
    return .again ()

/-- Takes the semicolon after a statement or declaration, which may be missing
before a closing parenthesis or brace, and gives the comment on its line. -/
def expectSemicolon : Parse (Option CommentGroup) := do
  if ← isAtAny [.rparen, .rbrace] then return none
  if ← isAtAny [.comma, .semicolon] then
    if ← isAt .comma then complainExpected (← offset) "';'"
    if (← literal) == [byte ';'] then
      next
      return (← get).trail
    else
      let comment := (← get).trail
      next
      return comment
  complainExpected (← offset) "';'"
  synchronize statementStarts
  return none

/-- Whether a list goes on.  A missing comma is complained about and taken as
given. -/
def atComma (context : Bytes) (follow : Token) : Parse Bool := do
  if ← isAt .comma then return true
  if ← isAt follow then return false
  let newline : Bytes := if ← isAtLineEnd then " before newline" else []
  complain (← offset) ("missing ','" ++ newline ++ " in " ++ context)
  return true

/-- Reads a name.  The blank name stands for a missing one. -/
def ident : Parse Ident := do
  let current := (← get).current
  if current.token = .ident then
    next
    return ⟨current.offset, current.literal⟩
  else
    let place ← expect .ident
    return ⟨place, [byte '_']⟩

/-- Runs a parser with another nesting level and restores the level. -/
def withLevel {α : Type} (change : Int → Int) (parser : Parse α) : Parse α := do
  let level := (← get).notes.level
  note fun notes => { notes with level := change level }
  let result ← parser
  note fun notes => { notes with level }
  return result

def nested {α : Type} (parser : Parse α) : Parse α :=
  withLevel (· + 1) parser

def withOperand {α : Type} (inOperand : Bool) (parser : Parse α) : Parse α := do
  let before := (← get).notes.inOperand
  note fun notes => { notes with inOperand }
  let result ← parser
  note fun notes => { notes with inOperand := before }
  return result

/-! ## Recursive parts of the grammar -/

end Parse

/-- The parsers that the grammar refers to recursively, for one nesting depth
less than that of the parser at hand. -/
structure Grammar where
  /-- An expression of operators that bind at least as tightly as given. -/
  binary : (precedence : Nat) → Parse Expr
  unary : Parse Expr
  /-- A type, if one starts here. -/
  type? : Parse (Option Expr)
  literalValue : Option Expr → Parse Expr
  statement : Parse Stmt
  ifStatement : Parse Stmt

namespace Grammar

def exhausted : Grammar :=
  let stop {α : Type} : Parse α := do
    Parse.complain (← Parse.offset) "exceeded max nesting depth"
    Parse.giveUp
  { binary := fun _ => stop, unary := stop, type? := stop, literalValue := fun _ => stop
    statement := stop, ifStatement := stop }

def expr (grammar : Grammar) : Parse Expr :=
  grammar.binary 1

def operand (grammar : Grammar) : Parse Expr :=
  Parse.withOperand true grammar.expr

def exprs (grammar : Grammar) (inOperand : Bool) : Parse (List Expr) :=
  Parse.withOperand inOperand do
    let first ← grammar.expr
    let rest ← Parse.many (Parse.isAt .comma) do
      Parse.next
      grammar.expr
    return first :: rest

end Grammar
end Source
end CaseExpansion
