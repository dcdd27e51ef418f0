import CaseExpansion.Text.Category

namespace CaseExpansion
namespace Build

/-!
# Build constraints

A build constraint decides by tags whether a file takes part in a build.  It is
written on a comment line of its own, `//go:build` with an expression, or in
the older form `// +build` with alternatives separated by blanks.

`Constraint.holds` is the meaning of an expression under an assignment of truth
values to tags.  `Constraint.negate` replaces a tag by its negation, and
cancels a negation that would be negated; it also tells whether the tag occurs
at all.  `Constraint.render` writes an expression with the parentheses that the
grammar needs to read the operators back in the same grouping.
-/

inductive Constraint where
  | tag (name : Bytes)
  | not (operand : Constraint)
  | and (left right : Constraint)
  | or (left right : Constraint)
deriving DecidableEq, Repr

namespace Constraint

def holds (isSet : Bytes → Bool) : Constraint → Bool
  | .tag name => isSet name
  | .not operand => !operand.holds isSet
  | .and left right => left.holds isSet && right.holds isSet
  | .or left right => left.holds isSet || right.holds isSet

def mentions (wanted : Bytes) : Constraint → Bool
  | .tag name => name == wanted
  | .not operand => operand.mentions wanted
  | .and left right => left.mentions wanted || right.mentions wanted
  | .or left right => left.mentions wanted || right.mentions wanted

/-- Replaces every occurrence of a tag by its negation, and tells whether there
was one.  Where the tag stood under a negation, or a negation came to stand
under one, the two cancel. -/
def negate (wanted : Bytes) : Constraint → Constraint × Bool
  | .tag name => if name = wanted then (.not (.tag name), true) else (.tag name, false)
  | .not operand =>
    match operand.negate wanted with
    | (.not inner, true) => (inner, true)
    | (operand, found) => (.not operand, found)
  | .and left right =>
    let (left, leftFound) := left.negate wanted
    let (right, rightFound) := right.negate wanted
    (.and left right, leftFound || rightFound)
  | .or left right =>
    let (left, leftFound) := left.negate wanted
    let (right, rightFound) := right.negate wanted
    (.or left right, leftFound || rightFound)

/-! ## Writing -/

def parenthesize (text : Bytes) : Bytes :=
  "(" ++ text ++ ")"

/-- The expression of a constraint.  Operands that are joined by the other
operator stand in parentheses, and so does every joined operand of a negation. -/
def render : Constraint → Bytes
  | .tag name => name
  | .not operand =>
    match operand with
    | .and .. | .or .. => "!" ++ parenthesize operand.render
    | _ => "!" ++ operand.render
  | .and left right =>
    let argument (operand : Constraint) (text : Bytes) : Bytes :=
      match operand with
      | .or .. => parenthesize text
      | _ => text
    argument left left.render ++ " && " ++ argument right right.render
  | .or left right =>
    let argument (operand : Constraint) (text : Bytes) : Bytes :=
      match operand with
      | .and .. => parenthesize text
      | _ => text
    argument left left.render ++ " || " ++ argument right right.render

end Constraint

/-! ## Reading -/

inductive ConstraintError where
  | notConstraint
  | tooComplex
  | tooLarge
  | doubleNegation
  | missingClose
  | unexpectedEnd
  | unexpectedToken (text : Bytes)
  | invalidAt (char : Char)
deriving DecidableEq, Repr

namespace ConstraintError

/-- Whether the line is a constraint by its form, with a malformed expression. -/
def isMalformed : ConstraintError → Bool
  | notConstraint | tooComplex => false
  | _ => true

def message : ConstraintError → Bytes
  | notConstraint => "not a build constraint"
  | tooComplex => "expression too complex for // +build lines"
  | tooLarge => "build expression too large"
  | doubleNegation => "double negation not allowed"
  | missingClose => "missing close paren"
  | unexpectedEnd => "unexpected end of expression"
  | unexpectedToken text => "unexpected token " ++ text
  | invalidAt char => "invalid syntax at " ++ Bytes.ofChar char

end ConstraintError

inductive ConstraintToken where
  | open_ | close | not | and | or
  | tag (name : Bytes)
  | bad (char : Char)
  | stop
deriving DecidableEq, Repr

namespace ConstraintToken

def spelling : ConstraintToken → Bytes
  | open_ => "("
  | close => ")"
  | not => "!"
  | and => "&&"
  | or => "||"
  | tag name => name
  | bad _ | stop => []

def isTagChar (char : Char) : Bool :=
  Text.isLetter char || Text.isDecimalDigit char || char == '_' || char == '.'

def next (glyphs : List Text.Glyph) : ConstraintToken × List Text.Glyph :=
  match glyphs.dropWhile fun glyph => glyph.char == ' ' || glyph.char == '\t' with
  | [] => (stop, [])
  | glyph :: rest =>
    match glyph.char with
    | '(' => (open_, rest)
    | ')' => (close, rest)
    | '!' => (not, rest)
    | '&' =>
      match rest with
      | second :: rest => if second.char = '&' then (and, rest) else (bad '&', rest)
      | [] => (bad '&', [])
    | '|' =>
      match rest with
      | second :: rest => if second.char = '|' then (or, rest) else (bad '|', rest)
      | [] => (bad '|', [])
    | char =>
      if isTagChar char then
        let more := rest.takeWhile fun glyph => isTagChar glyph.char
        let rest := rest.dropWhile fun glyph => isTagChar glyph.char
        (tag ((glyph :: more).flatMap Text.Glyph.bytes), rest)
      else (bad char, rest)

end ConstraintToken

namespace ConstraintReader

/-- The current word, the text after it, and the number of operands so far. -/
structure State where
  token : ConstraintToken
  rest : List Text.Glyph
  size : Nat

def maxSize : Nat := 1000

def advance (state : State) : Except ConstraintError State :=
  match ConstraintToken.next state.rest with
  | (.bad char, _) => .error (.invalidAt char)
  | (token, rest) => .ok { state with token, rest }

/-- The end of the text inside of parentheses means that one is missing. -/
def insideParens {α : Type} : Except ConstraintError α → Except ConstraintError α
  | .error .unexpectedEnd => .error .missingClose
  | result => result

mutual
/-- Alternatives, up to a word that cannot continue them. -/
def alternatives : (fuel : Nat) → State → Except ConstraintError (Constraint × State)
  | 0, _ => .error .tooLarge
  | fuel + 1, state => do
    let (first, state) ← conjunction fuel state
    moreAlternatives fuel first state

def moreAlternatives : (fuel : Nat) → Constraint → State → Except ConstraintError (Constraint × State)
  | 0, _, _ => .error .tooLarge
  | fuel + 1, left, state =>
    if state.token = .or then do
      let (right, state) ← conjunction fuel state
      moreAlternatives fuel (.or left right) state
    else .ok (left, state)

def conjunction : (fuel : Nat) → State → Except ConstraintError (Constraint × State)
  | 0, _ => .error .tooLarge
  | fuel + 1, state => do
    let (first, state) ← negation fuel state
    moreConjunction fuel first state

def moreConjunction : (fuel : Nat) → Constraint → State → Except ConstraintError (Constraint × State)
  | 0, _, _ => .error .tooLarge
  | fuel + 1, left, state =>
    if state.token = .and then do
      let (right, state) ← negation fuel state
      moreConjunction fuel (.and left right) state
    else .ok (left, state)

/-- An operand, possibly negated.  It starts with the word after the current
one. -/
def negation : (fuel : Nat) → State → Except ConstraintError (Constraint × State)
  | 0, _ => .error .tooLarge
  | fuel + 1, state =>
    if state.size ≥ maxSize then .error .tooLarge
    else do
      let state ← advance { state with size := state.size + 1 }
      if state.token = .not then
        let state ← advance state
        if state.token = .not then .error .doubleNegation
        else
          let (operand, state) ← atom fuel state
          return (.not operand, state)
      else atom fuel state

/-- A tag or an expression in parentheses, which starts with the current word. -/
def atom : (fuel : Nat) → State → Except ConstraintError (Constraint × State)
  | 0, _ => .error .tooLarge
  | fuel + 1, state =>
    match state.token with
    | .open_ => insideParens do
      let (inner, state) ← alternatives fuel state
      if state.token = .close then return (inner, ← advance state) else .error .missingClose
    | .tag name => do return (.tag name, ← advance state)
    | .stop => .error .unexpectedEnd
    | token => .error (.unexpectedToken token.spelling)
end

/-- Reads the expression of a `//go:build` line.  Every step of the recursion
takes a word at least every fourth time. -/
def expression (text : Bytes) : Except ConstraintError Constraint := do
  let glyphs := Text.Utf8.glyphs text
  let (constraint, state) ← alternatives (4 * glyphs.length + 8) ⟨.stop, glyphs, 0⟩
  if state.token = .stop then return constraint
  else .error (.unexpectedToken state.token.spelling)

/-- The tag that no build sets, which stands for a condition in the older form
that is not valid. -/
def never : Constraint :=
  .tag "ignore"

def oldTerm (text : Bytes) : Constraint :=
  let plain (name : Bytes) : Constraint :=
    if !name.isEmpty && (Text.Utf8.chars name).all ConstraintToken.isTagChar then .tag name else never
  match Bytes.cutLead? "!" text with
  | none => plain text
  | some name => if name.isEmpty || Bytes.startsWith "!" name then never else .not (plain name)

/-- Joins constraints from the left.  The count of joins may not pass a limit. -/
def joinAll (join : Constraint → Constraint → Constraint) (limit : Nat) (first : Constraint) :
    (joins : Nat) → List Constraint → Except ConstraintError (Constraint × Nat)
  | joins, [] => .ok (first, joins)
  | joins, next :: rest =>
    if joins ≥ limit then .error .tooComplex
    else joinAll join limit (join first next) (joins + 1) rest

/-- The largest number of operators in the older form. -/
def maxOldSize : Nat := 100

/-- The alternatives of the older form, each a list of conditions. -/
def oldAlternatives (alternative? : Option Constraint) :
    (joins : Nat) → List Bytes → Except ConstraintError Constraint
  | _, [] => .ok (alternative?.getD never)
  | joins, clause :: clauses => do
    match (Bytes.splitOn (byte ',') clause).map oldTerm with
    | [] => oldAlternatives alternative? joins clauses
    | first :: rest =>
      let (conjunction, joins) ← joinAll .and maxOldSize first joins rest
      match alternative? with
      | none => oldAlternatives (some conjunction) joins clauses
      | some alternative =>
        if joins ≥ maxOldSize then .error .tooComplex
        else oldAlternatives (some (.or alternative conjunction)) (joins + 1) clauses

/-- The rest of a line after its first word, when the word is followed by white
space or nothing. -/
def wordArguments? (word line : Bytes) : Option Bytes := do
  let rest ← Bytes.cutLead? word line
  let trimmed := Text.trim rest
  if rest.isEmpty || trimmed.length < rest.length then some trimmed else none

/-- A comment line without its line feed, unless there are more lines. -/
def singleLine? (line : Bytes) : Option Bytes :=
  let line := Bytes.dropTail [byte '\n'] line
  if List.contains line (byte '\n') then none else some line

/-- The expression text of a `//go:build` line. -/
def expressionText? (line : Bytes) : Option Bytes := do
  let line ← singleLine? line
  if Bytes.startsWith "//go:build" line then wordArguments? "//go:build" (Text.trim line) else none

/-- The arguments of a `// +build` line. -/
def oldArguments? (line : Bytes) : Option Bytes := do
  let line ← singleLine? line
  let rest ← Bytes.cutLead? "//" line
  wordArguments? "+build" (Text.trim rest)

end ConstraintReader

namespace Constraint

/-- Whether a comment line is a constraint in the current form. -/
def isExpressionLine (line : Bytes) : Bool :=
  (ConstraintReader.expressionText? line).isSome

/-- Whether a comment line is a constraint in the older form. -/
def isOldLine (line : Bytes) : Bool :=
  (ConstraintReader.oldArguments? line).isSome

def parse (line : Bytes) : Except ConstraintError Constraint :=
  match ConstraintReader.expressionText? line with
  | some text => ConstraintReader.expression text
  | none =>
    match ConstraintReader.oldArguments? line with
    | some text => ConstraintReader.oldAlternatives none 0 (Text.fields text)
    | none => .error .notConstraint

end Constraint
end Build
end CaseExpansion
