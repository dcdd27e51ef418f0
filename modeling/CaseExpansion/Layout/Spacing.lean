import CaseExpansion.Source.Extent
import CaseExpansion.Text.Quoted

namespace CaseExpansion
namespace Layout

open Source (Token Literal Expr Stmt FieldList Block)

/-!
# What decides about spacing

Questions about a piece of source that formatting asks before it writes: which
operators get blanks around them, which parentheses may go, how a number or a path
is written, and which columns a list of declarations needs.
-/

/-! ## Operators -/

/-- How tightly unary operators bind, more than any binary one. -/
def unaryPrecedence : Nat := 6

/-- How tightly operands of selectors, calls and indices bind. -/
def highestPrecedence : Nat := 7

/-- What is known of the binary operators of an expression: whether there are sums
and products among those that are not in parentheses, and the precedence of an
operator that would run into the operand after it. -/
structure OperatorMix where
  hasSum : Bool := false
  hasProduct : Bool := false
  problem : Nat := 0

def OperatorMix.join (left right : OperatorMix) : OperatorMix :=
  ⟨left.hasSum || right.hasSum, left.hasProduct || right.hasProduct, max left.problem right.problem⟩

/-- The precedence of the outermost operator of a binary expression. -/
def operatorPrecedence? : Expr → Option Nat
  | .binary _ _ operator _ => some operator.precedence
  | _ => none

/-- The precedence at which an operator and the operand after it would run together,
or zero. -/
def runTogether (operator : Token) : Expr → Nat
  | .star _ _ => if operator = .quo then 5 else 0
  | .unary _ sign _ =>
    if operator = .and && (sign = .and || sign = .xor) then 5
    else if (operator = .add && sign = .add) || (operator = .sub && sign = .sub) then 4
    else 0
  | _ => 0

def operatorMix : Expr → OperatorMix
  | .binary left _ operator right =>
    let own : OperatorMix :=
      ⟨operator.precedence = 4, operator.precedence = 5, runTogether operator right⟩
    let inLeft := operatorMix left
    let inRight := operatorMix right
    let own := if (operatorPrecedence? left).any (operator.precedence ≤ ·) then own.join inLeft else own
    if (operatorPrecedence? right).any (operator.precedence < ·) then own.join inRight else own
  | _ => {}
termination_by structural expr => expr

/-- The precedence from which on operators of an expression have no blanks around
them, at some depth of nesting. -/
def blankCutoff (depth : Nat) (expr : Expr) : Nat :=
  let mix := operatorMix expr
  if mix.problem > 0 then mix.problem + 1
  else if mix.hasSum && mix.hasProduct then if depth = 1 then 5 else 4
  else if depth = 1 then 6
  else 4

/-- How much deeper a left operand is: not at all if it has an operator of the same
precedence. -/
def depthStep (precedence : Nat) (expr : Expr) : Nat :=
  if operatorPrecedence? expr == some precedence then 0 else 1

def reduceDepth (depth : Nat) : Nat :=
  max 1 (depth - 1)

def isBinary (expr : Expr) : Bool :=
  (operatorPrecedence? expr).isSome

/-- Whether an expression can only be an element of a constraint. -/
def isTypeElement : Expr → Bool
  | .arrayType .. | .structType .. | .funcType .. | .interfaceType .. | .mapType ..
  | .chanType .. => true
  | .unary _ operator _ => operator = .tilde
  | .binary left _ _ right => isTypeElement left || isTypeElement right
  | .paren _ inner _ => isTypeElement inner
  | _ => false
termination_by structural expr => expr

/-- Whether a name before a constraint could be read as the left operand of it. -/
def combinesWithName : Expr → Bool
  | .star _ inner => !isTypeElement inner
  | .binary left _ _ right => combinesWithName left && !isTypeElement right
  | .paren _ inner _ => !isTypeElement inner
  | _ => false
termination_by structural expr => expr

def withoutParens : Expr → Expr
  | .paren _ inner _ => withoutParens inner
  | expr => expr
termination_by structural expr => expr

/-! ## Parentheses in the head of a statement -/

/-- Whether an expression is a name, perhaps of another package. -/
def isTypeName : Expr → Bool
  | .ident _ => true
  | .selector base _ => isTypeName base
  | _ => false
termination_by structural expr => expr

mutual
/-- Whether a composite literal of a named type stands in an expression without
parentheses around it.  Its brace would read as the start of a block. -/
def hasBareLiteral : Expr → Bool
  | .composite type _ _ _ =>
    match type with
    | some type => isTypeName type
    | none => false
  | .function signature body => signatureHasBareLiteral signature || blockHasBareLiteral body
  | .selector base _ => hasBareLiteral base
  | .index base _ indices _ => hasBareLiteral base || anyBareLiteral indices
  | .slice base _ low high max _ _ =>
    hasBareLiteral base || maybeBareLiteral low || maybeBareLiteral high || maybeBareLiteral max
  | .assertion base _ type _ => hasBareLiteral base || maybeBareLiteral type
  | .call callee _ arguments _ _ => hasBareLiteral callee || anyBareLiteral arguments
  | .star _ inner => hasBareLiteral inner
  | .unary _ _ operand => hasBareLiteral operand
  | .binary left _ _ right => hasBareLiteral left || hasBareLiteral right
  | .keyValue key _ value => hasBareLiteral key || hasBareLiteral value
  | .ellipsis _ element => maybeBareLiteral element
  | .arrayType _ length element => maybeBareLiteral length || hasBareLiteral element
  | .structType _ fields => fieldsHaveBareLiteral fields
  | .funcType signature => signatureHasBareLiteral signature
  | .interfaceType _ methods => fieldsHaveBareLiteral methods
  | .mapType _ key value => hasBareLiteral key || hasBareLiteral value
  | .chanType _ _ _ value => hasBareLiteral value
  | _ => false
termination_by structural expr => expr

def maybeBareLiteral : Option Expr → Bool
  | some expr => hasBareLiteral expr
  | none => false
termination_by structural expr? => expr?

def anyBareLiteral : List Expr → Bool
  | [] => false
  | expr :: exprs => hasBareLiteral expr || anyBareLiteral exprs
termination_by structural exprs => exprs

def fieldsHaveBareLiteral : Source.FieldListOf Expr → Bool
  | ⟨_, fields, _⟩ => anyFieldBareLiteral fields
termination_by structural list => list

def anyFieldBareLiteral : List (Source.FieldOf Expr) → Bool
  | [] => false
  | field :: fields => fieldHasBareLiteral field || anyFieldBareLiteral fields
termination_by structural fields => fields

def fieldHasBareLiteral : Source.FieldOf Expr → Bool
  | ⟨_, type, _, _⟩ => hasBareLiteral type
termination_by structural field => field

def signatureHasBareLiteral : Source.SignatureOf Expr → Bool
  | ⟨_, typeParams, params, results⟩ =>
    fieldsHaveBareLiteral typeParams || fieldsHaveBareLiteral params || fieldsHaveBareLiteral results
termination_by structural signature => signature

def specHasBareLiteral : Source.SpecOf Expr → Bool
  | .importing _ _ _ _ => false
  | .value _ type values _ => maybeBareLiteral type || anyBareLiteral values
  | .type _ typeParams _ type _ => fieldsHaveBareLiteral typeParams || hasBareLiteral type
termination_by structural spec => spec

def anySpecBareLiteral : List (Source.SpecOf Expr) → Bool
  | [] => false
  | spec :: specs => specHasBareLiteral spec || anySpecBareLiteral specs
termination_by structural specs => specs

def groupHasBareLiteral : Source.GroupOf Expr → Bool
  | ⟨_, _, _, specs, _⟩ => anySpecBareLiteral specs
termination_by structural group => group

def stmtHasBareLiteral : Stmt → Bool
  | .declaration group => groupHasBareLiteral group
  | .labeled _ _ statement => stmtHasBareLiteral statement
  | .expression expr => hasBareLiteral expr
  | .send channel _ value => hasBareLiteral channel || hasBareLiteral value
  | .step operand _ _ => hasBareLiteral operand
  | .assign left _ _ right => anyBareLiteral left || anyBareLiteral right
  | .go _ call => hasBareLiteral call
  | .defer _ call => hasBareLiteral call
  | .return_ _ results => anyBareLiteral results
  | .block inner => blockHasBareLiteral inner
  | .if_ _ init condition body otherwise =>
    maybeStmtBareLiteral init || hasBareLiteral condition || blockHasBareLiteral body
      || maybeStmtBareLiteral otherwise
  | .switch _ init tag body =>
    maybeStmtBareLiteral init || maybeBareLiteral tag || blockHasBareLiteral body
  | .typeSwitch _ init guard body =>
    maybeStmtBareLiteral init || stmtHasBareLiteral guard || blockHasBareLiteral body
  | .caseClause _ values _ body => anyBareLiteral values || stmtsHaveBareLiteral body
  | .select _ body => blockHasBareLiteral body
  | .commClause _ communication _ body => maybeStmtBareLiteral communication || stmtsHaveBareLiteral body
  | .for_ _ init condition post body =>
    maybeStmtBareLiteral init || maybeBareLiteral condition || maybeStmtBareLiteral post
      || blockHasBareLiteral body
  | .range _ key value _ _ _ subject body =>
    maybeBareLiteral key || maybeBareLiteral value || hasBareLiteral subject || blockHasBareLiteral body
  | _ => false
termination_by structural statement => statement

def maybeStmtBareLiteral : Option Stmt → Bool
  | some statement => stmtHasBareLiteral statement
  | none => false
termination_by structural statement? => statement?

def stmtsHaveBareLiteral : List Stmt → Bool
  | [] => false
  | statement :: statements => stmtHasBareLiteral statement || stmtsHaveBareLiteral statements
termination_by structural statements => statements

def blockHasBareLiteral : Source.BlockOf Stmt → Bool
  | ⟨_, statements, _⟩ => stmtsHaveBareLiteral statements
termination_by structural block => block
end

/-! ## Literals -/

/-- Replaces the last occurrence of a byte, if there is one. -/
def replaceLast? (old new : UInt8) (text : Bytes) : Option Bytes :=
  (Bytes.lastIndexOf? old text).map fun index => text.take index ++ new :: text.drop (index + 1)

/-- A number in its standard form: marks of bases and exponents in lower case, and no
leading zeros before an imaginary unit. -/
def normalNumber (text : Bytes) : Bytes :=
  let mark := text.take 2
  let withExponent (old new : Char) (text : Bytes) : Bytes :=
    (replaceLast? (byte old) (byte new) text).getD text
  if text.length < 2 then text
  else if mark == Bytes.ofString "0X" || mark == Bytes.ofString "0x" then
    withExponent 'P' 'p' ("0x" ++ text.drop 2)
  else if mark == Bytes.ofString "0O" then "0o" ++ text.drop 2
  else if mark == Bytes.ofString "0B" then "0b" ++ text.drop 2
  else if mark == Bytes.ofString "0o" || mark == Bytes.ofString "0b" then text
  else
    match replaceLast? (byte 'E') (byte 'e') text with
    | some text => text
    | none =>
      if Bytes.endsWith "i" text && !text.any (fun code => code = byte '.' || code = byte 'e') then
        let digits := text.dropWhile fun code => code = byte '0' || code = byte '_'
        if digits == Bytes.ofString "i" then "0i" else digits
      else text

def normalLiteral (literal : Literal) : Bytes :=
  match literal.token with
  | .int | .float | .imag => normalNumber literal.text
  | _ => literal.text

def isIllegalInPath (char : Char) : Bool :=
  !Text.isPrintable char || Text.isBlank char || char = Text.replacement
    || ("!\"#$%&'()*,:;<=>?[\\]^\x7b|\x7d\x60".toList).contains char

/-- The text of an import path in quotation marks, if it is a path. -/
def importPathText (path : Literal) : Bytes :=
  match Text.Quoted.decode? path.text with
  | some text =>
    if text.isEmpty || (Text.Utf8.chars text).any isIllegalInPath then path.text
    else Text.Quoted.encode text
  | none => path.text

/-! ## Lists -/

/-- Whether the names and types of a list may stand in one column with the values:
for each of the given specifications, told by whether it has a type and whether it
has values, whether its values need a column after that of the types.  A run of
specifications with values needs one if any of them has a type. -/
def keepsTypeColumn (specs : List (Bool × Bool)) : List Bool :=
  (specs.splitBy fun upper lower => upper.2 == lower.2).flatMap fun run =>
    let keeps := run.any fun (hasType, hasValues) => hasType && hasValues
    run.map fun _ => keeps

/-- The largest size of an element that is aligned with any other small one. -/
def smallSize : Nat := 40

/-- Whether an element of some size is out of proportion to the elements before it,
given their number and the sum of their sizes: the ratio to their mean is at least five
to two or at most two to five. -/
def isOutOfProportion (size count sum : Nat) : Bool :=
  5 * size * count ≤ 2 * sum || 5 * sum ≤ 2 * size * count

/-- Whether an expression is a composite or function literal, perhaps with its address
taken.  Its last line then starts with the brace that closes it. -/
def endsInBrace : Expr → Bool
  | .composite .. | .function .. => true
  | .unary _ operator operand => operator = .and && endsInBrace operand
  | _ => false
termination_by structural expr => expr

/-- Whether a list of expressions looks better with all of it indented: if an element
starts on another line than the one before it ends, or if more than one takes several
lines and does not end in a brace.  Elements are given by their first and last lines and
by whether they end in a brace. -/
def isBestIndented (extents : List (Int × Int × Bool)) : Bool :=
  match extents, extents.getLast? with
  | (first, _) :: _ :: _, some (_, last, _) =>
    let rec startsLater (line : Int) : List (Int × Int × Bool) → Bool
      | [] => false
      | (start, stop, _) :: rest => line < start || startsLater stop rest
    first < last && (startsLater first extents
      || (extents.filter fun (start, stop, isBraced) => start < stop && !isBraced).length > 1)
  | _, _ => false

end Layout
end CaseExpansion
