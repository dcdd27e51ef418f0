import CaseExpansion.Pattern.Format

namespace CaseExpansion
namespace Pattern

/-!
# The functions of patterns

Selecting, measuring, comparing and escaping values.  A function that cannot
work on its arguments fails with a fault of its own, which the evaluation
reports together with the name of the function.
-/

inductive CallFault where
  | nilIndexed (operation : Bytes)
  | notIndexable (operation type : Bytes)
  | indexType (type : Bytes)
  | indexNil
  | outOfRange (index : Int)
  /-- An index equal to the length, which is checked only on access. -/
  | justOutOfRange (container : Bytes)
  | tooManyIndexes (count : Nat)
  | threeIndexText
  | reversed (low high : Int)
  | lengthOfNil
  | lengthOf (type : Bytes)
  | nothingToCompare
  | incompatible
  | notOrdered
  | notComparable (value type : Bytes)
  | callOfNil
  | notFunction (name type : Bytes)
deriving DecidableEq, Repr

namespace CallFault

def message : CallFault → Bytes
  | nilIndexed operation => operation ++ " of untyped nil"
  | notIndexable operation type => "can't " ++ operation ++ " item of type " ++ type
  | indexType type => "cannot index slice/array with type " ++ type
  | indexNil => "cannot index slice/array with nil"
  | outOfRange index => "index out of range: " ++ Bytes.decimalInt index
  | justOutOfRange container => "reflect: " ++ container ++ " index out of range"
  | tooManyIndexes count => "too many slice indexes: " ++ Bytes.decimal count
  | threeIndexText => "cannot 3-index slice a string"
  | reversed low high =>
    "invalid slice index: " ++ Bytes.decimalInt low ++ " > " ++ Bytes.decimalInt high
  | lengthOfNil => "reflect: call of reflect.Value.Type on zero Value"
  | lengthOf type => "len of type " ++ type
  | nothingToCompare => "missing argument for comparison"
  | incompatible => "incompatible types for comparison"
  | notOrdered => "invalid type for comparison"
  | notComparable value type => "non-comparable type " ++ value ++ ": " ++ type
  | callOfNil => "call of nil"
  | notFunction name type => "non-function " ++ name ++ " of type " ++ type

end CallFault

namespace Operation

abbrev Result := Except CallFault Value

/-! ## Selecting and measuring -/

/-- An index into something with the given bound, which is itself allowed. -/
def indexOf (bound : Nat) : Value → Except CallFault Nat
  | .integer _ index => if 0 ≤ index ∧ index ≤ bound then .ok index.toNat else .error (.outOfRange index)
  | .absent => .error .indexNil
  | value => .error (.indexType value.typeName)

def element (item index : Value) : Result :=
  match item.follow with
  | .list _ _ elements => do
    match elements[← indexOf elements.length index]? with
    | some element => return element
    | none => throw (.justOutOfRange "slice")
  | .text text => do
    match text[← indexOf text.length index]? with
    | some code => return .integer .byte code.toNat
    | none => throw (.justOutOfRange "string")
  | item => .error (.notIndexable "index" item.typeName)

/-- The element reached by indexes, one after the other. -/
def index (item : Value) (indexes : List Value) : Result :=
  match item with
  | .absent => .error (.nilIndexed "index")
  | item => indexes.foldlM element item

/-- The bounds of a slice: none, one or two of them may be given. -/
def sliceBounds (length : Nat) (indexes : List Value) : Except CallFault (Nat × Nat) := do
  let given ← indexes.mapM (indexOf length)
  let low := given[0]?.getD 0
  let high := given[1]?.getD length
  if low > high then throw (.reversed low high)
  match given[2]? with
  | some most => if high > most then throw (.reversed high most)
  | none => pure ()
  return (low, high)

def slice (item : Value) (indexes : List Value) : Result :=
  match item with
  | .absent => .error (.nilIndexed "slice")
  | item =>
    if indexes.length > 3 then .error (.tooManyIndexes indexes.length)
    else
      match item with
      | .text text => do
        if indexes.length = 3 then throw .threeIndexText
        let (low, high) ← sliceBounds text.length indexes
        return .text (Bytes.slice text low high)
      | .list place type elements => do
        let (low, high) ← sliceBounds elements.length indexes
        return .list (fun index => place (low + index)) type ((elements.drop low).take (high - low))
      | item => .error (.notIndexable "slice" item.typeName)

def length (item : Value) : Result :=
  match item.follow with
  | .list _ _ elements => .ok (.int elements.length)
  | .text text => .ok (.int text.length)
  | .absent => .error .lengthOfNil
  | item => .error (.lengthOf item.typeName)

/-! ## Comparing -/

def canBeNil : Value → Bool
  | .absent => true
  | .list _ _ elements => elements.isEmpty
  | _ => false

def same (left right : Value) : Except CallFault Bool :=
  match left, right with
  | .bool left, .bool right => .ok (left == right)
  | .integer _ left, .integer _ right => .ok (left == right)
  | .real left, .real right => .ok (left.same right)
  | .complex leftReal leftPart, .complex rightReal rightPart =>
    .ok (leftReal.same rightReal && leftPart.same rightPart)
  | .text left, .text right => .ok (left == right)
  | .position left, .position right => .ok (left == right)
  | .pointer left target, .pointer right other =>
    .ok (left == right && target.typeName == other.typeName)
  | .absent, right => .ok (canBeNil right)
  | left, .absent => .ok (canBeNil left)
  | .list _ _ left, .list place type right =>
    if left.isEmpty || right.isEmpty then .ok (left.isEmpty == right.isEmpty)
    else .error (.notComparable (formatPlain (.list place type right)) ("[]" ++ type))
  | .record .., .record type fields lent =>
    .error (.notComparable (formatPlain (.record type fields lent)) type)
  | _, _ => .error .incompatible

def equalsAny (left : Value) : List Value → Except CallFault Bool
  | [] => .ok false
  | right :: rest => do if ← same left right then return true else equalsAny left rest

def isBasic : Value → Bool
  | .bool _ | .integer .. | .real _ | .complex .. | .text _ => true
  | _ => false

def less (left right : Value) : Except CallFault Bool :=
  match left, right with
  | .integer _ left, .integer _ right => .ok (left < right)
  | .real left, .real right => .ok (left.lt right)
  | .text left, .text right => .ok (Bytes.before left right)
  | .bool _, .bool _ | .complex .., .complex .. => .error .notOrdered
  | left, right => if isBasic left && isBasic right then .error .incompatible else .error .notOrdered

def lessOrEqual (left right : Value) : Except CallFault Bool := do
  if ← less left right then return true else same left right

/-! ## Escaping -/

/-- The one text of escaped values: texts as they are, and others as they are
written. -/
def joined (values : List Value) : Bytes :=
  let shown (value : Value) : Value :=
    match value.follow with
    | .absent => .text "<no value>"
    | value => value
  match values with
  | [.text text] => text
  | values => formatAll (values.map shown)

def escapeMarkup (text : Bytes) : Bytes :=
  text.flatMap fun code =>
    if code = 0 then Bytes.ofChar Text.replacement
    else if code = byte '"' then "&#34;"
    else if code = byte '\'' then "&#39;"
    else if code = byte '&' then "&amp;"
    else if code = byte '<' then "&lt;"
    else if code = byte '>' then "&gt;"
    else [code]

def escapeScript (text : Bytes) : Bytes :=
  let upper (digits : Bytes) : Bytes :=
    digits.map fun digit => if digit ≥ byte 'a' then digit - 32 else digit
  (Text.Utf8.glyphs text).flatMap fun glyph =>
    match glyph.char with
    | '\\' => "\\\\"
    | '\'' => "\\'"
    | '"' => "\\\""
    | '<' => "\\u003C"
    | '>' => "\\u003E"
    | '&' => "\\u0026"
    | '=' => "\\u003D"
    | char =>
      let code := char.toNat
      if code < 0x20 then "\\u00" ++ upper (Text.Quoted.hexDigits 2 code)
      else if code < 0x80 || Text.isPrintable char then glyph.bytes
      else
        "\\u" ++ upper (Text.Quoted.hexDigits (max 4 (Nat.toDigits 16 code).length) code)

def escapeQuery (text : Bytes) : Bytes :=
  let upper (digits : Bytes) : Bytes :=
    digits.map fun digit => if digit ≥ byte 'a' then digit - 32 else digit
  let isPlain (code : UInt8) : Bool :=
    (byte 'a' ≤ code && code ≤ byte 'z') || (byte 'A' ≤ code && code ≤ byte 'Z')
      || Bytes.isDigit code || [byte '-', byte '_', byte '.', byte '~'].contains code
  text.flatMap fun code =>
    if isPlain code then [code]
    else if code = byte ' ' then "+"
    else "%" ++ upper (Text.Quoted.hexDigits 2 code.toNat)

/-! ## Applying -/

/-- The least number of arguments of a function, and whether it takes more. -/
def arity (name : Bytes) : Nat × Bool :=
  if ["html", "js", "urlquery", "print", "println"].any fun known => Bytes.ofString known == name then
    (0, true)
  else if ["not", "len"].any fun known => Bytes.ofString known == name then (1, false)
  else if ["ne", "lt", "le", "gt", "ge"].any fun known => Bytes.ofString known == name then (2, false)
  else (1, true)

/-- Applies a function to arguments.  A function is called with at least as many
arguments as it needs; the name is that of the first argument, for the function
that would call it. -/
def apply (function calleeName : Bytes) (arguments : List Value) : Result :=
  let first := arguments[0]?.getD .absent
  let second := arguments[1]?.getD .absent
  let rest := arguments.drop 1
  let truth (result : Except CallFault Bool) : Result := result.map .bool
  match Bytes.toString? function with
  | some "not" => .ok (.bool (!first.isTrue))
  | some "len" => length first
  | some "index" => index first rest
  | some "slice" => slice first rest
  | some "html" => .ok (.text (escapeMarkup (joined arguments)))
  | some "js" => .ok (.text (escapeScript (joined arguments)))
  | some "urlquery" => .ok (.text (escapeQuery (joined arguments)))
  | some "print" => .ok (.text (formatAll arguments))
  | some "println" => .ok (.text (Bytes.joinWith " " (arguments.map formatPlain) ++ "\n"))
  | some "printf" =>
    match first with
    | .text format => .ok (.text (formatBy format rest))
    | _ => .ok (.text [])
  | some "eq" => if rest.isEmpty then .error .nothingToCompare else truth (equalsAny first rest)
  | some "ne" => truth ((same first second).map not)
  | some "lt" => truth (less first second)
  | some "le" => truth (lessOrEqual first second)
  | some "gt" => truth ((lessOrEqual first second).map not)
  | some "ge" => truth ((less first second).map not)
  | _ =>
    match first with
    | .absent => .error .callOfNil
    | value => .error (.notFunction calleeName value.typeName)

end Operation
end Pattern
end CaseExpansion
