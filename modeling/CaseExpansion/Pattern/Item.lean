import CaseExpansion.Source.Fault

namespace CaseExpansion
namespace Pattern

open Text (Glyph)

/-!
# Items of a pattern

A pattern is a text with actions between double braces.  This module splits it
into items: the text outside of actions, and the words inside of them.  A minus
sign next to a delimiter, with white space on its other side, removes the white
space between the delimiter and the text before or after the action.  Comments
are dropped.

Splitting never fails: what cannot be read is an `error` item, and nothing
follows it.
-/

inductive ItemKind where
  | error
  | eof
  | text
  | leftDelim | rightDelim
  | leftParen | rightParen
  | space | assign | declare | pipe
  | char
  | bool | charConstant | complex | number | string | rawString
  | field | variable | identifier
  | dot | nil
  | block | break_ | continue_ | define | else_ | end_ | if_ | range | template | with_
deriving DecidableEq, Repr

namespace ItemKind

def isKeyword : ItemKind → Bool
  | dot | nil | block | break_ | continue_ | define | else_ | end_ | if_ | range | template
  | with_ => true
  | _ => false

end ItemKind

/-- A piece of a pattern.  The text of an error is its message. -/
structure Item where
  kind : ItemKind
  offset : Nat
  text : Bytes
  line : Nat
deriving DecidableEq, Repr

namespace Item

def firstChars (count : Nat) (text : Bytes) : Bytes :=
  ((Text.Utf8.glyphs text).take count).flatMap Glyph.bytes

def render (item : Item) : Bytes :=
  match item.kind with
  | .eof => "EOF"
  | .error => item.text
  | kind =>
    if kind.isKeyword then "<" ++ item.text ++ ">"
    else if item.text.length > 10 then Text.Quoted.encode (firstChars 10 item.text) ++ "..."
    else Text.Quoted.encode item.text

def keywords : List (String × ItemKind) :=
  [(".", .dot), ("block", .block), ("break", .break_), ("continue", .continue_),
   ("define", .define), ("else", .else_), ("end", .end_), ("if", .if_), ("range", .range),
   ("nil", .nil), ("template", .template), ("with", .with_)]

def wordKind (word : Bytes) : ItemKind :=
  match keywords.find? fun keyword => Bytes.ofString keyword.1 == word with
  | some (_, kind) => kind
  | none =>
    if word == ("true" : Bytes) || word == ("false" : Bytes) then .bool else .identifier

end Item

structure Cursor where
  ahead : List Glyph
  offset : Nat := 0
  line : Nat := 1

namespace Cursor

def peekBytes (cursor : Cursor) (count : Nat) : Bytes :=
  (cursor.ahead.take count).flatMap Glyph.bytes

def skip (cursor : Cursor) (count : Nat) : Cursor :=
  let taken := cursor.ahead.take count
  { ahead := cursor.ahead.drop count
    offset := cursor.offset + (taken.flatMap Glyph.bytes).length
    line := cursor.line + taken.countP fun glyph => glyph.char == '\n' }

def item (cursor : Cursor) (kind : ItemKind) (count : Nat) : Item :=
  ⟨kind, cursor.offset, cursor.peekBytes count, cursor.line⟩

def error (cursor : Cursor) (message : Bytes) : Item :=
  ⟨.error, cursor.offset, message, cursor.line⟩

def chars (cursor : Cursor) : List Char :=
  cursor.ahead.map Glyph.char

end Cursor

def isSpace (char : Char) : Bool :=
  char == ' ' || char == '\t' || char == '\r' || char == '\n'

def isNameChar (char : Char) : Bool :=
  char == '_' || Text.isLetter char || Text.isDecimalDigit char

/-- Whether characters start with a minus sign and white space. -/
def hasLeftTrim : List Char → Bool
  | '-' :: second :: _ => isSpace second
  | _ => false

/-- Whether characters start with white space and a minus sign. -/
def hasRightTrim : List Char → Bool
  | first :: '-' :: _ => isSpace first
  | _ => false

def startsAction : List Char → Bool
  | '{' :: '{' :: _ => true
  | _ => false

def endsAction : List Char → Bool
  | '}' :: '}' :: _ => true
  | _ => false

/-- The number of white space characters that characters start with. -/
def spaceCount (chars : List Char) : Nat :=
  (chars.takeWhile isSpace).length

/-- The number of glyphs of a right delimiter at the start, and whether it
removes the white space after it. -/
def rightDelim? (chars : List Char) : Option (Nat × Bool) :=
  if hasRightTrim chars && endsAction (chars.drop 2) then some (4, true)
  else if endsAction chars then some (2, false)
  else none

def atTerminator (chars : List Char) : Bool :=
  match chars with
  | [] => true
  | char :: _ => isSpace char || [' ', '.', ',', '|', ':', ')', '('].contains char || endsAction chars

/-- The number of characters before the first left delimiter. -/
def textLength : List Char → Option Nat
  | [] => none
  | char :: rest => if startsAction (char :: rest) then some 0 else (textLength rest).map (· + 1)

/-- The number of characters up to and with the end of a comment. -/
def commentLength : List Char → Option Nat
  | [] => none
  | '*' :: '/' :: _ => some 2
  | _ :: rest => (commentLength rest).map (· + 1)

/-- The number of characters of a quoted text up to and with its closing mark.
A line end, or the end of the pattern, leaves it open. -/
def quotedLength (mark : Char) : List Char → Option Nat
  | [] => none
  | '\\' :: second :: rest =>
    if second == '\n' then none else (quotedLength mark rest).map (· + 2)
  | char :: rest =>
    if char == mark then some 1
    else if char == '\n' || char == '\\' then none
    else (quotedLength mark rest).map (· + 1)

/-- The number of characters of a raw text up to and with its closing mark. -/
def rawLength : List Char → Option Nat
  | [] => none
  | char :: rest => if char == '\x60' then some 1 else (rawLength rest).map (· + 1)

namespace NumberShape

def accept (set : List Char) (state : Nat × List Char) : Nat × List Char :=
  match state with
  | (count, char :: rest) => if set.contains char then (count + 1, rest) else state
  | state => state

def acceptRun (set : List Char) (state : Nat × List Char) : Nat × List Char :=
  let taken := (state.2.takeWhile set.contains).length
  (state.1 + taken, state.2.drop taken)

/-- The digits of numbers in a base, with the separator. -/
def digits (base : Nat) : List Char :=
  "_0123456789abcdefABCDEF".toList.filter fun char =>
    char == '_' || ((Text.Quoted.hexValue? char).getD 16) < base

/-- Takes a number.  The flag tells whether it ends where a number may end; if
it does not, the offending character is taken too. -/
def scan (state : Nat × List Char) : Bool × Nat × List Char :=
  let state := accept ['+', '-'] state
  let zero := accept ['0'] state
  let marked (set : List Char) : Option (Nat × List Char) :=
    if zero.1 = state.1 then none
    else
      let next := accept set zero
      if next.1 = zero.1 then none else some next
  let (base, state) :=
    match marked ['x', 'X'], marked ['o', 'O'], marked ['b', 'B'] with
    | some next, _, _ => (16, next)
    | none, some next, _ => (8, next)
    | none, none, some next => (2, next)
    | none, none, none => (10, zero)
  let state := acceptRun (digits base) state
  let point := accept ['.'] state
  let state := if point.1 = state.1 then state else acceptRun (digits base) point
  let exponent (letters : List Char) : Nat × List Char :=
    let letter := accept letters state
    if letter.1 = state.1 then state
    else acceptRun (digits 10) (accept ['+', '-'] letter)
  let state := if base = 10 then exponent ['e', 'E'] else if base = 16 then exponent
    ['p', 'P'] else state
  let state := accept ['i'] state
  match state.2 with
  | char :: rest => if isNameChar char then (false, state.1 + 1, rest) else (true, state)
  | [] => (true, state)

end NumberShape

namespace Cursor

/-- An item of the given length and the cursor after it, or an error. -/
def itemOrError (cursor : Cursor) (kind : ItemKind) (length? : Option Nat) (message : Bytes) :
    Item × Option Cursor :=
  match length? with
  | some length => (cursor.item kind length, some (cursor.skip length))
  | none => (cursor.error message, none)

/-- A name after the first character, which may be a mark. -/
def name (cursor : Cursor) (kind : Bytes → ItemKind) : Item × Option Cursor :=
  let length := 1 + (cursor.chars.tail.takeWhile isNameChar).length
  let rest := cursor.chars.drop length
  if atTerminator rest then
    (cursor.item (kind (cursor.peekBytes length)) length, some (cursor.skip length))
  else
    (cursor.error ("bad character " ++ Source.describeChar (rest.headD ' ')), none)

/-- A number, or two that make up a complex one. -/
def number (cursor : Cursor) : Item × Option Cursor :=
  let fail (length : Nat) : Item × Option Cursor :=
    (cursor.error ("bad number syntax: " ++ Text.Quoted.encode (cursor.peekBytes length)), none)
  let (isNumber, length, rest) := NumberShape.scan (0, cursor.chars)
  if !isNumber then fail length
  else
    match rest with
    | sign :: _ =>
      if sign == '+' || sign == '-' then
        let (isNumber, total, _) := NumberShape.scan (length, rest)
        if isNumber && (cursor.chars.drop (total - 1)).head? == some 'i' then
          (cursor.item .complex total, some (cursor.skip total))
        else fail total
      else (cursor.item .number length, some (cursor.skip length))
    | [] => (cursor.item .number length, some (cursor.skip length))

/-- The length of the white space at the cursor, without the white space that
belongs to a trimming right delimiter. -/
def spaceLength (cursor : Cursor) : Nat :=
  let count := spaceCount cursor.chars
  match rightDelim? (cursor.chars.drop (count - 1)) with
  | some (_, true) => count - 1
  | _ => count

/-- The next item inside of an action, outside of delimiters, parentheses and
white space. -/
def actionItem (cursor : Cursor) : Item × Option Cursor :=
  let single (kind : ItemKind) : Item × Option Cursor := (cursor.item kind 1, some (cursor.skip 1))
  match cursor.chars with
  | [] => (cursor.error "unclosed action", none)
  | char :: rest =>
    match char with
    | '=' => single .assign
    | ':' =>
      if rest.head? == some '=' then (cursor.item .declare 2, some (cursor.skip 2))
      else (cursor.error "expected :=", none)
    | '|' => single .pipe
    | '"' =>
      cursor.itemOrError .string ((quotedLength '"' rest).map (· + 1)) "unterminated quoted string"
    | '\x60' =>
      cursor.itemOrError .rawString ((rawLength rest).map (· + 1)) "unterminated raw quoted string"
    | '\'' =>
      cursor.itemOrError .charConstant ((quotedLength '\'' rest).map (· + 1))
        "unterminated character constant"
    | '$' => cursor.name fun _ => .variable
    | '.' =>
      match rest.head? with
      | none => cursor.number
      | some next =>
        if '0' ≤ next && next ≤ '9' then cursor.number
        else cursor.name fun word => if word.length = 1 then .dot else .field
    | char =>
      if char == '+' || char == '-' || ('0' ≤ char && char ≤ '9') then cursor.number
      else if isNameChar char then cursor.name Item.wordKind
      else if ' ' ≤ char && char ≤ '~' then single .char
      else
        (cursor.error ("unrecognized character in action: " ++ Source.describeChar char), none)

/-- The cursor after a left delimiter and its trim mark. -/
def enterAction (cursor : Cursor) : Cursor :=
  let cursor := cursor.skip 2
  if hasLeftTrim cursor.chars then cursor.skip 2 else cursor

/-- The right delimiter at the cursor, and the cursor after it and the white
space that it removes. -/
def leaveAction (cursor : Cursor) (length : Nat) (trims : Bool) : Item × Cursor :=
  let start := if trims then cursor.skip 2 else cursor
  let after := cursor.skip length
  (start.item .rightDelim 2, if trims then after.skip (spaceCount after.chars) else after)

/-- A comment at the cursor: the cursor after it, or an error. -/
def comment (cursor : Cursor) : Except Item Cursor :=
  match commentLength (cursor.chars.drop 2) with
  | none => .error (cursor.error "unclosed comment")
  | some length =>
    let after := cursor.skip (length + 2)
    match rightDelim? after.chars with
    | none => .error (cursor.error "comment ends before closing delimiter")
    | some (length, trims) =>
      let after := after.skip length
      .ok (if trims then after.skip (spaceCount after.chars) else after)

end Cursor

/-- Whether the splitting is inside of an action, and in how many parentheses. -/
inductive Mode where
  | outside
  | inside (parens : Nat)

/-- Splits a pattern from a cursor on.  Every step takes at least one glyph, so
the number of glyphs bounds the steps. -/
def itemsFrom : (fuel : Nat) → Mode → Cursor → List Item
  | 0, _, cursor => [cursor.item .eof 0]
  | fuel + 1, .outside, cursor =>
    match textLength cursor.chars with
    | none =>
      match cursor.ahead.length with
      | 0 => [cursor.item .eof 0]
      | count => cursor.item .text count :: itemsFrom fuel .outside (cursor.skip count)
    | some (count + 1) =>
      let atDelim := cursor.skip (count + 1)
      let text := cursor.chars.take (count + 1)
      let kept :=
        if hasLeftTrim (atDelim.chars.drop 2) then
          count + 1 - (text.reverse.takeWhile isSpace).length
        else count + 1
      if kept = 0 then itemsFrom fuel .outside atDelim
      else cursor.item .text kept :: itemsFrom fuel .outside atDelim
    | some 0 =>
      let inside := cursor.enterAction
      match inside.chars with
      | '/' :: '*' :: _ =>
        match inside.comment with
        | .error item => [item]
        | .ok cursor => itemsFrom fuel .outside cursor
      | _ => cursor.item .leftDelim 2 :: itemsFrom fuel (.inside 0) inside
  | fuel + 1, .inside parens, cursor =>
    match rightDelim? cursor.chars, parens with
    | some (length, trims), 0 =>
      let (item, cursor) := cursor.leaveAction length trims
      item :: itemsFrom fuel .outside cursor
    | some _, _ + 1 => [cursor.error "unclosed left paren"]
    | none, parens =>
      match cursor.chars with
      | '(' :: _ => cursor.item .leftParen 1 :: itemsFrom fuel (.inside (parens + 1)) (cursor.skip 1)
      | ')' :: _ =>
        match parens with
        | 0 => [cursor.error "unexpected right paren"]
        | parens + 1 => cursor.item .rightParen 1 :: itemsFrom fuel (.inside parens) (cursor.skip 1)
      | chars =>
        if (chars.head?.map isSpace).getD false then
          let count := cursor.spaceLength
          cursor.item .space count :: itemsFrom fuel (.inside parens) (cursor.skip count)
        else
          match cursor.actionItem with
          | (item, none) => [item]
          | (item, some cursor) => item :: itemsFrom fuel (.inside parens) cursor

/-- The items of a pattern.  The last one is an error or the end. -/
def items (text : Bytes) : List Item :=
  let glyphs := Text.Utf8.glyphs text
  itemsFrom (2 * glyphs.length + 2) .outside { ahead := glyphs }

end Pattern
end CaseExpansion
