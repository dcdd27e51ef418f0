namespace CaseExpansion

/-!
# Byte strings

Source files, case names and rendered output are sequences of bytes.  Nothing
in the library assumes that they are valid UTF-8: columns and offsets count
bytes, files of a case directory may hold any contents, and a malformed byte
has to survive quoting.  A text is therefore the list of its bytes, and code
points are a view on it (`Text.Glyph`), not its representation.

The operations here are the ones every later module shares.  They are written
on lists, by recursion or through the list operators, so that statements about
them reduce to statements about lists.
-/

/-- A text, as the sequence of its bytes. -/
abbrev Bytes := List UInt8

/-- The byte of an ASCII character.  Applied to other characters it keeps the
low eight bits, so it is only used on character literals. -/
def byte (char : Char) : UInt8 :=
  char.toNat.toUInt8

namespace Bytes

def ofString (string : String) : Bytes :=
  string.toUTF8.data.toList

instance ofStringCoe : Coe String Bytes :=
  ⟨ofString⟩

def ofChar (char : Char) : Bytes :=
  String.utf8EncodeChar char

def ofChars (chars : List Char) : Bytes :=
  chars.flatMap ofChar

/-- The text as a string, when it is valid UTF-8. -/
def toString? (text : Bytes) : Option String :=
  String.fromUTF8? ⟨text.toArray⟩

/-- What follows `lead` in a text that starts with it. -/
def cutLead? : (lead text : Bytes) → Option Bytes
  | [], text => some text
  | _ :: _, [] => none
  | first :: lead, head :: text => if first = head then cutLead? lead text else none

/-- Whether the text starts with `lead`. -/
def startsWith (lead text : Bytes) : Bool :=
  (cutLead? lead text).isSome

/-- What precedes `tail` in a text that ends with it. -/
def cutTail? (tail text : Bytes) : Option Bytes :=
  (cutLead? tail.reverse text.reverse).map List.reverse

/-- Whether the text ends with `tail`. -/
def endsWith (tail text : Bytes) : Bool :=
  (cutTail? tail text).isSome

/-- The text without the given ending, or the text itself when it does not end
that way. -/
def dropTail (tail text : Bytes) : Bytes :=
  (cutTail? tail text).getD text

/-- The text before and after the first occurrence of `mark`. -/
def cutAt? (mark : Bytes) : Bytes → Option (Bytes × Bytes)
  | [] => if mark.isEmpty then some ([], []) else none
  | head :: text =>
    match cutLead? mark (head :: text) with
    | some rest => some ([], rest)
    | none => (cutAt? mark text).map fun (before, after) => (head :: before, after)

/-- Whether `part` occurs anywhere in the text. -/
def contains (part text : Bytes) : Bool :=
  (cutAt? part text).isSome

/-- The pieces of the text between occurrences of one separating byte.  There
is one piece more than there are separators. -/
def splitOn (separator : UInt8) : Bytes → List Bytes
  | [] => [[]]
  | head :: text =>
    match splitOn separator text with
    | [] => [[head]]
    | piece :: pieces =>
      if head = separator then [] :: piece :: pieces else (head :: piece) :: pieces

/-- The pieces, with the separator between them. -/
def joinWith (separator : Bytes) : List Bytes → Bytes
  | [] => []
  | [piece] => piece
  | piece :: pieces => piece ++ separator ++ joinWith separator pieces

def lastIndexOf? (wanted : UInt8) (text : Bytes) : Option Nat :=
  (text.reverse.findIdx? (· == wanted)).map fun index => text.length - 1 - index

def dropTailWhile (test : UInt8 → Bool) (text : Bytes) : Bytes :=
  (text.reverse.dropWhile test).reverse

def slice (text : Bytes) (start stop : Nat) : Bytes :=
  (text.drop start).take (stop - start)

/-- The lines of a text, each with its line feed; the last line may lack one. -/
def lines : Bytes → List Bytes
  | [] => []
  | head :: text =>
    if head = byte '\n' then [head] :: lines text
    else
      match lines text with
      | [] => [[head]]
      | line :: rest => (head :: line) :: rest

/-- The order of texts, byte by byte. -/
def compare : Bytes → Bytes → Ordering
  | [], [] => .eq
  | [], _ :: _ => .lt
  | _ :: _, [] => .gt
  | first :: left, second :: right =>
    if first < second then .lt else if second < first then .gt else compare left right

/-- Whether the first text comes strictly before the second. -/
def before (left right : Bytes) : Bool :=
  compare left right == .lt

def decimal (number : Nat) : Bytes :=
  (Nat.toDigits 10 number).map byte

/-- An integer in decimal digits, with a minus sign when it is negative. -/
def decimalInt : Int → Bytes
  | .ofNat number => decimal number
  | .negSucc number => byte '-' :: decimal (number + 1)

def isDigit (code : UInt8) : Bool :=
  byte '0' ≤ code && code ≤ byte '9'

/-- The value of a non-empty run of decimal digits. -/
def toNat? (text : Bytes) : Option Nat :=
  if text.isEmpty || !text.all isDigit then none
  else some (text.foldl (fun value code => value * 10 + (code.toNat - 48)) 0)

end Bytes
end CaseExpansion
