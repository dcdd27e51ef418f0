import CaseExpansion.Pattern.Number
import CaseExpansion.Source.Position

namespace CaseExpansion
namespace Pattern

/-!
# Values of patterns

The values that actions work on: basic values, lists, records, and pointers to
them.  A record knows the name of its type, which messages show.  A record that
is a part of another one lends it its fields; such fields can be selected from
the outer record but are not shown with it.

Lists and the targets of pointers lie somewhere in memory, and some ways of writing
a value show where.
-/

inductive IntegerType where
  | int | byte | offset
deriving DecidableEq, Repr

namespace IntegerType

def name : IntegerType → Bytes
  | int => "int"
  | byte => "uint8"
  | offset => "token.Pos"

end IntegerType

inductive Value where
  | absent
  | bool (value : Bool)
  | integer (type : IntegerType) (value : Int)
  | real (value : Binary64)
  | complex (real imaginary : Binary64)
  | text (text : Bytes)
  | position (position : Source.Position)
  /-- A list, with the addresses from which its first, second and later elements lie. -/
  | list (place : Nat → Nat) (elementType : Bytes) (elements : List Value)
  | record (type : Bytes) (fields : List (Bytes × Value)) (lent : List (Bytes × Value))
  | pointer (address : Nat) (target : Value)

namespace Value

def int (value : Int) : Value :=
  .integer .int value

/-- A list as it lies in memory.  An empty one lies nowhere. -/
def listAt (place : Nat → Nat) (elementType : Bytes) (elements : List Value) : Value :=
  .list (if elements.isEmpty then fun _ => 0 else place) elementType elements

def texts (place : Nat → Nat) (texts : List Bytes) : Value :=
  listAt place "string" (texts.map .text)

def typeName : Value → Bytes
  | absent => "<nil>"
  | bool _ => "bool"
  | integer type _ => type.name
  | real _ => "float64"
  | complex _ _ => "complex128"
  | text _ => "string"
  | position _ => "token.Position"
  | list _ elementType _ => "[]" ++ elementType
  | record type _ _ => type
  | pointer _ target => "*" ++ target.typeName

def follow : Value → Value
  | pointer _ target => target.follow
  | value => value

/-- Whether a value counts as true: it is not zero, empty or absent. -/
def isTrue : Value → Bool
  | absent => false
  | bool value => value
  | integer _ value => value ≠ 0
  | real value => !value.isZero
  | complex first second => !first.isZero || !second.isZero
  | text bytes => !bytes.isEmpty
  | list _ _ elements => !elements.isEmpty
  | position _ | record _ _ _ | pointer _ _ => true

def positionFields (position : Source.Position) : List (Bytes × Value) :=
  [("Filename", .text position.filename), ("Offset", .int position.offset),
   ("Line", .int position.line), ("Column", .int position.column)]

inductive Selected where
  | field (value : Value)
  | method (value : Value)

def lookup? (name : Bytes) (fields : List (Bytes × Value)) : Option Value :=
  (fields.find? fun field => field.1 == name).map Prod.snd

/-- The method of a value, with its result. -/
def method? (name : Bytes) : Value → Option Value
  | position place =>
    if name == ("String" : Bytes) then some (.text place.render)
    else if name == ("IsValid" : Bytes) then some (.bool place.isValid)
    else none
  | integer .offset value => if name == ("IsValid" : Bytes) then some (.bool (value != 0)) else none
  | _ => none

def select? (name : Bytes) (value : Value) : Option Selected :=
  match method? name value with
  | some result => some (.method result)
  | none =>
    match value with
    | position place => (lookup? name (positionFields place)).map .field
    | record _ fields lent => (lookup? name (fields ++ lent)).map .field
    | _ => none

end Value
end Pattern
end CaseExpansion
