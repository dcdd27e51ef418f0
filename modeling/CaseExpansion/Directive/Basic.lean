import CaseExpansion.Problem
import CaseExpansion.Source.Parse.File

namespace CaseExpansion

open Source (Comment Lexeme Position Token)

/-!
# Directives

A directive is a comment line that starts with a mark, `//casegen:case` or
`//casegen:dir`, followed by a blank or nothing.  What stands after the mark is
its body.  The body is split into lexemes of the language, with comments left
out, so that a separator inside of brackets, strings or comments is none.

Reading a body fails with a problem at an offset in the body; `Directive.locate`
turns that into an error at a place in the file.
-/

namespace Directive

def caseMark : Bytes := "//casegen:case"

/-- The mark of a directive that gives a case for every file of directories. -/
def directoryMark : Bytes := "//casegen:dir"

def body? (mark text : Bytes) : Option Bytes :=
  match Bytes.cutLead? mark text with
  | some [] => some []
  | some (head :: rest) =>
    if head = byte ' ' || head = byte '\t' then some (head :: rest) else none
  | none => none

def isCase (text : Bytes) : Bool :=
  (body? caseMark text).isSome

def isDirectory (text : Bytes) : Bool :=
  (body? directoryMark text).isSome

def isDirective (text : Bytes) : Bool :=
  isCase text || isDirectory text

/-- A problem at an offset in a directive's body. -/
structure Failure where
  offset : Nat
  problem : Problem
deriving DecidableEq, Repr

def lexemes (body : Bytes) : List Lexeme :=
  Source.Parse.withoutComments [] (Source.scanFile [] body).2

def firstFault? (lexemes : List Lexeme) : Option Failure :=
  (lexemes.flatMap Lexeme.faults).head?.map fun fault => ⟨fault.offset, .lexical fault.defect⟩

def checkFaults (lexemes : List Lexeme) : Except Failure Unit :=
  match firstFault? lexemes with
  | some failure => .error failure
  | none => .ok ()

def found (lexeme : Lexeme) : Found :=
  ⟨lexeme.token, lexeme.literal⟩

/-- Whether nothing more follows on the line of the directive. -/
def isEnd (lexeme : Lexeme) : Bool :=
  lexeme.token == .eof || lexeme.isLineEnd

/-- The result of reading the body of a comment with the given mark, with the
place of the comment, or of the problem. -/
def locate {α : Type} (mark : Bytes) (read : Bytes → Except Failure α)
    (place : Nat → Position) (comment : Comment) : Except Error (α × Position) :=
  match body? mark comment.text with
  | none => .error ⟨place comment.offset, .notDirective mark⟩
  | some body =>
    match read body with
    | .error failure => .error ⟨place (comment.offset + mark.length + failure.offset), failure.problem⟩
    | .ok result => .ok (result, place comment.offset)

end Directive
end CaseExpansion
