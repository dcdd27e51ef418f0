import CaseExpansion.Directive.Basic

namespace CaseExpansion

open Source (Comment Lexeme Position)

/-!
# Directory directives

The body of a directory directive is a list of string literals, separated by
commas: the directories whose files become cases.
-/

structure CaseDirectories where
  directories : List Bytes
  position : Position := {}
deriving DecidableEq, Repr

namespace Directive

/-- Reads a list of directories.  After a directory, the line ends or a comma
and another directory follow. -/
def readDirectories : List Lexeme → Except Failure (List Bytes)
  | [] => .error ⟨0, .missingDirectory⟩
  | lexeme :: rest => do
    checkFaults [lexeme]
    if lexeme.token ≠ .string then
      if isEnd lexeme then throw ⟨lexeme.offset, .missingDirectory⟩
      throw ⟨lexeme.offset, .directoryNotString (found lexeme)⟩
    match Text.Quoted.decode? lexeme.literal with
    | none => throw ⟨lexeme.offset, .invalidDirectory lexeme.literal⟩
    | some [] => throw ⟨lexeme.offset, .emptyDirectory⟩
    | some directory =>
      match rest with
      | [] => return [directory]
      | separator :: rest =>
        checkFaults [separator]
        if isEnd separator then return [directory]
        if separator.token ≠ .comma then throw ⟨separator.offset, .afterDirectory (found separator)⟩
        return directory :: (← readDirectories rest)

end Directive

namespace CaseDirectories

def parse (place : Nat → Position) (comment : Comment) : Except Error CaseDirectories :=
  (Directive.locate Directive.directoryMark
      (fun body => Directive.readDirectories (Directive.lexemes body)) place comment).map
    fun (directories, position) => { directories, position }

end CaseDirectories
end CaseExpansion
