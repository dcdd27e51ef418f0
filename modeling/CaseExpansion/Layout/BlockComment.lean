import CaseExpansion.Text.Bytes

namespace CaseExpansion
namespace Layout

/-!
# Comments over several lines

A comment between `/*` and `*/` is written line by line at the indentation of the
code around it.  The white space that its lines have in common is removed first,
so that only the indentation of the lines relative to each other stays.  A column
of stars at the left counts as part of that white space.
-/

namespace BlockComment

def isBlankLine (line : Bytes) : Bool :=
  line.all (· ≤ byte ' ')

/-- The white space and stars that two lines start with in common. -/
def commonLead : Bytes → Bytes → Bytes
  | left :: lefts, right :: rights =>
    if left = right && (left ≤ byte ' ' || left = byte '*') then left :: commonLead lefts rights
    else []
  | _, _ => []

/-- A lead without up to three blanks at its end, or without a tab if it ends in
no blank. -/
def shorten (lead : Bytes) : Bytes :=
  let blanks := min 3 (lead.reverse.takeWhile (· == byte ' ')).length
  if blanks = 0 then Bytes.dropTail "\t" lead else lead.take (lead.length - blanks)

/-- The white space before the text of the first line, as the other lines would
have it: the opening mark counts as two blanks unless a tab follows it. -/
def firstIndent (first : Bytes) : Bytes :=
  let space := (first.drop 2).takeWhile (· ≤ byte ' ')
  if space.head? == some (byte '\t') then space else "  " ++ space

/-- The lead to remove, from the lead in common and the first line, and whether
there is a column of stars. -/
def leadToRemove (first common : Bytes) : Bytes × Bool :=
  match Bytes.cutAt? "*" common with
  | some (lead, _) => (Bytes.dropTail " " lead, true)
  | none =>
    if isBlankLine (first.drop 2) then (shorten common, false)
    else (Bytes.dropTail (firstIndent first) common, false)

/-- The lines of a comment without the white space they have in common. -/
def unindent : List Bytes → List Bytes
  | first :: second :: rest =>
    let others := second :: rest
    let inner := others.dropLast.map fun line => if isBlankLine line then [] else line
    let last := others.getLastD []
    let common :=
      match inner.filter fun line => !line.isEmpty with
      | [] => commonLead last last
      | line :: lines => lines.foldl commonLead (commonLead line line)
    let (lead, hasStars) := leadToRemove first common
    let beforeEnd := ((Bytes.cutAt? "*/" last).map Prod.fst).getD last
    let (lead, last) :=
      if isBlankLine beforeEnd then
        let closing : Bytes := if hasStars then " */" else "*/"
        (lead, lead ++ closing)
      else (commonLead lead last, last)
    first :: (inner ++ [last]).map (List.drop lead.length)
  | lines => lines

end BlockComment
end Layout
end CaseExpansion
