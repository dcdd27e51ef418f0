import CaseExpansion.Text.Category

namespace CaseExpansion
namespace Text

/-!
# Upper and lower case

Which code points are capital letters (general category Lu), and the simple
lower-case mapping of Unicode: one code point for one, without the context
rules of running text.
-/

/-- The capital letters and the other code points with a lower-case form, in runs: how far a
run starts behind the end of the one before it, how many steps it has, how wide they are, and
the distance to the lower-case form. -/
def caseRuns : List (Nat × Nat × Nat × Int) := [
  (65, 25, 1, 32), (102, 22, 1, 32), (2, 6, 1, 32), (34, 23, 2, 1), (2, 0, 1, -199), (2, 2, 2, 1),
  (3, 7, 2, 1), (3, 22, 2, 1), (2, 0, 1, -121), (1, 2, 2, 1), (4, 0, 1, 210), (1, 1, 2, 1),
  (2, 0, 1, 206), (1, 0, 1, 1), (2, 1, 1, 205), (1, 0, 1, 1), (3, 0, 1, 79), (1, 0, 1, 202),
  (1, 0, 1, 203), (1, 0, 1, 1), (2, 0, 1, 205), (1, 0, 1, 207), (2, 0, 1, 211), (1, 0, 1, 209),
  (1, 0, 1, 1), (4, 0, 1, 211), (1, 0, 1, 213), (2, 0, 1, 214), (1, 2, 2, 1), (2, 0, 1, 218),
  (1, 0, 1, 1), (2, 0, 1, 218), (3, 0, 1, 1), (2, 0, 1, 218), (1, 0, 1, 1), (2, 1, 1, 217),
  (1, 1, 2, 1), (2, 0, 1, 219), (1, 0, 1, 1), (4, 0, 1, 1), (8, 0, 1, 2), (1, 0, 1, 1),
  (2, 0, 1, 2), (1, 0, 1, 1), (2, 0, 1, 2), (1, 8, 2, 1), (3, 8, 2, 1), (3, 0, 1, 2), (1, 1, 2, 1),
  (2, 0, 1, -97), (1, 0, 1, -56), (1, 19, 2, 1), (2, 0, 1, -130), (2, 8, 2, 1), (8, 0, 1, 10795),
  (1, 0, 1, 1), (2, 0, 1, -163), (1, 0, 1, 10792), (3, 0, 1, 1), (2, 0, 1, -195), (1, 0, 1, 69),
  (1, 0, 1, 71), (1, 4, 2, 1), (290, 1, 2, 1), (4, 0, 1, 1), (9, 0, 1, 116), (7, 0, 1, 38),
  (2, 2, 1, 37), (2, 0, 1, 64), (2, 1, 1, 63), (2, 16, 1, 32), (2, 8, 1, 32), (36, 0, 1, 8),
  (3, 2, 1, 0), (4, 11, 2, 1), (6, 0, 1, -60), (3, 0, 1, 1), (2, 0, 1, -7), (1, 0, 1, 1),
  (3, 2, 1, -130), (1, 15, 1, 80), (1, 31, 1, 32), (49, 16, 2, 1), (10, 26, 2, 1), (2, 0, 1, 15),
  (1, 6, 2, 1), (3, 47, 2, 1), (3, 37, 1, 48), (2890, 37, 1, 7264), (2, 0, 1, 7264),
  (6, 0, 1, 7264), (723, 79, 1, 38864), (1, 5, 1, 8), (2196, 0, 1, 1), (7, 42, 1, -3008),
  (3, 2, 1, -3008), (321, 74, 2, 1), (10, 0, 1, -7615), (2, 47, 2, 1), (10, 7, 1, -8),
  (9, 5, 1, -8), (11, 7, 1, -8), (9, 7, 1, -8), (9, 5, 1, -8), (12, 3, 2, -8), (9, 7, 1, -8),
  (25, 7, 1, -8), (9, 7, 1, -8), (9, 7, 1, -8), (9, 1, 1, -8), (1, 1, 1, -74), (1, 0, 1, -9),
  (12, 3, 1, -86), (1, 0, 1, -9), (12, 1, 1, -8), (1, 1, 1, -100), (13, 1, 1, -8), (1, 1, 1, -112),
  (1, 0, 1, -7), (12, 1, 1, -128), (1, 1, 1, -126), (1, 0, 1, -9), (262, 0, 1, 0), (5, 0, 1, 0),
  (4, 2, 1, 0), (3, 2, 1, 0), (3, 0, 1, 0), (4, 4, 1, 0), (7, 0, 1, 0), (2, 0, 1, -7517),
  (2, 0, 1, 0), (2, 0, 1, -8383), (1, 0, 1, -8262), (1, 1, 1, 0), (3, 1, 1, 0), (1, 0, 1, 28),
  (1, 0, 1, 0), (11, 1, 1, 0), (6, 0, 1, 0), (27, 15, 1, 16), (20, 0, 1, 1), (819, 25, 1, 26),
  (1841, 47, 1, 48), (49, 0, 1, 1), (2, 0, 1, -10743), (1, 0, 1, -3814), (1, 0, 1, -10727),
  (3, 2, 2, 1), (2, 0, 1, -10780), (1, 0, 1, -10749), (1, 0, 1, -10783), (1, 0, 1, -10782),
  (2, 0, 1, 1), (3, 0, 1, 1), (9, 1, 1, -10815), (1, 49, 2, 1), (9, 1, 2, 1), (5, 0, 1, 1),
  (31054, 22, 2, 1), (20, 13, 2, 1), (136, 6, 2, 1), (4, 30, 2, 1), (11, 1, 2, 1),
  (2, 0, 1, -35332), (1, 4, 2, 1), (5, 0, 1, 1), (2, 0, 1, -42280), (3, 1, 2, 1), (4, 9, 2, 1),
  (2, 0, 1, -42308), (1, 0, 1, -42319), (1, 0, 1, -42315), (1, 0, 1, -42305), (1, 0, 1, -42308),
  (2, 0, 1, -42258), (1, 0, 1, -42282), (1, 0, 1, -42261), (1, 0, 1, 928), (1, 7, 2, 1),
  (2, 0, 1, -48), (1, 0, 1, -42307), (1, 0, 1, -35384), (1, 1, 2, 1), (2, 0, 1, -42343),
  (1, 7, 2, 1), (2, 0, 1, -42561), (25, 0, 1, 1), (22316, 25, 1, 32), (1222, 39, 1, 40),
  (137, 35, 1, 40), (157, 10, 1, 39), (2, 14, 1, 39), (2, 6, 1, 39), (2, 1, 1, 39),
  (1771, 50, 1, 64), (158, 21, 1, 32), (2875, 31, 1, 32), (21889, 31, 1, 32), (65, 24, 1, 27),
  (25928, 25, 1, 0), (27, 25, 1, 0), (27, 25, 1, 0), (27, 1, 2, 0), (1, 0, 1, 0), (3, 0, 1, 0),
  (3, 1, 1, 0), (3, 3, 1, 0), (2, 7, 1, 0), (27, 25, 1, 0), (27, 1, 1, 0), (2, 3, 1, 0),
  (3, 7, 1, 0), (2, 6, 1, 0), (28, 1, 1, 0), (2, 3, 1, 0), (2, 4, 1, 0), (2, 0, 1, 0), (4, 6, 1, 0),
  (28, 25, 1, 0), (27, 25, 1, 0), (27, 25, 1, 0), (27, 25, 1, 0), (27, 25, 1, 0), (27, 25, 1, 0),
  (31, 24, 1, 0), (34, 24, 1, 0), (34, 24, 1, 0), (34, 24, 1, 0), (34, 24, 1, 0), (34, 0, 1, 0),
  (4406, 33, 1, 34)]

/-- The code points of these runs that are no capital letters. -/
def titleSet : CodeSet := ⟨[
  453, 1, 2, 1, 2, 1, 38, 1, 7573, 8, 8, 8, 8, 8, 12, 1, 15, 1, 47, 1, 355, 16, 838, 26]⟩

/-- The distance of a code point to its lower-case form, in runs behind a given one. -/
def lowerDistance? (code : Nat) : (behind : Nat) → List (Nat × Nat × Nat × Int) → Option Int
  | _, [] => none
  | behind, (gap, steps, width, distance) :: runs =>
    let first := behind + gap
    let last := first + steps * width
    if first ≤ code && code ≤ last && (code - first) % width == 0 then some distance
    else lowerDistance? code last runs

def isCapital (char : Char) : Bool :=
  (lowerDistance? char.toNat 0 caseRuns).isSome && !titleSet.has char

/-- The lower-case form of a code point, or the code point itself. -/
def lowerChar (char : Char) : Char :=
  if char.toNat < 0x80 then char.toLower
  else
    match lowerDistance? char.toNat 0 caseRuns with
    | some distance => Char.ofNat ((char.toNat : Int) + distance).toNat
    | none => char

/-- The text in lower case.  A malformed byte becomes the replacement
character, since the mapping goes through code points. -/
def lower (text : Bytes) : Bytes :=
  Bytes.ofChars ((Utf8.chars text).map lowerChar)

end Text
end CaseExpansion
