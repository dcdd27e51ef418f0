import CaseExpansion.Build.Constraint
import CaseExpansion.Proofs.Text.Bytes
import CaseExpansion.Proofs.Text.Trimming

namespace CaseExpansion

open List

/-!
# How a constraint is spelled

A constraint is written as a sequence of words.  `Constraint.words` gives the words
without any text around them, and `Spells` says that a text consists of given words,
possibly with blanks between them.  The written form of a constraint spells its
words, and reading a text from the left gives the words that it spells.
-/

namespace Build

open Text (Glyph Spelled)
open Text.Utf8 (glyphsFrom)

namespace ConstraintToken

/-! ## Names of tags -/

theorem isTagChar_eq_false_of_mem :
    ∀ code ∈ 0xFFFD :: Text.blankCodes, isTagChar (Char.ofNat code) = false := by
  unfold isTagChar Text.isLetter Text.isDecimalDigit
  decide +kernel

theorem isTagChar_of_isBlank {char : Char} (blank : Text.isBlank char = true) :
    isTagChar char = false := by
  rw [← Char.ofNat_toNat char]
  exact isTagChar_eq_false_of_mem _ (mem_cons_of_mem _ (Text.toNat_mem_blankCodes blank))

theorem isMalformed_of_isTagChar {glyph : Text.Glyph} (isTag : isTagChar glyph.char = true) :
    glyph.isMalformed = false := by
  rw [Bool.eq_false_iff]
  intro malformed
  rw [Text.Glyph.isMalformed, Bool.and_eq_true, beq_iff_eq] at malformed
  rw [malformed.1, Text.replacement, isTagChar_eq_false_of_mem 0xFFFD mem_cons_self] at isTag
  cases isTag

/-! ## Words of a text -/

/-- The text is the name of a tag: at least one character, and only such as a name
may have. -/
def IsName (name : Bytes) : Prop :=
  ∃ glyphs, Spelled name glyphs ∧ glyphs ≠ [] ∧ ∀ glyph ∈ glyphs, isTagChar glyph.char = true

/-- The words of one sign each, and the signs. -/
def marks : List (String × ConstraintToken) :=
  [("(", open_), (")", close), ("!", not), ("&&", and), ("||", or)]

/-- The text ends, or goes on with a character that belongs to no name. -/
def Interrupts (text : Bytes) : Prop :=
  text = [] ∨ ∃ rest, text = byte ' ' :: rest ∨ text = byte ')' :: rest

/-- The text consists of the given words.  A name reaches up to the next character
that belongs to no name. -/
inductive Spells : Bytes → List ConstraintToken → Prop
  | nil : Spells [] []
  | blank {text : Bytes} {words : List ConstraintToken} :
      Spells text words → Spells (byte ' ' :: text) words
  | mark {sign : String} {word : ConstraintToken} {text : Bytes} {words : List ConstraintToken} :
      (sign, word) ∈ marks → Spells text words → Spells (Bytes.ofString sign ++ text) (word :: words)
  | name {name text : Bytes} {words : List ConstraintToken} :
      IsName name → Interrupts text → Spells text words → Spells (name ++ text) (tag name :: words)

theorem next_blank (offset : Nat) (text : Bytes) :
    next (glyphsFrom 0 offset (byte ' ' :: text)) = next (glyphsFrom 0 (offset + 1) text) := by
  rfl

theorem next_mark {sign : String} {word : ConstraintToken} (isMark : (sign, word) ∈ marks)
    (offset : Nat) (text : Bytes) :
    ∃ later, next (glyphsFrom 0 offset (Bytes.ofString sign ++ text)) =
      (word, glyphsFrom 0 later text) := by
  simp only [marks, mem_cons, Prod.mk.injEq, not_mem_nil, or_false] at isMark
  rcases isMark with ⟨rfl, rfl⟩ | ⟨rfl, rfl⟩ | ⟨rfl, rfl⟩ | ⟨rfl, rfl⟩ | ⟨rfl, rfl⟩
  · exact ⟨_, rfl⟩
  · exact ⟨_, rfl⟩
  · exact ⟨_, rfl⟩
  · exact ⟨_, rfl⟩
  · exact ⟨_, rfl⟩

theorem Interrupts.not_isTagChar {text : Bytes} (interrupts : Interrupts text) (offset : Nat) :
    (glyphsFrom 0 offset text).takeWhile (fun glyph => isTagChar glyph.char) = [] ∧
      (glyphsFrom 0 offset text).dropWhile (fun glyph => isTagChar glyph.char) =
        glyphsFrom 0 offset text := by
  rcases interrupts with rfl | ⟨rest, rfl | rfl⟩
  · exact ⟨rfl, rfl⟩
  · exact ⟨rfl, rfl⟩
  · exact ⟨rfl, rfl⟩

theorem next_name {name text : Bytes} (isName : IsName name) (interrupts : Interrupts text)
    (offset : Nat) :
    next (glyphsFrom 0 offset (name ++ text)) =
      (tag name, glyphsFrom 0 (offset + name.length) text) := by
  rcases isName with ⟨glyphs, spelled, nonempty, allTag⟩
  rcases spelled.glyphsFrom_append offset text with ⟨placed, read, chars, bytes⟩
  have placedTag : ∀ glyph ∈ placed, isTagChar glyph.char = true := by
    intro glyph member
    have isChar := mem_map_of_mem (f := Glyph.char) member
    rw [chars] at isChar
    rcases mem_map.mp isChar with ⟨original, isOriginal, same⟩
    rw [← same]
    exact allTag original isOriginal
  cases placed with
  | nil =>
    rw [map_nil, eq_comm, map_eq_nil_iff] at chars
    exact absurd chars nonempty
  | cons first others =>
    rw [forall_mem_cons] at placedTag
    have notBlank : ¬ (first.char == ' ' || first.char == '\t') = true := by
      intro blank
      rw [Bool.or_eq_true, beq_iff_eq, beq_iff_eq] at blank
      rcases blank with blank | blank <;> rw [blank] at placedTag <;>
        exact absurd placedTag.1 (by decide)
    have dropped (rest : List Glyph) :
        (first :: rest).dropWhile (fun glyph => glyph.char == ' ' || glyph.char == '\t') =
          first :: rest :=
      dropWhile_cons_of_neg notBlank
    rw [read, cons_append]
    unfold next
    rw [dropped]
    dsimp only
    split
    next isChar => exact absurd placedTag.1 (by rw [isChar]; decide)
    next isChar => exact absurd placedTag.1 (by rw [isChar]; decide)
    next isChar => exact absurd placedTag.1 (by rw [isChar]; decide)
    next isChar => exact absurd placedTag.1 (by rw [isChar]; decide)
    next isChar => exact absurd placedTag.1 (by rw [isChar]; decide)
    next =>
      rw [if_pos placedTag.1, takeWhile_append_of_pos placedTag.2, (interrupts.not_isTagChar _).1,
        append_nil, bytes, dropWhile_append_of_pos placedTag.2, (interrupts.not_isTagChar _).2]

theorem Spells.next_eq {text : Bytes} {words : List ConstraintToken} (spells : Spells text words)
    (offset : Nat) :
    ∃ later rest, next (glyphsFrom 0 offset text) = (words.headD stop, glyphsFrom 0 later rest) ∧
      Spells rest words.tail := by
  induction spells generalizing offset with
  | nil => exact ⟨0, [], rfl, .nil⟩
  | blank _ ih =>
    rw [next_blank]
    exact ih (offset + 1)
  | mark isMark spells _ =>
    rcases next_mark isMark offset _ with ⟨later, read⟩
    exact ⟨later, _, read, spells⟩
  | name isName interrupts spells _ =>
    exact ⟨_, _, next_name isName interrupts offset, spells⟩

end ConstraintToken

/-! ## The words of a constraint -/

namespace Constraint

open ConstraintToken (Spells IsName Interrupts)

/-- Whether the constraint is a conjunction. -/
def isAnd : Constraint → Bool
  | .and .. => true
  | _ => false

/-- Whether the constraint is a disjunction. -/
def isOr : Constraint → Bool
  | .or .. => true
  | _ => false

/-- Whether the constraint is a negation. -/
def isNot : Constraint → Bool
  | .not _ => true
  | _ => false

/-- Words, in parentheses if asked for. -/
def enclose (inside : Bool) (words : List ConstraintToken) : List ConstraintToken :=
  if inside then .open_ :: (words ++ [.close]) else words

/-- The words of the written form of a constraint. -/
def words : Constraint → List ConstraintToken
  | .tag name => [.tag name]
  | .not operand => .not :: enclose (operand.isAnd || operand.isOr) operand.words
  | .and left right => enclose left.isOr left.words ++ .and :: enclose right.isOr right.words
  | .or left right => enclose left.isAnd left.words ++ .or :: enclose right.isAnd right.words

/-- A text, in parentheses if asked for. -/
def encloseText (inside : Bool) (text : Bytes) : Bytes :=
  if inside then parenthesize text else text

theorem render_not (operand : Constraint) :
    (not operand).render = "!" ++ encloseText (operand.isAnd || operand.isOr) operand.render := by
  cases operand <;> rfl

theorem render_and (left right : Constraint) :
    (and left right).render =
      encloseText left.isOr left.render ++ (" && " ++ encloseText right.isOr right.render) := by
  cases left <;> cases right <;> exact append_assoc _ _ _

theorem render_or (left right : Constraint) :
    (or left right).render =
      encloseText left.isAnd left.render ++ (" || " ++ encloseText right.isAnd right.render) := by
  cases left <;> cases right <;> exact append_assoc _ _ _

/-- The tags of a constraint have names that can be written. -/
def Nameable : Constraint → Prop
  | .tag name => IsName name
  | .not operand => operand.Nameable
  | .and left right => left.Nameable ∧ right.Nameable
  | .or left right => left.Nameable ∧ right.Nameable

theorem interrupts_close (text : Bytes) : Interrupts (")" ++ text) :=
  .inr ⟨text, .inr rfl⟩

/-- What spells words in front of a text that interrupts names, does so in parentheses. -/
theorem encloseText_spells {written : Bytes} {words : List ConstraintToken}
    (spelled : ∀ text later, Interrupts text → Spells text later →
      Spells (written ++ text) (words ++ later))
    (inside : Bool) {text : Bytes} {later : List ConstraintToken} (interrupts : Interrupts text)
    (spells : Spells text later) :
    Spells (encloseText inside written ++ text) (enclose inside words ++ later) := by
  cases inside with
  | false => exact spelled text later interrupts spells
  | true =>
    have closed : Spells (")" ++ text) (.close :: later) := .mark (by decide) spells
    have inner := spelled _ _ (interrupts_close text) closed
    have opened : Spells ("(" ++ (written ++ (")" ++ text))) (.open_ :: (words ++ .close :: later)) :=
      .mark (by decide) inner
    simpa only [encloseText, enclose, parenthesize, if_true, append_assoc, cons_append,
      nil_append] using opened

/-- The written form of a constraint spells its words. -/
theorem render_spells (constraint : Constraint) (nameable : constraint.Nameable) (text : Bytes)
    (later : List ConstraintToken) (interrupts : Interrupts text) (spells : Spells text later) :
    Spells (constraint.render ++ text) (constraint.words ++ later) := by
  induction constraint generalizing text later with
  | tag name => exact .name nameable interrupts spells
  | not operand ih =>
    rw [render_not, append_assoc]
    exact .mark (by decide) (encloseText_spells (ih nameable) _ interrupts spells)
  | and left right ihLeft ihRight =>
    rw [render_and, words, append_assoc, append_assoc, append_assoc]
    have right := encloseText_spells (ihRight nameable.2) right.isOr interrupts spells
    have mark : Spells ("&&" ++ (byte ' ' :: _)) (.and :: _) := .mark (by decide) (.blank right)
    have joined : Spells (" && " ++ (encloseText _ _ ++ text)) (.and :: (enclose _ _ ++ later)) :=
      .blank mark
    exact encloseText_spells (ihLeft nameable.1) left.isOr (.inr ⟨_, .inl rfl⟩) joined
  | or left right ihLeft ihRight =>
    rw [render_or, words, append_assoc, append_assoc, append_assoc]
    have right := encloseText_spells (ihRight nameable.2) right.isAnd interrupts spells
    have mark : Spells ("||" ++ (byte ' ' :: _)) (.or :: _) := .mark (by decide) (.blank right)
    have joined : Spells (" || " ++ (encloseText _ _ ++ text)) (.or :: (enclose _ _ ++ later)) :=
      .blank mark
    exact encloseText_spells (ihLeft nameable.1) left.isAnd (.inr ⟨_, .inl rfl⟩) joined

end Constraint
end Build
end CaseExpansion
