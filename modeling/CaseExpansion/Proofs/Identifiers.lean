import CaseExpansion.Namespace
import CaseExpansion.Proofs.Text.Characters
import Mathlib.Data.List.Forall2

namespace CaseExpansion
namespace Identifier

open List

/-!
# Names and their identifiers

Every name has an identifier, the empty one apart, and an identifier is its own.  What an identifier is
depends on its bytes only: it is a word in ASCII that does not start with a digit and is not reserved.
Replacing the characters of a name gives a word.  One underscore in front is then enough, because an
underscore is no digit and no reserved word starts with one.

The identifier of a name is longer than the name has characters only by that underscore.  A malformed
byte counts as a character here (`Text.Utf8.Reads`).
-/

/-! ## Identifiers -/

/-- The byte is a decimal digit. -/
def IsDigit (code : UInt8) : Prop :=
  byte '0' ≤ code ∧ code ≤ byte '9'

instance isDigitDecidable : DecidablePred IsDigit :=
  fun _ => inferInstanceAs (Decidable (_ ∧ _))

/-- The byte is a letter, a digit or an underscore. -/
def IsWordByte (code : UInt8) : Prop :=
  (byte 'a' ≤ code ∧ code ≤ byte 'z') ∨ (byte 'A' ≤ code ∧ code ≤ byte 'Z') ∨ IsDigit code ∨
  code = byte '_'

/-- The text starts with a digit. -/
def StartsWithDigit (text : Bytes) : Prop :=
  ∃ code rest, text = code :: rest ∧ IsDigit code

/-- The text is a reserved word. -/
def IsReserved (text : Bytes) : Prop :=
  text ∈ Source.Token.keywords.map Prod.fst

/-- The text can be the name of a function. -/
structure IsIdentifier (text : Bytes) : Prop where
  nonempty : text ≠ []
  word : ∀ code ∈ text, IsWordByte code
  noDigit : ¬StartsWithDigit text
  notReserved : ¬IsReserved text

variable {text name : Bytes} {code : UInt8} {char : Char}

theorem needsMark_iff : needsMark text = true ↔ StartsWithDigit text ∨ IsReserved text := by
  have reserved : Source.Token.isKeyword text = true ↔ IsReserved text := by
    simp only [Source.Token.isKeyword, IsReserved, any_eq_true, mem_map, beq_iff_eq]
  cases text with
  | nil =>
    refine ⟨fun impossible => (by cases impossible), ?_⟩
    rintro (⟨_, _, impossible, _⟩ | isReserved)
    · cases impossible
    · exact absurd (reserved.mpr isReserved) (by decide +kernel)
  | cons code rest =>
    have digit : Bytes.isDigit code = true ↔ StartsWithDigit (code :: rest) := by
      rw [Bytes.isDigit, Bool.and_eq_true, decide_eq_true_eq, decide_eq_true_eq]
      constructor
      · intro isDigit
        exact ⟨code, rest, rfl, isDigit⟩
      · rintro ⟨_, _, ⟨⟩, isDigit⟩
        exact isDigit
    rw [needsMark, Bool.or_eq_true, digit, reserved]

/-! ## Characters and the bytes that stand for them -/

/-- What stands for a character in an identifier: the character itself, if it is one of those that words
are made of, and an underscore otherwise. -/
inductive Replaces : Char → UInt8 → Prop where
  | kept {char : Char} {code : UInt8} (spelled : Bytes.ofChar char = [code]) (isWord : IsWordByte code) :
      Replaces char code
  | foreign {char : Char} (other : ∀ code, IsWordByte code → Bytes.ofChar char ≠ [code]) :
      Replaces char (byte '_')

theorem isWordByte_iff :
    IsWordByte code ↔ (97 ≤ code.toNat ∧ code.toNat ≤ 122) ∨ (65 ≤ code.toNat ∧ code.toNat ≤ 90) ∨
      (48 ≤ code.toNat ∧ code.toNat ≤ 57) ∨ code.toNat = 95 := by
  simp only [IsWordByte, IsDigit, UInt8.le_iff_toNat_le, ← UInt8.toNat_inj]
  exact Iff.rfl

theorem isPart_iff :
    isPart char = true ↔ (97 ≤ char.toNat ∧ char.toNat ≤ 122) ∨ (65 ≤ char.toNat ∧ char.toNat ≤ 90) ∨
      (48 ≤ char.toNat ∧ char.toNat ≤ 57) ∨ char.toNat = 95 := by
  simp only [isPart, Bool.or_eq_true, Bool.and_eq_true, decide_eq_true_eq, beq_iff_eq, Char.le_def,
    UInt32.le_iff_toNat_le, ← Char.toNat_inj, or_assoc]
  exact Iff.rfl

theorem lt_of_isWordByte (isWord : IsWordByte code) : code < 0x80 := by
  rw [isWordByte_iff] at isWord
  rw [UInt8.lt_iff_toNat_lt]
  change code.toNat < 128
  omega

theorem spelled_of_isPart (isWord : isPart char = true) :
    Bytes.ofChar char = [byte char] ∧ IsWordByte (byte char) := by
  rw [isPart_iff] at isWord
  have same : (byte char).toNat = char.toNat := Nat.mod_eq_of_lt (by omega)
  refine ⟨Text.Quoted.ofChar_ascii (by omega), ?_⟩
  rw [isWordByte_iff, same]
  exact isWord

theorem isPart_of_spelled (spelled : Bytes.ofChar char = [code]) (isWord : IsWordByte code) :
    isPart char = true := by
  have plain := lt_of_isWordByte isWord
  rw [isWordByte_iff] at isWord
  have same : (Char.ofNat code.toNat).toNat = code.toNat := Text.Utf8.val_ofNat (.inl (by omega))
  rw [Text.Utf8.eq_ofNat_of_ofChar spelled plain, isPart_iff, same]
  exact isWord

theorem replaces_part (char : Char) : Replaces char (part char) := by
  rw [part]
  split
  next isWord =>
    rcases spelled_of_isPart isWord with ⟨spelled, isWordByte⟩
    exact .kept spelled isWordByte
  next notWord => exact .foreign fun _ isWord spelled => notWord (isPart_of_spelled spelled isWord)

theorem Replaces.isWordByte (replaces : Replaces char code) : IsWordByte code := by
  cases replaces with
  | kept _ isWord => exact isWord
  | foreign => exact .inr (.inr (.inr rfl))

/-! ## Words -/

/-- The bytes that stand for the characters of a name make up a word. -/
theorem isWordByte_of_mem_parts (member : code ∈ parts name) : IsWordByte code := by
  rcases mem_map.mp member with ⟨char, _, rfl⟩
  exact (replaces_part char).isWordByte

/-- In a word nothing is replaced. -/
theorem parts_of_word (word : ∀ code ∈ text, IsWordByte code) : parts text = text := by
  induction text with
  | nil => rfl
  | cons code rest ih =>
    rcases forall_mem_cons.mp word with ⟨isWord, others⟩
    have spelled := Text.Utf8.ofChar_one (lt_of_isWordByte isWord)
    have isWordToo := isPart_of_spelled spelled isWord
    have first := Text.Utf8.chars_ofChar_append (Char.ofNat code.toNat) rest
    rw [spelled, singleton_append] at first
    have kept : part (Char.ofNat code.toNat) = code := by
      rw [part, if_pos isWordToo]
      exact singleton_inj.mp ((spelled_of_isPart isWordToo).1.symm.trans spelled)
    rw [parts, first, map_cons, kept]
    exact congrArg (code :: ·) (ih others)

theorem parts_eq_nil_iff : parts name = [] ↔ name = [] := by
  rw [parts, map_eq_nil_iff]
  constructor
  · intro none
    have reads := Text.Utf8.reads_chars name
    rw [none] at reads
    cases reads
    rfl
  · rintro rfl
    rfl

/-! ## The identifier of a name -/

theorem ofName_of_needsMark (marked : needsMark (parts name) = true) :
    ofName name = byte '_' :: parts name :=
  if_pos marked

theorem ofName_of_not_needsMark (unmarked : ¬needsMark (parts name) = true) :
    ofName name = parts name :=
  if_neg unmarked

/-- An underscore in front of a word makes an identifier of it. -/
theorem isIdentifier_cons (word : ∀ code ∈ text, IsWordByte code) :
    IsIdentifier (byte '_' :: text) where
  nonempty := cons_ne_nil _ _
  word := forall_mem_cons.mpr ⟨.inr (.inr (.inr rfl)), word⟩
  noDigit := by
    rintro ⟨_, _, ⟨⟩, isDigit⟩
    exact absurd isDigit (by decide)
  notReserved := by
    intro isReserved
    have heads : ∀ word ∈ Source.Token.keywords.map Prod.fst, word.head? ≠ some (byte '_') :=
      by decide +kernel
    exact heads _ isReserved rfl

theorem isIdentifier_ofName (nonempty : name ≠ []) : IsIdentifier (ofName name) := by
  have word : ∀ code ∈ parts name, IsWordByte code := fun _ member => isWordByte_of_mem_parts member
  by_cases marked : needsMark (parts name) = true
  · rw [ofName_of_needsMark marked]
    exact isIdentifier_cons word
  · rw [ofName_of_not_needsMark marked]
    rw [needsMark_iff, not_or] at marked
    exact ⟨fun none => nonempty (parts_eq_nil_iff.mp none), word, marked.1, marked.2⟩

theorem ofName_nil : ofName [] = [] := rfl

theorem ofName_of_isIdentifier (identifier : IsIdentifier text) : ofName text = text := by
  have unmarked : ¬needsMark (parts text) = true := by
    rw [needsMark_iff, parts_of_word identifier.word]
    exact not_or.mpr ⟨identifier.noDigit, identifier.notReserved⟩
  rw [ofName_of_not_needsMark unmarked, parts_of_word identifier.word]

theorem ofName_eq_self_iff : ofName name = name ↔ name = [] ∨ IsIdentifier name := by
  constructor
  · intro fixed
    by_cases nonempty : name = []
    · exact .inl nonempty
    · exact .inr (fixed ▸ isIdentifier_ofName nonempty)
  · rintro (rfl | identifier)
    · exact ofName_nil
    · exact ofName_of_isIdentifier identifier

/-- The bytes that stand for the characters of a name are as many as the characters, and the identifier
has one more exactly if they are no identifier. -/
theorem length_ofName_iff :
    ((ofName name).length = (parts name).length + 1 ↔ StartsWithDigit (parts name) ∨
      IsReserved (parts name)) ∧
      ((ofName name).length = (parts name).length ↔
        ¬(StartsWithDigit (parts name) ∨ IsReserved (parts name))) := by
  rw [← needsMark_iff]
  by_cases marked : needsMark (parts name) = true
  · rw [ofName_of_needsMark marked, length_cons]
    exact ⟨iff_of_true rfl marked, iff_of_false (Nat.succ_ne_self _) (not_not.mpr marked)⟩
  · rw [ofName_of_not_needsMark marked]
    exact ⟨iff_of_false (Nat.succ_ne_self _).symm marked, iff_of_true rfl marked⟩

/-- A name has an identifier unless it is empty, and only identifiers and the empty name are left as they
are.  The identifier has as many bytes as the name has characters, and one more exactly if the name, with
its characters replaced, starts with a digit or is reserved. -/
theorem names_are_retracted_onto_identifiers (name : Bytes) :
    (ofName name = [] ↔ name = []) ∧ (name = [] ∨ IsIdentifier (ofName name)) ∧
      (ofName name = name ↔ name = [] ∨ IsIdentifier name) ∧ ofName (ofName name) = ofName name ∧
      ∃ characters replaced, (∀ others, Text.Utf8.Reads name others ↔ others = characters) ∧
        List.Forall₂ Replaces characters replaced ∧
        ((ofName name).length = characters.length + 1 ↔ StartsWithDigit replaced ∨ IsReserved replaced) ∧
        ((ofName name).length = characters.length ↔
          ¬(StartsWithDigit replaced ∨ IsReserved replaced)) := by
  have retracts : name = [] ∨ IsIdentifier (ofName name) := by
    by_cases empty : name = []
    · exact .inl empty
    · exact .inr (isIdentifier_ofName empty)
  refine ⟨?_, retracts, ofName_eq_self_iff, ?_, Text.Utf8.chars name, parts name, ?_, ?_, ?_⟩
  · constructor
    · exact fun none => retracts.resolve_right fun identifier => identifier.nonempty none
    · rintro rfl
      exact ofName_nil
  · rcases retracts with rfl | identifier
    · rfl
    · exact ofName_of_isIdentifier identifier
  · exact fun _ => Text.Utf8.reads_iff
  · exact forall₂_map_right_iff.mpr (forall₂_same.mpr fun char _ => replaces_part char)
  · have same : (parts name).length = (Text.Utf8.chars name).length := length_map _
    rw [← same]
    exact length_ofName_iff

example : ofName "99 bottles" = "_99_bottles" := by decide +kernel

end Identifier
end CaseExpansion
