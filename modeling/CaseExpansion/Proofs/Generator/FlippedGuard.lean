import CaseExpansion.Proofs.Build.Reading
import CaseExpansion.Proofs.Generator.GuardEdits

namespace CaseExpansion

open List Source

/-!
# The flipped guard

The generated file carries the constraint of its template with the tag negated.  Its
line is well-formed by its outer shape, and its expression means the template's with
the value of the tag turned around.  Whether the line can be read is another matter.
Negating cancels a negation only where the tag stands below it, so a doubled negation
elsewhere is written without its parentheses, and writing groups in parentheses may
pass the limit on operands.

The second half compares the two constraints as conditions of a build.  The template
and the generated file take part in the same build exactly under the assignments for
which the template's constraint holds whether the tag is set or not.
-/

namespace Build

open ConstraintReader (maxSize expression expressionText? singleLine? wordArguments?)

/-! ## The line of a constraint -/

namespace ConstraintReader

theorem singleLine?_of_not_mem {line : Bytes} (oneLine : byte '\n' ∉ line) :
    singleLine? line = some line := by
  have kept : Bytes.dropTail [byte '\n'] line = line := by
    unfold Bytes.dropTail
    cases cut : Bytes.cutTail? [byte '\n'] line with
    | none => rfl
    | some rest =>
      rw [Bytes.cutTail?_eq_some_iff.mp cut] at oneLine
      exact absurd (mem_append_right rest (mem_singleton_self _)) oneLine
  unfold singleLine?
  dsimp only
  rw [kept, if_neg]
  rw [contains_iff_mem]
  exact oneLine

/-- An expression is found again in the line that is written for it. -/
theorem expressionText?_append {text : Bytes} (snug : Text.Snug text) :
    expressionText? ("//go:build " ++ text) = some text := by
  have word : Text.Snug "//go:build" :=
    ⟨_, Text.Spelled.ofAscii _ (Text.Utf8.ascii_of_all (by decide)), by decide, ⟨_, rfl, by decide⟩, _,
     rfl, by decide⟩
  have blank : Text.Unbroken " " :=
    ⟨_, Text.Spelled.ofAscii _ (Text.Utf8.ascii_of_all (by decide)), by decide⟩
  have line : Text.Snug ("//go:build " ++ text) := word.join blank snug
  have cut : Bytes.cutLead? "//go:build" ("//go:build " ++ text) = some (byte ' ' :: text) :=
    Bytes.cutLead?_eq_some_iff.mpr rfl
  unfold expressionText?
  rw [singleLine?_of_not_mem line.unbroken.not_mem]
  simp only [bind, Option.bind]
  rw [if_pos (by rw [Bytes.startsWith, cut]; rfl), line.trim_eq]
  unfold wordArguments?
  rw [cut]
  simp only [bind, Option.bind]
  rw [snug.trim_blank, if_pos]
  rw [Bool.or_eq_true, decide_eq_true_eq]
  exact .inr (Nat.lt_succ_self _)

end ConstraintReader

namespace Constraint

theorem snug_encloseText {text : Bytes} (snug : Text.Snug text) (inside : Bool) :
    Text.Snug (encloseText inside text) := by
  cases inside with
  | false => exact snug
  | true =>
    have opened : Text.Snug "(" :=
      ⟨_, Text.Spelled.ofAscii _ (Text.Utf8.ascii_of_all (by decide)), by decide, ⟨_, rfl, by decide⟩, _,
       rfl, by decide⟩
    have closed : Text.Snug ")" :=
      ⟨_, Text.Spelled.ofAscii _ (Text.Utf8.ascii_of_all (by decide)), by decide, ⟨_, rfl, by decide⟩, _,
       rfl, by decide⟩
    exact (opened.append snug).append closed

theorem snug_of_isName {name : Bytes} (isName : ConstraintToken.IsName name) : Text.Snug name := by
  rcases isName with ⟨glyphs, spelled, nonempty, allTag⟩
  have solid {glyph : Text.Glyph} (member : glyph ∈ glyphs) : Text.isBlank glyph.char = false := by
    rw [Bool.eq_false_iff]
    intro blank
    have isTag := allTag glyph member
    rw [ConstraintToken.isTagChar_of_isBlank blank] at isTag
    cases isTag
  refine ⟨glyphs, spelled, fun glyph member isBreak => ?_, ?_, ?_⟩
  · have := solid member
    rw [isBreak] at this
    exact absurd this (by decide)
  · exact ⟨_, head?_eq_some_head nonempty, solid (head_mem nonempty)⟩
  · exact ⟨_, getLast?_eq_some_getLast nonempty, solid (getLast_mem nonempty)⟩

variable {constraint : Constraint}

theorem snug_render (nameable : constraint.Nameable) : Text.Snug constraint.render := by
  induction constraint with
  | tag name => exact snug_of_isName nameable
  | not operand ih =>
    have mark : Text.Snug "!" :=
      ⟨_, Text.Spelled.ofAscii _ (Text.Utf8.ascii_of_all (by decide)), by decide, ⟨_, rfl, by decide⟩, _,
       rfl, by decide⟩
    rw [render_not]
    exact mark.append (snug_encloseText (ih nameable) _)
  | and left right ihLeft ihRight =>
    have mark : Text.Unbroken " && " :=
      ⟨_, Text.Spelled.ofAscii _ (Text.Utf8.ascii_of_all (by decide)), by decide⟩
    rw [render_and]
    exact (snug_encloseText (ihLeft nameable.1) _).join mark
      (snug_encloseText (ihRight nameable.2) _)
  | or left right ihLeft ihRight =>
    have mark : Text.Unbroken " || " :=
      ⟨_, Text.Spelled.ofAscii _ (Text.Utf8.ascii_of_all (by decide)), by decide⟩
    rw [render_or]
    exact (snug_encloseText (ihLeft nameable.1) _).join mark
      (snug_encloseText (ihRight nameable.2) _)

theorem parse_line (nameable : constraint.Nameable) :
    parse ("//go:build " ++ constraint.render) = expression constraint.render := by
  unfold parse
  rw [ConstraintReader.expressionText?_append (snug_render nameable)]

theorem nameable_of_parse {line : Bytes} (isLine : isExpressionLine line = true)
    (parsed : parse line = .ok constraint) : constraint.Nameable := by
  rcases Option.isSome_iff_exists.mp isLine with ⟨text, isText⟩
  unfold parse at parsed
  rw [isText] at parsed
  exact ConstraintReader.nameable_of_expression parsed

/-! ## Negating a tag -/

theorem negate_eq_self {wanted : Bytes} (absent : constraint.mentions wanted = false) :
    constraint.negate wanted = (constraint, false) := by
  induction constraint with
  | tag name =>
    rw [mentions, beq_eq_false_iff_ne] at absent
    rw [negate, if_neg absent]
  | not operand ih =>
    rw [negate, ih absent]
    cases operand <;> rfl
  | and left right ihLeft ihRight =>
    rw [mentions, Bool.or_eq_false_iff] at absent
    rw [negate, ihLeft absent.1, ihRight absent.2]
    rfl
  | or left right ihLeft ihRight =>
    rw [mentions, Bool.or_eq_false_iff] at absent
    rw [negate, ihLeft absent.1, ihRight absent.2]
    rfl

/-- Negating a tag below a negation leaves no other negation right below. -/
theorem negate_not_ne {inner : Constraint} {wanted : Bytes}
    (negated : constraint.negate wanted = (.not inner, true)) : inner.isNot = false := by
  induction constraint generalizing inner with
  | tag name =>
    rw [negate] at negated
    split at negated
    next => cases negated; rfl
    next => cases negated
  | not operand ih =>
    rw [negate] at negated
    split at negated
    next deeper below =>
      cases negated
      exact absurd (ih below) Bool.noConfusion
    next below found other =>
      cases negated
      cases inner with
      | not innermost => exact (found innermost rfl rfl).elim
      | tag _ => rfl
      | and _ _ => rfl
      | or _ _ => rfl
  | and left right => cases negated
  | or left right => cases negated

theorem nameable_negate (nameable : constraint.Nameable) (wanted : Bytes) :
    (constraint.negate wanted).1.Nameable := by
  induction constraint with
  | tag name =>
    rw [negate]
    split
    next => exact nameable
    next => exact nameable
  | not operand ih =>
    have below := ih nameable
    rw [negate]
    split
    next isNegated =>
      rw [isNegated] at below
      exact below
    next isNegated =>
      rw [isNegated] at below
      exact below
  | and left right ihLeft ihRight =>
    exact ⟨ihLeft nameable.1, ihRight nameable.2⟩
  | or left right ihLeft ihRight =>
    exact ⟨ihLeft nameable.1, ihRight nameable.2⟩

/-- Whether every negation that stands right under another one has the tag below it. -/
def cancels (wanted : Bytes) : Constraint → Bool
  | .tag _ => true
  | .not operand => (!operand.isNot || operand.mentions wanted) && operand.cancels wanted
  | .and left right => left.cancels wanted && right.cancels wanted
  | .or left right => left.cancels wanted && right.cancels wanted

/-- Negating a tag gives a constraint without doubled negations exactly if the doubled
negations all had the tag below them. -/
theorem singlyNegated_negate (constraint : Constraint) (wanted : Bytes) :
    (constraint.negate wanted).1.singlyNegated = constraint.cancels wanted := by
  induction constraint with
  | tag name =>
    rw [negate]
    split
    next => rfl
    next => rfl
  | not operand ih =>
    have found := operand.negate_snd wanted
    rw [cancels, ← ih]
    cases mentioned : operand.mentions wanted with
    | false =>
      have wholeKept : (not operand).negate wanted = (not operand, false) := negate_eq_self mentioned
      rw [wholeKept, negate_eq_self mentioned, Bool.or_false]
      rfl
    | true =>
      rw [mentioned] at found
      rw [negate, Bool.or_true, Bool.true_and]
      split
      next inner isNegated =>
        rw [isNegated, singlyNegated, negate_not_ne isNegated]
        rfl
      next result isFound notNegation isNegated =>
        rw [isNegated] at found ⊢
        have plain : result.isNot = false := by
          cases result with
          | not inner => exact (notNegation inner rfl found).elim
          | tag _ => rfl
          | and _ _ => rfl
          | or _ _ => rfl
        rw [singlyNegated, plain]
        rfl
  | and left right ihLeft ihRight =>
    rw [cancels, ← ihLeft, ← ihRight]
    rfl
  | or left right ihLeft ihRight =>
    rw [cancels, ← ihLeft, ← ihRight]
    rfl

/-- The assignment with the value of one tag turned around. -/
def inverted (wanted : Bytes) (isSet : Bytes → Bool) : Bytes → Bool :=
  fun name => if name = wanted then !isSet name else isSet name

/-- The assignment with the value of one tag given. -/
def assigned (wanted : Bytes) (value : Bool) (isSet : Bytes → Bool) : Bytes → Bool :=
  fun name => if name = wanted then value else isSet name

theorem assigned_self (wanted : Bytes) (isSet : Bytes → Bool) :
    assigned wanted (isSet wanted) isSet = isSet := by
  funext name
  unfold assigned
  split
  next same => rw [same]
  next => rfl

theorem inverted_eq_assigned (wanted : Bytes) (isSet : Bytes → Bool) :
    inverted wanted isSet = assigned wanted (!isSet wanted) isSet := by
  funext name
  unfold inverted assigned
  split
  next same => rw [same]
  next => rfl

/-- A constraint and the one with the tag negated hold together under an assignment
exactly if the constraint holds there whether the tag is set or not. -/
theorem holds_and_holds_negate (constraint : Constraint) (wanted : Bytes) (isSet : Bytes → Bool) :
    (constraint.holds isSet = true ∧ (constraint.negate wanted).1.holds isSet = true) ↔
      constraint.holds (assigned wanted true isSet) = true ∧
        constraint.holds (assigned wanted false isSet) = true := by
  have turned : (constraint.negate wanted).1.holds isSet =
      constraint.holds (assigned wanted (!isSet wanted) isSet) := by
    rw [← inverted_eq_assigned]
    exact constraint.holds_negate wanted isSet
  have same : constraint.holds isSet = constraint.holds (assigned wanted (isSet wanted) isSet) := by
    rw [assigned_self]
  rw [turned, same]
  cases isSet wanted with
  | true => exact Iff.rfl
  | false => exact and_comm

/-- What is read from the line of a flipped constraint, and when anything is. -/
theorem parse_negate (nameable : constraint.Nameable) (wanted : Bytes) :
    ((∃ written, parse ("//go:build " ++ (constraint.negate wanted).1.render) = .ok written) ↔
      constraint.cancels wanted = true ∧ (constraint.negate wanted).1.operands ≤ maxSize) ∧
    ∀ written, parse ("//go:build " ++ (constraint.negate wanted).1.render) = .ok written →
      ∀ isSet, written.holds isSet = (constraint.negate wanted).1.holds isSet := by
  have negatedNameable := nameable_negate nameable wanted
  have read := ConstraintReader.expression_render negatedNameable
  rw [parse_line negatedNameable, ← singlyNegated_negate]
  by_cases fits : (constraint.negate wanted).1.singlyNegated = true ∧
      (constraint.negate wanted).1.operands ≤ maxSize
  · rcases read.1 fits with ⟨result, isRead, means⟩
    rw [isRead]
    refine ⟨⟨fun _ => fits, fun _ => ⟨result, rfl⟩⟩, fun written same => ?_⟩
    cases same
    exact means
  · rcases read.2 fits with ⟨error, isError⟩
    rw [isError]
    refine ⟨⟨fun impossible => ?_, fun isFit => absurd isFit fits⟩,
      fun _ impossible => by cases impossible⟩
    rcases impossible with ⟨_, impossible⟩
    cases impossible

end Constraint
end Build

namespace Guard

open Build (Constraint ConstraintReader.maxSize)
open Build.Constraint (parse isExpressionLine inverted assigned)

/-! ## The guard that is written -/

variable {place : Nat → Position} {tag : Bytes} {comment : Comment} {edit : Edit}

theorem exists_edit_of_commentEdit {change : Option Edit}
    (changed : commentEdit place tag comment = .ok (change, true)) :
    isExpressionLine comment.text = true ∧ ∃ edit, change = some edit := by
  unfold commentEdit at changed
  split at changed
  next isLine =>
    refine ⟨isLine, ?_⟩
    split at changed
    next => cases changed
    next =>
      split at changed
      next =>
        cases changed
        exact ⟨_, rfl⟩
      next => cases changed
  next =>
    split at changed
    next => cases changed
    next => cases changed

/-- A change that meets the tag writes the constraint with the tag negated. -/
theorem commentEdit_eq_flip (changed : commentEdit place tag comment = .ok (some edit, true)) :
    ∃ constraint, parse comment.text = .ok constraint ∧ constraint.Nameable ∧
      constraint.mentions tag = true ∧
      edit = ⟨comment.offset, comment.stop, "//go:build " ++ (constraint.negate tag).1.render⟩ := by
  have isLine := (exists_edit_of_commentEdit changed).1
  rcases (commentEdit_eq_ok changed edit).mp rfl with
    ⟨_, constraint, parsed, mentions, isEdit⟩ | ⟨notLine, _⟩
  · exact ⟨constraint, parsed, Build.Constraint.nameable_of_parse isLine parsed, mentions, isEdit⟩
  · rw [isLine] at notLine
    cases notLine

/-- A constraint that is accepted with the tag is written as a line that can be read
exactly if each doubled negation has the tag below it and the written operands stay
within the limit.  What is read then holds when the constraint of the template holds
with the tag turned around. -/
theorem flipped_guard_is_read_iff (changed : commentEdit place tag comment = .ok (some edit, true)) :
    ∃ constraint, parse comment.text = .ok constraint ∧
      ((∃ written, parse edit.text = .ok written) ↔
        constraint.cancels tag = true ∧ (constraint.negate tag).1.operands ≤
          Build.ConstraintReader.maxSize) ∧
      ∀ written, parse edit.text = .ok written →
        ∀ isSet, written.holds isSet = constraint.holds (inverted tag isSet) := by
  rcases commentEdit_eq_flip changed with ⟨constraint, parsed, nameable, _, rfl⟩
  have read := Build.Constraint.parse_negate nameable tag
  refine ⟨constraint, parsed, read.1, fun written isWritten isSet => ?_⟩
  rw [read.2 written isWritten]
  exact constraint.holds_negate tag isSet

theorem flipped_guard_of_nested_groups_is_read :
    commentEdit (fun _ => default) "casegen" ⟨0, "//go:build !(!(casegen && linux)) || cgo"⟩ =
      .ok (some ⟨0, 40, "//go:build (!casegen && linux) || cgo"⟩, true) ∧
    ∃ written, parse "//go:build (!casegen && linux) || cgo" = .ok written ∧
      ∀ isSet, written.holds isSet =
        ((!isSet "casegen" && isSet "linux") || isSet "cgo") := by
  have changed : commentEdit (fun _ => default) "casegen"
      ⟨0, "//go:build !(!(casegen && linux)) || cgo"⟩ =
      .ok (some ⟨0, 40, "//go:build (!casegen && linux) || cgo"⟩, true) := by
    decide +kernel
  have original : parse "//go:build !(!(casegen && linux)) || cgo" =
      .ok (.or (.not (.not (.and (.tag "casegen") (.tag "linux")))) (.tag "cgo")) := by
    decide +kernel
  rcases flipped_guard_is_read_iff changed with ⟨constraint, parsed, readable, means⟩
  cases original.symm.trans parsed
  rcases readable.mpr ⟨by decide +kernel, by decide +kernel⟩ with ⟨written, isWritten⟩
  refine ⟨changed, written, isWritten, fun isSet => ?_⟩
  rw [means written isWritten isSet]
  simp only [Build.Constraint.holds, Bool.not_not]
  rfl

theorem flipped_double_negation_is_rejected :
    commentEdit (fun _ => default) "casegen" ⟨0, "//go:build casegen && !(!linux)"⟩ =
      .ok (some ⟨0, 31, "//go:build !casegen && !!linux"⟩, true) ∧
    parse "//go:build !casegen && !!linux" = .error .doubleNegation := by
  constructor
  · decide +kernel
  · decide +kernel

/-! ## Builds with both files -/

/-- The comment has a constraint with the tag, and the change flips it. -/
structure Flips (source : ParsedFile) (tag : Bytes) (changes : List Edit) (comment : Comment)
    (edit : Edit) : Prop where
  isHead : comment ∈ headComments source.file
  isChange : edit ∈ changes
  changed : commentEdit source.place tag comment = .ok (some edit, true)

theorem exists_flips_of_edits {source : ParsedFile} {changes : List Edit}
    (guarded : edits source tag = .ok changes) :
    ∃ comment edit, Flips source tag changes comment edit := by
  rcases exists_commentEdits guarded with ⟨each, mapped, meets, rfl⟩
  rcases any_eq_true.mp meets with ⟨change, isChange, isMet⟩
  rcases exists_left_of_forall₂ (mapM_eq_ok mapped) isChange with ⟨comment, isHead, changed⟩
  rcases change with ⟨edit?, isMet⟩
  cases isMet
  rcases (exists_edit_of_commentEdit changed).2 with ⟨edit, rfl⟩
  exact ⟨comment, edit, isHead, mem_filterMap.mpr ⟨_, isChange, rfl⟩, changed⟩

/-- The template and the generated file take part in one build exactly under the
assignments for which the template's constraint holds whether the tag is set or not.  They
never do exactly if there is no such assignment. -/
theorem guards_hold_together_iff {source : ParsedFile} {changes : List Edit}
    (guarded : edits source tag = .ok changes)
    (single : ∀ other ∈ headComments source.file, isExpressionLine other.text = true → other = comment) :
    ∃ constraint edit, parse comment.text = .ok constraint ∧ edit ∈ changes ∧
      edit = ⟨comment.offset, comment.stop, "//go:build " ++ (constraint.negate tag).1.render⟩ ∧
      (∀ written, parse edit.text = .ok written →
        ∀ isSet, written.holds isSet = (constraint.negate tag).1.holds isSet) ∧
      (∀ isSet, (constraint.holds isSet = true ∧ (constraint.negate tag).1.holds isSet = true) ↔
        constraint.holds (assigned tag true isSet) = true ∧
          constraint.holds (assigned tag false isSet) = true) ∧
      ((∀ isSet, ¬ (constraint.holds isSet = true ∧ (constraint.negate tag).1.holds isSet = true)) ↔
        ∀ isSet, ¬ (constraint.holds (assigned tag true isSet) = true ∧
          constraint.holds (assigned tag false isSet) = true)) := by
  rcases exists_flips_of_edits guarded with ⟨other, edit, isHead, isEdit, changed⟩
  cases single other isHead (exists_edit_of_commentEdit changed).1
  rcases commentEdit_eq_flip changed with ⟨constraint, parsed, nameable, _, rfl⟩
  have together := constraint.holds_and_holds_negate tag
  refine ⟨constraint, _, parsed, isEdit, rfl, (Build.Constraint.parse_negate nameable tag).2,
    together, ?_⟩
  exact forall_congr' fun isSet => not_congr (together isSet)

/-- A file whose guard requires the tag. -/
def requiringFile : Bytes :=
  "//go:build linux && casegen\n\npackage p\n"

theorem guards_of_requiring_file_exclude_each_other :
    ∃ source changes template, parseFile "x.go" requiringFile = .ok source ∧
      edits source "casegen" = .ok changes ∧ parse "//go:build linux && casegen" = .ok template ∧
      ∃ edit ∈ changes, ∀ written, parse edit.text = .ok written →
        ∀ isSet, ¬ (template.holds isSet = true ∧ written.holds isSet = true) := by
  have checked : (parseFile "x.go" requiringFile).toOption.any (fun source =>
      (edits source "casegen").toOption.isSome &&
        decide (headComments source.file = [⟨0, "//go:build linux && casegen"⟩])) = true := by
    decide +kernel
  have original : parse "//go:build linux && casegen" = .ok (.and (.tag "linux") (.tag "casegen")) := by
    decide +kernel
  rcases exists_ok_of_any checked with ⟨source, parsed, passes⟩
  rw [Bool.and_eq_true, decide_eq_true_eq] at passes
  cases guarded : edits source "casegen" with
  | error error =>
    rw [guarded] at passes
    cases passes.1
  | ok changes =>
    have single : ∀ other ∈ headComments source.file, isExpressionLine other.text = true →
        other = ⟨0, "//go:build linux && casegen"⟩ := by
      intro other isHead _
      rw [passes.2] at isHead
      exact mem_singleton.mp isHead
    rcases guards_hold_together_iff guarded single with
      ⟨constraint, edit, isConstraint, isEdit, _, means, _, never⟩
    cases original.symm.trans isConstraint
    refine ⟨source, changes, _, parsed, guarded, original, edit, isEdit,
      fun written isWritten isSet => ?_⟩
    rw [means written isWritten]
    refine never.mpr (fun isSet holds => ?_) isSet
    exact Bool.false_ne_true ((Bool.and_eq_true ..).mp holds.2).2

/-- A template file whose guard holds without the tag on one system. -/
def alternativeFile : Bytes :=
  "//go:build casegen || linux\n\npackage p\n\n//casegen:case 1; \"a\"\nfunc f(n int) \x7b\n\tg(n)\n\x7d\n"

theorem guards_of_alternative_file_hold_together :
    ∃ source changes template written, parseFile "x.go" alternativeFile = .ok source ∧
      edits source "casegen" = .ok changes ∧
      (headComments source.file).map Comment.text = [Bytes.ofString "//go:build casegen || linux"] ∧
      changes.map Edit.text = [Bytes.ofString "//go:build !casegen || linux"] ∧
      parse "//go:build casegen || linux" = .ok template ∧
      parse "//go:build !casegen || linux" = .ok written ∧
      template.holds (· == "linux") = true ∧ written.holds (· == "linux") = true := by
  have checked : (parseFile "x.go" alternativeFile).toOption.any (fun source =>
      decide ((headComments source.file).map Comment.text =
        [Bytes.ofString "//go:build casegen || linux"]) &&
        (edits source "casegen").toOption.any fun changes =>
          decide (changes.map Edit.text = [Bytes.ofString "//go:build !casegen || linux"])) = true := by
    decide +kernel
  rcases exists_ok_of_any checked with ⟨source, parsed, passes⟩
  rw [Bool.and_eq_true, decide_eq_true_eq] at passes
  rcases exists_ok_of_any passes.2 with ⟨changes, guarded, written⟩
  refine ⟨source, changes, .or (.tag "casegen") (.tag "linux"), .or (.not (.tag "casegen"))
    (.tag "linux"), parsed, guarded, passes.1, of_decide_eq_true written, ?_, ?_, ?_, ?_⟩
  · decide +kernel
  · decide +kernel
  · decide +kernel
  · decide +kernel

end Guard
end CaseExpansion
