import Mathlib.Data.List.DropRight
import Mathlib.Data.List.Induction
import CaseExpansion.Generator.Expansion
import CaseExpansion.Proofs.Template.Expanding

namespace CaseExpansion

open List Source
open Directive (isDirective)

/-!
# The lines of a doc comment

A doc comment is the longest run of lines without a directive, then the longest run of
directives, then the rest.  `DocParts.ofDoc` cuts it there in one go.  The same parts come out
when the lines are taken one after the other and only the phase that has been reached decides
what becomes of the next one.  `DocScan` reads in this way.  It has to look up the line that
ended the directives whenever a later directive is rejected, and a lookup may fail; `step?_late`
says that it does not, because the scan is then past that line.
-/

/-! ## Longest runs -/

/-- Some elements are the longest run at the start of a list of which all elements pass. -/
structure IsLongestRun {α : Type} (passes : α → Prop) (run whole : List α) : Prop where
  starts : run <+: whole
  passed : ∀ element ∈ run, passes element
  longest : ∀ other, other <+: whole → (∀ element ∈ other, passes element) → other.length ≤ run.length

theorem isLongestRun_iff {α : Type} {test : α → Bool} {run whole : List α} :
    IsLongestRun (fun element => test element = true) run whole ↔ run = whole.takeWhile test := by
  constructor
  · rintro ⟨⟨rest, rfl⟩, passed, longest⟩
    rw [takeWhile_append_of_pos passed]
    have further := longest (run ++ rest.takeWhile test)
      ((prefix_append_right_inj run).mpr (List.takeWhile_prefix test)) ?_
    · rw [length_append] at further
      rw [eq_nil_of_length_eq_zero (show (rest.takeWhile test).length = 0 by omega), append_nil]
    · intro element member
      rcases mem_append.mp member with isFirst | isLater
      · exact passed element isFirst
      · exact mem_takeWhile_imp isLater
  · rintro rfl
    refine ⟨List.takeWhile_prefix test, fun element member => mem_takeWhile_imp member, ?_⟩
    rintro other ⟨rest, rfl⟩ passed
    rw [takeWhile_append_of_pos passed, length_append]
    omega

namespace DocParts

/-- The parts are those of the given doc comment. -/
structure Splits (parts : DocParts) (doc : List Comment) : Prop where
  whole : doc = parts.lead ++ (parts.directives ++ parts.trailing)
  lead : IsLongestRun (fun line : Comment => isDirective line.text = false) parts.lead doc
  directives : IsLongestRun (fun line : Comment => isDirective line.text = true)
    parts.directives (parts.directives ++ parts.trailing)

variable {doc : List Comment}

/-- A doc comment has exactly one set of parts. -/
theorem splits_iff {parts : DocParts} : parts.Splits doc ↔ parts = ofDoc doc := by
  have plainRun {run whole : List Comment} :
      IsLongestRun (fun line : Comment => isDirective line.text = false) run whole ↔
        run = whole.takeWhile fun line => !isDirective line.text := by
    rw [← isLongestRun_iff]
    simp only [Bool.not_eq_true']
  constructor
  · rintro ⟨whole, lead, directives⟩
    have isLead := plainRun.mp lead
    have isRun := isLongestRun_iff.mp directives
    have rest : parts.lead ++ doc.dropWhile (fun line => !isDirective line.text) =
        parts.lead ++ (parts.directives ++ parts.trailing) := by
      rw [← whole]
      nth_rewrite 1 [isLead]
      exact takeWhile_append_dropWhile
    have later : parts.directives ++
        (parts.directives ++ parts.trailing).dropWhile (fun line => isDirective line.text) =
        parts.directives ++ parts.trailing := by
      nth_rewrite 1 [isRun]
      exact takeWhile_append_dropWhile
    unfold ofDoc
    dsimp only
    rw [append_cancel_left rest, append_cancel_left later, ← isLead, ← isRun]
  · rintro rfl
    have rest := takeWhile_append_dropWhile (p := fun line : Comment => isDirective line.text)
      (l := doc.dropWhile fun line => !isDirective line.text)
    refine ⟨(append_ofDoc doc).symm, plainRun.mpr rfl, isLongestRun_iff.mpr ?_⟩
    exact congrArg (List.takeWhile fun line : Comment => isDirective line.text) rest.symm

/-- The line that ends the directives is none. -/
theorem isDirective_of_head?_trailing {first : Comment}
    (isFirst : (ofDoc doc).trailing.head? = some first) : isDirective first.text = false := by
  have ends := head?_dropWhile_not (fun comment : Comment => isDirective comment.text)
    (doc.dropWhile fun comment => !isDirective comment.text)
  have isHead : ((doc.dropWhile fun comment => !isDirective comment.text).dropWhile
      fun comment => isDirective comment.text).head? = some first := isFirst
  rw [isHead] at ends
  exact ends

theorem ofDoc_cons_of_plain {first : Comment} (plain : isDirective first.text = false)
    (doc : List Comment) :
    ofDoc (first :: doc) = { ofDoc doc with lead := first :: (ofDoc doc).lead } := by
  simp [ofDoc, plain]

theorem ofDoc_cons_of_directive {first : Comment} (directive : isDirective first.text = true)
    (doc : List Comment) :
    ofDoc (first :: doc) = ⟨[], first :: doc.takeWhile fun comment => isDirective comment.text,
      doc.dropWhile fun comment => isDirective comment.text⟩ := by
  simp [ofDoc, directive]

/-- A doc comment without directives is all lead. -/
theorem ofDoc_of_plain (plain : (doc.any fun comment => isDirective comment.text) = false) :
    ofDoc doc = ⟨doc, [], []⟩ := by
  induction doc with
  | nil => rfl
  | cons first doc ih =>
    rw [any_cons, Bool.or_eq_false_iff] at plain
    rw [ofDoc_cons_of_plain plain.1, ih plain.2]

/-- Without directives that count there is nothing after them. -/
theorem trailing_eq_nil (none : (ofDoc doc).directives = []) : (ofDoc doc).trailing = [] := by
  have plain : (doc.any fun comment => isDirective comment.text) = false := by
    rw [← Bool.not_eq_true]
    exact fun directive => directives_ne_nil directive none
  rw [ofDoc_of_plain plain]

/-- The parts with one more line at the end of the doc comment. -/
def extend (parts : DocParts) (line : Comment) : DocParts :=
  if isDirective line.text then
    if parts.trailing.isEmpty then { parts with directives := parts.directives ++ [line] }
    else { parts with trailing := parts.trailing ++ [line] }
  else if parts.directives.isEmpty then { parts with lead := parts.lead ++ [line] }
  else { parts with trailing := parts.trailing ++ [line] }

theorem ofDoc_append_singleton (doc : List Comment) (line : Comment) :
    ofDoc (doc ++ [line]) = (ofDoc doc).extend line := by
  induction doc with
  | nil => cases kind : isDirective line.text <;> simp [ofDoc, extend, kind]
  | cons first doc ih =>
    rw [cons_append]
    cases isFirst : isDirective first.text with
    | false =>
      rw [ofDoc_cons_of_plain isFirst, ofDoc_cons_of_plain isFirst, ih]
      unfold extend
      split_ifs <;> rfl
    | true =>
      rw [ofDoc_cons_of_directive isFirst, ofDoc_cons_of_directive isFirst]
      by_cases all : ∀ comment ∈ doc, isDirective comment.text = true
      · rw [takeWhile_append_of_pos all, dropWhile_append_of_pos all,
          takeWhile_eq_self_iff.mpr all, dropWhile_eq_nil_iff.mpr all]
        cases kind : isDirective line.text <;> simp [extend, kind]
      · have short : ¬(doc.takeWhile fun comment => isDirective comment.text).length = doc.length :=
          fun same =>
          all (takeWhile_eq_self_iff.mp ((List.takeWhile_prefix _).eq_of_length same))
        have ended : ¬(doc.dropWhile fun comment => isDirective comment.text).isEmpty = true := by
          rwa [List.isEmpty_iff, dropWhile_eq_nil_iff]
        rw [takeWhile_append, if_neg short, dropWhile_append, if_neg ended]
        simp [extend, ended]

/-- How far the lines of a doc comment have been read. -/
inductive Phase where
  | lead
  | directives
  | trailing
deriving DecidableEq, Repr

/-- The phase in which the parts end. -/
def phase (parts : DocParts) : Phase :=
  if parts.directives.isEmpty then .lead
  else if parts.trailing.isEmpty then .directives
  else .trailing

end DocParts

/-! ## Line by line -/

/-- What has been gathered from the lines of a doc comment so far. -/
structure DocScan where
  phase : DocParts.Phase := .lead
  lead : List Bytes := []
  items : List Template.Item := []
  trailing : List Bytes := []
  misordered : List Comment := []
  errors : List Error := []

namespace DocScan

/-- Adds what a directive gave, or its error. -/
def take (scan : DocScan) : Except Error Template.Item → DocScan
  | .ok item => { scan with phase := .directives, items := scan.items ++ [item] }
  | .error error => { scan with phase := .directives, errors := scan.errors ++ [error] }

/-- Takes one more line.  There is no result if the line that ended the directives is looked up
and there is none. -/
def step? (place : Nat → Position) (strict : Bool) (scan : DocScan) (line : Comment) : Option DocScan :=
  if isDirective line.text then
    if scan.phase ≠ .trailing then some (scan.take (Template.readItem place line))
    else if strict then
      scan.trailing[0]?.map fun remark =>
        { scan with errors := scan.errors ++ [⟨place line.offset, .afterRemark remark⟩] }
    else some { scan with
      misordered := scan.misordered ++ [line], trailing := scan.trailing ++ [line.text] }
  else if scan.phase = .lead then some { scan with lead := scan.lead ++ [line.text] }
  else some { scan with phase := .trailing, trailing := scan.trailing ++ [line.text] }

/-- Takes all lines of a doc comment. -/
def run? (place : Nat → Position) (strict : Bool) (doc : List Comment) : Option DocScan :=
  doc.foldlM (step? place strict) {}

/-- What is gathered from lines with the given parts.  A strict reading does not keep the
directives that it rejects. -/
def ofParts (place : Nat → Position) (strict : Bool) (parts : DocParts) : DocScan where
  phase := parts.phase
  lead := parts.lead.map Comment.text
  items := (outcomes (parts.directives.map (Template.readItem place))).1
  trailing := (parts.trailing.filter fun line => !(strict && isDirective line.text)).map Comment.text
  misordered := if strict then [] else parts.misordered
  errors := (outcomes (parts.directives.map (Template.readItem place))).2 ++
    if strict then Template.orderErrors place parts .afterRemark else []

end DocScan

theorem outcomes_append {α : Type} (first second : List (Except Error α)) :
    outcomes (first ++ second) =
      ((outcomes first).1 ++ (outcomes second).1, (outcomes first).2 ++ (outcomes second).2) := by
  unfold outcomes
  rw [filterMap_append, filterMap_append]

namespace DocScan

variable {place : Nat → Position} {strict : Bool} {parts : DocParts} {line : Comment}

theorem step?_directive (directive : isDirective line.text = true) (none : parts.trailing = []) :
    step? place strict (ofParts place strict parts) line =
      some (ofParts place strict { parts with directives := parts.directives ++ [line] }) := by
  have notTrailing : (ofParts place strict parts).phase ≠ .trailing := by
    unfold ofParts DocParts.phase
    rw [none]
    cases parts.directives.isEmpty <;> simp
  rw [step?, if_pos directive, if_pos notTrailing]
  simp only [ofParts, DocParts.phase, none, map_append, outcomes_append, DocParts.misordered,
    Template.orderErrors]
  cases read : Template.readItem place line <;> cases strict <;>
    simp [take, outcomes, read]

/-- A directive among the trailing lines is rejected or kept like them.  The lookup of a strict
reading succeeds, since the line that ended the directives is no directive and has been kept. -/
theorem step?_late {first : Comment} (directive : isDirective line.text = true)
    (some : parts.directives ≠ []) (isFirst : parts.trailing.head? = .some first)
    (plain : isDirective first.text = false) :
    step? place strict (ofParts place strict parts) line =
      .some (ofParts place strict { parts with trailing := parts.trailing ++ [line] }) := by
  rcases parts with ⟨lead, directives, trailing⟩
  cases directives with
  | nil => exact absurd rfl some
  | cons item directives =>
    cases trailing with
    | nil => cases isFirst
    | cons ending rest =>
      cases isFirst
      have isTrailing : ¬ (ofParts place strict ⟨lead, item :: directives, first :: rest⟩).phase ≠
          .trailing :=
        fun impossible => impossible rfl
      rw [step?, if_pos directive, if_neg isTrailing]
      cases strict with
      | true =>
        simp [ofParts, DocParts.phase, Template.orderErrors, DocParts.misordered, DocParts.remark, plain,
          directive]
      | false =>
        simp [ofParts, DocParts.phase, DocParts.misordered, plain, directive]

/-- A line before the first directive belongs to the lead. -/
theorem step?_lead (plain : isDirective line.text = false) (none : parts.directives = []) :
    step? place strict (ofParts place strict parts) line =
      some (ofParts place strict { parts with lead := parts.lead ++ [line] }) := by
  have isLead : (ofParts place strict parts).phase = .lead := by
    unfold ofParts DocParts.phase
    rw [none]
    rfl
  rw [step?, plain, if_neg Bool.false_ne_true, if_pos isLead]
  simp [ofParts, DocParts.phase, DocParts.misordered, Template.orderErrors, DocParts.remark]

/-- Any other line after a directive is kept. -/
theorem step?_remark (plain : isDirective line.text = false) (some : parts.directives ≠ []) :
    step? place strict (ofParts place strict parts) line =
      .some (ofParts place strict { parts with trailing := parts.trailing ++ [line] }) := by
  rcases parts with ⟨lead, directives, trailing⟩
  cases directives with
  | nil => exact absurd rfl some
  | cons item directives =>
    have notLead : (ofParts place strict ⟨lead, item :: directives, trailing⟩).phase ≠ .lead := by
      cases trailing <;> simp [ofParts, DocParts.phase]
    rw [step?, plain, if_neg Bool.false_ne_true, if_neg notLead]
    -- Without a remark so far there are no late directives that could name it.
    cases trailing with
    | nil => cases strict <;> simp [ofParts, DocParts.phase, DocParts.misordered,
        Template.orderErrors, plain]
    | cons first rest =>
      cases kind : isDirective first.text <;> cases strict <;>
        simp [ofParts, DocParts.phase, DocParts.misordered, Template.orderErrors, DocParts.remark,
          plain, kind]

/-- A line takes what is gathered from the lines before it to what is gathered from all. -/
theorem step?_ofDoc (doc : List Comment) (line : Comment) :
    step? place strict (ofParts place strict (DocParts.ofDoc doc)) line =
      some (ofParts place strict (DocParts.ofDoc (doc ++ [line]))) := by
  rw [DocParts.ofDoc_append_singleton, DocParts.extend]
  cases kind : isDirective line.text with
  | true =>
    rw [if_pos rfl]
    cases isFirst : (DocParts.ofDoc doc).trailing.head? with
    | none =>
      have none := head?_eq_none_iff.mp isFirst
      rw [if_pos (List.isEmpty_iff.mpr none)]
      exact step?_directive kind none
    | some first =>
      have some : (DocParts.ofDoc doc).directives ≠ [] := by
        intro none
        rw [DocParts.trailing_eq_nil none] at isFirst
        cases isFirst
      have notEmpty : ¬ (DocParts.ofDoc doc).trailing.isEmpty = true := by
        intro none
        rw [List.isEmpty_iff.mp none] at isFirst
        cases isFirst
      rw [if_neg notEmpty]
      exact step?_late kind some isFirst (DocParts.isDirective_of_head?_trailing isFirst)
  | false =>
    rw [if_neg Bool.false_ne_true]
    split
    next none => exact step?_lead kind (List.isEmpty_iff.mp none)
    next some => exact step?_remark kind fun none => some (List.isEmpty_iff.mpr none)

/-- Reading a doc comment line by line never fails to look up a line, and it gathers what the parts
of the doc comment give. -/
theorem run?_eq (place : Nat → Position) (strict : Bool) (doc : List Comment) :
    run? place strict doc = some (ofParts place strict (DocParts.ofDoc doc)) := by
  induction doc using List.reverseRecOn with
  | nil => cases strict <;> rfl
  | append_singleton doc line ih =>
    unfold run? at ih ⊢
    rw [foldlM_append, ih]
    simp only [Option.bind_eq_bind, Option.bind_some, foldlM_cons, foldlM_nil, step?_ofDoc]
    rfl

end DocScan

/-! ## What a template takes from its doc comment -/

/-- Lines from which the empty comment lines at the end are taken away. -/
structure IsStripped (stripped lines : List Bytes) : Prop where
  whole : ∃ count, lines = stripped ++ List.replicate count ("//" : Bytes)
  last : stripped.getLast? ≠ some ("//" : Bytes)

theorem DocParts.isStripped_docLines (parts : DocParts) :
    IsStripped parts.docLines (parts.lead.map Comment.text) := by
  have isKept : parts.docLines = (parts.lead.map Comment.text).rdropWhile (· == ("//" : Bytes)) := rfl
  constructor
  · refine ⟨((parts.lead.map Comment.text).rtakeWhile (· == ("//" : Bytes))).length, ?_⟩
    have empty : ∀ line ∈ (parts.lead.map Comment.text).rtakeWhile (· == ("//" : Bytes)), line =
        ("//" : Bytes) :=
      fun line member => beq_iff_eq.mp (mem_rtakeWhile_imp (p := (· == ("//" : Bytes))) member)
    rw [← eq_replicate_of_mem empty, isKept, rdropWhile_append_rtakeWhile]
  · intro isLast
    rw [isKept] at isLast
    rcases getLast?_eq_some_iff.mp isLast with ⟨front, shape⟩
    have some : (parts.lead.map Comment.text).rdropWhile (· == ("//" : Bytes)) ≠ [] := by
      rw [shape]
      exact append_ne_nil_of_right_ne_nil _ (cons_ne_nil _ _)
    apply rdropWhile_last_not (· == ("//" : Bytes)) _ some
    rw [← Option.some_inj.mp ((getLast?_eq_some_getLast some).symm.trans isLast).symm]
    exact beq_self_eq_true _

namespace Template

/-- A template has taken up the parts of a doc comment. -/
structure Takes (place : Nat → Position) (template : Template) (parts : DocParts) : Prop where
  doc : IsStripped template.doc (parts.lead.map Comment.text)
  cases : (parts.directives.filter fun line => Directive.isCase line.text).map (Case.parse place) =
    template.cases.map .ok
  directories :
    (parts.directives.filter fun line => Directive.isDirectory line.text).map
      (CaseDirectories.parse place) = template.directories.map .ok
  trailing : template.trailing = parts.trailing.map Comment.text
  misordered : template.misordered = parts.trailing.filter fun line => isDirective line.text
  some : parts.directives ≠ []
  contributed : ¬ (template.cases = [] ∧ template.directories = [])
  ordered : template.misordered ≠ [] →
    ∃ first rest, parts.trailing = first :: rest ∧ isDirective first.text = false

/-- The cases and the directories are those of the directives of either form, in order. -/
theorem parse_of_readItem {place : Nat → Position} {comments : List Comment} {items : List Item}
    (areDirectives : ∀ comment ∈ comments, isDirective comment.text = true)
    (areRead : comments.map (readItem place) = items.map .ok) :
    (comments.filter fun line => Directive.isCase line.text).map (Case.parse place) =
        (items.filterMap Item.case?).map .ok ∧
      (comments.filter fun line => Directive.isDirectory line.text).map (CaseDirectories.parse place) =
        (items.filterMap Item.directories?).map .ok := by
  induction comments generalizing items with
  | nil =>
    cases map_eq_nil_iff.mp areRead.symm
    exact ⟨rfl, rfl⟩
  | cons comment comments ih =>
    rcases map_eq_cons_iff.mp areRead.symm with ⟨item, later, rfl, isRead, laterRead⟩
    rw [forall_mem_cons] at areDirectives
    rcases ih areDirectives.2 laterRead.symm with ⟨cases, directories⟩
    cases directory : Directive.isDirectory comment.text with
    | false =>
      have case : Directive.isCase comment.text = true := by
        simpa [isDirective, directory] using areDirectives.1
      rcases readItem_eq_case isRead.symm directory with ⟨value, parsed, rfl⟩
      simp [case, directory, parsed, cases, directories, filterMap_cons, Item.case?, Item.directories?]
    | true =>
      have noCase : Directive.isCase comment.text = false := by
        rw [← Bool.not_eq_true]
        intro case
        rw [Directive.not_isDirectory_of_isCase case] at directory
        cases directory
      rcases readItem_eq_directories isRead.symm directory with ⟨several, parsed, rfl⟩
      simp [noCase, directory, parsed, cases, directories, filterMap_cons, Item.case?, Item.directories?]

theorem contributed_of_readItem {place : Nat → Position} {comments : List Comment} {items : List Item}
    (some : comments ≠ []) (areRead : comments.map (readItem place) = items.map .ok) :
    ¬ (items.filterMap Item.case? = [] ∧ items.filterMap Item.directories? = []) := by
  rintro ⟨noCases, noDirectories⟩
  cases items with
  | nil => exact some (map_eq_nil_iff.mp areRead)
  | cons item items =>
    cases item with
    | case value => cases noCases
    | directories several => cases noDirectories

theorem takes_of_read {source : ParsedFile} {function : FuncDecl} {strict : Bool} {template : Template}
    (isRead : read source function strict = .ok (some template)) :
    template.Takes source.place (DocParts.ofDoc function.docComments) := by
  rcases read_eq_some isRead with ⟨directive, _, body, items, _, areRead, rfl⟩
  have some := DocParts.directives_ne_nil directive
  rcases parse_of_readItem (fun _ => DocParts.isDirective_of_mem_directives) areRead with
    ⟨cases, directories⟩
  refine ⟨DocParts.isStripped_docLines _, cases, directories, rfl, rfl, some,
    contributed_of_readItem some areRead, ?_⟩
  intro late
  rcases shape : (DocParts.ofDoc function.docComments).trailing with _ | ⟨first, rest⟩
  · refine absurd ?_ late
    show (DocParts.ofDoc function.docComments).misordered = []
    rw [DocParts.misordered, shape]
    rfl
  · have isFirst : (DocParts.ofDoc function.docComments).trailing.head? = .some first := by
      rw [shape]
      rfl
    exact ⟨first, rest, rfl, DocParts.isDirective_of_head?_trailing isFirst⟩

end Template

/-- What has been gathered line by line accounts for the outcome of a reading.  The errors that
were not gathered are all about the signature, so that none names a line of the doc comment. -/
def DocScan.AccountsFor (scan : DocScan) : Except (List Error) (Option Template) → Prop
  | .error errors => ∃ others, errors.Perm (scan.errors ++ others) ∧
  ∀ error ∈ others, error.kind = .signature
  | .ok none => ∃ lead, scan = { lead }
  | .ok (some template) => scan.errors = [] ∧ IsStripped template.doc scan.lead ∧
      template.cases = scan.items.filterMap Template.Item.case? ∧
      template.directories = scan.items.filterMap Template.Item.directories? ∧
      template.trailing = scan.trailing ∧ template.misordered = scan.misordered

namespace Template

/-- The errors of a function with directives are those of its doc comment, and then those of its
signature. -/
theorem readErrors_eq_append (source : ParsedFile) (function : FuncDecl) (strict : Bool) :
    ∃ others, readErrors source function strict =
        (DocScan.ofParts source.place strict (DocParts.ofDoc function.docComments)).errors ++ others ∧
      ∀ error ∈ others, error.kind = .signature := by
  unfold readErrors DocScan.ofParts
  dsimp only
  split
  · refine ⟨_, append_assoc .., ?_⟩
    rw [forall_mem_append, forall_mem_singleton]
    exact ⟨fun _ => kind_of_mem_headErrors, rfl⟩
  · rw [append_assoc _ (headErrors source function), append_assoc _ (_ ++ _)]
    refine ⟨_, rfl, ?_⟩
    rw [forall_mem_append, forall_mem_append]
    refine ⟨⟨fun _ => kind_of_mem_headErrors, fun _ => kind_of_mem_unnamedErrors⟩, ?_⟩
    intro error member
    split at member
    · rw [mem_singleton.mp member]
      rfl
    · cases member

/-- A reading reports what is gathered line by line. -/
theorem accountsFor_read (source : ParsedFile) (function : FuncDecl) (strict : Bool) :
    (DocScan.ofParts source.place strict (DocParts.ofDoc function.docComments)).AccountsFor
      (read source function strict) := by
  rcases readErrors_eq_append source function strict with ⟨others, areErrors, ofSignature⟩
  rcases outcome : read source function strict with errors | _ | template
  · refine ⟨others, ?_, ofSignature⟩
    rw [(read_eq_error outcome).2, ← areErrors]
    exact Error.sort_perm _
  · refine ⟨function.docComments.map Comment.text, ?_⟩
    have plain : (function.docComments.any fun comment => isDirective comment.text) = false :=
      read_eq_none_iff.mp outcome
    rw [DocParts.ofDoc_of_plain plain]
    cases strict <;> rfl
  · rcases read_eq_some outcome with ⟨_, noErrors, body, items, _, areRead, rfl⟩
    have areItems : (outcomes ((DocParts.ofDoc function.docComments).directives.map
        (readItem source.place))).1 = items := by
      have taken := congrArg (fun results => (outcomes results).1) areRead
      rw [readItems] at taken
      refine taken.trans ?_
      simp [outcomes, filterMap_map]
    have noLate : strict = true → (DocParts.ofDoc function.docComments).misordered = [] := by
      rintro rfl
      exact misordered_eq_nil noErrors
    refine ⟨?_, DocParts.isStripped_docLines _, ?_, ?_, ?_, ?_⟩
    · rw [noErrors] at areErrors
      exact (append_eq_nil_iff.mp areErrors.symm).1
    · rw [DocScan.ofParts, areItems]
      rfl
    · rw [DocScan.ofParts, areItems]
      rfl
    · refine congrArg (List.map Comment.text) (filter_eq_self.mpr fun line member => ?_).symm
      cases strict with
      | false => rfl
      | true => simpa using filter_eq_nil_iff.mp (noLate rfl) line member
    · cases strict with
      | false => rfl
      | true => exact noLate rfl

end Template

/-- The template of an expansion was read, and loading its directories changed its cases only. -/
theorem Expansion.exists_read_of_template? {source : ParsedFile} {strict : Bool} {files : FileSystem}
    {function : FuncDecl} {template : Template}
    (isTemplate : (Expansion.ofFunction source strict files function).template? = some template) :
    ∃ bare : Template, Template.read source function strict = .ok (some bare) ∧
      template.trailing = bare.trailing ∧ template.misordered = bare.misordered := by
  unfold Expansion.ofFunction at isTemplate
  rcases isRead : Template.read source function strict with errors | _ | bare
  · rw [isRead] at isTemplate
    cases isTemplate
  · rw [isRead] at isTemplate
    cases isTemplate
  · rw [isRead] at isTemplate
    dsimp only at isTemplate
    have loaded := Template.loadDirectories_fst files bare
    have same : template = (bare.loadDirectories files).1 := by
      rcases isLoaded : bare.loadDirectories files with ⟨loaded, _ | ⟨error, errors⟩⟩
      · rw [isLoaded] at isTemplate
        dsimp only at isTemplate
        cases expanded : loaded.expand <;> rw [expanded] at isTemplate <;> cases isTemplate <;> rfl
      · rw [isLoaded] at isTemplate
        cases isTemplate
        rfl
    rw [same, loaded]
    exact ⟨bare, rfl, rfl, rfl⟩

/-- A template takes up its doc comment without loss: the lines before the directives, the
directives that count and everything after them are what is read, and this way of dividing the
lines is the only one.  Line by line the same comes out, whatever the lines are, and the line that
ends the directives is found wherever a message names it. -/
theorem doc_comment_is_partitioned (source : ParsedFile) (function : FuncDecl) :
    (∀ template?, (function.docComments.any fun line => Directive.isDirective line.text) = true →
      Template.read source function false = .ok template? →
      ∃ template parts, template? = some template ∧
        (∀ other : DocParts, other.Splits function.docComments ↔ other = parts) ∧
        template.Takes source.place parts) ∧
    ∀ strict,
      (∃ scan, DocScan.run? source.place strict function.docComments = some scan ∧
        scan.AccountsFor (Template.read source function strict)) ∧
      ∀ files template, (Expansion.ofFunction source strict files function).template? = some template →
        template.misordered ≠ [] →
        ∃ remark rest, template.trailing = remark :: rest ∧ Directive.isDirective remark = false ∧
          (Expansion.ofFunction source strict files function).warnings source =
            template.misordered.map fun line => ⟨source.place line.offset, .forwarded remark⟩ := by
  constructor
  · rintro (_ | template) directive isRead
    · rw [FuncDecl.docComments, Template.read_eq_none_iff.mp isRead] at directive
      cases directive
    · exact ⟨template, DocParts.ofDoc function.docComments, rfl, fun _ => DocParts.splits_iff,
        Template.takes_of_read isRead⟩
  · intro strict
    refine ⟨⟨_, DocScan.run?_eq _ _ _, Template.accountsFor_read source function strict⟩, ?_⟩
    intro files template isTemplate late
    rcases Expansion.exists_read_of_template? isTemplate with ⟨bare, isRead, sameTrailing, sameLate⟩
    have takes := Template.takes_of_read isRead
    rw [sameLate] at late
    rcases takes.ordered late with ⟨first, rest, shape, plain⟩
    have isTrailing : template.trailing = first.text :: rest.map Comment.text := by
      rw [sameTrailing, takes.trailing, shape]
      rfl
    refine ⟨first.text, rest.map Comment.text, isTrailing, plain, ?_⟩
    rw [Expansion.warnings, isTemplate]
    dsimp only
    rw [isTrailing]
    rfl

/-- A file with directives of both forms, an empty comment line before them and a remark and a
directive after them. -/
def remarkedFile : Bytes :=
  "package p\n\n// f checks.\n//\n//casegen:case \"x\", \"y\"; \"a\"\n//casegen:dir \"d\"\n//nolint\n//casegen:case 3; \"c\"\nfunc f(path, contents string) \x7b\n\tg(path, contents)\n\x7d\n"

/-- Files of which none is there. -/
def noFiles : FileSystem where
  list _ := .ok []
  read _ := .ok []

theorem doc_comment_of_remarked_file_is_partitioned :
    ∃ source function template parts loaded remark rest, parseFile "cases.go" remarkedFile = .ok source ∧
      function ∈ source.file.functions ∧ Template.read source function false = .ok (some template) ∧
      parts.Splits function.docComments ∧ template.Takes source.place parts ∧
      (Expansion.ofFunction source false noFiles function).template? = some loaded ∧
      loaded.misordered ≠ [] ∧ loaded.trailing = remark :: rest := by
  have checked : ((parseFile "cases.go" remarkedFile).toOption.any fun source =>
      source.file.functions.any fun function =>
        (function.docComments.any fun line => isDirective line.text) &&
          ((Template.read source function false).toOption.isSome &&
            (Expansion.ofFunction source false noFiles function).template?.any fun loaded =>
              !loaded.misordered.isEmpty)) = true := by decide +kernel
  rcases exists_ok_of_any checked with ⟨source, parsed, passes⟩
  rcases any_eq_true.mp passes with ⟨function, isFunction, passes⟩
  rw [Bool.and_eq_true, Bool.and_eq_true] at passes
  rcases passes with ⟨directive, succeeds, passes⟩
  rcases (Option.any_eq_true ..).mp passes with ⟨loaded, isLoaded, late⟩
  have misordered : loaded.misordered ≠ [] := by
    intro none
    rw [none] at late
    cases late
  rcases doc_comment_is_partitioned source function with ⟨partitioned, found⟩
  rcases isRead : Template.read source function false with errors | template?
  · rw [isRead] at succeeds
    cases succeeds
  · rcases partitioned template? directive isRead with ⟨template, parts, rfl, onlyOne, takes⟩
    rcases (found false).2 noFiles loaded isLoaded misordered with ⟨remark, rest, isTrailing, _⟩
    exact ⟨source, function, template, parts, loaded, remark, rest, parsed, isFunction, isRead,
      (onlyOne parts).mpr rfl, takes, isLoaded, misordered, isTrailing⟩

end CaseExpansion
