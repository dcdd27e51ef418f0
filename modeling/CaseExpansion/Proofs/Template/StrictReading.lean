import CaseExpansion.Proofs.Generator.Runs
import CaseExpansion.Proofs.Sorting
import CaseExpansion.Proofs.Template.DocLines

namespace CaseExpansion

open List Source

/-!
# Strict readings

A strict reading of a function reports what a lenient one reports, and beyond that one error for
every directive that comes too late.  Which directives these are is told by their places among the
lines of the doc comment (`ComesLate`): nothing is said there about the parts into which a reading
cuts them.

A template that a strict reading accepts is therefore the one of the lenient reading, and has no
late directives.  These are all that a run warns about, so that a strict run never warns.
-/

/-! ## Lines by their places -/

/-- Whether the line with an index in a doc comment is a directive. -/
def LineAt (doc : List Comment) (index : Nat) (directive : Bool) : Prop :=
  ∃ line, doc[index]? = some line ∧ Directive.isDirective line.text = directive

/-- The line with an index is the first after the first directive that is no directive itself. -/
structure EndsDirectives (doc : List Comment) (index : Nat) : Prop where
  plain : LineAt doc index false
  after : ∃ first < index, LineAt doc first true
  earliest : ∀ other < index, LineAt doc other false → ∀ first < other, ¬LineAt doc first true

/-- The line with an index is a directive after the line that ends the directives. -/
def ComesLate (doc : List Comment) (index : Nat) : Prop :=
  LineAt doc index true ∧ ∃ place < index, EndsDirectives doc place

theorem LineAt.unique {doc : List Comment} {index : Nat} {first second : Bool}
    (isFirst : LineAt doc index first) (isSecond : LineAt doc index second) : first = second := by
  rcases isFirst with ⟨line, isLine, rfl⟩
  rcases isSecond with ⟨other, isOther, rfl⟩
  rw [Option.some_inj.mp (isLine.symm.trans isOther)]

namespace DocParts

/-- The number of lines before those that trail. -/
def leading (parts : DocParts) : Nat :=
  parts.lead.length + parts.directives.length

theorem getElem?_eq (doc : List Comment) (index : Nat) :
    doc[index]? =
      if index < (ofDoc doc).lead.length then (ofDoc doc).lead[index]?
      else if index < (ofDoc doc).leading then (ofDoc doc).directives[index - (ofDoc doc).lead.length]?
      else (ofDoc doc).trailing[index - (ofDoc doc).leading]? := by
  have whole := congrArg (fun lines : List Comment => lines[index]?) (append_ofDoc doc)
  rw [← whole, getElem?_append, getElem?_append, leading]
  split
  next => rfl
  next =>
    rw [Nat.sub_sub]
    exact if_congr (by omega) rfl rfl

variable {doc : List Comment} {index : Nat}

theorem lineAt_lead (inside : index < (ofDoc doc).lead.length) : LineAt doc index false := by
  refine ⟨(ofDoc doc).lead[index], ?_, not_isDirective_of_mem_lead (getElem_mem inside)⟩
  rw [getElem?_eq, if_pos inside, getElem?_eq_getElem inside]

theorem lineAt_directives (after : (ofDoc doc).lead.length ≤ index)
    (before : index < (ofDoc doc).leading) : LineAt doc index true := by
  have inside : index - (ofDoc doc).lead.length < (ofDoc doc).directives.length := by
    rw [leading] at before
    omega
  refine ⟨(ofDoc doc).directives[index - (ofDoc doc).lead.length], ?_,
    isDirective_of_mem_directives (getElem_mem inside)⟩
  rw [getElem?_eq, if_neg (Nat.not_lt.mpr after), if_pos before, getElem?_eq_getElem inside]

theorem lineAt_trailing (after : (ofDoc doc).leading ≤ index) {directive : Bool} :
    LineAt doc index directive ↔ ∃ line, (ofDoc doc).trailing[index - (ofDoc doc).leading]? = some line ∧
      Directive.isDirective line.text = directive := by
  have beyond : ¬index < (ofDoc doc).lead.length := by
    rw [leading] at after
    omega
  rw [LineAt, getElem?_eq, if_neg beyond, if_neg (Nat.not_lt.mpr after)]

/-- There are directives that count before a line that trails. -/
theorem lead_lt_leading (some : (ofDoc doc).trailing ≠ []) :
    (ofDoc doc).lead.length < (ofDoc doc).leading := by
  have counts : 0 < (ofDoc doc).directives.length :=
    length_pos_of_ne_nil fun none => some (trailing_eq_nil none)
  rw [leading]
  omega

/-- The first line that trails is the one that ends the directives. -/
theorem endsDirectives_iff :
    EndsDirectives doc index ↔ (ofDoc doc).trailing ≠ [] ∧ index = (ofDoc doc).leading := by
  have remark (some : (ofDoc doc).trailing ≠ []) : LineAt doc (ofDoc doc).leading false := by
    refine (lineAt_trailing (Nat.le_refl _)).mpr ⟨(ofDoc doc).trailing.head some, ?_, ?_⟩
    · rw [Nat.sub_self, ← head?_eq_getElem?, head?_eq_some_head some]
    · exact isDirective_of_head?_trailing (head?_eq_some_head some)
  constructor
  · rintro ⟨plain, ⟨first, before, isDirective⟩, earliest⟩
    have afterLead : (ofDoc doc).lead.length ≤ first := Nat.not_lt.mp fun inside =>
      Bool.false_ne_true ((lineAt_lead inside).unique isDirective)
    have afterAll : (ofDoc doc).leading ≤ index := Nat.not_lt.mp fun inside =>
      Bool.false_ne_true (plain.unique (lineAt_directives (by omega) inside))
    have some : (ofDoc doc).trailing ≠ [] := by
      rcases (lineAt_trailing afterAll).mp plain with ⟨line, isLine, _⟩
      intro none
      rw [none] at isLine
      cases isLine
    have counts := lead_lt_leading some
    refine ⟨some, Nat.le_antisymm (Nat.not_lt.mp fun later => ?_) afterAll⟩
    exact earliest _ later (remark some) _ counts (lineAt_directives (Nat.le_refl _) counts)
  · rintro ⟨some, rfl⟩
    have counts := lead_lt_leading some
    refine ⟨remark some, ⟨_, counts, lineAt_directives (Nat.le_refl _) counts⟩, ?_⟩
    intro other before plain first earlier isDirective
    have inLead : other < (ofDoc doc).lead.length := Nat.not_le.mp fun after =>
      Bool.false_ne_true (plain.unique (lineAt_directives after before))
    exact Bool.false_ne_true ((lineAt_lead (Nat.lt_trans earlier inLead)).unique isDirective)

/-- The directives that come too late, with their places. -/
def lateLines (parts : DocParts) : List (Comment × Nat) :=
  (parts.trailing.zipIdx parts.leading).filter fun entry => Directive.isDirective entry.1.text

theorem map_fst_lateLines (parts : DocParts) : parts.lateLines.map Prod.fst = parts.misordered := by
  have same := filter_map (f := Prod.fst) (p := fun line : Comment => Directive.isDirective line.text)
    (l := parts.trailing.zipIdx parts.leading)
  rw [zipIdx_map_fst] at same
  exact same.symm

theorem lateLines_increase (parts : DocParts) : (parts.lateLines.map Prod.snd).Pairwise (· < ·) := by
  have part : (parts.lateLines.map Prod.snd).Sublist
      ((parts.trailing.zipIdx parts.leading).map Prod.snd) :=
    filter_sublist.map _
  rw [zipIdx_map_snd] at part
  exact List.Pairwise.sublist part pairwise_lt_range'

theorem mem_lateLines {line : Comment} : (line, index) ∈ (ofDoc doc).lateLines ↔
    (ofDoc doc).leading ≤ index ∧ (ofDoc doc).trailing[index - (ofDoc doc).leading]? = some line ∧
      Directive.isDirective line.text = true := by
  rw [lateLines, mem_filter, mk_mem_zipIdx_iff_le_and_getElem?_sub, and_assoc]

/-- The directives that are misordered are those after the line that ends the directives. -/
theorem mem_map_snd_lateLines : index ∈ (ofDoc doc).lateLines.map Prod.snd ↔ ComesLate doc index := by
  constructor
  · intro member
    rcases mem_map.mp member with ⟨⟨line, _⟩, isLate, rfl⟩
    rcases mem_lateLines.mp isLate with ⟨after, isLine, isDirective⟩
    have some : (ofDoc doc).trailing ≠ [] := by
      intro none
      rw [none] at isLine
      cases isLine
    have ends := endsDirectives_iff.mpr ⟨some, rfl⟩
    have isLate := (lineAt_trailing after).mpr ⟨line, isLine, isDirective⟩
    refine ⟨isLate, _, Nat.lt_of_le_of_ne after ?_, ends⟩
    rintro rfl
    exact Bool.false_ne_true (ends.plain.unique isLate)
  · rintro ⟨isDirective, place, before, ends⟩
    rcases endsDirectives_iff.mp ends with ⟨_, rfl⟩
    have after := Nat.le_of_lt before
    rcases (lineAt_trailing after).mp isDirective with ⟨line, isLine, isDirective⟩
    exact mem_map.mpr ⟨(line, index), mem_lateLines.mpr ⟨after, isLine, isDirective⟩, rfl⟩

/-- The place and the line of a late directive belong together in the doc comment. -/
theorem getElem?_of_mem_lateLines {line : Comment} (member : (line, index) ∈ (ofDoc doc).lateLines) :
    doc[index]? = some line := by
  rcases mem_lateLines.mp member with ⟨after, isLine, _⟩
  have beyond : ¬index < (ofDoc doc).lead.length := by
    rw [leading] at after
    omega
  rw [getElem?_eq, if_neg beyond, if_neg (Nat.not_lt.mpr after), isLine]

/-- The line that ends the directives is the remark that late directives come after. -/
theorem getElem?_remark {place : Nat} (ends : EndsDirectives doc place) :
    ∃ line, doc[place]? = some line ∧ (ofDoc doc).remark = line.text := by
  rcases endsDirectives_iff.mp ends with ⟨some, rfl⟩
  have beyond : ¬(ofDoc doc).leading < (ofDoc doc).lead.length := Nat.not_lt.mpr (Nat.le_add_right _ _)
  refine ⟨(ofDoc doc).trailing.head some, ?_, ?_⟩
  · rw [getElem?_eq, if_neg beyond, if_neg (Nat.lt_irrefl _), Nat.sub_self, ← head?_eq_getElem?,
      head?_eq_some_head some]
  · rw [remark, head?_eq_some_head some]
    rfl

end DocParts

/-! ## The errors of both readings -/

/-- An error rejects a directive for its order: it is placed at the directive, and names the line
that ends the directives. -/
structure RejectsLine (source : ParsedFile) (doc : List Comment) (index : Nat)
    (error : Error) : Prop where
  kind : error.kind = .order
  placed : ∃ line, doc[index]? = some line ∧ error.position = source.place line.offset
  named : ∃ place remark, EndsDirectives doc place ∧ doc[place]? = some remark ∧
    error.problem = .afterRemark remark.text

namespace Template

variable {source : ParsedFile} {function : FuncDecl} {strict : Bool}

/-- There is one order error for each directive that comes too late. -/
theorem forall₂_rejectsLine (source : ParsedFile) (doc : List Comment) :
    List.Forall₂ (RejectsLine source doc) ((DocParts.ofDoc doc).lateLines.map Prod.snd)
      (orderErrors source.place (DocParts.ofDoc doc) .afterRemark) := by
  rw [orderErrors, ← DocParts.map_fst_lateLines, map_map, forall₂_map_left_iff,
    forall₂_map_right_iff, forall₂_same]
  rintro ⟨line, index⟩ member
  have late := DocParts.mem_map_snd_lateLines.mp (mem_map_of_mem (f := Prod.snd) member)
  rcases late with ⟨_, place, _, ends⟩
  rcases DocParts.getElem?_remark ends with ⟨remark, isRemark, sameText⟩
  refine ⟨rfl, ⟨line, DocParts.getElem?_of_mem_lateLines member, rfl⟩, place, remark, ends, isRemark, ?_⟩
  rw [← sameText]
  rfl

/-- What a reading reports. -/
def reported : Except (List Error) (Option Template) → List Error
  | .error errors => errors
  | .ok _ => []

theorem reported_read (source : ParsedFile) (function : FuncDecl) (strict : Bool) :
    reported (read source function strict) =
      if function.docComments.any fun comment => Directive.isDirective comment.text then
        Error.sort (readErrors source function strict)
      else [] := by
  rw [read_eq, FuncDecl.docComments]
  split
  next =>
    split
    next noErrors =>
      rw [noErrors]
      exact (Error.sort_eq_nil_iff.mpr rfl).symm
    next => rfl
  next => rfl

theorem reported_ordered (source : ParsedFile) (function : FuncDecl) (strict : Bool) :
    (reported (read source function strict)).Pairwise
      fun earlier later => earlier.position.key ≤ later.position.key := by
  rw [reported_read]
  split
  next => exact (Error.sort_isStableSort _).ordered
  next => exact .nil

/-- Only the order errors among the problems of a function depend on the reading. -/
theorem exists_readErrors_eq (source : ParsedFile) (function : FuncDecl) :
    ∃ items rest, ∀ strict, readErrors source function strict = items ++ (if strict then
      orderErrors source.place (DocParts.ofDoc function.docComments) .afterRemark else []) ++ rest := by
  unfold readErrors
  cases function.body with
  | none => exact ⟨_, _, fun _ => append_assoc ..⟩
  | some body => exact ⟨_, _, fun _ => (append_assoc ..).trans (append_assoc ..)⟩

theorem readErrors_strict (source : ParsedFile) (function : FuncDecl) :
    (readErrors source function true).Perm (readErrors source function false ++
      orderErrors source.place (DocParts.ofDoc function.docComments) .afterRemark) := by
  rcases exists_readErrors_eq source function with ⟨items, rest, shape⟩
  rw [shape, shape, if_pos rfl, if_neg Bool.false_ne_true, append_nil, append_assoc, append_assoc]
  exact perm_append_comm.append_left items

theorem reported_strict (source : ParsedFile) (function : FuncDecl) :
    (reported (read source function true)).Perm (reported (read source function false) ++
      orderErrors source.place (DocParts.ofDoc function.docComments) .afterRemark) := by
  rw [reported_read, reported_read]
  split
  next =>
    calc Error.sort (readErrors source function true)
      List.Perm _ (readErrors source function true) := Error.sort_perm _
      List.Perm _ (readErrors source function false ++ _) := readErrors_strict source function
      List.Perm _ (Error.sort (readErrors source function false) ++ _) :=
        (Error.sort_perm _).symm.append_right _
  next plain =>
    rw [DocParts.ofDoc_of_plain (Bool.eq_false_iff.mpr plain)]
    exact .nil

/-! ## The templates of both readings -/

theorem read_eq_some_iff {template : Template} : read source function strict = .ok (some template) ↔
    (function.docComments.any fun comment => Directive.isDirective comment.text) = true ∧
      readErrors source function strict = [] ∧ ∃ body, function.body = some body ∧
        template = assemble source function body (outcomes (readItems source function)).1 := by
  rw [read_eq, FuncDecl.docComments]
  constructor
  · intro isRead
    split at isRead
    next directive =>
      split at isRead
      next body hasBody noErrors =>
        cases isRead
        exact ⟨directive, noErrors, body, hasBody, rfl⟩
      next => cases isRead
    next => cases isRead
  · rintro ⟨directive, noErrors, body, hasBody, rfl⟩
    rw [if_pos directive, hasBody, noErrors]

theorem readErrors_strict_eq_nil_iff : readErrors source function true = [] ↔
    readErrors source function false = [] ∧ (DocParts.ofDoc function.docComments).misordered = [] := by
  rw [← perm_nil, (readErrors_strict source function).congr_left, perm_nil, append_eq_nil_iff,
    orderErrors, map_eq_nil_iff]

/-- A strict reading gives what a lenient one gives, unless a directive comes too late. -/
theorem read_strict_eq_ok_iff (template? : Option Template) : read source function true = .ok template? ↔
    read source function false = .ok template? ∧ ∀ template ∈ template?, template.misordered = [] := by
  cases template? with
  | none =>
    rw [read_eq_none_iff, read_eq_none_iff]
    exact (and_iff_left fun _ impossible => absurd impossible (Option.not_mem_none _)).symm
  | some template =>
    rw [read_eq_some_iff, read_eq_some_iff, readErrors_strict_eq_nil_iff]
    constructor
    · rintro ⟨directive, ⟨noErrors, inOrder⟩, body, hasBody, rfl⟩
      refine ⟨⟨directive, noErrors, body, hasBody, rfl⟩, ?_⟩
      rintro _ ⟨⟩
      exact inOrder
    · rintro ⟨⟨directive, noErrors, body, hasBody, rfl⟩, inOrder⟩
      exact ⟨directive, ⟨noErrors, inOrder _ rfl⟩, body, hasBody, rfl⟩

end Template

/-! ## The warnings of strict runs -/

theorem Expansion.warnings_strict (source : ParsedFile) (files : FileSystem) (function : FuncDecl) :
    (Expansion.ofFunction source true files function).warnings source = [] := by
  unfold Expansion.warnings
  cases isTemplate : (Expansion.ofFunction source true files function).template? with
  | none => rfl
  | some template =>
    rcases Expansion.exists_read_of_template? isTemplate with ⟨bare, isRead, _, sameLate⟩
    have inOrder := ((Template.read_strict_eq_ok_iff _).mp isRead).2 bare rfl
    dsimp only
    rw [sameLate, inOrder]
    rfl

/-- Rendering warns about nothing but what the functions warn about. -/
theorem renderExpansions_warnings_eq_nil {source : ParsedFile} (memory : Nat → Rendering.Memory)
    (pattern : Pattern.Compiled) {found : List (FuncDecl × Expansion)}
    (silent : ∀ entry ∈ found, entry.2.warnings source = []) :
    (renderExpansions source memory pattern found).warnings = [] := by
  induction found with
  | nil => rfl
  | cons entry found ih =>
    rcases entry with ⟨function, expansion⟩
    rcases forall_mem_cons.mp silent with ⟨first, others⟩
    have later := ih others
    unfold renderExpansions
    dsimp only at first ⊢
    split
    next template space =>
      split
      next => exact first
      next => exact append_eq_nil_iff.mpr ⟨first, later⟩
    next => exact append_eq_nil_iff.mpr ⟨first, later⟩

namespace Generator

/-- Whatever becomes of a file, the warnings are those of its rendering. -/
theorem expandFile_warnings (generator : Generator) (files : FileSystem)
    (filePattern spacePattern : Pattern.Compiled) (filename : Bytes) (source : ParsedFile) :
    (generator.expandFile files filePattern spacePattern filename source).warnings =
      (renderExpansions source generator.memory spacePattern
        (expansions source generator.strict files)).warnings := by
  unfold expandFile
  dsimp only
  split
  next => rfl
  next =>
    split
    next =>
      split
      next => rfl
      next => exact finish_warnings _ _
    next => rfl

theorem generate_warnings_strict {generator : Generator} (strict : generator.strict = true) (disk : Disk)
    (filename : Bytes) (input : Except Bytes Bytes) :
    (generator.generate disk filename input).2.warnings = [] := by
  unfold generate
  split
  next => rfl
  next text =>
    split
    next => rfl
    next =>
      dsimp only
      split
      next filePattern spacePattern _ _ _ =>
        split
        next => rfl
        next source _ =>
          rw [expandFile_warnings]
          apply renderExpansions_warnings_eq_nil
          intro entry member
          rcases mem_map.mp member with ⟨function, _, rfl⟩
          dsimp only
          rw [strict]
          exact Expansion.warnings_strict source _ function
      next => rfl

end Generator

/-- Strictness adds order errors and nothing else.  There is one for each directive after the first
line that ends the directives, in the order of these lines, and all errors are reported in the order
of their places.  So a strict reading accepts a function exactly when a lenient one does and no
directive comes too late, with the same template, and a strict run has no warnings. -/
theorem strict_reading_adds_order_errors :
    (∀ (source : ParsedFile) (function : FuncDecl),
      (∃ (late : List Nat) (added : List Error), late.Pairwise (· < ·) ∧
        (∀ index, index ∈ late ↔ ComesLate function.docComments index) ∧
        List.Forall₂ (RejectsLine source function.docComments) late added ∧
        (Template.reported (Template.read source function true)).Perm
          (Template.reported (Template.read source function false) ++ added)) ∧
      (∀ strict, (Template.reported (Template.read source function strict)).Pairwise
        fun earlier later => earlier.position.key ≤ later.position.key) ∧
      ∀ template?, Template.read source function true = .ok template? ↔
        Template.read source function false = .ok template? ∧
          ∀ template ∈ template?, template.misordered = []) ∧
    ∀ (generator : Generator) (disk : Disk) (filename : Bytes) (input : Except Bytes Bytes),
      (Generator.generate { generator with strict := true } disk filename input).2.warnings = [] := by
  refine ⟨fun source function => ⟨?_, ?_, ?_⟩, ?_⟩
  · exact ⟨_, _, DocParts.lateLines_increase _, fun _ => DocParts.mem_map_snd_lateLines,
      Template.forall₂_rejectsLine source _, Template.reported_strict source function⟩
  · exact Template.reported_ordered source function
  · exact Template.read_strict_eq_ok_iff
  · intro generator disk filename input
    exact Generator.generate_warnings_strict rfl disk filename input

theorem strict_reading_of_remarked_file_adds_order_error :
    ∃ source function late added, parseFile "cases.go" remarkedFile = .ok source ∧
      function ∈ source.file.functions ∧ ComesLate function.docComments late ∧
      RejectsLine source function.docComments late added ∧
      Template.reported (Template.read source function false) = [] ∧
      Template.reported (Template.read source function true) = [added] := by
  have checked : ((parseFile "cases.go" remarkedFile).toOption.any fun source =>
      source.file.functions.any fun function =>
        (Template.reported (Template.read source function false)).isEmpty &&
          (Template.reported (Template.read source function true)).length == 1) = true :=
            by decide +kernel
  rcases exists_ok_of_any checked with ⟨source, parsed, passes⟩
  rcases any_eq_true.mp passes with ⟨function, isFunction, passes⟩
  rw [Bool.and_eq_true, List.isEmpty_iff, beq_iff_eq, length_eq_one_iff] at passes
  rcases passes with ⟨noErrors, error, isReported⟩
  rcases strict_reading_adds_order_errors.1 source function with
    ⟨⟨late, added, _, areLate, rejected, reports⟩, _⟩
  rw [noErrors, isReported, nil_append] at reports
  rw [← singleton_perm.mp reports] at rejected
  rcases forall₂_cons_right_iff.mp rejected with ⟨index, _, rejects, _, rfl⟩
  exact ⟨source, function, index, error, parsed, isFunction, (areLate index).mp mem_cons_self, rejects,
    noErrors, isReported⟩

end CaseExpansion
