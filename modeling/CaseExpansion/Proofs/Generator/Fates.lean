import CaseExpansion.Proofs.Generator.Content

namespace CaseExpansion

open List Source Template DocParts
open Directive (isDirective)

/-!
# What becomes of a directive

No directive is lost without notice.  In a run without a failure, every directive
of the file has exactly one `Fate`: it has given the one function of its case, or
the functions of the files of its directories, or it came too late and has been
warned about.  Conversely, every generated function and every warning comes from
a directive with the fate in question.

The cases of a directive are found by their position, which tells the directives
of a file apart.
-/

/-! ## The fates of a directive -/

/-- What can become of a directive. -/
inductive Fate where
  /-- The directive has given one case. -/
  | single
  /-- The directive has given the files of directories. -/
  | directories
  /-- The directive came too late and is kept as an annotation. -/
  | forwarded
deriving DecidableEq, Repr

/-- Exactly one template collects a directive, and the functions of its namespace
that stand for the directive are those of the given cases, in their order. -/
def Collected (source : ParsedFile) (found : List (FuncDecl × Expansion)) (comment : Comment)
    (cases : List Case) : Prop :=
  ∃ function template space,
    found.filter (fun entry => comment ∈ entry.1.directives) = [(function, .expanded template space)] ∧
      (space.functions.filter fun generated =>
        generated.case.position = source.place comment.offset).map Function.case = cases

/-- What it means that a directive has a fate, in a run that finds the given
expansions and gives the given warnings. -/
def Fate.Holds (source : ParsedFile) (strict : Bool) (files : FileSystem) (warnings : List Error)
    (comment : Comment) : Fate → Prop
  | single => Directive.isCase comment.text = true ∧ ∃ case,
      Case.parse source.place comment = .ok case ∧
        Collected source (expansions source strict files) comment [case]
  | directories => Directive.isDirectory comment.text = true ∧ ∃ several groups,
      CaseDirectories.parse source.place comment = .ok several ∧ several.directories ≠ [] ∧
        List.Forall₂ (CaseDirectories.Supplies files (source.place comment.offset))
          several.directories groups ∧
        Collected source (expansions source strict files) comment groups.flatten
  | forwarded => strict = false ∧ ∃ function expansion remark warning,
      (expansions source strict files).filter (fun entry => comment ∈ entry.1.trailing) =
          [(function, expansion)] ∧
        function.trailing.head? = some remark ∧
        warnings.filter (fun warning => warning.position = source.place comment.offset) = [warning] ∧
        warning.kind = .order ∧ warning.problem = .forwarded remark.text

variable {source : ParsedFile} {strict : Bool} {files : FileSystem} {function : FuncDecl}
  {template : Template}
  {space : Namespace} {comment : Comment}

/-- A test that only the function with a comment can pass singles out that function. -/
theorem filter_expansions (arranged : source.Arranged) (comment : Comment) (test : FuncDecl → Bool)
    (holds : ∀ function, test function = true → comment ∈ function.docComments)
    (isFunction : function ∈ source.file.functions) (passes : test function = true) :
    (expansions source strict files).filter (fun entry => test entry.1) =
      [(function, Expansion.ofFunction source strict files function)] := by
  have apart := (arranged.docComments_apart comment).imp fun notBoth =>
    mt (And.imp (holds _) (holds _)) notBoth
  rw [expansions, filter_map]
  exact congrArg (List.map _) (filter_eq_singleton apart isFunction passes)

/-- The comments of a file are told apart by their positions. -/
theorem places_nodup (arranged : source.Arranged) {comments : List Comment}
    (sublist : comments.Sublist source.comments) :
    (comments.map fun comment => source.place comment.offset).Nodup := by
  refine List.Nodup.map_on ?_ ?_
  · intro left isLeft right isRight same
    exact arranged.place_inj (sublist.subset isLeft) (sublist.subset isRight) same
  · refine (arranged.offsets_increase.sublist sublist).imp ?_
    rintro left right less rfl
    exact Nat.lt_irrefl _ less

theorem docComments_sublist_comments (arranged : source.Arranged)
    (isFunction : function ∈ source.file.functions) :
    function.docComments.Sublist source.comments :=
  (sublist_flatten_of_mem (mem_map_of_mem isFunction)).trans
    (flatMap_def ▸ arranged.docComments_sublist)

/-! ## Directives that count -/

/-- An expanded function was read without an error in any of its directives. -/
theorem read_of_expanded (expanded : Expansion.ofFunction source strict files function =
      .expanded template space) :
    ∃ items : List Template.Item,
      function.directives.map (Template.readItem source.place) = items.map .ok ∧
      space.functions.map Function.case =
        function.directives.flatMap (Template.singleCases source.place) ++
          function.directives.flatMap (Template.directoryCases files source.place) ∧
      ∀ several ∈ items.filterMap Template.Item.directories?,
        several.readAll files = (several.casesOf files).map .ok := by
  rcases Expansion.ofFunction_eq_expanded expanded with ⟨bare, isRead, isLoaded, isExpanded⟩
  rcases read_eq_some isRead with ⟨_, _, body, items, _, areRead, rfl⟩
  refine ⟨items, areRead, ?_, ?_⟩
  · rw [map_case_functions isExpanded,
      show template = _ from (congrArg Prod.fst isLoaded).symm, loadDirectories_fst]
    rcases items_eq files areRead with ⟨ofCases, ofDirectories⟩
    exact congrArg₂ (· ++ ·) ofCases ofDirectories
  · intro several member
    exact readAll_of_loadDirectories (congrArg Prod.snd isLoaded) member

/-- The template that collects a directive is the one whose function it is above. -/
theorem filter_directives (arranged : source.Arranged) (isFunction : function ∈ source.file.functions)
    (counts : comment ∈ function.directives) :
    (expansions source strict files).filter (fun entry => comment ∈ entry.1.directives) =
      [(function, Expansion.ofFunction source strict files function)] := by
  refine filter_expansions arranged comment (fun other => comment ∈ other.directives)
    ?_ isFunction (decide_eq_true counts)
  intro other collects
  exact (directives_sublist _).subset (of_decide_eq_true collects)

theorem collected_of_mem_directives (arranged : source.Arranged)
    (isFunction : function ∈ source.file.functions)
    (expanded : Expansion.ofFunction source strict files function = .expanded template space)
    (member : comment ∈ function.directives) : Collected source (expansions source strict files) comment
      (Template.singleCases source.place comment ++
        Template.directoryCases files source.place comment) := by
  have sublist := (directives_sublist function.docComments).trans
    (docComments_sublist_comments arranged isFunction)
  have distinct := places_nodup arranged sublist
  refine ⟨function, template, space, ?_, ?_⟩
  · rw [← expanded]
    exact filter_directives arranged isFunction member
  · rcases read_of_expanded expanded with ⟨items, _, cases, _⟩
    have filtered : (space.functions.map Function.case).filter
          (fun case => case.position = source.place comment.offset) =
        (space.functions.filter fun generated =>
          generated.case.position = source.place comment.offset).map Function.case :=
      filter_map
    rw [cases, filter_append] at filtered
    refine filtered.symm.trans (congrArg₂ (· ++ ·) ?_ ?_)
    · exact filter_flatMap_eq distinct
        (fun _ _ _ isCase => singleCases_position isCase) member
    · exact filter_flatMap_eq distinct
        (fun _ _ _ isCase => directoryCases_position isCase) member

/-- A directive that counts has the fate of its form. -/
theorem holds_of_mem_directives (arranged : source.Arranged)
    (isFunction : function ∈ source.file.functions)
    (expanded : Expansion.ofFunction source strict files function = .expanded template space)
    (member : comment ∈ function.directives) (warnings : List Error) :
    Fate.single.Holds source strict files warnings comment ∨
      Fate.directories.Holds source strict files warnings comment := by
  have collected := collected_of_mem_directives arranged isFunction expanded member
  rcases read_of_expanded expanded with ⟨items, areRead, _, loaded⟩
  have isDirective := isDirective_of_mem_directives member
  have isRead : ∃ item ∈ items, Template.readItem source.place comment = .ok item := by
    have isResult := mem_map_of_mem (f := Template.readItem source.place) member
    rw [areRead] at isResult
    rcases mem_map.mp isResult with ⟨item, isItem, same⟩
    exact ⟨item, isItem, same.symm⟩
  rcases isRead with ⟨item, isItem, isRead⟩
  unfold Template.singleCases Template.directoryCases at collected
  cases directory : Directive.isDirectory comment.text with
  | false =>
    rw [Directive.isDirective, directory, Bool.or_false] at isDirective
    rcases readItem_eq_case isRead directory with ⟨case, parsed, rfl⟩
    rw [directory, parsed] at collected
    exact .inl ⟨isDirective, case, parsed, collected⟩
  | true =>
    rcases readItem_eq_directories isRead directory with ⟨several, parsed, rfl⟩
    rcases CaseDirectories.parse_position parsed with ⟨someDirectory, position⟩
    have isSeveral : several ∈ items.filterMap Template.Item.directories? :=
      mem_filterMap.mpr ⟨_, isItem, rfl⟩
    rcases CaseDirectories.supplies_of_readAll (loaded several isSeveral) with
      ⟨groups, supplied, same⟩
    rw [directory, parsed] at collected
    refine .inr ⟨directory, several, groups, parsed, someDirectory, position ▸ supplied, ?_⟩
    rw [← same]
    rwa [if_pos rfl, if_pos rfl, nil_append, Except.toOption, Option.toList_some,
      flatMap_singleton] at collected

/-! ## Directives that come too late -/

/-- A function without errors has directives exactly if it is a template. -/
theorem expanded_of_mem_docComments
    (noErrors : (Expansion.ofFunction source strict files function).errors = [])
    (member : comment ∈ function.docComments) (directive : isDirective comment.text = true) :
    ∃ template space, Expansion.ofFunction source strict files function = .expanded template space := by
  rcases Expansion.ofFunction_of_errors_eq_nil noErrors with plain | expanded
  · have noDirective := read_eq_none_iff.mp (Expansion.ofFunction_eq_plain plain)
    have hasDirective : ((function.doc.getD []).any
        fun comment => isDirective comment.text) = true :=
      any_eq_true.mpr ⟨comment, member, directive⟩
    rw [noDirective] at hasDirective
    cases hasDirective
  · exact expanded

/-- The directives of a file that come too late, with their functions. -/
def lateDirectives (source : ParsedFile) : List (FuncDecl × Comment) :=
  source.file.functions.flatMap fun function => function.misordered.map (Prod.mk function)

/-- The warning about a directive that comes too late. -/
def lateWarning (source : ParsedFile) (entry : FuncDecl × Comment) : Error :=
  ⟨source.place entry.2.offset, .forwarded ((entry.1.trailing.map Comment.text).headD [])⟩

theorem warnings_of_errors_eq_nil
    (noErrors : (Expansion.ofFunction source strict files function).errors = []) :
    (Expansion.ofFunction source strict files function).warnings source =
      function.misordered.map fun comment => lateWarning source (function, comment) := by
  rcases Expansion.ofFunction_of_errors_eq_nil noErrors with plain | ⟨template, space, expanded⟩
  · have none : function.misordered = [] := by
      refine filter_eq_nil_iff.mpr fun comment isTrailing directive => ?_
      have member := (trailing_sublist _).subset isTrailing
      rcases expanded_of_mem_docComments noErrors member directive with ⟨_, _, expanded⟩
      rw [plain] at expanded
      cases expanded
    rw [plain, none]
    rfl
  · rcases Expansion.ofFunction_eq_expanded expanded with ⟨bare, isRead, isLoaded, _⟩
    rcases read_eq_some isRead with ⟨_, _, body, items, _, _, rfl⟩
    rw [expanded, Expansion.warnings, Expansion.template?,
      show template = _ from (congrArg Prod.fst isLoaded).symm, loadDirectories_fst]
    rfl

/-- The warnings of a run without errors are those about late directives, in the
order of the file. -/
theorem warnings_eq_lateDirectives
    (noErrors : ∀ entry ∈ expansions source strict files, entry.2.errors = []) :
    (expansions source strict files).flatMap (fun entry => entry.2.warnings source) =
      (lateDirectives source).map (lateWarning source) := by
  rw [expansions, flatMap_map, lateDirectives, map_flatMap]
  refine flatMap_congr fun function isFunction => ?_
  rw [map_map]
  exact warnings_of_errors_eq_nil (noErrors _ (mem_map_of_mem isFunction))

theorem misordered_sublist (function : FuncDecl) : function.misordered.Sublist function.docComments :=
  filter_sublist.trans (trailing_sublist _)

theorem lateDirectives_sublist (arranged : source.Arranged) :
    ((lateDirectives source).map Prod.snd).Sublist source.comments := by
  have same : (lateDirectives source).map Prod.snd =
      source.file.functions.flatMap FuncDecl.misordered := by
    rw [lateDirectives, map_flatMap]
    refine flatMap_congr fun function _ => ?_
    rw [map_map]
    exact map_id _
  rw [same]
  exact (List.Sublist.flatMap_right _ fun function _ => misordered_sublist function).trans
    arranged.docComments_sublist

/-- Warnings come in the order of the file. -/
theorem lateWarnings_increase (arranged : source.Arranged) :
    ((lateDirectives source).map (lateWarning source)).Pairwise
      fun earlier later => earlier.position.offset < later.position.offset := by
  have sublist := lateDirectives_sublist arranged
  have increasing := pairwise_map.mp (arranged.offsets_increase.sublist sublist)
  refine pairwise_map.mpr (increasing.imp_of_mem fun isLeft isRight less => ?_)
  have inComments {entry : FuncDecl × Comment} (member : entry ∈ lateDirectives source) :
      entry.2 ∈ source.comments := sublist.subset (mem_map_of_mem member)
  rw [lateWarning, lateWarning, arranged.place_offset (inComments isLeft),
    arranged.place_offset (inComments isRight)]
  exact less

/-- A directive that comes too late has been warned about. -/
theorem holds_of_mem_trailing (arranged : source.Arranged)
    (noErrors : ∀ entry ∈ expansions source strict files, entry.2.errors = [])
    (isFunction : function ∈ source.file.functions) (member : comment ∈ function.trailing)
    (directive : isDirective comment.text = true) :
    Fate.forwarded.Holds source strict files ((lateDirectives source).map (lateWarning source))
      comment := by
  have isMisordered : comment ∈ function.misordered := mem_filter.mpr ⟨member, directive⟩
  have isLate : (function, comment) ∈ lateDirectives source :=
    mem_flatMap.mpr ⟨function, isFunction, mem_map_of_mem isMisordered⟩
  refine ⟨?_, function, Expansion.ofFunction source strict files function, ?_⟩
  · rcases expanded_of_mem_docComments (noErrors _ (mem_map_of_mem isFunction))
      ((trailing_sublist _).subset member) directive with ⟨template, space, expanded⟩
    rcases Expansion.ofFunction_eq_expanded expanded with ⟨bare, isRead, _⟩
    have readErrors := (read_eq_some isRead).2.1
    rw [Bool.eq_false_iff]
    rintro rfl
    have none : function.misordered = [] := misordered_eq_nil readErrors
    rw [none] at isMisordered
    cases isMisordered
  · rcases shape : function.trailing with _ | ⟨remark, rest⟩
    · rw [shape] at member
      cases member
    refine ⟨remark, lateWarning source (function, comment), ?_, rfl, ?_, rfl, ?_⟩
    · refine filter_expansions arranged comment (fun other => comment ∈ other.trailing)
        ?_ isFunction (decide_eq_true member)
      intro other holds
      exact (trailing_sublist _).subset (of_decide_eq_true holds)
    · have distinct := places_nodup arranged (lateDirectives_sublist arranged)
      rw [map_map] at distinct
      rw [map_eq_flatMap]
      refine filter_flatMap_eq distinct ?_ isLate
      intro entry _ warning isWarning
      rw [mem_singleton.mp isWarning]
      rfl
    · rw [lateWarning, shape]
      rfl

/-- A directive that counts does not come too late. -/
theorem not_mem_trailing_of_mem_directives (arranged : source.Arranged)
    (isFunction : function ∈ source.file.functions) (counts : comment ∈ function.directives) :
    comment ∉ function.trailing := by
  intro late
  have increasing := arranged.docComments_increase isFunction
  rw [← append_ofDoc function.docComments, pairwise_append] at increasing
  exact Nat.lt_irrefl _
    ((pairwise_append.mp increasing.2.1).2.2 comment counts comment late)

theorem Collected.exists_function {cases : List Case}
    (collected : Collected source (expansions source strict files) comment cases) :
    ∃ function ∈ source.file.functions, comment ∈ function.directives := by
  rcases collected with ⟨function, template, space, filtered, _⟩
  have member : (function, Expansion.expanded template space) ∈
      (expansions source strict files).filter (fun entry => comment ∈ entry.1.directives) := by
    rw [filtered]
    exact mem_singleton_self _
  rcases mem_filter.mp member with ⟨isEntry, counts⟩
  rcases mem_map.mp isEntry with ⟨other, isFunction, same⟩
  rw [show other = function from congrArg Prod.fst same] at isFunction
  exact ⟨function, isFunction, of_decide_eq_true counts⟩

/-- A directive with a fate other than being forwarded is in no trailing part. -/
theorem not_forwarded_of_collected (arranged : source.Arranged) {cases : List Case}
    (collected : Collected source (expansions source strict files) comment cases)
    {warnings : List Error} : ¬Fate.forwarded.Holds source strict files warnings comment := by
  rintro ⟨_, function, expansion, _, _, filtered, _⟩
  have member : (function, expansion) ∈
      (expansions source strict files).filter (fun entry => comment ∈ entry.1.trailing) := by
    rw [filtered]
    exact mem_singleton_self _
  rcases mem_filter.mp member with ⟨isEntry, late⟩
  rcases mem_map.mp isEntry with ⟨_, isFunction, same⟩
  cases same
  rcases collected.exists_function with ⟨other, isOther, counts⟩
  have sameFunction := arranged.function_unique isOther isFunction
    ((directives_sublist _).subset counts)
    ((trailing_sublist _).subset (of_decide_eq_true late))
  rw [sameFunction] at counts
  exact not_mem_trailing_of_mem_directives arranged isFunction counts (of_decide_eq_true late)

/-- Every directive is above a function, unless it is reported. -/
theorem exists_function_of_isDirective (attached : detachedDirectives source.file = [])
    (member : comment ∈ source.comments) (directive : isDirective comment.text = true) :
    ∃ function ∈ source.file.functions, comment ∈ function.docComments := by
  rcases mem_flatten.mp member with ⟨group, isGroup, inGroup⟩
  by_cases isDoc : group ∈ source.file.functions.filterMap FuncDecl.doc
  · rcases mem_filterMap.mp isDoc with ⟨function, isFunction, doc⟩
    refine ⟨function, isFunction, ?_⟩
    rwa [FuncDecl.docComments, doc]
  · have isDetached : comment ∈ detachedDirectives source.file := by
      refine mem_filter.mpr ⟨mem_flatten.mpr ⟨group, ?_, inGroup⟩, directive⟩
      refine mem_filter.mpr ⟨isGroup, ?_⟩
      rwa [Bool.not_eq_true', elem_eq_contains, Bool.eq_false_iff, ne_eq, contains_iff_mem]
    rw [attached] at isDetached
    cases isDetached

theorem Fate.holds_unique (arranged : source.Arranged) {warnings : List Error} {left right : Fate}
    (ofLeft : left.Holds source strict files warnings comment)
    (ofRight : right.Holds source strict files warnings comment) : left = right := by
  have exclusive : ¬(Directive.isCase comment.text = true ∧
      Directive.isDirectory comment.text = true) := by
    rintro ⟨case, directory⟩
    rw [Directive.not_isDirectory_of_isCase case] at directory
    cases directory
  cases left with
  | single =>
    rcases ofLeft with ⟨case, _, _, collected⟩
    cases right with
    | single => rfl
    | directories => exact absurd ⟨case, ofRight.1⟩ exclusive
    | forwarded => exact absurd ofRight (not_forwarded_of_collected arranged collected)
  | directories =>
    rcases ofLeft with ⟨directory, _, _, _, _, _, collected⟩
    cases right with
    | single => exact absurd ⟨ofRight.1, directory⟩ exclusive
    | directories => rfl
    | forwarded => exact absurd ofRight (not_forwarded_of_collected arranged collected)
  | forwarded =>
    cases right with
    | single =>
      rcases ofRight with ⟨_, _, _, collected⟩
      exact absurd ofLeft (not_forwarded_of_collected arranged collected)
    | directories =>
      rcases ofRight with ⟨_, _, _, _, _, _, collected⟩
      exact absurd ofLeft (not_forwarded_of_collected arranged collected)
    | forwarded => rfl

/-- Every directive of a file without problems has exactly one fate. -/
theorem existsUnique_fate (arranged : source.Arranged)
    (noErrors : ∀ entry ∈ expansions source strict files, entry.2.errors = [])
    (attached : detachedDirectives source.file = []) (member : comment ∈ source.comments)
    (directive : isDirective comment.text = true) : ∃! fate : Fate, fate.Holds source strict files
      ((lateDirectives source).map (lateWarning source)) comment := by
  rcases exists_function_of_isDirective attached member directive with
    ⟨function, isFunction, inDoc⟩
  rcases mem_directives_or_mem_trailing inDoc directive with counts | late
  · rcases expanded_of_mem_docComments (noErrors _ (mem_map_of_mem isFunction)) inDoc directive
      with ⟨template, space, expanded⟩
    rcases holds_of_mem_directives arranged isFunction expanded counts _ with single | directories
    · exact ⟨.single, single, fun _ other => Fate.holds_unique arranged other single⟩
    · exact ⟨.directories, directories, fun _ other => Fate.holds_unique arranged other directories⟩
  · have forwarded := holds_of_mem_trailing arranged noErrors isFunction late directive
    exact ⟨.forwarded, forwarded, fun _ other => Fate.holds_unique arranged other forwarded⟩

/-! ## Generated functions -/

/-- Every function of a namespace stands for a directive that counts. -/
theorem exists_directive_of_mem_functions
    (expanded : Expansion.ofFunction source strict files function = .expanded template space)
    {generated : Function} (member : generated ∈ space.functions) : ∃ comment ∈ function.directives,
      generated.case.position = source.place comment.offset := by
  rcases read_of_expanded expanded with ⟨_, _, cases, _⟩
  have isCase := mem_map_of_mem (f := Function.case) member
  rw [cases] at isCase
  rcases mem_append.mp isCase with ofSingle | ofDirectory
  · rcases mem_flatMap.mp ofSingle with ⟨comment, counts, inCases⟩
    exact ⟨comment, counts, singleCases_position inCases⟩
  · rcases mem_flatMap.mp ofDirectory with ⟨comment, counts, inCases⟩
    exact ⟨comment, counts, directoryCases_position inCases⟩

theorem functions_ne_nil_of_expanded (arranged : source.Arranged)
    (isFunction : function ∈ source.file.functions)
    (expanded : Expansion.ofFunction source strict files function = .expanded template space) :
    space.functions ≠ [] := by
  rcases Expansion.ofFunction_eq_expanded expanded with ⟨bare, isRead, _⟩
  rcases exists_mem_of_ne_nil _ (directives_ne_nil (read_eq_some isRead).1) with
    ⟨comment, counts⟩
  have ofFunction {cases : List Case}
      (collected : Collected source (expansions source strict files) comment cases)
      (someCase : cases ≠ []) : space.functions ≠ [] := by
    rcases collected with ⟨_, _, _, filtered, rfl⟩
    rw [filter_directives arranged isFunction counts, expanded] at filtered
    cases filtered
    rintro none
    rw [none] at someCase
    exact someCase rfl
  rcases holds_of_mem_directives arranged isFunction expanded counts [] with single | directories
  · rcases single with ⟨_, case, _, collected⟩
    exact ofFunction collected (cons_ne_nil _ _)
  · rcases directories with ⟨_, several, groups, _, someDirectory, supplied, collected⟩
    exact ofFunction collected (CaseDirectories.Supplies.flatten_ne_nil supplied someDirectory)

/-- **No directive is lost.**  In a run without a failure, every directive of the
file has exactly one fate; warnings come in the order of the file, each for a
directive that is forwarded; every generated function stands for a directive that
its template has collected; and there is at least one such function. -/
theorem no_directive_is_lost (generator : Generator) (disk : Disk) (filename text : Bytes)
    (source : ParsedFile) (parsed : parseFile filename text = .ok source)
    (succeeds : (generator.generate disk filename (.ok text)).2.failure = none) :
    let files := generator.fileSystem disk filename
    let found := expansions source generator.strict files
    let warnings := (generator.generate disk filename (.ok text)).2.warnings
    (∀ comment ∈ source.comments, Directive.isDirective comment.text = true →
      ∃! fate : Fate, fate.Holds source generator.strict files warnings comment) ∧
    warnings.Pairwise (fun earlier later => earlier.position.offset < later.position.offset) ∧
    (∀ warning ∈ warnings, ∃ comment ∈ source.comments,
      Directive.isDirective comment.text = true ∧ warning.position = source.place comment.offset ∧
        Fate.forwarded.Holds source generator.strict files warnings comment) ∧
    (∀ function template space, (function, Expansion.expanded template space) ∈ found →
      ∀ generated ∈ space.functions, ∃ comment ∈ source.comments,
        Directive.isDirective comment.text = true ∧
        generated.case.position = source.place comment.offset ∧
        found.filter (fun entry => comment ∈ entry.1.directives) =
          [(function, .expanded template space)] ∧
        (Fate.single.Holds source generator.strict files warnings comment ∨
          Fate.directories.Holds source generator.strict files warnings comment)) ∧
    ∃ function template space generated, (function, Expansion.expanded template space) ∈ found ∧
      generated ∈ space.functions := by
  intro files found warnings
  have arranged := parseFile_arranged parsed
  rcases Generator.generate_succeeds succeeds with ⟨text', source', sameText, parsed', noProblems, rest⟩
  cases sameText
  rw [parsed] at parsed'
  cases parsed'
  rcases fileErrors_eq_nil noProblems with ⟨_, noErrors, attached, entry, isEntry, isTemplate⟩
  have ofFunction {function : FuncDecl} {expansion : Expansion}
      (member : (function, expansion) ∈ found) : function ∈ source.file.functions ∧
        Expansion.ofFunction source generator.strict files function = expansion := by
    rcases mem_map.mp member with ⟨_, isFunction, same⟩
    cases same
    exact ⟨isFunction, rfl⟩
  have areLate : warnings = (lateDirectives source).map (lateWarning source) :=
    rest.trans (warnings_eq_lateDirectives noErrors)
  refine ⟨?_, ?_, ?_, ?_, ?_⟩
  · intro comment member directive
    rw [areLate]
    exact existsUnique_fate arranged noErrors attached member directive
  · rw [areLate]
    exact lateWarnings_increase arranged
  · intro warning isWarning
    rw [areLate] at isWarning ⊢
    rcases mem_map.mp isWarning with ⟨⟨function, comment⟩, isLate, rfl⟩
    rcases mem_flatMap.mp isLate with ⟨other, isFunction, isMisordered⟩
    rcases mem_map.mp isMisordered with ⟨_, isMisordered, same⟩
    cases same
    rcases mem_filter.mp isMisordered with ⟨isTrailing, directive⟩
    have inDoc := (trailing_sublist _).subset isTrailing
    exact ⟨comment, arranged.mem_comments isFunction inDoc, directive, rfl,
      holds_of_mem_trailing arranged noErrors isFunction isTrailing directive⟩
  · intro function template space isFound generated isGenerated
    rcases ofFunction isFound with ⟨isFunction, expanded⟩
    rcases exists_directive_of_mem_functions expanded isGenerated with ⟨comment, counts, position⟩
    have inDoc := (directives_sublist _).subset counts
    refine ⟨comment, arranged.mem_comments isFunction inDoc,
      isDirective_of_mem_directives counts, position, ?_,
      holds_of_mem_directives arranged isFunction expanded counts warnings⟩
    rw [← expanded]
    exact filter_directives arranged isFunction counts
  · rcases entry with ⟨function, expansion⟩
    rcases ofFunction isEntry with ⟨isFunction, rfl⟩
    rcases Expansion.ofFunction_of_errors_eq_nil (noErrors _ isEntry) with
      plain | ⟨template, space, expanded⟩
    · rw [plain] at isTemplate
      cases isTemplate
    · rcases exists_mem_of_ne_nil _ (functions_ne_nil_of_expanded arranged isFunction expanded)
        with ⟨generated, isGenerated⟩
      rw [expanded] at isEntry
      exact ⟨function, template, space, generated, isEntry, isGenerated⟩

/-- A file with a directive of each fate: the last one comes after another
annotation. -/
def mixedFile : Bytes :=
  "//go:build casegen\n\npackage p\n\n//casegen:dir \"d\"\n//casegen:case \"x\", \"y\"; \"b\"\n//go:noinline\n//casegen:case \"z\", \"w\"; \"c\"\nfunc f(path, contents string) \x7b\n\tprintln(path, contents)\n\x7d\n"

def mixedDisk : Disk :=
  .ofEntries [("d/a.txt", .regular "one")]

theorem no_directive_of_mixed_file_is_lost :
    (Generator.generate {} mixedDisk "x.go" (.ok mixedFile)).2.failure = none ∧
    ∃ source, parseFile "x.go" mixedFile = .ok source ∧
      source.comments.countP (fun comment => Directive.isDirective comment.text) = 3 ∧
      ∀ comment ∈ source.comments, Directive.isDirective comment.text = true →
        ∃! fate : Fate, fate.Holds source false (Generator.fileSystem {} mixedDisk "x.go")
          (Generator.generate {} mixedDisk "x.go" (.ok mixedFile)).2.warnings comment := by
  have checked : (parseFile "x.go" mixedFile).toOption.any (fun source =>
      Generator.fits {} (Generator.fileSystem {} mixedDisk "x.go") "x.go" source &&
        source.comments.countP (fun comment => isDirective comment.text) == 3) = true := by
    decide +kernel
  rcases exists_ok_of_any checked with ⟨source, parsed, passes⟩
  rw [Bool.and_eq_true, beq_iff_eq] at passes
  rcases passes with ⟨fits, three⟩
  have succeeds := (generate_of_fits (Or.inl ⟨rfl, rfl⟩) parsed fits).1
  exact ⟨succeeds, source, parsed, three,
    (no_directive_is_lost {} mixedDisk "x.go" mixedFile source parsed succeeds).1⟩

end CaseExpansion
