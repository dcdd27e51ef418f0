import CaseExpansion.Proofs.Files.Listing
import CaseExpansion.Proofs.Generator.Fates

namespace CaseExpansion

open List Source
open Directive (isDirectory)

/-!
# The order in which cases are listed

A namespace lists its functions in two rows.  First come those of the directives that give
one case, in the order of the file, and after them those of the directories, again in the
order of the file.  Within a directive, they follow its directories and then the names of
the files.  The list as a whole follows the file exactly if no directive with directories
stands above one with a case; otherwise it steps back.
-/

theorem Generator.fileSystem_listsByName (generator : Generator) (disk : Disk) (filename : Bytes) :
    (generator.fileSystem disk filename).ListsByName := by
  unfold fileSystem
  split
  next tree _ => exact tree.virtual_listsByName
  next => exact disk.rooted_listsByName _

/-- A list of functions in the order of the places of their directives. -/
def InSourceOrder (functions : List Function) : Prop :=
  functions.Pairwise fun earlier later => earlier.case.position.offset ≤ later.case.position.offset

namespace CaseDirectories

/-- Cases stand for files of a directory in the order of the names of these files. -/
def FollowNames (files : FileSystem) (position : Position) (directory : Bytes)
    (cases : List Case) : Prop :=
  ∃ names : List Bytes, names.Pairwise (fun earlier later => (Bytes.compare earlier later).isLE = true) ∧
    List.Forall₂ (fun name case => ∃ contents,
      files.read (Path.join [Path.clean directory, name]) = .ok contents ∧
        case = fileCase position (Path.join [Path.clean directory, name]) contents) names cases

theorem Supplies.followNames {files : FileSystem} (byName : files.ListsByName) {position : Position}
    {directory : Bytes} {cases : List Case} (supplies : Supplies files position directory cases) :
    FollowNames files position directory cases := by
  obtain ⟨entries, listed, _, pointwise⟩ := supplies
  refine ⟨(entries.filter DirectoryEntry.isRegular).map DirectoryEntry.name, ?_, ?_⟩
  · rw [pairwise_map]
    exact (byName _ _ listed).filter _
  · rw [forall₂_map_left_iff]
    exact pointwise

end CaseDirectories

/-! ## One row of functions -/

variable {source : ParsedFile} {strict : Bool} {files : FileSystem} {function : FuncDecl}
  {comment : Comment}
  {template : Template} {space : Namespace}

/-- A row of functions for all directives of one form, in the order of the file. -/
structure IsRow (source : ParsedFile) (function : FuncDecl) (ofDirectories : Bool)
    (row : List Function) : Prop where
  ordered : InSourceOrder row
  given : ∀ generated ∈ row, ∃ comment ∈ function.directives,
    isDirectory comment.text = ofDirectories ∧
      generated.case.position = source.place comment.offset
  complete : ∀ comment ∈ function.directives, isDirectory comment.text = ofDirectories →
    ∃ generated ∈ row, generated.case.position = source.place comment.offset

theorem directives_sublist_comments (arranged : source.Arranged)
    (isFunction : function ∈ source.file.functions) : function.directives.Sublist source.comments :=
  (DocParts.directives_sublist _).trans (docComments_sublist_comments arranged isFunction)

/-- Cases stand at the places of the comments that contribute them, so that they come in the
order of the file. -/
theorem pairwise_flatMap_of_placed (arranged : source.Arranged) {comments : List Comment}
    (sublist : comments.Sublist source.comments) {contribute : Comment → List Case}
    (placed : ∀ comment case, case ∈ contribute comment → case.position = source.place comment.offset) :
    (comments.flatMap contribute).Pairwise fun earlier later =>
      earlier.position.offset ≤ later.position.offset := by
  have offset {comment : Comment} (member : comment ∈ comments) {case : Case}
      (isCase : case ∈ contribute comment) : case.position.offset = comment.offset := by
    rw [placed comment case isCase]
    exact arranged.place_offset (sublist.subset member)
  rw [pairwise_flatMap]
  constructor
  · intro comment member
    apply pairwise_of_forall_mem_list
    intro earlier isEarlier later isLater
    rw [offset member isEarlier, offset member isLater]
  · apply (arranged.offsets_increase.sublist sublist).imp_of_mem
    intro left right isLeft isRight less earlier isEarlier later isLater
    rw [offset isLeft isEarlier, offset isRight isLater]
    exact less.le

/-- The functions of the cases that the directives of one form contribute are a row. -/
theorem isRow_of_contributed (arranged : source.Arranged) (isFunction : function ∈ source.file.functions)
    {contribute : Comment → List Case} {ofDirectories : Bool}
    (placed : ∀ comment case, case ∈ contribute comment →
      isDirectory comment.text = ofDirectories ∧ case.position = source.place comment.offset)
    (nonempty : ∀ comment ∈ function.directives, isDirectory comment.text = ofDirectories →
      contribute comment ≠ [])
    {row : List Function} (contributed : row.map Function.case =
      function.directives.flatMap contribute) :
    IsRow source function ofDirectories row where
  ordered := by
    have ordered := pairwise_flatMap_of_placed arranged (directives_sublist_comments arranged isFunction)
      fun comment case isCase => (placed comment case isCase).2
    rw [← contributed, pairwise_map] at ordered
    exact ordered
  given := by
    intro generated member
    have isCase := mem_map_of_mem (f := Function.case) member
    rw [contributed] at isCase
    obtain ⟨comment, isDirective, isContributed⟩ := mem_flatMap.mp isCase
    exact ⟨comment, isDirective, placed comment _ isContributed⟩
  complete := by
    intro comment member form
    obtain ⟨case, isContributed⟩ := exists_mem_of_ne_nil _ (nonempty comment member form)
    have isCase := mem_flatMap.mpr ⟨comment, member, isContributed⟩
    rw [← contributed] at isCase
    obtain ⟨generated, isGenerated, rfl⟩ := mem_map.mp isCase
    exact ⟨generated, isGenerated, (placed comment _ isContributed).2⟩

/-! ## Both rows -/

/-- Every directive of an expanded function has given a case, by itself or through a directory. -/
theorem cases_ne_nil_of_mem_directives
    (expanded : Expansion.ofFunction source strict files function = .expanded template space)
    (member : comment ∈ function.directives) :
    (isDirectory comment.text = false → Template.singleCases source.place comment ≠ []) ∧
      (isDirectory comment.text = true →
        Template.directoryCases files source.place comment ≠ []) := by
  obtain ⟨items, areRead, _, loaded⟩ := read_of_expanded expanded
  have isResult := mem_map_of_mem (f := Template.readItem source.place) member
  rw [areRead] at isResult
  obtain ⟨item, isItem, isRead⟩ := mem_map.mp isResult
  constructor
  · intro single
    obtain ⟨case, parsed, rfl⟩ := Template.readItem_eq_case isRead.symm single
    simp [Template.singleCases, single, parsed, Except.toOption]
  · intro directory
    obtain ⟨several, parsed, rfl⟩ := Template.readItem_eq_directories isRead.symm directory
    have isSeveral : several ∈ items.filterMap Template.Item.directories? :=
      mem_filterMap.mpr ⟨_, isItem, rfl⟩
    obtain ⟨groups, supplied, same⟩ := CaseDirectories.supplies_of_readAll (loaded several isSeveral)
    simp only [Template.directoryCases, directory, if_true, parsed, Except.toOption, Option.toList_some,
      flatMap_singleton, same]
    exact CaseDirectories.Supplies.flatten_ne_nil supplied (CaseDirectories.parse_position parsed).1

theorem Template.isDirectory_of_mem_singleCases {place : Nat → Position} {case : Case}
    (member : case ∈ singleCases place comment) : isDirectory comment.text = false := by
  rw [Bool.eq_false_iff]
  intro directory
  rw [singleCases, if_pos directory] at member
  cases member

theorem Template.isDirectory_of_mem_directoryCases {place : Nat → Position} {case : Case}
    (member : case ∈ directoryCases files place comment) :
    isDirectory comment.text = true := by
  by_contra single
  rw [directoryCases, if_neg single] at member
  cases member

/-- The functions of the directives that give one case come before those of the directories. -/
theorem exists_rows (arranged : source.Arranged) (isFunction : function ∈ source.file.functions)
    (expanded : Expansion.ofFunction source strict files function = .expanded template space) :
    ∃ singles others, space.functions = singles ++ others ∧
      IsRow source function false singles ∧ IsRow source function true others := by
  obtain ⟨_, _, cases, _⟩ := read_of_expanded expanded
  obtain ⟨singles, others, split, ofSingles, ofOthers⟩ := map_eq_append_iff.mp cases
  refine ⟨singles, others, split, ?_, ?_⟩
  · apply isRow_of_contributed arranged isFunction _ _ ofSingles
    · intro comment case isCase
      exact ⟨Template.isDirectory_of_mem_singleCases isCase, Template.singleCases_position isCase⟩
    · intro comment member
      exact (cases_ne_nil_of_mem_directives expanded member).1
  · apply isRow_of_contributed arranged isFunction _ _ ofOthers
    · intro comment case isCase
      exact ⟨Template.isDirectory_of_mem_directoryCases isCase, Template.directoryCases_position isCase⟩
    · intro comment member
      exact (cases_ne_nil_of_mem_directives expanded member).2

/-- The functions are listed in the order of the file exactly if every directive with
directories comes after all that give one case. -/
theorem inSourceOrder_iff (arranged : source.Arranged) (isFunction : function ∈ source.file.functions)
    (expanded : Expansion.ofFunction source strict files function = .expanded template space) :
    InSourceOrder space.functions ↔
      ∀ single ∈ function.directives, ∀ several ∈ function.directives,
        isDirectory single.text = false → isDirectory several.text = true →
          single.offset < several.offset := by
  obtain ⟨singles, others, split, ofCases, ofDirectories⟩ := exists_rows arranged isFunction expanded
  have placeOffset {comment : Comment} (member : comment ∈ function.directives) :
      (source.place comment.offset).offset = comment.offset :=
    arranged.place_offset ((directives_sublist_comments arranged isFunction).subset member)
  rw [split, InSourceOrder, pairwise_append]
  constructor
  · rintro ⟨_, _, between⟩ single isSingle several isSeveral givesCase givesDirectories
    obtain ⟨left, isLeft, leftPlace⟩ := ofCases.complete single isSingle givesCase
    obtain ⟨right, isRight, rightPlace⟩ := ofDirectories.complete several isSeveral givesDirectories
    have ordered := between left isLeft right isRight
    rw [leftPlace, rightPlace, placeOffset isSingle, placeOffset isSeveral] at ordered
    apply lt_of_le_of_ne ordered
    intro same
    have sameComment : single = several := by
      have sublist := directives_sublist_comments arranged isFunction
      apply arranged.place_inj (sublist.subset isSingle) (sublist.subset isSeveral)
      rw [same]
    rw [sameComment, givesDirectories] at givesCase
    cases givesCase
  · intro before
    refine ⟨ofCases.ordered, ofDirectories.ordered, ?_⟩
    intro left isLeft right isRight
    obtain ⟨single, isSingle, givesCase, leftPlace⟩ := ofCases.given left isLeft
    obtain ⟨several, isSeveral, givesDirectories, rightPlace⟩ := ofDirectories.given right isRight
    rw [leftPlace, rightPlace, placeOffset isSingle, placeOffset isSeveral]
    exact (before single isSingle several isSeveral givesCase givesDirectories).le

/-- The functions that stand for a directive with directories follow its directories, and in
each of them the names of the files. -/
theorem followNames_of_mem_directives (arranged : source.Arranged)
    (isFunction : function ∈ source.file.functions) (byName : files.ListsByName)
    (expanded : Expansion.ofFunction source strict files function = .expanded template space)
    (member : comment ∈ function.directives) (directory : isDirectory comment.text = true) :
    ∃ several groups, CaseDirectories.parse source.place comment = .ok several ∧
      List.Forall₂ (CaseDirectories.FollowNames files several.position) several.directories groups ∧
      (space.functions.filter fun generated =>
        generated.case.position = source.place comment.offset).map Function.case = groups.flatten := by
  rcases holds_of_mem_directives arranged isFunction expanded member [] with single | directories
  · rw [Directive.not_isDirectory_of_isCase single.1] at directory
    cases directory
  · obtain ⟨_, several, groups, parsed, _, supplied, collected⟩ := directories
    obtain ⟨_, _, _, filtered, same⟩ := collected
    rw [filter_directives arranged isFunction member, expanded] at filtered
    cases filtered
    refine ⟨several, groups, parsed, ?_, same⟩
    rw [(CaseDirectories.parse_position parsed).2]
    exact supplied.imp fun _ _ => CaseDirectories.Supplies.followNames byName

theorem ofFunction_of_steps {loaded : Template}
    (isRead : Template.read source function strict = .ok (some template))
    (isLoaded : template.loadDirectories files = (loaded, [])) (isExpanded : loaded.expand = .ok space) :
    Expansion.ofFunction source strict files function = .expanded loaded space := by
  simp only [Expansion.ofFunction, isRead, isLoaded, isExpanded]

/-- The functions of a template are listed in the order of the file exactly if no directive
with directories stands above one that gives a case.  In any case the functions of the latter
come first and those of the directories after them, both in the order of the file, and the
functions of one directive follow its directories and then the names of the files. -/
theorem functions_follow_file_iff {filename text : Bytes} {source : ParsedFile}
    (parsed : parseFile filename text = .ok source) {function : FuncDecl}
    (isFunction : function ∈ source.file.functions) {strict : Bool} {files : FileSystem}
    {template loaded : Template} {space : Namespace}
    (isRead : Template.read source function strict = .ok (some template))
    (isLoaded : template.loadDirectories files = (loaded, []))
    (isExpanded : loaded.expand = .ok space) :
    (InSourceOrder space.functions ↔
      ∀ single ∈ function.directives, ∀ several ∈ function.directives,
        Directive.isDirectory single.text = false → Directive.isDirectory several.text = true →
          single.offset < several.offset) ∧
    (∃ singles others, space.functions = singles ++ others ∧
      IsRow source function false singles ∧ IsRow source function true others) ∧
    (files.ListsByName → ∀ comment ∈ function.directives, Directive.isDirectory comment.text = true →
      ∃ several groups, CaseDirectories.parse source.place comment = .ok several ∧
        List.Forall₂ (CaseDirectories.FollowNames files several.position) several.directories groups ∧
        (space.functions.filter fun generated =>
          generated.case.position = source.place comment.offset).map Function.case =
            groups.flatten) := by
  have arranged := parseFile_arranged parsed
  have expanded := ofFunction_of_steps isRead isLoaded isExpanded
  refine ⟨inSourceOrder_iff arranged isFunction expanded, exists_rows arranged isFunction expanded, ?_⟩
  intro byName comment member directory
  exact followNames_of_mem_directives arranged isFunction byName expanded member directory

/-! ## A list that steps back -/

instance (functions : List Function) : Decidable (InSourceOrder functions) :=
  inferInstanceAs (Decidable (List.Pairwise _ _))

theorem exists_steps_of_space? {filename text : Bytes} {test : ParsedFile → FuncDecl → Namespace → Bool}
    (checked : (parseFile filename text).toOption.any (fun source =>
      source.file.functions.any fun function =>
        (Expansion.ofFunction source strict files function).space?.any (test source function)) = true) :
    ∃ source function template loaded space, parseFile filename text = .ok source ∧
      function ∈ source.file.functions ∧ Template.read source function strict = .ok (some template) ∧
      template.loadDirectories files = (loaded, []) ∧ loaded.expand = .ok space ∧
      test source function space = true := by
  obtain ⟨source, parsed, someFunction⟩ := exists_ok_of_any checked
  obtain ⟨function, isFunction, passes⟩ := any_eq_true.mp someFunction
  cases found : Expansion.ofFunction source strict files function with
  | expanded loaded space =>
    obtain ⟨template, isRead, isLoaded, isExpanded⟩ := Expansion.ofFunction_eq_expanded found
    rw [found] at passes
    exact ⟨source, function, template, loaded, space, parsed, isFunction, isRead, isLoaded,
      isExpanded, passes⟩
  | plain | unreadable | unexpanded =>
    rw [found] at passes
    cases passes

/-- A directory above a case. -/
def steppingFile : Bytes :=
  "package p\n\n//casegen:dir \"d\"\n//casegen:case \"x\", \"y\"; \"b\"\nfunc f(path, contents string) \x7b\x7d\n"

/-- The case of a directory is listed after one that is declared below the directory. -/
theorem directory_above_case_is_listed_below :
    ∃ source function template loaded space, parseFile "x.go" steppingFile = .ok source ∧
      function ∈ source.file.functions ∧ Template.read source function false = .ok (some template) ∧
      template.loadDirectories (FileTree.virtual ⟨[("d/a.txt", .regular "one")]⟩) = (loaded, []) ∧
      loaded.expand = .ok space ∧ ¬InSourceOrder space.functions := by
  have checked : (parseFile "x.go" steppingFile).toOption.any (fun source =>
      source.file.functions.any fun function =>
        (Expansion.ofFunction source false (FileTree.virtual ⟨[("d/a.txt", .regular "one")]⟩)
          function).space?.any fun space => !decide (InSourceOrder space.functions)) = true := by
    decide +kernel
  obtain ⟨source, function, template, loaded, space, parsed, isFunction, isRead, isLoaded,
    isExpanded, passes⟩ := exists_steps_of_space? checked
  exact ⟨source, function, template, loaded, space, parsed, isFunction, isRead, isLoaded, isExpanded,
    by simpa using passes⟩

/-- A case above two directories. -/
def steadyFile : Bytes :=
  "package p\n\n//casegen:case \"x\", \"y\"; \"b\"\n//casegen:dir \"e\", \"d\"\nfunc f(path, contents string) \x7b\x7d\n"

/-- The files that a generator reads below these directories. -/
def steadyFiles : FileSystem :=
  Generator.fileSystem
    { files := some ⟨[("d/a.txt", .regular "one"), ("e/b.txt", .regular "two")]⟩ } {} "x.go"

theorem functions_of_steady_file_follow_file :
    ∃ source function template loaded space, parseFile "x.go" steadyFile = .ok source ∧
      function ∈ source.file.functions ∧ Template.read source function false = .ok (some template) ∧
      template.loadDirectories steadyFiles = (loaded, []) ∧ loaded.expand = .ok space ∧
      space.functions.length = 3 ∧ InSourceOrder space.functions ∧
      ∀ comment ∈ function.directives, Directive.isDirectory comment.text = true →
        ∃ several groups, CaseDirectories.parse source.place comment = .ok several ∧
          List.Forall₂ (CaseDirectories.FollowNames steadyFiles several.position)
            several.directories groups ∧
          (space.functions.filter fun generated =>
            generated.case.position = source.place comment.offset).map Function.case =
              groups.flatten := by
  have checked : (parseFile "x.go" steadyFile).toOption.any (fun source =>
      source.file.functions.any fun function =>
        (Expansion.ofFunction source false steadyFiles function).space?.any fun space =>
          space.functions.length == 3 && decide (∀ single ∈ function.directives,
            ∀ several ∈ function.directives, isDirectory single.text = false →
              isDirectory several.text = true → single.offset < several.offset)) = true := by
    decide +kernel
  obtain ⟨source, function, template, loaded, space, parsed, isFunction, isRead, isLoaded,
    isExpanded, passes⟩ := exists_steps_of_space? checked
  rw [Bool.and_eq_true, beq_iff_eq, decide_eq_true_eq] at passes
  have follows := functions_follow_file_iff parsed isFunction isRead isLoaded isExpanded
  exact ⟨source, function, template, loaded, space, parsed, isFunction, isRead, isLoaded, isExpanded,
    passes.1, follows.1.mpr passes.2, follows.2.2 (Generator.fileSystem_listsByName _ _ _)⟩

end CaseExpansion
