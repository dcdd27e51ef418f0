import CaseExpansion.Proofs.Rendering.Builtin

namespace CaseExpansion
namespace Rendering

open List

/-!
# The layout of a namespace

What the built-in pattern writes for a namespace is a row of lines (`layout`): the doc comment, the type,
the list of all cases with a line for each of them, and then the functions, with an empty line
before each
one.  Fields of the namespace may hold line feeds of their own, and a line is then a stretch of text that
starts after a line feed and is followed by one.

The last line always ends with a brace.  Dropping the line feeds at the end of the text therefore drops
exactly one, whatever the fields hold.
-/

/-! ## Lines -/

/-- The lines of the doc comment. -/
def docLines (space : Namespace) : List Bytes :=
  if space.doc = [] then
    ["// " ++ space.name ++ " groups the cases generated from the " ++ space.name ++ " template."]
  else space.doc

/-- The line of a case in the list of all cases: its name, and its function as a method value. -/
def rowLine (space : Namespace) (function : Function) : Bytes :=
  "\t\t\x7b" ++ Text.Quoted.encode function.case.name ++ ", " ++ space.name ++ "\x7b\x7d." ++
    function.ident
    ++ "\x7d,"

/-- The lines with which the list of all cases starts. -/
def listStart (space : Namespace) : List Bytes :=
  ["// Cases lists the cases of " ++ space.name ++ " in declaration order.",
    "func (" ++ space.name ++ ") Cases() []struct \x7b",
    "\tName string",
    "\tRun  " ++ space.runType,
    "\x7d \x7b",
    "\treturn []struct \x7b",
    "\t\tName string",
    "\t\tRun  " ++ space.runType,
    "\t\x7d\x7b"]

/-- The lines with which the list of all cases ends. -/
def listStop : List Bytes :=
  ["\t\x7d", "\x7d"]

/-- The line with which a function starts.  Results are set off by a blank. -/
def headerLine (space : Namespace) (function : Function) : Bytes :=
  "func (" ++ space.name ++ ") " ++ function.ident ++ "(" ++ space.context ++ ")"
    ++ (if space.results = [] then [] else byte ' ' :: space.results) ++ " \x7b"

/-- The line that declares a parameter. -/
def bindingLine (binding : Binding) : Bytes :=
  "\tvar " ++ binding.param.name ++ " " ++ binding.param.type ++ " = " ++ binding.value

/-- The line that guards a parameter which the body does not use. -/
def guardLine (name : Bytes) : Bytes :=
  "\t_ = " ++ name

/-- The lines of a function, with the empty line before it.  The last one is the body, up to the
brace. -/
def functionLines (space : Namespace) (function : Function) : List Bytes :=
  [] :: space.trailing ++ headerLine space function :: function.bindings.map bindingLine
    ++ function.unused.map guardLine ++ [space.body ++ "\x7d"]

/-- The lines of a namespace. -/
def layout (space : Namespace) : List Bytes :=
  docLines space ++ ("type " ++ space.name ++ " struct\x7b\x7d") :: [] :: listStart space
    ++ space.functions.map (rowLine space) ++ listStop ++ space.functions.flatMap (functionLines space)

/-! ## Lines and texts -/

theorem linesText_append (lines others : List Bytes) :
    linesText (lines ++ others) = linesText lines ++ linesText others :=
  flatMap_append

theorem linesText_cons (line : Bytes) (lines : List Bytes) :
    linesText (line :: lines) = line ++ "\n" ++ linesText lines :=
  flatMap_cons

theorem linesText_nil : linesText [] = [] := rfl

theorem linesText_flatMap {α : Type} (members : List α) (lines : α → List Bytes) :
    linesText (members.flatMap lines) = members.flatMap fun member => linesText (lines member) :=
  flatMap_assoc

theorem linesText_map {α : Type} (members : List α) (line : α → Bytes) :
    linesText (members.map line) = members.flatMap fun member => line member ++ Bytes.ofString "\n" :=
  flatMap_map ..

/-- Lines with line feeds between them lack the line feed at the end only. -/
theorem joinWith_append_singleton (lines : List Bytes) (last : Bytes) :
    Bytes.joinWith "\n" (lines ++ [last]) = linesText lines ++ last := by
  induction lines with
  | nil => rfl
  | cons line lines ih =>
    rw [linesText_cons, append_assoc, ← ih]
    cases lines <;> rfl

/-! ## The text of a layout -/

theorem linesText_docLines (space : Namespace) : linesText (docLines space) = docText space := by
  unfold docLines docText
  by_cases none : space.doc = []
  · rw [if_pos none, if_pos (List.isEmpty_iff.mpr none), linesText_cons, linesText_nil]
    simp only [append_assoc, append_nil]
    rfl
  · rw [if_neg none, if_neg (fun empty => none (List.isEmpty_iff.mp empty))]

theorem rowLine_text (space : Namespace) (function : Function) :
    rowLine space function ++ Bytes.ofString "\n" = rowText space function := by
  simp only [rowLine, rowText, append_assoc]
  rfl

theorem linesText_functionLines (space : Namespace) (function : Function) :
    linesText (functionLines space function) = functionText space function := by
  have guards (name : Bytes) : guardLine name ++ Bytes.ofString "\n" = guardText name := rfl
  have bindings (binding : Binding) : bindingLine binding ++ Bytes.ofString "\n" =
      bindingText binding := rfl
  simp only [functionLines, linesText_append, linesText_cons, linesText_map, linesText_nil,
    bindings, guards, functionText,
    headerLine, List.isEmpty_iff, append_assoc, append_nil, nil_append]
  rfl

theorem linesText_layout (space : Namespace) : linesText (layout space) = namespaceText space := by
  simp only [layout, listStart, listStop, linesText_append, linesText_cons, linesText_map, linesText_nil,
    linesText_flatMap, linesText_docLines, linesText_functionLines, rowLine_text, namespaceText,
    append_assoc, append_nil, nil_append]
  rfl

/-! ## The last line -/

/-- The last line ends with a brace: the one of the last function, or the one of the list of cases. -/
theorem exists_last_line (space : Namespace) :
    ∃ lines stem, layout space = lines ++ [stem ++ Bytes.ofString "\x7d"] := by
  rcases eq_nil_or_concat space.functions with none | ⟨earlier, last, functions⟩
  · rw [layout, none, map_nil, flatMap_nil, append_nil, append_nil, listStop, append_cons]
    exact ⟨_, [], rfl⟩
  · rw [concat_eq_append] at functions
    rw [layout, functions, flatMap_append, flatMap_singleton]
    rw [functionLines, ← append_assoc, ← append_assoc]
    exact ⟨_, space.body, rfl⟩

theorem dropTailWhile_brace (text : Bytes) :
    Bytes.dropTailWhile (· == byte '\n') (text ++ "\x7d" ++ "\n") = text ++ "\x7d" := by
  have brace : (byte '\x7d' == byte '\n') = false := by decide
  unfold Bytes.dropTailWhile
  rw [reverse_append, reverse_append]
  change (List.dropWhile (· == byte '\n') (byte '\n' :: byte '\x7d' :: text.reverse)).reverse = _
  rw [dropWhile_cons, if_pos (by decide), dropWhile_cons, brace, if_neg Bool.false_ne_true,
    reverse_cons, reverse_reverse]
  rfl

/-- Without the line feeds at its end, the text of a namespace is its lines with line feeds between
them. -/
theorem dropTailWhile_layout (space : Namespace) :
    Bytes.dropTailWhile (· == byte '\n') (linesText (layout space)) =
      Bytes.joinWith "\n" (layout space) := by
  rcases exists_last_line space with ⟨lines, stem, isLayout⟩
  rw [isLayout, joinWith_append_singleton, linesText_append, linesText_cons, linesText_nil, append_nil,
    ← append_assoc, ← append_assoc]
  exact dropTailWhile_brace _

/-- Without an archive of its own, a generator renders every namespace, and it writes the lines of
the layout.
Of the line feeds after them only the last one is dropped. -/
theorem builtin_layout_is_rendered (disk : Disk) {patterns : Patterns}
    (incomplete : patterns.isComplete = false) (space : Namespace) :
    ∃ file pattern, patterns.load disk [] = (⟨some file, some pattern⟩, none) ∧
      (∀ memory, renderNamespace pattern memory space =
        .ok (Bytes.dropTailWhile (· == byte '\n') (linesText (layout space)))) ∧
      Bytes.dropTailWhile (· == byte '\n') (linesText (layout space)) =
        Bytes.joinWith "\n" (layout space) := by
  rcases Patterns.load_builtin disk incomplete with ⟨file, pattern, loaded, isBuiltin⟩
  refine ⟨file, pattern, loaded, ?_, dropTailWhile_layout space⟩
  intro memory
  rw [renderNamespace_builtin isBuiltin.isSpace, linesText_layout]

/-- A namespace without a doc comment, whose second function has neither parameters nor guards. -/
def annotatedSpace : Namespace where
  name := "Sum"
  doc := []
  context := "ctx context.Context"
  results := "error"
  runType := "func(context.Context) error"
  body := "\treturn add(ctx, a)\n"
  trailing := ["//nolint:unparam"]
  functions :=
    [{ ident := "one_two"
       case := { arguments := ["1", "2"], name := "one\ttwo" }
       bindings := [⟨{ name := "a", type := "int" }, "1"⟩, ⟨{ name := "b", type := "int" }, "2"⟩]
       unused := ["b"] },
     { ident := "none", case := { arguments := [], name := "none" }, bindings := [], unused := [] }]

theorem layout_of_annotated_space_is_rendered :
    ({} : Patterns).isComplete = false ∧
      ∃ file pattern, ({} : Patterns).load {} [] = (⟨some file, some pattern⟩, none) ∧
        ∀ memory, renderNamespace pattern memory annotatedSpace = .ok (Bytes.ofString <|
          "// Sum groups the cases generated from the Sum template.\n" ++
          "type Sum struct\x7b\x7d\n" ++
          "\n" ++
          "// Cases lists the cases of Sum in declaration order.\n" ++
          "func (Sum) Cases() []struct \x7b\n" ++
          "\tName string\n" ++
          "\tRun  func(context.Context) error\n" ++
          "\x7d \x7b\n" ++
          "\treturn []struct \x7b\n" ++
          "\t\tName string\n" ++
          "\t\tRun  func(context.Context) error\n" ++
          "\t\x7d\x7b\n" ++
          "\t\t\x7b\"one\\ttwo\", Sum\x7b\x7d.one_two\x7d,\n" ++
          "\t\t\x7b\"none\", Sum\x7b\x7d.none\x7d,\n" ++
          "\t\x7d\n" ++
          "\x7d\n" ++
          "\n" ++
          "//nolint:unparam\n" ++
          "func (Sum) one_two(ctx context.Context) error \x7b\n" ++
          "\tvar a int = 1\n" ++
          "\tvar b int = 2\n" ++
          "\t_ = b\n" ++
          "\treturn add(ctx, a)\n" ++
          "\x7d\n" ++
          "\n" ++
          "//nolint:unparam\n" ++
          "func (Sum) none(ctx context.Context) error \x7b\n" ++
          "\treturn add(ctx, a)\n" ++
          "\x7d") := by
  refine ⟨rfl, ?_⟩
  rcases @builtin_layout_is_rendered {} {} rfl annotatedSpace with
    ⟨file, pattern, loaded, rendered, isLayout⟩
  refine ⟨file, pattern, loaded, fun memory => ?_⟩
  rw [rendered, isLayout]
  exact congrArg Except.ok (by decide +kernel)

end Rendering
end CaseExpansion
