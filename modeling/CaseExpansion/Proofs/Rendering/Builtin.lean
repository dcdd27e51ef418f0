import CaseExpansion.Proofs.Pattern.Script
import CaseExpansion.Rendering.Basic

namespace CaseExpansion
namespace Rendering

open List Pattern.Script
open Pattern (Compiled Script Term Value)

/-!
# What the built-in patterns write

The built-in patterns have scripts, so that what they write can be said without
running them: `Namespace.layout` is the text of a namespace.  It has no use for
positions, and there is no namespace without it.
-/

/-- The script of the built-in file pattern. -/
def fileScript : Script :=
  .text "// Code generated by casegen from " <| .shown (.access false ["Source"]) <|
  .text ". DO NOT EDIT.\n\n" <| .shown (.access false ["Content"]) <| .text "\n" .done

/-- The steps for one row of the list of cases. -/
def rowScript : Script :=
  .text "\t\t\x7b" <| .shown (.quoted ["Case", "Name"]) <| .text ", " <|
  .shown (.access true ["Name"]) <| .text "\x7b\x7d." <| .shown (.access false ["Ident"]) <|
  .text "\x7d,\n" .done

/-- The steps for one function. -/
def functionScript : Script :=
  .text "\n" <|
  .each (.access true ["Trailing"]) (.shown (.access false []) <| .text "\n" .done) .done <|
  .text "func (" <| .shown (.access true ["Name"]) <| .text ") " <| .shown (.access false ["Ident"]) <|
  .text "(" <| .shown (.access true ["Context"]) <| .text ")" <|
  .given (.access true ["Results"]) (.text " " <| .shown (.access false []) .done) <|
  .text " \x7b\n" <|
  .each (.access false ["Bindings"])
    (.text "\tvar " <| .shown (.access false ["Name"]) <| .text " " <|
      .shown (.access false ["Type"]) <| .text " = " <| .shown (.access false ["Value"]) <|
      .text "\n" .done) .done <|
  .each (.access false ["Unused"])
    (.text "\t_ = " <| .shown (.access false []) <| .text "\n" .done) .done <|
  .shown (.access true ["Body"]) <| .text "\x7d\n" .done

/-- The script of the built-in namespace pattern. -/
def namespaceScript : Script :=
  .each (.access false ["Doc"]) (.shown (.access false []) <| .text "\n" .done)
    (.text "// " <| .shown (.access false ["Name"]) <| .text " groups the cases generated from the " <|
      .shown (.access false ["Name"]) <| .text " template.\n" .done) <|
  .text "type " <| .shown (.access false ["Name"]) <|
  .text " struct\x7b\x7d\n\n// Cases lists the cases of " <| .shown (.access false ["Name"]) <|
  .text " in declaration order.\nfunc (" <| .shown (.access false ["Name"]) <|
  .text ") Cases() []struct \x7b\n\tName string\n\tRun  " <| .shown (.access false ["RunType"]) <|
  .text "\n\x7d \x7b\n\treturn []struct \x7b\n\t\tName string\n\t\tRun  " <|
  .shown (.access false ["RunType"]) <| .text "\n\t\x7d\x7b\n" <|
  .each (.access false ["Funcs"]) rowScript .done <|
  .text "\t\x7d\n\x7d\n" <|
  .each (.access false ["Funcs"]) functionScript .done .done

theorem filePattern_script :
    (Pattern.compile "file" filePattern).toOption.bind Compiled.script? = some fileScript := by
  decide +kernel

theorem namespacePattern_script :
    (Pattern.compile "namespace" namespacePattern).toOption.bind Compiled.script? =
      some namespaceScript := by
  decide +kernel

/-! ## The text of a namespace -/

/-- Lines, each with its line feed. -/
def linesText (lines : List Bytes) : Bytes :=
  lines.flatMap fun line => line ++ "\n"

/-- The row of a case in the list of all cases. -/
def rowText (space : Namespace) (function : Function) : Bytes :=
  "\t\t\x7b" ++ Text.Quoted.encode function.case.name ++ ", " ++ space.name ++ "\x7b\x7d."
    ++ function.ident ++ "\x7d,\n"

/-- The declaration of a bound parameter. -/
def bindingText (binding : Binding) : Bytes :=
  "\tvar " ++ binding.param.name ++ " " ++ binding.param.type ++ " = " ++ binding.value ++ "\n"

/-- The guard of a parameter that the body does not use. -/
def guardText (name : Bytes) : Bytes :=
  "\t_ = " ++ name ++ "\n"

/-- A generated function. -/
def functionText (space : Namespace) (function : Function) : Bytes :=
  "\n" ++ linesText space.trailing ++ "func (" ++ space.name ++ ") " ++ function.ident ++ "("
    ++ space.context ++ ")" ++ (if space.results.isEmpty then [] else byte ' ' :: space.results)
    ++ " \x7b\n"
    ++ function.bindings.flatMap bindingText ++ function.unused.flatMap guardText ++ space.body
    ++ "\x7d\n"

/-- The doc comment of a namespace. -/
def docText (space : Namespace) : Bytes :=
  if space.doc.isEmpty then
    "// " ++ space.name ++ " groups the cases generated from the " ++ space.name ++ " template.\n"
  else linesText space.doc

/-- The text of a namespace, before line feeds at its end are dropped. -/
def namespaceText (space : Namespace) : Bytes :=
  docText space ++ "type " ++ space.name ++ " struct\x7b\x7d\n\n// Cases lists the cases of "
    ++ space.name ++ " in declaration order.\nfunc (" ++ space.name
    ++ ") Cases() []struct \x7b\n\tName string\n\tRun  " ++ space.runType
    ++ "\n\x7d \x7b\n\treturn []struct \x7b\n\t\tName string\n\t\tRun  " ++ space.runType
    ++ "\n\t\x7d\x7b\n" ++ space.functions.flatMap (rowText space) ++ "\t\x7d\n\x7d\n"
    ++ space.functions.flatMap (functionText space)

section Fields

variable (memory : Memory) (space : Namespace) (function : Function) (index : Nat)

theorem name_value (current : Value) :
    Term.value? (namespaceValue memory space) current (.access true ["Name"]) =
      some (.text space.name) :=
  rfl

theorem ident_value :
    Term.value? (namespaceValue memory space) (functionValue memory function index)
      (.access false ["Ident"]) = some (.text function.ident) :=
  rfl

theorem text_value (root : Value) (text : Bytes) :
    Term.value? root (.text text) (.access false []) = some (.text text) :=
  rfl

theorem rowScript_text :
    rowScript.text? (namespaceValue memory space) (functionValue memory function index) =
      some (rowText space function) := by
  have caseName : Term.value? (namespaceValue memory space) (functionValue memory function index)
      (.quoted ["Case", "Name"]) = some (.text (Text.Quoted.encode function.case.name)) := rfl
  simp only [rowScript, text?_text, text?_shown caseName,
    text?_shown (ident_value memory space function index),
    text?_shown (name_value memory space _), text?_done, Option.map_some, rowText,
    append_assoc, append_nil]

theorem lineScript_text (root : Value) (line : Bytes) :
    (Script.shown (.access false []) (.text "\n" .done)).text? root (.text line) =
    some (line ++ "\n") := by
  rw [text?_shown (text_value root line)]
  rfl

theorem bindingScript_text (root : Value) (binding : Binding) :
    (Script.text "\tvar " <| .shown (.access false ["Name"]) <| .text " " <|
      .shown (.access false ["Type"]) <| .text " = " <| .shown (.access false ["Value"]) <|
      .text "\n" .done).text? root (bindingValue binding) = some (bindingText binding) := by
  have name : Term.value? root (bindingValue binding) (.access false ["Name"]) =
      some (.text binding.param.name) := rfl
  have type : Term.value? root (bindingValue binding) (.access false ["Type"]) =
      some (.text binding.param.type) := rfl
  have value : Term.value? root (bindingValue binding) (.access false ["Value"]) =
      some (.text binding.value) := rfl
  simp only [text?_text, text?_shown name, text?_shown type,
    text?_shown value, text?_done, Option.map_some, bindingText, append_assoc,
    append_nil]

theorem guardScript_text (root : Value) (name : Bytes) :
    (Script.text "\t_ = " <| .shown (.access false []) <| .text "\n" .done).text? root (.text name) =
      some (guardText name) := by
  rw [text?_text, lineScript_text, Option.map_some, guardText, append_assoc]

theorem functionScript_text :
    functionScript.text? (namespaceValue memory space) (functionValue memory function index) =
      some (functionText space function) := by
  have trailing : Term.value? (namespaceValue memory space) (functionValue memory function index)
      (.access true ["Trailing"]) =
        some (.texts (memory .trailing) space.trailing) := rfl
  have context : Term.value? (namespaceValue memory space) (functionValue memory function index)
      (.access true ["Context"]) = some (.text space.context) := rfl
  have results : Term.value? (namespaceValue memory space) (functionValue memory function index)
      (.access true ["Results"]) = some (.text space.results) := rfl
  have body : Term.value? (namespaceValue memory space) (functionValue memory function index)
      (.access true ["Body"]) = some (.text space.body) := rfl
  have bindings : Term.value? (namespaceValue memory space) (functionValue memory function index)
      (.access false ["Bindings"]) = some (.listAt (memory (.bindings index)) "casegen.Binding"
        (function.bindings.map bindingValue)) := rfl
  have unused : Term.value? (namespaceValue memory space) (functionValue memory function index)
      (.access false ["Unused"]) = some (.texts (memory (.unused index)) function.unused) := rfl
  have resultsText : (Script.text " " <| .shown (.access false []) .done).text?
      (namespaceValue memory space) (.text space.results) = some (byte ' ' :: space.results) := by
    rw [text?_text, text?_shown (text_value _ _), text?_done, Option.map_some,
      Option.map_some, append_nil]
    rfl
  simp only [functionScript, text?_text,
    text?_each_done trailing (lineScript_text _),
    text?_each_done bindings (bindingScript_text _),
    text?_each_done unused (guardScript_text _),
    text?_given results resultsText, text?_shown context, text?_shown body,
    text?_shown (ident_value memory space function index),
    text?_shown (name_value memory space _), text?_done, Option.map_some, functionText,
    linesText, append_assoc, append_nil]

/-- The numbers of functions play no part in what is written for them. -/
theorem flatMap_zipIdx (text : Function → Bytes) :
    (space.functions.zipIdx.flatMap fun numbered => text numbered.1) = space.functions.flatMap text := by
  rw [← flatMap_map, zipIdx_map_fst]

theorem namespaceScript_text :
    namespaceScript.text? (namespaceValue memory space) (namespaceValue memory space) =
      some (namespaceText space) := by
  have name : Term.value? (namespaceValue memory space) (namespaceValue memory space)
      (.access false ["Name"]) = some (.text space.name) := rfl
  have runType : Term.value? (namespaceValue memory space) (namespaceValue memory space)
      (.access false ["RunType"]) = some (.text space.runType) := rfl
  have doc : Term.value? (namespaceValue memory space) (namespaceValue memory space)
      (.access false ["Doc"]) = some (.texts (memory .doc) space.doc) := rfl
  have functions : Term.value? (namespaceValue memory space) (namespaceValue memory space)
      (.access false ["Funcs"]) = some (.listAt (memory .functions) "*casegen.Func"
        (space.functions.zipIdx.map fun numbered => functionValue memory numbered.1 numbered.2)) := rfl
  have undocumented : (Script.text "// " <| .shown (.access false ["Name"]) <|
      .text " groups the cases generated from the " <| .shown (.access false ["Name"]) <|
      .text " template.\n" .done).text? (namespaceValue memory space) (namespaceValue memory space) =
        some ("// " ++ space.name ++ " groups the cases generated from the " ++ space.name
          ++ " template.\n") := by
    simp only [text?_text, text?_shown name, text?_done, Option.map_some,
      append_assoc, append_nil]
  simp only [namespaceScript, text?_text, text?_each doc (lineScript_text _) undocumented,
    text?_each_done functions fun numbered => rowScript_text memory space numbered.1 numbered.2,
    text?_each_done functions fun numbered => functionScript_text memory space numbered.1 numbered.2,
    flatMap_zipIdx, text?_shown name, text?_shown runType, text?_done,
    Option.map_some, namespaceText, docText, linesText, append_assoc, append_nil]

end Fields

/-- The built-in namespace pattern writes the text of every namespace, wherever its data lies. -/
theorem renderNamespace_builtin {pattern : Compiled}
    (isBuiltin : Pattern.compile "namespace" namespacePattern = .ok pattern) (memory : Memory)
    (space : Namespace) :
    renderNamespace pattern memory space =
      .ok (Bytes.dropTailWhile (· == byte '\n') (namespaceText space)) := by
  have script := namespacePattern_script
  rw [isBuiltin] at script
  rw [renderNamespace, Compiled.run_eq script (namespaceScript_text memory space)]

/-- A pattern writes the same for a namespace wherever its data lies. -/
def HidesAddresses (pattern : Compiled) : Prop :=
  ∀ memory other space, renderNamespace pattern memory space = renderNamespace pattern other space

theorem hidesAddresses_builtin {pattern : Compiled}
    (isBuiltin : Pattern.compile "namespace" namespacePattern = .ok pattern) :
    HidesAddresses pattern := by
  intro memory other space
  rw [renderNamespace_builtin isBuiltin, renderNamespace_builtin isBuiltin]

/-- The text of a generated file around its content. -/
def fileText (source content : Bytes) : Bytes :=
  "// Code generated by casegen from " ++ source ++ ". DO NOT EDIT.\n\n" ++ content ++ "\n"

/-- The built-in file pattern writes a text for every content. -/
theorem renderFile_builtin {pattern : Compiled}
    (isBuiltin : Pattern.compile "file" filePattern = .ok pattern) (source content : Bytes) :
    renderFile pattern source content = .ok (fileText source content) := by
  have ofSource : Term.value? (fileValue source content) (fileValue source content)
      (.access false ["Source"]) = some (.text source) := rfl
  have ofContent : Term.value? (fileValue source content) (fileValue source content)
      (.access false ["Content"]) = some (.text content) := rfl
  have text : fileScript.text? (fileValue source content) (fileValue source content) =
      some (fileText source content) := by
    simp only [fileScript, text?_text, text?_shown ofSource, text?_shown ofContent,
      text?_done, Option.map_some, fileText, append_assoc, append_nil]
  have script := filePattern_script
  rw [isBuiltin] at script
  rw [renderFile, Compiled.run_eq script text]

/-- The patterns are the built-in ones. -/
structure Patterns.IsBuiltin (patterns : Patterns) (file space : Compiled) : Prop where
  isFile : Pattern.compile "file" filePattern = .ok file
  isSpace : Pattern.compile "namespace" namespacePattern = .ok space
  loaded : patterns = ⟨some file, some space⟩

theorem exists_compile_of_script {name text : Bytes} {script : Script}
    (isScript : (Pattern.compile name text).toOption.bind Compiled.script? = some script) :
    ∃ pattern, Pattern.compile name text = .ok pattern := by
  cases compiled : Pattern.compile name text with
  | error error =>
    rw [compiled] at isScript
    cases isScript
  | ok pattern => exact ⟨pattern, rfl⟩

theorem Patterns.load_eq {disk : Disk} {path : Bytes} {patterns : Patterns} {texts : Bytes × Bytes}
    {file space : Compiled} (incomplete : patterns.isComplete = false)
    (isRead : (readArchive disk path >>= entries path) = .ok texts)
    (isFile : Pattern.compile "file" texts.1 = .ok file)
    (isSpace : Pattern.compile "namespace" texts.2 = .ok space) :
    patterns.load disk path = (⟨some file, some space⟩, none) := by
  rw [load, incomplete, isRead]
  dsimp only
  rw [compile, isFile]
  dsimp only
  rw [isSpace]
  rfl

/-- Without an archive, patterns that are not loaded are the built-in ones. -/
theorem Patterns.load_builtin (disk : Disk) {patterns : Patterns}
    (incomplete : patterns.isComplete = false) :
    ∃ file space, patterns.load disk [] = (⟨some file, some space⟩, none) ∧
      IsBuiltin ⟨some file, some space⟩ file space := by
  rcases exists_compile_of_script filePattern_script with ⟨file, isFile⟩
  rcases exists_compile_of_script namespacePattern_script with ⟨space, isSpace⟩
  exact ⟨file, space, load_eq incomplete rfl isFile isSpace, isFile, isSpace, rfl⟩

end Rendering
end CaseExpansion
