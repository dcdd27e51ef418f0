import CaseExpansion.Generator.Expansion
import CaseExpansion.Layout.Format

namespace CaseExpansion

open Source

/-!
# Generation

A generator turns a template file into the file that is generated from it.  It has
settings, which may change between runs, and the patterns it renders with, which stay
once both of them are loaded.

A run gives output, warnings, and a failure if there is one.  There is no output when
the template file has problems.  Generated text that cannot be formatted is output as
it is, beside the failure.
-/

/-- The tag that guards template files when no other is set. -/
def defaultTag : Bytes := "casegen"

inductive GenerateFailure where
  | unreadableInput (reason : Bytes)
  | noInput
  | patterns (error : Rendering.LoadError)
  | malformed (filename : Bytes) (diagnostics : List Diagnostic)
  | invalid (errors : List Error)
  | unrendered (error : Rendering.RenderError)
  | unformatted (diagnostics : List Diagnostic)

/-- A number at the start of a text, after blanks and perhaps a sign, and the rest. -/
def leadingNumber? (text : Bytes) : Option (Int × Bytes) :=
  let text := text.dropWhile (· == byte ' ')
  let (isNegative, text) : Bool × Bytes := match text with
    | sign :: rest =>
      if sign = byte '-' then (true, rest) else if sign = byte '+' then (false, rest) else (false, text)
    | [] => (false, [])
  let digits := text.takeWhile Bytes.isDigit
  (Bytes.toNat? digits).map fun number =>
    (if isNegative then -(number : Int) else number, text.drop digits.length)

/-- The line and the column that a message starts with.  What is not there is zero. -/
def leadingPlace (message : Bytes) : Int × Int :=
  match leadingNumber? message with
  | none => (0, 0)
  | some (line, rest) =>
    match Bytes.cutLead? ":" rest with
    | none => (line, 0)
    | some rest => (line, ((leadingNumber? rest).map Prod.fst).getD 0)

/-- The first of several diagnostics, and how many more there are. -/
def renderDiagnostics : List Diagnostic → Bytes
  | [] => "no errors"
  | [only] => only.render
  | first :: rest => first.render ++ " (and " ++ Bytes.decimal rest.length ++ " more errors)"

namespace GenerateFailure

/-- The line and column of text that cannot be formatted. -/
def place (diagnostics : List Diagnostic) : Int × Int :=
  leadingPlace (renderDiagnostics diagnostics)

/-- The wording of a failure, in lines. -/
def messages : GenerateFailure → List Bytes
  | unreadableInput reason => ["error reading input: " ++ reason]
  | noInput => ["no input provided"]
  | patterns error => [error.message]
  | malformed filename diagnostics =>
    ["parsing " ++ filename ++ ": " ++ renderDiagnostics diagnostics]
  | invalid errors => errors.map Error.render
  | unrendered error => [error.message]
  | unformatted diagnostics =>
    let (line, column) := place diagnostics
    ["formatting error at line " ++ Bytes.decimalInt line ++ ":" ++ Bytes.decimalInt column ++ ": "
      ++ renderDiagnostics diagnostics]

end GenerateFailure

/-- The settings of a generator and the patterns that it has loaded. -/
structure Generator where
  tag : Bytes := []
  strict : Bool := false
  /-- The archive to load patterns from, empty for the built-in one. -/
  archive : Bytes := []
  /-- Where the directories of cases are, if not beside the template file. -/
  files : Option FileTree := none
  patterns : Rendering.Patterns := {}
  /-- Where the next run has the data of a template, by the template's place in the file.
  It is up to the system that the generator runs on. -/
  memory : Nat → Rendering.Memory := fun _ => .consecutive

structure Outcome where
  output : Bytes := []
  warnings : List Error := []
  failure : Option GenerateFailure := none

namespace Generator

def guardTag (generator : Generator) : Bytes :=
  if generator.tag.isEmpty then defaultTag else generator.tag

def fileSystem (generator : Generator) (disk : Disk) (filename : Bytes) : FileSystem :=
  match generator.files with
  | some tree => tree.virtual
  | none => disk.rooted (Path.directory filename)

def finish (warnings : List Error) (text : Bytes) : Outcome :=
  match Layout.format text with
  | .ok output => { output, warnings }
  | .error diagnostics => { output := text, warnings, failure := some (.unformatted diagnostics) }

def expandFile (generator : Generator) (files : FileSystem) (filePattern spacePattern : Pattern.Compiled)
    (filename : Bytes) (source : ParsedFile) : Outcome :=
  let found := expansions source generator.strict files
  let rendered := renderExpansions source generator.memory spacePattern found
  match rendered.failure with
  | some error => { warnings := rendered.warnings, failure := some (.unrendered error) }
  | none =>
    match fileErrors source filename generator.guardTag found, Guard.edits source generator.guardTag with
    | [], .ok guardEdits =>
      let content := (Edit.applyAll? source.text (guardEdits ++ rendered.edits)).getD []
      match Rendering.renderFile filePattern (Path.base filename) content with
      | .error error => { warnings := rendered.warnings, failure := some (.unrendered error) }
      | .ok text => finish rendered.warnings text
    | errors, _ => { warnings := rendered.warnings, failure := some (.invalid (Error.sort errors)) }

/-- Generates from a template file.  The input is its text, or the reason for which it
cannot be read. -/
def generate (generator : Generator) (disk : Disk) (filename : Bytes) (input : Except Bytes Bytes) :
    Generator × Outcome :=
  match input with
  | .error reason => (generator, { failure := some (.unreadableInput reason) })
  | .ok text =>
    if Text.isBlankText text then (generator, { failure := some .noInput })
    else
      let (patterns, problem) := generator.patterns.load disk generator.archive
      let generator := { generator with patterns }
      match problem, patterns.file, patterns.space with
      | none, some filePattern, some spacePattern =>
        match parseFile filename text with
        | .error diagnostics => (generator, { failure := some (.malformed filename diagnostics) })
        | .ok source =>
          let files := generator.fileSystem disk filename
          (generator, generator.expandFile files filePattern spacePattern filename source)
      | problem, _, _ => (generator, { failure := problem.map .patterns })

def render (generator : Generator) (disk : Disk) (space : Namespace) : Generator × Except Bytes Bytes :=
  let (patterns, problem) := generator.patterns.load disk generator.archive
  let generator := { generator with patterns }
  match problem, patterns.space with
  | none, some pattern =>
    (generator,
      (Rendering.renderNamespace pattern (generator.memory 0) space).mapError
        Rendering.RenderError.message)
  | some error, _ => (generator, .error error.message)
  | none, none => (generator, .error [])

end Generator
end CaseExpansion
