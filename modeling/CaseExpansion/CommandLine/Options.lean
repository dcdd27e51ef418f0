import CaseExpansion.Flags
import CaseExpansion.Generator.Basic

namespace CaseExpansion

/-!
# Options of the command

The file generated from `x.go` is `x_gen.go`, next to it, and the file from
`x_test.go` is `x_gen_test.go`, so that it stays a test file.  An option names
another place for it.
-/

def testEnding : Bytes := "_test.go"

/-- The path of the file generated from a template file. -/
def outputName (path : Bytes) : Bytes :=
  match Bytes.cutTail? testEnding path with
  | some stem => stem ++ "_gen_test.go"
  | none => Bytes.dropTail ".go" path ++ "_gen.go"

namespace CommandLine

structure Options where
  /-- Where to write the generated file, if not to its usual place. -/
  output : Bytes := []
  tag : Bytes := defaultTag
  strict : Bool := false
  archive : Bytes := []
  toStdout : Bool := false
  verifies : Bool := false
deriving DecidableEq, Repr

/-- The flags of the command, by name. -/
def flags : List Flag :=
  [{ name := "o", isSwitch := false
     purpose := "output file (only with a single input file); default derived from the input name" },
   { name := "stdout", isSwitch := true
     purpose := "print generated code to stdout instead of writing files" },
   { name := "strict", isSwitch := true
     purpose := "reject case directives that follow other annotations" },
   { name := "tag", isSwitch := false, purpose := "build tag guarding template files"
     default := defaultTag },
   { name := "template", isSwitch := false
     purpose := "txtar archive with file.tmpl and namespace.tmpl to render with" },
   { name := "verify", isSwitch := true
     purpose := "run go vet on each output directory after generating" }]

def usage : Bytes :=
  "usage: casegen [flags] [file.go ...]\n" ++ flags.flatMap Flag.describe

def Options.ofGiven (given : List (Bytes × Bytes)) : Options where
  output := Flag.value flags given "o"
  tag := Flag.value flags given "tag"
  strict := Flag.isOn given "strict"
  archive := Flag.value flags given "template"
  toStdout := Flag.isOn given "stdout"
  verifies := Flag.isOn given "verify"

def parseArguments (arguments : List Bytes) : Except FlagError (Options × List Bytes) :=
  (Flag.parse flags arguments).map fun (given, files) => (Options.ofGiven given, files)

def Options.generator (options : Options) : Generator :=
  { tag := options.tag, strict := options.strict, archive := options.archive }

/-- The path that the file generated from an input is written to. -/
def Options.outputPath (options : Options) (path : Bytes) : Bytes :=
  if options.output.isEmpty then outputName path else options.output

def Options.outputDirectory (options : Options) (path : Bytes) : Bytes :=
  Path.directory (options.outputPath path)

end CommandLine
end CaseExpansion
