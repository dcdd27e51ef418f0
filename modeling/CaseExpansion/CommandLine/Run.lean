import CaseExpansion.CommandLine.Options
import CaseExpansion.Vet

namespace CaseExpansion
namespace CommandLine

/-!
# Running the command

A run is a function of the arguments, the standard input, the file that the caller's
environment names, the disk, the answer of the checker, and of what the system does to
each file.  It gives the exit status, what is printed, and the disk afterwards.

Files are generated in the order of the arguments.  The output of a file is written or
printed when all of it is there, so that a file with problems changes nothing on the disk.
A file that fails does not keep the others from being generated.
-/

/-- What the system does to one file of a run: where it has the data of templates, and what
it refuses when the output is written or printed. -/
structure Conditions where
  memory : Nat → Rendering.Memory := fun _ => .consecutive
  writing : Option WriteFault := none
  printing : Option Interruption := none

structure Invocation where
  arguments : List Bytes := []
  /-- The standard input, unless it is a terminal. -/
  stdin : Option Bytes := some []
  /-- The file that is used when the arguments name none, if not empty. -/
  environmentFile : Bytes := []
  disk : Disk := {}
  vet : Bytes → VetAnswer := fun _ => .exited 0 []
  /-- The conditions of the first file, the second and so on. -/
  conditions : Nat → Conditions := fun _ => {}

structure Report where
  exitStatus : Nat := 0
  stdout : Bytes := []
  stderr : Bytes := []
  disk : Disk

def marked (mark : Bytes) (messages : List Bytes) : Bytes :=
  messages.flatMap fun message => mark ++ message ++ "\n"

def warningLines (warnings : List Error) : Bytes :=
  marked "warning: " (warnings.map Error.render)

def errorLines (messages : List Bytes) : Bytes :=
  marked "error: " messages

structure Progress where
  generator : Generator
  disk : Disk
  stdout : Bytes := []
  stderr : Bytes := []
  hasFailed : Bool := false
  /-- The directories that files were generated into, each once. -/
  directories : List Bytes := []

namespace Progress

def fail (progress : Progress) (messages : List Bytes) : Progress :=
  { progress with stderr := progress.stderr ++ errorLines messages, hasFailed := true }

def succeed (progress : Progress) (directory : Bytes) : Progress :=
  if progress.directories.elem directory then progress
  else { progress with directories := progress.directories ++ [directory] }

end Progress

/-- What reaches the standard output of a text, and the failure if that is not all. -/
def print (fault : Option Interruption) (text : Bytes) : Bytes × Option FileFailure :=
  match fault with
  | none => (text, none)
  | some ⟨count, reason⟩ => (text.take count, some ⟨.write, "/dev/stdout", reason⟩)

/-- Ends a file whose output was printed or written, unless that failed. -/
def Progress.finish (progress : Progress) (failure : Option FileFailure)
    (directory : Bytes) : Progress :=
  match failure with
  | some failure => progress.fail [failure.message]
  | none => progress.succeed directory

/-- Prints or writes what the generator gave for a file. -/
def deliver (options : Options) (conditions : Conditions) (progress : Progress) (path : Bytes)
    (outcome : Outcome) : Progress :=
  let progress := { progress with stderr := progress.stderr ++ warningLines outcome.warnings }
  match outcome.failure with
  | some failure => progress.fail failure.messages
  | none =>
    if options.toStdout then
      let (printed, failure) := print conditions.printing outcome.output
      { progress with stdout := progress.stdout ++ printed }.finish failure
        (options.outputDirectory path)
    else
      let (disk, failure) :=
        progress.disk.write conditions.writing (options.outputPath path) outcome.output
      { progress with disk }.finish failure (options.outputDirectory path)

def runFile (options : Options) (conditions : Conditions) (progress : Progress) (path : Bytes) :
    Progress :=
  let input : Except FileFailure (Except Bytes Bytes) :=
    match progress.disk.read path with
    | .ok text => .ok (.ok text)
    | .error failure =>
      if failure.operation = .read then .ok (.error failure.message) else .error failure
  match input with
  | .error failure => progress.fail [failure.message]
  | .ok input =>
    let (generator, outcome) :=
      { progress.generator with memory := conditions.memory }.generate progress.disk path input
    deliver options conditions { progress with generator } path outcome

/-- The conditions of all files but the first. -/
def afterFirst (conditions : Nat → Conditions) : Nat → Conditions :=
  fun index => conditions (index + 1)

/-- Goes through files in order, each under its own conditions. -/
def runEach (options : Options) (conditions : Nat → Conditions) (progress : Progress) :
    List Bytes → Progress
  | [] => progress
  | path :: paths =>
    runEach options (afterFirst conditions) (runFile options (conditions 0) progress path) paths

/-- What the standard input is called in messages and in generated text. -/
def stdinName : Bytes := "stdin.go"

/-- Generates from the standard input to the standard output. -/
def runStdin (options : Options) (invocation : Invocation) : Report :=
  match invocation.stdin with
  | none =>
    { exitStatus := 1, stderr := usage ++ "Expects template files or input on stdin\n"
      disk := invocation.disk }
  | some text =>
    let conditions := invocation.conditions 0
    let (_, outcome) := { options.generator with memory := conditions.memory }.generate
      invocation.disk stdinName (.ok text)
    let (printed, failure) := print conditions.printing outcome.output
    -- Output beside a failure is printed as far as possible, and only that failure is told.
    let messages := match outcome.failure with
      | some failure => failure.messages
      | none => failure.toList.map FileFailure.message
    { exitStatus := if outcome.failure.isSome || failure.isSome then 1 else 0
      stdout := printed
      stderr := warningLines outcome.warnings ++ errorLines messages
      disk := invocation.disk }

/-- Checks the directories that files were generated into. -/
def runVet (invocation : Invocation) (progress : Progress) : Progress :=
  let failures := progress.directories.filterMap fun directory =>
    verify progress.disk directory (invocation.vet directory)
  if failures.isEmpty then progress else progress.fail (failures.map VetFailure.message)

/-- Generates from files, and checks the result if it is asked for and none failed. -/
def runFiles (options : Options) (invocation : Invocation) (files : List Bytes) : Report :=
  let progress := runEach options invocation.conditions
    { generator := options.generator, disk := invocation.disk } files
  let progress :=
    if options.verifies && !options.toStdout && !progress.hasFailed then runVet invocation progress
    else progress
  { exitStatus := if progress.hasFailed then 1 else 0
    stdout := progress.stdout, stderr := progress.stderr, disk := progress.disk }

/-- The files that a run generates from, given those that the arguments name. -/
def inputFiles (environmentFile : Bytes) (files : List Bytes) : List Bytes :=
  if files.isEmpty && !environmentFile.isEmpty then [environmentFile] else files

def run (invocation : Invocation) : Report :=
  match parseArguments invocation.arguments with
  | .error error =>
    let shown := (error.message?.map (· ++ [byte '\n'])).getD []
    { exitStatus := if error = .help then 0 else 2, stderr := shown ++ usage, disk := invocation.disk }
  | .ok (options, files) =>
    match inputFiles invocation.environmentFile files with
    | [] => runStdin options invocation
    | files =>
      if !options.output.isEmpty && files.length > 1 then
        { exitStatus := 2, stderr := "-o requires a single input file\n", disk := invocation.disk }
      else runFiles options invocation files

/-!
## What a run reads

The paths that a run of the command may look at.  Whoever runs the command has to put
them on the disk that the run is given.
-/

/-- The files and directories that the arguments and the environment name: the inputs,
the archive, and the outputs with their directories. -/
def namedPaths (arguments : List Bytes) (environmentFile : Bytes) : List Bytes :=
  match parseArguments arguments with
  | .error _ => []
  | .ok (options, files) =>
    let files := inputFiles environmentFile files
    let archives := if options.archive.isEmpty then [] else [options.archive]
    files ++ archives
      ++ files.flatMap fun file => [options.outputPath file, options.outputDirectory file]

def readsStdin (arguments : List Bytes) (environmentFile : Bytes) : Bool :=
  match parseArguments arguments with
  | .error _ => false
  | .ok (_, files) => (inputFiles environmentFile files).isEmpty

def directoriesOf (filename text : Bytes) : List Bytes :=
  match Source.parseFile filename text with
  | .error _ => []
  | .ok source =>
    source.file.functions.flatMap fun function =>
      match Template.read source function false with
      | .ok (some template) =>
        template.directories.flatMap fun directive =>
          directive.directories.map fun directory =>
            Path.join [Path.directory filename, Path.clean directory]
      | _ => []

end CommandLine
end CaseExpansion
