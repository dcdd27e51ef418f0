import CaseExpansion.CommandLine.Run
import CaseExpansion.Proofs.Files.Writing
import CaseExpansion.Proofs.Generator.Content

namespace CaseExpansion

open List

/-!
# Runs over several files

A run goes through its files one after the other, each with the generator and the disk
that the one before left.  A file that succeeds sets its output.  One that fails leaves the
disk as it was, unless it fails after its output was opened; then it changes no other file.
`FileRun` says this with one rule for each thing that may happen to a file, and the command is
shown to follow these rules.
-/

/-- A checker passes in a directory that is there when it ends well. -/
theorem verify_eq_none_iff {disk : Disk} {directory clean : Bytes}
    (present : disk.resolve directory = .ok (clean, .directory)) (answer : VetAnswer) :
    verify disk directory answer = none ↔ ∃ output, answer = .exited 0 output := by
  have found : missingDirectory? disk directory = none := by
    unfold missingDirectory?
    split
    · rfl
    · rw [present]
  unfold verify
  rw [found]
  cases answer with
  | unavailable => simp
  | canceled => simp
  | exited status output => cases status <;> simp

namespace CommandLine

variable {options : Options} {conditions : Conditions} {generator next : Generator} {disk after : Disk}
  {path : Bytes} {succeeds : Bool}

/-- What the generator is given for a path: the text of the file, or the reason for which
an open file cannot be read. -/
inductive Given (disk : Disk) (path : Bytes) : Except Bytes Bytes → Prop where
  | text {text : Bytes} (read : disk.read path = .ok text) : Given disk path (.ok text)
  | reason {failure : FileFailure} (read : disk.read path = .error failure)
      (isOpen : failure.operation = .read) : Given disk path (.error failure.message)

/-- What the generator makes of a path, and what has become of it then. -/
def Generates (conditions : Conditions) (generator : Generator) (disk : Disk) (path : Bytes)
    (next : Generator) (outcome : Outcome) : Prop :=
  ∃ input, Given disk path input ∧
    { generator with memory := conditions.memory }.generate disk path input = (next, outcome)

/-- What a run does with one file: from the generator and the disk that it finds to whether
the file succeeds, and to the generator and the disk afterwards. -/
inductive FileRun (options : Options) (conditions : Conditions) (generator : Generator) (disk : Disk)
    (path : Bytes) : Bool → Generator → Disk → Prop where
  /-- The file cannot be opened. -/
  | unopened {failure : FileFailure} (read : disk.read path = .error failure)
      (closed : failure.operation ≠ .read) :
      FileRun options conditions generator disk path false generator disk
  /-- The generator fails, perhaps beside some output. -/
  | failed {next : Generator} {outcome : Outcome}
      (generates : Generates conditions generator disk path next outcome)
      (fails : outcome.failure ≠ none) :
      FileRun options conditions generator disk path false next disk
  /-- The output is printed, all of it unless the system refuses. -/
  | printed {next : Generator} {outcome : Outcome}
      (generates : Generates conditions generator disk path next outcome)
      (good : outcome.failure = none) (toStdout : options.toStdout = true) :
      FileRun options conditions generator disk path conditions.printing.isNone next disk
  /-- The output is written, or fails to be. -/
  | written {next : Generator} {outcome : Outcome} {after : Disk} {failure : Option FileFailure}
      (generates : Generates conditions generator disk path next outcome)
      (good : outcome.failure = none) (toDisk : options.toStdout = false)
      (write : disk.write conditions.writing (options.outputPath path) outcome.output =
        (after, failure))
      (writes : disk.Writes (options.outputPath path) outcome.output after failure) :
      FileRun options conditions generator disk path failure.isNone next after

/-- What a run does with its files in order, each under its own conditions: whether each of
them succeeds, and the disk at the end. -/
inductive Batch (options : Options) :
    (Nat → Conditions) → Generator → Disk → List Bytes → List Bool → Disk → Prop where
  | done {conditions : Nat → Conditions} {generator : Generator} {disk : Disk} :
      Batch options conditions generator disk [] [] disk
  | file {conditions : Nat → Conditions} {generator next : Generator} {disk after last : Disk}
      {path : Bytes} {paths : List Bytes} {succeeds : Bool} {successes : List Bool}
      (first : FileRun options (conditions 0) generator disk path succeeds next after)
      (rest : Batch options (afterFirst conditions) next after paths successes last) :
      Batch options conditions generator disk (path :: paths) (succeeds :: successes) last

/-! ## One file -/

/-- What a run has after one more file, given whether it succeeded. -/
structure Advances (options : Options) (conditions : Conditions) (path : Bytes)
    (progress next : Progress) (succeeds : Bool) : Prop where
  file : FileRun options conditions progress.generator progress.disk path succeeds next.generator
    next.disk
  hasFailed : next.hasFailed = (progress.hasFailed || !succeeds)
  directories : succeeds = true → ∀ directory, directory ∈ next.directories ↔
    directory ∈ progress.directories ∨ directory = options.outputDirectory path
  keeps : progress.disk.Keeps next.disk
  present : succeeds = true → options.toStdout = false →
    ∃ clean, next.disk.resolve (options.outputDirectory path) = .ok (clean, .directory)
  unchanged : options.toStdout = true → next.disk = progress.disk

theorem Progress.mem_directories_succeed (progress : Progress) (directory other : Bytes) :
    other ∈ (progress.succeed directory).directories ↔ other ∈ progress.directories ∨
    other = directory := by
  unfold succeed
  split
  · rename_i present
    rw [elem_iff] at present
    constructor
    · exact .inl
    · rintro (member | rfl)
      · exact member
      · exact present
  · simp

@[simp]
theorem Progress.disk_succeed (progress : Progress) (directory : Bytes) :
    (progress.succeed directory).disk = progress.disk := by
  unfold succeed
  split <;> rfl

@[simp]
theorem Progress.generator_succeed (progress : Progress) (directory : Bytes) :
    (progress.succeed directory).generator = progress.generator := by
  unfold succeed
  split <;> rfl

@[simp]
theorem Progress.hasFailed_succeed (progress : Progress) (directory : Bytes) :
    (progress.succeed directory).hasFailed = progress.hasFailed := by
  unfold succeed
  split <;> rfl

@[simp]
theorem Progress.stdout_succeed (progress : Progress) (directory : Bytes) :
    (progress.succeed directory).stdout = progress.stdout := by
  unfold succeed
  split <;> rfl

@[simp]
theorem Progress.stderr_succeed (progress : Progress) (directory : Bytes) :
    (progress.succeed directory).stderr = progress.stderr := by
  unfold succeed
  split <;> rfl

section Ends

variable {progress next : Progress} (keeps : progress.disk.Keeps next.disk)
  (unchanged : options.toStdout = true → next.disk = progress.disk)

include keeps unchanged

theorem advances_fail {messages : List Bytes} (file : FileRun options conditions
      progress.generator progress.disk path false next.generator next.disk) :
    Advances options conditions path progress (next.fail messages) false where
  file := file
  hasFailed := by simp [Progress.fail]
  directories := by simp
  keeps := keeps
  present := by simp
  unchanged := unchanged

/-- A file ends well or badly after its output has been printed or written. -/
theorem advances_finish {failure : Option FileFailure}
    (sameDirectories : next.directories = progress.directories)
    (sameFailed : next.hasFailed = progress.hasFailed)
    (present : failure = none → options.toStdout = false →
      ∃ clean, next.disk.resolve (options.outputDirectory path) = .ok (clean, .directory))
    (file : FileRun options conditions progress.generator progress.disk path failure.isNone
      next.generator next.disk) :
    Advances options conditions path progress (next.finish failure (options.outputDirectory path))
      failure.isNone := by
  cases failure with
  | some failure => exact advances_fail keeps unchanged file
  | none =>
    unfold Progress.finish
    refine ⟨?_, ?_, ?_, ?_, ?_, ?_⟩
    · rwa [Progress.disk_succeed, Progress.generator_succeed]
    · simp [sameFailed]
    · intro _ directory
      rw [Progress.mem_directories_succeed, sameDirectories]
    · rwa [Progress.disk_succeed]
    · intro _ toDisk
      rw [Progress.disk_succeed]
      exact present rfl toDisk
    · rwa [Progress.disk_succeed]

end Ends

/-- What becomes of a file whose input the generator is given. -/
theorem advances_deliver {progress : Progress} {outcome : Outcome}
    (generates : Generates conditions progress.generator progress.disk path next outcome) :
    ∃ succeeds, Advances options conditions path progress
      (deliver options conditions { progress with generator := next } path outcome) succeeds := by
  unfold deliver
  dsimp only
  cases fails : outcome.failure with
  | some failure =>
    refine ⟨false, advances_fail ?_ ?_ ?_⟩
    · exact Disk.Keeps.refl _
    · exact fun _ => rfl
    · exact .failed generates (by simp [fails])
  | none =>
    dsimp only
    cases toStdout : options.toStdout with
    | true =>
      rw [if_pos rfl]
      have printed : (print conditions.printing outcome.output).2.isNone =
          conditions.printing.isNone := by
        cases conditions.printing <;> rfl
      refine ⟨_, advances_finish ?_ ?_ rfl rfl ?_ ?_⟩
      · exact Disk.Keeps.refl _
      · exact fun _ => rfl
      · intro _ toDisk
        cases toStdout.symm.trans toDisk
      · rw [printed]
        exact .printed generates fails toStdout
    | false =>
      rw [if_neg Bool.false_ne_true]
      refine ⟨_, advances_finish (Disk.keeps_write ..).1 ?_ rfl rfl ?_ ?_⟩
      · intro other
        cases toStdout.symm.trans other
      · intro whole _
        exact ⟨_, Disk.resolve_directory_of_write whole⟩
      · exact .written generates fails toStdout rfl (Disk.write_writes ..)

theorem runFile_advances (options : Options) (conditions : Conditions) (progress : Progress)
    (path : Bytes) :
    ∃ succeeds, Advances options conditions path progress (runFile options conditions progress path)
      succeeds := by
  unfold runFile
  cases read : progress.disk.read path with
  | ok text =>
    dsimp only
    exact advances_deliver ⟨_, .text read, rfl⟩
  | error failure =>
    by_cases isOpen : failure.operation = .read
    · simp only [isOpen, if_true]
      exact advances_deliver ⟨_, .reason read isOpen, rfl⟩
    · simp only [isOpen, if_false]
      refine ⟨false, advances_fail ?_ ?_ ?_⟩
      · exact Disk.Keeps.refl _
      · exact fun _ => rfl
      · exact .unopened read isOpen

/-! ## All files -/

/-- What a run has after all of its files, given which of them succeeded. -/
structure Completes (options : Options) (conditions : Nat → Conditions) (paths : List Bytes)
    (progress last : Progress) (successes : List Bool) : Prop where
  batch : Batch options conditions progress.generator progress.disk paths successes last.disk
  hasFailed : last.hasFailed = true ↔ progress.hasFailed = true ∨ false ∈ successes
  directories : false ∉ successes → ∀ directory, directory ∈ last.directories ↔
    directory ∈ progress.directories ∨ ∃ path ∈ paths, directory = options.outputDirectory path
  keeps : progress.disk.Keeps last.disk
  present : false ∉ successes → options.toStdout = false → ∀ path ∈ paths,
    ∃ clean, last.disk.resolve (options.outputDirectory path) = .ok (clean, .directory)
  unchanged : options.toStdout = true → last.disk = progress.disk

theorem runEach_completes (options : Options) (conditions : Nat → Conditions) (paths : List Bytes)
    (progress : Progress) :
    ∃ successes, Completes options conditions paths progress (runEach options conditions progress paths)
      successes := by
  induction paths generalizing conditions progress with
  | nil =>
    exact ⟨[], .done, by simp [runEach], by simp [runEach], Disk.Keeps.refl _, by simp, fun _ => rfl⟩
  | cons path paths ih =>
    obtain ⟨succeeds, once⟩ := runFile_advances options (conditions 0) progress path
    obtain ⟨successes, later⟩ := ih (afterFirst conditions)
      (runFile options (conditions 0) progress path)
    refine ⟨succeeds :: successes, ⟨.file once.file later.batch, ?_, ?_, ?_, ?_, ?_⟩⟩
    · rw [runEach, later.hasFailed, once.hasFailed]
      cases succeeds <;> simp
    · intro good directory
      rw [mem_cons, not_or] at good
      rw [runEach, later.directories good.2, once.directories (by simpa using Ne.symm good.1)]
      simp [or_assoc]
    · exact once.keeps.trans later.keeps
    · intro good toDisk other member
      rw [mem_cons, not_or] at good
      rcases mem_cons.1 member with rfl | member
      · obtain ⟨clean, present⟩ := once.present (by simpa using Ne.symm good.1) toDisk
        exact ⟨clean, later.keeps.resolve present⟩
      · exact later.present good.2 toDisk other member
    · intro toStdout
      exact (later.unchanged toStdout).trans (once.unchanged toStdout)

theorem Batch.of_nil {conditions : Nat → Conditions} {last : Disk} {successes : List Bool}
    (batch : Batch options conditions generator disk [] successes last) :
    successes = [] ∧ last = disk := by
  cases batch
  exact ⟨rfl, rfl⟩

theorem Batch.of_cons {conditions : Nat → Conditions} {last : Disk} {paths : List Bytes}
    {successes : List Bool}
    (batch : Batch options conditions generator disk (path :: paths) successes last) :
    ∃ succeeds later next after, successes = succeeds :: later ∧
      FileRun options (conditions 0) generator disk path succeeds next after ∧
      Batch options (afterFirst conditions) next after paths later last := by
  cases batch with
  | file first rest => exact ⟨_, _, _, _, rfl, first, rest⟩

/-- A file that cannot be opened fails. -/
theorem FileRun.of_unopened {failure : FileFailure}
    (file : FileRun options conditions generator disk path succeeds next after)
    (read : disk.read path = .error failure) (closed : failure.operation ≠ .read) :
    succeeds = false ∧ next = generator ∧ after = disk := by
  have never {next : Generator} {outcome : Outcome} :
      ¬Generates conditions generator disk path next outcome := by
    rintro ⟨_, text | ⟨other, isOpen⟩, _⟩
    · cases read.symm.trans text
    · cases read.symm.trans other
      exact closed isOpen
  cases file with
  | unopened => exact ⟨rfl, rfl, rfl⟩
  | failed generates | printed generates | written generates => exact absurd generates never

/-- A file that the generator has an output for is written, if it is not printed. -/
theorem FileRun.of_generated {text : Bytes} {outcome : Outcome}
    (file : FileRun options conditions generator disk path succeeds next after)
    (toDisk : options.toStdout = false) (read : disk.read path = .ok text)
    (generated : ({ generator with memory := conditions.memory }.generate disk path (.ok text)).2 =
      outcome) (good : outcome.failure = none) :
    let write := disk.write conditions.writing (options.outputPath path) outcome.output
    succeeds = write.2.isNone ∧ after = write.1 := by
  have always {next : Generator} {other : Outcome}
      (generates : Generates conditions generator disk path next other) : other = outcome := by
    obtain ⟨_, alsoRead | ⟨notRead, _⟩, given⟩ := generates
    · cases read.symm.trans alsoRead
      rw [← generated, given]
    · cases read.symm.trans notRead
  cases file with
  | unopened notRead => cases read.symm.trans notRead
  | failed generates fails => exact absurd (always generates ▸ good) fails
  | printed _ _ toStdout => cases toDisk.symm.trans toStdout
  | written generates _ _ write =>
    cases always generates
    rw [write]
    exact ⟨rfl, rfl⟩

/-! ## The checker -/

theorem runVet_disk (invocation : Invocation) (progress : Progress) :
    (runVet invocation progress).disk = progress.disk := by
  unfold runVet
  dsimp only
  split <;> rfl

theorem runVet_hasFailed {invocation : Invocation} {progress : Progress}
    (good : progress.hasFailed = false) :
    (runVet invocation progress).hasFailed = false ↔ ∀ directory ∈ progress.directories,
      verify progress.disk directory (invocation.vet directory) = none := by
  unfold runVet
  dsimp only
  split
  · rename_i none
    simpa [good] using none
  · rename_i some
    simpa [Progress.fail] using some

/-- The checker runs after files that all succeeded, and changes no file. -/
theorem runFiles_atomic (options : Options) (invocation : Invocation) (files : List Bytes) :
    ∃ successes,
      Batch options invocation.conditions options.generator invocation.disk files successes
        (runFiles options invocation files).disk ∧
      ((runFiles options invocation files).exitStatus = 0 ↔ false ∉ successes ∧
        (options.verifies = true → options.toStdout = false → ∀ path ∈ files,
          ∃ output, invocation.vet (options.outputDirectory path) = .exited 0 output)) ∧
      (options.toStdout = true → (runFiles options invocation files).disk = invocation.disk) := by
  obtain ⟨successes, completes⟩ := runEach_completes options invocation.conditions files
    { generator := options.generator, disk := invocation.disk }
  have exits : ∀ progress : Progress, (if progress.hasFailed = true then 1 else 0) = 0 ↔
      progress.hasFailed = false := by
    intro progress
    cases progress.hasFailed <;> simp
  refine ⟨successes, ?_⟩
  unfold runFiles
  dsimp only
  generalize runEach options invocation.conditions
    { generator := options.generator, disk := invocation.disk } files = last at completes
  have good : last.hasFailed = false ↔ false ∉ successes := by
    rw [← not_iff_not, Bool.not_eq_false, completes.hasFailed]
    simp
  rw [exits]
  by_cases checks : (options.verifies && !options.toStdout && !last.hasFailed) = true
  · rw [if_pos checks, runVet_disk]
    simp only [Bool.and_eq_true, Bool.not_eq_true'] at checks
    obtain ⟨⟨verifies, toDisk⟩, noneFailed⟩ := checks
    refine ⟨completes.batch, ?_, completes.unchanged⟩
    have allGood := good.1 noneFailed
    rw [runVet_hasFailed noneFailed]
    have passes : ∀ path ∈ files, verify last.disk (options.outputDirectory path)
          (invocation.vet (options.outputDirectory path)) = none ↔
        ∃ output, invocation.vet (options.outputDirectory path) = .exited 0 output := by
      intro path member
      obtain ⟨clean, present⟩ := completes.present allGood toDisk path member
      exact verify_eq_none_iff present _
    constructor
    · intro verified
      refine ⟨allGood, fun _ _ path member => (passes path member).1 ?_⟩
      apply verified
      exact (completes.directories allGood _).2 (.inr ⟨path, member, rfl⟩)
    · rintro ⟨_, passed⟩ directory member
      rcases (completes.directories allGood _).1 member with impossible | ⟨path, among, rfl⟩
      · cases impossible
      · exact (passes path among).2 (passed verifies toDisk path among)
  · rw [if_neg checks]
    refine ⟨completes.batch, ?_, completes.unchanged⟩
    rw [good]
    constructor
    · intro allGood
      refine ⟨allGood, fun verifies toDisk => ?_⟩
      exact absurd (by simp [verifies, toDisk, good.2 allGood]) checks
    · exact And.left

/-- A run goes through the files that it is given, unless they are several for one output. -/
theorem run_eq_runFiles {invocation : Invocation} {named files : List Bytes}
    (parsed : parseArguments invocation.arguments = .ok (options, named))
    (given : inputFiles invocation.environmentFile named = files) (some : files ≠ [])
    (single : options.output = [] ∨ files.length = 1) :
    run invocation = runFiles options invocation files := by
  obtain ⟨first, rest, rfl⟩ := exists_cons_of_ne_nil some
  have accepted : ¬(!options.output.isEmpty && decide ((first :: rest).length > 1)) = true := by
    rcases single with none | one
    · simp [none]
    · simp [one]
  simp only [run, parsed, given]
  exact if_neg accepted

/-- A run over files is atomic for each of them, as far as the system lets it be.  Several
files for one output are refused before anything is done.  Otherwise the disk afterwards
comes from going through the files in order.  A file whose output is written sets it, or
passes it on to a special file.  A file that fails before its output is open changes nothing,
and one that fails later changes no other file.  The run ends well exactly if every file
succeeded and, if asked, the checker passed in every directory that was written to. -/
theorem run_is_atomic_per_file (invocation : Invocation) {options : Options} {named files : List Bytes}
    (parsed : parseArguments invocation.arguments = .ok (options, named))
    (given : inputFiles invocation.environmentFile named = files) (some : files ≠ []) :
    (options.output ≠ [] → 1 < files.length →
      (run invocation).exitStatus = 2 ∧ (run invocation).disk = invocation.disk) ∧
    (options.output = [] ∨ files.length = 1 → ∃ successes,
      Batch options invocation.conditions options.generator invocation.disk files successes
        (run invocation).disk ∧
      ((run invocation).exitStatus = 0 ↔ false ∉ successes ∧
        (options.verifies = true → options.toStdout = false → ∀ path ∈ files,
          ∃ output, invocation.vet (options.outputDirectory path) = .exited 0 output)) ∧
      (options.toStdout = true → (run invocation).disk = invocation.disk)) := by
  refine ⟨fun hasOutput several => ?_, fun single => ?_⟩
  · obtain ⟨first, rest, rfl⟩ := exists_cons_of_ne_nil some
    simp only [run, parsed, given]
    rw [if_pos (by simpa [hasOutput] using several)]
    exact ⟨rfl, rfl⟩
  · rw [run_eq_runFiles parsed given some single]
    exact runFiles_atomic options invocation files

/-- A run on a single file that the generator has an output for writes this output. -/
theorem run_single {invocation : Invocation} {text : Bytes} {outcome : Outcome}
    (parsed : parseArguments invocation.arguments = .ok (options, [path]))
    (toDisk : options.toStdout = false) (unchecked : options.verifies = false)
    (read : invocation.disk.read path = .ok text)
    (generated : ({ options.generator with memory := (invocation.conditions 0).memory }.generate
      invocation.disk path (.ok text)).2 = outcome)
    (succeeds : outcome.failure = none) :
    let write := invocation.disk.write (invocation.conditions 0).writing (options.outputPath path)
      outcome.output
    ((run invocation).exitStatus = 0 ↔ write.2 = none) ∧ (run invocation).disk = write.1 := by
  intro write
  rw [run_eq_runFiles parsed rfl (cons_ne_nil _ _) (.inr rfl)]
  obtain ⟨_, batch, exits, _⟩ := runFiles_atomic options invocation [path]
  obtain ⟨_, _, _, _, rfl, file, done⟩ := batch.of_cons
  obtain ⟨rfl, rfl⟩ := file.of_generated toDisk read generated succeeds
  obtain ⟨rfl, isLast⟩ := done.of_nil
  refine ⟨exits.trans ?_, isLast⟩
  simp [unchecked, write]

/-- A disk with a template file, an older output of it, and a device. -/
def smallDisk : Disk :=
  .ofEntries [
    ("a.go", .regular
      "//go:build casegen\n\npackage p\n\n//casegen:case 1; \"a\"\nfunc f(n int) \x7b\n\tg(n)\n\x7d\n"),
    ("a_gen.go", .regular "package p\n"),
    ("/dev/null", .special)]

/-- The template file can be read, and a generator without an archive has an output for it. -/
theorem smallDisk_is_generated : ∃ text outcome, smallDisk.read "a.go" = .ok text ∧
    (Generator.generate { tag := defaultTag } smallDisk "a.go" (.ok text)).2 = outcome ∧
    outcome.failure = none ∧ outcome.output ≠ [] := by
  have checked : (smallDisk.read "a.go").toOption.any (fun text =>
      (Source.parseFile "a.go" text).toOption.any fun source =>
        Generator.fits { tag := defaultTag } (smallDisk.rooted ".") "a.go" source) = true := by
    decide +kernel
  obtain ⟨text, read, parses⟩ := exists_ok_of_any checked
  obtain ⟨source, parsed, fits⟩ := exists_ok_of_any parses
  have generated := generate_of_fits (Or.inl ⟨rfl, rfl⟩) parsed fits
  exact ⟨text, _, read, rfl, generated.1, generated.2⟩

/-- A run on a missing file and on the template file, to be checked afterwards. -/
def mixedInvocation : Invocation where
  arguments := ["-verify", "missing.go", "a.go"]
  disk := smallDisk

/-- The options of that run. -/
def mixedOptions : Options :=
  { verifies := true }

theorem mixed_run_is_atomic_per_file :
    parseArguments mixedInvocation.arguments = .ok (mixedOptions, ["missing.go", "a.go"]) ∧
    ∃ output, output ≠ [] ∧ smallDisk.Sets "a_gen.go" output (run mixedInvocation).disk ∧
      Batch mixedOptions mixedInvocation.conditions mixedOptions.generator smallDisk
        ["missing.go", "a.go"] [false, true] (run mixedInvocation).disk ∧
      (run mixedInvocation).exitStatus ≠ 0 := by
  have parsed : parseArguments mixedInvocation.arguments =
      .ok (mixedOptions, ["missing.go", "a.go"]) := by
    decide +kernel
  have missing : smallDisk.read "missing.go" = .error ⟨.open_, "missing.go", .missing⟩ := by
    decide +kernel
  have writable : smallDisk.writable "a_gen.go" = .ok "a_gen.go" := by decide +kernel
  have regular : smallDisk.resolve "a_gen.go" = .ok ("a_gen.go", .entry (.regular "package p\n")) := by
    decide +kernel
  obtain ⟨text, outcome, read, generated, succeeds, someOutput⟩ := smallDisk_is_generated
  obtain ⟨successes, batch, exits, _⟩ :=
    (run_is_atomic_per_file mixedInvocation parsed rfl (cons_ne_nil _ _)).2 (.inl rfl)
  obtain ⟨_, _, _, _, rfl, first, rest⟩ := batch.of_cons
  obtain ⟨rfl, rfl, rfl⟩ := first.of_unopened missing FileOperation.noConfusion
  obtain ⟨_, _, _, _, rfl, second, done⟩ := rest.of_cons
  obtain ⟨isSecond, rfl⟩ := second.of_generated rfl read generated succeeds
  obtain ⟨rfl, isLast⟩ := done.of_nil
  have whole : (smallDisk.write none "a_gen.go" outcome.output).2 = none := by
    unfold Disk.write
    rw [writable]
  have sets : smallDisk.Sets "a_gen.go" outcome.output
      (smallDisk.write none "a_gen.go" outcome.output).1 := by
    have writes := Disk.write_writes smallDisk none "a_gen.go" outcome.output
    rw [whole] at writes
    cases writes.takes with
    | stored _ sets => exact sets
    | passed before _ _ => cases regular.symm.trans before
  refine ⟨parsed, outcome.output, someOutput, isLast ▸ sets, ?_, ?_⟩
  · cases isSecond.trans (congrArg Option.isNone whole)
    exact batch
  · intro good
    exact (exits.1 good).1 mem_cons_self

/-- The template file, with its output sent to the device. -/
def deviceInvocation : Invocation where
  arguments := ["-o", "/dev/null", "a.go"]
  disk := smallDisk

/-- The template file on a system that has no space for its output. -/
def fullInvocation : Invocation where
  arguments := ["a.go"]
  disk := smallDisk
  conditions := fun _ => { writing := some (.stopped ⟨0, .other "no space left on device"⟩) }

/-- A run that ends well need not set its output, and a run that fails may change a file. -/
theorem output_may_be_lost :
    ∃ text outcome, smallDisk.read "a.go" = .ok text ∧
      (Generator.generate { tag := defaultTag } smallDisk "a.go" (.ok text)).2 = outcome ∧
      (run deviceInvocation).exitStatus = 0 ∧
      ¬smallDisk.Sets "/dev/null" outcome.output (run deviceInvocation).disk ∧
      (run fullInvocation).exitStatus ≠ 0 ∧
      (run fullInvocation).disk.read "a_gen.go" ≠ smallDisk.read "a_gen.go" := by
  obtain ⟨text, outcome, read, generated, succeeds, someOutput⟩ := smallDisk_is_generated
  obtain ⟨exits, onDevice⟩ := run_single (show parseArguments deviceInvocation.arguments =
    .ok ({ output := "/dev/null" }, ["a.go"]) by decide +kernel) rfl rfl read generated succeeds
  obtain ⟨fails, onFull⟩ := run_single (show parseArguments fullInvocation.arguments =
    .ok ({}, ["a.go"]) by decide +kernel) rfl rfl read generated succeeds
  refine ⟨text, outcome, read, generated, exits.2 rfl, ?_, ?_, ?_⟩
  · intro sets
    have reads := sets.reads
    rw [onDevice] at reads
    -- Nothing can be read from the device, whatever it has taken.
    have nothing : Except.ok [] = Except.ok outcome.output := reads
    exact someOutput (Except.ok.inj nothing).symm
  · intro good
    cases fails.1 good
  · rw [onFull]
    have writable : smallDisk.writable "a_gen.go" = .ok "a_gen.go" := by decide +kernel
    have emptied : (smallDisk.fill "a_gen.go" []).read "a_gen.go" ≠ smallDisk.read "a_gen.go" := by
      decide +kernel
    change (smallDisk.write (some (.stopped _)) "a_gen.go" outcome.output).1.read "a_gen.go" ≠ _
    unfold Disk.write
    rw [writable]
    exact emptied

end CommandLine
end CaseExpansion
