import CaseExpansion.Proofs.CommandLine.Batches
import CaseExpansion.Proofs.Generator.Sessions

namespace CaseExpansion

open List

/-!
# One run or several

A run over several files uses one generator for all of them.  The patterns that it loads
for one file are there for the next one, also when the first one fails.  A run for each
file starts with a new generator, and loads its patterns from the disk as the run before
left it.

The two come to the same as long as no run writes to the archive, and the system refuses the
same to both.  A generator is *current* on a disk if it lacks the namespace pattern, or holds
the two patterns that the archive has there.  Such a generator gives what a new one gives, it
is current after that, and it stays current when another file is written.  The data of a run
may lie elsewhere in memory than that of another one, as long as no pattern shows it.
-/

/-! ## Flags before files -/

namespace Flag

theorem body?_eq_none {argument : Bytes} (plain : argument.head? ≠ some (byte '-')) :
    body? argument = none := by
  cases argument with
  | nil => rfl
  | cons first rest =>
    have different : first ≠ byte '-' := by simpa using plain
    cases rest with
    | nil => rfl
    | cons second rest => exact if_pos different

/-- One more flag in front, given what the arguments after it give. -/
theorem map_cons_eq_ok {flags : List Flag} {rest files : List Bytes} {given : List (Bytes × Bytes)}
    (later : ∀ {given}, parse flags rest = .ok (given, []) →
      parse flags (rest ++ files) = .ok (given, files)) {flag : Bytes × Bytes}
    (parsed : (parse flags rest).map (fun result => (flag :: result.1, result.2)) = .ok (given, [])) :
    (parse flags (rest ++ files)).map (fun result => (flag :: result.1, result.2)) =
    .ok (given, files) := by
  cases first : parse flags rest with
  | error error =>
    rw [first] at parsed
    cases parsed
  | ok result =>
    obtain ⟨others, left⟩ := result
    rw [first] at parsed
    cases parsed
    rw [later first]
    rfl

theorem parse_append {flags : List Flag} {arguments files : List Bytes} {given : List (Bytes × Bytes)}
    (parsed : parse flags arguments = .ok (given, []))
    (plain : ∀ file ∈ files, file.head? ≠ some (byte '-')) :
    parse flags (arguments ++ files) = .ok (given, files) := by
  have start : parse flags files = .ok ([], files) := by
    cases files with
    | nil => rw [parse]
    | cons file files => rw [parse, body?_eq_none (plain file mem_cons_self)]
  fun_induction parse flags arguments generalizing given with
  | case1 =>
    cases parsed
    exact start
  | case2 argument rest isFile => cases parsed
  | case3 argument rest body isFlag dashes =>
    cases parsed
    rw [cons_append, parse, isFlag]
    exact if_pos dashes
  | case4 | case5 | case6 | case7 | case11 => cases parsed
  | case8 argument rest body isFlag noDashes wellFormed name value? parts flag known isSwitch
      value isTruth =>
    rename_i later
    rw [cons_append, parse, isFlag]
    simp only [noDashes, wellFormed, parts, known, isSwitch, if_true, Bool.false_eq_true, if_false]
    rw [if_neg isTruth]
    exact map_cons_eq_ok later parsed
  | case9 argument body isFlag noDashes wellFormed name flag known takesText value rest parts later =>
    rw [cons_append, parse, isFlag]
    simp only [noDashes, wellFormed, parts, known, takesText, Bool.false_eq_true, if_false]
    exact map_cons_eq_ok later parsed
  | case10 argument body isFlag noDashes wellFormed name flag known takesText value rest parts later =>
    rw [cons_append, cons_append, parse, isFlag]
    simp only [noDashes, wellFormed, parts, known, takesText, Bool.false_eq_true, if_false]
    exact map_cons_eq_ok later parsed

end Flag

/-! ## Generators that have run before -/

namespace Reading

/-- An archive has the same patterns after another file is written, or partly written. -/
theorem patterns?_of_write {disk : Disk} {fault : Option WriteFault} {path contents archive : Bytes}
    (different : archive ≠ [] → Path.clean archive ≠ Path.clean path)
    {found : Pattern.Compiled × Pattern.Compiled} (given : patterns? ⟨disk, archive⟩ = some found) :
    patterns? ⟨(disk.write fault path contents).1, archive⟩ = some found := by
  have same : Rendering.readArchive (disk.write fault path contents).1 archive =
      Rendering.readArchive disk archive := by
    by_cases builtin : archive = []
    · rw [builtin]
      rfl
    · cases isRead : disk.read archive with
      | ok text =>
        have stillRead : (disk.write fault path contents).1.read archive = .ok text :=
          Disk.read_of_write (different builtin) isRead
        simp only [Rendering.readArchive, isRead, stillRead]
      | error failure =>
        simp [patterns?, Rendering.readArchive, builtin, isRead, Except.toOption] at given
  rwa [patterns?, same]

/-- The built-in patterns show no addresses. -/
theorem hidesAddresses_of_builtin (disk : Disk) : HidesAddresses ⟨disk, []⟩ := by
  intro file space given
  have incomplete : Rendering.Patterns.isComplete {} = false := rfl
  obtain ⟨_, _, isLoaded, isBuiltin⟩ := Rendering.Patterns.load_builtin disk incomplete
  cases (Rendering.Patterns.load_of_patterns? rfl given).symm.trans isLoaded
  exact Rendering.hidesAddresses_builtin isBuiltin.isSpace

end Reading
namespace Generator

variable {generator : Generator} {disk : Disk}

/-- What a generator holds is not older than a disk: it has no namespace pattern, or just
the two patterns that the archive has on that disk. -/
def IsCurrent (generator : Generator) (disk : Disk) : Prop :=
  generator.patterns.space = none ∨
    ∃ file space, generator.patterns = ⟨some file, some space⟩ ∧
      Reading.patterns? ⟨disk, generator.archive⟩ = some (file, space)

theorem IsCurrent.within (current : generator.IsCurrent disk) (memory : Nat → Rendering.Memory) :
    (generator.within memory).IsCurrent disk :=
  current

/-- A current generator gives what one gives that has loaded nothing. -/
theorem IsCurrent.generate_snd (current : generator.IsCurrent disk) (filename : Bytes)
    (input : Except Bytes Bytes) :
    (generator.generate disk filename input).2 = (generator.fresh.generate disk filename input).2 := by
  rcases current with lacking | ⟨file, space, holds, given⟩
  · exact generate_of_space_eq_none lacking filename input
  · refine generate_of_patterns? ?_ given filename input
    rw [holds]
    rfl

/-- A run changes no setting. -/
theorem fresh_generate_fst (generator : Generator) (disk : Disk) (filename : Bytes)
    (input : Except Bytes Bytes) : (generator.generate disk filename input).1.fresh =
      generator.fresh := by
  cases looks : looksForPatterns input with
  | false => rw [generate_fst_of_not_looksForPatterns looks]
  | true =>
    rw [generate_fst_of_looksForPatterns looks]
    rfl

theorem IsCurrent.generate_fst (current : generator.IsCurrent disk) (filename : Bytes)
    (input : Except Bytes Bytes) : (generator.generate disk filename input).1.IsCurrent disk := by
  cases looks : looksForPatterns input with
  | false => rwa [generate_fst_of_not_looksForPatterns looks]
  | true =>
    rw [generate_fst_of_looksForPatterns looks]
    rcases current with lacking | ⟨file, space, holds, given⟩
    · rcases Rendering.Patterns.load_of_space_eq_none lacking disk generator.archive with
        ⟨file, space, given, isLoaded⟩ | ⟨_, _, _, _, stillLacking⟩
      · exact .inr ⟨file, space, congrArg Prod.fst isLoaded, given⟩
      · exact .inl stillLacking
    · refine .inr ⟨file, space, ?_, given⟩
      rw [holds]
      rfl

/-- A current generator stays current when a file other than the archive is written. -/
theorem IsCurrent.write {fault : Option WriteFault} {path contents : Bytes}
    (current : generator.IsCurrent disk)
    (different : generator.archive ≠ [] → Path.clean generator.archive ≠ Path.clean path) :
    generator.IsCurrent (disk.write fault path contents).1 := by
  rcases current with lacking | ⟨file, space, holds, given⟩
  · exact .inl lacking
  · exact .inr ⟨file, space, holds, Reading.patterns?_of_write different given⟩

end Generator
namespace CommandLine

variable {options : Options} {progress : Progress} {path : Bytes} {arguments files : List Bytes}

/-! ## One file -/

/-- A run that has only begun. -/
def Options.start (options : Options) (disk : Disk) : Progress :=
  { generator := options.generator, disk }

/-- What is reported at the end of a run without the checker. -/
def Progress.report (progress : Progress) : Report where
  exitStatus := if progress.hasFailed then 1 else 0
  stdout := progress.stdout
  stderr := progress.stderr
  disk := progress.disk

/-- From one point of a run to a later one, the run has done what reports say together. -/
structure Covers (progress last : Progress) (reports : List Report) : Prop where
  disk : last.disk = (reports.getLast?.map Report.disk).getD progress.disk
  stdout : last.stdout = progress.stdout ++ reports.flatMap Report.stdout
  stderr : last.stderr = progress.stderr ++ reports.flatMap Report.stderr
  hasFailed : last.hasFailed = false ↔
    progress.hasFailed = false ∧ ∀ report ∈ reports, report.exitStatus = 0

theorem Progress.report_exitStatus (progress : Progress) :
    progress.report.exitStatus = 0 ↔ progress.hasFailed = false := by
  unfold report
  cases progress.hasFailed <;> simp

theorem Covers.nil (progress : Progress) : Covers progress progress [] := by
  constructor <;> simp

theorem Covers.append {next last : Progress} {earlier later : List Report}
    (first : Covers progress next earlier) (second : Covers next last later) :
    Covers progress last (earlier ++ later) where
  disk := by
    rw [second.disk, first.disk, getLast?_append]
    cases later.getLast? <;> rfl
  stdout := by simp [second.stdout, first.stdout]
  stderr := by simp [second.stderr, first.stderr]
  hasFailed := by
    rw [second.hasFailed, first.hasFailed, forall_mem_append, and_assoc]

/-- What is printed or written is the same in a run of its own. -/
theorem covers_finish {next alone : Progress} {printed told : Bytes} (failure : Option FileFailure)
    (directory : Bytes) (sameDisk : next.disk = alone.disk)
    (stdout : next.stdout = progress.stdout ++ printed ∧ alone.stdout = printed)
    (stderr : next.stderr = progress.stderr ++ told ∧ alone.stderr = told)
    (hasFailed : next.hasFailed = progress.hasFailed ∧ alone.hasFailed = false) :
    Covers progress (next.finish failure directory) [(alone.finish failure directory).report] := by
  cases failure <;> constructor <;>
    simp [Progress.finish, Progress.fail, Progress.report, sameDisk, stdout, stderr, hasFailed]

theorem covers_deliver (options : Options) (conditions : Conditions) (progress : Progress)
    (generator : Generator) (path : Bytes) (outcome : Outcome) :
    Covers progress (deliver options conditions progress path outcome)
      [(deliver options conditions { generator, disk := progress.disk } path outcome).report] := by
  unfold deliver
  dsimp only
  cases outcome.failure with
  | some failure => constructor <;> simp [Progress.fail, Progress.report]
  | none =>
    dsimp only
    split
    · exact covers_finish _ _ rfl ⟨rfl, rfl⟩ ⟨rfl, rfl⟩ ⟨rfl, rfl⟩
    · exact covers_finish _ _ rfl ⟨(append_nil _).symm, rfl⟩ ⟨rfl, rfl⟩ ⟨rfl, rfl⟩

/-- The generator of a run is current and has the settings of the options, but for where its
data lies. -/
structure Progress.IsCurrent (options : Options) (progress : Progress) : Prop where
  settings : ∀ memory, progress.generator.fresh.within memory = options.generator.within memory
  current : progress.generator.IsCurrent progress.disk

theorem Options.start_isCurrent (options : Options) (disk : Disk) :
    (options.start disk).IsCurrent options :=
  ⟨fun _ => rfl, .inl rfl⟩

/-- A path leads to a failure before the generator is asked, or to an input for it.  Which
of the two depends on the disk alone. -/
theorem runFile_cases (options : Options) (disk : Disk) (path : Bytes) :
    (∃ messages, ∀ conditions, ∀ progress : Progress, progress.disk = disk →
      runFile options conditions progress path = progress.fail messages) ∨
    ∃ input, ∀ conditions, ∀ progress : Progress, progress.disk = disk →
      let generated := (progress.generator.within conditions.memory).generate disk path input
      runFile options conditions progress path =
        deliver options conditions { progress with generator := generated.1 } path generated.2 := by
  cases read : disk.read path with
  | ok text =>
    refine .inr ⟨.ok text, ?_⟩
    rintro conditions progress rfl
    simp only [runFile, read]
    rfl
  | error failure =>
    by_cases isOpen : failure.operation = .read
    · refine .inr ⟨.error failure.message, ?_⟩
      rintro conditions progress rfl
      simp only [runFile, read, isOpen, if_true]
      rfl
    · refine .inl ⟨[failure.message], ?_⟩
      rintro conditions progress rfl
      simp only [runFile, read, isOpen, if_false]

/-- In the middle of a run, a file is treated as in a run of its own. -/
theorem covers_runFile (current : progress.IsCurrent options) (conditions : Conditions)
    {memory : Nat → Rendering.Memory}
    (unseen : memory = conditions.memory ∨ Reading.HidesAddresses ⟨progress.disk, options.archive⟩)
    (path : Bytes) :
    Covers progress (runFile options { conditions with memory } progress path)
      [(runFile options conditions (options.start progress.disk) path).report] := by
  rcases runFile_cases options progress.disk path with ⟨messages, fails⟩ | ⟨input, gives⟩
  · rw [fails _ progress rfl, fails _ (options.start progress.disk) rfl]
    constructor <;> simp [Progress.fail, Progress.report, Options.start]
  · have same : ((options.generator.within conditions.memory).generate progress.disk path input).2 =
        ((progress.generator.within memory).generate progress.disk path input).2 := by
      have asFresh : ((progress.generator.within memory).generate progress.disk path input).2 =
          ((progress.generator.fresh.within memory).generate progress.disk path input).2 :=
        (current.current.within memory).generate_snd path input
      rw [asFresh, current.settings]
      exact @Generator.fresh_generate_within (options.generator.within conditions.memory) _ _ unseen
        path input
    rw [gives _ progress rfl, gives _ (options.start progress.disk) rfl]
    dsimp only [Options.start]
    rw [same]
    -- The generator that a run has plays no part any more.
    have delivered := covers_deliver options conditions
      { progress with
        generator := ((progress.generator.within memory).generate progress.disk path input).1 }
      ((options.generator.within conditions.memory).generate progress.disk path input).1 path
      ((progress.generator.within memory).generate progress.disk path input).2
    exact ⟨delivered.disk, delivered.stdout, delivered.stderr, delivered.hasFailed⟩

@[simp]
theorem Progress.generator_finish (progress : Progress) (failure : Option FileFailure)
    (directory : Bytes) : (progress.finish failure directory).generator = progress.generator := by
  cases failure <;> simp [finish, fail]

@[simp]
theorem Progress.disk_finish (progress : Progress) (failure : Option FileFailure) (directory : Bytes) :
    (progress.finish failure directory).disk = progress.disk := by
  cases failure <;> simp [finish, fail]

theorem generator_deliver (options : Options) (conditions : Conditions) (progress : Progress)
    (path : Bytes) (outcome : Outcome) :
    (deliver options conditions progress path outcome).generator = progress.generator := by
  unfold deliver
  dsimp only
  split
  · rfl
  · split <;> simp

theorem runFile_generator (options : Options) (conditions : Conditions) (progress : Progress)
    (path : Bytes) :
    (runFile options conditions progress path).generator = progress.generator ∨
      ∃ input, (runFile options conditions progress path).generator =
        ((progress.generator.within conditions.memory).generate progress.disk path input).1 := by
  rcases runFile_cases options progress.disk path with ⟨messages, fails⟩ | ⟨input, gives⟩
  · rw [fails _ progress rfl]
    exact .inl rfl
  · refine .inr ⟨input, ?_⟩
    rw [gives _ progress rfl, generator_deliver]

/-- A file that changes the disk writes its output, and it fails only if the system stops it. -/
theorem runFile_disk (toDisk : options.toStdout = false) (conditions : Conditions) (progress : Progress)
    (path : Bytes) :
    (runFile options conditions progress path).disk = progress.disk ∨
      (∃ contents, (runFile options conditions progress path).disk =
        (progress.disk.write conditions.writing (options.outputPath path) contents).1) ∧
      ((runFile options conditions progress path).hasFailed = progress.hasFailed ∨
        conditions.writing.isSome = true) := by
  rcases runFile_cases options progress.disk path with ⟨messages, fails⟩ | ⟨input, gives⟩
  · rw [fails _ progress rfl]
    exact .inl rfl
  · rw [gives _ progress rfl]
    generalize (progress.generator.within conditions.memory).generate progress.disk path input =
      generated
    unfold deliver
    dsimp only
    cases generated.2.failure with
    | some failure => exact .inl rfl
    | none =>
      dsimp only
      rw [toDisk, if_neg Bool.false_ne_true, Progress.disk_finish]
      cases conditions.writing with
      | some fault => exact .inr ⟨⟨_, rfl⟩, .inr rfl⟩
      | none =>
        rcases Disk.write_cases progress.disk none (options.outputPath path) generated.2.output with
          ⟨_, _, unopened⟩ | ⟨_, _, _, isWritable, _⟩
        · exact .inl (congrArg Prod.fst unopened)
        · refine .inr ⟨⟨_, rfl⟩, .inl ?_⟩
          unfold Disk.write
          rw [isWritable]
          exact Progress.hasFailed_succeed _ _

/-- The generator of a run stays current over a file, as far as the disk before the file goes. -/
theorem Progress.IsCurrent.generator_runFile (current : progress.IsCurrent options)
    (conditions : Conditions) (path : Bytes) :
    { runFile options conditions progress path with disk := progress.disk }.IsCurrent options := by
  rcases runFile_generator options conditions progress path with same | ⟨input, generated⟩
  · refine ⟨?_, ?_⟩ <;> dsimp only <;> rw [same]
    · exact current.settings
    · exact current.current
  · refine ⟨?_, ?_⟩ <;> dsimp only <;> rw [generated]
    · rw [Generator.fresh_generate_fst]
      exact current.settings
    · exact (current.current.within conditions.memory).generate_fst path input

/-- It stays current unless the file's output is the archive. -/
theorem Progress.IsCurrent.runFile (current : progress.IsCurrent options) (conditions : Conditions)
    {memory : Nat → Rendering.Memory}
    (unseen : memory = conditions.memory ∨ Reading.HidesAddresses ⟨progress.disk, options.archive⟩)
    (toDisk : options.toStdout = false)
    (kept : options.archive ≠ [] →
      (runFile options conditions (options.start progress.disk) path).report.exitStatus = 0 ∨
          conditions.writing.isSome = true →
        Path.clean options.archive ≠ Path.clean (options.outputPath path)) :
    (runFile options { conditions with memory } progress path).IsCurrent options := by
  have sameDisk : (CommandLine.runFile options { conditions with memory } progress path).disk =
      (CommandLine.runFile options conditions (options.start progress.disk) path).disk :=
    (covers_runFile current conditions unseen path).disk
  have before := current.generator_runFile { conditions with memory } path
  refine ⟨before.settings, ?_⟩
  rw [sameDisk]
  rcases runFile_disk toDisk conditions (options.start progress.disk) path with
    same | ⟨⟨contents, isWritten⟩, good⟩
  · rw [same]
    exact before.current
  · rw [isWritten]
    refine before.current.write fun given => ?_
    have archive : Generator.archive _ = options.archive :=
      congrArg Generator.archive (before.settings memory)
    dsimp only [Generator.fresh, Generator.within] at archive given ⊢
    rw [archive] at given ⊢
    exact kept given (good.imp_left (Progress.report_exitStatus _).2)

/-! ## All files -/

/-- A run for each file, one after the other and each on the disk that the one before left. -/
def separateRuns (arguments : List Bytes) : Invocation → List Bytes → List Report
  | _, [] => []
  | invocation, file :: files =>
    let report := run { invocation with arguments := arguments ++ [file] }
    report :: separateRuns arguments
      { invocation with disk := report.disk, conditions := afterFirst invocation.conditions } files

/-- The run over all files, which has the data of templates in places of its own. -/
def Invocation.together (invocation : Invocation) (memory : Nat → Nat → Rendering.Memory)
    (arguments : List Bytes) : Invocation :=
  { invocation with
    arguments
    conditions := fun index => { invocation.conditions index with memory := memory index } }

/-- The clean paths of the files that a run for each file writes, or starts to write, given
what these runs report. -/
def writtenPaths : (Nat → Conditions) → List Bytes → List Report → List Bytes
  | conditions, file :: files, report :: reports =>
    let later := writtenPaths (afterFirst conditions) files reports
    if report.exitStatus = 0 ∨ (conditions 0).writing.isSome then Path.clean (outputName file) :: later
    else later
  | _, _, _ => []

theorem notMem_writtenPaths_cons {conditions : Nat → Conditions} {file other : Bytes}
    {report : Report} {reports : List Report} :
    other ∉ writtenPaths conditions (file :: files) (report :: reports) ↔
      (report.exitStatus = 0 ∨ (conditions 0).writing.isSome = true →
        other ≠ Path.clean (outputName file)) ∧
      other ∉ writtenPaths (afterFirst conditions) files reports := by
  rw [writtenPaths]
  split
  next touched => simp [touched]
  next untouched => simp [untouched]

theorem exists_of_mem_writtenPaths {conditions : Nat → Conditions} {reports : List Report}
    {other : Bytes} (member : other ∈ writtenPaths conditions files reports) :
    ∃ file ∈ files, other = Path.clean (outputName file) := by
  fun_induction writtenPaths conditions files reports with
  | case1 conditions file files report reports later touched ih =>
    rcases mem_cons.1 member with rfl | member
    · exact ⟨file, mem_cons_self, rfl⟩
    · obtain ⟨other, among, same⟩ := ih member
      exact ⟨other, mem_cons_of_mem _ among, same⟩
  | case2 conditions file files report reports later untouched ih =>
    obtain ⟨other, among, same⟩ := ih member
    exact ⟨other, mem_cons_of_mem _ among, same⟩
  | case3 => cases member

/-- Options that send the output of every file to its usual place and ask for no check. -/
structure Options.IsPlain (options : Options) : Prop where
  output : options.output = []
  toDisk : options.toStdout = false
  unchecked : options.verifies = false

theorem parseArguments_append (parsed : parseArguments arguments = .ok (options, []))
    (named : ∀ file ∈ files, file.head? ≠ some (byte '-')) :
    parseArguments (arguments ++ files) = .ok (options, files) := by
  unfold parseArguments at parsed ⊢
  cases first : Flag.parse flags arguments with
  | error error =>
    rw [first] at parsed
    cases parsed
  | ok result =>
    obtain ⟨given, left⟩ := result
    rw [first] at parsed
    cases parsed
    rw [Flag.parse_append first named]
    rfl

/-- A run over files goes through them from a new generator. -/
theorem run_append (parsed : parseArguments arguments = .ok (options, [])) (plain : options.IsPlain)
    (someFile : files ≠ []) (named : ∀ file ∈ files, file.head? ≠ some (byte '-'))
    {invocation : Invocation} (given : invocation.arguments = arguments ++ files) :
    run invocation =
      (runEach options invocation.conditions (options.start invocation.disk) files).report := by
  have inputs : inputFiles invocation.environmentFile files = files := by
    unfold inputFiles
    rw [isEmpty_eq_false_iff.2 someFile]
    rfl
  rw [run_eq_runFiles (given ▸ parseArguments_append parsed named) inputs someFile (.inl plain.output)]
  simp only [runFiles, plain.unchecked, Bool.false_and, Bool.false_eq_true, if_false]
  rfl

/-- What a run with a current generator does to files is what separate runs do to them. -/
theorem covers_runEach (parsed : parseArguments arguments = .ok (options, []))
    (plain : options.IsPlain) (named : ∀ file ∈ files, file.head? ≠ some (byte '-'))
    (invocation : Invocation) (memory : Nat → Nat → Rendering.Memory)
    (unseen : (∀ index, memory index = (invocation.conditions index).memory) ∨
      ∀ disk ∈ invocation.disk :: (separateRuns arguments invocation files).map Report.disk,
        Reading.HidesAddresses ⟨disk, options.archive⟩) (sameDisk : progress.disk = invocation.disk)
    (current : progress.IsCurrent options)
    (kept : options.archive ≠ [] → Path.clean options.archive ∉
      writtenPaths invocation.conditions files (separateRuns arguments invocation files)) :
    Covers progress
      (runEach options (invocation.together memory []).conditions progress files)
      (separateRuns arguments invocation files) := by
  induction files generalizing progress invocation memory with
  | nil => exact Covers.nil progress
  | cons file files ih =>
    rw [forall_mem_cons] at named
    have single : run { invocation with arguments := arguments ++ [file] } =
        (runFile options (invocation.conditions 0) (options.start progress.disk) file).report := by
      rw [run_append parsed plain (cons_ne_nil _ _) (by simpa using named.1) rfl, sameDisk]
      rfl
    have here : memory 0 = (invocation.conditions 0).memory ∨
        Reading.HidesAddresses ⟨progress.disk, options.archive⟩ :=
      unseen.imp (· 0) fun hides => sameDisk ▸ hides _ mem_cons_self
    have first := covers_runFile current (invocation.conditions 0) here file
    rw [← single] at first
    simp only [separateRuns, notMem_writtenPaths_cons] at kept unseen
    apply first.append
    refine ih named.2 { invocation with disk := _, conditions := afterFirst invocation.conditions }
      (fun index => memory (index + 1)) ?_ first.disk ?_ fun given => (kept given).2
    · refine unseen.imp (fun same index => same (index + 1)) fun hides disk member => ?_
      exact hides disk (mem_cons_of_mem _ member)
    · apply current.runFile _ here plain.toDisk
      intro given touched
      rw [← single] at touched
      rw [Options.outputPath, plain.output]
      exact (kept given).1 touched

/-- One run over files and a run for each of them come to the same.  They leave the same
disk and print the same in the same order, and the one run ends well exactly if all the
others do.  The flags are those before the files; they neither redirect the output nor ask
for a check, and no file is written to the archive that they may name.  The system refuses
the same to both.  With the built-in patterns it may have their data anywhere; with an archive
it has them in the same places, or the archive does not show where. -/
theorem run_comes_to_separate_runs (invocation : Invocation) {options : Options}
    {arguments files : List Bytes} (memory : Nat → Nat → Rendering.Memory)
    (parsed : parseArguments arguments = .ok (options, []))
    (plain : options.IsPlain) (someFile : files ≠ [])
    (named : ∀ file ∈ files, file.head? ≠ some (byte '-'))
    (unseen : options.archive ≠ [] →
      (∀ index, memory index = (invocation.conditions index).memory) ∨
      ∀ disk ∈ invocation.disk :: (separateRuns arguments invocation files).map Report.disk,
        Reading.HidesAddresses ⟨disk, options.archive⟩)
    (kept : options.archive ≠ [] → Path.clean options.archive ∉
      writtenPaths invocation.conditions files (separateRuns arguments invocation files)) :
    (separateRuns arguments invocation files).getLast?.map Report.disk =
      some (run (invocation.together memory (arguments ++ files))).disk ∧
    (run (invocation.together memory (arguments ++ files))).stdout =
      (separateRuns arguments invocation files).flatMap Report.stdout ∧
    (run (invocation.together memory (arguments ++ files))).stderr =
      (separateRuns arguments invocation files).flatMap Report.stderr ∧
    ((run (invocation.together memory (arguments ++ files))).exitStatus = 0 ↔
      ∀ report ∈ separateRuns arguments invocation files, report.exitStatus = 0) := by
  have unshown : (∀ index, memory index = (invocation.conditions index).memory) ∨
      ∀ disk ∈ invocation.disk :: (separateRuns arguments invocation files).map Report.disk,
        Reading.HidesAddresses ⟨disk, options.archive⟩ := by
    by_cases builtin : options.archive = []
    · rw [builtin]
      exact .inr fun disk _ => Reading.hidesAddresses_of_builtin disk
    · exact unseen builtin
  have covers := covers_runEach parsed plain named invocation memory unshown rfl
    (options.start_isCurrent invocation.disk)
    kept
  rw [run_append parsed plain someFile named rfl]
  refine ⟨?_, covers.stdout, covers.stderr, ?_⟩
  · have someReport : (separateRuns arguments invocation files).getLast?.isSome = true := by
      obtain ⟨first, rest, rfl⟩ := exists_cons_of_ne_nil someFile
      rw [separateRuns, getLast?_isSome]
      exact cons_ne_nil _ _
    obtain ⟨last, isLast⟩ := Option.isSome_iff_exists.1 someReport
    have disk := covers.disk
    rw [isLast] at disk ⊢
    exact congrArg some disk.symm
  · rw [Progress.report_exitStatus]
    exact covers.hasFailed.trans (and_iff_right rfl)

/-- A disk with an archive of its own, a file without directives and one with a case. -/
def sharedInvocation : Invocation where
  disk := .ofEntries [
    ("t.txt", .regular
      "-- file.tmpl --\n\x7b\x7b.Content\x7d\x7d\n-- namespace.tmpl --\nvar \x7b\x7b.Name\x7d\x7d int\n"),
    ("a.go", .regular "//go:build casegen\n\npackage p\n"),
    ("b.go", .regular "//go:build casegen\n\npackage p\n\n//casegen:case 1; \"a\"\nfunc f(n int) \x7b\x7d\n")]

/-- The flags that name the archive. -/
def archiveArguments : List Bytes :=
  ["-strict", "-template", "./t.txt"]

/-- A file that fails once the archive is loaded, one that is written, and one that is
missing. -/
def sharedFiles : List Bytes :=
  ["a.go", "b.go", "missing.go"]

theorem shared_run_comes_to_separate_runs :
    let shared := sharedInvocation.together (fun _ _ => .consecutive) (archiveArguments ++ sharedFiles)
    let separate := separateRuns archiveArguments sharedInvocation sharedFiles
    parseArguments archiveArguments = .ok ({ strict := true, archive := "./t.txt" }, []) ∧
    separate.getLast?.map Report.disk = some (run shared).disk ∧
    (run shared).stdout = separate.flatMap Report.stdout ∧
    (run shared).stderr = separate.flatMap Report.stderr ∧
    ((run shared).exitStatus = 0 ↔ ∀ report ∈ separate, report.exitStatus = 0) := by
  have parsed : parseArguments archiveArguments =
      .ok ({ strict := true, archive := "./t.txt" }, []) := by
    decide +kernel
  have apart : ∀ file ∈ sharedFiles, Path.clean "./t.txt" ≠ Path.clean (outputName file) := by
    decide +kernel
  refine ⟨parsed, run_comes_to_separate_runs sharedInvocation _ parsed ⟨rfl, rfl, rfl⟩ ?_ ?_ ?_ ?_⟩
  · exact cons_ne_nil _ _
  · decide +kernel
  · exact fun _ => .inl fun _ => rfl
  · intro _ member
    obtain ⟨file, among, same⟩ := exists_of_mem_writtenPaths member
    exact apart file among same

end CommandLine
end CaseExpansion
