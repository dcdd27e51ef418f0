import CaseExpansion.Proofs.Generator.Runs

namespace CaseExpansion

open Source

/-!
# Sessions of a generator

A generator may be used for many runs.  Between them its settings may change, and so
may the files on the disk.  What it keeps from one run to the next are patterns, and
the only question is which ones.

The answer does not mention the patterns that the generator holds.  It goes through
the steps of the session and looks for the first run whose archive can be read and
has both patterns in order (`firstReading?`).  From there on these two patterns are
used.  Before that, a run is as good as the first one, whatever half of an archive
earlier runs have read.

Where the data of a run lies in memory is up to the system, and a pattern may show it.  A run
is compared with another one that has its data in the same places, or anywhere if the
pattern shows no addresses.
-/

/-! ## One reading of an archive -/

/-- An archive as a run finds it: the path it is read from, and the disk at that time. -/
structure Reading where
  disk : Disk
  path : Bytes
deriving DecidableEq, Repr

namespace Reading

open Rendering

/-- The file pattern and the namespace pattern of the archive, if it can be read, has
both, and both are well-formed. -/
def patterns? (reading : Reading) : Option (Pattern.Compiled × Pattern.Compiled) := do
  let archive ← (readArchive reading.disk reading.path).toOption
  let fileText ← archive.get? "file.tmpl"
  let spaceText ← archive.get? "namespace.tmpl"
  let file ← (Pattern.compile "file" fileText).toOption
  let space ← (Pattern.compile "namespace" spaceText).toOption
  return (file, space)

/-- The namespace pattern of the archive, if there is one, shows no addresses. -/
def HidesAddresses (reading : Reading) : Prop :=
  ∀ file space, reading.patterns? = some (file, space) → Rendering.HidesAddresses space

theorem entries_toOption (path : Bytes) (archive : Archive) :
    (entries path archive).toOption = (archive.get? "file.tmpl").bind fun file =>
      (archive.get? "namespace.tmpl").map fun space => (file, space) := by
  unfold entries
  cases archive.get? "file.tmpl" with
  | none => rfl
  | some file => cases archive.get? "namespace.tmpl" <;> rfl

/-- The patterns of a reading are made of the two texts that it finds. -/
theorem patterns?_eq (reading : Reading) :
    reading.patterns? = (readArchive reading.disk reading.path >>= entries reading.path).toOption.bind
      fun texts => (Pattern.compile "file" texts.1).toOption.bind fun file =>
        (Pattern.compile "namespace" texts.2).toOption.map fun space => (file, space) := by
  unfold patterns?
  cases readArchive reading.disk reading.path with
  | error error => rfl
  | ok archive =>
    change (archive.get? "file.tmpl").bind (fun fileText =>
        (archive.get? "namespace.tmpl").bind fun spaceText => _) =
      (entries reading.path archive).toOption.bind _
    rw [entries_toOption]
    cases archive.get? "file.tmpl" with
    | none => rfl
    | some file =>
      cases archive.get? "namespace.tmpl" with
      | none => rfl
      | some space =>
        dsimp only [Option.bind_some, Option.map_some]
        cases (Pattern.compile "file" file).toOption with
        | none => rfl
        | some file => cases (Pattern.compile "namespace" space).toOption <;> rfl

end Reading
namespace Rendering.Patterns

/-- Loading gives the patterns of the archive, if those loaded before lack the
namespace pattern.  If the archive does not give both, the namespace pattern is lacking
afterwards as well, and the error is the one that a first run would meet. -/
theorem load_of_space_eq_none {patterns : Patterns} (lacking : patterns.space = none) (disk : Disk)
    (path : Bytes) :
    (∃ file space, Reading.patterns? ⟨disk, path⟩ = some (file, space) ∧
      patterns.load disk path = (⟨some file, some space⟩, none)) ∨
    ∃ error, Reading.patterns? ⟨disk, path⟩ = none ∧ (patterns.load disk path).2 = some error ∧
      (load disk path {}).2 = some error ∧ (patterns.load disk path).1.space = none := by
  have incomplete : ¬patterns.isComplete = true := by
    rw [isComplete, lacking, Option.isSome_none, Bool.and_false]
    exact Bool.false_ne_true
  have nothing : ¬isComplete {} = true := Bool.false_ne_true
  unfold load
  rw [Reading.patterns?_eq, if_neg incomplete, if_neg nothing]
  dsimp only
  cases readArchive disk path >>= entries path with
  | error error => exact .inr ⟨error, rfl, rfl, rfl, lacking⟩
  | ok texts =>
    dsimp only [compile, Except.toOption, Option.bind_some]
    cases Pattern.compile "file" texts.1 with
    | error error => exact .inr ⟨_, rfl, rfl, rfl, lacking⟩
    | ok file =>
      cases Pattern.compile "namespace" texts.2 with
      | error error => exact .inr ⟨_, rfl, rfl, rfl, rfl⟩
      | ok space => exact .inl ⟨file, space, rfl, rfl⟩

/-- Patterns that lack the namespace pattern become those of an archive that has both. -/
theorem load_of_patterns? {patterns : Patterns} (lacking : patterns.space = none) {disk : Disk}
    {path : Bytes} {file space : Pattern.Compiled}
    (given : Reading.patterns? ⟨disk, path⟩ = some (file, space)) :
    patterns.load disk path = (⟨some file, some space⟩, none) := by
  rcases load_of_space_eq_none lacking disk path with ⟨_, _, same, isLoaded⟩ | ⟨_, none, _⟩
  · cases given.symm.trans same
    exact isLoaded
  · cases given.symm.trans none

end Rendering.Patterns

/-! ## Runs of one generator -/

namespace Generator

variable {generator : Generator} {disk : Disk}

/-- A generator with the same settings that has loaded nothing. -/
def fresh (generator : Generator) : Generator :=
  { generator with patterns := {} }

/-- A generator with the same settings that has loaded the two patterns. -/
def holding (generator : Generator) (file space : Pattern.Compiled) : Generator :=
  { generator with patterns := ⟨some file, some space⟩ }

/-- A run on some text fails when the patterns cannot be loaded. -/
theorem generate_of_error {text : Bytes} {error : Rendering.LoadError}
    (someText : Text.isBlankText text = false)
    (failed : (generator.patterns.load disk generator.archive).2 = some error) (filename : Bytes) :
    generator.generate disk filename (.ok text) =
      ({ generator with patterns := (generator.patterns.load disk generator.archive).1 },
        { failure := some (.patterns error) }) := by
  simp only [generate, someText, Bool.false_eq_true, if_false, failed, Option.map_some]

/-- Two generators give the same if they meet the same error while loading, or load the
same patterns and do the same with them. -/
theorem generate_snd_eq (generator other : Generator) (sameFiles : other.files = generator.files)
    (alike : (∃ error, (generator.patterns.load disk generator.archive).2 = some error ∧
        (other.patterns.load disk other.archive).2 = some error) ∨
      ∃ file space, generator.patterns.load disk generator.archive = (⟨some file, some space⟩, none) ∧
        other.patterns.load disk other.archive = (⟨some file, some space⟩, none) ∧
        ∀ files filename source, generator.expandFile files file space filename source =
          other.expandFile files file space filename source)
    (filename : Bytes) (input : Except Bytes Bytes) :
    (generator.generate disk filename input).2 = (other.generate disk filename input).2 := by
  cases input with
  | error reason => rfl
  | ok text =>
    cases someText : Text.isBlankText text with
    | true => simp only [generate, someText, if_true]
    | false =>
      rcases alike with ⟨error, failed, otherFailed⟩ | ⟨file, space, isLoaded, otherLoaded, same⟩
      · rw [generate_of_error someText failed, generate_of_error someText otherFailed]
      · rw [generate_eq someText isLoaded, generate_eq someText otherLoaded]
        simp only [fileSystem, sameFiles, same]

/-- A generator with the patterns of the archive runs like one that has loaded nothing. -/
theorem generate_of_patterns? {file space : Pattern.Compiled}
    (isLoaded : generator.patterns.load disk generator.archive = (⟨some file, some space⟩, none))
    (given : Reading.patterns? ⟨disk, generator.archive⟩ = some (file, space)) (filename : Bytes)
    (input : Except Bytes Bytes) :
    (generator.generate disk filename input).2 = (generator.fresh.generate disk filename input).2 :=
  generate_snd_eq generator generator.fresh rfl
    (.inr ⟨file, space, isLoaded, Rendering.Patterns.load_of_patterns? rfl given, fun _ _ _ => rfl⟩)
    filename input

/-- So does a generator that lacks the namespace pattern. -/
theorem generate_of_space_eq_none (lacking : generator.patterns.space = none) (filename : Bytes)
    (input : Except Bytes Bytes) :
    (generator.generate disk filename input).2 = (generator.fresh.generate disk filename input).2 := by
  rcases Rendering.Patterns.load_of_space_eq_none lacking disk generator.archive with
    ⟨file, space, given, isLoaded⟩ | ⟨error, none, failed, freshFailed, _⟩
  · exact generate_of_patterns? isLoaded given filename input
  · exact generate_snd_eq generator generator.fresh rfl (.inl ⟨error, failed, freshFailed⟩)
      filename input

/-- The generator when the system has the data of its next run elsewhere. -/
def within (generator : Generator) (memory : Nat → Rendering.Memory) : Generator :=
  { generator with memory }

/-- Where data lies plays no part, unless the namespace pattern shows it. -/
theorem generate_within {memory : Nat → Rendering.Memory}
    (unseen : ∀ file space,
      generator.patterns.load disk generator.archive = (⟨some file, some space⟩, none) →
        memory = generator.memory ∨ Rendering.HidesAddresses space)
    (filename : Bytes) (input : Except Bytes Bytes) :
    (generator.generate disk filename input).2 =
      ((generator.within memory).generate disk filename input).2 := by
  refine generate_snd_eq generator (generator.within memory) rfl ?_ filename input
  rcases isLoaded : generator.patterns.load disk generator.archive with ⟨patterns, problem⟩
  cases problem with
  | some error => exact .inl ⟨error, rfl, congrArg Prod.snd isLoaded⟩
  | none =>
    rcases Rendering.Patterns.load_isComplete isLoaded with ⟨file, space, rfl⟩
    refine .inr ⟨file, space, rfl, isLoaded, fun files filename source => ?_⟩
    have same : ∀ found, renderExpansions source memory space found =
        renderExpansions source generator.memory space found := by
      intro found
      rcases unseen file space isLoaded with rfl | hides
      · rfl
      · exact renderExpansions_of_hidesAddresses hides _ _ found
    simp only [expandFile, within, same]
    rfl

theorem fresh_generate_within {memory : Nat → Rendering.Memory}
    (unseen : memory = generator.memory ∨ Reading.HidesAddresses ⟨disk, generator.archive⟩)
    (filename : Bytes) (input : Except Bytes Bytes) :
    (generator.fresh.generate disk filename input).2 =
      ((generator.fresh.within memory).generate disk filename input).2 := by
  refine generate_within ?_ filename input
  intro file space isLoaded
  refine unseen.imp_right fun hides => ?_
  rcases Rendering.Patterns.load_of_space_eq_none
    (show generator.fresh.patterns.space = none from rfl) disk generator.archive with
    ⟨_, _, given, also⟩ | ⟨_, _, failed, _⟩
  · cases also.symm.trans isLoaded
    exact hides _ _ given
  · cases failed.symm.trans (congrArg Prod.snd isLoaded)

theorem holding_within (generator : Generator) (file space : Pattern.Compiled) :
    (generator.holding file space).within generator.memory = generator.holding file space :=
  rfl

/-- Whether a run on an input gets so far as to look for patterns. -/
def looksForPatterns : Except Bytes Bytes → Bool
  | .error _ => false
  | .ok text => !Text.isBlankText text

theorem generate_fst_of_looksForPatterns {input : Except Bytes Bytes}
    (looks : looksForPatterns input = true) (filename : Bytes) :
    (generator.generate disk filename input).1 =
      { generator with patterns := (generator.patterns.load disk generator.archive).1 } := by
  cases input with
  | error reason => cases looks
  | ok text =>
    have someText : Text.isBlankText text = false := by
      rwa [looksForPatterns, Bool.not_eq_true'] at looks
    cases problem : (generator.patterns.load disk generator.archive).2 with
    | some error => rw [generate_of_error someText problem]
    | none =>
      have isLoaded : generator.patterns.load disk generator.archive =
          ((generator.patterns.load disk generator.archive).1, none) := by rw [← problem]
      rcases Rendering.Patterns.load_isComplete isLoaded with ⟨file, space, both⟩
      rw [both] at isLoaded
      rw [generate_eq someText isLoaded, isLoaded]

theorem generate_fst_of_not_looksForPatterns {input : Except Bytes Bytes}
    (looks : looksForPatterns input = false) (filename : Bytes) :
    (generator.generate disk filename input).1 = generator := by
  cases input with
  | error reason => rfl
  | ok text =>
    have blank : Text.isBlankText text = true := by
      rwa [looksForPatterns, Bool.not_eq_false'] at looks
    simp only [generate, blank, if_true]

theorem expandFile_failure_ne_patterns (generator : Generator) (files : FileSystem)
    (filePattern spacePattern : Pattern.Compiled) (filename : Bytes) (source : ParsedFile)
    (error : Rendering.LoadError) :
    (generator.expandFile files filePattern spacePattern filename source).failure ≠
      some (.patterns error) := by
  unfold expandFile
  dsimp only
  split
  · simp
  · split
    · split
      · simp
      · unfold finish
        split <;> simp
    · simp

/-- A run that reports an error of the archive has met it while loading. -/
theorem load_of_failure {filename : Bytes} {input : Except Bytes Bytes} {error : Rendering.LoadError}
    (failed : (generator.generate disk filename input).2.failure = some (.patterns error)) :
    looksForPatterns input = true ∧
      (generator.patterns.load disk generator.archive).2 = some error := by
  cases input with
  | error reason => cases failed
  | ok text =>
    cases someText : Text.isBlankText text with
    | true =>
      simp only [generate, someText, if_true] at failed
      cases failed
    | false =>
      refine ⟨by rw [looksForPatterns, someText]; rfl, ?_⟩
      rcases isLoaded : generator.patterns.load disk generator.archive with ⟨patterns, problem⟩
      cases problem with
      | some other =>
        rw [generate_of_error someText (congrArg Prod.snd isLoaded)] at failed
        cases failed
        rfl
      | none =>
        rcases Rendering.Patterns.load_isComplete isLoaded with ⟨file, space, rfl⟩
        rw [generate_eq someText isLoaded] at failed
        cases parsed : parseFile filename text with
        | error diagnostics =>
          rw [parsed] at failed
          cases failed
        | ok source =>
          rw [parsed] at failed
          exact absurd failed (expandFile_failure_ne_patterns _ _ _ _ _ _ _)

end Generator

/-- A generator, and the disk that it works on. -/
structure Session where
  generator : Generator
  disk : Disk

namespace Session

/-- What can happen in a session. -/
inductive Step where
  | generate (filename : Bytes) (input : Except Bytes Bytes)
  | setTag (tag : Bytes)
  | setStrict (strict : Bool)
  | setArchive (archive : Bytes)
  | setFiles (files : Option FileTree)
  /-- The system has the data of later runs elsewhere. -/
  | setMemory (memory : Nat → Rendering.Memory)
  /-- The files on the disk change. -/
  | setDisk (disk : Disk)

/-- The session after a step. -/
def step (session : Session) : Step → Session
  | .generate filename input =>
    { session with generator := (session.generator.generate session.disk filename input).1 }
  | .setTag tag => { session with generator := { session.generator with tag } }
  | .setStrict strict => { session with generator := { session.generator with strict } }
  | .setArchive archive => { session with generator := { session.generator with archive } }
  | .setFiles files => { session with generator := { session.generator with files } }
  | .setMemory memory => { session with generator := session.generator.within memory }
  | .setDisk disk => { session with disk }

/-- The session after some steps. -/
def after (session : Session) (steps : List Step) : Session :=
  steps.foldl step session

/-- The archive that a run would read next. -/
def reading (session : Session) : Reading :=
  ⟨session.disk, session.generator.archive⟩

/-- Whether a step looks for patterns. -/
def Step.looksForPatterns : Step → Bool
  | .generate _ input => Generator.looksForPatterns input
  | _ => false

/-- The first reading of an archive, in a session of the given steps, that gives both
patterns. -/
def firstReading? (session : Session) : List Step → Option Reading
  | [] => none
  | step :: steps =>
    if step.looksForPatterns && session.reading.patterns?.isSome then some session.reading
    else (session.step step).firstReading? steps

/-- The reading whose patterns the run after the given steps renders with. -/
def readingInUse (session : Session) (steps : List Step) : Reading :=
  (session.firstReading? steps).getD (session.after steps).reading

/-- What a generator has loaded after the given patterns were found, if any were: just
these, or no namespace pattern. -/
def Keeps (found : Option (Pattern.Compiled × Pattern.Compiled))
    (patterns : Rendering.Patterns) : Prop :=
  match found with
  | none => patterns.space = none
  | some (file, space) => patterns = ⟨some file, some space⟩

variable {session : Session}

/-- Only runs have an effect on the patterns. -/
theorem step_patterns_of_not_looksForPatterns {step : Step} (looks : step.looksForPatterns = false) :
    (session.step step).generator.patterns = session.generator.patterns := by
  cases step with
  | generate filename input =>
    exact congrArg Generator.patterns (Generator.generate_fst_of_not_looksForPatterns looks filename)
  | setTag | setStrict | setArchive | setFiles | setMemory | setDisk => rfl

theorem step_patterns_of_looksForPatterns {step : Step} (looks : step.looksForPatterns = true) :
    (session.step step).generator.patterns =
      (session.generator.patterns.load session.disk session.generator.archive).1 := by
  cases step with
  | generate filename input =>
    exact congrArg Generator.patterns (Generator.generate_fst_of_looksForPatterns looks filename)
  | setTag | setStrict | setArchive | setFiles | setMemory | setDisk => cases looks

/-- No step changes patterns that are both loaded. -/
theorem step_keeps {file space : Pattern.Compiled}
    (holds : session.generator.patterns = ⟨some file, some space⟩) (step : Step) :
    (session.step step).generator.patterns = ⟨some file, some space⟩ := by
  cases looks : step.looksForPatterns with
  | false => rw [step_patterns_of_not_looksForPatterns looks, holds]
  | true =>
    rw [step_patterns_of_looksForPatterns looks, holds]
    rfl

theorem after_keeps {file space : Pattern.Compiled}
    (holds : session.generator.patterns = ⟨some file, some space⟩) (steps : List Step) :
    (session.after steps).generator.patterns = ⟨some file, some space⟩ := by
  induction steps generalizing session with
  | nil => exact holds
  | cons step steps ih => exact ih (step_keeps holds step)

/-- A generator without a namespace pattern finds both patterns in one reading, or it
has no namespace pattern afterwards. -/
theorem step_of_space_eq_none (lacking : session.generator.patterns.space = none) (step : Step) :
    Keeps (if step.looksForPatterns then session.reading.patterns? else none)
      (session.step step).generator.patterns := by
  cases looks : step.looksForPatterns with
  | false =>
    rw [step_patterns_of_not_looksForPatterns looks]
    exact lacking
  | true =>
    rw [step_patterns_of_looksForPatterns looks, if_pos rfl]
    rcases Rendering.Patterns.load_of_space_eq_none lacking session.disk
      session.generator.archive with
      ⟨file, space, given, isLoaded⟩ | ⟨_, none, _, _, stillLacking⟩
    · rw [reading, given, isLoaded]
      rfl
    · rw [reading, none]
      exact stillLacking

/-- After some steps a generator holds what the first good reading has given. -/
theorem after_of_space_eq_none (lacking : session.generator.patterns.space = none) (steps : List Step) :
    Keeps ((session.firstReading? steps).bind Reading.patterns?)
      (session.after steps).generator.patterns := by
  induction steps generalizing session with
  | nil => exact lacking
  | cons step steps ih =>
    have once := step_of_space_eq_none lacking step
    rw [firstReading?]
    split
    next good =>
      rw [Bool.and_eq_true] at good
      rcases Option.isSome_iff_exists.mp good.2 with ⟨⟨file, space⟩, given⟩
      rw [if_pos good.1, given] at once
      rw [Option.bind_some, given]
      exact after_keeps once steps
    next bad =>
      rw [Bool.and_eq_true, not_and, Option.not_isSome_iff_eq_none] at bad
      refine ih ?_
      split at once
      next looks =>
        rw [bad looks] at once
        exact once
      next => exact once

/-- The first good reading gives patterns. -/
theorem patterns?_of_firstReading? {steps : List Step} {reading : Reading}
    (first : session.firstReading? steps = some reading) :
    ∃ file space, reading.patterns? = some (file, space) := by
  induction steps generalizing session with
  | nil => cases first
  | cons step steps ih =>
    rw [firstReading?] at first
    split at first
    next good =>
      cases first
      rw [Bool.and_eq_true] at good
      rcases Option.isSome_iff_exists.mp good.2 with ⟨⟨file, space⟩, given⟩
      exact ⟨file, space, given⟩
    next => exact ih first

/-- What a run gives after some steps depends on the settings, the disk and the first
good reading, and on where its data lies if this is shown. -/
theorem generate_after (fresh : session.generator.patterns = {}) (steps : List Step)
    {memory : Nat → Rendering.Memory}
    (unseen : memory = (session.after steps).generator.memory ∨
      (session.readingInUse steps).HidesAddresses)
    (filename : Bytes) (input : Except Bytes Bytes) :
    ((session.after steps).generator.generate (session.after steps).disk filename input).2 =
      (((match (session.firstReading? steps).bind Reading.patterns? with
        | none => (session.after steps).generator.fresh
        | some (file, space) => (session.after steps).generator.holding file space).within
          memory).generate (session.after steps).disk filename input).2 := by
  have keeps := after_of_space_eq_none (by rw [fresh]) steps
  unfold readingInUse at unseen
  cases first : session.firstReading? steps with
  | none =>
    rw [first] at keeps unseen
    exact (Generator.generate_of_space_eq_none keeps filename input).trans
      (Generator.fresh_generate_within unseen filename input)
  | some reading =>
    rcases patterns?_of_firstReading? first with ⟨file, space, given⟩
    rw [first, Option.bind_some, given] at keeps
    rw [first] at unseen
    rw [Option.bind_some, given]
    have isHolding : (session.after steps).generator.holding file space =
        (session.after steps).generator := by
      rw [Generator.holding, ← keeps]
    dsimp only
    rw [isHolding]
    refine Generator.generate_within (fun _ _ isLoaded => ?_) filename input
    rw [keeps] at isLoaded
    cases isLoaded
    exact unseen.imp_right fun hides => hides _ _ given

/-- After a run that could not load patterns, none has been loaded. -/
theorem space_eq_none_of_failure (fresh : session.generator.patterns = {}) (steps : List Step)
    {filename : Bytes} {input : Except Bytes Bytes} {error : Rendering.LoadError}
    (failed : ((session.after steps).generator.generate (session.after steps).disk filename
      input).2.failure = some (.patterns error)) :
    ((session.after steps).step (.generate filename input)).generator.patterns.space = none := by
  have keeps := after_of_space_eq_none (by rw [fresh]) steps
  rcases Generator.load_of_failure failed with ⟨looks, problem⟩
  cases given : (session.firstReading? steps).bind Reading.patterns? with
  | some found =>
    rw [given] at keeps
    rw [keeps] at problem
    cases problem
  | none =>
    rw [given] at keeps
    have once := step_of_space_eq_none keeps (.generate filename input)
    rcases Rendering.Patterns.load_of_space_eq_none keeps (session.after steps).disk
      (session.after steps).generator.archive with
      ⟨file, space, _, isLoaded⟩ | ⟨_, none, _⟩
    · rw [isLoaded] at problem
      cases problem
    · rw [if_pos (show Step.looksForPatterns (.generate filename input) = true from looks), reading,
        none] at once
      exact once

/-- A session does not leak state from one run to another.  Let a generator start with
nothing loaded and go through any steps.  If it holds both patterns then, they come from
one reading of one archive, the first good one, and no further step changes them.  The
next run gives what a generator with the same settings would give that has loaded
nothing, or that has loaded the patterns of the first good reading if there was one.  Both
have their data in the same places, or anywhere if the namespace pattern in use does not show
where.  After a run that could not load patterns, the next one is as good as the first. -/
theorem session_leaks_no_state (start : Session) (fresh : start.generator.patterns = {})
    (steps : List Step) :
    (∀ file space, (start.after steps).generator.patterns = ⟨some file, some space⟩ →
      (∃ reading, start.firstReading? steps = some reading ∧ reading.patterns? = some (file, space)) ∧
      ∀ later, ((start.after steps).after later).generator.patterns = ⟨some file, some space⟩) ∧
    (∀ filename input memory,
      memory = (start.after steps).generator.memory ∨ (start.readingInUse steps).HidesAddresses →
      ((start.after steps).generator.generate (start.after steps).disk filename input).2 =
        (((match (start.firstReading? steps).bind Reading.patterns? with
          | none => (start.after steps).generator.fresh
          | some (file, space) => (start.after steps).generator.holding file space).within
            memory).generate (start.after steps).disk filename input).2) ∧
    ∀ filename input error,
      ((start.after steps).generator.generate (start.after steps).disk filename input).2.failure =
          some (.patterns error) →
        ∀ disk otherName otherInput,
          (((start.after steps).step (.generate filename input)).generator.generate
              disk otherName otherInput).2 =
            (((start.after steps).step (.generate filename input)).generator.fresh.generate
              disk otherName otherInput).2 := by
  refine ⟨?_, fun filename input memory unseen => generate_after fresh steps unseen _ _, ?_⟩
  · intro file space holds
    refine ⟨?_, after_keeps holds⟩
    have keeps := after_of_space_eq_none (by rw [fresh]) steps
    cases first : start.firstReading? steps with
    | none =>
      rw [first, Option.bind_none] at keeps
      rw [Keeps, holds] at keeps
      cases keeps
    | some reading =>
      rcases patterns?_of_firstReading? first with ⟨otherFile, otherSpace, given⟩
      rw [first, Option.bind_some, given] at keeps
      cases holds.symm.trans keeps
      exact ⟨reading, rfl, given⟩
  · intro filename input error failed disk otherName otherInput
    exact Generator.generate_of_space_eq_none (space_eq_none_of_failure fresh steps failed) _ _

/-- A disk with an archive whose namespace pattern has the given text. -/
def archiveDisk (namespaceText : Bytes) : Disk :=
  .ofEntries [("t", .regular ("-- file.tmpl --\n\x7b\x7b.Content\x7d\x7d\n-- namespace.tmpl --\n" ++
    namespaceText))]

/-- A session that starts with an archive of which only the first pattern can be read. -/
def mendedSession : Session :=
  ⟨{ archive := "t" }, archiveDisk "\x7b\x7b.Name"⟩

/-- A run fails, the archive is mended, a run succeeds in loading it, and then another
archive is asked for that is not there. -/
def mendingSteps : List Step :=
  [.generate "x.go" (.ok "package p\n"), .setDisk (archiveDisk "\x7b\x7b.Name\x7d\x7d"),
    .generate "x.go" (.ok "package p\n"), .setArchive "u", .setDisk {}]

theorem mended_session_leaks_no_state :
    mendedSession.generator.patterns = {} ∧
    mendedSession.firstReading? mendingSteps = some ⟨archiveDisk "\x7b\x7b.Name\x7d\x7d", "t"⟩ ∧
    ∃ file space, Reading.patterns? ⟨archiveDisk "\x7b\x7b.Name\x7d\x7d", "t"⟩ = some (file, space) ∧
      ∀ filename input,
        ((mendedSession.after mendingSteps).generator.generate
            (mendedSession.after mendingSteps).disk filename input).2 =
          (((mendedSession.after mendingSteps).generator.holding file space).generate
            (mendedSession.after mendingSteps).disk filename input).2 := by
  have first : mendedSession.firstReading? mendingSteps =
      some ⟨archiveDisk "\x7b\x7b.Name\x7d\x7d", "t"⟩ := by decide +kernel
  rcases patterns?_of_firstReading? first with ⟨file, space, given⟩
  refine ⟨rfl, first, file, space, given, fun filename input => ?_⟩
  have runs := (session_leaks_no_state mendedSession rfl mendingSteps).2.1 filename input _ (.inl rfl)
  rw [first, Option.bind_some, given] at runs
  dsimp only at runs
  rwa [Generator.holding_within] at runs

end Session
end CaseExpansion
