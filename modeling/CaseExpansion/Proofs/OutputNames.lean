import CaseExpansion.CommandLine.Options
import CaseExpansion.Proofs.Files.Paths
import CaseExpansion.Proofs.Text.Bytes
import Mathlib.Logic.Function.Iterate

namespace CaseExpansion

open List

/-!
# Paths of generated files

The path of a generated file tells from which path it comes.  Two rules make such paths, one
for tests and one for all other files, and they put their mark before endings of different
length.  Their results never meet because the mark of the second rule stands where the results
of the first one end in `test.go`.

`Yields` has one case for each of the rules.  What holds of the path of a generated file is read
off these cases, and `outputName` itself is opened only once.
-/

/-- The ending of the paths that files are generated from. -/
def sourceEnding : Bytes := ".go"

/-- The second path is the one of the file generated from the first. -/
inductive Yields : (path output : Bytes) → Prop where
  | test (stem : Bytes) : Yields (stem ++ testEnding) (stem ++ "_gen_test.go")
  | plain (stem : Bytes) (noTest : ¬testEnding <:+ stem ++ sourceEnding) :
      Yields (stem ++ sourceEnding) (stem ++ "_gen.go")

variable {path other output : Bytes}

theorem yields_outputName (isSource : sourceEnding <:+ path) : Yields path (outputName path) := by
  rw [outputName]
  cases cut : Bytes.cutTail? testEnding path with
  | some stem =>
    rw [Bytes.cutTail?_eq_some_iff.mp cut]
    exact .test stem
  | none =>
    rcases isSource with ⟨stem, rfl⟩
    have dropped : Bytes.dropTail ".go" (stem ++ sourceEnding) = stem := by
      have found : Bytes.cutTail? ".go" (stem ++ sourceEnding) = some stem :=
        Bytes.cutTail?_eq_some_iff.mpr rfl
      rw [Bytes.dropTail, found]
      rfl
    dsimp only
    rw [dropped]
    refine .plain stem ?_
    rintro ⟨rest, whole⟩
    rw [Bytes.cutTail?_eq_some_iff.mpr whole.symm] at cut
    cases cut

namespace Yields

theorem length_eq (yields : Yields path output) : output.length = path.length + 4 := by
  cases yields with
  | test stem =>
    rw [length_append, length_append, Nat.add_assoc]
    rfl
  | plain stem =>
    rw [length_append, length_append, Nat.add_assoc]
    rfl

/-- A generated file can be generated from again. -/
theorem isSource (yields : Yields path output) : sourceEnding <:+ output := by
  cases yields with
  | test stem => exact suffix_append_of_suffix ⟨"_gen_test", by decide +kernel⟩
  | plain stem => exact suffix_append_of_suffix ⟨"_gen", by decide +kernel⟩

theorem isTest_iff (yields : Yields path output) : testEnding <:+ output ↔ testEnding <:+ path := by
  cases yields with
  | test stem =>
    have marked : testEnding <:+ ("_gen_test.go" : Bytes) := ⟨"_gen", by decide +kernel⟩
    exact iff_of_true (suffix_append_of_suffix marked) (suffix_append ..)
  | plain stem noTest =>
    refine iff_of_false ?_ noTest
    rintro ⟨rest, whole⟩
    -- Without its underscore the ending is as long as the mark with what follows it.
    have parted : testEnding = byte '_' :: ("test.go" : Bytes) := by decide +kernel
    rw [parted, append_cons] at whole
    have same : ("test.go" : Bytes) = ("_gen.go" : Bytes) := append_inj_right' whole rfl
    exact absurd same (by decide +kernel)

/-- No two paths yield the same one. -/
theorem path_unique (yields : Yields path output) (otherYields : Yields other output) :
    path = other := by
  have alike : testEnding <:+ path ↔ testEnding <:+ other :=
    yields.isTest_iff.symm.trans otherYields.isTest_iff
  generalize same : output = otherOutput at otherYields
  cases yields with
  | test stem =>
    cases otherYields with
    | test otherStem => rw [append_cancel_right same]
    | plain otherStem noTest => exact absurd (alike.mp (suffix_append ..)) noTest
  | plain stem noTest =>
    cases otherYields with
    | test otherStem => exact absurd (alike.mpr (suffix_append ..)) noTest
    | plain otherStem => rw [append_cancel_right same]

/-- A generated file is put beside the file that it is generated from. -/
theorem directory_eq (yields : Yields path output) : (Path.split output).1 = (Path.split path).1 := by
  cases yields with
  | test stem =>
    rw [Path.split_append_of_notMem (by decide +kernel), Path.split_append_of_notMem (by decide +kernel)]
  | plain stem =>
    rw [Path.split_append_of_notMem (by decide +kernel), Path.split_append_of_notMem (by decide +kernel)]

end Yields

/-! ## Generating from generated files -/

theorem isSource_iterate_outputName (isSource : sourceEnding <:+ path) (count : Nat) :
    sourceEnding <:+ outputName^[count] path := by
  induction count with
  | zero => exact isSource
  | succ count ih =>
    rw [Function.iterate_succ_apply']
    exact (yields_outputName ih).isSource

theorem length_iterate_outputName (isSource : sourceEnding <:+ path) (count : Nat) :
    (outputName^[count] path).length = path.length + 4 * count := by
  induction count with
  | zero => rfl
  | succ count ih =>
    rw [Function.iterate_succ_apply',
      (yields_outputName (isSource_iterate_outputName isSource count)).length_eq, ih]
    omega

/-- Paths that end as source files do yield different paths, which end that way and are longer.
However often files are generated from generated ones, none is put in the place of one before it.
Tests and no other files yield tests, and the directory stays. -/
theorem generated_files_never_clobber (isSource : sourceEnding <:+ path)
    (isOtherSource : sourceEnding <:+ other) :
    (outputName path = outputName other → path = other) ∧
      sourceEnding <:+ outputName path ∧ path.length < (outputName path).length ∧
      (∀ earlier later, earlier < later → outputName^[later] path ≠ outputName^[earlier] path) ∧
      (testEnding <:+ outputName path ↔ testEnding <:+ path) ∧
      (Path.split (outputName path)).1 = (Path.split path).1 := by
  have yields := yields_outputName isSource
  refine ⟨?_, yields.isSource, ?_, ?_, yields.isTest_iff, yields.directory_eq⟩
  · intro same
    exact yields.path_unique (same ▸ yields_outputName isOtherSource)
  · have := yields.length_eq
    omega
  · intro earlier later before same
    have longer := congrArg List.length same
    rw [length_iterate_outputName isSource, length_iterate_outputName isSource] at longer
    omega

theorem bare_test_ending_never_clobbers :
    (sourceEnding <:+ ("d/_test.go" : Bytes) ∧ sourceEnding <:+ ("d/_gen_test.go" : Bytes)) ∧
      outputName "d/_test.go" ≠ outputName "d/_gen_test.go" ∧
      outputName (outputName "d/_test.go") ≠ "d/_test.go" ∧
      testEnding <:+ outputName "d/_test.go" ∧ (Path.split (outputName "d/_test.go")).1 = "d/" := by
  have isSource : sourceEnding <:+ ("d/_test.go" : Bytes) := ⟨"d/_test", by decide +kernel⟩
  have isOtherSource : sourceEnding <:+ ("d/_gen_test.go" : Bytes) := ⟨"d/_gen_test", by decide +kernel⟩
  have isTest : testEnding <:+ ("d/_test.go" : Bytes) := ⟨"d/", by decide +kernel⟩
  rcases generated_files_never_clobber isSource isOtherSource with ⟨inj, _, _, back, test, directory⟩
  refine ⟨⟨isSource, isOtherSource⟩, fun same => ?_, back 0 2 (by decide), test.mpr isTest, ?_⟩
  · exact absurd (inj same) (by decide +kernel)
  · rw [directory]
    decide +kernel

end CaseExpansion
