import CaseExpansion.Files.Disk
import CaseExpansion.Proofs.Selection
import CaseExpansion.Proofs.Sorting

namespace CaseExpansion

/-!
# Directories are listed by name

A file system is nothing but two operations, and nothing about them is taken for granted.
That a listing comes in the order of the names is a property of its own (`ListsByName`).
Both file systems that a generator may read from have it.
-/

theorem Bytes.compare_isLE_iff (left right : Bytes) :
    (compare left right).isLE = true ↔ left.map UInt8.toNat ≤ right.map UInt8.toNat := by
  rcases compare_cases left right with ⟨found, less⟩ | ⟨found, same⟩ | ⟨found, greater⟩
  · simp [found, less.le]
  · rw [found, same]
    simp
  · simp [found, greater.not_ge]

/-- Every directory that can be listed is listed in the order of the names in it. -/
def FileSystem.ListsByName (files : FileSystem) : Prop :=
  ∀ path entries, files.list path = .ok entries →
    entries.Pairwise fun earlier later => (Bytes.compare earlier.name later.name).isLE = true

theorem FileTree.children_pairwise (tree : FileTree) (directory : Bytes) :
    (tree.children directory).Pairwise fun earlier later =>
      (Bytes.compare earlier.name later.name).isLE = true := by
  unfold children
  apply List.pairwise_mergeSort
  · intro first second third
    simp only [Bytes.compare_isLE_iff]
    exact le_trans
  · intro first second
    rw [Bool.or_eq_true, Bytes.compare_isLE_iff, Bytes.compare_isLE_iff]
    exact le_total _ _

theorem FileTree.virtual_listsByName (tree : FileTree) : tree.virtual.ListsByName := by
  intro path entries listed
  rcases bound_eq_ok_iff.mp listed with ⟨found?, _, listed⟩
  cases found? with
  | some entry => cases listed
  | none =>
    cases listed
    exact tree.children_pairwise path

theorem Disk.list_pairwise {disk : Disk} {path : Bytes} {entries : List DirectoryEntry}
    (listed : disk.list path = .ok entries) :
    entries.Pairwise fun earlier later => (Bytes.compare earlier.name later.name).isLE = true := by
  unfold list at listed
  split at listed
  next => cases listed
  next =>
    cases listed
    exact FileTree.children_pairwise _ _
  next => cases listed

theorem Disk.rooted_listsByName (disk : Disk) (root : Bytes) : (disk.rooted root).ListsByName := by
  intro path entries listed
  unfold rooted at listed
  dsimp only at listed
  split at listed
  next => cases listed
  next =>
    cases found : disk.list (if Bytes.endsWith [Path.slash] root then root ++ path
        else root ++ Path.slash :: path) with
    | error failure =>
      rw [found] at listed
      cases listed
    | ok others =>
      rw [found] at listed
      cases listed
      exact list_pairwise found

end CaseExpansion
