import CaseExpansion.Files.Disk
import CaseExpansion.Proofs.Files.Paths
import CaseExpansion.Proofs.Selection

namespace CaseExpansion

open List

/-!
# Writing to the disk

Writing a file changes one entry at most.  When all goes well, the path leads to the new
contents afterwards, or to a special file that has taken them.  When it does not, nothing
has changed unless the file had been opened already.

No directory is lost, so that what could be reached before can be reached afterwards.  In
particular the directory of a written path is there, also under the clean name that
`Path.directory` gives it.
-/

namespace Disk

variable {disk after : Disk} {rooted : Bool}

/-! ## One entry -/

theorem get?_put (disk : Disk) (path other : Bytes) (entry : FileEntry) :
    (disk.put path entry).tree.get? other = if other = path then some
    entry else disk.tree.get? other := by
  unfold put FileTree.get?
  by_cases present : disk.tree.entries.any fun stored => stored.1 == path
  · rw [if_pos present]
    dsimp only
    -- Replacing an entry keeps its path, so that the same entry is found.
    have sameKey : ((fun stored : Bytes × FileEntry => stored.1 == other) ∘
        fun stored => if stored.1 == path then (path, entry) else stored) =
          fun stored => stored.1 == other := by
      funext stored
      by_cases isPath : stored.1 = path <;> simp [isPath]
    rw [find?_map, sameKey, Option.map_map]
    cases found : disk.tree.entries.find? fun stored => stored.1 == other with
    | none =>
      have different : other ≠ path := by
        rintro rfl
        rw [find?_eq_none] at found
        obtain ⟨stored, member, isPath⟩ := any_eq_true.1 present
        exact found stored member isPath
      rw [if_neg different]
      rfl
    | some stored =>
      have key : stored.1 = other := by simpa using find?_some found
      by_cases isPath : other = path <;> simp [key, isPath]
  · rw [if_neg present]
    dsimp only
    rw [find?_append]
    by_cases isPath : other = path
    · have none : disk.tree.entries.find? (fun stored => stored.1 == other) = none := by
        rw [find?_eq_none]
        intro stored member same
        exact present (any_eq_true.2 ⟨stored, member, isPath ▸ same⟩)
      rw [none, if_pos isPath]
      simp [isPath]
    · have other : (path == other) = false := beq_false_of_ne (Ne.symm isPath)
      rw [if_neg isPath]
      simp [other]

variable {path clean : Bytes} {entry : FileEntry} {last reached elements before : List Bytes}

/-- Entries stay below a directory when one of them is replaced or added. -/
theorem any_put (test : Bytes → Bool) (some : disk.tree.entries.any fun stored => test stored.1) :
    (disk.put path entry).tree.entries.any fun stored => test stored.1 := by
  obtain ⟨stored, member, holds⟩ := any_eq_true.1 some
  unfold put
  apply any_eq_true.2
  split
  · by_cases isPath : stored.1 = path
    · exact ⟨(path, entry), mem_map.2 ⟨stored, member, by simp [isPath]⟩, isPath ▸ holds⟩
    · exact ⟨stored, mem_map.2 ⟨stored, member, by simp [isPath]⟩, holds⟩
  · exact ⟨stored, mem_append_left _ member, holds⟩

/-! ## Directories stay -/

/-- Every directory of a disk is one of another disk. -/
def Keeps (disk after : Disk) : Prop :=
  ∀ path, disk.tree.isDirectory path = true → after.tree.isDirectory path = true

theorem Keeps.refl (disk : Disk) : disk.Keeps disk :=
  fun _ isDirectory => isDirectory

theorem Keeps.trans {last : Disk} (first : disk.Keeps after) (second : after.Keeps last) :
    disk.Keeps last :=
  fun path isDirectory => second path (first path isDirectory)

theorem keeps_put (file : disk.tree.isDirectory path = false) (entry : FileEntry) :
    disk.Keeps (disk.put path entry) := by
  intro other isDirectory
  have different : other ≠ path := by
    rintro rfl
    rw [file] at isDirectory
    cases isDirectory
  rw [FileTree.isDirectory] at isDirectory ⊢
  rw [get?_put, if_neg different]
  cases found : disk.tree.get? other with
  | some stored =>
    rw [found] at isDirectory
    cases stored with
    | directory => rfl
    | _ => cases isDirectory
  | none =>
    rw [found] at isDirectory
    dsimp only at isDirectory ⊢
    rw [Bool.or_eq_true] at isDirectory ⊢
    exact isDirectory.imp_right (any_put fun stored => (FileTree.below? other stored).isSome)

theorem Keeps.isDirectoryAt (keeps : disk.Keeps after)
    (isDirectory : disk.isDirectoryAt rooted reached = true) :
    after.isDirectoryAt rooted reached = true := by
  rw [Disk.isDirectoryAt, Bool.or_eq_true] at isDirectory ⊢
  exact isDirectory.imp_right (keeps _)

/-! ## Following a path -/

theorem enter_of_isDirectoryAt (isDirectory : disk.isDirectoryAt rooted reached = true)
    (element : Bytes) :
    disk.enter rooted reached element = .ok (Path.addElement rooted reached element) :=
  if_pos isDirectory

theorem follows_cons_iff {element : Bytes} :
    (element :: elements).foldlM (disk.enter rooted) reached = .ok last ↔
      disk.isDirectoryAt rooted reached = true ∧
        elements.foldlM (disk.enter rooted) (Path.addElement rooted reached element) = .ok last := by
  rw [foldlM_cons]
  by_cases isDirectory : disk.isDirectoryAt rooted reached = true
  · rw [enter_of_isDirectoryAt isDirectory]
    exact ⟨fun follows => ⟨isDirectory, follows⟩, And.right⟩
  · have refused : ∃ reason, disk.enter rooted reached element = .error reason := by
      unfold enter
      rw [if_neg isDirectory]
      split <;> exact ⟨_, rfl⟩
    obtain ⟨reason, refused⟩ := refused
    rw [refused]
    constructor
    · intro follows
      cases follows
    · intro follows
      exact absurd follows.1 isDirectory

theorem Keeps.follows (keeps : disk.Keeps after)
    (follows : elements.foldlM (disk.enter rooted) reached = .ok last) :
    elements.foldlM (after.enter rooted) reached = .ok last := by
  induction elements generalizing reached with
  | nil => exact follows
  | cons element elements ih =>
    rw [follows_cons_iff] at follows ⊢
    exact ⟨keeps.isDirectoryAt follows.1, ih follows.2⟩

theorem follows_eq (follows : elements.foldlM (disk.enter rooted) reached = .ok last) :
    last = elements.foldl (Path.addElement rooted) reached := by
  induction elements generalizing reached with
  | nil =>
    cases follows
    rfl
  | cons element elements ih => exact ih (follows_cons_iff.1 follows).2

theorem walk_eq_ok_iff : disk.walk path = .ok reached ↔
      0 ∉ path ∧ path ≠ [] ∧
        (Bytes.splitOn Path.slash path).foldlM (disk.enter (Path.isAbsolute path)) [] = .ok reached := by
  unfold walk
  by_cases zero : 0 ∈ path
  · simp [zero]
  · by_cases empty : path = []
    · simp [empty]
    · simp [zero, empty]

theorem Keeps.walk (keeps : disk.Keeps after) (follows : disk.walk path = .ok reached) :
    after.walk path = .ok reached := by
  rw [walk_eq_ok_iff] at follows ⊢
  exact ⟨follows.1, follows.2.1, keeps.follows follows.2.2⟩

theorem resolve_eq_ok_iff {node : DiskNode} : disk.resolve path = .ok (clean, node) ↔
      ∃ reached, disk.walk path = .ok reached ∧ clean = pathOf (Path.isAbsolute path) reached ∧
        disk.node? (Path.isAbsolute path) reached = some node := by
  refine bound_eq_ok_iff.trans (exists_congr fun reached => and_congr_right fun _ => ?_)
  cases disk.node? (Path.isAbsolute path) reached <;> simp [eq_comm]

theorem node?_eq_directory_iff :
    disk.node? rooted reached = some .directory ↔ disk.isDirectoryAt rooted reached = true := by
  unfold node?
  split
  · rename_i isDirectory
    exact iff_of_true rfl isDirectory
  · rename_i file
    apply iff_of_false
    · cases disk.tree.get? (pathOf rooted reached) <;> simp
    · exact file

theorem Keeps.resolve (keeps : disk.Keeps after)
    (resolved : disk.resolve path = .ok (clean, .directory)) :
    after.resolve path = .ok (clean, .directory) := by
  rw [resolve_eq_ok_iff] at resolved ⊢
  obtain ⟨reached, follows, isClean, found⟩ := resolved
  refine ⟨reached, keeps.walk follows, isClean, ?_⟩
  rw [node?_eq_directory_iff] at found ⊢
  exact keeps.isDirectoryAt found

/-! ## The directory of a path -/

/-- Whether elements can be entered one after the other: all that something follows
lead to directories. -/
def IsOpen (disk : Disk) (rooted : Bool) : List Bytes → Prop
  | [] => True
  | _ :: before => disk.isDirectoryAt rooted before = true ∧ IsOpen disk rooted before

theorem IsOpen.addElement (isOpen : disk.IsOpen rooted before)
    (isDirectory : disk.isDirectoryAt rooted before = true) (element : Bytes) :
    disk.IsOpen rooted (Path.addElement rooted before element) := by
  rcases Path.addElement_cases rooted before element with same | fewer | ⟨_, added⟩
  · rwa [same]
  · rw [fewer]
    cases before with
    | nil => trivial
    | cons last before => exact isOpen.2
  · rw [added]
    exact ⟨isDirectory, isOpen⟩

theorem IsOpen.follows (isOpen : disk.IsOpen rooted reached)
    (follows : elements.foldlM (disk.enter rooted) reached = .ok last) : disk.IsOpen rooted last := by
  induction elements generalizing reached with
  | nil =>
    cases follows
    exact isOpen
  | cons element elements ih =>
    obtain ⟨isDirectory, follows⟩ := follows_cons_iff.1 follows
    exact ih (isOpen.addElement isDirectory element) follows

/-- Elements in their cleaned form are followed to themselves. -/
theorem follows_reverse (canonical : Path.Canonical rooted reached)
    (isOpen : disk.IsOpen rooted reached) :
    reached.reverse.foldlM (disk.enter rooted) [] = .ok reached := by
  induction reached with
  | nil => rfl
  | cons element before ih =>
    rw [reverse_cons, foldlM_append, ih canonical.2.2.2 isOpen.2]
    have once : [element].foldlM (disk.enter rooted) before = .ok (element :: before) :=
      follows_cons_iff.2 ⟨isOpen.1, congrArg Except.ok canonical.2.2.1⟩
    exact once

/-- A relative path of elements starts as its first element does. -/
theorem head?_pathOf (canonical : Path.Canonical false reached) :
    ∃ code, (pathOf false reached).head? = some code ∧ code ≠ Path.slash := by
  cases reached with
  | nil => exact ⟨byte '.', rfl, by decide⟩
  | cons element before =>
    obtain ⟨first, rest, order⟩ := exists_cons_of_ne_nil
      (show (element :: before).reverse ≠ [] by simp)
    have member : first ∈ element :: before := by
      apply mem_reverse.1
      rw [order]
      exact mem_cons_self
    obtain ⟨nonempty, absent⟩ := canonical.of_mem member
    obtain ⟨code, codes, rfl⟩ := exists_cons_of_ne_nil nonempty
    refine ⟨code, ?_, ?_⟩
    · change (Bytes.joinWith [Path.slash] (element :: before).reverse).head? = _
      rw [order, Bytes.head?_joinWith nonempty]
      rfl
    · rintro rfl
      exact absent mem_cons_self

theorem isAbsolute_pathOf (canonical : Path.Canonical rooted reached) :
    Path.isAbsolute (pathOf rooted reached) = rooted := by
  cases rooted with
  | true => rfl
  | false =>
    obtain ⟨code, head, different⟩ := head?_pathOf canonical
    rw [Path.isAbsolute, head]
    simpa using different

theorem pathOf_ne_nil (canonical : Path.Canonical rooted reached) : pathOf rooted reached ≠ [] := by
  cases rooted with
  | true => exact cons_ne_nil _ _
  | false =>
    obtain ⟨code, head, _⟩ := head?_pathOf canonical
    intro empty
    rw [empty] at head
    cases head

/-- The path of elements in their cleaned form leads to these elements. -/
theorem walk_pathOf (canonical : Path.Canonical rooted reached) (isOpen : disk.IsOpen rooted reached)
    (sound : ∀ element ∈ reached, 0 ∉ element) : disk.walk (pathOf rooted reached) = .ok reached := by
  have follows := follows_reverse canonical isOpen
  have start : disk.isDirectoryAt rooted [] = true := rfl
  have joined : 0 ∉ Bytes.joinWith [Path.slash] reached.reverse := by
    intro member
    rcases Bytes.mem_joinWith member with isSlash | ⟨element, among, within⟩
    · cases isSlash
    · exact sound element (mem_reverse.1 among) within
  have apart : ∀ element ∈ reached.reverse, Path.slash ∉ element := by
    intro element member
    exact (canonical.of_mem (mem_reverse.1 member)).2
  have nonempty := pathOf_ne_nil canonical
  rw [walk_eq_ok_iff, isAbsolute_pathOf canonical]
  cases rooted with
  | true =>
    refine ⟨?_, nonempty, ?_⟩
    · intro member
      rcases mem_cons.1 member with isSlash | member
      · cases isSlash
      · exact joined member
    · have parts : Bytes.splitOn Path.slash (pathOf true reached) =
          [] :: Bytes.splitOn Path.slash (Bytes.joinWith [Path.slash] reached.reverse) :=
        Bytes.splitOn_append [] _
      rw [parts]
      refine follows_cons_iff.2 ⟨start, ?_⟩
      cases reached with
      | nil => exact follows_cons_iff.2 ⟨start, rfl⟩
      | cons element before =>
        rw [Bytes.splitOn_joinWith (by simp) apart]
        exact follows
  | false =>
    cases reached with
    | nil => exact ⟨by decide, nonempty, follows_cons_iff.2 ⟨start, rfl⟩⟩
    | cons element before =>
      have isJoined : pathOf false (element :: before) =
          Bytes.joinWith [Path.slash] (element :: before).reverse := rfl
      refine ⟨isJoined ▸ joined, nonempty, ?_⟩
      rw [isJoined, Bytes.splitOn_joinWith (by simp) apart]
      exact follows

/-- Elements that cleaning leaves are in cleaned form and are elements of the path. -/
theorem canonical_foldl (apart : ∀ element ∈ elements, Path.slash ∉ element)
    (canonical : Path.Canonical rooted before) :
    Path.Canonical rooted (elements.foldl (Path.addElement rooted) before) := by
  induction elements generalizing before with
  | nil => exact canonical
  | cons element elements ih =>
    apply ih
    · intro other member
      exact apart other (mem_cons_of_mem _ member)
    · exact canonical.addElement (apart element mem_cons_self)

theorem mem_foldl {element : Bytes} (member : element ∈ elements.foldl (Path.addElement rooted) before) :
    element ∈ before ∨ element ∈ elements := by
  induction elements generalizing before with
  | nil => exact .inl member
  | cons next elements ih =>
    rcases ih member with early | late
    · rcases Path.addElement_cases rooted before next with same | fewer | ⟨_, added⟩
      · exact .inl (same ▸ early)
      · exact .inl (mem_of_mem_tail (fewer ▸ early))
      · rw [added] at early
        rcases mem_cons.1 early with rfl | early
        · exact .inr mem_cons_self
        · exact .inl early
    · exact .inr (mem_cons_of_mem _ late)

theorem clean_eq (path : Bytes) :
    Path.clean path = pathOf (Path.isAbsolute path)
      ((Bytes.splitOn Path.slash path).foldl (Path.addElement (Path.isAbsolute path)) []) := by
  have canonical : Path.Canonical (Path.isAbsolute path)
      ((Bytes.splitOn Path.slash path).foldl (Path.addElement (Path.isAbsolute path)) []) := by
    apply canonical_foldl
    · intro element member within
      exact (Bytes.mem_of_mem_splitOn member within).2 rfl
    · trivial
  unfold Path.clean pathOf
  dsimp only
  cases rooted : Path.isAbsolute path with
  | true => rfl
  | false =>
    rw [rooted] at canonical
    have nonempty := pathOf_ne_nil canonical
    cases found : (Bytes.splitOn Path.slash path).foldl (Path.addElement false) [] with
    | nil => rfl
    | cons element before =>
      rw [found] at nonempty
      have joined : (Bytes.joinWith [Path.slash] (element :: before).reverse).isEmpty = false :=
        isEmpty_eq_false_iff.2 nonempty
      rw [joined]
      rfl

/-- The directory of a path is what its elements but the last one lead to. -/
theorem directory_eq (path : Bytes) :
    Path.directory path = pathOf (Path.isAbsolute path)
      ((Bytes.splitOn Path.slash path).dropLast.foldl (Path.addElement (Path.isAbsolute path)) []) := by
  rcases Path.exists_split path with absent | ⟨stem, name, rfl, absent⟩
  · have relative : Path.isAbsolute path = false := by
      cases path with
      | nil => rfl
      | cons code rest =>
        have different : code ≠ Path.slash := by
          rintro rfl
          exact absent mem_cons_self
        simp [Path.isAbsolute, different]
    rw [Path.directory, Path.split_of_notMem absent, Bytes.splitOn_of_notMem absent, relative]
    rfl
  · have sameStart : Path.isAbsolute (stem ++ [Path.slash]) =
        Path.isAbsolute (stem ++ Path.slash :: name) := by
      cases stem <;> rfl
    have name' : Bytes.splitOn Path.slash name = [name] := Bytes.splitOn_of_notMem absent
    rw [Path.directory, Path.split_append absent, clean_eq, sameStart, Bytes.splitOn_append,
      Bytes.splitOn_append, name', dropLast_concat, foldl_append]
    rfl

theorem resolve_directory (follows : disk.walk path = .ok reached) :
    disk.resolve (Path.directory path) = .ok (Path.directory path, .directory) := by
  obtain ⟨sound, _, follows⟩ := walk_eq_ok_iff.1 follows
  have elements : ∀ element ∈ (Bytes.splitOn Path.slash path).dropLast, ∀ code ∈ element,
      code ∈ path ∧ code ≠ Path.slash := by
    intro element member code within
    exact Bytes.mem_of_mem_splitOn (dropLast_subset _ member) within
  rw [directory_eq]
  rw [← dropLast_append_getLast (Bytes.splitOn_ne_nil Path.slash path), foldlM_append] at follows
  cases early : (Bytes.splitOn Path.slash path).dropLast.foldlM
    (disk.enter (Path.isAbsolute path)) [] with
  | error reason =>
    rw [early] at follows
    cases follows
  | ok middle =>
    rw [early] at follows
    have isDirectory : disk.isDirectoryAt (Path.isAbsolute path) middle = true :=
      (follows_cons_iff.1 follows).1
    have nothing : disk.IsOpen (Path.isAbsolute path) [] := trivial
    have isOpen := nothing.follows early
    have isLeft := follows_eq early
    rw [← isLeft]
    have canonical : Path.Canonical (Path.isAbsolute path) middle := by
      rw [isLeft]
      apply canonical_foldl
      · intro element member within
        exact (elements element member _ within).2 rfl
      · trivial
    have leads : disk.walk (pathOf (Path.isAbsolute path) middle) = .ok middle := by
      apply walk_pathOf canonical isOpen
      intro element member zero
      rw [isLeft] at member
      rcases mem_foldl member with impossible | member
      · cases impossible
      · exact sound (elements element member 0 zero).1
    apply resolve_eq_ok_iff.2
    rw [isAbsolute_pathOf canonical]
    exact ⟨middle, leads, rfl, node?_eq_directory_iff.2 isDirectory⟩

/-! ## Writing a file -/

/-- A path that can be followed leads to the entry of its clean form. -/
theorem pathOf_eq_clean (follows : disk.walk path = .ok reached) :
    pathOf (Path.isAbsolute path) reached = Path.clean path := by
  rw [clean_eq, follows_eq (walk_eq_ok_iff.1 follows).2.2]

theorem eq_clean_of_resolve {node : DiskNode} (resolved : disk.resolve path = .ok (clean, node)) :
    clean = Path.clean path := by
  obtain ⟨reached, follows, isClean, _⟩ := resolve_eq_ok_iff.1 resolved
  rw [isClean, pathOf_eq_clean follows]

theorem node?_eq_entry_iff : disk.node? rooted reached = some (.entry entry) ↔
      disk.isDirectoryAt rooted reached = false ∧ disk.tree.get? (pathOf rooted reached) =
        some entry := by
  unfold node?
  cases disk.isDirectoryAt rooted reached <;> simp

/-- Every entry of a disk is what it was, but for the one that a path leads to. -/
def SameElsewhere (disk : Disk) (path : Bytes) (after : Disk) : Prop :=
  ∀ other, other ≠ Path.clean path → after.tree.get? other = disk.tree.get? other

/-- One file of a disk is set: its path leads to the contents afterwards, and every other
entry is what it was. -/
structure Sets (disk : Disk) (path contents : Bytes) (after : Disk) : Prop where
  reads : after.read path = .ok contents
  others : ∃ entry, after.resolve path = .ok (entry, .entry (.regular contents)) ∧
    ∀ other, other ≠ entry → after.tree.get? other = disk.tree.get? other

/-- What becomes of a file that contents go to.  A special file takes them and stays what it
is, and any other one is set to them. -/
inductive Takes (disk : Disk) (path contents : Bytes) (after : Disk) : Prop where
  | stored (plain : ∀ entry received, disk.resolve path ≠ .ok (entry, .entry (.special received)))
      (sets : disk.Sets path contents after)
  | passed {entry received : Bytes}
      (before : disk.resolve path = .ok (entry, .entry (.special received)))
      (afterwards : after.resolve path = .ok (entry, .entry (.special (received ++ contents))))
      (others : ∀ other, other ≠ entry → after.tree.get? other = disk.tree.get? other)

/-- What a disk is after contents are written to a path, with the failure if there is one.
A write that fails before the file is open changes nothing, and one that fails later
changes no other file. -/
inductive Writes (disk : Disk) (path contents : Bytes) : Disk → Option FileFailure → Prop where
  | whole {after : Disk} (takes : disk.Takes path contents after) : Writes disk path contents after none
  | unopened {failure : FileFailure} (early : failure.operation = .open_) :
      Writes disk path contents disk (some failure)
  | interrupted {after : Disk} {failure : FileFailure} (late : failure.operation ≠ .open_)
      (others : disk.SameElsewhere path after) : Writes disk path contents after (some failure)

theorem Writes.takes {contents : Bytes} (writes : disk.Writes path contents after none) :
    disk.Takes path contents after := by
  cases writes
  assumption

/-- A file is written where a path leads to, unless that is a directory. -/
theorem writable_eq_ok (isWritable : disk.writable path = .ok clean) :
    ∃ reached, disk.walk path = .ok reached ∧ clean = pathOf (Path.isAbsolute path) reached ∧
      disk.isDirectoryAt (Path.isAbsolute path) reached = false := by
  unfold writable at isWritable
  split at isWritable
  · -- A path that ends in a slash is never written.
    split at isWritable <;> cases isWritable
  · cases follows : disk.walk path with
    | error reason =>
      rw [follows] at isWritable
      cases isWritable
    | ok reached =>
      rw [follows] at isWritable
      dsimp only at isWritable
      refine ⟨reached, rfl, ?_, ?_⟩
      · split at isWritable <;> cases isWritable
        rfl
      · apply Bool.eq_false_iff.2
        intro isDirectory
        rw [node?_eq_directory_iff.2 isDirectory] at isWritable
        cases isWritable

theorem clean_of_writable (isWritable : disk.writable path = .ok clean) : clean = Path.clean path := by
  obtain ⟨reached, follows, isClean, _⟩ := writable_eq_ok isWritable
  rw [isClean, pathOf_eq_clean follows]

theorem keeps_put_of_writable (isWritable : disk.writable path = .ok clean) (entry : FileEntry) :
    disk.Keeps (disk.put clean entry) := by
  obtain ⟨reached, _, isClean, file⟩ := writable_eq_ok isWritable
  rw [isDirectoryAt, ← isClean, Bool.or_eq_false_iff] at file
  exact keeps_put file.2 entry

/-- A path that can be written leads to the entry that is put there. -/
theorem resolve_put (isWritable : disk.writable path = .ok clean) (isFile : entry ≠ .directory) :
    (disk.put clean entry).resolve path = .ok (clean, .entry entry) := by
  have keeps := keeps_put_of_writable isWritable entry
  obtain ⟨reached, follows, isClean, file⟩ := writable_eq_ok isWritable
  have stored : (disk.put clean entry).tree.get? clean = some entry := by
    rw [get?_put, if_pos rfl]
  apply resolve_eq_ok_iff.2
  refine ⟨reached, keeps.walk follows, isClean, node?_eq_entry_iff.2 ⟨?_, isClean ▸ stored⟩⟩
  rw [isDirectoryAt, ← isClean, Bool.or_eq_false_iff] at file ⊢
  refine ⟨file.1, ?_⟩
  rw [FileTree.isDirectory, stored]
  cases entry with
  | directory => exact absurd rfl isFile
  | _ => rfl

theorem get?_of_ne (clean : Bytes) (entry : FileEntry) (other : Bytes) (different : other ≠ clean) :
    (disk.put clean entry).tree.get? other = disk.tree.get? other := by
  rw [get?_put, if_neg different]

/-- Filling a file puts an entry at its path, as a special file takes the contents or as
another one is set to them. -/
theorem fill_takes (isWritable : disk.writable path = .ok clean) (contents : Bytes) :
    ∃ entry, disk.fill clean contents = disk.put clean entry ∧
      disk.Takes path contents (disk.fill clean contents) := by
  obtain ⟨reached, follows, isClean, file⟩ := writable_eq_ok isWritable
  have leads (entry : FileEntry) : disk.resolve path = .ok (clean, .entry entry) ↔
      disk.tree.get? clean = some entry := by
    rw [resolve_eq_ok_iff]
    constructor
    · rintro ⟨other, alsoFollows, _, found⟩
      cases follows.symm.trans alsoFollows
      rw [isClean]
      exact (node?_eq_entry_iff.1 found).2
    · intro stored
      exact ⟨reached, follows, isClean, node?_eq_entry_iff.2 ⟨file, isClean ▸ stored⟩⟩
  unfold fill
  split
  · rename_i received stored
    refine ⟨_, rfl, .passed ((leads _).2 stored) (resolve_put isWritable ?_) (get?_of_ne _ _)⟩
    exact FileEntry.noConfusion
  · rename_i notSpecial
    have resolved : (disk.set clean contents).resolve path = .ok (clean, .entry (.regular contents)) :=
      resolve_put isWritable FileEntry.noConfusion
    refine ⟨_, rfl, .stored ?_ ⟨?_, clean, resolved, get?_of_ne _ _⟩⟩
    · intro entry received special
      have same : entry = clean := by
        rw [eq_clean_of_resolve special, clean_of_writable isWritable]
      rw [same] at special
      exact notSpecial received ((leads _).1 special)
    · rw [read, resolved]

/-- Either the file is not opened, or some contents go to it: all of them, or a part if
there is a failure. -/
theorem write_cases (disk : Disk) (fault : Option WriteFault) (path contents : Bytes) :
    (∃ failure : FileFailure, failure.operation = .open_ ∧
      disk.write fault path contents = (disk, some failure)) ∨
    ∃ clean part failure, disk.writable path = .ok clean ∧
      disk.write fault path contents = (disk.fill clean part, failure) ∧
      (failure = none → part = contents) ∧ ∀ told ∈ failure, told.operation ≠ .open_ := by
  unfold write
  cases isWritable : disk.writable path with
  | error reason => exact .inl ⟨_, rfl, rfl⟩
  | ok clean =>
    cases fault with
    | none => exact .inr ⟨clean, contents, none, rfl, rfl, by simp, by simp⟩
    | some fault =>
      cases fault with
      | unopened reason => exact .inl ⟨_, rfl, rfl⟩
      | stopped interruption => exact .inr ⟨clean, _, _, rfl, rfl, by simp, by simp⟩
      | unclosed interruption => exact .inr ⟨clean, _, _, rfl, rfl, by simp, by simp⟩

theorem write_writes (disk : Disk) (fault : Option WriteFault) (path contents : Bytes) :
    disk.Writes path contents (disk.write fault path contents).1 (disk.write fault path contents).2 := by
  rcases write_cases disk fault path contents with ⟨failure, early, unopened⟩ |
    ⟨clean, part, failure, isWritable, filled, whole, late⟩
  · rw [unopened]
    exact .unopened early
  · rw [filled]
    obtain ⟨entry, put, takes⟩ := fill_takes isWritable part
    cases failure with
    | none =>
      rw [whole rfl] at takes ⊢
      exact .whole takes
    | some failure =>
      refine .interrupted (late failure rfl) ?_
      rw [put, SameElsewhere, ← clean_of_writable isWritable]
      exact get?_of_ne _ _

/-- Writing loses no directory and changes no other file. -/
theorem keeps_write (disk : Disk) (fault : Option WriteFault) (path contents : Bytes) :
    disk.Keeps (disk.write fault path contents).1 ∧
      disk.SameElsewhere path (disk.write fault path contents).1 := by
  rcases write_cases disk fault path contents with ⟨failure, _, unopened⟩ |
    ⟨clean, part, failure, isWritable, filled, _⟩
  · rw [unopened]
    exact ⟨Keeps.refl disk, fun _ _ => rfl⟩
  · obtain ⟨entry, put, _⟩ := fill_takes isWritable part
    rw [filled, put, SameElsewhere, ← clean_of_writable isWritable]
    exact ⟨keeps_put_of_writable isWritable entry, get?_of_ne _ _⟩

theorem resolve_directory_of_write {fault : Option WriteFault} {contents : Bytes}
    (whole : (disk.write fault path contents).2 = none) :
    (disk.write fault path contents).1.resolve (Path.directory path) =
      .ok (Path.directory path, .directory) := by
  apply (keeps_write disk fault path contents).1.resolve
  rcases write_cases disk fault path contents with ⟨failure, _, unopened⟩ | ⟨_, _, _, isWritable, _⟩
  · rw [unopened] at whole
    cases whole
  · obtain ⟨reached, follows, _⟩ := writable_eq_ok isWritable
    exact resolve_directory follows

/-! ## Reading another file -/

/-- A file is still there when its entry is what it was and no directory is lost. -/
theorem Keeps.resolve_entry (keeps : disk.Keeps after)
    (resolved : disk.resolve path = .ok (clean, .entry entry))
    (same : after.tree.get? clean = disk.tree.get? clean) :
    after.resolve path = .ok (clean, .entry entry) := by
  obtain ⟨reached, follows, rfl, found⟩ := resolve_eq_ok_iff.1 resolved
  obtain ⟨file, stored⟩ := node?_eq_entry_iff.1 found
  apply resolve_eq_ok_iff.2
  refine ⟨reached, keeps.walk follows, rfl, node?_eq_entry_iff.2 ⟨?_, same.trans stored⟩⟩
  rw [Disk.isDirectoryAt, FileTree.isDirectory, stored] at file
  rw [Disk.isDirectoryAt, FileTree.isDirectory, same, stored]
  cases entry <;> exact file

/-- Writing a file leaves those alone that other clean paths lead to. -/
theorem read_of_write {fault : Option WriteFault} {other contents text : Bytes}
    (different : Path.clean other ≠ Path.clean path) (isRead : disk.read other = .ok text) :
    (disk.write fault path contents).1.read other = .ok text := by
  obtain ⟨keeps, others⟩ := keeps_write disk fault path contents
  rw [read] at isRead ⊢
  cases resolved : disk.resolve other with
  | error reason =>
    rw [resolved] at isRead
    cases isRead
  | ok found =>
    obtain ⟨clean, node⟩ := found
    rw [resolved] at isRead
    cases node with
    | directory => cases isRead
    | entry entry =>
      have apart : clean ≠ Path.clean path := by
        rwa [eq_clean_of_resolve resolved]
      rw [keeps.resolve_entry resolved (others clean apart)]
      exact isRead

end Disk
end CaseExpansion
