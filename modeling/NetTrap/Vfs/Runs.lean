import NetTrap.Vfs.Rename

/-! The virtual file system from its construction on. -/

namespace NetTrap.Vfs

open Rust Option

variable {entries : Entries}

theorem perform_invariant (invariant : VfsInvariant entries) (operation : Operation)
    : VfsInvariant (perform entries operation).1 := by
  cases operation with
  | createFile path content =>
    rw [perform, createFile]
    split
    · exact invariant
    · exact createFileInternal_invariant invariant path content
  | createDir path =>
    rw [perform, createDir]
    split
    · exact invariant
    · exact createDirInternal_invariant invariant path
  | delete path => exact delete_invariant invariant path
  | rename fromPath toPath order => exact rename_invariant invariant order fromPath toPath

theorem run_invariant (invariant : VfsInvariant entries) (operations : List Operation)
    : VfsInvariant (run entries operations) := by
  induction operations generalizing entries with
  | nil => exact invariant
  | cons operation operations ih => exact ih (perform_invariant invariant operation)

/-- An operation that answers no leaves every entry as it was. -/
theorem perform_refused {operation} (refused : (perform entries operation).2 = some false)
    : (perform entries operation).1 = entries := by
  cases operation with
  | createFile path content => cases refused
  | createDir path => cases refused
  | delete path =>
    simp only [perform, delete, some.injEq] at refused ⊢
    split
    · rfl
    next safe =>
    split
    · rfl
    next notRoot =>
    split
    · rfl
    next empty =>
    rw [if_neg safe, if_neg notRoot, if_neg empty] at refused
    exact HashMap.remove_of_none (isSome_eq_false_iff.mp refused |> isNone_iff_eq_none.mp)
  | rename fromPath toPath order =>
    rcases rename_cases order entries fromPath toPath with same | ⟨_, _, _, -, -, same⟩
    · rw [perform, same]
    · rw [perform, same] at refused
      cases refused

/-! Construction. -/

/-- The first directory needs no parent. -/
theorem createDirInternal_root : VfsInvariant (createDirInternal .empty ['/']) := by
  have created : createDirInternal .empty ['/'] = HashMap.insert .empty ['/'] .directory :=
    rfl
  have only {key : Text} {entry : VfsEntry}
      (found : (HashMap.insert .empty ['/'] VfsEntry.directory : Entries).get key = some entry)
      : key = ['/'] ∧ entry = .directory := by
    rw [HashMap.get_insert, HashMap.get_empty] at found
    split at found
    · next same => exact ⟨same, (some.inj found).symm⟩
    · cases found
  rw [created]
  refine ⟨?_, HashMap.get_insert_self _ _ _, ?_, ?_⟩
  · intro key entry found
    rw [(only found).1]
    rfl
  · intro key entry found parent isParent
    rw [(only found).1] at isParent
    cases isParent
  · intro key content size found
    cases (only found).2

mutual

/-- Seeding only ever calls the two functions that keep the invariant, by recursion over what
the host answers.
-/
theorem seedFromDirDepth_invariant {entries : Entries} (invariant : VfsInvariant entries)
    (budget : SeedBudget) (depth : Nat) (relative : List OsName)
    : (seed : SeedDir) → VfsInvariant (seedFromDirDepth entries budget depth relative seed).1
  | .symlink => by
      rw [seedFromDirDepth]
      exact invariant
  | .unreadable => by
      rw [seedFromDirDepth]
      exact invariant
  | .listing listed => by
      rw [seedFromDirDepth]
      split
      · exact invariant
      split
      · exact invariant
      cases budget.reserveDir with
      | none => exact invariant
      | some budget =>
        exact seedEntries_invariant (createDirInternal_invariant invariant _) budget depth relative
          listed

theorem seedEntries_invariant {entries : Entries} (invariant : VfsInvariant entries)
    (budget : SeedBudget) (depth : Nat) (relative : List OsName)
    : (listed : SeedEntries) → VfsInvariant (seedEntries entries budget depth relative listed).1
  | .nil => by
      rw [seedEntries]
      exact invariant
  | .passedOver rest => by
      rw [seedEntries]
      exact seedEntries_invariant invariant budget depth relative rest
  | .directory name seed rest => by
      rw [seedEntries]
      exact seedEntries_invariant
        (seedFromDirDepth_invariant invariant budget (depth + 1) (relative ++ [name]) seed) _ depth
        relative rest
  | .file name fileBytes opened rest => by
      rw [seedEntries]
      rcases budget.reserveFile fileBytes with ⟨decision, budget⟩
      cases decision with
      | skip => exact seedEntries_invariant invariant budget depth relative rest
      | stop => exact invariant
      | read =>
        simp only
        cases readSeedFile opened with
        | none => exact seedEntries_invariant invariant budget depth relative rest
        | some content =>
          exact seedEntries_invariant (createFileInternal_invariant invariant _ content) budget
            depth relative rest

end

/-- The tree can be seeded: either it has its default entries, or the directory it is seeded
from can be listed.
-/
def SeedReadable : Option SeedDir → Prop
  | none => True
  | some seed => ∃ listed, seed = .listing listed

theorem new_invariant (syslog : Bytes) {seed} (readable : SeedReadable seed)
    : VfsInvariant (new syslog seed) := by
  have dirs (paths : List Text) {entries : Entries} (invariant : VfsInvariant entries)
      : VfsInvariant (paths.foldl createDirInternal entries) := by
    induction paths generalizing entries with
    | nil => exact invariant
    | cons path paths ih => exact ih (createDirInternal_invariant invariant path)
  have files (pairs : List (Text × Bytes)) {entries : Entries} (invariant : VfsInvariant entries)
      : VfsInvariant
        (pairs.foldl (fun entries file => createFileInternal entries file.1 file.2) entries) := by
    induction pairs generalizing entries with
    | nil => exact invariant
    | cons pair pairs ih => exact ih (createFileInternal_invariant invariant pair.1 pair.2)
  cases seed with
  | none =>
    have first : defaultDirs = ['/'] :: defaultDirs.tail := by
      simp [defaultDirs, Text.lit]
    rw [new, first, List.foldl_cons]
    exact files _ (dirs _ createDirInternal_root)
  | some seed =>
    obtain ⟨listed, rfl⟩ := readable
    have started : (seedFromDirDepth .empty {} 0 [] (.listing listed)).1
        = (seedEntries (createDirInternal .empty ['/']) ⟨1, 0⟩ 0 [] listed).1 := by
      rw [seedFromDirDepth]
      rfl
    rw [new, started]
    exact seedEntries_invariant createDirInternal_root _ _ _ listed

/-- The file system is a tree at every moment of every run, and unchanged by operations that
answer no, exactly if the directory it is seeded from can be listed; otherwise it starts
without a root. Witness: construction and each operation keep the invariant of the tree
behind the map.
-/
theorem vfs_runs_wellFormed_iff (syslog : Bytes) (seed : Option SeedDir)
    : (∀ operations : List Operation, VfsInvariant (run (new syslog seed) operations)
        ∧ ∀ operation, (perform (run (new syslog seed) operations) operation).2 = some false →
            (perform (run (new syslog seed) operations) operation).1
              = run (new syslog seed) operations)
      ↔ SeedReadable seed := by
  constructor
  · intro always
    have root := (always []).1.root
    cases seed with
    | none => trivial
    | some seed =>
      cases seed with
      | listing listed => exact ⟨listed, rfl⟩
      | symlink => cases root
      | unreadable => cases root
  · intro readable operations
    exact ⟨run_invariant (new_invariant syslog readable) operations, fun _ => perform_refused⟩

/-- A directory that may not be listed leaves nothing, not even the root. -/
theorem vfs_unreadable_seed_no_root : (new [] (some .unreadable)).get ['/'] = none :=
  rfl

end NetTrap.Vfs
