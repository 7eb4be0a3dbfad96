import NetTrap.Library.PathTree
import NetTrap.Vfs.Paths

/-! The map of the virtual file system stays a tree. -/

namespace NetTrap.Vfs

open Rust PathTree HashMap List

/-- What a file system must be at every moment. -/
structure VfsInvariant (entries : Entries) : Prop where
  normalized : ∀ {key entry}, entries.get key = some entry → normalizePath key = key
  root : entries.get ['/'] = some .directory
  parent : ∀ {key entry}, entries.get key = some entry →
    ∀ {parent}, parentPath key = some parent → entries.get parent = some .directory
  size : ∀ {key content size}, entries.get key = some (.file content size) → size = content.length

/-- The tree behind the map. -/
def view (entries : Entries) : Tree Name VfsEntry :=
  fun path => entries.get (render path)

def IsDirectory (entry : VfsEntry) : Prop :=
  entry = .directory

/-- Keys are normalised and sizes are right; both are kept entry by entry. -/
structure Sound (entries : Entries) : Prop where
  normalized : ∀ {key entry}, entries.get key = some entry → ∃ path, key = render path
  size : ∀ {key content size}, entries.get key = some (.file content size) → size = content.length

theorem directoryAt_iff {entries path}
    : DirectoryAt IsDirectory (view entries) path
      ↔ entries.get (render path) = some .directory := by
  constructor
  · rintro ⟨_, found, rfl⟩
    exact found
  · exact fun found => ⟨_, found, rfl⟩

/-- The invariant of the map is that of the tree behind it. -/
theorem vfsInvariant_iff {entries : Entries}
    : VfsInvariant entries ↔ Sound entries ∧ WellFormed IsDirectory (view entries) := by
  constructor
  · intro invariant
    refine ⟨⟨fun found => normalizePath_eq_self.mp (invariant.normalized found), invariant.size⟩,
      ?_, ?_⟩
    · exact directoryAt_iff.mpr invariant.root
    · intro path name entry found
      exact directoryAt_iff.mpr (invariant.parent found (parentPath_render path name))
  · rintro ⟨sound, wellFormed⟩
    refine ⟨fun found => normalizePath_eq_self.mpr (sound.normalized found),
      directoryAt_iff.mp wellFormed.root, ?_, sound.size⟩
    intro key entry found parent isParent
    obtain ⟨path, rfl⟩ := sound.normalized found
    cases path using reverseRecOn with
    | nil => cases isParent
    | append_singleton path name =>
      rw [parentPath_render] at isParent
      cases isParent
      exact directoryAt_iff.mp (wellFormed.parent found)

/-- A check of the parent looks at the path above. -/
theorem parentIsDirectory_iff {entries path}
    : parentIsDirectory entries (render path) = true
      ↔ ∃ above name, path = above ++ [name] ∧ DirectoryAt IsDirectory (view entries) above := by
  cases path using reverseRecOn with
  | nil =>
    simp [parentIsDirectory, parentPath_root]
  | append_singleton above name =>
    rw [parentIsDirectory, parentPath_render]
    simp only [decide_eq_true_iff, ← directoryAt_iff]
    constructor
    · exact fun directory => ⟨above, name, rfl, directory⟩
    · rintro ⟨other, last, same, directory⟩
      obtain ⟨rfl, -⟩ := append_inj' same rfl
      exact directory

section Entries

variable {entries : Entries}

theorem view_insert (path : List Name) (entry : VfsEntry)
    : view (entries.insert (render path) entry) = put (view entries) path entry := by
  funext other
  rw [view, get_insert, put]
  simp only [render_injective.eq_iff]
  rfl

theorem view_remove (path : List Name)
    : view (entries.remove (render path)) = erase (view entries) path := by
  funext other
  rw [view, get_remove, erase]
  simp only [render_injective.eq_iff]
  rfl

theorem Sound.insert (sound : Sound entries) (path : List Name) {entry : VfsEntry}
    (sized : ∀ content size, entry = .file content size → size = content.length)
    : Sound (entries.insert (render path) entry) := by
  constructor
  · intro key stored found
    rw [get_insert] at found
    split at found
    · next same => exact ⟨path, same⟩
    · exact sound.normalized found
  · intro key content size found
    rw [get_insert] at found
    split at found
    · exact sized content size (Option.some.inj found)
    · exact sound.size found

theorem Sound.remove (sound : Sound entries) (key : Text) : Sound (entries.remove key) := by
  constructor
  · intro other stored found
    exact sound.normalized (of_get_remove found)
  · intro other content size found
    exact sound.size (of_get_remove found)

end Entries

/-! One operation. -/

section Steps

variable {entries : Entries} (invariant : VfsInvariant entries)
include invariant

theorem VfsInvariant.insertChild {above name entry}
    (parent : DirectoryAt IsDirectory (view entries) above)
    (keeps : entry = .directory ∨ entries.get (render (above ++ [name])) ≠ some .directory)
    (sized : ∀ content size, entry = .file content size → size = content.length)
    : VfsInvariant (entries.insert (render (above ++ [name])) entry) := by
  obtain ⟨sound, wellFormed⟩ := vfsInvariant_iff.mp invariant
  rw [vfsInvariant_iff, view_insert]
  refine ⟨sound.insert _ sized, wellFormed.put parent ?_⟩
  rw [directoryAt_iff]
  exact keeps

theorem createDirInternal_invariant (path : Text)
    : VfsInvariant (createDirInternal entries path) := by
  rw [createDirInternal]
  split
  · exact invariant
  simp only [normalizePath_eq, ne_eq, render_eq_root]
  split
  · exact invariant
  next allowed =>
  split
  · exact invariant
  · exact invariant
  · next absent =>
    have notRoot : ¬ components path = [] := by
      intro root
      rw [root] at absent
      have present : entries.get (render []) = some .directory := invariant.root
      rw [present] at absent
      cases absent
    have parent : parentIsDirectory entries (render (components path)) = true := by
      by_contra missing
      exact allowed ⟨notRoot, by simpa using missing⟩
    obtain ⟨above, name, shape, directory⟩ := parentIsDirectory_iff.mp parent
    rw [shape]
    refine invariant.insertChild directory (.inl rfl) ?_
    intro content size impossible
    cases impossible

theorem createFileInternal_invariant (path : Text) (content : Bytes)
    : VfsInvariant (createFileInternal entries path content) := by
  rw [createFileInternal]
  split
  · exact invariant
  simp only [normalizePath_eq]
  split
  · exact invariant
  next allowed =>
  split
  · exact invariant
  next noDirectory =>
  have parent : parentIsDirectory entries (render (components path)) = true := by
    simpa using allowed
  obtain ⟨above, name, shape, directory⟩ := parentIsDirectory_iff.mp parent
  rw [shape] at noDirectory ⊢
  refine invariant.insertChild directory (.inr noDirectory) ?_
  rintro _ _ ⟨⟩
  rfl

theorem delete_invariant (path : Text) : VfsInvariant (delete entries path).1 := by
  rw [delete]
  split
  · exact invariant
  simp only [normalizePath_eq, render_eq_root]
  split
  · exact invariant
  next notRoot =>
  split
  · exact invariant
  next empty =>
  obtain ⟨sound, wellFormed⟩ := vfsInvariant_iff.mp invariant
  rw [vfsInvariant_iff, view_remove]
  refine ⟨sound.remove _, wellFormed.erase notRoot fun name => ?_⟩
  by_cases directory : entries.get (render (components path)) = some .directory
  · cases found : view entries (components path ++ [name]) with
    | none => rfl
    | some entry =>
      refine absurd ⟨directory, ?_⟩ empty
      rw [any_eq_true]
      refine ⟨_, mem_toPairs.mpr found, ?_⟩
      exact (isPrefixOf_render notRoot).mpr ⟨[name], cons_ne_nil _ _, rfl⟩
  · apply wellFormed.none_below (cons_ne_nil _ _)
    rw [directoryAt_iff]
    exact directory

end Steps

end NetTrap.Vfs
