import NetTrap.Vfs.Invariant

/-! Renaming moves a subtree: the entry itself, and the keys of everything below it. -/

namespace NetTrap.Vfs

open Rust PathTree List Option

/-- What has been checked when an entry is moved from `source` to `above ++ [name]`. -/
structure Accepted (entries : Entries) (source above : List Name) (name : Name) (entry : VfsEntry)
    : Prop where
  invariant : VfsInvariant entries
  notRoot : source ≠ []
  found : view entries source = some entry
  free : above ++ [name] ≠ source → view entries (above ++ [name]) = none
  parent : DirectoryAt IsDirectory (view entries) above
  notInside : entry = .directory → ∀ rest, rest ≠ [] → above ++ [name] ≠ source ++ rest

namespace Accepted

variable {entries : Entries} {source above : List Name} {name : Name} {entry : VfsEntry}
  (accepted : Accepted entries source above name entry)
include accepted

theorem wellFormed : WellFormed IsDirectory (view entries) :=
  (vfsInvariant_iff.mp accepted.invariant).2

variable {rest : List Name}

/-- Nothing stands below a file. -/
theorem below_file (file : entry ≠ .directory) (below : rest ≠ [])
    : view entries (source ++ rest) = none := by
  apply accepted.wellFormed.none_below below
  rintro ⟨other, found, directory⟩
  rw [accepted.found] at found
  exact file ((some.inj found).trans directory)

/-- The target is not below the source. -/
theorem outside : ¬ source <+: above := by
  rintro ⟨rest, rfl⟩
  by_cases directory : entry = .directory
  · exact accepted.notInside directory (rest ++ [name]) (by simp) (append_assoc _ _ _)
  · obtain ⟨parent, found, isDir⟩ := accepted.parent
    by_cases top : rest = []
    · rw [top, append_nil, accepted.found] at found
      exact directory ((some.inj found).trans isDir)
    · rw [accepted.below_file directory top] at found
      cases found

theorem target_ne_below (below : rest ≠ []) : above ++ [name] ≠ source ++ rest := by
  intro same
  have start : source <+: above ++ [name] := ⟨rest, same.symm⟩
  rcases prefix_concat_iff.mp start with whole | inside
  · rw [← whole] at same
    exact below (self_eq_append_right.mp same)
  · exact accepted.outside inside

/-- Nothing stands at or below a target that is free. -/
theorem below_target (moved : above ++ [name] ≠ source) (rest : List Name)
    : view entries (above ++ [name] ++ rest) = none := by
  have free := accepted.free moved
  by_cases top : rest = []
  · rw [top, append_nil, free]
  · apply accepted.wellFormed.none_below top
    rintro ⟨other, found, -⟩
    rw [free] at found
    cases found

/-- Paths below both the source and the target are below them in the same way. -/
theorem same_of_both {other entry} (same : above ++ [name] ++ rest = source ++ other)
    (found : view entries (source ++ other) = some entry)
    : rest = other := by
  by_cases moved : above ++ [name] = source
  · rw [moved, append_cancel_left_eq] at same
    exact same
  · rw [← same, accepted.below_target moved rest] at found
    cases found

/-- The entry itself after it was moved. -/
def renamed (entries : Entries) (source target : List Name) (entry : VfsEntry) : Entries :=
  (entries.remove (render source)).insert (render target) entry

variable {target : List Name}

omit accepted in
theorem view_renamed_eq_some {path stored}
    : view (renamed entries source target entry) path = some stored ↔ path = target ∧ entry = stored
        ∨ path ≠ target ∧ path ≠ source ∧ view entries path = some stored := by
  rw [renamed, view_insert, view_remove, put, erase]
  by_cases top : path = target
  · simp [top]
  · by_cases left : path = source
    · simp [left]
    · simp [left, top]

theorem renamed_sound : Sound (renamed entries source (above ++ [name]) entry) := by
  obtain ⟨sound, -⟩ := vfsInvariant_iff.mp accepted.invariant
  apply (sound.remove _).insert
  rintro content size rfl
  exact sound.size accepted.found

/-- The new key of an entry below a renamed directory. -/
def rekey (source target : List Name) (oldKey : Text) : Text :=
  normalizePath (render target ++ '/' :: oldKey.drop (render source ++ ['/']).length)

theorem rekey_render (below : rest ≠ [])
    : rekey source target (render (source ++ rest)) = render (target ++ rest) := by
  rw [rekey, drop_render accepted.notRoot below, normalizePath_eq, components_append_names]

def children (order : IterOrder (Text × VfsEntry)) (entries : Entries) (source : List Name)
    : List (Text × VfsEntry) :=
  (order.run entries.toPairs).filter fun entry => (render source ++ ['/']).isPrefixOf entry.1

/-- What is moved along with the entry. -/
def moving (order : IterOrder (Text × VfsEntry)) (entries : Entries) (source target : List Name)
    (entry : VfsEntry) : List (Text × VfsEntry) :=
  if entry.isDir then children order (renamed entries source target entry) source else []

variable (order : IterOrder (Text × VfsEntry))

/-- These are the entries below the source; a file has none. -/
theorem mem_moving {child}
    : child ∈ moving order entries source (above ++ [name]) entry
      ↔ ∃ rest, rest ≠ [] ∧ child.1 = render (source ++ rest)
        ∧ view entries (source ++ rest) = some child.2 := by
  obtain ⟨key, stored⟩ := child
  rw [moving]
  split
  · rw [children, mem_filter, (order.perm _).mem_iff, HashMap.mem_toPairs]
    constructor
    · rintro ⟨found, inside⟩
      obtain ⟨path, rfl⟩ := accepted.renamed_sound.normalized found
      obtain ⟨rest, below, rfl⟩ := (isPrefixOf_render accepted.notRoot).mp inside
      rcases view_renamed_eq_some.mp found with ⟨same, -⟩ | ⟨-, -, kept⟩
      · exact absurd same.symm (accepted.target_ne_below below)
      · exact ⟨rest, below, rfl, kept⟩
    · rintro ⟨rest, below, rfl, found⟩
      refine ⟨view_renamed_eq_some.mpr (.inr ⟨?_, ?_, found⟩),
        (isPrefixOf_render accepted.notRoot).mpr ⟨rest, below, rfl⟩⟩
      · exact (accepted.target_ne_below below).symm
      · exact fun same => below (append_right_eq_self.mp same)
  · next file =>
    constructor
    · intro none
      cases none
    · rintro ⟨rest, below, -, found⟩
      rw [accepted.below_file (fun directory => file (congrArg VfsEntry.isDir directory)) below]
        at found
      cases found

theorem moving_apart
    : HashMap.Apart (rekey source (above ++ [name]))
        (moving order entries source (above ++ [name]) entry) := by
  refine ⟨?_, ?_, ?_⟩
  · rw [moving]
    split
    · have all := (renamed entries source (above ++ [name]) entry).nodup_toPairs
      have shuffled := ((order.perm _).map Prod.fst).nodup_iff.mpr all
      exact shuffled.sublist (filter_sublist.map Prod.fst)
    · exact .nil
  · rintro ⟨left, _⟩ ⟨right, _⟩ inLeft inRight same
    obtain ⟨rest, below, rfl, -⟩ := (accepted.mem_moving order).mp inLeft
    obtain ⟨other, otherBelow, rfl, -⟩ := (accepted.mem_moving order).mp inRight
    simp only [accepted.rekey_render below, accepted.rekey_render otherBelow,
      render_injective.eq_iff, append_cancel_left_eq] at same ⊢
    exact same
  · rintro ⟨left, _⟩ ⟨right, _⟩ inLeft inRight same
    obtain ⟨rest, below, rfl, -⟩ := (accepted.mem_moving order).mp inLeft
    obtain ⟨other, otherBelow, rfl, found⟩ := (accepted.mem_moving order).mp inRight
    simp only [accepted.rekey_render below, render_injective.eq_iff] at same
    simp only [render_injective.eq_iff, append_cancel_left_eq]
    exact accepted.same_of_both same found

/-- The entries after an accepted rename. -/
def outcome (order : IterOrder (Text × VfsEntry)) (entries : Entries) (source target : List Name)
    (entry : VfsEntry) : Entries :=
  (renamed entries source target entry).relocate (rekey source target)
    (moving order entries source target entry)

/-- The subtree is moved, in whatever order the map is iterated. -/
theorem view_outcome
    : view (outcome order entries source (above ++ [name]) entry)
      = move (view entries) source (above ++ [name]) := by
  funext path
  apply ext
  intro stored
  rw [move_eq_some accepted.below_target, view, outcome,
    HashMap.get_relocate_eq_some (accepted.moving_apart order)]
  constructor
  · rintro (⟨child, member, shape, rfl⟩ | ⟨kept, untouched⟩)
    · obtain ⟨rest, below, key, found⟩ := (accepted.mem_moving order).mp member
      rw [key, accepted.rekey_render below, render_injective.eq_iff] at shape
      exact ⟨source ++ rest, found, (movedPath_append rest).trans shape⟩
    · rcases view_renamed_eq_some.mp kept with ⟨rfl, rfl⟩ | ⟨-, notSource, found⟩
      · have top : movedPath source (above ++ [name]) (source ++ []) = above ++ [name] ++ [] :=
          movedPath_append []
        rw [append_nil, append_nil] at top
        exact ⟨source, accepted.found, top⟩
      · refine ⟨path, found, if_neg ?_⟩
        rintro ⟨rest, rfl⟩
        have below : rest ≠ [] := by
          rintro rfl
          exact notSource (append_nil _)
        exact (untouched (_, _) ((accepted.mem_moving order).mpr ⟨rest, below, rfl, found⟩)).2 rfl
  · rintro ⟨old, found, rfl⟩
    -- a path keeps its entry in the loop unless it is below the source or the target
    have keeps {path : List Name} (elsewhere : ∀ rest, rest ≠ [] →
          above ++ [name] ++ rest ≠ path ∧ source ++ rest ≠ path)
        : ∀ child ∈ moving order entries source (above ++ [name]) entry,
          rekey source (above ++ [name]) child.1 ≠ render path ∧ child.1 ≠ render path := by
      intro child member
      obtain ⟨rest, below, key, -⟩ := (accepted.mem_moving order).mp member
      rw [key, accepted.rekey_render below, render_injective.ne_iff, render_injective.ne_iff]
      exact elsewhere rest below
    by_cases inside : source <+: old
    · obtain ⟨rest, rfl⟩ := inside
      rw [movedPath_append]
      by_cases below : rest = []
      · rw [below, append_nil] at found ⊢
        have same := some.inj (accepted.found.symm.trans found)
        refine .inr ⟨view_renamed_eq_some.mpr (.inl ⟨rfl, same⟩), keeps fun rest below => ?_⟩
        exact ⟨fun same => below (append_right_eq_self.mp same),
          (accepted.target_ne_below below).symm⟩
      · exact .inl ⟨(_, _), (accepted.mem_moving order).mpr ⟨rest, below, rfl, found⟩,
          accepted.rekey_render below, rfl⟩
    · rw [movedPath, if_neg inside]
      have notTarget := not_prefix_of_free accepted.below_target found inside
      refine .inr ⟨view_renamed_eq_some.mpr (.inr ⟨?_, ?_, found⟩), keeps fun rest _ => ?_⟩
      · rintro rfl
        exact notTarget (prefix_refl _)
      · rintro rfl
        exact inside (prefix_refl _)
      · exact ⟨fun same => notTarget ⟨rest, same⟩, fun same => inside ⟨rest, same⟩⟩

theorem outcome_sound : Sound (outcome order entries source (above ++ [name]) entry) := by
  have step {map : Entries} {moved : List (Text × VfsEntry)} (sound : Sound map)
      (sized : ∀ child ∈ moved, ∀ content size, child.2 = .file content size →
          size = content.length)
      : Sound (map.relocate (rekey source (above ++ [name])) moved) := by
    induction moved generalizing map with
    | nil => exact sound
    | cons child moved ih =>
      refine ih ?_ fun other inside => sized other (mem_cons_of_mem _ inside)
      obtain ⟨path, normalized⟩ : ∃ path, rekey source (above ++ [name]) child.1 = render path :=
        ⟨_, normalizePath_eq _⟩
      have placed := (sound.remove child.1).insert path (sized child mem_cons_self)
      rw [← normalized] at placed
      exact placed
  refine step accepted.renamed_sound ?_
  intro child member content size file
  obtain ⟨rest, -, -, found⟩ := (accepted.mem_moving order).mp member
  rw [file] at found
  exact accepted.invariant.size found

end Accepted

/-- A rename is refused, or it has made its checks and moves the entry. -/
theorem rename_cases (order : IterOrder (Text × VfsEntry)) (entries : Entries)
    (fromPath toPath : Text)
    : rename order entries fromPath toPath = (entries, false)
      ∨ ∃ above name entry, components toPath = above ++ [name]
        ∧ (VfsInvariant entries → Accepted entries (components fromPath) above name entry)
        ∧ rename order entries fromPath toPath
          = (Accepted.outcome order entries (components fromPath) (above ++ [name]) entry,
              true) := by
  rw [rename]
  split
  · exact .inl rfl
  simp only [normalizePath_eq, render_eq_root]
  split
  · exact .inl rfl
  next notRoot =>
  cases found : entries.get (render (components fromPath)) with
  | none => exact .inl rfl
  | some entry =>
    simp only
    split
    · exact .inl rfl
    next free =>
    split
    · exact .inl rfl
    next parent =>
    split
    · exact .inl rfl
    next outside =>
    obtain ⟨above, name, shape, directory⟩ :=
      parentIsDirectory_iff.mp
          (show parentIsDirectory entries (render (components toPath)) = true by
        simpa using parent)
    rw [shape] at free outside ⊢
    refine .inr ⟨above, name, entry, rfl, fun invariant => ?_, ?_⟩
    · refine ⟨invariant, notRoot, found, ?_, directory, ?_⟩
      · intro moved
        cases stored : view entries (above ++ [name]) with
        | none => rfl
        | some other =>
          refine absurd ⟨fun same => moved (render_injective same), ?_⟩ free
          rw [HashMap.containsKey,
            show entries.get (render (above ++ [name])) = some other from stored]
          rfl
      · rintro rfl rest below same
        refine outside ?_
        rw [Bool.and_eq_true]
        exact ⟨rfl, (isPrefixOf_render notRoot).mpr ⟨rest, below, same⟩⟩
    · cases entry with
      | directory => rfl
      | file content size => rfl

theorem rename_invariant {entries : Entries} (invariant : VfsInvariant entries)
    (order : IterOrder (Text × VfsEntry)) (fromPath toPath : Text)
    : VfsInvariant (rename order entries fromPath toPath).1 := by
  rcases rename_cases order entries fromPath toPath with
    same | ⟨above, name, entry, -, checked, same⟩
  · rw [same]
    exact invariant
  · have accepted := checked invariant
    rw [same, vfsInvariant_iff, accepted.view_outcome]
    exact ⟨accepted.outcome_sound order,
      accepted.wellFormed.move accepted.parent accepted.outside accepted.notRoot⟩

end NetTrap.Vfs
