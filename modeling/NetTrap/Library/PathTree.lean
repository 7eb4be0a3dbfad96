import Mathlib.Data.List.Induction
import Mathlib.Data.List.Infix

/-! Trees as maps from paths: a path is the list of the names on the way from the root. -/

namespace PathTree

open List

variable {ν ε : Type}

/-- What a tree holds at each path. -/
abbrev Tree (ν ε : Type) := List ν → Option ε

/-- The path holds a directory. -/
def DirectoryAt (isDirectory : ε → Prop) (tree : Tree ν ε) (path : List ν) : Prop :=
  ∃ entry, tree path = some entry ∧ isDirectory entry

/-- The root is a directory, and whatever has a path stands in a directory. -/
structure WellFormed (isDirectory : ε → Prop) (tree : Tree ν ε) : Prop where
  root : DirectoryAt isDirectory tree []
  parent : ∀ {path name entry}, tree (path ++ [name]) = some entry →
    DirectoryAt isDirectory tree path

section Below

variable {isDirectory : ε → Prop} {tree : Tree ν ε} (wellFormed : WellFormed isDirectory tree)
include wellFormed

/-- Every proper ancestor of an entry is a directory, by induction from the entry upwards. -/
theorem WellFormed.ancestor {path rest entry} (below : rest ≠ [])
    (found : tree (path ++ rest) = some entry)
    : DirectoryAt isDirectory tree path := by
  induction rest using reverseRecOn generalizing entry with
  | nil => exact absurd rfl below
  | append_singleton rest name ih =>
    rw [← append_assoc] at found
    obtain ⟨parent, holds, directory⟩ := wellFormed.parent found
    by_cases top : rest = []
    · rw [top, append_nil] at holds
      exact ⟨parent, holds, directory⟩
    · exact ih top holds

/-- Nothing stands below a path that is no directory. -/
theorem WellFormed.none_below {path rest} (below : rest ≠ [])
    (noDirectory : ¬ DirectoryAt isDirectory tree path)
    : tree (path ++ rest) = none := by
  cases found : tree (path ++ rest) with
  | none => rfl
  | some entry => exact absurd (wellFormed.ancestor below found) noDirectory

end Below

variable [DecidableEq ν]

def put (tree : Tree ν ε) (path : List ν) (entry : ε) : Tree ν ε :=
  fun other => if other = path then some entry else tree other

def erase (tree : Tree ν ε) (path : List ν) : Tree ν ε :=
  fun other => if other = path then none else tree other

/-- The subtree at `source` comes to stand at `target`. -/
def move (tree : Tree ν ε) (source target : List ν) : Tree ν ε :=
  fun path =>
    if target <+: path then tree (source ++ path.drop target.length)
    else if source <+: path then none
    else tree path

/-- Where a path goes when the subtree at `source` comes to stand at `target`. -/
def movedPath (source target path : List ν) : List ν :=
  if source <+: path then target ++ path.drop source.length else path

section Moves

variable {tree : Tree ν ε} {source target : List ν}

theorem movedPath_append (rest : List ν)
    : movedPath source target (source ++ rest) = target ++ rest := by
  rw [movedPath, if_pos (prefix_append _ _), drop_left]

variable (free : target ≠ source → ∀ rest, tree (target ++ rest) = none)
include free

omit [DecidableEq ν] in
/-- Nothing outside the source stands below the target. -/
theorem not_prefix_of_free {path entry} (found : tree path = some entry)
    (outside : ¬ source <+: path)
    : ¬ target <+: path := by
  rintro ⟨rest, rfl⟩
  rw [free fun same => outside ⟨rest, by rw [same]⟩] at found
  cases found

/-- A moved tree has the old entries, at their new paths. -/
theorem move_eq_some {path entry}
    : move tree source target path = some entry
      ↔ ∃ old, tree old = some entry ∧ movedPath source target old = path := by
  constructor
  · intro found
    rw [move] at found
    split at found
    · next below =>
      obtain ⟨rest, rfl⟩ := below
      rw [drop_left] at found
      exact ⟨_, found, movedPath_append rest⟩
    split at found
    · cases found
    · next outside => exact ⟨path, found, if_neg outside⟩
  · rintro ⟨old, found, rfl⟩
    by_cases inside : source <+: old
    · obtain ⟨rest, rfl⟩ := inside
      rw [movedPath_append, move, if_pos (prefix_append _ _), drop_left, found]
    · rw [movedPath, if_neg inside, move, if_neg (not_prefix_of_free free found inside),
        if_neg inside, found]

end Moves

section Operations

variable {isDirectory : ε → Prop} {tree : Tree ν ε} (wellFormed : WellFormed isDirectory tree)
include wellFormed

/-- A new entry in a directory keeps the tree, unless it replaces a directory by something
else.
-/
theorem WellFormed.put {path name entry} (parent : DirectoryAt isDirectory tree path)
    (keeps : isDirectory entry ∨ ¬ DirectoryAt isDirectory tree (path ++ [name]))
    : WellFormed isDirectory (put tree (path ++ [name]) entry) := by
  have kept {other : List ν} (directory : DirectoryAt isDirectory tree other)
      : DirectoryAt isDirectory (PathTree.put tree (path ++ [name]) entry) other := by
    by_cases same : other = path ++ [name]
    · subst same
      rcases keeps with directory | noDirectory
      · exact ⟨entry, if_pos rfl, directory⟩
      · exact absurd directory noDirectory
    · obtain ⟨old, found, isDir⟩ := directory
      exact ⟨old, (if_neg same).trans found, isDir⟩
  refine ⟨kept wellFormed.root, ?_⟩
  intro above child found holds
  by_cases same : above ++ [child] = path ++ [name]
  · obtain ⟨rfl, -⟩ := append_inj' same rfl
    exact kept parent
  · rw [PathTree.put, if_neg same] at holds
    exact kept (wellFormed.parent holds)

/-- A leaf other than the root can be erased. -/
theorem WellFormed.erase {path} (notRoot : path ≠ []) (leaf : ∀ name, tree (path ++ [name]) = none)
    : WellFormed isDirectory (erase tree path) := by
  have kept {other : List ν} (distinct : other ≠ path)
      (directory : DirectoryAt isDirectory tree other)
      : DirectoryAt isDirectory (PathTree.erase tree path) other := by
    obtain ⟨old, found, isDir⟩ := directory
    exact ⟨old, (if_neg distinct).trans found, isDir⟩
  refine ⟨kept (Ne.symm notRoot) wellFormed.root, ?_⟩
  intro above child found holds
  rw [PathTree.erase] at holds
  split at holds
  · cases holds
  · apply kept _ (wellFormed.parent holds)
    rintro rfl
    rw [leaf child] at holds
    cases holds

/-- A subtree can be moved into a directory outside of it.
Witness: a path below the target has its parent where the source had it, and the target has
the parent it was given.
-/
theorem WellFormed.move {source target name} (parent : DirectoryAt isDirectory tree target)
    (outside : ¬ source <+: target) (notRoot : source ≠ [])
    : WellFormed isDirectory (move tree source (target ++ [name])) := by
  have elsewhere {path : List ν} (notTarget : ¬ target ++ [name] <+: path)
      (notSource : ¬ source <+: path) (directory : DirectoryAt isDirectory tree path)
      : DirectoryAt isDirectory (PathTree.move tree source (target ++ [name])) path := by
    obtain ⟨entry, found, isDir⟩ := directory
    refine ⟨entry, ?_, isDir⟩
    rw [PathTree.move, if_neg notTarget, if_neg notSource, found]
  refine ⟨elsewhere ?_ ?_ wellFormed.root, ?_⟩
  · rw [prefix_nil]
    exact append_ne_nil_of_right_ne_nil _ (cons_ne_nil _ _)
  · rw [prefix_nil]
    exact notRoot
  · intro path child entry holds
    rw [PathTree.move] at holds
    split at holds
    · next moved =>
      rcases prefix_concat_iff.mp moved with same | above
      · obtain ⟨rfl, -⟩ := append_inj' same rfl
        refine elsewhere ?_ outside parent
        intro longer
        have size := longer.length_le
        rw [length_append, length_singleton] at size
        omega
      · obtain ⟨rest, rfl⟩ := above
        rw [append_assoc, drop_left, ← append_assoc] at holds
        obtain ⟨above, found, isDir⟩ := wellFormed.parent holds
        refine ⟨above, ?_, isDir⟩
        rw [PathTree.move, if_pos (prefix_append _ _), drop_left, found]
    · next notTarget =>
      split at holds
      · cases holds
      · next notSource =>
        apply elsewhere _ _ (wellFormed.parent holds)
        · exact fun longer => notTarget (longer.trans (prefix_append _ _))
        · exact fun longer => notSource (longer.trans (prefix_append _ _))

end Operations

end PathTree
