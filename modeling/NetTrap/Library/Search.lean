import Mathlib.Data.List.Basic
import Mathlib.Data.List.Infix

/-! First occurrences of a pattern in a sequence, and how appending more elements
can move them.
-/

namespace Search

open List Option

universe u

variable {α : Type u} [BEq α] [LawfulBEq α]

/-- Position of the first window equal to `needle`. -/
def findSub (needle : List α) : List α → Option Nat
  | [] => none
  | head :: tail =>
    if needle.isPrefixOf (head :: tail) then some 0 else (findSub needle tail).map (· + 1)

omit [LawfulBEq α] in
theorem findSub_cons (needle : List α) (head : α) (tail : List α)
    : findSub needle (head :: tail) = if needle.isPrefixOf (head :: tail) then some 0
        else (findSub needle tail).map (· + 1) :=
  rfl

variable {needle haystack : List α} {index : Nat}

/-- A reported position starts an occurrence, by induction along the search. -/
theorem findSub_occurs (found : findSub needle haystack = some index)
    : needle <+: haystack.drop index := by
  induction haystack generalizing index with
  | nil => cases found
  | cons head tail ih =>
    rw [findSub_cons] at found
    split at found
    · rename_i here
      cases found
      exact isPrefixOf_iff_prefix.mp here
    · obtain ⟨before, located, rfl⟩ := map_eq_some_iff.mp found
      exact ih located

/-- The reported occurrence lies inside the data. -/
theorem findSub_add_le (nonempty : needle ≠ []) (found : findSub needle haystack = some index)
    : index + needle.length ≤ haystack.length := by
  have fits := (findSub_occurs found).length_le
  have positive := length_pos_iff.mpr nonempty
  rw [length_drop] at fits
  omega

/-- No occurrence starts before the reported one, by induction along the search. -/
theorem findSub_first (found : findSub needle haystack = some index) {earlier}
    (before : earlier < index)
    : ¬ needle <+: haystack.drop earlier := by
  induction haystack generalizing index earlier with
  | nil => cases found
  | cons head tail ih =>
    rw [findSub_cons] at found
    split at found
    · cases found
      omega
    · rename_i absent
      obtain ⟨position, located, rfl⟩ := map_eq_some_iff.mp found
      cases earlier with
      | zero => exact fun here => absent (List.isPrefixOf_iff_prefix.mpr here)
      | succ earlier => exact ih located (by omega)

/-- A failed search leaves no occurrence anywhere, by induction along the search. -/
theorem findSub_none (nonempty : needle ≠ []) (missing : findSub needle haystack = none)
    (index : Nat)
    : ¬ needle <+: haystack.drop index := by
  induction haystack generalizing index with
  | nil =>
    intro here
    exact nonempty (prefix_nil.mp (by simpa using here))
  | cons head tail ih =>
    rw [findSub_cons] at missing
    split at missing
    · cases missing
    · rename_i absent
      cases index with
      | zero => exact fun here => absent (List.isPrefixOf_iff_prefix.mpr here)
      | succ index => exact ih (map_eq_none_iff.mp missing) index

/-- An occurrence before which there is none is the one the search reports. -/
theorem findSub_eq_some (nonempty : needle ≠ []) (here : needle <+: haystack.drop index)
    (first : ∀ earlier < index, ¬ needle <+: haystack.drop earlier)
    : findSub needle haystack = some index := by
  cases found : findSub needle haystack with
  | none => exact absurd here (findSub_none nonempty found index)
  | some position =>
    have notLater : ¬ index < position := fun later => findSub_first found later here
    have notEarlier : ¬ position < index :=
      fun earlier => first position earlier (findSub_occurs found)
    rw [show position = index by omega]

variable {front : List α}

omit [BEq α] [LawfulBEq α] in
/-- Occurrences that fit in the front part are those of the front part. -/
theorem prefix_drop_append_iff {back} (fits : index + needle.length ≤ front.length)
    : needle <+: (front ++ back).drop index ↔ needle <+: front.drop index := by
  rw [drop_append_of_le_length (by omega)]
  constructor
  · intro here
    refine prefix_of_prefix_length_le here (prefix_append _ _) ?_
    simp
    omega
  · exact fun here => here.trans (prefix_append _ _)

/-- Appending data keeps a first occurrence where it is. -/
theorem findSub_append_of_some (nonempty : needle ≠ []) (found : findSub needle front = some index)
    (back : List α)
    : findSub needle (front ++ back) = some index := by
  have fits := findSub_add_le nonempty found
  refine findSub_eq_some nonempty ((prefix_drop_append_iff fits).mpr (findSub_occurs found)) ?_
  intro earlier before here
  exact findSub_first found before ((prefix_drop_append_iff (by omega)).mp here)

/-- An occurrence that only the appended data completes reaches past the front part. -/
theorem findSub_append_of_none {back} (nonempty : needle ≠ [])
    (missing : findSub needle front = none) (found : findSub needle (front ++ back) = some index)
    : front.length < index + needle.length := by
  by_contra inside
  exact findSub_none nonempty missing index
    ((prefix_drop_append_iff (by omega)).mp (findSub_occurs found))

/-- A first occurrence splits the data around it. -/
theorem findSub_split (found : findSub needle haystack = some index)
    : haystack = haystack.take index ++ needle ++ haystack.drop (index + needle.length) := by
  obtain ⟨rest, here⟩ := findSub_occurs found
  have behind : haystack.drop (index + needle.length) = rest := by
    rw [← drop_drop, ← here, drop_left]
  rw [behind, append_assoc, here, take_append_drop]

/-- The part before a first occurrence, closed by the needle, holds it only at the end. -/
theorem findSub_take (nonempty : needle ≠ []) (found : findSub needle haystack = some index)
    : findSub needle (haystack.take index ++ needle) = some index := by
  have fits := findSub_add_le nonempty found
  have length : (haystack.take index).length = index := by
    simp
    omega
  have split := findSub_split found
  refine findSub_eq_some nonempty ?_ fun earlier before here => ?_
  · rw [drop_append_of_le_length (by omega), drop_eq_nil_of_le (by omega)]
    exact prefix_rfl
  · refine findSub_first found before ?_
    rw [split]
    refine (prefix_drop_append_iff ?_).mpr here
    simp
    omega

/-! Lines. -/

omit [LawfulBEq α] in
theorem findSub_lt (found : findSub needle haystack = some index) : index < haystack.length := by
  induction haystack generalizing index with
  | nil => cases found
  | cons head tail ih =>
    rw [findSub_cons] at found
    split at found
    · cases found
      exact Nat.succ_pos _
    · obtain ⟨before, located, rfl⟩ := map_eq_some_iff.mp found
      exact Nat.succ_lt_succ (ih located)

/-- Data without the first element of the needle is skipped. -/
theorem findSub_skip {first more} (absent : first ∉ front) (back : List α)
    : findSub (first :: more) (front ++ back)
      = (findSub (first :: more) back).map (· + front.length) := by
  induction front with
  | nil => simp
  | cons head front ih =>
    simp only [mem_cons, not_or] at absent
    have elsewhere : (first :: more).isPrefixOf (head :: (front ++ back)) = false := by
      simp [isPrefixOf, absent.1]
    rw [cons_append, findSub_cons, elsewhere, ih absent.2, Option.map_map]
    simp only [Bool.false_eq_true, if_false, length_cons]
    congr 1

/-- The needle itself is found where it starts. -/
theorem findSub_self (first : α) (more back : List α)
    : findSub (first :: more) (first :: more ++ back) = some 0 := by
  rw [cons_append, findSub_cons, if_pos]
  rw [List.isPrefixOf_iff_prefix]
  exact prefix_append (first :: more) back

/-- The pieces that a separator ends, and the unfinished piece behind the last one. -/
def breakLines (first : α) (more data : List α) : List (List α) × List α :=
  match _ : findSub (first :: more) data with
  | none => ([], data)
  | some index =>
    let rest := breakLines first more (data.drop (index + (more.length + 1)))
    (data.take index :: rest.1, rest.2)
termination_by data.length
decreasing_by
  have inside := findSub_lt ‹_›
  simp
  omega

omit [LawfulBEq α] in
theorem breakLines_none {first : α} {more data : List α}
    (missing : findSub (first :: more) data = none)
    : breakLines first more data = ([], data) := by
  rw [breakLines]
  split
  · rfl
  · rename_i found
    rw [missing] at found
    cases found

omit [LawfulBEq α] in
theorem breakLines_some {first : α} {more data : List α}
    (found : findSub (first :: more) data = some index)
    : breakLines first more data = (data.take index
            :: (breakLines first more (data.drop (index + (more.length + 1)))).1,
          (breakLines first more (data.drop (index + (more.length + 1)))).2) := by
  rw [breakLines]
  split
  · rename_i missing
    rw [found] at missing
    cases missing
  · rename_i located
    rw [found] at located
    cases located
    rfl

/-! First element with a property. -/

variable {β : Type u}

variable {test : β → Bool}

/-- Appending data keeps the position of the first match. -/
theorem findIdx?_append_of_some {front} (found : front.findIdx? test = some index) (back : List β)
    : (front ++ back).findIdx? test = some index := by
  simp [findIdx?_append, found]

theorem findIdx?_lt {data : List β} (found : data.findIdx? test = some index)
    : index < data.length :=
  (findIdx?_eq_some_iff_getElem.mp found).1

/-- A match that only the appended data provides lies past the front part. -/
theorem findIdx?_append_of_none {front back : List β} (missing : front.findIdx? test = none)
    (found : (front ++ back).findIdx? test = some index)
    : front.length ≤ index := by
  rw [findIdx?_append, missing] at found
  obtain ⟨offset, -, rfl⟩ := map_eq_some_iff.mp (by simpa using found)
  omega

/-! Pieces between separators. -/

/-- The pieces of a text have its characters but the separator. -/
theorem mem_piece {separator : α} {text piece : List α}
    (member : piece ∈ text.splitOn separator) {char : α} (inside : char ∈ piece)
    : char ≠ separator ∧ char ∈ text := by
  induction text generalizing piece with
  | nil =>
    rw [splitOn_nil, mem_singleton] at member
    rw [member] at inside
    cases inside
  | cons first text ih =>
    rw [splitOn_cons_eq_if_modifyHead] at member
    split at member
    · rcases mem_cons.mp member with rfl | rest
      · cases inside
      · exact ⟨(ih rest inside).1, mem_cons_of_mem _ (ih rest inside).2⟩
    · next distinct =>
      cases pieces : text.splitOn separator with
      | nil => exact absurd pieces (splitOn_ne_nil _ _)
      | cons piece others =>
        rw [pieces] at member ih
        rcases mem_cons.mp member with rfl | rest
        · rcases mem_cons.mp inside with rfl | old
          · exact ⟨by simpa using distinct, mem_cons_self⟩
          · have known := ih mem_cons_self old
            exact ⟨known.1, mem_cons_of_mem _ known.2⟩
        · have known := ih (mem_cons_of_mem _ rest) inside
          exact ⟨known.1, mem_cons_of_mem _ known.2⟩

/-- Two separators in a row leave an empty piece behind the first one. -/
theorem nil_mem_tail_splitOn (separator : α) (front back : List α)
    : [] ∈ ((front ++ separator :: separator :: back).splitOn separator).tail := by
  induction front with
  | nil => simp [splitOn_cons_eq_if_modifyHead]
  | cons first front ih =>
    rw [cons_append, splitOn_cons_eq_if_modifyHead]
    split
    · exact mem_of_mem_tail ih
    · rwa [tail_modifyHead]

end Search
