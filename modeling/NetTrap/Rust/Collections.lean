import Mathlib.Data.List.AList
import Mathlib.Data.List.Induction

/-! Hash maps of the standard library.
The order in which a map is iterated is not specified, so that functions that iterate over
one take the order as an argument.
-/

namespace NetTrap.Rust

open AList

/-- `HashMap<κ, α>`: entries with distinct keys. -/
structure HashMap (κ α : Type) where
  table : AList fun _ : κ => α

/-- An order in which a map may be iterated. -/
structure IterOrder (α : Type) where
  run : List α → List α
  perm : ∀ entries, (run entries).Perm entries

/-- The order in which the entries are stored. -/
def IterOrder.stored (α : Type) : IterOrder α :=
  ⟨id, fun _ => .rfl⟩

namespace HashMap

variable {κ α : Type}

def empty : HashMap κ α :=
  ⟨∅⟩

instance : Inhabited (HashMap κ α) :=
  ⟨empty⟩

def len (map : HashMap κ α) : Nat :=
  map.table.keys.length

/-- The entries of a map, in the order in which they are stored. -/
def toPairs (map : HashMap κ α) : List (κ × α) :=
  map.table.entries.map fun entry => (entry.1, entry.2)

theorem length_toPairs (map : HashMap κ α) : map.toPairs.length = map.len := by
  rw [toPairs, len, keys, List.keys, List.length_map, List.length_map]

theorem map_fst_toPairs (map : HashMap κ α) : map.toPairs.map Prod.fst = map.table.keys := by
  rw [toPairs, List.map_map]
  rfl

theorem nodup_toPairs (map : HashMap κ α) : (map.toPairs.map Prod.fst).Nodup := by
  rw [map_fst_toPairs]
  exact map.table.keys_nodup

variable [DecidableEq κ]

def get (map : HashMap κ α) (key : κ) : Option α :=
  map.table.lookup key

def containsKey (map : HashMap κ α) (key : κ) : Bool :=
  (map.get key).isSome

/-- `insert` without the value that was replaced. -/
def insert (map : HashMap κ α) (key : κ) (value : α) : HashMap κ α :=
  ⟨map.table.insert key value⟩

/-- `remove` without the value that was removed. -/
def remove (map : HashMap κ α) (key : κ) : HashMap κ α :=
  ⟨map.table.erase key⟩

/-- `retain`. -/
def retain (map : HashMap κ α) (keeps : κ → α → Bool) : HashMap κ α :=
  ⟨map.table.entries.filter fun entry => keeps entry.1 entry.2,
    map.table.nodupKeys.sublist List.filter_sublist⟩

/-- `collect` from pairs: a later value replaces an earlier one. -/
def fromPairs (pairs : List (κ × α)) : HashMap κ α :=
  pairs.foldl (fun map pair => map.insert pair.1 pair.2) empty

/-- `==` between maps. -/
def same [DecidableEq α] (left right : HashMap κ α) : Bool :=
  left.len == right.len && left.toPairs.all fun entry => right.get entry.1 == some entry.2

variable {map : HashMap κ α} {key : κ} {value : α}

@[simp]
theorem get_empty (key : κ) : (empty : HashMap κ α).get key = none :=
  lookup_empty key

section

variable (map : HashMap κ α)

theorem get_insert (key other : κ) (value : α)
    : (map.insert key value).get other = if other = key then some value else map.get other := by
  rw [get, insert]
  split
  · next same => rw [same, lookup_insert]
  · next distinct => exact lookup_insert_ne distinct

theorem get_remove (key other : κ)
    : (map.remove key).get other = if other = key then none else map.get other := by
  rw [get, remove]
  split
  · next same => rw [same, lookup_erase]
  · next distinct => exact lookup_erase_ne distinct

@[simp]
theorem get_insert_self (key : κ) (value : α) : (map.insert key value).get key = some value := by
  rw [get_insert, if_pos rfl]

theorem get_insert_ne {key other : κ} (distinct : other ≠ key) (value : α)
    : (map.insert key value).get other = map.get other := by
  rw [get_insert, if_neg distinct]

@[simp]
theorem get_remove_self (key : κ) : (map.remove key).get key = none := by
  rw [get_remove, if_pos rfl]

theorem get_remove_ne {key other : κ} (distinct : other ≠ key)
    : (map.remove key).get other = map.get other := by
  rw [get_remove, if_neg distinct]

theorem get_remove_of_none {key : κ} (absent : map.get key = none) (other : κ)
    : (map.remove other).get key = none := by
  rw [get_remove, absent, ite_self]

end

theorem of_get_remove {map : HashMap κ α} {key other : κ} {value : α}
    (found : (map.remove key).get other = some value)
    : map.get other = some value := by
  rw [get_remove] at found
  split at found
  · cases found
  · exact found

theorem mem_toPairs : (key, value) ∈ map.toPairs ↔ map.get key = some value := by
  rw [toPairs, List.mem_map, get, ← Option.mem_def, mem_lookup_iff]
  constructor
  · rintro ⟨⟨found, content⟩, member, same⟩
    cases same
    exact member
  · exact fun member => ⟨⟨key, value⟩, member, rfl⟩

theorem mem_keys_iff : key ∈ map.table.keys ↔ ∃ value, map.get key = some value := by
  rw [← mem_keys, ← lookup_isSome, Option.isSome_iff_exists]
  rfl

theorem get_retain (map : HashMap κ α) (keeps : κ → α → Bool) (key : κ)
    : (map.retain keeps).get key = (map.get key).filter (keeps key) := by
  apply Option.ext
  intro value
  rw [← mem_toPairs, retain, toPairs, List.mem_map, Option.filter_eq_some_iff, ← mem_toPairs,
    toPairs, List.mem_map]
  constructor
  · rintro ⟨entry, member, same⟩
    obtain ⟨stored, kept⟩ := List.mem_filter.mp member
    cases same
    exact ⟨⟨entry, stored, rfl⟩, kept⟩
  · rintro ⟨⟨entry, stored, same⟩, kept⟩
    cases same
    exact ⟨entry, List.mem_filter.mpr ⟨stored, kept⟩, rfl⟩

omit [DecidableEq κ] in
theorem len_retain_le (map : HashMap κ α) (keeps : κ → α → Bool)
    : (map.retain keeps).len ≤ map.len := by
  rw [← length_toPairs, ← length_toPairs, toPairs, toPairs, List.length_map, List.length_map]
  exact List.length_filter_le _ _

theorem len_eq_zero_of_get (absent : ∀ key, map.get key = none) : map.len = 0 := by
  rw [len, List.length_eq_zero_iff, List.eq_nil_iff_forall_not_mem]
  intro key member
  obtain ⟨value, found⟩ := mem_keys_iff.mp member
  rw [absent key] at found
  cases found

theorem len_remove_of_some (found : map.get key = some value)
    : (map.remove key).len + 1 = map.len := by
  have member : key ∈ map.table.keys := mem_keys_iff.mpr ⟨value, found⟩
  have positive := List.length_pos_of_mem member
  rw [len, len, remove, keys_erase, List.length_erase_of_mem member]
  omega

theorem len_remove_of_none (absent : map.get key = none) : (map.remove key).len = map.len := by
  have missing : key ∉ map.table.keys := by
    rw [mem_keys_iff, absent]
    rintro ⟨value, found⟩
    cases found
  rw [len, len, remove, keys_erase, List.erase_of_not_mem missing]

theorem remove_of_none (absent : map.get key = none) : map.remove key = map := by
  have missing : key ∉ map.table.entries.keys := by
    intro member
    obtain ⟨value, found⟩ := mem_keys_iff.mp member
    rw [absent] at found
    cases found
  have table : map.table.erase key = map.table := by
    apply ext
    exact List.kerase_of_notMem_keys missing
  rw [remove, table]

theorem len_remove_le (map : HashMap κ α) (key : κ) : (map.remove key).len ≤ map.len := by
  rw [len, len, remove, keys_erase]
  exact List.length_erase_le

theorem len_insert (map : HashMap κ α) (key : κ) (value : α)
    : (map.insert key value).len = (map.remove key).len + 1 := by
  rw [len, len, insert, remove, keys_insert, keys_erase, List.length_cons]

theorem len_insert_of_none (absent : map.get key = none) (value : α)
    : (map.insert key value).len = map.len + 1 := by
  rw [len_insert, len_remove_of_none absent]

theorem len_insert_of_some {old : α} (found : map.get key = some old) (value : α)
    : (map.insert key value).len = map.len := by
  rw [len_insert, len_remove_of_some found]

/-- A property of every entry. -/
def All (holds : κ → α → Prop) (map : HashMap κ α) : Prop :=
  ∀ key value, map.get key = some value → holds key value

section All

variable {holds : κ → α → Prop}

theorem all_empty : All holds (empty : HashMap κ α) := by
  intro key value found
  cases found

theorem All.remove (all : map.All holds) (key : κ) : (map.remove key).All holds := by
  intro other value found
  exact all other value (of_get_remove found)

theorem All.insert (all : map.All holds) (here : holds key value)
    : (map.insert key value).All holds := by
  intro other found isFound
  rw [get_insert] at isFound
  split at isFound
  · next same =>
    cases isFound
    rwa [same]
  · exact all other found isFound

end All

/-- Every key has the last value that was given for it. -/
theorem get_fromPairs (pairs : List (κ × α)) (key : κ)
    : (fromPairs pairs).get key
      = (pairs.reverse.find? fun pair => decide (pair.1 = key)).map Prod.snd := by
  induction pairs using List.reverseRecOn with
  | nil => rw [fromPairs, List.foldl_nil, get_empty]; rfl
  | append_singleton pairs last ih =>
    rw [fromPairs, List.foldl_concat, ← fromPairs, get_insert, ih, List.reverse_append,
      List.reverse_singleton, List.singleton_append]
    by_cases found : last.1 = key
    · rw [if_pos found.symm, List.find?_cons_of_pos (by simpa using found), Option.map_some]
    · rw [if_neg (Ne.symm found), List.find?_cons_of_neg (by simpa using found)]

variable {pairs : List (κ × α)}

/-- Maps with the same values under the same keys have as many of them. -/
theorem len_eq_of_get {left right : HashMap κ α} (agree : ∀ key, left.get key = right.get key)
    : left.len = right.len := by
  have perm : left.table.keys.Perm right.table.keys := by
    rw [List.perm_ext_iff_of_nodup left.table.keys_nodup right.table.keys_nodup]
    intro key
    rw [mem_keys_iff, mem_keys_iff, agree key]
  exact perm.length_eq

/-- Equal maps have the same values under the same keys. Witness: a map with as many keys as
another one that has them all has no other key.
-/
theorem same_iff [DecidableEq α] {left right : HashMap κ α}
    : left.same right = true ↔ ∀ key, left.get key = right.get key := by
  rw [same, Bool.and_eq_true, beq_iff_eq, List.all_eq_true]
  constructor
  · rintro ⟨lengths, included⟩ key
    have found {key : κ} {value : α} (inLeft : left.get key = some value)
        : right.get key = some value := by
      simpa using included (key, value) (mem_toPairs.mpr inLeft)
    have subset : left.table.keys ⊆ right.table.keys := by
      intro key member
      obtain ⟨value, inLeft⟩ := mem_keys_iff.mp member
      exact mem_keys_iff.mpr ⟨value, found inLeft⟩
    have perm : left.table.keys.Perm right.table.keys :=
      (List.subperm_of_subset left.table.keys_nodup subset).perm_of_length_le
        (Nat.le_of_eq lengths.symm)
    cases inLeft : left.get key with
    | some value => exact (found inLeft).symm
    | none =>
      cases inRight : right.get key with
      | none => rfl
      | some value =>
        obtain ⟨other, present⟩ :=
          mem_keys_iff.mp (perm.mem_iff.mpr (mem_keys_iff.mpr ⟨value, inRight⟩))
        rw [inLeft] at present
        cases present
  · intro agree
    refine ⟨len_eq_of_get agree, fun entry member => ?_⟩
    rw [← agree, mem_toPairs.mp member]
    exact BEq.rfl

/-! Moving entries. -/

/-- Moving entries to new keys, one after the other. -/
def relocate (rekey : κ → κ) (map : HashMap κ α) (pairs : List (κ × α)) : HashMap κ α :=
  pairs.foldl (fun map pair => (map.remove pair.1).insert (rekey pair.1) pair.2) map

/-- No two entries move to one key, and none to the old key of another. -/
structure Apart (rekey : κ → κ) (pairs : List (κ × α)) : Prop where
  nodup : (pairs.map Prod.fst).Nodup
  injective : ∀ {left right}, left ∈ pairs → right ∈ pairs → rekey left.1 = rekey right.1 →
    left.1 = right.1
  elsewhere : ∀ {left right}, left ∈ pairs → right ∈ pairs → rekey left.1 = right.1 →
      left.1 = right.1

variable {rekey : κ → κ}

omit [DecidableEq κ] in
theorem Apart.tail {pair} (apart : Apart rekey (pair :: pairs)) : Apart rekey pairs :=
  ⟨(List.nodup_cons.mp apart.nodup).2,
    fun left right => apart.injective (List.mem_cons_of_mem _ left) (List.mem_cons_of_mem _ right),
    fun left right => apart.elsewhere (List.mem_cons_of_mem _ left) (List.mem_cons_of_mem _ right)⟩

/-- Afterwards a key has what moved to it, or what it had if nothing moved to or from it. -/
theorem get_relocate_eq_some (apart : Apart rekey pairs)
    : (map.relocate rekey pairs).get key = some value
      ↔ (∃ pair ∈ pairs, rekey pair.1 = key ∧ pair.2 = value)
        ∨ map.get key = some value ∧ ∀ pair ∈ pairs, rekey pair.1 ≠ key ∧ pair.1 ≠ key := by
  induction pairs generalizing map with
  | nil => simp [relocate]
  | cons first pairs ih =>
    have others : ∀ other ∈ pairs, rekey other.1 ≠ rekey first.1 ∧ other.1 ≠ rekey first.1 := by
      intro other inside
      have distinct : first.1 ≠ other.1 := fun same =>
        (List.nodup_cons.mp apart.nodup).1 (same ▸ List.mem_map_of_mem inside)
      exact ⟨fun same => distinct (apart.injective List.mem_cons_self
          (List.mem_cons_of_mem _ inside) same.symm),
        fun same => distinct (apart.elsewhere List.mem_cons_self
          (List.mem_cons_of_mem _ inside) same.symm)⟩
    refine (ih apart.tail).trans ?_
    rw [get_insert, get_remove, List.exists_mem_cons_iff, List.forall_mem_cons,
      or_assoc, or_left_comm]
    refine or_congr_right ?_
    by_cases here : key = rekey first.1
    · subst here
      simpa using fun _ => others
    · by_cases left : key = first.1
      · subst left
        simp [here, Ne.symm here]
      · simp [here, left, Ne.symm here, Ne.symm left]

end HashMap

section Mirrors

variable {ι κ α : Type} {index : ι → Option κ} {table : κ → Option α} {name : κ → α → ι} {key : κ}
  {value : α}

/-- Every entry has its name in the index, and the index has no other names. -/
def Mirrors (name : κ → α → ι) (index : ι → Option κ) (table : κ → Option α) : Prop :=
  ∀ id key, index id = some key ↔ ∃ value, table key = some value ∧ id = name key value

variable [DecidableEq ι] [DecidableEq κ]

theorem Mirrors.erase (mirrors : Mirrors name index table) (found : table key = some value)
    : Mirrors name (fun id => if id = name key value then none else index id)
        (fun other => if other = key then none else table other) := by
  intro id other
  have indexed := (mirrors _ _).mpr ⟨value, found, rfl⟩
  dsimp only
  constructor
  · intro kept
    split at kept
    · cases kept
    next apart =>
    obtain ⟨current, stored, same⟩ := (mirrors _ _).mp kept
    refine ⟨current, (if_neg ?_).trans stored, same⟩
    rintro rfl
    cases found.symm.trans stored
    exact apart same
  · rintro ⟨current, stored, same⟩
    split at stored
    · cases stored
    next apart =>
    have kept := (mirrors _ _).mpr ⟨current, stored, same⟩
    refine (if_neg ?_).trans kept
    rintro rfl
    exact apart (Option.some.inj (kept.symm.trans indexed))

/-- A new entry takes its name from the entry that had it, which goes. -/
theorem Mirrors.put (mirrors : Mirrors name index table) (absent : table key = none) (value : α)
    : Mirrors name (fun id => if id = name key value then some key else index id)
        (fun other => if other = key then some value
          else if index (name key value) = some other then none else table other) := by
  intro id other
  by_cases same : other = key
  · subst same
    simp only [if_true, Option.some.injEq, exists_eq_left']
    constructor
    · intro indexed
      split at indexed
      · assumption
      · obtain ⟨current, stored, -⟩ := (mirrors _ _).mp indexed
        cases absent.symm.trans stored
    · exact fun named => if_pos named
  · simp only [if_neg same]
    constructor
    · intro indexed
      split at indexed
      · exact absurd (Option.some.inj indexed).symm same
      next apart =>
      obtain ⟨current, stored, named⟩ := (mirrors _ _).mp indexed
      refine ⟨current, (if_neg fun held => ?_).trans stored, named⟩
      obtain ⟨taken, again, shape⟩ := (mirrors _ _).mp held
      cases stored.symm.trans again
      exact apart (named.trans shape.symm)
    · rintro ⟨current, stored, named⟩
      split at stored
      · cases stored
      next free =>
      have indexed := (mirrors _ _).mpr ⟨current, stored, named⟩
      refine (if_neg ?_).trans indexed
      rintro rfl
      exact free indexed

end Mirrors

end NetTrap.Rust
