import NetTrap.Library.Exec

/-! Readers by position: computations that finish, and a position seen as the part of the
sequence that is still to be read.
-/

namespace Access

open List

universe u

variable {α β : Type u}

/-- The computation stays within its data. -/
def Exec.Finishes (program : Exec α) : Prop :=
  ∃ value, program = .done value

namespace Exec.Finishes

theorem done (value : α) : (Exec.done value).Finishes :=
  ⟨value, rfl⟩

theorem bind {program : Exec α} {next : α → Exec β} (first : program.Finishes)
    (second : ∀ value, program = .done value → (next value).Finishes)
    : (program >>= next).Finishes := by
  obtain ⟨value, rfl⟩ := first
  exact second value rfl

theorem ite {condition : Prop} [Decidable condition] {yes no : Exec α}
    (onTrue : condition → yes.Finishes) (onFalse : ¬ condition → no.Finishes)
    : (if condition then yes else no).Finishes := by
  split
  · next holds => exact onTrue holds
  · next fails => exact onFalse fails

theorem guard {condition : Prop} [Decidable condition] {value : α} {no : Exec α}
    (onFalse : ¬ condition → no.Finishes) : (if condition then .done value else no).Finishes :=
  .ite (fun _ => .done value) onFalse

end Exec.Finishes

/-- A parser gives up where a reader finds nothing, and what the two find is related. -/
def Exec.Finds (parser : Exec (Option α)) (read : Option β) (related : α → β → Prop) : Prop :=
  (parser = .done none ∧ read = none)
    ∨ ∃ found value, parser = .done (some found) ∧ read = some value ∧ related found value

namespace Exec.Finds

variable {γ δ : Type u} {parser : Exec (Option α)} {read : Option β} {related : α → β → Prop}

theorem nothing : (Exec.done none).Finds none related :=
  .inl ⟨rfl, rfl⟩

theorem something {found value} (relates : related found value)
    : (Exec.done (some found)).Finds (some value) related :=
  .inr ⟨found, value, rfl, rfl, relates⟩

section Next

variable {next : Option α → Exec γ} (finds : parser.Finds read related)
include finds

theorem finishes (missing : (next none).Finishes)
    (present : ∀ found value, read = some value → related found value →
        (next (some found)).Finishes)
    : (parser >>= next).Finishes := by
  rcases finds with ⟨none, -⟩ | ⟨found, value, same, read, relates⟩
  · rw [none]
    exact missing
  · rw [same]
    exact present found value read relates

/-- What follows a parser computes what follows the reader. -/
theorem step {view : Option δ → γ} {behind : β → Option δ} (missing : next none = .done (view none))
    (present : ∀ found value, read = some value → related found value
      → next (some found) = .done (view (behind value)))
    : (parser >>= next) = .done (view (read.bind behind)) := by
  rcases finds with ⟨none, rfl⟩ | ⟨found, value, same, rfl, relates⟩
  · rw [none, done_bind, missing]
    rfl
  · rw [same, done_bind, present found value rfl relates]
    rfl

end Next

/-- Parsers in sequence find what the readers in sequence find. -/
theorem bind {next : Option α → Exec (Option γ)} {behind : β → Option δ} {other : γ → δ → Prop}
    (finds : parser.Finds read related) (missing : next none = .done none)
    (present : ∀ found value, read = some value → related found value
      → (next (some found)).Finds (behind value) other)
    : (parser >>= next).Finds (read.bind behind) other := by
  rcases finds with ⟨none, rfl⟩ | ⟨found, value, same, rfl, relates⟩
  · rw [none, done_bind, missing]
    exact nothing
  · rw [same]
    exact present found value rfl relates

end Exec.Finds

/-- A check that computes whether a reader goes on. -/
theorem Exec.guard_step {γ δ : Type u} {stop pass : Prop} [Decidable stop] [Decidable pass]
    {out next : Exec γ} {view : Option δ → γ} {behind : Option δ} (same : stop ↔ ¬ pass)
    (failed : out = .done (view none)) (passed : pass → next = .done (view behind))
    : (if stop then out else next) = .done (view (if ¬ pass then none else behind)) := by
  by_cases holds : pass
  · rw [if_neg (same.not.mpr (not_not.mpr holds)), if_neg (not_not.mpr holds), passed holds]
  · rw [if_pos (same.mpr holds), if_pos holds, failed]

/-- A verdict is a yes exactly if a property holds. -/
def Exec.Decides (parser : Exec Bool) (property : Prop) : Prop :=
  ∃ verdict, parser = .done verdict ∧ (verdict = true ↔ property)

namespace Exec.Decides

variable {parser : Exec Bool} {property other : Prop}

theorem yes (holds : property) : (Exec.done true).Decides property :=
  ⟨true, rfl, by simp [holds]⟩

theorem no (fails : ¬ property) : (Exec.done false).Decides property :=
  ⟨false, rfl, by simp [fails]⟩

theorem congr (decides : parser.Decides property) (same : property ↔ other)
    : parser.Decides other := by
  obtain ⟨verdict, finished, meaning⟩ := decides
  exact ⟨verdict, finished, meaning.trans same⟩

theorem guard {stop pass} [Decidable stop] (same : stop ↔ ¬ pass)
    (passed : pass → parser.Decides property)
    : (if stop then pure false else parser).Decides (pass ∧ property) := by
  by_cases holds : pass
  · rw [if_neg (same.not.mpr (not_not.mpr holds))]
    exact (passed holds).congr (by simp [holds])
  · rw [if_pos (same.mpr holds)]
    exact no fun both => holds both.1

theorem both (decides : parser.Decides property) {next} (passed : property → next.Decides other)
    : (parser >>= fun verdict => if !verdict then pure false else next).Decides
        (property ∧ other) := by
  obtain ⟨verdict, rfl, meaning⟩ := decides
  exact guard (by simp [← meaning]) passed

theorem step {α β : Type} {parser : Exec (Option α)} {read : Option β} {related : α → β → Prop}
    {next : Option α → Exec Bool} {property : β → Prop} (finds : parser.Finds read related)
    (missing : next none = .done false)
    (present : ∀ found value, read = some value → related found value
      → (next (some found)).Decides (property value))
    : (parser >>= next).Decides (∃ value, read = some value ∧ property value) := by
  rcases finds with ⟨none, rfl⟩ | ⟨found, value, same, rfl, relates⟩
  · rw [none, done_bind, missing]
    exact no (by simp)
  · rw [same]
    exact (present found value rfl relates).congr (by simp)

end Exec.Decides

/-- What `data` holds from position `pos` on. -/
structure Cursor (data : List α) (pos : Nat) (tail : List α) : Prop where
  inside : pos ≤ data.length
  rest : data.drop pos = tail

namespace Cursor

variable {data front tail : List α} {head : α} {pos : Nat}

theorem start (data : List α) : Cursor data 0 data :=
  ⟨Nat.zero_le _, rfl⟩

section

variable (cursor : Cursor data pos tail)
include cursor

theorem length : data.length = pos + tail.length := by
  have inside := cursor.inside
  rw [← cursor.rest, length_drop]
  omega

theorem eq_length_iff : pos = data.length ↔ tail = [] := by
  rw [cursor.length, ← length_eq_zero_iff]
  omega

theorem lt_length_iff : pos < data.length ↔ tail ≠ [] := by
  have length := cursor.length
  rw [← length_pos_iff]
  omega

end

theorem advance (cursor : Cursor data pos (front ++ tail))
    : Cursor data (pos + front.length) tail := by
  have length := cursor.length
  rw [length_append] at length
  refine ⟨by omega, ?_⟩
  rw [← drop_drop, cursor.rest, drop_left]

theorem next (cursor : Cursor data pos (head :: tail)) : Cursor data (pos + 1) tail := by
  have single : Cursor data pos ([head] ++ tail) := cursor
  exact single.advance

theorem getElem? (cursor : Cursor data pos tail) : data[pos]? = tail.head? := by
  rw [← head?_drop, cursor.rest]

theorem item (cursor : Cursor data pos (head :: tail)) : item data pos = .done head := by
  simp only [Access.item, cursor.getElem?, head?_cons]

theorem slice (cursor : Cursor data pos (front ++ tail))
    : slice data pos (pos + front.length) = .done front := by
  rw [slice_of_le (Nat.le_add_right _ _) cursor.advance.inside, ← take_drop, cursor.rest, take_left]

section Limit

/-! Positions below a limit are positions in the part of the data before it. -/

variable {limit : Nat} (inside : limit ≤ data.length)
include inside

section

variable (cursor : Cursor (data.take limit) pos tail)
include cursor

theorem length_below : limit = pos + tail.length := by
  rw [← cursor.length, length_take_of_le inside]

theorem eq_limit_iff : pos = limit ↔ tail = [] := by
  rw [← cursor.eq_length_iff, length_take_of_le inside]

theorem limit_le_iff : limit ≤ pos ↔ tail = [] := by
  have length := cursor.length_below inside
  rw [← length_eq_zero_iff]
  omega

end

theorem item_below (cursor : Cursor (data.take limit) pos (head :: tail))
    : Access.item data pos = .done head := by
  have length := cursor.length_below inside
  rw [length_cons] at length
  have found := cursor.getElem?
  rw [getElem?_take_of_lt (by omega), head?_cons] at found
  simp only [Access.item, found]

theorem slice_limit (cursor : Cursor (data.take limit) pos tail)
    : Access.slice data pos limit = .done tail := by
  have length := cursor.length_below inside
  rw [slice_of_le (by omega) inside, cursor.rest]

variable (cursor : Cursor (data.take limit) pos (front ++ tail))

include cursor

theorem slice_below : Access.slice data pos (pos + front.length) = .done front := by
  have length := cursor.length_below inside
  rw [length_append] at length
  have shorter : (data.take limit).take (pos + front.length) = data.take (pos + front.length) := by
    rw [take_take, Nat.min_eq_left (by omega)]
  have value := cursor.slice
  rw [slice_of_le (by omega) cursor.advance.inside, shorter] at value
  rw [slice_of_le (by omega) (by omega), value]

theorem getRange_below : getRange data pos (pos + front.length) = some front := by
  have value := cursor.slice_below inside
  simp only [Access.slice, getRange] at value ⊢
  split at value
  · next bounds =>
    rw [if_pos bounds, Exec.done.inj value]
  · cases value

/-- What stands behind a value ends the part before the end of the value. -/
theorem cut : Cursor (data.take (pos + front.length)) pos front := by
  have length := cursor.length_below inside
  rw [length_append] at length
  have shorter : data.take (pos + front.length) = (data.take limit).take (pos + front.length) := by
    rw [take_take, Nat.min_eq_left (by omega)]
  refine ⟨?_, ?_⟩
  · rw [length_take_of_le (by omega)]
    omega
  · rw [shorter, ← take_drop, cursor.rest, take_left]

end Limit

end Cursor

end Access
