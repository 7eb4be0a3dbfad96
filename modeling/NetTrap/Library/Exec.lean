import Mathlib.Data.List.Basic

/-! Computations that read a sequence by position and may leave its range.
A run that indexes, slices or drains past the end is a fault, never a default value.
-/

namespace Access

universe u v

/-- A computation finishes with a value or stops on an access outside its data.
Bounded loops report an exhausted budget as a fault too, so excluding faults also
proves that the loop ends.
-/
inductive Exec (α : Type u) where
  | done (value : α)
  | fault
  deriving DecidableEq, Repr

namespace Exec

variable {α : Type u} {β : Type u}

protected def bind : Exec α → (α → Exec β) → Exec β
  | .done value, next => next value
  | .fault, _ => .fault

instance : Monad Exec where
  pure := .done
  bind := Exec.bind

@[simp]
theorem pure_eq (value : α) : (pure value : Exec α) = .done value :=
  rfl

@[simp]
theorem done_bind (value : α) (next : α → Exec β) : (Exec.done value >>= next) = next value :=
  rfl

@[simp]
theorem fault_bind (next : α → Exec β) : ((Exec.fault : Exec α) >>= next) = .fault :=
  rfl

/-- A finished bind names the finished first half, by cases on that half. -/
theorem bind_eq_done {first : Exec α} {next : α → Exec β} {result : β}
    (finished : (first >>= next) = .done result)
    : ∃ value, first = .done value ∧ next value = .done result := by
  cases first with
  | done value => exact ⟨value, rfl, finished⟩
  | fault => cases finished

/-- Branches that finish let the whole conditional finish. -/
theorem ite_eq_done {condition : Prop} {_ : Decidable condition} {yes no : Exec α}
    {yesValue noValue : α} (onTrue : condition → yes = .done yesValue)
    (onFalse : ¬ condition → no = .done noValue)
    : (if condition then yes else no) = .done (if condition then yesValue else noValue) := by
  split
  · rename_i holds
    exact onTrue holds
  · rename_i fails
    exact onFalse fails

end Exec

/-! Positional access. -/

variable {α : Type u}

/-- The element at `index`; a fault when there is none. -/
def item (data : List α) (index : Nat) : Exec α :=
  match data[index]? with
  | some value => .done value
  | none => .fault

/-- The suffix from `start`; a fault when `start` lies past the end. -/
def sliceFrom (data : List α) (start : Nat) : Exec (List α) :=
  if start ≤ data.length then .done (data.drop start) else .fault

/-- The elements from `start` up to `stop`; a fault unless both bounds are in order. -/
def slice (data : List α) (start stop : Nat) : Exec (List α) :=
  if start ≤ stop ∧ stop ≤ data.length then .done ((data.take stop).drop start) else .fault

/-- The suffix from `start`, if `start` lies within the data. -/
def getFrom (data : List α) (start : Nat) : Option (List α) :=
  if start ≤ data.length then some (data.drop start) else none

/-- The elements from `start` up to `stop`, if both bounds are in order. -/
def getRange (data : List α) (start stop : Nat) : Option (List α) :=
  if start ≤ stop ∧ stop ≤ data.length then some ((data.take stop).drop start) else none

/-- The first `count` elements and what they leave behind; a fault when there are fewer. -/
def drain (data : List α) (count : Nat) : Exec (List α × List α) :=
  if count ≤ data.length then .done (data.take count, data.drop count) else .fault

@[simp]
theorem item_cons_zero (head : α) (tail : List α) : item (head :: tail) 0 = .done head :=
  rfl

@[simp]
theorem item_cons_succ (head : α) (tail : List α) (index : Nat)
    : item (head :: tail) (index + 1) = item tail index :=
  rfl

variable {data : List α}

theorem item_of_lt {index} (inside : index < data.length)
    : item data index = .done data[index] := by
  simp [item, inside]

/-- The element at the head of a suffix is the one at its starting position. -/
theorem item_of_drop {index head tail} (suffix : data.drop index = head :: tail)
    : item data index = .done head := by
  have found : data[index]? = some head := by
    rw [← List.head?_drop, suffix]
    rfl
  simp [item, found]

theorem item_eq_getD {index} (inside : index < data.length) (fallback : α)
    : item data index = .done (data.getD index fallback) := by
  simp [item, inside]

theorem sliceFrom_of_le {start} (inside : start ≤ data.length)
    : sliceFrom data start = .done (data.drop start) :=
  if_pos inside

theorem slice_of_le {start stop} (ordered : start ≤ stop) (inside : stop ≤ data.length)
    : slice data start stop = .done ((data.take stop).drop start) :=
  if_pos ⟨ordered, inside⟩

theorem drain_of_le {count} (inside : count ≤ data.length)
    : drain data count = .done (data.take count, data.drop count) :=
  if_pos inside

/-- A check passes exactly if its condition holds. -/
theorem guard_eq_some {condition} [Decidable condition] {value}
    : (guard condition : Option Unit) = some value ↔ condition := by
  rw [guard]
  split <;> simp_all

end Access
