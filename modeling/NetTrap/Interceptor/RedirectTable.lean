import NetTrap.Net.Packet
import NetTrap.Rust.Collections
import Mathlib.Data.List.Sort

/-! The table of redirected flows.
Three collections are kept in step: the flows, an index of them by client and listener, and
a queue of the times at which they were seen. The queue is cleaned up lazily, so that it
may hold pairs of flows that were seen again or are gone.
-/

namespace NetTrap.Interceptor

open Rust Net HashMap List

/-- `Instant`, in nanoseconds. -/
abbrev Instant := Nat

structure SocketAddr where
  ip : IpAddr
  port : Port
  deriving DecidableEq, Repr

structure FlowKey where
  protocol : UInt8
  (client originalDestination : SocketAddr)
  deriving DecidableEq, Repr

structure ReverseFlowKey where
  protocol : UInt8
  client : SocketAddr
  listenerPort : Port
  deriving DecidableEq, Repr

/-- The reverse key of a flow that goes to `listenerPort`. -/
def FlowKey.reverse (key : FlowKey) (listenerPort : Port) : ReverseFlowKey :=
  ⟨key.protocol, key.client, listenerPort⟩

structure RedirectFlow where
  originalDestination : SocketAddr
  listenerPort : Port
  lastSeen : Instant
  deriving DecidableEq, Repr

def maxRedirectFlows : Nat := 8192

def maxRedirectExpiryEntries : Nat := maxRedirectFlows * 2

def redirectFlowIdleTimeout : Nat := 300 * 1000000000

structure RedirectFlowTable where
  entries : HashMap FlowKey RedirectFlow
  reverse : HashMap ReverseFlowKey FlowKey
  expiry : List (Instant × FlowKey)

/-- The order in which the entries are iterated. -/
abbrev EntryOrder := IterOrder (FlowKey × RedirectFlow)

namespace RedirectFlowTable

/-- `RedirectFlowTable::default`. -/
def empty : RedirectFlowTable :=
  ⟨.empty, .empty, []⟩

variable (order : EntryOrder) (table : RedirectFlowTable)

def compactExpiry : RedirectFlowTable :=
  let entries := (order.run table.entries.toPairs).map fun (key, flow) => (flow.lastSeen, key)
  { table with expiry := entries.mergeSort fun left right => left.1 ≤ right.1 }

def remove (key : FlowKey) : RedirectFlowTable :=
  match table.entries.get key with
  | none => table
  | some flow =>
    let reverse := key.reverse flow.listenerPort
    { table with
      entries := table.entries.remove key
      reverse :=
        if table.reverse.get reverse = some key then table.reverse.remove reverse
        else table.reverse }

/-- The loop of `prune` over the pairs of `expiry`. -/
def pruneLoop (now : Instant) : List (Instant × FlowKey) → RedirectFlowTable → RedirectFlowTable
  | [], table => table
  | (seen, key) :: rest, table =>
    if now - seen < redirectFlowIdleTimeout then table
    else
      let table := { table with expiry := rest }
      let shouldRemove := (table.entries.get key).any fun flow => flow.lastSeen ≤ seen
      pruneLoop now rest (if shouldRemove then table.remove key else table)

def prune (now : Instant) : RedirectFlowTable :=
  pruneLoop now table.expiry table

/-- The loop of `insert` that makes room, over the pairs of `expiry`. -/
def evictLoop : List (Instant × FlowKey) → RedirectFlowTable → RedirectFlowTable
  | [], table => table
  | (_, oldest) :: rest, table =>
    if table.entries.len ≥ maxRedirectFlows then
      evictLoop rest (remove { table with expiry := rest } oldest)
    else table

/-- The last part of `insert`: the flow takes its place in all three collections. -/
def enter (key : FlowKey) (listenerPort : Port) (now : Instant) : RedirectFlowTable :=
  let reverse := key.reverse listenerPort
  let previous := table.reverse.get reverse
  let table := { table with reverse := table.reverse.insert reverse key }
  let table := previous.elim table table.remove
  { table with
    entries := table.entries.insert key ⟨key.originalDestination, listenerPort, now⟩
    expiry := table.expiry ++ [(now, key)] }

def insert (key : FlowKey) (listenerPort : Port) (now : Instant) : RedirectFlowTable :=
  let table := (table.prune now).remove key
  (evictLoop table.expiry table).enter key listenerPort now

def touch (key : FlowKey) (now : Instant) : RedirectFlowTable :=
  match table.entries.get key with
  | none => table
  | some flow =>
    let table := { table with entries := table.entries.insert key { flow with lastSeen := now } }
    let table :=
      if table.expiry.length ≥ maxRedirectExpiryEntries then table.compactExpiry order
      else table
    { table with expiry := table.expiry ++ [(now, key)] }

def outboundListener (key : FlowKey) (now : Instant) : Option Port × RedirectFlowTable :=
  let table := table.prune now
  let listener := (table.entries.get key).map (·.listenerPort)
  (listener, if listener.isSome then table.touch order key now else table)

def inboundDestination (key : ReverseFlowKey) (now : Instant)
    : Option SocketAddr × RedirectFlowTable :=
  let table := table.prune now
  match table.reverse.get key with
  | none => (none, table)
  | some flowKey =>
    let destination := (table.entries.get flowKey).map (·.originalDestination)
    (destination, if destination.isSome then table.touch order flowKey now else table)

/-- What holds of the table after every operation. -/
structure Consistent (table : RedirectFlowTable) : Prop where
  size : table.entries.len ≤ maxRedirectFlows
  /-- The index holds one pair for each flow, and nothing else. -/
  mirrored : ∀ reverse key,
    table.reverse.get reverse = some key
    ↔ ∃ flow, table.entries.get key = some flow ∧ reverse = key.reverse flow.listenerPort
  pending : ∀ key flow, table.entries.get key = some flow → (flow.lastSeen, key) ∈ table.expiry
  sorted : table.expiry.Pairwise fun left right => left.1 ≤ right.1

/-- A consistent table that was not used after `clock`, with the destinations of its keys. -/
structure Inv (clock : Instant) (table : RedirectFlowTable) : Prop extends Consistent table where
  seen : ∀ pair ∈ table.expiry, pair.1 ≤ clock
  destination : ∀ key flow, table.entries.get key = some flow →
    flow.originalDestination = key.originalDestination

/-- A flow that is not idle for too long. -/
def Fresh (now : Instant) (flow : RedirectFlow) : Prop :=
  now - flow.lastSeen < redirectFlowIdleTimeout

instance (now : Instant) (flow : RedirectFlow) : Decidable (Fresh now flow) :=
  inferInstanceAs (Decidable (_ < _))

theorem inv_empty (clock : Instant) : Inv clock empty where
  size := Nat.zero_le _
  mirrored reverse key := by simp [empty]
  pending key flow found := by simp [empty] at found
  sorted := .nil
  seen pair member := by cases member
  destination key flow found := by simp [empty] at found

section Removing

variable {table : RedirectFlowTable} {clock : Instant}

section

variable (table : RedirectFlowTable)

theorem get_entries_remove (key other : FlowKey)
    : (table.remove key).entries.get other
      = if other = key then none else table.entries.get other := by
  rw [remove]
  split
  · next absent =>
    split
    · next same => rw [same, absent]
    · rfl
  · exact get_remove _ _ _

@[simp]
theorem expiry_remove (key : FlowKey) : (table.remove key).expiry = table.expiry := by
  rw [remove]
  split <;> rfl

theorem remove_expiry (key : FlowKey) (rest : List (Instant × FlowKey))
    : remove { table with expiry := rest } key = { table.remove key with expiry := rest } := by
  simp only [remove]
  cases table.entries.get key <;> rfl

theorem len_entries_remove_le (key : FlowKey)
    : (table.remove key).entries.len ≤ table.entries.len := by
  rw [remove]
  split
  · exact Nat.le_refl _
  · exact len_remove_le _ _

end

/-- In a consistent table a flow leaves the index together with the entries. -/
theorem get_reverse_remove (inv : Inv clock table) {key flow}
    (found : table.entries.get key = some flow) (reverse : ReverseFlowKey)
    : (table.remove key).reverse.get reverse
      = if reverse = key.reverse flow.listenerPort then none else table.reverse.get reverse := by
  have indexed : table.reverse.get (key.reverse flow.listenerPort) = some key :=
    (inv.mirrored _ _).mpr ⟨flow, found, rfl⟩
  rw [remove, found]
  simp only [indexed, if_true]
  exact get_remove _ _ _

theorem remove_of_absent {key : FlowKey} (absent : table.entries.get key = none)
    : table.remove key = table := by
  rw [remove, absent]

theorem Inv.mirrored_remove (inv : Inv clock table) (key : FlowKey) (reverse : ReverseFlowKey)
    (other : FlowKey)
    : (table.remove key).reverse.get reverse = some other
      ↔ ∃ flow, (table.remove key).entries.get other = some flow
          ∧ reverse = other.reverse flow.listenerPort := by
  cases found : table.entries.get key with
  | none =>
    rw [remove_of_absent found]
    exact inv.mirrored reverse other
  | some flow =>
    rw [get_reverse_remove inv found, get_entries_remove]
    exact Mirrors.erase inv.mirrored found reverse other

theorem Inv.remove (inv : Inv clock table) (key : FlowKey) : Inv clock (table.remove key) where
  size := (len_entries_remove_le table key).trans inv.size
  mirrored := inv.mirrored_remove key
  pending other flow found := by
    rw [get_entries_remove] at found
    split at found
    · cases found
    · rw [expiry_remove]
      exact inv.pending other flow found
  sorted := by
    rw [expiry_remove]
    exact inv.sorted
  seen := by
    rw [expiry_remove]
    exact inv.seen
  destination other flow found := by
    rw [get_entries_remove] at found
    split at found
    · cases found
    · exact inv.destination other flow found

section

variable (inv : Inv clock table) {seen key rest} (front : table.expiry = (seen, key) :: rest)
include inv front

/-- A pair at the front of the queue that is not the last one of its flow can go. -/
theorem Inv.pop_stale (stale : ∀ flow, table.entries.get key = some flow → flow.lastSeen ≠ seen)
    : Inv clock { table with expiry := rest } where
  size := inv.size
  mirrored := inv.mirrored
  pending other flow found := by
    have member := inv.pending other flow found
    rw [front] at member
    rcases mem_cons.mp member with same | later
    · cases same
      exact absurd rfl (stale flow found)
    · exact later
  sorted := by
    have sorted := inv.sorted
    rw [front] at sorted
    exact sorted.of_cons
  seen pair member := inv.seen pair (by rw [front]; exact mem_cons_of_mem _ member)
  destination := inv.destination

/-- The flow of the front pair can go together with the pair. -/
theorem Inv.pop_remove
    : Inv clock (RedirectFlowTable.remove { table with expiry := rest } key) := by
  rw [remove_expiry]
  refine (inv.remove key).pop_stale ((expiry_remove table key).trans front) fun flow found => ?_
  rw [get_entries_remove, if_pos rfl] at found
  cases found

end

end Removing

section Pruning

variable {table : RedirectFlowTable} {clock now : Instant}

/-- If the front of the queue is recent, then so are all flows. -/
theorem Inv.fresh_of_front (inv : Inv clock table) {seen front rest}
    (shape : table.expiry = (seen, front) :: rest) (recent : now - seen < redirectFlowIdleTimeout)
    {key flow} (found : table.entries.get key = some flow)
    : Fresh now flow := by
  have member := inv.pending key flow found
  have sorted := inv.sorted
  rw [shape] at member sorted
  have later : seen ≤ flow.lastSeen := by
    rcases mem_cons.mp member with same | inside
    · cases same
      exact Nat.le_refl _
    · exact rel_of_pairwise_cons sorted inside
  exact Nat.lt_of_le_of_lt (Nat.sub_le_sub_left later now) recent

/-- The loop of `prune` keeps exactly the flows that are not idle for too long.
Witness: induction on the queue; a flow that the loop removes was not seen after the pair
at the front, and at a recent front everything left is recent.
-/
theorem pruneLoop_spec (now : Instant) (queue : List (Instant × FlowKey)) {table}
    (shape : table.expiry = queue) (inv : Inv clock table)
    : Inv clock (pruneLoop now queue table) ∧ ∀ key, (pruneLoop now queue table).entries.get key
          = (table.entries.get key).filter fun flow => decide (Fresh now flow) := by
  induction queue generalizing table with
  | nil =>
    refine ⟨inv, fun key => ?_⟩
    cases found : table.entries.get key with
    | none => simp [pruneLoop, found]
    | some flow =>
      have member := inv.pending key flow found
      rw [shape] at member
      cases member
  | cons pair rest ih =>
    obtain ⟨seen, front⟩ := pair
    rw [pruneLoop]
    split
    · next recent =>
      refine ⟨inv, fun key => ?_⟩
      cases found : table.entries.get key with
      | none => rfl
      | some flow =>
        have fresh : Fresh now flow := inv.fresh_of_front shape recent found
        rw [Option.filter_some, if_pos (decide_eq_true fresh)]
    · next idle =>
      simp only
      split
      · next removed =>
        obtain ⟨flow, found, old⟩ : ∃ flow, table.entries.get front = some flow
            ∧ flow.lastSeen ≤ seen := by
          simpa [Option.any_eq_true] using removed
        obtain ⟨kept, same⟩ := ih (by simp) (inv.pop_remove shape)
        refine ⟨kept, fun key => ?_⟩
        rw [same, get_entries_remove]
        split
        · next taken =>
          have expired : ¬ Fresh now flow := fun fresh =>
            idle (Nat.lt_of_le_of_lt (Nat.sub_le_sub_left old now) fresh)
          rw [taken, found, Option.filter_some, if_neg (by simpa using expired)]
          rfl
        · rfl
      · next kept =>
        have stale : ∀ flow, table.entries.get front = some flow → flow.lastSeen ≠ seen := by
          rintro flow found rfl
          apply kept
          rw [found]
          simp
        obtain ⟨kept, same⟩ := ih rfl (inv.pop_stale shape stale)
        exact ⟨kept, same⟩

theorem Inv.prune (inv : Inv clock table) (now : Instant) : Inv clock (table.prune now) :=
  (pruneLoop_spec now table.expiry rfl inv).1

theorem get_entries_prune (inv : Inv clock table) (now : Instant) (key : FlowKey)
    : (table.prune now).entries.get key
      = (table.entries.get key).filter fun flow => decide (Fresh now flow) :=
  (pruneLoop_spec now table.expiry rfl inv).2 key

end Pruning

section Entering

variable {table : RedirectFlowTable} {clock now : Instant}

/-- Making room ends with room for one more flow, since every flow is in the queue. -/
theorem evictLoop_spec (queue : List (Instant × FlowKey)) {table} (shape : table.expiry = queue)
    (inv : Inv clock table)
    : Inv clock (evictLoop queue table) ∧ (evictLoop queue table).entries.len < maxRedirectFlows
      ∧ ∀ key, table.entries.get key = none → (evictLoop queue table).entries.get key = none := by
  induction queue generalizing table with
  | nil =>
    refine ⟨inv, ?_, fun key absent => absent⟩
    have nothing : table.entries.len = 0 := by
      apply len_eq_zero_of_get
      intro key
      cases found : table.entries.get key with
      | none => rfl
      | some flow =>
        have member := inv.pending key flow found
        rw [shape] at member
        cases member
    rw [evictLoop, nothing]
    decide
  | cons pair rest ih =>
    obtain ⟨seen, oldest⟩ := pair
    rw [evictLoop]
    split
    · obtain ⟨kept, room, absent⟩ := ih (by simp) (inv.pop_remove shape)
      refine ⟨kept, room, fun key missing => absent key ?_⟩
      rw [get_entries_remove]
      split
      · rfl
      · exact missing
    · next room => exact ⟨inv, Nat.not_le.mp room, fun key absent => absent⟩

/-- Nothing is evicted while there is room. -/
theorem evictLoop_of_room (queue : List (Instant × FlowKey))
    (room : table.entries.len < maxRedirectFlows)
    : evictLoop queue table = table := by
  cases queue with
  | nil => rfl
  | cons pair rest => rw [evictLoop, if_neg (Nat.not_le.mpr room)]

variable {key : FlowKey} {listenerPort : Port}

/-- The entries after a flow took its place: the flow that held its reverse key is gone. -/
theorem get_entries_enter (table : RedirectFlowTable) (key : FlowKey) (listenerPort : Port)
    (now : Instant) (other : FlowKey)
    : (table.enter key listenerPort now).entries.get other
      = if other = key then some ⟨key.originalDestination, listenerPort, now⟩
        else if table.reverse.get (key.reverse listenerPort) = some other then none
        else table.entries.get other := by
  simp only [enter]
  rw [get_insert]
  split
  · rfl
  next distinct =>
    cases previous : table.reverse.get (key.reverse listenerPort) with
    | none => rfl
    | some held =>
      simp only [Option.elim_some, get_entries_remove, Option.some.injEq]
      by_cases same : other = held
      · rw [if_pos same, if_pos same.symm]
      · rw [if_neg same, if_neg (Ne.symm same)]

/-- The flow that held the reverse key does not take the new pair of the index with it. -/
theorem reverse_enter (inv : Inv clock table) (absent : table.entries.get key = none)
    : (table.enter key listenerPort now).reverse
      = table.reverse.insert (key.reverse listenerPort) key := by
  simp only [enter]
  cases previous : table.reverse.get (key.reverse listenerPort) with
  | none => rfl
  | some held =>
    obtain ⟨flow, found, shape⟩ := (inv.mirrored _ _).mp previous
    have distinct : key ≠ held := by
      rintro rfl
      rw [absent] at found
      cases found
    simp [RedirectFlowTable.remove, found, ← shape, get_insert_self, distinct]

theorem expiry_enter (table : RedirectFlowTable) (key : FlowKey) (listenerPort : Port)
    (now : Instant)
    : (table.enter key listenerPort now).expiry = table.expiry ++ [(now, key)] := by
  simp only [enter]
  cases table.reverse.get (key.reverse listenerPort) with
  | none => rfl
  | some held =>
    rw [Option.elim_some, expiry_remove]

theorem len_entries_enter (absent : table.entries.get key = none)
    (room : table.entries.len < maxRedirectFlows)
    : (table.enter key listenerPort now).entries.len ≤ maxRedirectFlows := by
  simp only [enter]
  cases table.reverse.get (key.reverse listenerPort) with
  | none =>
    rw [Option.elim_none, len_insert_of_none absent]
    exact room
  | some held =>
    have fewer := len_entries_remove_le
      { table with reverse := table.reverse.insert (key.reverse listenerPort) key } held
    have still
        : (RedirectFlowTable.remove
            { table with reverse := table.reverse.insert (key.reverse listenerPort) key }
            held).entries.get key = none := by
      rw [get_entries_remove]
      split
      · rfl
      · exact absent
    rw [Option.elim_some, len_insert_of_none still]
    exact Nat.lt_of_le_of_lt fewer room

theorem pairwise_append_last {queue} (sorted : queue.Pairwise fun left right => left.1 ≤ right.1)
    (earlier : ∀ pair ∈ queue, pair.1 ≤ now) (key : FlowKey)
    : (queue ++ [(now, key)]).Pairwise fun left right => left.1 ≤ right.1 := by
  rw [pairwise_append]
  refine ⟨sorted, pairwise_singleton _ _, fun pair member last found => ?_⟩
  cases mem_singleton.mp found
  exact earlier pair member

section

variable (inv : Inv clock table)
include inv

theorem Inv.mirrored_enter (absent : table.entries.get key = none) (reverse : ReverseFlowKey)
    (other : FlowKey)
    : (table.enter key listenerPort now).reverse.get reverse = some other
      ↔ ∃ flow, (table.enter key listenerPort now).entries.get other = some flow
          ∧ reverse = other.reverse flow.listenerPort := by
  rw [reverse_enter inv absent, get_insert, get_entries_enter]
  exact Mirrors.put inv.mirrored absent ⟨key.originalDestination, listenerPort, now⟩ reverse other

theorem Inv.enter (later : clock ≤ now) (absent : table.entries.get key = none)
    (room : table.entries.len < maxRedirectFlows)
    : Inv now (table.enter key listenerPort now) where
  size := len_entries_enter absent room
  mirrored := inv.mirrored_enter absent
  pending other flow found := by
    rw [get_entries_enter] at found
    rw [expiry_enter]
    split at found
    · next same =>
      cases found
      rw [same]
      exact mem_append_right _ (mem_singleton.mpr rfl)
    · split at found
      · cases found
      · exact mem_append_left _ (inv.pending other flow found)
  sorted := by
    rw [expiry_enter]
    exact pairwise_append_last inv.sorted (fun pair member =>
      (inv.seen pair member).trans later) key
  seen pair member := by
    rw [expiry_enter] at member
    rcases mem_append.mp member with earlier | last
    · exact (inv.seen pair earlier).trans later
    · cases mem_singleton.mp last
      exact Nat.le_refl _
  destination other flow found := by
    rw [get_entries_enter] at found
    split at found
    · next same =>
      cases found
      rw [same]
    · split at found
      · cases found
      · exact inv.destination other flow found

theorem Inv.insert (later : clock ≤ now) (key : FlowKey) (listenerPort : Port)
    : Inv now (table.insert key listenerPort now) := by
  have pruned : Inv clock ((table.prune now).remove key) := (inv.prune now).remove key
  obtain ⟨evicted, room, absent⟩ := evictLoop_spec _ rfl pruned
  exact evicted.enter later (absent key (by rw [get_entries_remove, if_pos rfl])) room

end

end Entering

section Touching

variable {table : RedirectFlowTable} {clock now : Instant} (order : EntryOrder)

theorem mem_compactExpiry {seen key}
    : (seen, key) ∈ (table.compactExpiry order).expiry
      ↔ ∃ flow, table.entries.get key = some flow ∧ flow.lastSeen = seen := by
  simp only [compactExpiry, mem_mergeSort, mem_map]
  constructor
  · rintro ⟨⟨found, flow⟩, member, same⟩
    cases same
    exact ⟨flow, mem_toPairs.mp ((order.perm _).mem_iff.mp member), rfl⟩
  · rintro ⟨flow, found, rfl⟩
    exact ⟨(key, flow), (order.perm _).mem_iff.mpr (mem_toPairs.mpr found), rfl⟩

theorem pairwise_compactExpiry
    : (table.compactExpiry order).expiry.Pairwise fun left right => left.1 ≤ right.1 := by
  have sorted
      : (table.compactExpiry order).expiry.Pairwise fun left right =>
          decide (left.1 ≤ right.1) = true :=
    pairwise_mergeSort (fun _ _ _ first second =>
        decide_eq_true ((of_decide_eq_true first).trans (of_decide_eq_true second)))
      (fun left right => by simpa using Nat.le_total left.1 right.1) _
  exact sorted.imp of_decide_eq_true

/-- The queue of a table before the pair of a flow that is seen again is added: the pairs of
all other flows are in it.
-/
theorem touch_queue (inv : Inv clock table) (later : clock ≤ now) {key flow}
    (found : table.entries.get key = some flow)
    : ∃ queue, table.touch order key now = { table with
              entries := table.entries.insert key { flow with lastSeen := now }
              expiry := queue ++ [(now, key)] }
        ∧ queue.Pairwise (fun left right => left.1 ≤ right.1)
        ∧ (∀ pair ∈ queue, pair.1 ≤ now)
        ∧ ∀ other current, other ≠ key → table.entries.get other = some current →
            (current.lastSeen, other) ∈ queue := by
  rw [touch, found]
  by_cases long : table.expiry.length ≥ maxRedirectExpiryEntries
  · simp only [long, if_true]
    refine ⟨_, rfl, pairwise_compactExpiry order, ?_, ?_⟩
    · rintro ⟨seen, other⟩ member
      obtain ⟨current, stored, rfl⟩ := (mem_compactExpiry order).mp member
      rw [get_insert] at stored
      split at stored
      · cases stored
        exact Nat.le_refl _
      · exact (inv.seen _ (inv.pending other current stored)).trans later
    · intro other current distinct stored
      refine (mem_compactExpiry order).mpr ⟨current, ?_, rfl⟩
      rw [get_insert_ne _ distinct, stored]
  · simp only [long, if_false]
    exact ⟨table.expiry, rfl, inv.sorted, fun pair member => (inv.seen pair member).trans later,
      fun other current distinct stored => inv.pending other current stored⟩

theorem Inv.touch (inv : Inv clock table) (later : clock ≤ now) (key : FlowKey)
    : Inv now (table.touch order key now) := by
  cases found : table.entries.get key with
  | none =>
    have unchanged : table.touch order key now = table := by rw [RedirectFlowTable.touch, found]
    rw [unchanged]
    exact { inv with seen := fun pair member => (inv.seen pair member).trans later }
  | some flow =>
    obtain ⟨queue, shape, sorted, earlier, others⟩ := touch_queue order inv later found
    rw [shape]
    exact {
      size := by
        rw [len_insert_of_some found]
        exact inv.size
      mirrored := fun reverse other => by
        rw [inv.mirrored, get_insert]
        split
        · next same =>
          rw [same, found]
          simp
        · rfl
      pending := fun other current stored => by
        rw [get_insert] at stored
        split at stored
        · next same =>
          cases stored
          rw [same]
          exact mem_append_right _ (mem_singleton.mpr rfl)
        · next distinct => exact mem_append_left _ (others other current distinct stored)
      sorted := pairwise_append_last sorted earlier key
      seen := fun pair member => by
        rcases mem_append.mp member with before | last
        · exact earlier pair before
        · cases mem_singleton.mp last
          exact Nat.le_refl _
      destination := fun other current stored => by
        rw [get_insert] at stored
        split at stored
        · next same =>
          cases stored
          rw [same]
          exact inv.destination key flow found
        · exact inv.destination other current stored }

/-- A flow that is seen again gets a new time, and no other flow changes. -/
theorem get_entries_touch (table : RedirectFlowTable) {key flow}
    (found : table.entries.get key = some flow) (other : FlowKey)
    : (table.touch order key now).entries.get other
      = if other = key then some { flow with lastSeen := now } else table.entries.get other := by
  rw [touch, found]
  by_cases long : table.expiry.length ≥ maxRedirectExpiryEntries
  · simp [long, compactExpiry, get_insert]
  · simp [long, get_insert]

theorem reverse_touch (table : RedirectFlowTable) (key : FlowKey)
    : (table.touch order key now).reverse = table.reverse := by
  rw [touch]
  split
  · rfl
  · simp only
    split <;> rfl

end Touching

section Lookups

variable {table : RedirectFlowTable} {clock now : Instant} (order : EntryOrder)

section

variable (inv : Inv clock table)
include inv

theorem Inv.outboundListener (later : clock ≤ now) (key : FlowKey)
    : Inv now (table.outboundListener order key now).2 := by
  have pruned : Inv clock (table.prune now) := inv.prune now
  simp only [RedirectFlowTable.outboundListener]
  split
  · exact pruned.touch order later key
  · exact { pruned with seen := fun pair member => (pruned.seen pair member).trans later }

theorem Inv.inboundDestination (later : clock ≤ now) (reverse : ReverseFlowKey)
    : Inv now (table.inboundDestination order reverse now).2 := by
  have pruned : Inv clock (table.prune now) := inv.prune now
  have unused : Inv now (table.prune now) :=
    { pruned with seen := fun pair member => (pruned.seen pair member).trans later }
  simp only [RedirectFlowTable.inboundDestination]
  split
  · exact unused
  · split
    · exact pruned.touch order later _
    · exact unused

/-- A lookup by key finds a flow that is not idle for too long. -/
theorem outboundListener_fresh {key port}
    (found : (table.outboundListener order key now).1 = some port)
    : ∃ flow, table.entries.get key = some flow ∧ flow.listenerPort = port ∧ Fresh now flow := by
  simp only [RedirectFlowTable.outboundListener, get_entries_prune inv, Option.map_eq_some_iff,
    Option.filter_eq_some_iff, decide_eq_true_eq] at found
  obtain ⟨flow, ⟨stored, fresh⟩, same⟩ := found
  exact ⟨flow, stored, same, fresh⟩

/-- A lookup by reverse key finds a flow that is not idle for too long. -/
theorem inboundDestination_fresh {reverse destination}
    (found : (table.inboundDestination order reverse now).1 = some destination)
    : ∃ key flow, table.entries.get key = some flow ∧ key.reverse flow.listenerPort = reverse
        ∧ flow.originalDestination = destination ∧ Fresh now flow := by
  simp only [RedirectFlowTable.inboundDestination] at found
  split at found
  · cases found
  next key indexed =>
    obtain ⟨current, kept, shape⟩ := ((inv.prune now).mirrored _ _).mp indexed
    rw [kept] at found
    rw [get_entries_prune inv, Option.filter_eq_some_iff, decide_eq_true_eq] at kept
    exact ⟨key, current, kept.1, shape.symm, Option.some.inj found, kept.2⟩

end

end Lookups

end RedirectFlowTable

end NetTrap.Interceptor
