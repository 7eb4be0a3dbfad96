import NetTrap.Interceptor.RedirectTable

/-! Runs of the table of redirected flows, and its limits. -/

namespace NetTrap.Interceptor

open Rust Net List

namespace RedirectFlowTable

inductive Operation where
  | insert (key : FlowKey) (listenerPort : Port)
  | outboundListener (key : FlowKey)
  | inboundDestination (key : ReverseFlowKey)

/-- An operation, when it happens, and the order in which it would iterate over the flows. -/
structure Call where
  operation : Operation
  now : Instant
  order : EntryOrder

namespace Call

def apply (table : RedirectFlowTable) (call : Call) : RedirectFlowTable :=
  match call.operation with
  | .insert key listenerPort => table.insert key listenerPort call.now
  | .outboundListener key => (table.outboundListener call.order key call.now).2
  | .inboundDestination key => (table.inboundDestination call.order key call.now).2

/-- What a lookup answers comes from a flow of the table that is not idle for too long. -/
def AnswersFresh (table : RedirectFlowTable) (call : Call) : Prop :=
  match call.operation with
  | .insert _ _ => True
  | .outboundListener key =>
    ∀ port, (table.outboundListener call.order key call.now).1 = some port →
      ∃ flow, table.entries.get key = some flow ∧ flow.listenerPort = port
        ∧ call.now - flow.lastSeen < redirectFlowIdleTimeout
  | .inboundDestination reverse =>
    ∀ destination,
      (table.inboundDestination call.order reverse call.now).1 = some destination →
      ∃ key flow, table.entries.get key = some flow ∧ key.reverse flow.listenerPort = reverse
        ∧ flow.originalDestination = destination
        ∧ call.now - flow.lastSeen < redirectFlowIdleTimeout

/-- The flow that a call enters. -/
def inserted (call : Call) : Option FlowKey :=
  match call.operation with
  | .insert key _ => some key
  | _ => none

end Call

def run (calls : List Call) : RedirectFlowTable :=
  calls.foldl Call.apply empty

theorem run_append (calls : List Call) (call : Call)
    : run (calls ++ [call]) = call.apply (run calls) :=
  foldl_append

/-- One call keeps the invariant. -/
theorem Inv.apply {table clock} (inv : Inv clock table) (call : Call) (later : clock ≤ call.now)
    : Inv call.now (call.apply table) := by
  rw [Call.apply]
  split
  · exact inv.insert later _ _
  · exact inv.outboundListener call.order later _
  · exact inv.inboundDestination call.order later _

/-- Runs keep the invariant, by induction on the calls. -/
theorem inv_run {calls} (ordered : calls.Pairwise fun earlier later => earlier.now ≤ later.now)
    {clock : Instant} (past : ∀ call ∈ calls, call.now ≤ clock)
    : Inv clock (run calls) := by
  induction calls using reverseRecOn generalizing clock with
  | nil => exact inv_empty clock
  | append_singleton calls call ih =>
    obtain ⟨before, -, last⟩ := pairwise_append.mp ordered
    have inv : Inv call.now (run calls) :=
      ih before fun earlier member => last earlier member call (mem_singleton.mpr rfl)
    have applied : Inv call.now (run (calls ++ [call])) := by
      rw [run_append]
      exact inv.apply call (Nat.le_refl _)
    have now : call.now ≤ clock := past call (by simp)
    exact { applied with seen := fun pair member => (applied.seen pair member).trans now }

/-- The table that the last call of a run meets. -/
theorem inv_run_last {calls call}
    (ordered : (calls ++ [call]).Pairwise fun earlier later => earlier.now ≤ later.now)
    : Inv call.now (run calls) := by
  obtain ⟨before, -, last⟩ := pairwise_append.mp ordered
  exact inv_run before fun earlier member => last earlier member call (mem_singleton.mpr rfl)

/-- After each call of a run the table is consistent, and lookups answer with fresh flows. -/
theorem run_consistent (calls : List Call) (call : Call)
    (ordered : (calls ++ [call]).Pairwise fun earlier later => earlier.now ≤ later.now)
    : call.AnswersFresh (run calls) ∧ (run (calls ++ [call])).Consistent := by
  have inv := inv_run_last ordered
  constructor
  · rw [Call.AnswersFresh]
    split
    · trivial
    · exact fun port found => outboundListener_fresh call.order inv found
    · exact fun destination found => inboundDestination_fresh call.order inv found
  · rw [run_append]
    exact (inv.apply call (Nat.le_refl _)).toConsistent

/-- A web request of a client. -/
def sampleKey : FlowKey :=
  ⟨6, ⟨.v4 (.new 10 0 0 2), 40000⟩, ⟨.v4 (.new 93 184 216 34), 80⟩⟩

theorem run_consistent_sample
    : (run [⟨.insert sampleKey 8080, 5, .stored _⟩,
        ⟨.outboundListener sampleKey, 7, .stored _⟩]).Consistent :=
  (run_consistent [⟨.insert sampleKey 8080, 5, .stored _⟩]
    ⟨.outboundListener sampleKey, 7, .stored _⟩ (by simp)).2

/-! Limits.
A lookup rebuilds a queue that has become too long, an `insert` does not. And an `insert` makes
room by the front of the queue, which may be an old pair of a flow that was seen again.
-/

open HashMap Option

variable {table : RedirectFlowTable} {clock now : Instant} {flow : RedirectFlow}

section Queues

variable (table : RedirectFlowTable) (key : FlowKey) (now : Instant)

/-- The queue without the pairs at its front that are too old. -/
def freshQueue : List (Instant × FlowKey) :=
  table.expiry.dropWhile fun pair => !decide (now - pair.1 < redirectFlowIdleTimeout)

/-- The number of live flows beside the one to insert. -/
def liveFlows : Nat :=
  (table.entries.retain fun name flow => name ≠ key && Fresh now flow).len

/-- The pair is of a live flow beside the one to insert. -/
def isLivePair (pair : Instant × FlowKey) : Bool :=
  pair.2 ≠ key && (table.entries.get pair.2).any fun flow => Fresh now flow

/-- The pairs that an `insert` leaves. If it has to make room, then the first pair of a live flow
goes, with what is in front of it. -/
def keptQueue : List (Instant × FlowKey) :=
  if maxRedirectFlows ≤ table.liveFlows key now then
    ((table.freshQueue now).dropWhile fun pair => !table.isLivePair key now pair).tail
  else table.freshQueue now

/-- The first pair of a live flow. -/
def frontPair : Option (Instant × FlowKey) :=
  (table.freshQueue now).find? (table.isLivePair key now)

/-- The first pair of a live flow that was not seen again after it. -/
def latestPair : Option (Instant × FlowKey) :=
  (table.freshQueue now).find? fun pair =>
    table.isLivePair key now pair
      && (table.entries.get pair.2).any fun flow => flow.lastSeen == pair.1

end Queues

/-- The pairs that `prune` drops are those at the front that are too old. -/
theorem expiry_pruneLoop (now : Instant) (queue : List (Instant × FlowKey)) {table}
    (shape : table.expiry = queue)
    : (pruneLoop now queue table).expiry
      = queue.dropWhile fun pair => !decide (now - pair.1 < redirectFlowIdleTimeout) := by
  induction queue generalizing table with
  | nil => exact shape
  | cons pair rest ih =>
    rw [pruneLoop, dropWhile_cons]
    by_cases recent : now - pair.1 < redirectFlowIdleTimeout
    · simp [recent, shape]
    · simp only [recent, if_false, decide_false, Bool.not_false, if_true]
      apply ih
      split
      · exact expiry_remove _ _
      · rfl

theorem expiry_prune (table : RedirectFlowTable) (now : Instant)
    : (table.prune now).expiry = table.freshQueue now :=
  expiry_pruneLoop now table.expiry rfl

theorem length_expiry_prune_le (table : RedirectFlowTable) (now : Instant)
    : (table.prune now).expiry.length ≤ table.expiry.length := by
  rw [expiry_prune]
  exact (dropWhile_sublist _).length_le

/-- In a full table it is enough to evict one flow. -/
theorem evictLoop_cons_of_some (full : table.entries.len = maxRedirectFlows) {pair}
    (front : table.entries.get pair.2 = some flow) (rest : List (Instant × FlowKey))
    : evictLoop (pair :: rest) table = remove { table with expiry := rest } pair.2 := by
  have fewer := len_remove_of_some front
  rw [evictLoop, if_pos full.ge, evictLoop_of_room]
  rw [remove, front]
  exact (by omega : (table.entries.remove pair.2).len < maxRedirectFlows)

/-- A pair of a flow that is gone is dropped without effect. -/
theorem evictLoop_cons_of_none (full : table.entries.len = maxRedirectFlows) {pair}
    (front : table.entries.get pair.2 = none) (rest : List (Instant × FlowKey))
    : evictLoop (pair :: rest) table = evictLoop rest { table with expiry := rest } := by
  have unchanged : remove { table with expiry := rest } pair.2 = { table with expiry := rest } :=
    remove_of_absent front
  rw [evictLoop, if_pos full.ge, unchanged]

/-- In a full table the first pair of a flow that is there goes, with what is in front of it; by
induction on the queue. -/
theorem evictLoop_full (queue : List (Instant × FlowKey)) {table} (shape : table.expiry = queue)
    (full : table.entries.len = maxRedirectFlows)
    : (evictLoop queue table).expiry
        = (queue.dropWhile fun pair => !(table.entries.get pair.2).isSome).tail
      ∧ ∀ victim flow, table.entries.get victim = some flow →
          ((evictLoop queue table).entries.get victim = none
            ↔ ∃ seen, queue.find? (fun pair => (table.entries.get pair.2).isSome)
                = some (seen, victim)) := by
  induction queue generalizing table with
  | nil => exact ⟨shape, fun victim flow found => by simp [evictLoop, found]⟩
  | cons pair rest ih =>
    rw [find?_cons, dropWhile_cons]
    cases front : table.entries.get pair.2 with
    | none =>
      rw [evictLoop_cons_of_none full front]
      exact @ih { table with expiry := rest } rfl full
    | some current =>
      rw [evictLoop_cons_of_some full front, expiry_remove]
      refine ⟨rfl, fun victim flow found => ?_⟩
      rw [get_entries_remove]
      by_cases same : victim = pair.2
      · simp only [same, if_true, isSome_some, some.injEq, true_iff]
        exact ⟨pair.1, rfl⟩
      · simp only [same, if_false, found, isSome_some, some.injEq, reduceCtorEq, false_iff]
        rintro ⟨seen, rfl⟩
        exact same rfl

/-- The table in which an `insert` makes room: it holds the live flows beside the one to insert. -/
theorem Inv.entries_opened (inv : Inv clock table) (key : FlowKey) (now : Instant) (name : FlowKey)
    : ((table.prune now).remove key).entries.get name
      = (table.entries.get name).filter fun flow => name ≠ key && Fresh now flow := by
  rw [get_entries_remove, get_entries_prune inv]
  by_cases same : name = key
  · simp [same]
  · simp [same]

theorem Inv.len_opened (inv : Inv clock table) (key : FlowKey) (now : Instant)
    : ((table.prune now).remove key).entries.len = table.liveFlows key now := by
  apply len_eq_of_get
  intro name
  rw [get_retain, inv.entries_opened]

theorem Inv.isLivePair_eq (inv : Inv clock table) (key : FlowKey) (now : Instant)
    : (fun pair : Instant × FlowKey =>
        (((table.prune now).remove key).entries.get pair.2).isSome) = table.isLivePair key now := by
  funext pair
  rw [inv.entries_opened, isLivePair]
  cases table.entries.get pair.2 with
  | none => simp
  | some flow => simp [Option.filter_some, apply_ite]

/-- What an `insert` does to the queue. -/
theorem Inv.expiry_insert (inv : Inv clock table) (key : FlowKey) (listenerPort : Port)
    (now : Instant)
    : (table.insert key listenerPort now).expiry = table.keptQueue key now ++ [(now, key)] := by
  have queue : ((table.prune now).remove key).expiry = table.freshQueue now := by
    rw [expiry_remove, expiry_prune]
  have size := ((inv.prune now).remove key).size
  rw [RedirectFlowTable.insert, expiry_enter, keptQueue]
  congr 1
  split
  next full =>
    rw [← inv.len_opened] at full
    rw [(evictLoop_full _ rfl (Nat.le_antisymm size full)).1, queue, ← inv.isLivePair_eq]
  next room =>
    rw [← inv.len_opened, Nat.not_le] at room
    rw [evictLoop_of_room _ room, queue]

/-- A flow that is seen again keeps the queue within its limit: the queue is rebuilt, with one
pair for each flow, before it would grow beyond that. -/
theorem length_expiry_touch_le (size : table.entries.len ≤ maxRedirectFlows)
    (short : table.expiry.length ≤ maxRedirectExpiryEntries) (order : EntryOrder) (key : FlowKey)
    (now : Instant)
    : (table.touch order key now).expiry.length ≤ maxRedirectExpiryEntries := by
  rw [touch]
  split
  · exact short
  next flow found =>
  by_cases long : table.expiry.length ≥ maxRedirectExpiryEntries
  · simp only [long, if_true, compactExpiry, length_append, length_mergeSort,
      length_map, (order.perm _).length_eq, length_toPairs,
      len_insert_of_some found]
    exact (Nat.succ_le_succ size).trans (by decide)
  · simp only [long, if_false, length_append]
    exact Nat.lt_of_not_le long

/-- Lookups keep the queue within its limit, and an `insert` does so if it leaves fewer pairs. -/
theorem Inv.length_apply_le (inv : Inv clock table) (call : Call)
    (short : table.expiry.length ≤ maxRedirectExpiryEntries)
    (room : ∀ key listenerPort, call.operation = .insert key listenerPort →
      (table.keptQueue key call.now).length < maxRedirectExpiryEntries)
    : (call.apply table).expiry.length ≤ maxRedirectExpiryEntries := by
  have pruned := (length_expiry_prune_le table call.now).trans short
  have size := (inv.prune call.now).size
  rw [Call.apply]
  split
  next key listenerPort operation =>
    rw [inv.expiry_insert, length_append]
    exact room key listenerPort operation
  next key operation =>
    rw [RedirectFlowTable.outboundListener]
    split
    · exact length_expiry_touch_le size pruned call.order key call.now
    · exact pruned
  next key operation =>
    rw [RedirectFlowTable.inboundDestination]
    split
    · exact pruned
    · simp only
      split
      · exact length_expiry_touch_le size pruned call.order _ call.now
      · exact pruned

/-- The queue is within its limit at all times exactly if no `insert` leaves as many pairs as the
limit allows, once the old ones are dropped and room is made.
Witness: induction on the calls. -/
theorem run_expiry_bounded (calls : List Call)
    (ordered : calls.Pairwise fun earlier later => earlier.now ≤ later.now)
    : (∀ before after, calls = before ++ after →
        (run before).expiry.length ≤ maxRedirectExpiryEntries)
      ↔ ∀ before call after key listenerPort, calls = before ++ call :: after →
          call.operation = .insert key listenerPort →
          ((run before).keptQueue key call.now).length < maxRedirectExpiryEntries := by
  constructor
  · intro bounded before call after key listenerPort split operation
    have prefixes : (before ++ [call]) ++ after = calls := by simp [split]
    rw [← prefixes] at ordered
    have short := bounded (before ++ [call]) after prefixes.symm
    rw [run_append, Call.apply, operation] at short
    simp only [(inv_run_last (List.pairwise_append.mp ordered).1).expiry_insert,
      List.length_append, List.length_singleton] at short
    exact short
  · intro room before
    induction before using List.reverseRecOn with
    | nil => exact fun _ _ => Nat.zero_le _
    | append_singleton before call ih =>
      intro after split
      rw [List.append_assoc] at split
      have short := ih ([call] ++ after) split
      rw [split, ← List.append_assoc] at ordered
      have inv := inv_run_last (List.pairwise_append.mp ordered).1
      rw [run_append]
      exact inv.length_apply_le call short fun key listenerPort =>
        room before call after key listenerPort split

/-- A flow is entered, seen, entered again and seen again, with another one in between. -/
def sampleCalls : List Call :=
  [⟨.insert sampleKey 8080, 5, .stored _⟩, ⟨.outboundListener sampleKey, 6, .stored _⟩,
    ⟨.insert { sampleKey with protocol := 17 } 8080, 7, .stored _⟩,
    ⟨.insert sampleKey 8080, 7, .stored _⟩,
    ⟨.inboundDestination (sampleKey.reverse 8080), 8, .stored _⟩]

theorem run_expiry_bounded_sample
    : (run sampleCalls).expiry.length ≤ maxRedirectExpiryEntries := by
  refine (run_expiry_bounded sampleCalls (by simp [sampleCalls])).mpr ?_ sampleCalls [] (by simp)
  intro before call after key listenerPort split operation
  -- each of the five calls is looked at
  have counted : before.length < 5 := by
    have length := congrArg List.length split
    simp only [List.length_append, List.length_cons] at length
    exact Nat.lt_of_lt_of_eq (by omega : before.length < sampleCalls.length) rfl
  have front : before = sampleCalls.take before.length := by simp [split]
  have last : sampleCalls[before.length]? = some call := by simp [split]
  have short : ∀ count < 5, ∀ call ∈ sampleCalls[count]?, ∀ key ∈ call.inserted,
      ((run (sampleCalls.take count)).keptQueue key call.now).length
          < maxRedirectExpiryEntries := by
    decide +kernel
  rw [front]
  exact short before.length counted call last key (by simp [Call.inserted, operation])

/-- No pair is too old before the first timeout has passed. -/
theorem prune_of_early (table : RedirectFlowTable) (early : now < redirectFlowIdleTimeout)
    : table.prune now = table := by
  rw [prune]
  cases table.expiry with
  | nil => rfl
  | cons pair rest => rw [pruneLoop, if_pos (Nat.lt_of_le_of_lt (Nat.sub_le _ _) early)]

theorem insert_of_room {key : FlowKey} (early : now < redirectFlowIdleTimeout)
    (room : (table.remove key).entries.len < maxRedirectFlows) (listenerPort : Port)
    : table.insert key listenerPort now = (table.remove key).enter key listenerPort now := by
  simp only [insert, prune_of_early table early, evictLoop_of_room _ room]

/-- The calls that enter these flows, all at one time. -/
def insertAll (keys : List FlowKey) : List Call :=
  keys.map fun key => ⟨.insert key 8080, 5, .stored _⟩

theorem insertAll_ordered (keys : List FlowKey)
    : (insertAll keys).Pairwise fun earlier later => earlier.now ≤ later.now :=
  pairwise_map.mpr (pairwise_of_forall fun _ _ => Nat.le_refl 5)

theorem run_insertAll_append (keys : List FlowKey) (key : FlowKey)
    : run (insertAll (keys ++ [key])) = (run (insertAll keys)).insert key 8080 5 := by
  rw [insertAll, map_append]
  exact run_append _ _

/-- Entering one flow again and again leaves a pair each time, by induction on how often. -/
theorem run_insertAll_replicate (key : FlowKey) (count : Nat)
    : (run (insertAll (.replicate count key))).expiry = .replicate count (5, key)
      ∧ ∀ other, other ≠ key →
          (run (insertAll (.replicate count key))).entries.get other = none := by
  induction count with
  | zero => exact ⟨rfl, fun other _ => get_empty other⟩
  | succ count ih =>
    obtain ⟨queue, alone⟩ := ih
    have nothing (other : FlowKey)
        : ((run (insertAll (.replicate count key))).remove key).entries.get other = none := by
      rw [get_entries_remove]
      split
      · rfl
      next distinct => exact alone other distinct
    rw [replicate_succ', run_insertAll_append, insert_of_room (by decide)]
    · constructor
      · rw [expiry_enter, expiry_remove, queue, replicate_succ']
      · intro other distinct
        rw [get_entries_enter, if_neg distinct, nothing]
        exact ite_self _
    · rw [len_eq_zero_of_get nothing]
      decide

/-- Nothing bounds the queue while one flow is entered again before it expires. -/
theorem run_expiry_unbounded
    : (run (insertAll (.replicate 16385 sampleKey))).expiry.length = maxRedirectExpiryEntries + 1
      ∧ (insertAll (.replicate 16385 sampleKey)).Pairwise
          fun earlier later => earlier.now ≤ later.now := by
  rw [(run_insertAll_replicate sampleKey 16385).1, List.length_replicate]
  exact ⟨rfl, insertAll_ordered _⟩

/-- What an `insert` removes to make room is a flow that was not seen for the longest time. -/
def EvictsOldest (table : RedirectFlowTable) (key : FlowKey) (now : Instant) : Prop :=
  let full := (table.prune now).remove key
  ∀ victim flow, full.entries.get victim = some flow →
    (evictLoop full.expiry full).entries.get victim = none →
    ∀ other live, full.entries.get other = some live → flow.lastSeen ≤ live.lastSeen

/-- The flow of a live pair is there when room is made. -/
theorem opened_of_live (inv : Inv clock table) {key name now}
    (live : (((table.prune now).remove key).entries.get name).isSome = true)
    : ∃ flow, ((table.prune now).remove key).entries.get name = some flow
        ∧ table.entries.get name = some flow := by
  obtain ⟨flow, found⟩ := Option.isSome_iff_exists.mp live
  refine ⟨flow, found, ?_⟩
  rw [inv.entries_opened] at found
  exact (Option.filter_eq_some_iff.mp found).1

/-- The latest pair is of a live flow that was last seen then. -/
theorem latestPair_spec (inv : Inv clock table) {key now time other}
    (latest : latestPair table key now = some (time, other))
    : ∃ live, ((table.prune now).remove key).entries.get other = some live
        ∧ live.lastSeen = time := by
  have holds := List.find?_some latest
  rw [Bool.and_eq_true, ← inv.isLivePair_eq] at holds
  obtain ⟨live, held, found⟩ := opened_of_live inv holds.1
  rw [found, Option.any_some, beq_iff_eq] at holds
  exact ⟨live, held, holds.2⟩

/-- No live flow was last seen before the time of the latest pair. -/
theorem latestPair_le (inv : Inv clock table) {key now other live}
    (opened : Inv clock ((table.prune now).remove key))
    (stored : ((table.prune now).remove key).entries.get other = some live)
    : ∃ time name, latestPair table key now = some (time, name) ∧ time ≤ live.lastSeen := by
  have pending := opened.pending other live stored
  have sorted := opened.sorted
  rw [expiry_remove, expiry_prune] at pending sorted
  have current : (table.isLivePair key now (live.lastSeen, other)
      && (table.entries.get other).any fun flow => flow.lastSeen == live.lastSeen) = true := by
    have alive : (((table.prune now).remove key).entries.get other).isSome = true := by
      rw [stored]
      rfl
    obtain ⟨_, held, found⟩ := opened_of_live inv alive
    cases stored.symm.trans held
    rw [← inv.isLivePair_eq, found]
    simp [alive]
  cases latest : latestPair table key now with
  | none => exact absurd current (by simpa using List.find?_eq_none.mp latest _ pending)
  | some pair =>
    refine ⟨pair.1, pair.2, rfl, ?_⟩
    obtain ⟨-, before, after, split, skipped⟩ := List.find?_eq_some_iff_append.mp latest
    rw [split] at pending sorted
    rcases List.mem_append.mp pending with early | late
    · have outdated := skipped _ early
      rw [current] at outdated
      cases outdated
    · rcases List.mem_cons.mp late with same | behind
      · rw [← same]
      · exact List.rel_of_pairwise_cons (List.pairwise_append.mp sorted).2.1 behind

/-- The flow that was not seen for the longest time is evicted, unless the table is full and the
flow of its front pair was seen after the time of the latest pair, the first one that is up to date.
Witness: the queue is sorted and has the latest pair of every live flow. -/
theorem run_evicts_oldest (calls : List Call) (key : FlowKey) (now : Instant)
    (ordered : calls.Pairwise fun earlier later => earlier.now ≤ later.now)
    (past : ∀ call ∈ calls, call.now ≤ now)
    : EvictsOldest (run calls) key now
      ↔ ¬ (maxRedirectFlows ≤ (run calls).liveFlows key now
          ∧ ∃ seen victim flow time other, frontPair (run calls) key now = some (seen, victim)
            ∧ (run calls).entries.get victim = some flow
            ∧ latestPair (run calls) key now = some (time, other) ∧ time < flow.lastSeen) := by
  have inv : Inv now (run calls) := inv_run ordered past
  have opened := (inv.prune now).remove key
  have queue : (((run calls).prune now).remove key).expiry = (run calls).freshQueue now := by
    rw [expiry_remove, expiry_prune]
  rw [← inv.len_opened, frontPair, ← queue, ← inv.isLivePair_eq]
  constructor
  · rintro evicts ⟨full, seen, victim, flow, time, other, front, stored, latest, older⟩
    have size := Nat.le_antisymm opened.size full
    have alive := List.find?_some front
    dsimp only at alive
    obtain ⟨_, held, found⟩ := opened_of_live inv alive
    obtain ⟨live, stays, current⟩ := latestPair_spec inv latest
    cases stored.symm.trans found
    have gone := ((evictLoop_full _ rfl size).2 victim flow held).mpr ⟨seen, front⟩
    have least := evicts victim flow held gone other live stays
    rw [current] at least
    exact absurd older (Nat.not_lt.mpr least)
  · intro recent victim flow found evicted other live stored
    by_contra older
    by_cases full : maxRedirectFlows ≤ (((run calls).prune now).remove key).entries.len
    · obtain ⟨seen, front⟩ :=
        ((evictLoop_full _ rfl (Nat.le_antisymm opened.size full)).2 victim flow found).mp evicted
      obtain ⟨time, name, latest, least⟩ := latestPair_le inv opened stored
      refine recent ⟨full, seen, victim, flow, time, name, front, ?_, latest,
        least.trans_lt (Nat.lt_of_not_le older)⟩
      rw [inv.entries_opened] at found
      exact (Option.filter_eq_some_iff.mp found).1
    · rw [evictLoop_of_room _ (Nat.lt_of_not_le full), found] at evicted
      cases evicted

/-- Flows of different clients are entered side by side, while there is room for all of them. -/
theorem run_insertAll_apart {keys}
    (apart : keys.Pairwise fun left right => left.client ≠ right.client)
    (room : keys.length ≤ maxRedirectFlows)
    : (run (insertAll keys)).expiry = keys.map (5, ·)
      ∧ (run (insertAll keys)).entries.len = keys.length
      ∧ ∀ key, (run (insertAll keys)).entries.get key
          = if key ∈ keys then some ⟨key.originalDestination, 8080, 5⟩ else none := by
  induction keys using reverseRecOn with
  | nil => exact ⟨rfl, rfl, get_empty⟩
  | append_singleton keys key ih =>
    obtain ⟨before, -, last⟩ := pairwise_append.mp apart
    rw [length_append, length_singleton] at room
    obtain ⟨queue, len, entries⟩ := ih before (Nat.le_of_succ_le room)
    have strange (other : FlowKey) (member : other ∈ keys) : other.client ≠ key.client :=
      last other member key (mem_singleton.mpr rfl)
    have absent : (run (insertAll keys)).entries.get key = none := by
      rw [entries, if_neg fun member => strange key member rfl]
    have inv : Inv 5 (run (insertAll keys)) :=
      inv_run (insertAll_ordered keys) fun call member => by
        obtain ⟨_, -, rfl⟩ := mem_map.mp member
        exact Nat.le_refl 5
    have unheld : (run (insertAll keys)).reverse.get (key.reverse 8080) = none := by
      rw [eq_none_iff_forall_ne_some]
      intro held indexed
      obtain ⟨flow, found, same⟩ := (inv.mirrored _ _).mp indexed
      rw [entries] at found
      split at found
      next member => exact strange held member (congrArg ReverseFlowKey.client same).symm
      · cases found
    rw [run_insertAll_append, insert_of_room (by decide) (by rw [remove_of_absent absent]; omega),
      remove_of_absent absent]
    refine ⟨?_, ?_, fun other => ?_⟩
    · rw [expiry_enter, queue, map_append]
      rfl
    · simp only [enter, unheld, elim_none]
      rw [len_insert_of_none absent, len, length_append, length_singleton]
    · rw [get_entries_enter, unheld, entries, if_neg (some_ne_none other).symm]
      simp only [mem_append, mem_singleton]
      by_cases same : other = key
      · simp [same]
      · simp [same]

/-- The web requests of one host. -/
def hostKey (port : Nat) : FlowKey :=
  { sampleKey with client.port := Fin.ofNat 65536 port }

/-- As many flows as the table takes. -/
def hostKeys : List FlowKey :=
  (List.range maxRedirectFlows).map hostKey

theorem run_hostKeys
    : (run (insertAll hostKeys)).expiry = hostKeys.map (5, ·)
      ∧ (run (insertAll hostKeys)).entries.len = maxRedirectFlows
      ∧ ∀ key, (run (insertAll hostKeys)).entries.get key
          = if key ∈ hostKeys then some ⟨key.originalDestination, 8080, 5⟩ else none := by
  have length : hostKeys.length = maxRedirectFlows := by
    rw [hostKeys, length_map, length_range]
  rw [← length]
  refine run_insertAll_apart (pairwise_map.mpr ?_) (Nat.le_of_eq length)
  refine pairwise_lt_range.imp_of_mem ?_
  intro left right _ bounded less same
  have ports : left % 65536 = right % 65536 := congrArg (fun client => client.port.val) same
  have small : right < 8192 := mem_range.mp bounded
  omega

/-- In a full table of flows that were each seen once, the oldest one has to go. -/
theorem run_evicts_oldest_hostKeys
    : EvictsOldest (run (insertAll hostKeys)) (hostKey maxRedirectFlows) 7 := by
  obtain ⟨queue, -, entries⟩ := run_hostKeys
  have past : ∀ call ∈ insertAll hostKeys, call.now ≤ 7 := by
    intro call member
    obtain ⟨_, -, rfl⟩ := List.mem_map.mp member
    exact (by decide : 5 ≤ 7)
  have pairs : ∀ {holds pair},
      ((run (insertAll hostKeys)).freshQueue 7).find? holds = some pair → pair.1 = 5 := by
    intro holds pair found
    have member := (List.dropWhile_sublist _).mem (List.mem_of_find?_eq_some found)
    rw [queue] at member
    obtain ⟨_, -, rfl⟩ := List.mem_map.mp member
    rfl
  refine (run_evicts_oldest _ _ _ (insertAll_ordered _) past).mpr ?_
  rintro ⟨-, seen, victim, flow, time, other, -, found, latest, older⟩
  rw [entries] at found
  split at found
  all_goals cases found
  rw [latestPair] at latest
  have same := pairs latest
  exact absurd older (Nat.not_lt.mpr (Nat.le_of_eq same.symm))

/-- If the pair at the front of a full table is of a flow that was just seen again, then that
flow is evicted before all others. -/
theorem not_evictsOldest_of_touched {key other new live seen rest} (order : EntryOrder)
    (full : table.entries.len = maxRedirectFlows) (queue : table.expiry = (seen, key) :: rest)
    (short : table.expiry.length < maxRedirectExpiryEntries)
    (found : table.entries.get key = some flow) (stored : table.entries.get other = some live)
    (absent : table.entries.get new = none) (older : live.lastSeen < now) (distinct : other ≠ key)
    (early : now < redirectFlowIdleTimeout)
    : ¬ EvictsOldest (table.outboundListener order key now).2 new now := by
  rw [queue] at short
  have touched : (table.outboundListener order key now).2 = { table with
          entries := table.entries.insert key { flow with lastSeen := now }
          expiry := (seen, key) :: (rest ++ [(now, key)]) } := by
    simp only [outboundListener, prune_of_early table early, found, map_some,
      isSome_some, if_true, touch, Nat.not_le.mpr short, if_false, queue,
      cons_append]
  have missing : new ≠ key := by
    rintro rfl
    rw [absent] at found
    cases found
  rw [touched]
  intro evicts
  simp only [EvictsOldest, prune_of_early _ early] at evicts
  rw [remove_of_absent (by rw [get_insert_ne _ missing, absent])] at evicts
  refine Nat.not_le.mpr older (evicts key _ (get_insert_self _ _ _) ?_ other live ?_)
  · rw [evictLoop_cons_of_some _ (get_insert_self _ _ _), get_entries_remove, if_pos rfl]
    rw [len_insert_of_some found, full]
  · rw [get_insert_ne _ distinct, stored]

/-- The table is filled up, and the flow that came first is seen again. -/
def touchedCalls : List Call :=
  insertAll hostKeys ++ [⟨.outboundListener (hostKey 0), 6, .stored _⟩]

theorem run_evicts_touched
    : (touchedCalls.Pairwise fun earlier later => earlier.now ≤ later.now)
      ∧ ¬ EvictsOldest (run touchedCalls) { sampleKey with protocol := 17 } 6 := by
  constructor
  · refine List.pairwise_append.mpr ⟨insertAll_ordered _, List.pairwise_singleton _ _, ?_⟩
    intro earlier member later last
    obtain ⟨_, -, rfl⟩ := List.mem_map.mp member
    cases List.mem_singleton.mp last
    exact (by decide : 5 ≤ 6)
  obtain ⟨queue, len, entries⟩ := run_hostKeys
  have front : hostKeys = hostKey 0 :: (List.range 8191).map (hostKey ∘ Nat.succ) := by
    rw [hostKeys, maxRedirectFlows, List.range_succ_eq_map, List.map_cons, List.map_map]
  have listed (port : Nat) (small : port < maxRedirectFlows) : hostKey port ∈ hostKeys :=
    List.mem_map_of_mem (List.mem_range.mpr small)
  have strange : { sampleKey with protocol := 17 } ∉ hostKeys := by
    intro member
    obtain ⟨port, -, same⟩ := List.mem_map.mp member
    exact absurd (congrArg FlowKey.protocol same) (by decide : (6 : UInt8) ≠ 17)
  rw [touchedCalls, run_append]
  refine not_evictsOldest_of_touched _ len (queue.trans (congrArg _ front)) ?_
    ((entries _).trans (if_pos (listed 0 (by decide))))
    ((entries _).trans (if_pos (listed 1 (by decide)))) ((entries _).trans (if_neg strange))
    (by decide) (by decide) (by decide)
  rw [queue, hostKeys, List.length_map, List.length_map, List.length_range]
  decide

end RedirectFlowTable

end NetTrap.Interceptor
