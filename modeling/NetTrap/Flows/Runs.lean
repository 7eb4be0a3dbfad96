import NetTrap.Flows.Invariants

/-! Histories of the flow manager. -/

namespace NetTrap.Flows

open Rust Net HashMap List

namespace FlowManager

variable {δ : Type} {manager : FlowManager δ} {config : FlowManagerConfig} {issued : List FlowId}

section Lookups

variable {key : FlowKey} {now : WallTime}

theorem Lagging.flowIsExpired (inv : Lagging config issued [] manager) (flow : Flow δ)
    (now : WallTime)
    : manager.flowIsExpired flow now = isExpiredAt now flow.updatedAt config.flowTimeout := by
  rw [FlowManager.flowIsExpired, inv.configured]

/-- An expired flow is removed for good, so that `get` and `update` need one turn. -/
theorem removeExpiredKeys_single {flow} (found : manager.flows.get key = some flow)
    : manager.removeExpiredKeys [(key, flow.updatedAt)]
      = (1, (manager.dropFlow key flow).settle [flow.id]) := by
  simp [removeExpiredKeys, removeExpiredLoop, found]

theorem get_removeExpiredLoop_of_none (absent : manager.flows.get key = none)
    (expiredKeys : List (FlowKey × WallTime)) (gone : List FlowId)
    : (removeExpiredLoop expiredKeys gone manager).2.flows.get key = none := by
  induction expiredKeys generalizing gone manager with
  | nil => exact absent
  | cons expired expiredKeys ih =>
    rw [removeExpiredLoop]
    split
    · exact ih absent gone
    · split
      · exact ih (get_remove_of_none _ absent _) _
      · exact ih absent gone

/-- A cleanup brings no flow back. -/
theorem get_maybeCleanup_of_none (absent : manager.flows.get key = none)
    (order : FlowIteration δ) (tick : Tick)
    : (manager.maybeCleanup order tick).flows.get key = none := by
  have removed := get_removeExpiredLoop_of_none absent
    (manager.collectExpiredKeys order tick.wall manager.config.flowTimeout) []
  rw [maybeCleanup, cleanupExpiredInternal, removeExpiredKeys]
  split
  · exact absent
  · dsimp only
    split <;> exact removed

variable (inv : Lagging config issued [] manager)

include inv

/-- One look finds a flow that has not expired, or leaves none under the key. -/
theorem lookOnce_cases (key : FlowKey) (now : WallTime)
    : (∃ flow, manager.lookOnce key now = (some flow, manager.countHit)
        ∧ isExpiredAt now flow.updatedAt config.flowTimeout = false)
      ∨ ∃ after, manager.lookOnce key now = (none, after) ∧ Lagging config issued [] after
          ∧ after.flows.get key = none := by
  rw [lookOnce]
  cases found : manager.flows.get key with
  | none => exact .inr ⟨manager, rfl, inv, found⟩
  | some flow =>
    simp only [inv.flowIsExpired]
    split
    · refine .inr ⟨_, rfl, inv.removeExpiredKeys _, ?_⟩
      rw [removeExpiredKeys_single found]
      exact get_remove_self _ _
    · next alive => exact .inl ⟨flow, rfl, Bool.eq_false_iff.mpr alive⟩

theorem getLoop_cases (looks : List WallTime)
    : Lagging config issued [] (getLoop key looks manager).2
      ∧ ∀ flow, (getLoop key looks manager).1 = some flow →
          ∃ now ∈ looks.head?, isExpiredAt now flow.updatedAt config.flowTimeout = false := by
  cases looks with
  | nil => exact ⟨inv, fun flow found => by cases found⟩
  | cons now later =>
    rw [getLoop]
    cases found : manager.flows.get key with
    | none => exact ⟨inv, fun flow found => by cases found⟩
    | some flow =>
      have removed := inv.removeExpiredKeys [(key, flow.updatedAt)]
      rw [removeExpiredKeys_single found] at removed
      simp only [inv.flowIsExpired, removeExpiredKeys_single found, gt_iff_lt,
        Nat.zero_lt_one, if_true]
      split
      · exact ⟨removed, fun flow found => by cases found⟩
      next alive =>
        refine ⟨inv.countHit, fun other same => ?_⟩
        cases same
        exact ⟨now, rfl, Bool.eq_false_iff.mpr alive⟩

/-- Changing a flow in place keeps its identity. -/
theorem Lagging.changeFlow {flow} (found : manager.flows.get key = some flow)
    (change : Flow δ → Flow δ) (written : WallTime)
    : Lagging config issued []
        { manager with flows := manager.flows.insert key (changeFlow flow change written) } := by
  have same := len_insert_of_some found (FlowManager.changeFlow flow change written)
  exact { inv with
    mirrored := fun id other => by
      rw [inv.mirrored, get_insert]
      split
      · next taken =>
        rw [taken, found]
        simp [FlowManager.changeFlow]
      · rfl
    capacity := by
      rw [same]
      exact inv.capacity
    counted := by
      rw [same]
      exact inv.counted }

theorem updateLoop_cases (change : Flow δ → Flow δ) (written : WallTime) (looks : List WallTime)
    : Lagging config issued [] (updateLoop key change written looks manager).2
      ∧ ∀ flow, (updateLoop key change written looks manager).1 = some flow →
          ∃ now ∈ looks.head?, ∃ old, manager.flows.get key = some old ∧ old.id = flow.id
            ∧ isExpiredAt now old.updatedAt config.flowTimeout = false := by
  cases looks with
  | nil => exact ⟨inv, fun flow found => by cases found⟩
  | cons now later =>
    rw [updateLoop]
    cases found : manager.flows.get key with
    | none => exact ⟨inv, fun flow found => by cases found⟩
    | some flow =>
      have removed := inv.removeExpiredKeys [(key, flow.updatedAt)]
      rw [removeExpiredKeys_single found] at removed
      simp only [inv.flowIsExpired, removeExpiredKeys_single found, gt_iff_lt,
        Nat.zero_lt_one, if_true]
      split
      · exact ⟨removed, fun flow found => by cases found⟩
      next alive =>
        refine ⟨inv.changeFlow found change written, fun other same => ?_⟩
        cases same
        exact ⟨now, rfl, flow, rfl, rfl, Bool.eq_false_iff.mpr alive⟩

end Lookups

section Clearing

/-- Clearing removes the flows under the keys, and counts them. -/
theorem clearLoop_spec (keys : List FlowKey) (removedFlows : Nat)
    (flows : HashMap FlowKey (Flow δ)) (bounded : removedFlows + flows.len ≤ u64Max)
    : (clearLoop keys removedFlows flows).1 + (clearLoop keys removedFlows flows).2.len
        = removedFlows + flows.len
      ∧ ∀ key, (clearLoop keys removedFlows flows).2.get key
          = if key ∈ keys then none else flows.get key := by
  induction keys generalizing removedFlows flows with
  | nil => exact ⟨rfl, fun key => by simp [clearLoop]⟩
  | cons first keys ih =>
    rw [clearLoop]
    cases found : flows.get first with
    | none =>
      have missing : flows.containsKey first = false := by
        rw [containsKey, found]
        rfl
      obtain ⟨counted, left⟩ := ih removedFlows flows bounded
      simp only [missing, Bool.false_eq_true, if_false]
      refine ⟨counted, fun key => ?_⟩
      rw [left]
      simp only [mem_cons]
      by_cases same : key = first
      · rw [same, found]
        simp
      · simp [same]
    | some flow =>
      have contained : flows.containsKey first = true := by
        rw [containsKey, found]
        rfl
      have fewer : (flows.remove first).len + 1 = flows.len :=
        len_remove_of_some found
      have unsaturated : saturatingAdd removedFlows 1 = removedFlows + 1 :=
        Nat.min_eq_left (by omega)
      obtain ⟨counted, left⟩ := ih (removedFlows + 1) (flows.remove first) (by omega)
      simp only [contained, if_true, unsaturated]
      refine ⟨by omega, fun key => ?_⟩
      rw [left, get_remove]
      simp only [mem_cons]
      by_cases same : key = first
      · simp [same]
      · simp [same]

theorem Lagging.clear (inv : Lagging config issued [] manager) (order : FlowIteration δ)
    : Lagging config issued [] (manager.clear order) := by
  have counted := inv.counted
  have small := inv.small
  have bounded := inv.bounded
  simp only [length_nil, Nat.add_zero] at counted
  obtain ⟨total, left⟩ :=
    clearLoop_spec ((order.run manager.flows.toPairs).map Prod.fst) 0 manager.flows (by omega)
  have nothing : ∀ key,
      (clearLoop ((order.run manager.flows.toPairs).map Prod.fst) 0 manager.flows).2.get key
        = none := by
    intro key
    rw [left]
    split
    · rfl
    next missing =>
      cases found : manager.flows.get key with
      | none => rfl
      | some flow =>
        have member := (order.perm _).mem_iff.mpr (mem_toPairs.mpr found)
        exact absurd (mem_map.mpr ⟨_, member, rfl⟩) missing
  have empty := len_eq_zero_of_get nothing
  have unsaturated
      : saturatingAdd manager.stats.totalFlowsClosed
          (clearLoop ((order.run manager.flows.toPairs).map Prod.fst) 0 manager.flows).1
        = manager.stats.totalFlowsClosed + manager.flows.len := by
    rw [saturatingAdd, show (clearLoop ((order.run manager.flows.toPairs).map Prod.fst) 0
      manager.flows).1 = manager.flows.len by omega]
    exact Nat.min_eq_left (by omega)
  exact { inv with
    mirrored := fun id key => by
      simp only [FlowManager.clear, get_empty, nothing]
      simp
    ordered := fun id => by simp [FlowManager.clear]
    creation := nil_sublist _
    recent := fun id member => by cases member
    recentSize := Nat.zero_le _
    lost := ⟨nodup_nil, fun id member => by cases member⟩
    capacity := by
      simp only [FlowManager.clear, empty]
      exact Nat.zero_le _
    counted := by
      simp only [FlowManager.clear, empty, unsaturated, length_nil]
      exact counted }

end Clearing

section Creating

variable {key : FlowKey} {input : CreateInput δ}

/-- A new flow is the last one of the creation order, and a flow that had to make room for it
was the first one.
-/
theorem createFlow_spec (inv : Lagging config issued [] manager)
    (absent : manager.flows.get key = none) (distinct : (issued ++ [input.id]).Nodup)
    (bounded : (issued ++ [input.id]).length ≤ u64Max)
    : Lagging config (issued ++ [input.id]) [] (manager.createFlow key input).manager
      ∧ ((manager.createFlow key input).evicted.map (·.id)
          ++ (manager.createFlow key input).manager.flowOrder).Sublist (issued ++ [input.id])
      ∧ ((manager.createFlow key input).evicted ≠ [] →
          (manager.createFlow key input).manager.flows.len = config.maxFlows) := by
  let flow := newFlow input.id input.fiveTuple input.created input.rest
  simp only [createFlow]
  rcases enforceMaxFlows_cases input.order inv with
    ⟨room, stays⟩ | ⟨oldKey, old, found, full, evicted, front⟩
  · have entered : Lagging config (issued ++ [flow.id]) [] (manager.insertFlow key flow) :=
      inv.insertFlow absent room distinct bounded
    rw [stays]
    refine ⟨entered, ?_, fun evicting => absurd rfl evicting⟩
    exact inv.creation.append (List.Sublist.refl _)
  · have kept := inv.removeInternal oldKey
    have fewer : (manager.flows.remove oldKey).len + 1 = manager.flows.len :=
      len_remove_of_some found
    have flows : (manager.removeInternal oldKey).2.flows = manager.flows.remove oldKey := by
      rw [removeInternal, found]
      rfl
    have missing : (manager.removeInternal oldKey).2.flows.get key = none := by
      rw [flows]
      exact get_remove_of_none _ absent oldKey
    have entered
        : Lagging config (issued ++ [flow.id]) []
            ((manager.removeInternal oldKey).2.insertFlow key flow) :=
      kept.insertFlow missing (by rw [flows]; omega) distinct bounded
    rw [evicted]
    refine ⟨entered, ?_, fun _ => ?_⟩
    · have before := inv.creation
      rw [front] at before
      exact before.append (List.Sublist.refl _)
    · simp only [insertFlow, recordNewFlow]
      rw [len_insert_of_none missing, flows]
      omega

/-- The flow that `get_or_create` returns is new, or had not expired at the first look. -/
def ReturnsAlive (config : FlowManagerConfig) (input : CreateInput δ) (flow : Flow δ) : Prop :=
  flow = newFlow input.id input.fiveTuple input.created input.rest
  ∨ isExpiredAt input.firstLook flow.updatedAt config.flowTimeout = false

theorem getOrCreate_spec (hash : FiveTuple → FlowKey) (inv : Lagging config issued [] manager)
    (distinct : (issued ++ [input.id]).Nodup) (bounded : (issued ++ [input.id]).length ≤ u64Max)
    : Lagging config (issued ++ [input.id]) [] (manager.getOrCreate hash input).manager
      ∧ ((manager.getOrCreate hash input).evicted.map (·.id)
          ++ (manager.getOrCreate hash input).manager.flowOrder).Sublist (issued ++ [input.id])
      ∧ ((manager.getOrCreate hash input).evicted ≠ [] →
          (manager.getOrCreate hash input).manager.flows.len = config.maxFlows)
      ∧ ∀ flow ∈ (manager.getOrCreate hash input).returned, ReturnsAlive config input flow := by
  -- A flow that is found is returned without any change to the flows.
  have hit : ∀ {other : FlowManager δ}, Lagging config issued [] other →
      Lagging config (issued ++ [input.id]) [] other.countHit
      ∧ (map (·.id) ([] : List (Flow δ)) ++ other.countHit.flowOrder).Sublist
          (issued ++ [input.id]) := by
    intro other kept
    exact ⟨kept.countHit.issue distinct bounded, kept.creation.trans (sublist_append_left _ _)⟩
  have cleaned := inv.maybeCleanup input.order input.first
  simp only [getOrCreate]
  rcases lookOnce_cases cleaned (hash input.fiveTuple) input.firstLook with
    ⟨flow, found, alive⟩ | ⟨after, looked, kept, missing⟩
  · rw [found]
    obtain ⟨lagging, order⟩ := hit cleaned
    refine ⟨lagging, order, fun evicting => absurd rfl evicting, fun other same => ?_⟩
    cases same
    exact .inr alive
  -- What was not found at the first look is not found at the second one.
  have again := kept.maybeCleanup input.order input.second
  have absent := get_maybeCleanup_of_none missing input.order input.second
  have second : (after.maybeCleanup input.order input.second).lookOnce (hash input.fiveTuple)
      input.secondLook = (none, after.maybeCleanup input.order input.second) := by
    rw [lookOnce, absent]
  rw [looked]
  simp only [second]
  obtain ⟨lagging, order, full⟩ := createFlow_spec again absent distinct bounded
  refine ⟨lagging, order, full, fun other same => .inl ?_⟩
  cases same
  rfl

end Creating

/-- The operations of a history, with what they read from their surroundings. -/
inductive Operation (δ : Type) where
  | getOrCreate (input : CreateInput δ)
  | get (order : FlowIteration δ) (key : FlowKey) (tick : Tick) (looks : List WallTime)
  | update (order : FlowIteration δ) (key : FlowKey) (change : Flow δ → Flow δ) (tick : Tick)
      (looks : List WallTime) (written : WallTime)
  | remove (order : FlowIteration δ) (key : FlowKey) (tick : Tick)
  | cleanupExpired (order : FlowIteration δ) (timeout : Nat) (tick : Tick)
  | clear (order : FlowIteration δ)

namespace Operation

/-- The identifier that an operation draws if it creates a flow. -/
def drawn : Operation δ → Option FlowId
  | getOrCreate input => some input.id
  | _ => none

def apply (hash : FiveTuple → FlowKey) (manager : FlowManager δ) : Operation δ → Outcome δ
  | getOrCreate input => manager.getOrCreate hash input
  | get order key tick looks =>
    let (returned, manager) := manager.get order key tick looks
    ⟨returned, [], manager⟩
  | update order key change tick looks written =>
    let (returned, manager) := manager.update order key change tick looks written
    ⟨returned, [], manager⟩
  | remove order key tick =>
    let (returned, manager) := manager.remove order key tick
    ⟨returned, [], manager⟩
  | cleanupExpired order timeout tick =>
    ⟨none, [], (manager.cleanupExpired order timeout tick).2⟩
  | clear order => ⟨none, [], manager.clear order⟩

/-- The flow that a lookup returns had not expired at the first reading of the clock that the
lookup took after its cleanup. -/
def NeverExpired (config : FlowManagerConfig) (manager : FlowManager δ) (returned : Option (Flow δ))
    : Operation δ → Prop
  | getOrCreate input => ∀ flow ∈ returned, ReturnsAlive config input flow
  | get _ _ _ looks =>
    ∀ flow ∈ returned,
      ∃ now ∈ looks.head?, isExpiredAt now flow.updatedAt config.flowTimeout = false
  | update order key _ tick looks _ =>
    ∀ flow ∈ returned, ∃ now ∈ looks.head?, ∃ old,
      (manager.maybeCleanup order tick).flows.get key = some old ∧ old.id = flow.id
      ∧ isExpiredAt now old.updatedAt config.flowTimeout = false
  | _ => True

end Operation

/-- The state after a history that starts with a new manager. -/
def history (hash : FiveTuple → FlowKey) (config : FlowManagerConfig) (instant : Nat)
    (operations : List (Operation δ)) : FlowManager δ :=
  operations.foldl (fun manager operation => (operation.apply hash manager).manager)
    (new config instant)

/-- What holds of a manager that was made with `config`, after the identifiers `issued` were
drawn.
-/
structure Consistent (config : FlowManagerConfig) (issued : List FlowId)
    (manager : FlowManager δ) : Prop where
  /-- The index is the inverse of the flows. -/
  mirrored : ∀ id key,
    manager.flowIndex.get id = some key
    ↔ ∃ flow, manager.flows.get key = some flow ∧ flow.id = id
  /-- The creation order holds the live flows once each, in the order of their creation. -/
  ordered : ∀ id, id ∈ manager.flowOrder
    ↔ ∃ key flow, manager.flows.get key = some flow ∧ flow.id = id
  unique : manager.flowOrder.Nodup
  creation : manager.flowOrder.Sublist issued
  recent : manager.recentFlows.length ≤ 1000
    ∧ ∀ id ∈ manager.recentFlows, ∃ key flow, manager.flows.get key = some flow ∧ flow.id = id
  capacity : manager.flows.len ≤ max config.maxFlows 1
  counted : manager.stats.totalFlowsCreated
    = manager.stats.totalFlowsClosed + manager.flows.len

theorem Lagging.consistent
    (inv : Lagging { config with maxFlows := max config.maxFlows 1 } issued [] manager)
    : Consistent config issued manager := by
  have live : ∀ id, (manager.flowIndex.get id).isSome = true
      ↔ ∃ key flow, manager.flows.get key = some flow ∧ flow.id = id := by
    intro id
    rw [Option.isSome_iff_exists]
    exact exists_congr fun key => inv.mirrored id key
  exact {
    mirrored := inv.mirrored
    ordered := fun id => by
      rw [inv.ordered, live]
      simp
    unique := inv.creation.nodup inv.distinct
    creation := inv.creation
    recent := ⟨inv.recentSize, fun id member =>
      (live id).mp ((inv.recent id member).resolve_right not_mem_nil)⟩
    capacity := inv.capacity
    counted := inv.counted }

theorem lagging_new (config : FlowManagerConfig) (instant : Nat)
    : Lagging { config with maxFlows := max config.maxFlows 1 } [] []
        (new config instant : FlowManager δ) where
  mirrored id key := by simp [new]
  ordered id := by simp [new]
  creation := nil_sublist _
  distinct := nodup_nil
  recent id member := by cases member
  recentSize := Nat.zero_le _
  lost := ⟨nodup_nil, fun id member => by cases member⟩
  capacity := Nat.zero_le _
  configured := rfl
  positive := Nat.le_max_right _ _
  counted := rfl
  small := Nat.zero_le _
  bounded := Nat.zero_le _

/-- What one operation does to a manager, and what it returns. -/
structure Operation.Sound (config : FlowManagerConfig) (issued : List FlowId)
    (manager : FlowManager δ) (operation : Operation δ) (outcome : Outcome δ) : Prop where
  lagging : Lagging config issued [] outcome.manager
  /-- What had to make room was created before everything that stays. -/
  evicted : (outcome.evicted.map (·.id) ++ outcome.manager.flowOrder).Sublist issued
  full : outcome.evicted ≠ [] → outcome.manager.flows.len = config.maxFlows
  alive : operation.NeverExpired config manager outcome.returned

/-- An operation that draws no identifier and evicts nothing. -/
theorem Operation.Sound.plain {operation : Operation δ} {returned : Option (Flow δ)}
    {after : FlowManager δ} (lagging : Lagging config issued [] after)
    (alive : operation.NeverExpired config manager returned)
    : operation.Sound config issued manager ⟨returned, [], after⟩ :=
  ⟨lagging, lagging.creation, fun evicting => absurd rfl evicting, alive⟩

theorem Lagging.apply (hash : FiveTuple → FlowKey) (inv : Lagging config issued [] manager)
    (operation : Operation δ) (distinct : (issued ++ operation.drawn.toList).Nodup)
    (bounded : (issued ++ operation.drawn.toList).length ≤ u64Max)
    : operation.Sound config (issued ++ operation.drawn.toList) manager
        (operation.apply hash manager) := by
  have plain {after : FlowManager δ} (lagging : Lagging config issued [] after)
      : Lagging config (issued ++ (none : Option FlowId).toList) [] after := by
    rwa [Option.toList_none, append_nil]
  cases operation with
  | getOrCreate input =>
    obtain ⟨lagging, order, full, alive⟩ := getOrCreate_spec hash inv distinct bounded
    exact ⟨lagging, order, full, alive⟩
  | get order key tick looks =>
    obtain ⟨lagging, alive⟩ := getLoop_cases (inv.maybeCleanup order tick) looks
    exact .plain (plain lagging) alive
  | update order key change tick looks written =>
    obtain ⟨lagging, alive⟩ :=
      updateLoop_cases (inv.maybeCleanup order tick) change written looks
    exact .plain (plain lagging) alive
  | remove order key tick =>
    exact .plain (plain ((inv.maybeCleanup order tick).removeInternal key)) trivial
  | cleanupExpired order timeout tick =>
    have lagging :=
      (inv.cleanupExpiredInternal order tick.wall timeout).withLastCleanup tick.instant
    exact .plain (plain lagging) trivial
  | clear order => exact .plain (plain (inv.clear order)) trivial

/-- The identifiers that a history draws. -/
def drawnBy (operations : List (Operation δ)) : List FlowId :=
  operations.flatMap fun operation => operation.drawn.toList

theorem length_drawnBy_le (operations : List (Operation δ))
    : (drawnBy operations).length ≤ operations.length := by
  induction operations with
  | nil => exact Nat.le_refl _
  | cons operation operations ih =>
    have one : operation.drawn.toList.length ≤ 1 := by
      cases operation.drawn <;> simp
    rw [drawnBy, flatMap_cons, length_append, length_cons]
    rw [drawnBy] at ih
    omega

theorem drawnBy_append (operations : List (Operation δ)) (operation : Operation δ)
    : drawnBy (operations ++ [operation]) = drawnBy operations ++ operation.drawn.toList := by
  simp [drawnBy]

/-- Histories keep the invariant, by induction on the operations. -/
theorem lagging_history (hash : FiveTuple → FlowKey) (config : FlowManagerConfig)
    (instant : Nat) {operations : List (Operation δ)} (distinct : (drawnBy operations).Nodup)
    (few : operations.length ≤ u64Max)
    : Lagging { config with maxFlows := max config.maxFlows 1 } (drawnBy operations) []
        (history hash config instant operations) := by
  induction operations using reverseRecOn with
  | nil => exact lagging_new config instant
  | append_singleton operations operation ih =>
    have bounded := (length_drawnBy_le (operations ++ [operation])).trans few
    rw [drawnBy_append] at distinct bounded
    rw [length_append] at few
    have before := ih (nodup_append.mp distinct).1 (by omega)
    rw [drawnBy_append, history, foldl_append]
    exact (before.apply hash operation distinct bounded).lagging

/-- After each operation of a history the manager is consistent; a lookup returns no flow that
had expired; and a flow that had to make room was created before all others.
-/
theorem history_consistent (hash : FiveTuple → FlowKey) (config : FlowManagerConfig)
    (instant : Nat) (operations : List (Operation δ)) (operation : Operation δ)
    (distinct : (drawnBy (operations ++ [operation])).Nodup)
    (few : (operations ++ [operation]).length < 2 ^ 64) {manager : FlowManager δ}
    (reached : history hash config instant operations = manager) {outcome : Outcome δ}
    (applied : operation.apply hash manager = outcome)
    : Consistent config (drawnBy (operations ++ [operation])) outcome.manager
      ∧ operation.NeverExpired config manager outcome.returned
      ∧ (outcome.evicted.map (·.id) ++ outcome.manager.flowOrder).Sublist
          (drawnBy (operations ++ [operation]))
      ∧ (outcome.evicted ≠ [] → outcome.manager.flows.len = max config.maxFlows 1) := by
  subst reached applied
  have bounded := (length_drawnBy_le (operations ++ [operation])).trans (Nat.le_pred_of_lt few)
  have shorter : operations.length ≤ u64Max := by
    rw [List.length_append, List.length_singleton] at few
    rw [u64Max]
    omega
  rw [drawnBy_append] at distinct bounded ⊢
  have before : Lagging { config with maxFlows := max config.maxFlows 1 } (drawnBy operations) []
      (history hash config instant operations) :=
    lagging_history hash config instant (List.nodup_append.mp distinct).1 shorter
  have sound := before.apply hash operation distinct bounded
  refine ⟨sound.lagging.consistent, ?_, sound.evicted, sound.full⟩
  have alive := sound.alive
  cases operation <;> exact alive

section Samples

def sampleTuple : FiveTuple :=
  .new (.v4 (.new 10 0 0 2)) (.v4 (.new 9 9 9 9)) 40000 53 .udp

/-- A flow that was created at a wall time, with no cleanup due. -/
def sampleCreation (wall : WallTime) : Operation Unit :=
  .getOrCreate ⟨sampleTuple, .stored _, ⟨0, wall⟩, wall, ⟨0, wall⟩, wall, wall, 7, ()⟩

/-- Flows expire after 300 s, and cleanups are 30 s apart. -/
def sampleConfig : FlowManagerConfig :=
  ⟨100000, 30000000000, 300000000000⟩

/-- Ports stand in for hashes. -/
def portHash (tuple : FiveTuple) : FlowKey :=
  .ofNat tuple.srcPort

/-- A flow of its own port, asked for at a wall time when the other clock reads the same. -/
def sampleEntry (port : Port) (id : FlowId) (now : Nat) : Operation Unit :=
  .getOrCreate ⟨{ sampleTuple with srcPort := port }, .stored _, ⟨now, now⟩, now, ⟨now, now⟩, now,
    now, id, ()⟩

/-- The first flow is removed, and the second one has expired when it is looked up. -/
def sampleHistory : List (Operation Unit) :=
  [sampleEntry 40000 7 0, sampleEntry 40001 8 0, .remove (.stored _) 40000 ⟨1, 1⟩,
    sampleEntry 40002 9 299000000000,
    .get (.stored _) 40001 ⟨300000000000, 300000000000⟩ [300000000000],
    sampleEntry 40003 10 301000000000]

/-- There is room for two flows, so that a further one evicts the third. -/
def sampleOutcome : Outcome Unit :=
  (sampleEntry 40004 11 302000000000).apply portHash
    (history portHash { sampleConfig with maxFlows := 2 } 0 sampleHistory)

theorem history_consistent_sample
    : sampleOutcome.evicted.map (·.id) = [9] ∧ sampleOutcome.manager.flowOrder = [10, 11]
      ∧ Consistent { sampleConfig with maxFlows := 2 } [7, 8, 9, 10, 11] sampleOutcome.manager
      ∧ (sampleOutcome.evicted ≠ [] → sampleOutcome.manager.flows.len = 2) := by
  obtain ⟨consistent, -, -, full⟩ :=
    history_consistent portHash { sampleConfig with maxFlows := 2 } 0 sampleHistory
      (sampleEntry 40004 11 302000000000) (by decide) (by decide) rfl rfl
  exact ⟨by decide +kernel, by decide +kernel, consistent, full⟩

/-- A flow expires after 300 s. The cleanup at 299 s leaves it, the next one is not due at
301 s, and `remove` returns it then.
-/
theorem remove_returns_expired
    : ((Operation.remove (.stored _) 1 ⟨301000000000, 301000000000⟩).apply (fun _ => 1)
        (history (fun _ => 1) sampleConfig 0
          [sampleCreation 0, .get (.stored _) 2 ⟨299000000000, 299000000000⟩ []])).returned.map
        (fun flow => isExpiredAt 301000000000 flow.updatedAt sampleConfig.flowTimeout)
      = some true := by
  decide +kernel

end Samples

end FlowManager

end NetTrap.Flows
