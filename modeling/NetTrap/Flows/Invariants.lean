import NetTrap.Flows.Manager

/-! What the pieces of the flow manager have to do with each other.
Flows are first dropped from the maps and then from the histories and the counters, so the
invariant speaks about the identifiers for which this is still to come.
-/

namespace NetTrap.Flows

open Rust Net HashMap List

namespace FlowManager

variable {δ : Type} {manager : FlowManager δ} {config : FlowManagerConfig}
  {issued gone : List FlowId}

/-- The flows in `gone` have left the maps, but not yet the histories and the counters.
`issued` holds the identifiers that were drawn, in this order.
-/
structure Lagging (config : FlowManagerConfig) (issued gone : List FlowId) (manager : FlowManager δ)
    : Prop where
  mirrored : ∀ id key,
    manager.flowIndex.get id = some key
    ↔ ∃ flow, manager.flows.get key = some flow ∧ flow.id = id
  ordered : ∀ id, id ∈ manager.flowOrder ↔ (manager.flowIndex.get id).isSome = true ∨ id ∈ gone
  creation : manager.flowOrder.Sublist issued
  distinct : issued.Nodup
  recent : ∀ id ∈ manager.recentFlows, (manager.flowIndex.get id).isSome = true ∨ id ∈ gone
  recentSize : manager.recentFlows.length ≤ 1000
  lost : gone.Nodup ∧ ∀ id ∈ gone, manager.flowIndex.get id = none
  capacity : manager.flows.len ≤ config.maxFlows
  configured : manager.config = config
  positive : 1 ≤ config.maxFlows
  counted : manager.stats.totalFlowsCreated
    = manager.stats.totalFlowsClosed + manager.flows.len + gone.length
  small : manager.stats.totalFlowsCreated ≤ issued.length
  bounded : issued.length ≤ u64Max

theorem Lagging.index_of_flow (inv : Lagging config issued gone manager) {key flow}
    (found : manager.flows.get key = some flow)
    : manager.flowIndex.get flow.id = some key :=
  (inv.mirrored _ _).mpr ⟨flow, found, rfl⟩

theorem Lagging.mirrors (inv : Lagging config issued gone manager)
    : Mirrors (fun _ flow => flow.id) manager.flowIndex.get manager.flows.get := by
  intro id key
  rw [inv.mirrored]
  simp only [eq_comm]

section Dropping

variable {key : FlowKey} {flow : Flow δ}

/-- Dropping a flow from the maps keeps them mirrored. -/
theorem Lagging.mirrored_dropFlow (inv : Lagging config issued gone manager)
    (found : manager.flows.get key = some flow) (id : FlowId) (other : FlowKey)
    : (manager.dropFlow key flow).flowIndex.get id = some other
      ↔ ∃ current, (manager.dropFlow key flow).flows.get other = some current
          ∧ current.id = id := by
  simp only [dropFlow, get_remove]
  refine (inv.mirrors.erase found id other).trans (exists_congr fun current => ?_)
  rw [eq_comm (a := id)]

theorem isSome_index_dropFlow (indexed : manager.flowIndex.get flow.id = some key) (id : FlowId)
    : (manager.flowIndex.get id).isSome = true
      ↔ ((manager.dropFlow key flow).flowIndex.get id).isSome = true ∨ id = flow.id := by
  simp only [dropFlow, get_remove]
  by_cases same : id = flow.id
  · rw [if_pos same, same, indexed]
    simp
  · simp [same]

theorem Lagging.dropFlow (inv : Lagging config issued gone manager)
    (found : manager.flows.get key = some flow)
    : Lagging config issued (flow.id :: gone) (manager.dropFlow key flow) := by
  have indexed := inv.index_of_flow found
  have fewer : (manager.flows.remove key).len + 1 = manager.flows.len :=
    len_remove_of_some found
  have counted := inv.counted
  have capacity := inv.capacity
  exact { inv with
    mirrored := inv.mirrored_dropFlow found
    ordered := fun id => by
      rw [mem_cons, ← or_assoc, ← isSome_index_dropFlow indexed]
      exact inv.ordered id
    recent := fun id member => by
      rw [mem_cons, ← or_assoc, ← isSome_index_dropFlow indexed]
      exact inv.recent id member
    lost := by
      have fresh : flow.id ∉ gone := by
        intro member
        rw [inv.lost.2 _ member] at indexed
        cases indexed
      refine ⟨nodup_cons.mpr ⟨fresh, inv.lost.1⟩, fun id member => ?_⟩
      simp only [FlowManager.dropFlow, get_remove]
      split
      · rfl
      next apart => exact inv.lost.2 id ((mem_cons.mp member).resolve_left apart)
    capacity := by
      simp only [FlowManager.dropFlow]
      omega
    counted := by
      simp only [FlowManager.dropFlow, length_cons]
      omega }

/-- The histories and the counters catch up. -/
theorem Lagging.settle (inv : Lagging config issued gone manager)
    : Lagging config issued [] (manager.settle gone) := by
  have counted := inv.counted
  have small := inv.small
  have bounded := inv.bounded
  have unsaturated : saturatingAdd manager.stats.totalFlowsClosed gone.length
      = manager.stats.totalFlowsClosed + gone.length :=
    Nat.min_eq_left (by omega)
  exact { inv with
    ordered := fun id => by
      simp only [FlowManager.settle, mem_filter, decide_eq_true_eq, not_mem_nil, or_false]
      rw [inv.ordered]
      constructor
      · rintro ⟨live | lost, kept⟩
        · exact live
        · exact absurd lost kept
      · intro live
        refine ⟨.inl live, fun member => ?_⟩
        rw [inv.lost.2 id member] at live
        cases live
    creation := filter_sublist.trans inv.creation
    recent := fun id member => by
      simp only [FlowManager.settle, mem_filter, decide_eq_true_eq] at member
      exact .inl ((inv.recent id member.1).resolve_right member.2)
    recentSize := (length_filter_le _ _).trans inv.recentSize
    lost := ⟨nodup_nil, fun id member => by cases member⟩
    counted := by
      simp only [FlowManager.settle, unsaturated, length_nil]
      omega }

theorem Lagging.removeInternal (inv : Lagging config issued [] manager) (key : FlowKey)
    : Lagging config issued [] (manager.removeInternal key).2 := by
  rw [FlowManager.removeInternal]
  split
  · exact inv
  · next flow found => exact (inv.dropFlow found).settle

/-- The loop over expired keys collects the identifiers that it drops. -/
theorem Lagging.removeExpiredLoop (expiredKeys : List (FlowKey × WallTime))
    (inv : Lagging config issued gone manager)
    : Lagging config issued (removeExpiredLoop expiredKeys gone manager).1
        (removeExpiredLoop expiredKeys gone manager).2 := by
  induction expiredKeys generalizing gone manager with
  | nil => exact inv
  | cons pair expiredKeys ih =>
    obtain ⟨key, observed⟩ := pair
    rw [FlowManager.removeExpiredLoop]
    split
    · exact ih inv
    · next flow found =>
      split
      · have fresh : flow.id ∉ gone := by
          intro member
          have indexed := inv.index_of_flow found
          rw [inv.lost.2 _ member] at indexed
          cases indexed
        rw [insert_of_not_mem fresh]
        exact ih (inv.dropFlow found)
      · exact ih inv

theorem Lagging.removeExpiredKeys (inv : Lagging config issued [] manager)
    (expiredKeys : List (FlowKey × WallTime))
    : Lagging config issued [] (manager.removeExpiredKeys expiredKeys).2 := by
  have collected := inv.removeExpiredLoop expiredKeys
  simp only [FlowManager.removeExpiredKeys]
  split
  · next empty =>
    rw [isEmpty_iff.mp empty] at collected
    exact collected
  · exact collected.settle

theorem Lagging.cleanupExpiredInternal (inv : Lagging config issued [] manager)
    (order : FlowIteration δ) (now : WallTime) (timeout : Nat)
    : Lagging config issued [] (manager.cleanupExpiredInternal order now timeout).2 :=
  inv.removeExpiredKeys _

/-- The time of the last cleanup is not part of the invariant. -/
theorem Lagging.withLastCleanup (inv : Lagging config issued gone manager) (instant : Nat)
    : Lagging config issued gone { manager with lastCleanup := instant } :=
  { inv with }

theorem Lagging.maybeCleanup (inv : Lagging config issued [] manager) (order : FlowIteration δ)
    (tick : Tick)
    : Lagging config issued [] (manager.maybeCleanup order tick) := by
  rw [FlowManager.maybeCleanup]
  split
  · exact inv
  · exact (inv.cleanupExpiredInternal order _ _).withLastCleanup _

theorem Lagging.countHit (inv : Lagging config issued gone manager)
    : Lagging config issued gone manager.countHit :=
  { inv with }

end Dropping

section Evicting

variable (order : FlowIteration δ)

/-- Without flows in the creation order there are no flows at all. -/
theorem Lagging.flows_get_of_order_nil (inv : Lagging config issued [] manager)
    (empty : manager.flowOrder = []) (key : FlowKey)
    : manager.flows.get key = none := by
  cases found : manager.flows.get key with
  | none => rfl
  | some flow =>
    have member : flow.id ∈ manager.flowOrder :=
      (inv.ordered _).mpr (.inl (by rw [inv.index_of_flow found]; rfl))
    rw [empty] at member
    cases member

/-- Taking the first identifier off the creation order is what removing its flow does
anyway.
-/
theorem removeInternal_popped {oldest rest} (inv : Lagging config issued [] manager)
    (front : manager.flowOrder = oldest :: rest) {key flow}
    (found : manager.flows.get key = some flow) (named : flow.id = oldest)
    : removeInternal { manager with flowOrder := rest } key = manager.removeInternal key
      ∧ (manager.removeInternal key).2.flowOrder = rest := by
  have nodup : (oldest :: rest).Nodup := front ▸ inv.creation.nodup inv.distinct
  have apart : rest.filter (· ∉ [flow.id]) = rest := by
    apply filter_eq_self.mpr
    intro id member
    rw [decide_eq_true_eq, mem_singleton, named]
    rintro rfl
    exact (nodup_cons.mp nodup).1 member
  have popped : manager.flowOrder.filter (· ∉ [flow.id]) = rest := by
    rw [front, filter_cons_of_neg (by simp [named]), apart]
  simp only [removeInternal, found, dropFlow, settle, popped, apart, and_self]

/-- Evicting removes the flow that was created first. -/
theorem evictOldestFlow_spec (inv : Lagging config issued [] manager)
    : (∃ key flow, manager.flows.get key = some flow
        ∧ manager.evictOldestFlow order = (some flow, (manager.removeInternal key).2)
        ∧ manager.flowOrder = flow.id :: (manager.removeInternal key).2.flowOrder)
      ∨ manager.flows.len = 0 := by
  rw [evictOldestFlow]
  cases front : manager.flowOrder with
  | nil => exact .inr (len_eq_zero_of_get (inv.flows_get_of_order_nil front))
  | cons oldest rest =>
    have member : oldest ∈ manager.flowOrder := by
      rw [front]
      exact mem_cons_self
    have live := (inv.ordered oldest).mp member
    simp only [not_mem_nil, or_false] at live
    obtain ⟨key, indexed⟩ := Option.isSome_iff_exists.mp live
    obtain ⟨flow, found, named⟩ := (inv.mirrored _ _).mp indexed
    obtain ⟨same, order⟩ := removeInternal_popped inv front found named
    refine .inl ⟨key, flow, found, ?_, by rw [order, named]⟩
    rw [evictLoop]
    simp only [indexed, same]
    simp only [removeInternal, found]

theorem enforceLoop_of_room (turns : Nat) (room : manager.flows.len < manager.config.maxFlows)
    : enforceLoop order turns manager = ([], manager) := by
  cases turns with
  | zero => rfl
  | succ turns => rw [enforceLoop, if_neg (Nat.not_le.mpr room)]

/-- Room is made by evicting the one flow that was created first, if it has to be made.
Witness: the manager holds no more flows than it may, so that one eviction suffices.
-/
theorem enforceMaxFlows_cases (inv : Lagging config issued [] manager)
    : manager.flows.len < config.maxFlows ∧ manager.enforceMaxFlows order = ([], manager)
      ∨ ∃ key flow, manager.flows.get key = some flow ∧ manager.flows.len = config.maxFlows
          ∧ manager.enforceMaxFlows order = ([flow], (manager.removeInternal key).2)
          ∧ manager.flowOrder = flow.id :: (manager.removeInternal key).2.flowOrder := by
  have positive := inv.positive
  have capacity := inv.capacity
  rw [enforceMaxFlows]
  by_cases room : manager.flows.len < config.maxFlows
  · exact .inl ⟨room, enforceLoop_of_room order _ (by rwa [inv.configured])⟩
  rcases evictOldestFlow_spec order inv with ⟨key, flow, found, evicted, front⟩ | empty
  · obtain ⟨turns, shape⟩ : ∃ turns, manager.flows.len = turns + 1 :=
      ⟨manager.flows.len - 1, by omega⟩
    have fewer : (manager.flows.remove key).len + 1 = manager.flows.len :=
      len_remove_of_some found
    have removed
        : (manager.removeInternal key).2.flows = manager.flows.remove key
          ∧ (manager.removeInternal key).2.config = config := by
      rw [removeInternal, found]
      exact ⟨rfl, inv.configured⟩
    have stops : enforceLoop order turns (manager.removeInternal key).2
        = ([], (manager.removeInternal key).2) :=
      enforceLoop_of_room order turns (by rw [removed.1, removed.2]; omega)
    refine .inr ⟨key, flow, found, by omega, ?_, front⟩
    rw [shape, enforceLoop, inv.configured, if_pos (Nat.not_lt.mp room), evicted]
    simp only [stops]
  · omega

end Evicting

section Inserting

variable {key : FlowKey} {flow : Flow δ}

theorem Lagging.issue (inv : Lagging config issued gone manager) {id : FlowId}
    (distinct : (issued ++ [id]).Nodup) (bounded : (issued ++ [id]).length ≤ u64Max)
    : Lagging config (issued ++ [id]) gone manager :=
  { inv with
    creation := inv.creation.trans (sublist_append_left _ _)
    distinct
    small := inv.small.trans (by simp)
    bounded }

section

variable (inv : Lagging config issued [] manager) (absent : manager.flows.get key = none)
include inv absent

theorem Lagging.mirrored_insertFlow (fresh : manager.flowIndex.get flow.id = none) (id : FlowId)
    (other : FlowKey)
    : (manager.flowIndex.insert flow.id key).get id = some other
      ↔ ∃ current, (manager.flows.insert key flow).get other = some current ∧ current.id = id := by
  have put := inv.mirrors.put absent flow id other
  rw [get_insert, get_insert]
  simpa [fresh, eq_comm] using put

theorem Lagging.insertFlow (room : manager.flows.len < config.maxFlows)
    (distinct : (issued ++ [flow.id]).Nodup) (bounded : (issued ++ [flow.id]).length ≤ u64Max)
    : Lagging config (issued ++ [flow.id]) [] (manager.insertFlow key flow) := by
  have unused : flow.id ∉ issued := fun member =>
    (nodup_append.mp distinct).2.2 _ member _ (mem_singleton.mpr rfl) rfl
  have fresh : manager.flowIndex.get flow.id = none := by
    cases indexed : manager.flowIndex.get flow.id with
    | none => rfl
    | some other =>
      have member : flow.id ∈ manager.flowOrder :=
        (inv.ordered _).mpr (.inl (by rw [indexed]; rfl))
      exact absurd (inv.creation.subset member) unused
  have live : ∀ id, ((manager.flowIndex.insert flow.id key).get id).isSome = true
      ↔ (manager.flowIndex.get id).isSome = true ∨ id = flow.id := by
    intro id
    rw [get_insert]
    by_cases same : id = flow.id <;> simp [same]
  have more := len_insert_of_none absent flow
  have counted := inv.counted
  have small := inv.small
  simp only [length_nil, Nat.add_zero] at counted
  rw [length_append, length_singleton] at bounded
  have unsaturated : saturatingAdd manager.stats.totalFlowsCreated 1
      = manager.stats.totalFlowsCreated + 1 :=
    Nat.min_eq_left (by omega)
  exact { inv with
    mirrored := inv.mirrored_insertFlow absent fresh
    ordered := fun id => by
      have ordered := inv.ordered id
      simp only [not_mem_nil, or_false] at ordered
      simp only [FlowManager.insertFlow, recordNewFlow, mem_append, mem_singleton,
        not_mem_nil, or_false]
      rw [live, ordered]
    creation := inv.creation.append (List.Sublist.refl _)
    distinct
    recent := fun id member => by
      simp only [FlowManager.insertFlow, recordNewFlow] at member ⊢
      refine .inl ((live id).mpr ?_)
      rcases mem_append.mp (mem_of_mem_drop member) with before | last
      · exact .inl ((inv.recent id before).resolve_right (not_mem_nil))
      · exact .inr (mem_singleton.mp last)
    recentSize := by
      simp [FlowManager.insertFlow, recordNewFlow]
      omega
    lost := ⟨nodup_nil, fun id member => by cases member⟩
    capacity := by
      simp only [FlowManager.insertFlow, recordNewFlow]
      omega
    counted := by
      simp [FlowManager.insertFlow, recordNewFlow, unsaturated]
      omega
    small := by
      simp [FlowManager.insertFlow, recordNewFlow, unsaturated]
      omega
    bounded := by
      rw [length_append, length_singleton]
      exact bounded }

end

end Inserting

end FlowManager

end NetTrap.Flows
