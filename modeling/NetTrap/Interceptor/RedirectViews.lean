import NetTrap.Interceptor.RedirectTable

/-! What the table of redirected flows knows about a client and a listener.
The operations of the table are described by what they do to this view.
-/

namespace NetTrap.Interceptor

open Rust Net Option

/-- A destination that was seen recently enough to be used. -/
def recent (now : Instant) (known : SocketAddr × Instant) : Bool :=
  now - known.2 < redirectFlowIdleTimeout

theorem recent_of_le {clock now : Instant} (later : clock ≤ now) {known}
    (fresh : recent now known = true)
    : recent clock known = true := by
  rw [recent, decide_eq_true_eq] at fresh ⊢
  exact Nat.lt_of_le_of_lt (Nat.sub_le_sub_right later _) fresh

/-- Filtering by a later time forgets what an earlier time would have kept. -/
theorem filter_recent_filter {clock now : Instant} (later : clock ≤ now)
    (known : Option (SocketAddr × Instant))
    : (known.filter (recent clock)).filter (recent now) = known.filter (recent now) := by
  rw [filter_filter]
  congr 1
  funext found
  cases fresh : recent now found with
  | false => rw [Bool.and_false]
  | true => rw [recent_of_le later fresh, Bool.and_self]

namespace RedirectFlowTable

/-- The destination of the flow between a client and a listener, and when it was seen. -/
def view (table : RedirectFlowTable) (reverse : ReverseFlowKey) : Option (SocketAddr × Instant) :=
  (table.reverse.get reverse).bind fun key =>
    (table.entries.get key).map fun flow => (flow.originalDestination, flow.lastSeen)

variable {table : RedirectFlowTable} {clock now : Instant}

theorem view_of_entry (inv : Inv clock table) {key flow} (found : table.entries.get key = some flow)
    : table.view (key.reverse flow.listenerPort)
      = some (flow.originalDestination, flow.lastSeen) := by
  have indexed : table.reverse.get (key.reverse flow.listenerPort) = some key :=
    (inv.mirrored _ _).mpr ⟨flow, found, rfl⟩
  rw [view, indexed, bind_some, found, map_some]

theorem entry_of_view (inv : Inv clock table) {reverse known}
    (found : table.view reverse = some known)
    : ∃ key flow, table.reverse.get reverse = some key ∧ table.entries.get key = some flow
        ∧ reverse = key.reverse flow.listenerPort
        ∧ known = (flow.originalDestination, flow.lastSeen) := by
  rw [view, bind_eq_some_iff] at found
  obtain ⟨key, indexed, stored⟩ := found
  obtain ⟨flow, kept, shape⟩ := (inv.mirrored _ _).mp indexed
  rw [kept, map_some] at stored
  exact ⟨key, flow, indexed, kept, shape, (some.inj stored).symm⟩

theorem view_empty (reverse : ReverseFlowKey) : empty.view reverse = none := by
  rw [view, empty, HashMap.get_empty, bind_none]

/-- Pruning leaves what was seen recently. -/
theorem view_prune (inv : Inv clock table) (now : Instant) (reverse : ReverseFlowKey)
    : (table.prune now).view reverse = (table.view reverse).filter (recent now) := by
  apply ext
  intro known
  rw [filter_eq_some_iff]
  constructor
  · intro found
    obtain ⟨key, flow, -, kept, rfl, rfl⟩ := entry_of_view (inv.prune now) found
    rw [get_entries_prune inv, filter_eq_some_iff] at kept
    exact ⟨view_of_entry inv kept.1, kept.2⟩
  · rintro ⟨found, fresh⟩
    obtain ⟨key, flow, -, stored, rfl, rfl⟩ := entry_of_view inv found
    refine view_of_entry (inv.prune now) ?_
    rw [get_entries_prune inv, stored]
    exact filter_some_pos fresh

theorem len_entries_pruneLoop_le (now : Instant) (queue : List (Instant × FlowKey))
    (table : RedirectFlowTable)
    : (pruneLoop now queue table).entries.len ≤ table.entries.len := by
  induction queue generalizing table with
  | nil => exact Nat.le_refl _
  | cons pair rest ih =>
    obtain ⟨seen, key⟩ := pair
    rw [pruneLoop]
    split
    · exact Nat.le_refl _
    · simp only
      split
      · exact (ih _).trans (len_entries_remove_le { table with expiry := rest } key)
      · exact ih _

/-- A flow that is seen again is known with the new time. -/
theorem view_touch (inv : Inv clock table) (order : EntryOrder) {key flow}
    (found : table.entries.get key = some flow) (now : Instant) (reverse : ReverseFlowKey)
    : (table.touch order key now).view reverse
      = if reverse = key.reverse flow.listenerPort then some (flow.originalDestination, now)
        else table.view reverse := by
  simp only [view, reverse_touch, get_entries_touch order table found]
  split
  · next same =>
    have indexed : table.reverse.get (key.reverse flow.listenerPort) = some key :=
      (inv.mirrored _ _).mpr ⟨flow, found, rfl⟩
    rw [same, indexed, bind_some, if_pos rfl, map_some]
  next distinct =>
    cases indexed : table.reverse.get reverse with
    | none => rfl
    | some other =>
      have apart : other ≠ key := by
        rintro rfl
        obtain ⟨current, stored, shape⟩ := (inv.mirrored _ _).mp indexed
        rw [found] at stored
        cases stored
        exact distinct shape
      rw [bind_some, bind_some, if_neg apart]

/-- A new flow is known, and replaces the flow that its client had to the listener. -/
theorem view_insert (inv : Inv clock table) {key : FlowKey} (listenerPort : Port)
    (absent : (table.prune now).entries.get key = none)
    (room : table.entries.len < maxRedirectFlows) (reverse : ReverseFlowKey)
    : (table.insert key listenerPort now).view reverse
      = if reverse = key.reverse listenerPort then some (key.originalDestination, now)
        else (table.view reverse).filter (recent now) := by
  have pruned : Inv clock (table.prune now) := inv.prune now
  have still : (table.prune now).entries.len < maxRedirectFlows :=
    Nat.lt_of_le_of_lt (len_entries_pruneLoop_le now table.expiry table) room
  rw [insert, remove_of_absent absent, evictLoop_of_room _ still, view,
    reverse_enter pruned absent, HashMap.get_insert]
  split
  · next same =>
    rw [bind_some, get_entries_enter, if_pos rfl, map_some]
  next distinct =>
    rw [← view_prune inv, view]
    cases indexed : (table.prune now).reverse.get reverse with
    | none => rfl
    | some other =>
      obtain ⟨flow, stored, shape⟩ := (pruned.mirrored _ _).mp indexed
      have apart : other ≠ key := by
        rintro rfl
        rw [absent] at stored
        cases stored
      have free : (table.prune now).reverse.get (key.reverse listenerPort) ≠ some other := by
        intro held
        obtain ⟨current, kept, taken⟩ := (pruned.mirrored _ _).mp held
        rw [stored] at kept
        cases kept
        exact distinct (shape.trans taken.symm)
      rw [bind_some, bind_some, get_entries_enter, if_neg apart, if_neg free]

end RedirectFlowTable

end NetTrap.Interceptor
