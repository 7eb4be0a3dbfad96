import NetTrap.Library.FirstSeen

/-! Transfers in blocks of which one at a time is outstanding.
A transfer is judged by its events alone: the acknowledgements that arrived and the blocks that were
sent, repetitions included.
-/

namespace StopAndWait

open List

inductive Event where
  | acknowledged (block : Nat)
  | sent (block : Nat)
  deriving DecidableEq, Repr

def Event.sentBlock : Event → Option Nat
  | .acknowledged _ => none
  | .sent block => some block

def sentBlocks (events : List Event) : List Nat :=
  events.filterMap Event.sentBlock

/-- The blocks up to the outstanding one were sent for the first time one after the other, and each
but the first one behind the acknowledgement of its predecessor. -/
structure InOrder (outstanding : Nat) (events : List Event) : Prop where
  firsts : (sentBlocks events).eraseDups = List.range' 1 outstanding
  released : ∀ before block after, events = before ++ .sent (block + 1) :: after →
    block = 0 ∨ .acknowledged block ∈ before

section Events

variable {events : List Event} {outstanding : Nat}

theorem sentBlocks_append (events more : List Event)
    : sentBlocks (events ++ more) = sentBlocks events ++ sentBlocks more :=
  filterMap_append

theorem mem_sentBlocks {block : Nat} : block ∈ sentBlocks events ↔ .sent block ∈ events := by
  rw [sentBlocks, mem_filterMap]
  constructor
  · rintro ⟨event, member, same⟩
    cases event with
    | acknowledged => cases same
    | sent =>
      cases same
      exact member
  · intro member
    exact ⟨.sent block, member, rfl⟩

theorem InOrder.sent_iff (order : InOrder outstanding events) {block : Nat}
    : .sent block ∈ events ↔ 1 ≤ block ∧ block ≤ outstanding := by
  rw [← mem_sentBlocks, ← mem_eraseDups, order.firsts, mem_range'_1]
  omega

theorem InOrder.nil : InOrder 0 [] where
  firsts := rfl
  released := by
    intro before block after split
    cases before <;> cases split

/-- Another event leaves earlier blocks released. -/
theorem released_concat {event : Event}
    (released : ∀ before block after, events = before ++ .sent (block + 1) :: after →
      block = 0 ∨ .acknowledged block ∈ before)
    (last : ∀ block, event = .sent (block + 1) → block = 0 ∨ .acknowledged block ∈ events)
    : ∀ before block after, events ++ [event] = before ++ .sent (block + 1) :: after →
      block = 0 ∨ .acknowledged block ∈ before := by
  intro before block after split
  rcases eq_nil_or_concat after with rfl | ⟨front, final, rfl⟩
  · obtain ⟨rfl, same⟩ := append_inj' split rfl
    cases same
    exact last block rfl
  · rw [concat_eq_append, ← cons_append, ← append_assoc] at split
    exact released before block front (append_inj' split rfl).1

theorem InOrder.acknowledge (order : InOrder outstanding events) (block : Nat)
    : InOrder outstanding (events ++ [.acknowledged block]) where
  firsts := by
    rw [sentBlocks_append]
    exact (congrArg eraseDups (append_nil _)).trans order.firsts
  released := by
    refine released_concat order.released ?_
    intro block same
    cases same

/-- The outstanding block may be sent again at any time. -/
theorem InOrder.again (order : InOrder outstanding events) (positive : 1 ≤ outstanding)
    : InOrder outstanding (events ++ [.sent outstanding]) where
  firsts := by
    have member : outstanding ∈ sentBlocks events :=
      mem_sentBlocks.mpr (order.sent_iff.mpr ⟨positive, Nat.le_refl _⟩)
    have single : sentBlocks [.sent outstanding] = [outstanding] := rfl
    rw [sentBlocks_append, single, FirstSeen.eraseDups_concat_of_mem member, order.firsts]
  released := by
    refine released_concat order.released ?_
    intro block same
    cases same
    obtain ⟨before, after, split⟩ :=
      append_of_mem (order.sent_iff.mpr ⟨positive, Nat.le_refl _⟩)
    refine (order.released before block after split).imp_right ?_
    intro member
    rw [split]
    exact mem_append_left _ member

/-- The block behind the outstanding one is sent once that one is acknowledged. -/
theorem InOrder.advance (order : InOrder outstanding events)
    (released : outstanding = 0 ∨ .acknowledged outstanding ∈ events)
    : InOrder (outstanding + 1) (events ++ [.sent (outstanding + 1)]) where
  firsts := by
    have fresh : outstanding + 1 ∉ sentBlocks events := by
      intro member
      have := (order.sent_iff.mp (mem_sentBlocks.mp member)).2
      omega
    have single : sentBlocks [.sent (outstanding + 1)] = [outstanding + 1] := rfl
    rw [sentBlocks_append, single, FirstSeen.eraseDups_concat_of_not_mem fresh, order.firsts,
      range'_concat, Nat.one_mul, Nat.add_comm 1]
  released := by
    refine released_concat order.released ?_
    intro block same
    cases same
    exact released

end Events

end StopAndWait
