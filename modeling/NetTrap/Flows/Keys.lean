import Mathlib.Data.Fintype.BigOperators
import Mathlib.Data.Fintype.Pigeonhole
import Mathlib.Data.List.OfFn
import NetTrap.Flows.Attribution
import NetTrap.Flows.Runs

/-! Flows and attributions are found under the hashes of five-tuples. -/

namespace NetTrap.Flows

open Rust Net List

variable {hash : FiveTuple → FlowKey} {tuples : Set FiveTuple}

namespace FlowManager

variable {δ : Type} {manager : FlowManager δ}

/-- Every flow is stored under the hash of its five-tuple, which is one of `tuples`. -/
def Keyed (hash : FiveTuple → FlowKey) (tuples : Set FiveTuple) (manager : FlowManager δ) : Prop :=
  manager.flows.All fun key flow => hash flow.fiveTuple = key ∧ flow.fiveTuple ∈ tuples

theorem Keyed.dropFlow (keyed : manager.Keyed hash tuples) (key : FlowKey) (flow : Flow δ)
    : (manager.dropFlow key flow).Keyed hash tuples :=
  HashMap.All.remove keyed key

section Steps

variable (keyed : manager.Keyed hash tuples)
include keyed

theorem Keyed.removeExpiredLoop (expiredKeys : List (FlowKey × WallTime)) (gone : List FlowId)
    : (removeExpiredLoop expiredKeys gone manager).2.Keyed hash tuples := by
  induction expiredKeys generalizing gone manager with
  | nil => exact keyed
  | cons expired expiredKeys ih =>
    rw [FlowManager.removeExpiredLoop]
    split
    · exact ih keyed gone
    · split
      · exact ih (keyed.dropFlow _ _) _
      · exact ih keyed gone

theorem Keyed.removeExpiredKeys (expiredKeys : List (FlowKey × WallTime))
    : (manager.removeExpiredKeys expiredKeys).2.Keyed hash tuples := by
  have removed := keyed.removeExpiredLoop expiredKeys []
  simp only [FlowManager.removeExpiredKeys]
  split <;> exact removed

theorem Keyed.maybeCleanup (order : FlowIteration δ) (tick : Tick)
    : (manager.maybeCleanup order tick).Keyed hash tuples := by
  rw [FlowManager.maybeCleanup]
  split
  · exact keyed
  · exact keyed.removeExpiredKeys _

theorem Keyed.lookOnce (key : FlowKey) (now : WallTime)
    : (manager.lookOnce key now).2.Keyed hash tuples ∧ ∀ flow ∈ (manager.lookOnce key now).1,
          hash flow.fiveTuple = key ∧ flow.fiveTuple ∈ tuples := by
  rw [FlowManager.lookOnce]
  split
  · exact ⟨keyed, fun _ none => absurd none (Option.not_mem_none _)⟩
  · next flow found =>
    split
    · have removed := keyed.removeExpiredKeys [(key, flow.updatedAt)]
      exact ⟨removed, fun _ none => absurd none (Option.not_mem_none _)⟩
    · exact ⟨keyed, fun other same => Option.some.inj same ▸ keyed key flow found⟩

theorem Keyed.removeInternal (key : FlowKey)
    : (manager.removeInternal key).2.Keyed hash tuples := by
  rw [FlowManager.removeInternal]
  split
  · exact keyed
  · next flow found => exact keyed.dropFlow key flow

theorem Keyed.evictLoop (order : FlowIteration δ) (ids : List FlowId)
    : (evictLoop order ids manager).2.Keyed hash tuples := by
  induction ids generalizing manager with
  | nil =>
    rw [FlowManager.evictLoop]
    split
    · exact keyed
    · exact keyed.removeInternal _
  | cons oldest ids ih =>
    rw [FlowManager.evictLoop]
    have popped : { manager with flowOrder := ids }.Keyed hash tuples := keyed
    dsimp only
    split
    · exact ih popped
    · next key found =>
      have removed := popped.removeInternal key
      split
      · next flow after shape =>
        rw [shape] at removed
        exact removed
      · next after shape =>
        rw [shape] at removed
        exact ih removed

theorem Keyed.enforceLoop (order : FlowIteration δ) (turns : Nat)
    : (enforceLoop order turns manager).2.Keyed hash tuples := by
  induction turns generalizing manager with
  | zero => exact keyed
  | succ turns ih =>
    rw [FlowManager.enforceLoop]
    have evicted := keyed.evictLoop order manager.flowOrder
    rw [← evictOldestFlow] at evicted
    split
    · split
      · next after shape =>
        rw [shape] at evicted
        exact evicted
      · next flow after shape =>
        rw [shape] at evicted
        exact ih evicted
    · exact keyed

/-- The flow that `get_or_create` returns has the hash of the five-tuple asked for. -/
theorem Keyed.getOrCreate {input} (asked : input.fiveTuple ∈ tuples)
    : (manager.getOrCreate hash input).manager.Keyed hash tuples
      ∧ ∀ flow ∈ (manager.getOrCreate hash input).returned,
          hash flow.fiveTuple = hash input.fiveTuple ∧ flow.fiveTuple ∈ tuples := by
  rw [FlowManager.getOrCreate]
  have first := (keyed.maybeCleanup input.order input.first).lookOnce (hash input.fiveTuple)
    input.firstLook
  split
  · next flow after shape =>
    rw [shape] at first
    exact first
  · next between shape =>
    rw [shape] at first
    have second := (first.1.maybeCleanup input.order input.second).lookOnce (hash input.fiveTuple)
      input.secondLook
    split
    · next flow after shape =>
      rw [shape] at second
      exact second
    · next after shape =>
      rw [shape] at second
      have room := second.1.enforceLoop input.order after.flows.len
      refine ⟨HashMap.All.insert room ⟨rfl, asked⟩, fun flow same => ?_⟩
      cases same
      exact ⟨rfl, asked⟩

end Steps

theorem keyed_history (hash : FiveTuple → FlowKey) (config : FlowManagerConfig)
    (instant : Nat) {calls : List (CreateInput δ)} (asked : ∀ call ∈ calls, call.fiveTuple ∈ tuples)
    : (history hash config instant (calls.map .getOrCreate)).Keyed hash tuples := by
  induction calls using reverseRecOn with
  | nil => exact HashMap.all_empty
  | append_singleton calls call ih =>
    rw [forall_mem_append, forall_mem_singleton] at asked
    rw [map_append, history, foldl_append]
    exact ((ih asked.1).getOrCreate asked.2).1

end FlowManager

namespace AttributionEngine

variable {π : Type} {unknownProcess : π} {engine : AttributionEngine π}
  {requests : List (Request π)}

/-- The attribution was made for a request whose five-tuple has that hash. -/
def MadeFor (hash : FiveTuple → FlowKey) (unknownProcess : π) (requests : List (Request π))
    (key : FlowKey) (attribution : Attribution π) : Prop :=
  ∃ request ∈ requests,
    hash request.fiveTuple = key ∧ attribution = performAttribution unknownProcess request

def Keyed (hash : FiveTuple → FlowKey) (unknownProcess : π) (requests : List (Request π))
    (cache : Cache π) : Prop :=
  cache.All fun key entry => MadeFor hash unknownProcess requests key entry.1

theorem Keyed.evictOldest {cache : Cache π} (keyed : Keyed hash unknownProcess requests cache)
    (order : IterOrder (FlowKey × Attribution π × Nat)) (key : FlowKey) (turns : Nat)
    : Keyed hash unknownProcess requests (evictOldest order key turns cache) := by
  induction turns generalizing cache with
  | zero => exact keyed
  | succ turns ih =>
    rw [AttributionEngine.evictOldest]
    split
    · split
      · exact keyed
      · exact ih (HashMap.All.remove keyed _)
    · exact keyed

theorem Keyed.attributeAnew {cache request} (keyed : Keyed hash unknownProcess requests cache)
    (asked : request ∈ requests)
    : Keyed hash unknownProcess requests
        (engine.attributeAnew unknownProcess request (hash request.fiveTuple) cache).2.cache := by
  rw [AttributionEngine.attributeAnew]
  split
  · exact HashMap.All.insert (keyed.evictOldest _ _ _) ⟨request, asked, rfl, rfl⟩
  · exact keyed

/-- An answer was made for a five-tuple with the hash of the one asked for. -/
theorem Keyed.attributeFlow (keyed : Keyed hash unknownProcess requests engine.cache) {request}
    (asked : request ∈ requests)
    : Keyed hash unknownProcess requests (engine.attributeFlow unknownProcess request hash).2.cache
      ∧ MadeFor hash unknownProcess requests (hash request.fiveTuple)
          (engine.attributeFlow unknownProcess request hash).1 := by
  have anew (cache : Cache π)
      : MadeFor hash unknownProcess requests (hash request.fiveTuple)
          (engine.attributeAnew unknownProcess request (hash request.fiveTuple) cache).1 := by
    rw [AttributionEngine.attributeAnew]
    split <;> exact ⟨request, asked, rfl, rfl⟩
  rw [AttributionEngine.attributeFlow]
  split
  · next attribution timestamp found =>
    split
    · exact ⟨keyed, keyed _ _ found⟩
    · exact ⟨Keyed.attributeAnew (HashMap.All.remove keyed _) asked, anew _⟩
  · exact ⟨keyed.attributeAnew asked, anew _⟩

/-- The engine after requests one after the other. -/
def attributeAll (hash : FiveTuple → FlowKey) (unknownProcess : π) (cacheTimeout : Nat)
    (requests : List (Request π)) : AttributionEngine π :=
  requests.foldl (fun engine request => (engine.attributeFlow unknownProcess request hash).2)
    ⟨.empty, cacheTimeout⟩

theorem keyed_attributeAll (hash : FiveTuple → FlowKey) (unknownProcess : π) (cacheTimeout : Nat)
    {past} (asked : ∀ request ∈ past, request ∈ requests)
    : Keyed hash unknownProcess requests
        (attributeAll hash unknownProcess cacheTimeout past).cache := by
  induction past using reverseRecOn with
  | nil => exact HashMap.all_empty
  | append_singleton past request ih =>
    rw [forall_mem_append, forall_mem_singleton] at asked
    rw [attributeAll, foldl_append]
    exact ((ih asked.1).attributeFlow asked.2).1

end AttributionEngine

/-- As long as the five-tuples that are asked for have different hashes, the flow returned
for one of them was created for it, and its attribution was made for it.
-/
theorem flows_kept_apart (injective : Set.InjOn hash tuples)
    {δ π : Type} (config : FlowManagerConfig) (instant : Nat)
    {calls : List (FlowManager.CreateInput δ)} {call : FlowManager.CreateInput δ}
    (called : ∀ input ∈ calls ++ [call], input.fiveTuple ∈ tuples)
    (unknownProcess : π) (cacheTimeout : Nat) {requests : List (Request π)} {request : Request π}
    (requested : ∀ earlier ∈ requests ++ [request], earlier.fiveTuple ∈ tuples)
    : (∀ flow ∈ ((FlowManager.history hash config instant
            (calls.map .getOrCreate)).getOrCreate hash call).returned,
        flow.fiveTuple = call.fiveTuple)
      ∧ ∃ earlier ∈ requests ++ [request], earlier.fiveTuple = request.fiveTuple
          ∧ ((AttributionEngine.attributeAll hash unknownProcess cacheTimeout
                requests).attributeFlow unknownProcess request hash).1
            = AttributionEngine.performAttribution unknownProcess earlier := by
  constructor
  · rw [List.forall_mem_append, List.forall_mem_singleton] at called
    intro flow returned
    have keyed := FlowManager.keyed_history hash config instant called.1
    obtain ⟨same, known⟩ := (keyed.getOrCreate called.2).2 flow returned
    exact injective known called.2 same
  · have last : request ∈ requests ++ [request] := List.mem_append_right _ List.mem_cons_self
    have keyed := AttributionEngine.keyed_attributeAll hash unknownProcess cacheTimeout
      (List.subset_append_left requests [request])
    obtain ⟨earlier, asked, same, made⟩ := (keyed.attributeFlow last).2
    exact ⟨earlier, asked, injective (requested _ asked) (requested _ last) same, made⟩

section Samples

open FlowManager
  (CreateInput Operation history newFlow portHash sampleConfig sampleTuple)

/-- A call when the clocks are at zero. -/
def sampleCall (tuple : FiveTuple) : CreateInput Unit :=
  ⟨tuple, .stored _, ⟨0, 0⟩, 0, ⟨0, 0⟩, 0, 0, 7, ()⟩

/-- Another five-tuple, from the next port. -/
def otherTuple : FiveTuple :=
  { sampleTuple with srcPort := 40001 }

theorem portHash_injOn : Set.InjOn portHash {sampleTuple, otherTuple} := by
  have apart : portHash sampleTuple ≠ portHash otherTuple := by decide
  rintro first (rfl | rfl) second (rfl | rfl) same
  · rfl
  · exact absurd same apart
  · exact absurd same.symm apart
  · rfl

/-- A request for a socket that a process holds. -/
def sampleRequest (tuple : FiveTuple) (process : Nat) : Request Nat :=
  ⟨tuple, 0, fun _ _ _ => some process, fun _ _ _ => none, .epoch, .stored _⟩

/-- Two five-tuples are asked for, and the first one again. -/
theorem flows_kept_apart_sample
    : (∀ flow ∈ ((history portHash sampleConfig 0
            ([sampleCall sampleTuple, sampleCall otherTuple].map .getOrCreate)).getOrCreate portHash
              (sampleCall sampleTuple)).returned,
        flow.fiveTuple = sampleTuple)
      ∧ ∃ earlier ∈ [sampleRequest sampleTuple 1, sampleRequest otherTuple 2]
            ++ [sampleRequest sampleTuple 3],
          earlier.fiveTuple = sampleTuple
          ∧ ((AttributionEngine.attributeAll portHash 0 300
                [sampleRequest sampleTuple 1, sampleRequest otherTuple 2]).attributeFlow 0
                  (sampleRequest sampleTuple 3) portHash).1
            = AttributionEngine.performAttribution 0 earlier := by
  refine flows_kept_apart portHash_injOn sampleConfig 0 ?_ 0 300 ?_
  · simp [sampleCall]
  · simp [sampleRequest]

/-- An address of nine arbitrary octets. -/
def address (octets : Fin 9 → Fin 256) : Ipv6Addr :=
  ⟨List.ofFn (fun index => UInt8.ofNat (octets index)) ++ List.replicate 7 0, by simp⟩

def addressTuple (octets : Fin 9 → Fin 256) : FiveTuple :=
  ⟨.v6 (address octets), .v4 (.new 9 9 9 9), 40000, 53, .udp⟩

theorem addressTuple_isCanonical (octets : Fin 9 → Fin 256)
    : (addressTuple octets).IsCanonical := by
  have unmapped : (address octets).toIpv4Mapped = none := by
    refine if_neg fun same => ?_
    have last := congrArg (·[11]?) same
    simp [address] at last
  constructor
  · simp [addressTuple, canonicalizeIp, unmapped]
  · rfl

theorem addressTuple_injective : Function.Injective addressTuple := by
  intro first second same
  simp only [addressTuple, FiveTuple.mk.injEq, IpAddr.v6.injEq, address, Ipv6Addr.mk.injEq,
    append_cancel_right_eq, and_true] at same
  funext index
  have bytes := congrArg UInt8.toNat (congrFun (ofFn_injective same) index)
  rw [UInt8.toNat_ofNat_of_lt' (first index).isLt, UInt8.toNat_ofNat_of_lt' (second index).isLt]
    at bytes
  exact Fin.ext bytes

/-- There are more five-tuples than hashes. -/
theorem exists_collision (hash : FiveTuple → FlowKey)
    : ∃ first second : FiveTuple,
        first.IsCanonical ∧ second.IsCanonical ∧ first ≠ second ∧ hash first = hash second := by
  have more : Fintype.card (Fin (2 ^ 64)) < Fintype.card (Fin 9 → Fin 256) := by
    simp
  obtain ⟨first, second, distinct, same⟩ :=
    Fintype.exists_ne_map_eq_of_card_lt (fun octets => (hash (addressTuple octets)).toFin) more
  exact ⟨_, _, addressTuple_isCanonical first, addressTuple_isCanonical second,
    addressTuple_injective.ne distinct, UInt64.toFin_inj.mp same⟩

/-- Whatever hash makes the keys, two calls get the flow of one five-tuple. -/
theorem flow_keys_collide
    : ¬ ∃ hash : FiveTuple → FlowKey,
        ∀ first second : FiveTuple, first.IsCanonical → second.IsCanonical →
          ∀ flow ∈ ((history hash sampleConfig 0
              [.getOrCreate (sampleCall first)]).getOrCreate hash (sampleCall second)).returned,
            flow.fiveTuple = second := by
  rintro ⟨hash, apart⟩
  obtain ⟨first, second, canonical, canonical', distinct, same⟩ := exists_collision hash
  have empty : (HashMap.empty : HashMap FlowKey (Flow Unit)).len = 0 := rfl
  -- The first call stores its flow, and no cleanup is due at the second one.
  have returned := apart first second canonical canonical' (newFlow 7 first 0 ()) (by
    simp [history, Operation.apply, sampleCall, sampleConfig, FlowManager.getOrCreate,
      FlowManager.new, FlowManager.maybeCleanup, FlowManager.lookOnce, FlowManager.createFlow,
      FlowManager.enforceMaxFlows, FlowManager.enforceLoop, FlowManager.insertFlow,
      FlowManager.recordNewFlow, HashMap.get_insert_self, same, FlowManager.flowIsExpired,
      isExpiredAt, newFlow, empty])
  exact distinct returned

end Samples

end NetTrap.Flows
