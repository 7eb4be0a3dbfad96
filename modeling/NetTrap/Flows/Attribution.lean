import Mathlib.Data.List.MinMax
import NetTrap.Flows.Manager

/-! The attribution of flows to processes, with its cache.
What the socket tables of the host say and the readings of the clocks are arguments; the
counters of the engine are left out.
-/

namespace NetTrap.Flows

open Rust Net

def maxCacheEntries : Nat := 10000

inductive AttributionConfidence where
  | none
  | low
  | medium
  | high
  | definitive
  deriving DecidableEq, Repr

inductive AttributionMethod where
  | none
  | socketTable
  | connectionTable
  | kernelHook
  | procfs
  | wfp
  | heuristic
  deriving DecidableEq, Repr

structure Attribution (π : Type) where
  process : π
  confidence : AttributionConfidence
  method : AttributionMethod
  timestamp : Timestamp

/-- `get_process_for_socket`. -/
abbrev SocketTable (π : Type) := IpAddr → Port → Protocol → Option π

abbrev Cache (π : Type) := HashMap FlowKey (Attribution π × Nat)

/-- A call of `attribute_flow`, with what it reads from its surroundings. -/
structure Request (π : Type) where
  fiveTuple : FiveTuple
  instant : Nat
  (source destination : SocketTable π)
  timestamp : Timestamp
  order : IterOrder (FlowKey × Attribution π × Nat)

structure AttributionEngine (π : Type) where
  cache : Cache π
  cacheTimeout : Nat

namespace AttributionEngine

variable {π : Type} (unknownProcess : π) (engine : AttributionEngine π) (request : Request π)

/-- `perform_attribution`; `unknownProcess` is `ProcessInfo::unknown`. -/
def performAttribution : Attribution π :=
  let tuple := request.fiveTuple
  match request.source tuple.srcIp tuple.srcPort tuple.protocol with
  | some process => ⟨process, .high, .connectionTable, request.timestamp⟩
  | none =>
    match request.destination tuple.dstIp tuple.dstPort tuple.protocol with
    | some process => ⟨process, .medium, .socketTable, request.timestamp⟩
    | none => ⟨unknownProcess, .none, .none, request.timestamp⟩

/-- The loop of `insert_cache_entry` that makes room. Every turn but the last removes an
entry, so that `turns` is the number of entries.
-/
def evictOldest (order : IterOrder (FlowKey × Attribution π × Nat)) (key : FlowKey)
    : (turns : Nat) → Cache π → Cache π
  | 0, cache => cache
  | turns + 1, cache =>
    if !cache.containsKey key && cache.len ≥ maxCacheEntries then
      match (order.run cache.toPairs).argmin fun entry => entry.2.2 with
      | none => cache
      | some (oldestKey, _) => evictOldest order key turns (cache.remove oldestKey)
    else cache

def insertCacheEntry (cache : Cache π) (key : FlowKey) (attribution : Attribution π) : Cache π :=
  (evictOldest request.order key cache.len cache).insert key (attribution, request.instant)

/-- The end of `attribute_flow`, when the cache had no answer. -/
def attributeAnew (key : FlowKey) (cache : Cache π) : Attribution π × AttributionEngine π :=
  let attribution := performAttribution unknownProcess request
  if attribution.confidence ≠ .none then
    (attribution, { engine with cache := insertCacheEntry request cache key attribution })
  else (attribution, { engine with cache })

/-- `attribute_flow`; `hash` is `FlowKey::from_five_tuple`. -/
def attributeFlow (hash : FiveTuple → FlowKey) : Attribution π × AttributionEngine π :=
  let key := hash request.fiveTuple
  match engine.cache.get key with
  | some (attribution, timestamp) =>
    if request.instant - timestamp < engine.cacheTimeout then (attribution, engine)
    else engine.attributeAnew unknownProcess request key (engine.cache.remove key)
  | none => engine.attributeAnew unknownProcess request key engine.cache

end AttributionEngine

end NetTrap.Flows
