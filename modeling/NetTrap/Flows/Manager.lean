import NetTrap.Net.Packet
import NetTrap.Rust.Collections

/-! The manager of flows, used by one caller at a time.
Every reading of a clock and every new identifier is an argument of the operation that
makes it. The fields of a flow that the manager does not look at are of a type `δ`.
-/

namespace NetTrap.Flows

open Rust Net

/-- `uuid::Uuid`. -/
abbrev FlowId := BitVec 128

/-- The hash of a five-tuple. -/
abbrev FlowKey := UInt64

/-- A reading of the wall clock, in nanoseconds. -/
abbrev WallTime := Int

structure Flow (δ : Type) where
  id : FlowId
  fiveTuple : FiveTuple
  (createdAt updatedAt firstSeen lastSeen : WallTime)
  rest : δ

structure FlowManagerStats where
  (totalFlowsCreated totalFlowsClosed activeFlows cacheHits cacheMisses : Nat)
  deriving DecidableEq, Repr

structure FlowManagerConfig where
  (maxFlows cleanupInterval flowTimeout : Nat)
  deriving DecidableEq, Repr

/-- `last_cleanup` is a reading of the monotonic clock. -/
structure FlowManager (δ : Type) where
  flows : HashMap FlowKey (Flow δ)
  flowIndex : HashMap FlowId FlowKey
  (recentFlows flowOrder : List FlowId)
  config : FlowManagerConfig
  stats : FlowManagerStats
  lastCleanup : Nat

def u64Max : Nat := 2 ^ 64 - 1

/-- `u64::saturating_add`. -/
def saturatingAdd (left right : Nat) : Nat :=
  min (left + right) u64Max

/-- `elapsed_since(now, past) >= timeout`: a clock that was set back counts as expired. -/
def isExpiredAt (now updatedAt : WallTime) (timeout : Nat) : Bool :=
  now < updatedAt || timeout ≤ now - updatedAt

/-- What an operation reads from the clocks when it may have to clean up. -/
structure Tick where
  instant : Nat
  wall : WallTime
  deriving DecidableEq, Repr

namespace FlowManager

variable {δ : Type}

def new (config : FlowManagerConfig) (instant : Nat) : FlowManager δ where
  flows := .empty
  flowIndex := .empty
  recentFlows := []
  flowOrder := []
  config := { config with maxFlows := max config.maxFlows 1 }
  stats := ⟨0, 0, 0, 0, 0⟩
  lastCleanup := instant

/-- The order in which the flows are iterated. -/
abbrev FlowIteration (δ : Type) := IterOrder (FlowKey × Flow δ)

variable (order : FlowIteration δ) (manager : FlowManager δ) (key : FlowKey)

/-- The flow and its entry in the index go. -/
def dropFlow (flow : Flow δ) : FlowManager δ :=
  { manager with
    flows := manager.flows.remove key
    flowIndex := manager.flowIndex.remove flow.id }

/-- The identifiers of flows that went leave the histories, and the flows are counted. -/
def settle (gone : List FlowId) : FlowManager δ :=
  { manager with
    flowOrder := manager.flowOrder.filter (· ∉ gone)
    recentFlows := manager.recentFlows.filter (· ∉ gone)
    stats :=
      { manager.stats with
        totalFlowsClosed := saturatingAdd manager.stats.totalFlowsClosed gone.length
        activeFlows := manager.flows.len } }

/-- The loop of `remove_expired_keys`, with the identifiers that were removed so far. -/
def removeExpiredLoop
    : List (FlowKey × WallTime) → List FlowId → FlowManager δ → List FlowId × FlowManager δ
  | [], removedIds, manager => (removedIds, manager)
  | (key, observedUpdatedAt) :: expiredKeys, removedIds, manager =>
    match manager.flows.get key with
    | none => removeExpiredLoop expiredKeys removedIds manager
    | some flow =>
      if flow.updatedAt = observedUpdatedAt then
        removeExpiredLoop expiredKeys (removedIds.insert flow.id) (manager.dropFlow key flow)
      else removeExpiredLoop expiredKeys removedIds manager

def removeExpiredKeys (expiredKeys : List (FlowKey × WallTime)) : Nat × FlowManager δ :=
  let (removedIds, manager) := removeExpiredLoop expiredKeys [] manager
  (removedIds.length, if removedIds.isEmpty then manager else manager.settle removedIds)

def collectExpiredKeys (now : WallTime) (timeout : Nat) : List (FlowKey × WallTime) :=
  ((order.run manager.flows.toPairs).filter fun (_, flow) =>
    isExpiredAt now flow.updatedAt timeout).map fun (key, flow) => (key, flow.updatedAt)

def cleanupExpiredInternal (now : WallTime) (timeout : Nat) : Nat × FlowManager δ :=
  manager.removeExpiredKeys (manager.collectExpiredKeys order now timeout)

def maybeCleanup (tick : Tick) : FlowManager δ :=
  if tick.instant - manager.lastCleanup < manager.config.cleanupInterval then manager
  else
    { (manager.cleanupExpiredInternal order tick.wall manager.config.flowTimeout).2 with
      lastCleanup := tick.instant }

def cleanupExpired (timeout : Nat) (tick : Tick) : Nat × FlowManager δ :=
  let (removed, manager) := manager.cleanupExpiredInternal order tick.wall timeout
  (removed, { manager with lastCleanup := tick.instant })

def flowIsExpired (flow : Flow δ) (now : WallTime) : Bool :=
  isExpiredAt now flow.updatedAt manager.config.flowTimeout

def countHit : FlowManager δ :=
  { manager with
    stats := { manager.stats with cacheHits := saturatingAdd manager.stats.cacheHits 1 } }

/-- `remove_internal`. -/
def removeInternal : Option (Flow δ) × FlowManager δ :=
  match manager.flows.get key with
  | none => (none, manager)
  | some flow => (some flow, (manager.dropFlow key flow).settle [flow.id])

/-- The loop of `evict_oldest_flow` over the creation order. -/
def evictLoop (order : FlowIteration δ)
    : List FlowId → FlowManager δ → Option (Flow δ) × FlowManager δ
  | [], manager =>
    match (order.run manager.flows.toPairs).head? with
    | none => (none, manager)
    | some (fallbackKey, _) => manager.removeInternal fallbackKey
  | oldestFlow :: rest, manager =>
    let manager := { manager with flowOrder := rest }
    match manager.flowIndex.get oldestFlow with
    | none => evictLoop order rest manager
    | some key =>
      match manager.removeInternal key with
      | (some flow, manager) => (some flow, manager)
      | (none, manager) => evictLoop order rest manager

def evictOldestFlow : Option (Flow δ) × FlowManager δ :=
  evictLoop order manager.flowOrder manager

/-- The loop of `enforce_max_flows`, which also says which flows it evicted. Every turn but
the last removes a flow, so that `turns` is the number of flows.
-/
def enforceLoop (order : FlowIteration δ)
    : (turns : Nat) → FlowManager δ → List (Flow δ) × FlowManager δ
  | 0, manager => ([], manager)
  | turns + 1, manager =>
    if manager.flows.len ≥ manager.config.maxFlows then
      match manager.evictOldestFlow order with
      | (none, manager) => ([], manager)
      | (some flow, manager) =>
        let (evicted, manager) := enforceLoop order turns manager
        (flow :: evicted, manager)
    else ([], manager)

def enforceMaxFlows : List (Flow δ) × FlowManager δ :=
  enforceLoop order manager.flows.len manager

def recordNewFlow (flowId : FlowId) : FlowManager δ :=
  let recent := manager.recentFlows ++ [flowId]
  { manager with
    flowOrder := manager.flowOrder ++ [flowId]
    recentFlows := recent.drop (recent.length - 1000) }

/-- The flow that `get_or_create` makes. -/
def newFlow (id : FlowId) (fiveTuple : FiveTuple) (now : WallTime) (rest : δ) : Flow δ :=
  ⟨id, fiveTuple, now, now, now, now, rest⟩

/-- The end of `get_or_create`, when room was made. -/
def insertFlow (flow : Flow δ) : FlowManager δ :=
  let manager :=
    { manager with
      flows := manager.flows.insert key flow
      flowIndex := manager.flowIndex.insert flow.id key }
  let manager := manager.recordNewFlow flow.id
  { manager with
    stats :=
      { manager.stats with
        cacheMisses := saturatingAdd manager.stats.cacheMisses 1
        totalFlowsCreated := saturatingAdd manager.stats.totalFlowsCreated 1
        activeFlows := manager.flows.len } }

/-- One look at a flow that may have expired, as `get_or_create` takes it twice. -/
def lookOnce (now : WallTime)
    : Option (Flow δ) × FlowManager δ :=
  match manager.flows.get key with
  | none => (none, manager)
  | some flow =>
    if manager.flowIsExpired flow now then
      (none, (manager.removeExpiredKeys [(key, flow.updatedAt)]).2)
    else (some flow, manager.countHit)

/-- What `get_or_create` reads from its surroundings. -/
structure CreateInput (δ : Type) where
  fiveTuple : FiveTuple
  order : FlowIteration δ
  first : Tick
  firstLook : WallTime
  second : Tick
  (secondLook created : WallTime)
  id : FlowId
  rest : δ

/-- The result of an operation: the flow that it returns, and the flows that it evicted to
make room.
-/
structure Outcome (δ : Type) where
  returned : Option (Flow δ)
  evicted : List (Flow δ)
  manager : FlowManager δ

def createFlow (input : CreateInput δ) : Outcome δ :=
  let (evicted, manager) := manager.enforceMaxFlows input.order
  let flow := newFlow input.id input.fiveTuple input.created input.rest
  ⟨some flow, evicted, manager.insertFlow key flow⟩

/-- `get_or_create`; `hash` is `FlowKey::from_five_tuple`. -/
def getOrCreate (hash : FiveTuple → FlowKey) (manager : FlowManager δ) (input : CreateInput δ)
    : Outcome δ :=
  let key := hash input.fiveTuple
  match (manager.maybeCleanup input.order input.first).lookOnce key input.firstLook with
  | (some flow, manager) => ⟨some flow, [], manager⟩
  | (none, manager) =>
    match (manager.maybeCleanup input.order input.second).lookOnce key input.secondLook with
    | (some flow, manager) => ⟨some flow, [], manager⟩
    | (none, manager) => manager.createFlow key input

/-- The loop of `get`; every turn reads the clock once. -/
def getLoop (key : FlowKey) : List WallTime → FlowManager δ → Option (Flow δ) × FlowManager δ
  | [], manager => (none, manager)
  | now :: later, manager =>
    match manager.flows.get key with
    | none => (none, manager)
    | some flow =>
      if manager.flowIsExpired flow now then
        let (removed, manager) := manager.removeExpiredKeys [(key, flow.updatedAt)]
        if removed > 0 then (none, manager) else getLoop key later manager
      else (some flow, manager.countHit)

def get (tick : Tick) (looks : List WallTime) : Option (Flow δ) × FlowManager δ :=
  getLoop key looks (manager.maybeCleanup order tick)

/-- A change of a flow, as `update` lets a caller make it: the identity stays. -/
def changeFlow (flow : Flow δ) (change : Flow δ → Flow δ) (now : WallTime) : Flow δ :=
  { change flow with
    id := flow.id
    fiveTuple := flow.fiveTuple
    updatedAt := now
    lastSeen := now }

/-- The loop of `update`; every turn reads the clock once, and the last one twice. -/
def updateLoop (key : FlowKey) (change : Flow δ → Flow δ) (written : WallTime)
    : List WallTime → FlowManager δ → Option (Flow δ) × FlowManager δ
  | [], manager => (none, manager)
  | now :: later, manager =>
    match manager.flows.get key with
    | none => (none, manager)
    | some flow =>
      if manager.flowIsExpired flow now then
        let (removed, manager) := manager.removeExpiredKeys [(key, flow.updatedAt)]
        if removed > 0 then (none, manager) else updateLoop key change written later manager
      else
        let flow := changeFlow flow change written
        (some flow, { manager with flows := manager.flows.insert key flow })

def update
    (change : Flow δ → Flow δ) (tick : Tick) (looks : List WallTime) (written : WallTime)
    : Option (Flow δ) × FlowManager δ :=
  updateLoop key change written looks (manager.maybeCleanup order tick)

def remove (tick : Tick) : Option (Flow δ) × FlowManager δ :=
  (manager.maybeCleanup order tick).removeInternal key

/-- The loop of `clear` over the keys, with the number of flows that were removed. -/
def clearLoop
    : List FlowKey → Nat → HashMap FlowKey (Flow δ) → Nat × HashMap FlowKey (Flow δ)
  | [], removedFlows, flows => (removedFlows, flows)
  | key :: keys, removedFlows, flows =>
    if flows.containsKey key then
      clearLoop keys (saturatingAdd removedFlows 1) (flows.remove key)
    else clearLoop keys removedFlows flows

def clear : FlowManager δ :=
  let keys := (order.run manager.flows.toPairs).map Prod.fst
  let (removedFlows, flows) := clearLoop keys 0 manager.flows
  { manager with
    flows
    flowIndex := .empty
    recentFlows := []
    flowOrder := []
    stats :=
      { manager.stats with
        totalFlowsClosed := saturatingAdd manager.stats.totalFlowsClosed removedFlows
        activeFlows := 0 } }

end FlowManager

end NetTrap.Flows
