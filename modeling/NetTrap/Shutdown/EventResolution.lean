import Mathlib.Data.Finset.Dedup
import Mathlib.Data.Finset.Insert
import NetTrap.Nbi.Event
import NetTrap.Rust.Collections

/-! Which events a shutdown reports: those of the JSONL file, those of the database, or a
merge of both.
-/

namespace NetTrap.Shutdown

open Rust Nbi

/-- What was read from the JSONL file. -/
structure JsonlLoadResult where
  events : List NetworkBehaviorIndicator
  invalidLines : Nat
  readError : Option Text

/-- What a shutdown finds: the JSONL file and the collector, if there are any, and what the
database answered, if there is one.
-/
structure ShutdownContext where
  jsonl : Option JsonlLoadResult
  localPersistFailures : Option Nat
  database : Option (Except Text (List NetworkBehaviorIndicator))

def normalizeEventId (event : NetworkBehaviorIndicator) : Text :=
  event.normalizedEventId

def eventsMatch (left right : List NetworkBehaviorIndicator) : Bool :=
  left.length == right.length && (left.zip right).all fun pair =>
    normalizeEventId pair.1 == normalizeEventId pair.2
      && pair.1.contentFingerprint == pair.2.contentFingerprint

variable (events : List NetworkBehaviorIndicator)

def eventIdSet : Finset Text :=
  (events.map normalizeEventId).toFinset

def eventPayloadMap : HashMap Text Text :=
  .fromPairs (events.map fun event => (normalizeEventId event, event.contentFingerprint))

/-- The search of `has_duplicate_event_ids`. -/
def duplicateLoop (seen : Finset Text) : List NetworkBehaviorIndicator → Bool
  | [] => false
  | event :: rest =>
    normalizeEventId event ∈ seen || duplicateLoop (insert (normalizeEventId event) seen) rest

def hasDuplicateEventIds : Bool :=
  duplicateLoop ∅ events

def countPayloadDivergences (left right : HashMap Text Text) : Nat :=
  (left.toPairs.filter fun entry => (right.get entry.1).any (· != entry.2)).length

/-- The accumulators of `merge_event_sources`. -/
structure Merging where
  merged : List NetworkBehaviorIndicator
  seen : Finset Text

/-- One event of a source; `pick` is the copy that is taken of an event. -/
def mergeStep (pick : NetworkBehaviorIndicator → NetworkBehaviorIndicator) (state : Merging)
    (event : NetworkBehaviorIndicator) : Merging :=
  let eventId := normalizeEventId event
  if eventId ∈ state.seen then state
  else ⟨state.merged ++ [pick event], insert eventId state.seen⟩

def mergeEventSources (jsonlEvents dbEvents : List NetworkBehaviorIndicator)
    (preferDbForShared : Bool)
    : List NetworkBehaviorIndicator :=
  let dbEventsById : HashMap Text NetworkBehaviorIndicator :=
    .fromPairs (dbEvents.map fun event => (normalizeEventId event, event))
  let pick (event : NetworkBehaviorIndicator) : NetworkBehaviorIndicator :=
    if preferDbForShared then (dbEventsById.get (normalizeEventId event)).getD event else event
  (dbEvents.foldl (mergeStep id) (jsonlEvents.foldl (mergeStep pick) ⟨[], ∅⟩)).merged

namespace ShutdownContext

def jsonlEvents (ctx : ShutdownContext) : List NetworkBehaviorIndicator :=
  match ctx.jsonl with
  | some load => load.events
  | none => []

/-- A database that cannot be read counts as empty. -/
def dbEvents (ctx : ShutdownContext) : List NetworkBehaviorIndicator :=
  match ctx.database with
  | some (.ok events) => events
  | some (.error _) => []
  | none => []

def hadIntegritySignals (ctx : ShutdownContext) : Bool :=
  ctx.jsonl.any (fun load => 0 < load.invalidLines)
    || ctx.jsonl.any (fun load => load.readError.isSome)
    || ctx.localPersistFailures.any (0 < ·)

end ShutdownContext

def resolveShutdownEvents (ctx : ShutdownContext) : List NetworkBehaviorIndicator :=
  let jsonlEvents := ctx.jsonlEvents
  let dbEvents := ctx.dbEvents
  let hadIntegritySignals := ctx.hadIntegritySignals
  let jsonlEventIds := eventIdSet jsonlEvents
  let dbEventIds := eventIdSet dbEvents
  let jsonlPayloads := eventPayloadMap jsonlEvents
  let dbPayloads := eventPayloadMap dbEvents
  let divergentEvents := countPayloadDivergences jsonlPayloads dbPayloads
  let jsonlHasDuplicates := hasDuplicateEventIds jsonlEvents
  let dbHasDuplicates := hasDuplicateEventIds dbEvents
  let hasDuplicateEventIds := jsonlHasDuplicates || dbHasDuplicates
  if jsonlEvents.isEmpty then
    if dbHasDuplicates then mergeEventSources jsonlEvents dbEvents false else dbEvents
  else if dbEvents.isEmpty then
    if jsonlHasDuplicates then mergeEventSources jsonlEvents dbEvents false else jsonlEvents
  else if eventsMatch jsonlEvents dbEvents then
    if hasDuplicateEventIds then mergeEventSources jsonlEvents dbEvents true else jsonlEvents
  else if jsonlEventIds = dbEventIds then
    if jsonlPayloads.same dbPayloads then
      if hadIntegritySignals || hasDuplicateEventIds then
        mergeEventSources jsonlEvents dbEvents true
      else jsonlEvents
    else if hadIntegritySignals then mergeEventSources jsonlEvents dbEvents true
    else jsonlEvents
  else if jsonlEventIds ⊆ dbEventIds then
    if 0 < divergentEvents then
      if hadIntegritySignals then mergeEventSources jsonlEvents dbEvents true
      else mergeEventSources jsonlEvents dbEvents false
    else dbEvents
  else if dbEventIds ⊆ jsonlEventIds then
    if 0 < divergentEvents then
      if hadIntegritySignals then mergeEventSources jsonlEvents dbEvents true
      else jsonlEvents
    else jsonlEvents
  else mergeEventSources jsonlEvents dbEvents false

end NetTrap.Shutdown
