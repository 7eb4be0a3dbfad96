import Mathlib.Data.Finset.Basic
import NetTrap.Nbi.Fingerprint

/-! The HTTP sink: events are buffered in a batch, and a flush sends one request for each of
them. `serde_json` is a parameter, requests may end in any way, and clock readings are
arguments. The request header, the timeout and what is logged decide nothing here.
-/

namespace NetTrap.Distributed

open Rust Nbi

def httpSinkMaxBufferedEvents : Nat := 1024
def httpSinkMaxEventBytes : Nat := 1024 * 1024

inductive SinkDeliveryState where
  | delivered
  | buffered
  | lost
  | unknown
  deriving DecidableEq, Repr

structure SinkSendResult where
  state : SinkDeliveryState
  error : Option Text
  deriving DecidableEq, Repr

namespace SinkSendResult

def buffered (error : Option Text) : SinkSendResult :=
  ⟨.buffered, error⟩

def lost (error : Text) : SinkSendResult :=
  ⟨.lost, some error⟩

def unknown (error : Text) : SinkSendResult :=
  ⟨.unknown, some error⟩

end SinkSendResult

structure BufferedHttpEvent where
  sequence : Nat
  eventId : Text
  json : Bytes
  enqueuedAt : Nat
  deriving DecidableEq, Repr

/-- How a request ended. -/
inductive RequestEnd where
  | timedOut
  | responded (success : Bool) (status : Text)
  | failed (error : Text)
  deriving DecidableEq, Repr

namespace RequestEnd

def isDelivered : RequestEnd → Bool
  | responded success _ => success
  | _ => false

def isRefused : RequestEnd → Bool
  | responded success _ => !success
  | _ => false

def isUnknown : RequestEnd → Bool
  | timedOut | failed _ => true
  | responded .. => false

end RequestEnd

/-- A request on the wire and how it ended. -/
structure Request where
  event : BufferedHttpEvent
  ending : RequestEnd
  deriving DecidableEq, Repr

structure HttpBatchSendOutcome where
  failedEvents : List BufferedHttpEvent
  unknownEventIds : Finset Text
  unknownEventSequences : Finset Nat
  error : Option Text

structure HttpSink where
  url : Text
  batch : List BufferedHttpEvent
  oldestEventAt : Option Nat
  flushing : Bool
  (pending nextSequence : Nat)
  pendingSequences : Finset Nat
  (pendingEventIds unknownEventIds : Finset Text)
  unknownEventSequences : Finset Nat
  (batchSize flushInterval : Nat)

namespace HttpSink

def new (url : Text) (batchSize flushIntervalMs : Nat) : HttpSink where
  url := url
  batch := []
  oldestEventAt := none
  flushing := false
  pending := 0
  nextSequence := 0
  pendingSequences := ∅
  pendingEventIds := ∅
  unknownEventIds := ∅
  unknownEventSequences := ∅
  batchSize := if batchSize = 0 then 100 else min batchSize httpSinkMaxBufferedEvents
  flushInterval := if flushIntervalMs = 0 then 1000 else flushIntervalMs

/-! Flushing. -/

/-- The accumulators of `send_batch`, and the requests it has made. -/
structure BatchProgress where
  errors : List Text
  failedEvents : List BufferedHttpEvent
  unknownEventIds : Finset Text
  unknownEventSequences : Finset Nat
  requests : List Request

/-- One round of the loop of `send_batch`. -/
def sendRequest (url : Text) (answer : BufferedHttpEvent → RequestEnd) (progress : BatchProgress)
    (event : BufferedHttpEvent) : BatchProgress :=
  let progress := { progress with requests := progress.requests ++ [⟨event, answer event⟩] }
  match answer event with
  | .timedOut =>
    { progress with
      errors := progress.errors ++ [.lit "HTTP " ++ url ++ .lit " request timed out"]
      unknownEventIds := insert event.eventId progress.unknownEventIds
      unknownEventSequences := insert event.sequence progress.unknownEventSequences }
  | .responded false status =>
    { progress with
      errors := progress.errors ++ [.lit "HTTP " ++ url ++ .lit " responded with " ++ status]
      failedEvents := progress.failedEvents ++ [event] }
  | .failed error =>
    { progress with
      errors := progress.errors ++ [.lit "HTTP " ++ url ++ .lit " send error: " ++ error]
      unknownEventIds := insert event.eventId progress.unknownEventIds
      unknownEventSequences := insert event.sequence progress.unknownEventSequences }
  | .responded true _ => progress

variable (sink : HttpSink)

def sendBatch (answer : BufferedHttpEvent → RequestEnd) (events : List BufferedHttpEvent)
    : HttpBatchSendOutcome × List Request :=
  let progress := events.foldl (sendRequest sink.url answer) ⟨[], [], ∅, ∅, []⟩
  (⟨progress.failedEvents, progress.unknownEventIds, progress.unknownEventSequences,
    if progress.errors.isEmpty then none else some ((Text.lit "; ").intercalate progress.errors)⟩,
    progress.requests)

def oldestEventAtOf (batch : List BufferedHttpEvent) : Option Nat :=
  (batch.map BufferedHttpEvent.enqueuedAt).min?

/-- The first critical section of `flush_due_to`: the events to send, if it is time. -/
def beginFlush (staleOnly : Bool) (now : Nat) : Option (List BufferedHttpEvent × HttpSink) :=
  if sink.flushing || sink.batch.isEmpty then none
  else if staleOnly && !sink.oldestEventAt.any fun oldest => sink.flushInterval ≤ now - oldest then
    none
  else some (sink.batch, { sink with flushing := true })

/-- The second critical section of `flush_due_to`, with the sink as it is by then. -/
def finishFlush (events : List BufferedHttpEvent) (outcome : HttpBatchSendOutcome)
    : HttpSink × Except Text Bool :=
  let sentEventSequences := (events.map BufferedHttpEvent.sequence).toFinset
  let stillBufferedIds := (sink.batch.map BufferedHttpEvent.eventId).toFinset
  let stillBufferedSequences := (sink.batch.map BufferedHttpEvent.sequence).toFinset
  let remainingBatch := sink.batch.filter (·.sequence ∉ sentEventSequences)
  let batch := outcome.failedEvents.filter (·.sequence ∈ stillBufferedSequences) ++ remainingBatch
  ({ sink with
      flushing := false
      batch := batch
      pending := batch.length
      pendingSequences := (batch.map BufferedHttpEvent.sequence).toFinset
      pendingEventIds := (batch.map BufferedHttpEvent.eventId).toFinset
      unknownEventIds := sink.unknownEventIds ∪ outcome.unknownEventIds ∩ stillBufferedIds
      unknownEventSequences :=
        sink.unknownEventSequences ∪ outcome.unknownEventSequences ∩ stillBufferedSequences
      oldestEventAt := oldestEventAtOf batch },
    match outcome.error with
    | some error => .error error
    | none => .ok true)

def flushDueTo (staleOnly : Bool) (now : Nat) (answer : BufferedHttpEvent → RequestEnd)
    : HttpSink × Except Text Bool × List Request :=
  match sink.beginFlush staleOnly now with
  | none => (sink, .ok false, [])
  | some (events, sink) =>
    let (outcome, requests) := sink.sendBatch answer events
    let (sink, flushed) := sink.finishFlush events outcome
    (sink, flushed, requests)

def flush (now : Nat) (answer : BufferedHttpEvent → RequestEnd)
    : HttpSink × Except Text Unit × List Request :=
  let (sink, flushed, requests) := sink.flushDueTo false now answer
  (sink, flushed.map fun _ => (), requests)

def flushStale (now : Nat) (answer : BufferedHttpEvent → RequestEnd)
    : HttpSink × Except Text Bool × List Request :=
  sink.flushDueTo true now answer

/-! Sending. -/

/-- The event enters the batch, in the critical section of `send`. -/
def push (event : BufferedHttpEvent) : HttpSink :=
  { sink with
    oldestEventAt := if sink.batch.isEmpty then some event.enqueuedAt else sink.oldestEventAt
    batch := sink.batch ++ [event]
    pending := sink.pending + 1
    pendingSequences := insert event.sequence sink.pendingSequences
    pendingEventIds := insert event.eventId sink.pendingEventIds }

def shouldFlush (now : Nat) : Bool :=
  !sink.flushing
    && (sink.batchSize ≤ sink.batch.length
      || sink.oldestEventAt.any fun oldest => sink.flushInterval ≤ now - oldest)

/-- The answer of `send`, from what has become of the event. -/
def report (event : BufferedHttpEvent) (flushError : Option Text) : HttpSink × SinkSendResult :=
  let isUnknown := event.sequence ∈ sink.unknownEventSequences
  let forgotten :=
    { sink with unknownEventSequences := sink.unknownEventSequences.erase event.sequence }
  if event.sequence ∈ sink.pendingSequences then (forgotten, .buffered flushError)
  else if isUnknown then
    ({ forgotten with unknownEventIds := sink.unknownEventIds.erase event.eventId },
      .unknown (flushError.getD (.lit "HTTP " ++ sink.url ++ .lit " request timed out")))
  else (forgotten, ⟨.delivered, flushError⟩)

/-- The counter of sequence numbers is an `AtomicU64`. -/
def sequenceModulus : Nat := 2 ^ 64

def send (serialize : NetworkBehaviorIndicator → Except Text Bytes)
    (event : NetworkBehaviorIndicator) (enqueuedAt checkedAt : Nat)
    (answer : BufferedHttpEvent → RequestEnd) : HttpSink × SinkSendResult × List Request :=
  match serialize event with
  | .error error => (sink, .lost error, [])
  | .ok json =>
    if json.length > httpSinkMaxEventBytes then
      (sink, .lost (.lit "HTTP sink " ++ sink.url ++ .lit " event payload too large ("
        ++ .decimal json.length ++ .lit " > " ++ .decimal httpSinkMaxEventBytes
        ++ .lit " bytes)"), [])
    else
      let buffered : BufferedHttpEvent :=
        ⟨sink.nextSequence, event.normalizedEventId, json, enqueuedAt⟩
      let sink := { sink with nextSequence := (sink.nextSequence + 1) % sequenceModulus }
      if sink.batch.length ≥ httpSinkMaxBufferedEvents then
        (sink, .lost (.lit "HTTP sink " ++ sink.url ++ .lit " buffer full at "
          ++ .decimal httpSinkMaxBufferedEvents ++ .lit " events"), [])
      else
        let sink := sink.push buffered
        let (sink, flushed, requests) :=
          if sink.shouldFlush checkedAt then sink.flushDueTo false checkedAt answer
          else (sink, .ok false, [])
        let flushError := match flushed with
          | .error error => some error
          | .ok _ => none
        let (sink, result) := sink.report buffered flushError
        (sink, result, requests)

/-! Reports. -/

def bufferedEvents : Nat :=
  sink.pending

def bufferedEventIds : Finset Text :=
  sink.pendingEventIds

def dropBufferedEvents (eventIds : Finset Text) : HttpSink × Nat :=
  if eventIds = ∅ then (sink, 0)
  else
    let batch := sink.batch.filter (·.eventId ∉ eventIds)
    ({ sink with
        batch := batch
        pending := batch.length
        pendingSequences := (batch.map BufferedHttpEvent.sequence).toFinset
        pendingEventIds := (batch.map BufferedHttpEvent.eventId).toFinset
        oldestEventAt := oldestEventAtOf batch
        unknownEventIds := sink.unknownEventIds \ eventIds
        unknownEventSequences :=
          sink.unknownEventSequences ∩ (batch.map BufferedHttpEvent.sequence).toFinset },
      sink.batch.length - batch.length)

def takeUnknownEventIds : HttpSink × Finset Text :=
  ({ sink with unknownEventIds := ∅ }, sink.unknownEventIds)

end HttpSink

end NetTrap.Distributed
