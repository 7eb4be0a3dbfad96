import Mathlib.Data.List.Nodup
import Mathlib.Data.List.Perm.Basic
import NetTrap.Distributed.HttpSink

/-! Runs of completed operations on an HTTP sink: its reports always describe the batch, and
every accepted event is accounted for once.
-/

namespace NetTrap.Distributed

open Rust Nbi List

/-! One flush. -/

namespace HttpSink

/-- What the sink reports is what the batch holds. -/
structure Consistent (sink : HttpSink) : Prop where
  pending : sink.bufferedEvents = sink.batch.length
  pendingSequences : sink.pendingSequences = (sink.batch.map BufferedHttpEvent.sequence).toFinset
  pendingEventIds : sink.bufferedEventIds = (sink.batch.map BufferedHttpEvent.eventId).toFinset
  bounded : sink.batch.length ≤ httpSinkMaxBufferedEvents
  increasing : (sink.batch.map BufferedHttpEvent.sequence).Pairwise (· < ·)
  oldest : sink.oldestEventAt = (sink.batch.map BufferedHttpEvent.enqueuedAt).min?
  idle : sink.flushing = false

section Flushing

variable {url : Text} {answer : BufferedHttpEvent → RequestEnd}

theorem sendRequest_step (progress : BatchProgress) (event : BufferedHttpEvent)
    : (sendRequest url answer progress event).failedEvents
        = progress.failedEvents ++ [event].filter (fun event => (answer event).isRefused)
      ∧ (sendRequest url answer progress event).requests
        = progress.requests ++ [⟨event, answer event⟩] := by
  cases ending : answer event with
  | timedOut | failed error => simp [sendRequest, ending, RequestEnd.isRefused]
  | responded success status =>
    cases success with
    | false | true => simp [sendRequest, ending, RequestEnd.isRefused]

/-- The loop of `send_batch` makes one request for each event and collects the refused ones. -/
theorem foldl_sendRequest (events : List BufferedHttpEvent) (progress : BatchProgress)
    : (events.foldl (sendRequest url answer) progress).failedEvents
        = progress.failedEvents ++ events.filter (fun event => (answer event).isRefused)
      ∧ (events.foldl (sendRequest url answer) progress).requests
        = progress.requests ++ events.map fun event => ⟨event, answer event⟩ := by
  induction events generalizing progress with
  | nil => simp
  | cons event events ih =>
    obtain ⟨failed, requests⟩ := sendRequest_step progress event
    rw [foldl_cons, (ih _).1, (ih _).2, failed, requests, append_assoc,
      append_assoc, ← filter_append]
    exact ⟨rfl, rfl⟩

/-- A flush sends every buffered event and keeps those that were refused. -/
structure Flushed (answer : BufferedHttpEvent → RequestEnd) (before after : HttpSink)
    (requests : List Request) : Prop where
  batch : after.batch = before.batch.filter fun event => (answer event).isRefused
  requests : requests = before.batch.map fun event => ⟨event, answer event⟩
  nextSequence : after.nextSequence = before.nextSequence
  consistent : after.Consistent

theorem Consistent.flushed {sink} (consistent : sink.Consistent)
    : Flushed answer sink (({ sink with flushing := true }).finishFlush sink.batch
          (({ sink with flushing := true }).sendBatch answer sink.batch).1).1
        (({ sink with flushing := true }).sendBatch answer sink.batch).2 := by
  have kept : (sink.batch.filter fun event => (answer event).isRefused).filter
      (·.sequence ∈ (sink.batch.map BufferedHttpEvent.sequence).toFinset)
      = sink.batch.filter fun event => (answer event).isRefused := by
    apply filter_eq_self.mpr
    intro event member
    simp only [mem_toFinset, decide_eq_true_eq]
    exact mem_map_of_mem (mem_of_mem_filter member)
  have none_left : sink.batch.filter
      (·.sequence ∉ (sink.batch.map BufferedHttpEvent.sequence).toFinset) = [] := by
    apply filter_eq_nil_iff.mpr
    intro event member absent
    simp only [mem_toFinset, decide_eq_true_eq] at absent
    exact absent (mem_map_of_mem member)
  have batch : (({ sink with flushing := true }).finishFlush sink.batch
      (({ sink with flushing := true }).sendBatch answer sink.batch).1).1.batch
      = sink.batch.filter fun event => (answer event).isRefused := by
    simp only [finishFlush, sendBatch, (foldl_sendRequest _ _).1, nil_append]
    rw [kept, none_left, append_nil]
  refine ⟨batch, ?_, rfl, rfl, rfl, rfl, ?_, ?_, rfl, rfl⟩
  · simp [sendBatch, (foldl_sendRequest _ _).2]
  · rw [batch]
    exact (length_filter_le _ _).trans consistent.bounded
  · rw [batch]
    exact consistent.increasing.sublist (filter_sublist.map _)

/-- A flush that is due takes place, and otherwise nothing happens. -/
theorem Consistent.flushDueTo {sink} (consistent : sink.Consistent) (staleOnly : Bool) (now : Nat)
    (answer : BufferedHttpEvent → RequestEnd)
    : ((sink.flushDueTo staleOnly now answer).1 = sink
        ∧ (sink.flushDueTo staleOnly now answer).2.2 = [])
      ∨ Flushed answer sink (sink.flushDueTo staleOnly now answer).1
          (sink.flushDueTo staleOnly now answer).2.2 := by
  rw [HttpSink.flushDueTo, beginFlush]
  by_cases nothing : (sink.flushing || sink.batch.isEmpty) = true
  · rw [if_pos nothing]
    exact .inl ⟨rfl, rfl⟩
  rw [if_neg nothing]
  split
  · exact .inl ⟨rfl, rfl⟩
  · next events changed begun =>
    split at begun
    · cases begun
    · cases begun
      exact .inr consistent.flushed

end Flushing

theorem min?_append_latest {times : List Nat} {latest : Nat} (nonempty : times ≠ [])
    (notEarlier : ∀ time ∈ times, time ≤ latest)
    : (times ++ [latest]).min? = times.min? := by
  obtain ⟨first, earliest⟩ : ∃ first, times.min? = some first := by
    rw [← Option.isSome_iff_exists]
    exact isSome_min?_of_ne_nil nonempty
  rw [earliest]
  obtain ⟨member, least⟩ := min?_eq_some_iff.mp earliest
  apply min?_eq_some_iff.mpr
  refine ⟨mem_append_left _ member, ?_⟩
  intro time included
  rcases mem_append.mp included with earlier | last
  · exact least time earlier
  · rw [mem_singleton.mp last]
    exact notEarlier first member

theorem Consistent.push {sink : HttpSink} (consistent : sink.Consistent) {event}
    (room : sink.batch.length < httpSinkMaxBufferedEvents)
    (newest : ∀ other ∈ sink.batch, other.sequence < event.sequence)
    (latest : ∀ other ∈ sink.batch, other.enqueuedAt ≤ event.enqueuedAt)
    : (sink.push event).Consistent where
  pending := by
    have before : sink.pending = sink.batch.length := consistent.pending
    simp [HttpSink.push, bufferedEvents, before]
  pendingSequences := by
    ext sequence
    simp [HttpSink.push, consistent.pendingSequences]
  pendingEventIds := by
    ext eventId
    have before : sink.pendingEventIds = (sink.batch.map BufferedHttpEvent.eventId).toFinset :=
      consistent.pendingEventIds
    simp [HttpSink.push, bufferedEventIds, before]
  bounded := by
    simp [HttpSink.push]
    omega
  increasing := by
    simp only [HttpSink.push, map_append, map_singleton, pairwise_append]
    refine ⟨consistent.increasing, pairwise_singleton _ _, ?_⟩
    intro earlier member last here
    obtain ⟨other, included, rfl⟩ := mem_map.mp member
    rw [mem_singleton.mp here]
    exact newest other included
  oldest := by
    simp only [HttpSink.push, consistent.oldest]
    cases batch : sink.batch with
    | nil => simp
    | cons first rest =>
      have notEarlier : ∀ time ∈ (first :: rest).map BufferedHttpEvent.enqueuedAt,
          time ≤ event.enqueuedAt := by
        intro time member
        obtain ⟨other, included, rfl⟩ := mem_map.mp member
        exact latest other (batch ▸ included)
      rw [map_append, map_singleton, min?_append_latest (by simp) notEarlier]
      rfl
  idle := consistent.idle

end HttpSink

/-! Sessions. -/

/-- The operations on a sink. Waiting times say how far the clock has moved on when it is
read.
-/
inductive HttpOperation where
  | send (event : NetworkBehaviorIndicator) (wait pause : Nat)
    (answer : BufferedHttpEvent → RequestEnd)
  | flush (wait : Nat) (answer : BufferedHttpEvent → RequestEnd)
  | flushStale (wait : Nat) (answer : BufferedHttpEvent → RequestEnd)
  | dropBufferedEvents (eventIds : Finset Text)
  | takeUnknownEventIds

/-- A sink, with a record of what has happened to it: the events it accepted, the requests
it made and the events that were dropped from it, by sequence numbers.
-/
structure HttpSession where
  sink : HttpSink
  clock : Nat
  accepted : List Nat
  requests : List Request
  dropped : List Nat

namespace HttpSession

def start (sink : HttpSink) (clock : Nat) : HttpSession :=
  ⟨sink, clock, [], [], []⟩

variable (serialize : NetworkBehaviorIndicator → Except Text Bytes)

def step (session : HttpSession) : HttpOperation → HttpSession
  | .send event wait pause answer =>
    let enqueuedAt := session.clock + wait
    let checkedAt := enqueuedAt + pause
    let (sink, result, requests) :=
      session.sink.send serialize event enqueuedAt checkedAt answer
    { session with
      sink := sink
      clock := checkedAt
      accepted :=
        if result.state = .lost then session.accepted
        else session.accepted ++ [session.sink.nextSequence]
      requests := session.requests ++ requests }
  | .flush wait answer =>
    let (sink, _, requests) := session.sink.flush (session.clock + wait) answer
    { session with
      sink := sink, clock := session.clock + wait, requests := session.requests ++ requests }
  | .flushStale wait answer =>
    let (sink, _, requests) := session.sink.flushStale (session.clock + wait) answer
    { session with
      sink := sink, clock := session.clock + wait, requests := session.requests ++ requests }
  | .dropBufferedEvents eventIds =>
    let (sink, _) := session.sink.dropBufferedEvents eventIds
    { session with
      sink := sink
      dropped := session.dropped
        ++ (session.sink.batch.filter (· ∉ sink.batch)).map BufferedHttpEvent.sequence }
  | .takeUnknownEventIds => { session with sink := session.sink.takeUnknownEventIds.1 }

def run (session : HttpSession) (operations : List HttpOperation) : HttpSession :=
  operations.foldl (step serialize) session

/-! The invariant. -/

/-- The sequence numbers of the requests that settled their event. -/
def settledSequences (requests : List Request) : List Nat :=
  (requests.filter fun request => !request.ending.isRefused).map (·.event.sequence)

/-- After a settling request, there is no other request for the same event. -/
def SettledOnce (requests : List Request) : Prop :=
  requests.Pairwise fun earlier later =>
    earlier.ending.isRefused = false → later.event.sequence ≠ earlier.event.sequence

/-- Every accepted event has one place, while `taken` sequence numbers have been given out. -/
structure Accounted (session : HttpSession) (taken : Nat) : Prop where
  consistent : session.sink.Consistent
  numbered : session.sink.nextSequence = taken % HttpSink.sequenceModulus
  past : ∀ event ∈ session.sink.batch, event.enqueuedAt ≤ session.clock
  below : ∀ sequence ∈ session.accepted, sequence < taken
  nodup : session.accepted.Nodup
  ledger
    : session.accepted.Perm
        (session.sink.batch.map BufferedHttpEvent.sequence
          ++ (settledSequences session.requests ++ session.dropped))
  once : SettledOnce session.requests

variable {serialize} {session : HttpSession} {taken : Nat}

theorem Accounted.start (url : Text) (batchSize flushIntervalMs clock : Nat)
    : (HttpSession.start (.new url batchSize flushIntervalMs) clock).Accounted 0 where
  consistent := ⟨rfl, rfl, rfl, Nat.zero_le _, .nil, rfl, rfl⟩
  numbered := rfl
  past _ member := nomatch member
  below _ member := nomatch member
  nodup := .nil
  ledger := .nil
  once := .nil

section Steps

variable (accounted : session.Accounted taken)

include accounted

theorem Accounted.places_nodup
    : (session.sink.batch.map BufferedHttpEvent.sequence
        ++ (settledSequences session.requests ++ session.dropped)).Nodup :=
  accounted.ledger.nodup_iff.mp accounted.nodup

theorem Accounted.sequence_lt {event} (member : event ∈ session.sink.batch)
    : event.sequence < taken := by
  apply accounted.below
  apply accounted.ledger.mem_iff.mpr
  exact mem_append_left _ (mem_map_of_mem member)

/-- A flush moves the settled events from the batch to the requests. -/
theorem Accounted.flushed {answer after requests}
    (flushed : HttpSink.Flushed answer session.sink after requests) (wait : Nat)
    : ({ session with
          sink := after, clock := session.clock + wait,
          requests := session.requests ++ requests } : HttpSession).Accounted taken where
  consistent := flushed.consistent
  numbered := flushed.nextSequence.trans accounted.numbered
  past event member := by
    simp only [flushed.batch] at member
    exact (accounted.past event (mem_of_mem_filter member)).trans (Nat.le_add_right _ _)
  below := accounted.below
  nodup := accounted.nodup
  ledger := by
    have parts := (filter_append_perm (fun event => (answer event).isRefused)
      session.sink.batch).map BufferedHttpEvent.sequence
    have settled : settledSequences requests
        = (session.sink.batch.filter fun event => !(answer event).isRefused).map
            BufferedHttpEvent.sequence := by
      rw [settledSequences, flushed.requests, filter_map, map_map]
      rfl
    have appended : settledSequences (session.requests ++ requests)
        = settledSequences session.requests ++ settledSequences requests := by
      simp [settledSequences]
    refine accounted.ledger.trans ?_
    simp only [flushed.batch, appended, settled]
    rw [perm_iff_count] at parts ⊢
    intro sequence
    have here := parts sequence
    simp at here ⊢
    omega
  once := by
    rw [SettledOnce, pairwise_append]
    refine ⟨accounted.once, ?_, ?_⟩
    · rw [flushed.requests, pairwise_map]
      have increasing := pairwise_map.mp accounted.consistent.increasing
      refine increasing.imp ?_
      intro earlier later ordered _
      exact Nat.ne_of_gt ordered
    · intro earlier before later now settled same
      rw [flushed.requests] at now
      obtain ⟨event, member, rfl⟩ := mem_map.mp now
      have placed : earlier.event.sequence ∈ settledSequences session.requests := by
        refine mem_map.mpr ⟨earlier, mem_filter.mpr ⟨before, ?_⟩, rfl⟩
        simp [settled]
      have disjoint := (nodup_append.mp accounted.places_nodup).2.2
      exact disjoint _ (mem_map_of_mem member) _ (mem_append_left _ placed) same

theorem Accounted.later (wait : Nat)
    : ({ session with clock := session.clock + wait } : HttpSession).Accounted taken :=
  { accounted with
    past := fun event member => (accounted.past event member).trans (Nat.le_add_right _ _) }

theorem Accounted.flushDueTo (staleOnly : Bool) (wait now : Nat)
    (answer : BufferedHttpEvent → RequestEnd)
    : ({ session with
          sink := (session.sink.flushDueTo staleOnly now answer).1, clock := session.clock + wait,
          requests := session.requests ++ (session.sink.flushDueTo staleOnly now answer).2.2 }
        : HttpSession).Accounted taken := by
  rcases accounted.consistent.flushDueTo staleOnly now answer with ⟨same, none⟩ | flushed
  · rw [same, none, append_nil]
    exact accounted.later wait
  · exact accounted.flushed flushed wait

/-- Unknown outcomes and numbers that no event was given are not part of the account. -/
theorem Accounted.ignore {number nextSequence}
    (numbered : nextSequence = number % HttpSink.sequenceModulus) (more : taken ≤ number)
    (unknownEventIds : Finset Text) (unknownEventSequences : Finset Nat)
    : ({ session with
          sink := { session.sink with
            nextSequence := nextSequence, unknownEventIds := unknownEventIds
            unknownEventSequences := unknownEventSequences } }
        : HttpSession).Accounted number where
  consistent :=
    ⟨accounted.consistent.pending, accounted.consistent.pendingSequences,
      accounted.consistent.pendingEventIds, accounted.consistent.bounded,
      accounted.consistent.increasing, accounted.consistent.oldest, accounted.consistent.idle⟩
  numbered := numbered
  past := accounted.past
  below sequence member := (accounted.below sequence member).trans_le more
  nodup := accounted.nodup
  ledger := accounted.ledger
  once := accounted.once

/-- A sequence number is given out, to an event that finds the buffer full. -/
theorem Accounted.taken_succ
    : ({ session with
          sink := { session.sink with
            nextSequence := (session.sink.nextSequence + 1) % HttpSink.sequenceModulus } }
        : HttpSession).Accounted (taken + 1) :=
  accounted.ignore (by rw [accounted.numbered, Nat.mod_add_mod]) (Nat.le_succ taken) _ _

/-- A new event enters the batch with a number no other event has had. -/
theorem Accounted.pushed (small : taken < HttpSink.sequenceModulus) {event}
    (room : session.sink.batch.length < httpSinkMaxBufferedEvents)
    (number : event.sequence = session.sink.nextSequence) {wait}
    (time : event.enqueuedAt = session.clock + wait)
    : ({ session with
          sink := ({ session.sink with
            nextSequence :=
              (session.sink.nextSequence + 1) % HttpSink.sequenceModulus } : HttpSink).push event
          clock := session.clock + wait
          accepted := session.accepted ++ [session.sink.nextSequence] }
        : HttpSession).Accounted (taken + 1) := by
  have fresh : session.sink.nextSequence = taken := by
    rw [accounted.numbered, Nat.mod_eq_of_lt small]
  have bumped := accounted.taken_succ
  refine ⟨bumped.consistent.push room ?_ ?_, bumped.numbered, ?_, ?_, ?_, ?_, accounted.once⟩
  · intro other member
    have lower := accounted.sequence_lt member
    omega
  · intro other member
    have earlier := accounted.past other member
    omega
  · intro other member
    rcases mem_append.mp member with before | new
    · exact (accounted.past other before).trans (Nat.le_add_right _ _)
    · rw [mem_singleton.mp new, time]
  · intro sequence member
    rcases mem_append.mp member with before | new
    · exact Nat.lt_succ_of_lt (accounted.below sequence before)
    · rw [mem_singleton.mp new, fresh]
      exact Nat.lt_succ_self taken
  · refine nodup_append.mpr ⟨accounted.nodup, nodup_singleton _, ?_⟩
    intro sequence before new here
    rw [mem_singleton.mp here, fresh]
    exact Nat.ne_of_lt (accounted.below sequence before)
  · have before := accounted.ledger
    rw [perm_iff_count] at before ⊢
    intro sequence
    have here := before sequence
    simp only [HttpSink.push, map_append, map_singleton, count_append, number] at here ⊢
    omega

omit accounted in
theorem report_ne_lost (sink : HttpSink) (event : BufferedHttpEvent) (flushError : Option Text)
    : (sink.report event flushError).2.state ≠ .lost := by
  simp only [HttpSink.report]
  split
  · exact nofun
  split
  · exact nofun
  · exact nofun

theorem Accounted.reported (event : BufferedHttpEvent) (flushError : Option Text)
    : ({ session with sink := (session.sink.report event flushError).1 } : HttpSession).Accounted
        taken := by
  simp only [HttpSink.report]
  split
  · exact accounted.ignore accounted.numbered le_rfl _ _
  split
  · exact accounted.ignore accounted.numbered le_rfl _ _
  · exact accounted.ignore accounted.numbered le_rfl _ _

/-- The step `send` keeps the account, for each way it can go. -/
theorem Accounted.send (small : taken < HttpSink.sequenceModulus) (event : NetworkBehaviorIndicator)
    (wait pause : Nat) (answer : BufferedHttpEvent → RequestEnd)
    : ∃ number, number ≤ taken + 1
        ∧ (session.step serialize (.send event wait pause answer)).Accounted number := by
  simp only [step, HttpSink.send]
  cases serialize event with
  | error error =>
    refine ⟨taken, Nat.le_succ taken, ?_⟩
    simpa [SinkSendResult.lost, Nat.add_assoc] using accounted.later (wait + pause)
  | ok json =>
    simp only
    split
    · refine ⟨taken, Nat.le_succ taken, ?_⟩
      simpa [SinkSendResult.lost, Nat.add_assoc] using accounted.later (wait + pause)
    split
    · refine ⟨taken + 1, le_rfl, ?_⟩
      simpa [SinkSendResult.lost, Nat.add_assoc] using accounted.taken_succ.later (wait + pause)
    next fits room =>
    refine ⟨taken + 1, le_rfl, ?_⟩
    let buffered : BufferedHttpEvent :=
      ⟨session.sink.nextSequence, event.normalizedEventId, json, session.clock + wait⟩
    have pushed := accounted.pushed small (Nat.not_le.mp room)
      (show buffered.sequence = session.sink.nextSequence from rfl)
      (show buffered.enqueuedAt = session.clock + wait from rfl)
    rw [if_neg (report_ne_lost _ _ _)]
    split
    · exact (pushed.flushDueTo false pause _ answer).reported _ _
    · rw [append_nil]
      exact (pushed.later pause).reported _ _

theorem Accounted.dropBufferedEvents (eventIds : Finset Text)
    : (session.step serialize (.dropBufferedEvents eventIds)).Accounted taken := by
  by_cases nothing : eventIds = ∅
  · have none_lost : session.sink.batch.filter (· ∉ session.sink.batch) = [] := by
      simp
    simp only [step, HttpSink.dropBufferedEvents, if_pos nothing, none_lost, map_nil, append_nil]
    exact accounted
  have lost : session.sink.batch.filter (· ∉ session.sink.batch.filter (·.eventId ∉ eventIds))
      = session.sink.batch.filter fun event => !decide (event.eventId ∉ eventIds) := by
    apply filter_congr
    intro event member
    simp [member]
  simp only [step, HttpSink.dropBufferedEvents, if_neg nothing, lost]
  refine ⟨⟨rfl, rfl, rfl, ?_, ?_, rfl, accounted.consistent.idle⟩, accounted.numbered, ?_,
    accounted.below, accounted.nodup, ?_, accounted.once⟩
  · exact (length_filter_le _ _).trans accounted.consistent.bounded
  · exact accounted.consistent.increasing.sublist (filter_sublist.map _)
  · intro event member
    exact accounted.past event (mem_of_mem_filter member)
  · have parts := (filter_append_perm (fun event => decide (event.eventId ∉ eventIds))
      session.sink.batch).map BufferedHttpEvent.sequence
    refine accounted.ledger.trans ?_
    rw [perm_iff_count] at parts ⊢
    intro sequence
    have here := parts sequence
    simp at here ⊢
    omega

end Steps

/-- The sequence numbers an operation may take. -/
def sends : HttpOperation → Nat
  | .send .. => 1
  | _ => 0

section

variable (serialize : NetworkBehaviorIndicator → Except Text Bytes)

theorem Accounted.step (accounted : session.Accounted taken) (operation : HttpOperation)
    (small : taken + sends operation ≤ HttpSink.sequenceModulus)
    : ∃ number, number ≤ taken + sends operation
        ∧ (session.step serialize operation).Accounted number := by
  cases operation with
  | send event wait pause answer => exact accounted.send small event wait pause answer
  | flush wait answer => exact ⟨taken, le_rfl, accounted.flushDueTo false wait _ answer⟩
  | flushStale wait answer => exact ⟨taken, le_rfl, accounted.flushDueTo true wait _ answer⟩
  | dropBufferedEvents eventIds => exact ⟨taken, le_rfl, accounted.dropBufferedEvents eventIds⟩
  | takeUnknownEventIds => exact ⟨taken, le_rfl, accounted.ignore accounted.numbered le_rfl _ _⟩

theorem Accounted.run (accounted : session.Accounted taken) (operations : List HttpOperation)
    (small : taken + (operations.map sends).sum ≤ HttpSink.sequenceModulus)
    : ∃ number, (session.run serialize operations).Accounted number := by
  induction operations generalizing session taken with
  | nil => exact ⟨taken, accounted⟩
  | cons operation operations ih =>
    rw [map_cons, sum_cons] at small
    obtain ⟨number, most, stepped⟩ :=
      Accounted.step serialize accounted operation (by omega)
    exact ih stepped (by omega)

end

/-! What has become of an event. -/

inductive EventState where
  | buffered
  | delivered
  | unknown
  | dropped

def InState (session : HttpSession) (sequence : Nat) : EventState → Prop
  | .buffered => ∃ event ∈ session.sink.batch, event.sequence = sequence
  | .delivered =>
    ∃ request ∈ session.requests,
      request.event.sequence = sequence ∧ request.ending.isDelivered = true
  | .unknown =>
    ∃ request ∈ session.requests,
      request.event.sequence = sequence ∧ request.ending.isUnknown = true
  | .dropped => sequence ∈ session.dropped

variable {sequence : Nat}

theorem mem_settledSequences {requests}
    : sequence ∈ settledSequences requests ↔ ∃ request ∈ requests,
          request.event.sequence = sequence ∧ request.ending.isRefused = false := by
  simp only [settledSequences, mem_map, mem_filter, Bool.not_eq_true']
  constructor
  · rintro ⟨request, ⟨member, settled⟩, here⟩
    exact ⟨request, member, here, settled⟩
  · rintro ⟨request, member, here, settled⟩
    exact ⟨request, ⟨member, settled⟩, here⟩

theorem isRefused_eq_false {ending : RequestEnd}
    : ending.isRefused = false ↔ ending.isDelivered = true ∨ ending.isUnknown = true := by
  cases ending with
  | timedOut => decide
  | failed error => simp [RequestEnd.isRefused, RequestEnd.isUnknown]
  | responded success status =>
    simp [RequestEnd.isRefused, RequestEnd.isUnknown, RequestEnd.isDelivered]

theorem mem_settledSequences_iff_inState
    : sequence ∈ settledSequences session.requests
      ↔ session.InState sequence .delivered ∨ session.InState sequence .unknown := by
  simp only [mem_settledSequences, isRefused_eq_false, InState, and_or_left, exists_or]

section States

variable (accounted : session.Accounted taken)

include accounted

/-- A request for an event that was settled before or after did not settle it otherwise. -/
theorem Accounted.not_delivered_and_unknown (delivered : session.InState sequence .delivered)
    (unknown : session.InState sequence .unknown)
    : False := by
  obtain ⟨first, firstMember, here, success⟩ := delivered
  obtain ⟨second, secondMember, there, failure⟩ := unknown
  have nodup : (settledSequences session.requests).Nodup :=
    (nodup_append.mp (nodup_append.mp accounted.places_nodup).2.1).1
  have same : first = second := by
    refine inj_on_of_nodup_map nodup (mem_filter.mpr ⟨firstMember, ?_⟩)
      (mem_filter.mpr ⟨secondMember, ?_⟩) (here.trans there.symm)
    · simp [isRefused_eq_false.mpr (.inl success)]
    · simp [isRefused_eq_false.mpr (.inr failure)]
  rw [← same] at failure
  cases ending : first.ending with
  | timedOut | failed error => simp [ending, RequestEnd.isDelivered] at success
  | responded _ _ => simp [ending, RequestEnd.isUnknown] at failure

theorem Accounted.inState_unique {first second} (left : session.InState sequence first)
    (right : session.InState sequence second)
    : first = second := by
  obtain ⟨-, others, apart⟩ := nodup_append.mp accounted.places_nodup
  obtain ⟨-, -, apartLater⟩ := nodup_append.mp others
  have buffered (held : session.InState sequence .buffered)
      : sequence ∉ settledSequences session.requests ++ session.dropped := by
    obtain ⟨event, member, rfl⟩ := held
    exact fun rest => apart _ (mem_map_of_mem member) _ rest rfl
  have settled (inside : sequence ∈ settledSequences session.requests)
      : ¬ session.InState sequence .dropped :=
    fun dropped => apartLater _ inside _ dropped rfl
  have either (delivered : session.InState sequence .delivered) :=
    accounted.not_delivered_and_unknown delivered
  rw [mem_append, mem_settledSequences_iff_inState] at buffered
  rw [mem_settledSequences_iff_inState] at settled
  have dropped : session.InState sequence .dropped ↔ sequence ∈ session.dropped := Iff.rfl
  cases first <;> cases second <;> grind

theorem Accounted.existsUnique_state (member : sequence ∈ session.accepted)
    : ∃! state, session.InState sequence state := by
  have placed : ∃ state, session.InState sequence state := by
    rcases mem_append.mp (accounted.ledger.mem_iff.mp member) with held | rest
    · exact ⟨.buffered, mem_map.mp held⟩
    rcases mem_append.mp rest with settled | dropped
    · rcases mem_settledSequences_iff_inState.mp settled with delivered | unknown
      · exact ⟨.delivered, delivered⟩
      · exact ⟨.unknown, unknown⟩
    · exact ⟨.dropped, dropped⟩
  obtain ⟨state, here⟩ := placed
  exact ⟨state, here, fun other there => accounted.inState_unique there here⟩

end States

/-- In every run from an empty sink, up to the `2 ^ 64` sends that the counter has numbers
for, the reports describe the batch, no settled event is sent again, and every accepted event
is in one state.
-/
theorem httpSink_runs_accounted (serialize : NetworkBehaviorIndicator → Except Text Bytes)
    (url : Text) (batchSize flushIntervalMs clock : Nat) (operations : List HttpOperation)
    (numbered : (operations.map sends).sum ≤ HttpSink.sequenceModulus)
    : ((start (.new url batchSize flushIntervalMs) clock).run serialize operations).sink.Consistent
      ∧ SettledOnce ((start (.new url batchSize flushIntervalMs) clock).run serialize
          operations).requests
      ∧ ∀ sequence ∈ ((start (.new url batchSize flushIntervalMs) clock).run serialize
            operations).accepted,
          ∃! state, ((start (.new url batchSize flushIntervalMs) clock).run serialize
            operations).InState sequence state := by
  have started := Accounted.start url batchSize flushIntervalMs clock
  obtain ⟨_, accounted⟩ := Accounted.run serialize started operations (by omega)
  exact ⟨accounted.consistent, accounted.once, fun _ => accounted.existsUnique_state⟩

/-- Three events: the first is refused and kept, the second times out, the third waits. -/
theorem httpSink_runs_accounted_sample
    : ([.send (sampleEvent "query" "a") 0 0 fun _ => .timedOut,
          .send (sampleEvent "query" "b") 1 0 fun event =>
            if event.sequence = 0 then .responded false [] else .timedOut,
          .send (sampleEvent "query" "c") 1 0 fun _ => .timedOut,
          .takeUnknownEventIds].map sends).sum ≤ HttpSink.sequenceModulus
      ∧ ((start (.new [] 2 0) 0).run (fun _ => .ok [])
          [.send (sampleEvent "query" "a") 0 0 fun _ => .timedOut,
            .send (sampleEvent "query" "b") 1 0 fun event =>
              if event.sequence = 0 then .responded false [] else .timedOut,
            .send (sampleEvent "query" "c") 1 0 fun _ => .timedOut,
            .takeUnknownEventIds]).sink.Consistent :=
  ⟨by decide, (httpSink_runs_accounted (fun _ => .ok []) [] 2 0 0 _ (by decide)).1⟩

section Wrapping

open HttpSink

/-- A `send` of a small event whose request, if there is one, gets the given answer. -/
def answered (success : Bool) : HttpOperation :=
  .send (sampleEvent "query" "a") 0 0 fun _ => .responded success []

def emptyJson : NetworkBehaviorIndicator → Except Text Bytes :=
  fun _ => .ok []

/-- An empty sink that flushes after every event, with `count` numbers given out. -/
def idleSink (count : Nat) : HttpSink :=
  { HttpSink.new [] 1 0 with nextSequence := count % HttpSink.sequenceModulus }

theorem sink_step_answered {session : HttpSession} {count : Nat}
    (idle : session.sink = idleSink count)
    : (session.step emptyJson (answered true)).sink = idleSink (count + 1) := by
  simp [step, answered, emptyJson, send, idle, idleSink, new, push, shouldFlush, flushDueTo,
    beginFlush, sendBatch, sendRequest, finishFlush, report, oldestEventAtOf,
    httpSinkMaxBufferedEvents, httpSinkMaxEventBytes]

theorem sink_run_answered (clock count : Nat)
    : ((start (idleSink 0) clock).run emptyJson (replicate count (answered true))).sink
      = idleSink count := by
  induction count with
  | zero => rfl
  | succ count ih =>
    rw [replicate_succ', run, foldl_append]
    exact sink_step_answered ih

/-- Refused requests keep their events in the batch, under the numbers they were given. -/
theorem sequences_step_refused {session : HttpSession} {count : Nat}
    (idle : session.sink = idleSink count)
    : ((session.step emptyJson (answered false)).step emptyJson (answered false)).sink.batch.map
        BufferedHttpEvent.sequence
      = [count % HttpSink.sequenceModulus, (count + 1) % HttpSink.sequenceModulus] := by
  simp [step, answered, emptyJson, send, idle, idleSink, new, push, shouldFlush, flushDueTo,
    beginFlush, sendBatch, sendRequest, finishFlush, report, oldestEventAtOf,
    httpSinkMaxBufferedEvents, httpSinkMaxEventBytes]

/-- The counter starts again at zero: an event with the last number stands in the batch before
one with the first.
-/
theorem httpSink_sequences_wrap
    : (((start (.new [] 1 0) 0).run emptyJson
        (List.replicate (HttpSink.sequenceModulus - 1) (answered true)
          ++ [answered false, answered false])).sink.batch.map BufferedHttpEvent.sequence)
      = [HttpSink.sequenceModulus - 1, 0] := by
  have idle := sink_run_answered 0 (HttpSink.sequenceModulus - 1)
  have fresh : idleSink 0 = .new [] 1 0 := rfl
  have last : (HttpSink.sequenceModulus - 1) % HttpSink.sequenceModulus
      = HttpSink.sequenceModulus - 1 := by decide
  have first : (HttpSink.sequenceModulus - 1 + 1) % HttpSink.sequenceModulus = 0 := by decide
  rw [fresh, run] at idle
  rw [run, List.foldl_append, List.foldl_cons, List.foldl_cons, List.foldl_nil,
    sequences_step_refused idle, last, first]

end Wrapping

end HttpSession

end NetTrap.Distributed
