import Mathlib.Data.Finset.Card
import NetTrap.Distributed.HttpSinkLedger

/-! Two things that no operation on an HTTP sink takes back: the mark of a flush that was
abandoned, and the numbers of events whose outcome nobody asks for.
-/

namespace NetTrap.Distributed

open Rust Nbi Finset List Bool

/-- The sequence numbers of the requests whose outcome is unknown. -/
def unknownSequences (requests : List Request) : List Nat :=
  (requests.filter (·.ending.isUnknown)).map (·.event.sequence)

theorem unknownSequences_append (earlier later : List Request)
    : unknownSequences (earlier ++ later) = unknownSequences earlier ++ unknownSequences later := by
  simp [unknownSequences]

namespace HttpSink

variable {sink after : HttpSink} {staleOnly : Bool} {now : Nat}
  {answer : BufferedHttpEvent → RequestEnd} {requests : List Request}

theorem beginFlush_eq_some {events} (begun : sink.beginFlush staleOnly now = some (events, after))
    : sink.flushing = false ∧ events = sink.batch ∧ after = { sink with flushing := true } := by
  rw [beginFlush] at begun
  split at begun
  · cases begun
  next free =>
    split at begun
    · cases begun
    cases begun
    exact ⟨(or_eq_false_iff.mp (eq_false_iff.mpr free)).1, rfl, rfl⟩

theorem foldl_sendRequest_unknown {url : Text} (events : List BufferedHttpEvent) {progress}
    (known : progress.unknownEventSequences = (unknownSequences progress.requests).toFinset)
    : (events.foldl (sendRequest url answer) progress).unknownEventSequences
      = (unknownSequences (events.foldl (sendRequest url answer) progress).requests).toFinset := by
  induction events generalizing progress with
  | nil => exact known
  | cons event events ih =>
    apply ih
    cases ending : answer event with
    | timedOut | failed error =>
      simp [sendRequest, ending, known, unknownSequences, RequestEnd.isUnknown, union_comm]
    | responded success status =>
      cases success <;>
        simp [sendRequest, ending, known, unknownSequences, RequestEnd.isUnknown]

/-- A flush remembers the numbers of its unknown outcomes, and leaves the mark as it was. -/
theorem flushDueTo_extends (sink : HttpSink) (staleOnly : Bool) (now : Nat)
    (answer : BufferedHttpEvent → RequestEnd)
    : (sink.flushDueTo staleOnly now answer).1.flushing = sink.flushing
      ∧ (sink.flushDueTo staleOnly now answer).1.unknownEventSequences
        = sink.unknownEventSequences
          ∪ (unknownSequences (sink.flushDueTo staleOnly now answer).2.2).toFinset := by
  rw [flushDueTo]
  cases begun : sink.beginFlush staleOnly now with
  | none => exact ⟨rfl, (union_empty _).symm⟩
  | some start =>
    obtain ⟨events, marked⟩ := start
    obtain ⟨idle, rfl, rfl⟩ := beginFlush_eq_some begun
    refine ⟨idle.symm, congrArg (sink.unknownEventSequences ∪ ·) ?_⟩
    have known : (sink.batch.foldl (sendRequest sink.url answer)
        ⟨[], [], ∅, ∅, []⟩).unknownEventSequences
        = (unknownSequences (sink.batch.foldl (sendRequest sink.url answer)
          ⟨[], [], ∅, ∅, []⟩).requests).toFinset :=
      foldl_sendRequest_unknown sink.batch rfl
    -- the requests are those of the batch, which is still there
    refine (inter_eq_left.mpr ?_).trans known
    refine known.trans_subset ?_
    rw [(foldl_sendRequest _ _).2]
    intro sequence member
    obtain ⟨_, made, rfl⟩ := List.mem_map.mp (List.mem_toFinset.mp member)
    obtain ⟨event, held, rfl⟩ := List.mem_map.mp (List.mem_of_mem_filter made)
    exact List.mem_toFinset.mpr (List.mem_map_of_mem held)

theorem flushing_report (event : BufferedHttpEvent) (flushError : Option Text)
    : (sink.report event flushError).1.flushing = sink.flushing
      ∧ (sink.report event flushError).1.unknownEventSequences
        = sink.unknownEventSequences.erase event.sequence := by
  rw [report]
  split
  · exact ⟨rfl, rfl⟩
  split <;> exact ⟨rfl, rfl⟩

/-- A `send` leaves the mark as it was. It remembers the numbers of its unknown outcomes but that of
its own event, provided that the number was not remembered before. -/
theorem send_extends (sink : HttpSink) (serialize : NetworkBehaviorIndicator → Except Text Bytes)
    (event : NetworkBehaviorIndicator) (enqueuedAt checkedAt : Nat)
    (answer : BufferedHttpEvent → RequestEnd)
    : (sink.send serialize event enqueuedAt checkedAt answer).1.flushing = sink.flushing
      ∧ (sink.nextSequence ∉ sink.unknownEventSequences →
          (sink.send serialize event enqueuedAt checkedAt answer).1.unknownEventSequences
            = sink.unknownEventSequences ∪ ((unknownSequences
                (sink.send serialize event enqueuedAt checkedAt answer).2.2).filter
                  (· ≠ sink.nextSequence)).toFinset) := by
  have nothing : sink.unknownEventSequences
      = sink.unknownEventSequences ∪ (([] : List Nat).filter (· ≠ sink.nextSequence)).toFinset :=
    (union_empty _).symm
  rw [send]
  cases serialize event with
  | error error => exact ⟨rfl, fun _ => nothing⟩
  | ok json =>
    simp only
    split
    · exact ⟨rfl, fun _ => nothing⟩
    split
    · exact ⟨rfl, fun _ => nothing⟩
    generalize pushed : HttpSink.push _ _ = next
    have flushing : next.flushing = sink.flushing := by rw [← pushed]; rfl
    have unknown : next.unknownEventSequences = sink.unknownEventSequences := by rw [← pushed]; rfl
    have flushed := next.flushDueTo_extends false checkedAt answer
    split
    · refine ⟨(flushing_report ..).1.trans (flushed.1.trans flushing), fun fresh => ?_⟩
      rw [(flushing_report ..).2, flushed.2, unknown, erase_union_distrib, erase_eq_of_notMem fresh]
      congr 1
      ext sequence
      simp [And.comm]
    · refine ⟨(flushing_report ..).1.trans flushing, fun fresh => ?_⟩
      rw [(flushing_report ..).2, unknown, erase_eq_of_notMem fresh]
      exact nothing

/-- A flush, at any time and with any answers, fails or makes a request for every event. -/
def Attempts (sink : HttpSink) : Prop :=
  ∀ now answer, (∃ error, (sink.flush now answer).2.1 = .error error)
    ∨ ∀ event ∈ sink.batch, ∃ request ∈ (sink.flush now answer).2.2, request.event = event

theorem attempts_iff (waiting : sink.batch ≠ []) : sink.Attempts ↔ sink.flushing = false := by
  constructor
  · intro attempts
    by_contra busy
    rw [not_eq_false] at busy
    have untried : sink.flush 0 (fun _ => .timedOut) = (sink, .ok (), []) := by
      rw [flush, flushDueTo, beginFlush, busy]
      rfl
    obtain ⟨event, member⟩ := exists_mem_of_ne_nil _ waiting
    have tried := attempts 0 fun _ => .timedOut
    rw [untried] at tried
    rcases tried with ⟨error, failed⟩ | requested
    · cases failed
    · obtain ⟨request, made, -⟩ := requested event member
      cases made
  · intro idle now answer
    refine .inr fun event member => ⟨⟨event, answer event⟩, ?_, rfl⟩
    have begun : sink.beginFlush false now = some (sink.batch, { sink with flushing := true }) := by
      simp [beginFlush, idle, waiting]
    simp only [flush, flushDueTo, begun, sendBatch, (foldl_sendRequest _ _).2, nil_append]
    exact mem_map_of_mem member

end HttpSink

namespace HttpSession

open HttpSink

variable (serialize : NetworkBehaviorIndicator → Except Text Bytes)

theorem flushing_step (session : HttpSession) (operation : HttpOperation)
    : (session.step serialize operation).sink.flushing = session.sink.flushing := by
  cases operation with
  | send event wait pause answer => exact (session.sink.send_extends ..).1
  | flush wait answer | flushStale wait answer => exact (session.sink.flushDueTo_extends ..).1
  | dropBufferedEvents eventIds =>
    simp only [step, dropBufferedEvents]
    split <;> rfl
  | takeUnknownEventIds => rfl

/-! Unknown outcomes. -/

/-- The numbers of unknown outcomes that are left behind once the operation is done, after `left`.
A `send` answers for its own event, and to drop events by name is to forget the numbers. -/
def leaves (session : HttpSession) (left : List Nat) (operation : HttpOperation) : List Nat :=
  let made := (session.step serialize operation).requests.drop session.requests.length
  match operation with
  | .send .. => left ++ (unknownSequences made).filter (· ≠ session.sink.nextSequence)
  | .flush .. | .flushStale .. => left ++ unknownSequences made
  | .dropBufferedEvents eventIds => if eventIds = ∅ then left else []
  | .takeUnknownEventIds => left

section Leaving

variable (session : HttpSession) (left : List Nat) (wait pause : Nat)
  (answer : BufferedHttpEvent → RequestEnd)

theorem leaves_send (event : NetworkBehaviorIndicator)
    : session.leaves serialize left (.send event wait pause answer)
      = left ++ (unknownSequences (session.sink.send serialize event (session.clock + wait)
          (session.clock + wait + pause) answer).2.2).filter (· ≠ session.sink.nextSequence) := by
  rw [leaves]
  exact congrArg (fun made =>
    left ++ (unknownSequences made).filter (· ≠ session.sink.nextSequence)) List.drop_left

theorem leaves_flush
    : session.leaves serialize left (.flush wait answer)
      = left ++ unknownSequences
          (session.sink.flushDueTo false (session.clock + wait) answer).2.2 :=
  congrArg (fun made => left ++ unknownSequences made) List.drop_left

theorem leaves_flushStale
    : session.leaves serialize left (.flushStale wait answer)
      = left ++ unknownSequences (session.sink.flushDueTo true (session.clock + wait) answer).2.2 :=
  congrArg (fun made => left ++ unknownSequences made) List.drop_left

end Leaving

/-- The numbers of unknown outcomes that no `send` has answered for at the end of a run. -/
def leftBehind : (session : HttpSession) → (left : List Nat) → List HttpOperation → List Nat
  | _, left, [] => left
  | session, left, operation :: operations =>
    leftBehind (session.step serialize operation) (session.leaves serialize left operation)
      operations

/-- The sink remembers what is left behind, each number once. -/
structure Remembers (session : HttpSession) (left : List Nat) : Prop where
  unknown : session.sink.unknownEventSequences = left.toFinset
  listed : left.Sublist (unknownSequences session.requests)

theorem unknownSequences_sublist_settled (requests : List Request)
    : (unknownSequences requests).Sublist (settledSequences requests) := by
  refine Sublist.map _ (monotone_filter_right _ ?_)
  intro request unknown
  cases ending : request.ending with
  | timedOut | failed error => rfl
  | responded success status =>
    rw [ending] at unknown
    cases unknown

section Remembering

variable {serialize} {session : HttpSession} {taken : Nat} {left : List Nat}

/-- A number that is remembered is that of a settled event. -/
theorem Remembers.settled (remembers : session.Remembers left) {sequence}
    (member : sequence ∈ session.sink.unknownEventSequences)
    : sequence ∈ settledSequences session.requests := by
  rw [remembers.unknown, mem_toFinset] at member
  exact (remembers.listed.trans (unknownSequences_sublist_settled _)).mem member

/-- What a flush adds to the requests and the unknown outcomes. -/
theorem Remembers.flushed (remembers : session.Remembers left) {after : HttpSession}
    {requests : List Request} {numbers : List Nat}
    (made : after.requests = session.requests ++ requests)
    (unknown : after.sink.unknownEventSequences
      = session.sink.unknownEventSequences ∪ numbers.toFinset)
    (listed : numbers.Sublist (unknownSequences requests))
    : after.Remembers (left ++ numbers) where
  unknown := by rw [unknown, remembers.unknown, toFinset_append]
  listed := by
    rw [made, unknownSequences_append]
    exact remembers.listed.append listed

/-- One operation leaves behind what is remembered then. -/
theorem Remembers.step (accounted : session.Accounted taken) (remembers : session.Remembers left)
    (operation : HttpOperation) (small : taken + sends operation ≤ HttpSink.sequenceModulus)
    : (session.step serialize operation).Remembers
        (session.leaves serialize left operation) := by
  cases operation with
  | send event wait pause answer =>
    have fresh : session.sink.nextSequence ∉ session.sink.unknownEventSequences := by
      intro member
      have taken_lt : taken < HttpSink.sequenceModulus := small
      have accepted := accounted.ledger.mem_iff.mpr
        (mem_append_right _ (mem_append_left _ (remembers.settled member)))
      rw [accounted.numbered, Nat.mod_eq_of_lt taken_lt] at accepted
      exact Nat.lt_irrefl _ (accounted.below _ accepted)
    rw [leaves_send]
    exact remembers.flushed rfl ((session.sink.send_extends ..).2 fresh) List.filter_sublist
  | flush wait answer =>
    rw [leaves_flush]
    exact remembers.flushed rfl (session.sink.flushDueTo_extends ..).2 (.refl _)
  | flushStale wait answer =>
    rw [leaves_flushStale]
    exact remembers.flushed rfl (session.sink.flushDueTo_extends ..).2 (.refl _)
  | dropBufferedEvents eventIds =>
    simp only [leaves, HttpSession.step, dropBufferedEvents]
    split
    · exact ⟨remembers.unknown, remembers.listed⟩
    · refine ⟨?_, nil_sublist _⟩
      -- the numbers of settled events are not among those of the batch
      rw [toFinset_nil, ← disjoint_iff_inter_eq_empty, Finset.disjoint_left]
      intro sequence member held
      obtain ⟨event, inside, rfl⟩ := mem_map.mp (mem_toFinset.mp held)
      have apart := (nodup_append.mp accounted.places_nodup).2.2
      exact apart _ (mem_map_of_mem (mem_of_mem_filter inside)) _
        (mem_append_left _ (remembers.settled member)) rfl
  | takeUnknownEventIds => exact ⟨remembers.unknown, remembers.listed⟩

/-- Whole runs leave behind what is remembered in the end, by induction on the operations. -/
theorem Remembers.run (accounted : session.Accounted taken) (remembers : session.Remembers left)
    (operations : List HttpOperation)
    (small : taken + (operations.map sends).sum ≤ HttpSink.sequenceModulus)
    : (session.run serialize operations).Remembers
          (session.leftBehind serialize left operations)
      ∧ ∃ number, (session.run serialize operations).Accounted number := by
  induction operations generalizing session taken left with
  | nil => exact ⟨remembers, taken, accounted⟩
  | cons operation operations ih =>
    rw [List.map_cons, List.sum_cons] at small
    obtain ⟨number, most, stepped⟩ := Accounted.step serialize accounted operation (by omega)
    exact ih stepped (remembers.step accounted operation (by omega)) (by omega)

end Remembering

/-- The sink remembers no more numbers than it may buffer events exactly if the run leaves no more
unknown outcomes behind.
Witness: every number is remembered once, since settled events have different numbers. -/
theorem httpSink_unknown_bounded (url : Text) (batchSize flushIntervalMs clock : Nat)
    (operations : List HttpOperation)
    (numbered : (operations.map sends).sum ≤ HttpSink.sequenceModulus)
    : ((start (.new url batchSize flushIntervalMs) clock).run serialize
          operations).sink.unknownEventSequences.card ≤ httpSinkMaxBufferedEvents
      ↔ ((start (.new url batchSize flushIntervalMs) clock).leftBehind serialize []
          operations).length ≤ httpSinkMaxBufferedEvents := by
  have started := Accounted.start url batchSize flushIntervalMs clock
  have blank : (start (.new url batchSize flushIntervalMs) clock).Remembers [] := ⟨rfl, .slnil⟩
  obtain ⟨remembers, number, accounted⟩ := blank.run started operations (by omega)
  have nodup : ((start (.new url batchSize flushIntervalMs) clock).leftBehind serialize []
      operations).Nodup := by
    refine (remembers.listed.trans (unknownSequences_sublist_settled _)).nodup ?_
    exact (List.nodup_append.mp (List.nodup_append.mp accounted.places_nodup).2.1).1
  rw [remembers.unknown, List.toFinset_card_of_nodup nodup]

/-- A `send` that buffers its event, a flush in which it times out, and a look at the
identifiers.
-/
def unknownRound : List HttpOperation :=
  [answered true, .flush 0 fun _ => .timedOut, .takeUnknownEventIds]

/-- An empty sink for batches of two that remembers the numbers it has given out. -/
def rememberingSink (count : Nat) : HttpSink :=
  { new [] 2 0 with nextSequence := count, unknownEventSequences := Finset.range count }

theorem sink_run_unknownRound {session : HttpSession} {count : Nat}
    (small : count + 1 < sequenceModulus) (here : session.sink = rememberingSink count)
    : (session.run emptyJson unknownRound).sink = rememberingSink (count + 1) := by
  simp [run, unknownRound, step, answered, emptyJson, send, here, rememberingSink, new, push,
    shouldFlush, flush, flushDueTo, beginFlush, sendBatch, sendRequest, finishFlush, report,
    oldestEventAtOf, httpSinkMaxBufferedEvents, httpSinkMaxEventBytes, takeUnknownEventIds,
    Nat.mod_eq_of_lt small, range_add_one]

theorem sink_run_unknownRounds (count : Nat) (small : count < sequenceModulus)
    : ((start (.new [] 2 0) 0).run emptyJson (replicate count unknownRound).flatten).sink
      = rememberingSink count := by
  induction count with
  | zero => rfl
  | succ count ih =>
    rw [replicate_succ', flatten_concat, run, foldl_append]
    exact sink_run_unknownRound small (ih (by omega))

theorem httpSink_unknown_exceeds
    : ((start (.new [] 2 0) 0).run emptyJson
        (List.replicate 1025 unknownRound).flatten).sink.unknownEventSequences.card
      = httpSinkMaxBufferedEvents + 1 := by
  rw [sink_run_unknownRounds 1025 (by decide)]
  exact Finset.card_range _

/-- A `send` that makes the request for its own event at once, which times out. -/
def timedOutSend : HttpOperation := .send (sampleEvent "query" "a") 0 0 fun _ => .timedOut

theorem leaves_timedOutSend {session : HttpSession} {count : Nat}
    (small : count + 1 < sequenceModulus)
    (here : session.sink = { new [] 1 0 with nextSequence := count })
    : (session.step emptyJson timedOutSend).sink = { new [] 1 0 with nextSequence := count + 1 }
      ∧ session.leaves emptyJson [] timedOutSend = [] := by
  rw [timedOutSend, leaves_send]
  simp [step, emptyJson, send, here, new, push, shouldFlush, flushDueTo, beginFlush, sendBatch,
    sendRequest, finishFlush, report, oldestEventAtOf, httpSinkMaxBufferedEvents,
    httpSinkMaxEventBytes, unknownSequences, Nat.mod_eq_of_lt small]

theorem leftBehind_timedOutSends {session : HttpSession} {count : Nat} (times : Nat)
    (small : count + times < sequenceModulus)
    (here : session.sink = { new [] 1 0 with nextSequence := count })
    : session.leftBehind emptyJson [] (replicate times timedOutSend) = [] := by
  induction times generalizing session count with
  | zero => rfl
  | succ times ih =>
    obtain ⟨after, none_left⟩ := leaves_timedOutSend (by omega) here
    rw [replicate_succ, leftBehind, none_left]
    exact ih (by omega) after

theorem httpSink_unknown_bounded_sends
    : ((start (.new [] 1 0) 0).run emptyJson
        (List.replicate 2000 timedOutSend)).sink.unknownEventSequences.card
      ≤ httpSinkMaxBufferedEvents := by
  refine (httpSink_unknown_bounded emptyJson [] 1 0 0 _ ?_).mpr ?_
  · rw [map_replicate, sum_replicate]
    decide
  · rw [leftBehind_timedOutSends 2000 (by decide) rfl]
    exact Nat.zero_le _

/-! Abandoned flushes. -/

/-- A step of a history: a completed operation, or a flush whose future is dropped while it
waits for an answer.
-/
inductive HistoryStep where
  | completed (operation : HttpOperation)
  | abandonedFlush (staleOnly : Bool) (wait : Nat)

/-- Whichever answer an abandoned flush waits for, only its first critical section has changed
the sink.
-/
def advance (session : HttpSession) : HistoryStep → HttpSession
  | .completed operation => session.step serialize operation
  | .abandonedFlush staleOnly wait =>
    { session with
      clock := session.clock + wait
      sink :=
        match session.sink.beginFlush staleOnly (session.clock + wait) with
        | none => session.sink
        | some (_, marked) => marked }

/-- The step is an abandoned flush that had something to do. -/
def abandons (session : HttpSession) : HistoryStep → Bool
  | .completed _ => false
  | .abandonedFlush staleOnly wait =>
    (session.sink.beginFlush staleOnly (session.clock + wait)).isSome

def abandonedIn : HttpSession → List HistoryStep → Bool
  | _, [] => false
  | session, step :: history =>
    session.abandons step || abandonedIn (session.advance serialize step) history

theorem flushing_advance (session : HttpSession) (step : HistoryStep)
    : (session.advance serialize step).sink.flushing
      = (session.sink.flushing || session.abandons step) := by
  cases step with
  | completed operation =>
    exact (flushing_step serialize session operation).trans (Bool.or_false _).symm
  | abandonedFlush staleOnly wait =>
    simp only [advance, abandons]
    cases begun : session.sink.beginFlush staleOnly (session.clock + wait) with
    | none => exact (Bool.or_false _).symm
    | some start =>
      obtain ⟨events, marked⟩ := start
      obtain ⟨-, -, rfl⟩ := beginFlush_eq_some begun
      exact (Bool.or_true _).symm

theorem flushing_history (session : HttpSession) (history : List HistoryStep)
    : (history.foldl (advance serialize) session).sink.flushing
      = (session.sink.flushing || session.abandonedIn serialize history) := by
  induction history generalizing session with
  | nil => exact (Bool.or_false _).symm
  | cons step history ih =>
    rw [foldl_cons, ih, flushing_advance, abandonedIn, Bool.or_assoc]

/-- Buffered events are tried by the next flush just when no flush was abandoned before. -/
theorem flush_attempts_iff (url : Text) (batchSize flushIntervalMs clock : Nat)
    (history : List HistoryStep)
    (waiting : (history.foldl (advance serialize)
      (start (.new url batchSize flushIntervalMs) clock)).sink.batch ≠ [])
    : (history.foldl (advance serialize)
        (start (.new url batchSize flushIntervalMs) clock)).sink.Attempts
      ↔ (start (.new url batchSize flushIntervalMs) clock).abandonedIn serialize history
        = false := by
  rw [attempts_iff waiting, flushing_history]
  rfl

/-- An event that waits and was not part of a flush is tried. -/
theorem flush_attempts_waiting
    : ([.completed (answered true)].foldl (advance emptyJson)
        (start (.new [] 2 0) 0)).sink.batch ≠ []
      ∧ (([.completed (answered true)].foldl (advance emptyJson)
          (start (.new [] 2 0) 0)).sink.Attempts
        ↔ (start (.new [] 2 0) 0).abandonedIn emptyJson [.completed (answered true)] = false) :=
  ⟨List.cons_ne_nil _ _, flush_attempts_iff emptyJson [] 2 0 0 _ (List.cons_ne_nil _ _)⟩

/-- One event waits, and a flush of it is abandoned: the next flush returns without a request. -/
theorem flush_untried_of_abandoned
    : ([.completed (answered true), .abandonedFlush false 0].foldl (advance emptyJson)
        (start (.new [] 2 0) 0)).sink.batch ≠ []
      ∧ ∀ answer, (([.completed (answered true), .abandonedFlush false 0].foldl (advance emptyJson)
          (start (.new [] 2 0) 0)).sink.flush 0 answer).2 = (.ok (), []) := by
  constructor
  · exact List.cons_ne_nil _ _
  · intro answer
    rfl

end HttpSession

end NetTrap.Distributed
