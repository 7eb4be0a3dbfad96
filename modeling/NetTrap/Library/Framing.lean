import Mathlib.Data.List.Basic
import Mathlib.Data.List.Infix

/-! Cutting a stream that arrives in segments into frames.
A framer inspects the front of a buffer and waits, fails, or splits off a frame. Its
decisions are stable when more data cannot revise them, and then the frames of a stream
do not depend on where the segments end.
-/

namespace Framing

open List

universe u v

variable {α : Type u} {ε : Type v}

/-- What the front of a buffer says about the next frame. A `take` may ask for more
elements than have arrived.
-/
inductive Decision (ε : Type v) where
  | more
  | reject (error : ε)
  | take (length : Nat)
  deriving DecidableEq, Repr

/-- The effect of one framer call on its buffer. -/
inductive Step (α : Type u) (ε : Type v) where
  | wait
  | fail (error : ε)
  | frame (front rest : List α)
  deriving DecidableEq, Repr

/-- A decision splits the buffer once enough of it has arrived. -/
def Decision.cut (buffer : List α) : Decision ε → Step α ε
  | .more => .wait
  | .reject error => .fail error
  | .take length =>
    if length ≤ buffer.length then .frame (buffer.take length) (buffer.drop length) else .wait

/-- Every frame that a decision asks for has at least one element. -/
def Positive (judge : List α → Decision ε) : Prop :=
  ∀ buffer length, judge buffer = .take length → 0 < length

variable {error : ε} {decision : Decision ε}

/-- A requested length comes from behind a rejecting guard. -/
theorem take_of_guard {failing : Prop} {_ : Decidable failing} {length : Nat}
    (asked : (if failing then .reject error else decision) = .take length)
    : decision = .take length := by
  split at asked
  · cases asked
  · exact asked

/-- A requested length comes from behind a waiting guard. -/
theorem take_of_wait {waiting : Prop} {_ : Decidable waiting} {length : Nat}
    (asked : (if waiting then .more else decision) = .take length)
    : decision = .take length := by
  split at asked
  · cases asked
  · exact asked

/-- How more data may revise a decision: an open one freely, a rejection only in the
error it names, a requested length not at all.
-/
inductive Decision.Kept : Decision ε → Decision ε → Prop where
  | opened (later : Decision ε) : Kept .more later
  | same (decision : Decision ε) : Kept decision decision
  | rejected (error later : ε) : Kept (.reject error) (.reject later)

variable {before : Decision ε}

theorem Decision.Kept.of_settled {after} (settled : before = .more ∨ after = before)
    : before.Kept after := by
  rcases settled with rfl | rfl
  · exact .opened _
  · exact .same _

variable {buffer front rest : List α}

/-- A split-off frame and its rest make up the buffer. -/
theorem Decision.cut_frame (split : decision.cut buffer = .frame front rest)
    : ∃ length, decision = .take length ∧ length ≤ buffer.length ∧ front = buffer.take length
        ∧ rest = buffer.drop length := by
  cases decision with
  | more => cases split
  | reject error => cases split
  | take length =>
    simp only [cut] at split
    split at split
    · rename_i arrived
      cases split
      exact ⟨length, rfl, arrived, rfl, rfl⟩
    · cases split

theorem Decision.cut_fail (failed : decision.cut buffer = .fail error)
    : decision = .reject error := by
  cases decision with
  | more => cases failed
  | reject other => cases failed; rfl
  | take length =>
    simp only [cut] at failed
    split at failed <;> cases failed

/-- A frame split off early is split off again, with the new data behind it. -/
theorem Decision.Kept.frame {after} (kept : before.Kept after) {frame} (back : List α)
    (split : before.cut front = .frame frame rest)
    : after.cut (front ++ back) = .frame frame (rest ++ back) := by
  obtain ⟨length, rfl, arrived, rfl, rfl⟩ := cut_frame split
  cases kept
  rw [cut, if_pos (by rw [length_append]; omega), take_append_of_le_length arrived,
    drop_append_of_le_length arrived]

/-- A failure seen early is a failure on all the data. -/
theorem Decision.Kept.fail {after} (kept : before.Kept after) (whole : List α)
    (failed : before.cut front = .fail error)
    : ∃ later, after.cut whole = .fail later := by
  cases cut_fail failed
  cases kept with
  | same => exact ⟨error, rfl⟩
  | rejected error later => exact ⟨later, rfl⟩

/-- Appended data never revises a decision made on a buffer of `domain`. -/
def StableOn (domain : List α → Prop) (judge : List α → Decision ε) : Prop :=
  ∀ front back, domain (front ++ back) → (judge front).Kept (judge (front ++ back))

/-! Draining one buffer. -/

/-- The frames taken from a stream, the buffers the framer was called on, and the
unconsumed rest; a failed run has no rest.
-/
structure Trace (α : Type u) where
  (frames seen : List (List α))
  rest : Option (List α)
  deriving DecidableEq, Repr

/-- Continue a trace after an earlier one that did not fail. -/
def Trace.after (earlier later : Trace α) : Trace α :=
  ⟨earlier.frames ++ later.frames, earlier.seen ++ later.seen, later.rest⟩

/-- Calls the framer until it waits or fails. A call that splits off nothing would loop;
the guard turns it into a failed run.
-/
def drain (next : List α → Step α ε) (buffer : List α) : Trace α :=
  match next buffer with
  | .wait => ⟨[], [buffer], some buffer⟩
  | .fail _ => ⟨[], [buffer], none⟩
  | .frame front rest =>
    if rest.length < buffer.length then
      (⟨[front], [buffer], some rest⟩ : Trace α).after (drain next rest)
    else ⟨[], [buffer], none⟩
termination_by buffer.length

/-- Takes the segments of a stream one after the other, draining after each. -/
def feed (next : List α → Step α ε) (buffer : List α) : List (List α) → Trace α
  | [] => ⟨[], [], some buffer⟩
  | segment :: segments =>
    let drained := drain next (buffer ++ segment)
    match drained.rest with
    | none => drained
    | some rest => drained.after (feed next rest segments)

variable {next : List α → Step α ε}

theorem drain_wait (waits : next buffer = .wait)
    : drain next buffer = ⟨[], [buffer], some buffer⟩ := by
  rw [drain, waits]

theorem drain_fail (fails : next buffer = .fail error)
    : drain next buffer = ⟨[], [buffer], none⟩ := by
  rw [drain, fails]

theorem drain_frame (split : next buffer = .frame front rest)
    (shorter : rest.length < buffer.length)
    : drain next buffer = (⟨[front], [buffer], some rest⟩ : Trace α).after (drain next rest) := by
  rw [drain, split]
  simp only [if_pos shorter]

/-- The framer is called on the drained buffer itself first. -/
theorem mem_seen_drain (buffer : List α) : buffer ∈ (drain next buffer).seen := by
  rw [drain]
  split
  · exact mem_singleton_self _
  · exact mem_singleton_self _
  · split
    · simp [Trace.after]
    · exact mem_singleton_self _

/-- What a drain leaves behind makes the framer wait. -/
theorem drain_rest_waits (left : (drain next buffer).rest = some rest) : next rest = .wait := by
  induction buffer using drain.induct next with
  | case1 buffer waits =>
    rw [drain_wait waits] at left
    cases left
    exact waits
  | case2 buffer error fails =>
    rw [drain_fail fails] at left
    cases left
  | case3 buffer front after split shorter ih =>
    rw [drain_frame split shorter] at left
    exact ih left
  | case4 buffer front after split notShorter =>
    rw [drain, split] at left
    simp [notShorter] at left

section Cutting

variable {domain : List α → Prop} {judge : List α → Decision ε}

/-- A framer that follows its decisions on the current buffer. -/
def follow (judge : List α → Decision ε) (buffer : List α) : Step α ε :=
  (judge buffer).cut buffer

theorem follow_shorter (positive : Positive judge) {buffer front rest}
    (split : follow judge buffer = .frame front rest)
    : rest.length < buffer.length := by
  obtain ⟨length, asked, arrived, -, rfl⟩ := Decision.cut_frame split
  have := positive buffer length asked
  rw [length_drop]
  omega

/-- Draining everything at once takes the frames of the front part first.
Witness: induction on the drain of the front part; a stable decision made there is made
again on all the data.
-/
theorem drain_append (stable : StableOn domain judge) (positive : Positive judge)
    (front back : List α)
    (inside : ∀ buffer ∈ (drain (follow judge) (front ++ back)).seen, domain buffer)
    : match (drain (follow judge) front).rest with
      | none =>
        (drain (follow judge) (front ++ back)).frames = (drain (follow judge) front).frames
        ∧ (drain (follow judge) (front ++ back)).rest = none
      | some rest =>
        (drain (follow judge) (front ++ back)).frames = (drain (follow judge) front).frames
            ++ (drain (follow judge) (rest ++ back)).frames
        ∧ (drain (follow judge) (front ++ back)).rest = (drain (follow judge) (rest ++ back)).rest
        ∧ ∀ buffer ∈ (drain (follow judge) (rest ++ back)).seen, domain buffer := by
  induction front using drain.induct (follow judge) with
  | case1 front waits =>
    rw [drain_wait waits]
    exact ⟨rfl, rfl, inside⟩
  | case2 front error fails =>
    obtain ⟨later, failsLater⟩ :=
      (stable _ back (inside _ (mem_seen_drain _))).fail (front ++ back) fails
    have failsWhole : follow judge (front ++ back) = .fail later := failsLater
    rw [drain_fail fails, drain_fail failsWhole]
    exact ⟨rfl, rfl⟩
  | case3 front frame rest split shorter ih =>
    have splitLater : follow judge (front ++ back) = .frame frame (rest ++ back) :=
      (stable _ back (inside _ (mem_seen_drain _))).frame back split
    have whole := drain_frame splitLater (by simp; omega)
    rw [whole] at inside
    have tail := ih (fun buffer member => inside buffer (mem_append_right _ member))
    rw [whole, drain_frame split shorter]
    simp only [Trace.after, cons_append, nil_append]
    cases left : (drain (follow judge) rest).rest with
    | none | some remaining =>
      rw [left] at tail
      exact ⟨by rw [tail.1], tail.2⟩
  | case4 front frame rest split notShorter =>
    exact absurd (follow_shorter positive split) notShorter

/-- Draining a segment at once gives what its elements give one at a time.
Witness: induction on the segment, splitting its first element off the drain.
-/
theorem drain_eq_feed_singletons (stable : StableOn domain judge) (positive : Positive judge)
    {buffer} (segment : List α) (waits : follow judge buffer = .wait)
    (inside : ∀ seen ∈ (drain (follow judge) (buffer ++ segment)).seen, domain seen)
    : (drain (follow judge) (buffer ++ segment)).frames
        = (feed (follow judge) buffer (segment.map ([·]))).frames
      ∧ (drain (follow judge) (buffer ++ segment)).rest
        = (feed (follow judge) buffer (segment.map ([·]))).rest := by
  induction segment generalizing buffer with
  | nil =>
    rw [append_nil, drain_wait waits]
    exact ⟨rfl, rfl⟩
  | cons first segment ih =>
    have regroup : buffer ++ first :: segment = (buffer ++ [first]) ++ segment := by simp
    rw [regroup] at inside ⊢
    have parts := drain_append stable positive (buffer ++ [first]) segment inside
    simp only [map_cons, feed]
    cases left : (drain (follow judge) (buffer ++ [first])).rest with
    | none =>
      rw [left] at parts
      simp only [left]
      exact parts
    | some rest =>
      rw [left] at parts
      obtain ⟨frames, ended, within⟩ := parts
      obtain ⟨tailFrames, tailEnded⟩ := ih (drain_rest_waits left) within
      simp only [Trace.after]
      exact ⟨by rw [frames, tailFrames], by rw [ended, tailEnded]⟩

/-- Feeding two groups of segments continues from what the first group left. -/
theorem feed_append (buffer : List α) (front back : List (List α))
    : feed next buffer (front ++ back) = match (feed next buffer front).rest with
        | none => feed next buffer front
        | some rest => (feed next buffer front).after (feed next rest back) := by
  induction front generalizing buffer with
  | nil => simp [feed, Trace.after]
  | cons segment front ih =>
    simp only [cons_append, feed]
    cases left : (drain next (buffer ++ segment)).rest with
    | none => simp [left]
    | some rest =>
      simp only [ih rest, Trace.after]
      cases ended : (feed next rest front).rest with
      | none => simp [ended]
      | some later => simp [append_assoc]

/-- Any segmentation gives what the elements of the stream give one at a time.
Witness: induction on the segments, each replaced by its elements.
-/
theorem feed_eq_feed_singletons (stable : StableOn domain judge) (positive : Positive judge)
    {buffer} (segments : List (List α)) (waits : follow judge buffer = .wait)
    (inside : ∀ seen ∈ (feed (follow judge) buffer segments).seen, domain seen)
    : (feed (follow judge) buffer segments).frames
        = (feed (follow judge) buffer (segments.flatten.map ([·]))).frames
      ∧ (feed (follow judge) buffer segments).rest
        = (feed (follow judge) buffer (segments.flatten.map ([·]))).rest := by
  induction segments generalizing buffer with
  | nil => exact ⟨rfl, rfl⟩
  | cons segment segments ih =>
    simp only [feed] at inside
    rw [flatten_cons, map_append, feed_append]
    simp only [feed]
    cases left : (drain (follow judge) (buffer ++ segment)).rest with
    | none =>
      rw [left] at inside
      obtain ⟨frames, ended⟩ := drain_eq_feed_singletons stable positive segment waits inside
      rw [← ended, left]
      exact ⟨frames, left.symm.trans ended⟩
    | some rest =>
      rw [left] at inside
      simp only [Trace.after, mem_append] at inside
      obtain ⟨frames, ended⟩ := drain_eq_feed_singletons stable positive segment waits
        (fun seen member => inside seen (Or.inl member))
      obtain ⟨tailFrames, tailEnded⟩ := ih (drain_rest_waits left)
        (fun seen member => inside seen (Or.inr member))
      rw [← ended, left]
      simp only [Trace.after]
      exact ⟨by rw [frames, tailFrames], tailEnded⟩

/-- Two segmentations of one stream give the same frames and fail together. -/
theorem feed_segmentation (stable : StableOn domain judge) (positive : Positive judge)
    {buffer left right} (waits : follow judge buffer = .wait) (same : left.flatten = right.flatten)
    (leftInside : ∀ seen ∈ (feed (follow judge) buffer left).seen, domain seen)
    (rightInside : ∀ seen ∈ (feed (follow judge) buffer right).seen, domain seen)
    : (feed (follow judge) buffer left).frames = (feed (follow judge) buffer right).frames
      ∧ (feed (follow judge) buffer left).rest = (feed (follow judge) buffer right).rest := by
  obtain ⟨leftFrames, leftRest⟩ := feed_eq_feed_singletons stable positive left waits leftInside
  obtain ⟨rightFrames, rightRest⟩ :=
    feed_eq_feed_singletons stable positive right waits rightInside
  rw [leftFrames, leftRest, rightFrames, rightRest, same]
  exact ⟨rfl, rfl⟩

end Cutting

end Framing
