import NetTrap.TcpFraming.Modes

/-! Frames do not depend on how the stream was cut into segments, for the modes whose
boundaries the bytes alone decide.
-/

namespace NetTrap.TcpFraming

open Access Framing Rust

/-! Running a framer over segments. -/

/-- Calls the framer until it waits or fails, recording the buffers it was called on. -/
def drainFrames (extract : Framer) : (budget : Nat) → Bytes → Exec (Trace UInt8)
  | 0, _ => .fault
  | budget + 1, buffer => do
      let (result, rest) ← extract buffer
      match result with
      | .complete frame =>
        let later ← drainFrames extract budget rest
        return ⟨frame :: later.frames, buffer :: later.seen, later.rest⟩
      | .incomplete => return ⟨[], [buffer], some rest⟩
      | .invalid _ => return ⟨[], [buffer], none⟩
      | .tooLarge _ => return ⟨[], [buffer], none⟩

/-- Appends each segment to what is left and drains the buffer, up to the first error. -/
def feedSegments (extract : Framer) (buffer : Bytes) : List Bytes → Exec (Trace UInt8)
  | [] => return ⟨[], [], some buffer⟩
  | segment :: segments => do
      let received := buffer ++ segment
      let drained ← drainFrames extract (received.length + 1) received
      match drained.rest with
      | none => return drained
      | some rest => return drained.after (← feedSegments extract rest segments)

section Runs

variable {extract : Framer} {next : Bytes → Step UInt8 Rejection}
  (steps : ∀ buffer, extract buffer = .done (outcome buffer (next buffer)))
  (shrinks : ∀ {buffer front rest}, next buffer = .frame front rest → rest.length < buffer.length)

include steps shrinks

/-- A framer that takes the steps of `next` drains a buffer as they say, by induction on
the budget; every frame makes the buffer shorter.
-/
theorem drainFrames_eq {budget buffer} (enough : buffer.length < budget)
    : drainFrames extract budget buffer = .done (drain next buffer) := by
  induction budget generalizing buffer with
  | zero => omega
  | succ budget ih =>
    rw [drainFrames, steps buffer, Exec.done_bind]
    cases step : next buffer with
    | wait =>
      rw [drain_wait step]
      rfl
    | fail rejection =>
      rw [drain_fail step]
      rcases rejection with ⟨kind, response, clears⟩
      cases kind <;> rfl
    | frame front rest =>
      have shorter := shrinks step
      rw [drain_frame step shorter]
      simp only [outcome, ih (show rest.length < budget by omega)]
      rfl

theorem feedSegments_eq (buffer : Bytes) (segments : List Bytes)
    : feedSegments extract buffer segments = .done (feed next buffer segments) := by
  induction segments generalizing buffer with
  | nil => rfl
  | cons segment segments ih =>
    rw [feedSegments, drainFrames_eq steps shrinks (Nat.lt_succ_self _), Exec.done_bind, feed]
    cases left : (drain next (buffer ++ segment)).rest with
    | none => rfl
    | some rest =>
      simp only [ih rest]
      rfl

end Runs

/-! Modes whose boundaries the bytes decide. -/

/-- The modes that look at the buffered bytes and at nothing else. -/
def TcpFrameMode.boundaryInBytes : TcpFrameMode → Bool
  | .dnsTcp | .line | .sshBanner | .smtpData | .sshPayload | .mysql | .rdp | .tls | .mqtt
  | .memcached | .redis | .ldap => true
  | _ => false

/-- Redis drops any buffer above its frame limit, and LDAP takes data that does not start
an LDAP message as one frame; elsewhere every buffer is decided by its bytes.
-/
def BoundaryDecided (mode : TcpFrameMode) (buffer : Bytes) : Prop :=
  match mode with
  | .redis => buffer.length ≤ maxRedisFrameSize
  | .ldap => StartsLdapMessage buffer
  | _ => True

/-- A mode follows decisions that more data does not revise. -/
structure DecidedMode (env : FramingEnv) (mode : TcpFrameMode)
    (judge : Bytes → Decision Rejection) : Prop where
  refines : Refines (nextTcpFrameForMode env mode) judge
  stable : StableOn (BoundaryDecided mode) judge
  positive : Positive judge
  starts : judge [] = .more

/-- Each mode in question follows the decision of its framer.
Witness: the refinement, stability and positivity lemmas of that framer.
-/
theorem decidedMode_of_boundaryInBytes (env : FramingEnv) {mode}
    (decided : mode.boundaryInBytes = true)
    : ∃ judge, DecidedMode env mode judge := by
  cases mode with
  | dnsTcp =>
    exact ⟨_, extractLengthPrefixedFrame_refines,
      fun front back _ => .of_settled (dnsDecision_settled front back),
      dnsDecision_positive, rfl⟩
  | line | sshBanner =>
    exact ⟨_, extractLimitedLineFrame_refines maxLineFrameSize,
      fun front back _ => lineDecision_kept _ front back,
      lineDecision_positive _, rfl⟩
  | smtpData =>
    exact ⟨_, extractSmtpDataFrameWithLimit_refines maxSmtpDataSize,
      fun front back _ => smtpDataDecision_kept (by decide) front back,
      smtpDataDecision_positive _, rfl⟩
  | sshPayload =>
    exact ⟨_, extractSshPayloadFrame_refines,
      fun front back _ => .of_settled (sshPayloadDecision_settled front back),
      sshPayloadDecision_positive, rfl⟩
  | mysql =>
    exact ⟨_, extractMysqlFrame_refines,
      fun front back _ => .of_settled (mysqlDecision_settled front back),
      mysqlDecision_positive, rfl⟩
  | rdp =>
    exact ⟨_, extractRdpFrame_refines,
      fun front back _ => .of_settled (rdpDecision_settled front back),
      rdpDecision_positive, rfl⟩
  | ldap =>
    exact ⟨_, extractLdapFrame_refines,
      fun front back tagged => .of_settled (ldapDecision_settled front back tagged),
      ldapDecision_positive, rfl⟩
  | mqtt =>
    exact ⟨_, extractMqttFrame_refines,
      fun front back _ => .of_settled (mqttDecision_settled front back),
      mqttDecision_positive, rfl⟩
  | tls =>
    exact ⟨_, extractTlsFrame_refines,
      fun front back _ => .of_settled (tlsDecision_settled front back),
      tlsDecision_positive, rfl⟩
  | redis =>
    exact ⟨_, extractRedisFrame_refines, fun _ _ bounded => redisDecision_kept bounded,
      redisDecision_positive, rfl⟩
  | memcached =>
    exact ⟨_, extractMemcachedFrame_refines, fun front back _ => memcachedDecision_kept front back,
      memcachedDecision_positive, rfl⟩
  | http | postgres | socks | smb | nkn | immediate => cases decided

/-! Segmentation. -/

/-- What comes behind a buffer extends the rest of a completed call and nothing else, and
keeps an error an error.
-/
structure StableAt (extract : Framer) (front back : Bytes) : Prop where
  complete
    : ∀ {frame rest : Bytes},
        extract front = .done (.complete frame, rest)
        → extract (front ++ back) = .done (.complete frame, rest ++ back)
  error
    : ∀ {rest : Bytes} {result : TcpFrameResult},
        extract front = .done (result, rest)
        → result.IsError
        → ∃ later left, extract (front ++ back) = .done (later, left) ∧ later.IsError

section Stability

variable {extract : Framer} {judge : Bytes → Decision Rejection} {front back : Bytes}

theorem Refines.stableAt (refines : Refines extract judge)
    (kept : (judge front).Kept (judge (front ++ back)))
    : StableAt extract front back where
  complete {frame rest} finished := by
    have split := kept.frame back (refines.complete finished)
    rw [refines (front ++ back), follow, split]
    rfl
  error {rest result} finished isError := by
    obtain ⟨rejection, failed⟩ := refines.error finished isError
    obtain ⟨later, failsLater⟩ := kept.fail (front ++ back) failed
    refine ⟨later.result, if later.clears then [] else front ++ back, ?_, later.result_isError⟩
    rw [refines (front ++ back), follow, failsLater]
    rfl

/-- An error that more data repairs. -/
theorem Refines.not_stableAt (refines : Refines extract judge) {rejection}
    (refused : judge front = .reject rejection)
    (repaired : ∀ later, judge (front ++ back) ≠ .reject later)
    : ¬ StableAt extract front back := by
  intro stable
  have failed := refines front
  rw [follow, refused] at failed
  obtain ⟨later, left, finished, isError⟩ := stable.error failed rejection.result_isError
  obtain ⟨again, failsLater⟩ := refines.error finished isError
  exact repaired again (Decision.cut_fail failsLater)

end Stability

/-- More data extends the rest of a completed call and nothing else, an error stays an
error, and two segmentations of one stream give the same frames and fail together.
-/
structure SegmentationFree (extract : Framer) (domain : Bytes → Prop) : Prop where
  complete
    : ∀ {front back frame rest : Bytes},
        domain (front ++ back)
        → extract front = .done (.complete frame, rest)
        → extract (front ++ back) = .done (.complete frame, rest ++ back)
  error
    : ∀ {front back rest : Bytes} {result : TcpFrameResult},
        domain (front ++ back)
        → extract front = .done (result, rest)
        → result.IsError
        → ∃ later left, extract (front ++ back) = .done (later, left) ∧ later.IsError
  finishes : ∀ segments : List Bytes, ∃ trace, feedSegments extract [] segments = .done trace
  segments
    : ∀ {left right : List Bytes} {leftTrace rightTrace : Trace UInt8},
        left.flatten = right.flatten
        → feedSegments extract [] left = .done leftTrace
        → feedSegments extract [] right = .done rightTrace
        → (∀ buffer ∈ leftTrace.seen ++ rightTrace.seen, domain buffer)
        → leftTrace.frames = rightTrace.frames ∧ leftTrace.rest = rightTrace.rest

/-- Every mode whose boundary the bytes decide is free of segmentation effects.
Witness: the framer follows stable decisions, and a run over segments follows the run of
those decisions.
-/
theorem nextTcpFrameForMode_segmentationFree (env : FramingEnv) (mode : TcpFrameMode)
    (decided : mode.boundaryInBytes = true)
    : SegmentationFree (nextTcpFrameForMode env mode) (BoundaryDecided mode) := by
  obtain ⟨judge, follows⟩ := decidedMode_of_boundaryInBytes env decided
  have run := feedSegments_eq follows.refines (follow_shorter follows.positive) []
  refine ⟨?_, ?_, fun segments => ⟨_, run segments⟩, ?_⟩
  · intro front back frame rest inside
    exact (follows.refines.stableAt (follows.stable front back inside)).complete
  · intro front back rest result inside
    exact (follows.refines.stableAt (follows.stable front back inside)).error
  · intro left right leftTrace rightTrace same leftRun rightRun inside
    rw [run left] at leftRun
    rw [run right] at rightRun
    cases leftRun
    cases rightRun
    have waits : follow judge [] = .wait := by
      rw [follow, follows.starts]
      rfl
    exact feed_segmentation follows.stable follows.positive waits same
      (fun buffer member => inside buffer (List.mem_append_left _ member))
      (fun buffer member => inside buffer (List.mem_append_right _ member))

/-- A command line arrives with the start of the next one behind it. -/
theorem nextTcpFrameForMode_segmentationFree_line
    : TcpFrameMode.line.boundaryInBytes = true
      ∧ nextTcpFrameForMode .inert .line (ascii "QUIT\r\n" ++ ascii "NO")
        = .done (.complete (ascii "QUIT\r\n"), [] ++ ascii "NO") :=
  ⟨rfl, (nextTcpFrameForMode_segmentationFree .inert .line rfl).complete trivial rfl⟩

end NetTrap.TcpFraming
