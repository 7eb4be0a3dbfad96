import NetTrap.TcpFraming.Segmentation

/-! The plaintext connection driver: read, frame and dispatch.
Protocol handlers are arbitrary functions of the session, the frame and what is left in
the buffer, so every result holds for whatever they answer.
-/

namespace NetTrap.TcpFraming

open Access Framing Rust List

/-- The session fields that framing reads or resets; handlers own the rest. -/
structure TcpSessionState (σ : Type) where
  smtpDataMode : Bool
  smtpDataBuf : Bytes
  sshFirstPacket : Bool
  protocol : σ

/-- What happens after a frame: the next frame, a close after the response, or a return
from the driver, as after a protocol upgrade.
-/
inductive FrameAction where
  | proceed
  | close
  | leave
  deriving DecidableEq, Repr

structure Handled (σ : Type) where
  session : TcpSessionState σ
  response : Bytes
  action : FrameAction

structure TcpConnection (σ : Type) where
  env : FramingEnv
  name : Str
  destinationPort : Nat
  handle : TcpSessionState σ → TcpFrameMode → (frame rest : Bytes) → Handled σ

/-- The state of the driver after the frame loop. -/
structure Drained (σ : Type) where
  frames : List Bytes
  response : Bytes
  session : TcpSessionState σ
  buffer : Bytes
  action : FrameAction

variable {σ : Type}

/-- An error leaves SMTP data mode. -/
def TcpSessionState.dropSmtpData (session : TcpSessionState σ) : TcpSessionState σ :=
  if session.smtpDataMode then { session with smtpDataMode := false, smtpDataBuf := [] }
  else session

/-- The inner loop of `run_tcp_frame_loop`, with a budget of turns. -/
def frameLoop (conn : TcpConnection σ)
    : (budget : Nat) → TcpSessionState σ → (buffer response : Bytes) → Exec (Drained σ)
  | 0, _, _, _ => .fault
  | budget + 1, session, buffer, response => do
      let (mode, result, rest) ←
        nextTcpFrameWithMode conn.env conn.name conn.destinationPort session.smtpDataMode
          session.sshFirstPacket buffer
      match result with
      | .complete frame =>
        let handled := conn.handle session mode frame rest
        let response := response ++ handled.response
        match handled.action with
        | .proceed =>
          let later ← frameLoop conn budget handled.session rest response
          return { later with frames := frame :: later.frames }
        | action => return ⟨[frame], response, handled.session, rest, action⟩
      | .incomplete => return ⟨[], response, session, rest, .proceed⟩
      | .invalid frameResponse =>
        return ⟨[], response ++ frameResponse.getD [], session.dropSmtpData, rest, .close⟩
      | .tooLarge frameResponse =>
        return ⟨[], response ++ frameResponse.getD [], session.dropSmtpData, rest, .close⟩

/-- The outer loop over the reads of a connection: all frames handed to handlers, and the
buffer at the end. A failed write ends the loop as the end of the reads does.
-/
def runTcpFrameLoop (conn : TcpConnection σ)
    : TcpSessionState σ → (connectionBuf : Bytes) → List Bytes → Exec (List Bytes × Bytes)
  | _, connectionBuf, [] => return ([], connectionBuf)
  | session, connectionBuf, data :: reads => do
      let received := connectionBuf ++ data
      let drained ← frameLoop conn (received.length + 1) session received []
      if drained.action = .proceed then
        let (frames, buffer) ← runTcpFrameLoop conn drained.session drained.buffer reads
        return (drained.frames ++ frames, buffer)
      return (drained.frames, drained.buffer)

/-! Every framer call is sound. -/

/-- Whatever the mode, a framer call stays inside its buffer and accounts for it.
Witness: the decisions of the modes that have them, and the direct arguments for the
modes that take unrecognised data whole.
-/
theorem nextTcpFrameForMode_finishes (env : FramingEnv) (mode : TcpFrameMode) (buffer : Bytes)
    : Finishes buffer (nextTcpFrameForMode env mode buffer) := by
  by_cases decided : mode.boundaryInBytes = true
  · obtain ⟨judge, follows⟩ := decidedMode_of_boundaryInBytes env decided
    exact follows.refines.finishes follows.positive buffer
  · cases mode with
    | http => exact extractHttpRequest_refines.finishes httpDecision_positive buffer
    | postgres => exact extractPostgresFrame_finishes buffer
    | socks => exact extractSocksFrame_finishes buffer
    | smb => exact (extractSmbFrame_finishes buffer).finishes
    | nkn => exact extractNknFrame_finishes env.nextJson buffer
    | immediate => exact .immediate
    | _ => exact absurd rfl decided

theorem splitLengthPrefixedPayload_done (buffer : Bytes)
    : ∃ answer, splitLengthPrefixedPayload buffer = .done answer := by
  rw [splitLengthPrefixedPayload]
  by_cases short : buffer.length < 2
  · exact ⟨none, if_pos short⟩
  rw [if_neg short, item_of_lt (by omega), item_of_lt (by omega)]
  simp only [Exec.done_bind]
  have small := u16FromBeBytes_lt buffer[0] buffer[1]
  generalize u16FromBeBytes buffer[0] buffer[1] = declaredLen at small ⊢
  rw [checkedAdd_of_le (by simp only [usizeMax]; omega)]
  by_cases complete : buffer.length ≥ 2 + declaredLen
  · simp only [complete, decide_true, if_true]
    rw [slice_of_le (by omega) complete]
    exact ⟨_, rfl⟩
  · simp only [complete, decide_false, Bool.false_eq_true, if_false]
    rw [slice_of_le (by omega) (Nat.le_refl _)]
    exact ⟨_, rfl⟩

theorem looksLikeDnsHeader_done (data : Bytes)
    : ∃ answer, looksLikeDnsHeader data = .done answer := by
  rw [looksLikeDnsHeader]
  by_cases short : data.length < 13
  · exact ⟨false, if_pos short⟩
  rw [if_neg short]
  simp only [item_of_lt (show 2 < data.length by omega),
    item_of_lt (show 3 < data.length by omega), item_of_lt (show 4 < data.length by omega),
    item_of_lt (show 5 < data.length by omega), item_of_lt (show 6 < data.length by omega),
    item_of_lt (show 7 < data.length by omega), item_of_lt (show 8 < data.length by omega),
    item_of_lt (show 9 < data.length by omega), item_of_lt (show 12 < data.length by omega),
    Exec.done_bind]
  exact ⟨_, rfl⟩

theorem isDnsOverTcpFrame_done (env : FramingEnv) (buffer : Bytes) (destinationPort : Nat)
    : ∃ answer, isDnsOverTcpFrame env buffer destinationPort = .done answer := by
  obtain ⟨split, splits⟩ := splitLengthPrefixedPayload_done buffer
  rw [isDnsOverTcpFrame, splits, Exec.done_bind]
  rcases split with _ | ⟨payload, complete⟩
  · exact ⟨_, rfl⟩
  · cases complete with
    | true => exact ⟨_, rfl⟩
    | false => exact looksLikeDnsHeader_done payload

/-- Choosing a mode never leaves the buffer. -/
theorem tcpFrameMode_done (env : FramingEnv) (listenerName : Str) (buffer : Bytes)
    (destinationPort : Nat) (smtpDataMode sshFirstPacket : Bool)
    : ∃ mode, tcpFrameMode env listenerName buffer destinationPort smtpDataMode sshFirstPacket
          = .done mode := by
  rw [tcpFrameMode]
  split
  · exact ⟨_, rfl⟩
  split
  · exact ⟨_, rfl⟩
  cases listenerFrameMode env listenerName sshFirstPacket with
  | some mode => exact ⟨_, rfl⟩
  | none =>
    obtain ⟨isDns, decided⟩ := isDnsOverTcpFrame_done env buffer destinationPort
    have port : ∃ mode, portFrameMode env destinationPort buffer sshFirstPacket = .done mode := by
      rw [portFrameMode, decided]
      split
      · exact ⟨_, rfl⟩
      · cases isDns with
        | true => exact ⟨_, rfl⟩
        | false => exact ⟨_, rfl⟩
    obtain ⟨mode, chosen⟩ := port
    simp only [chosen, Exec.done_bind]
    cases mode with
    | some mode => exact ⟨_, rfl⟩
    | none =>
      cases env.routeTcp buffer destinationPort with
      | some detected => exact ⟨_, rfl⟩
      | none => exact ⟨_, rfl⟩

theorem nextTcpFrameWithMode_done (env : FramingEnv) (listenerName : Str)
    (destinationPort : Nat) (smtpDataMode sshFirstPacket : Bool) (buffer : Bytes)
    : ∃ mode result rest,
        nextTcpFrameWithMode env listenerName destinationPort smtpDataMode sshFirstPacket buffer
          = .done (mode, result, rest)
        ∧ Sound buffer (result, rest) := by
  obtain ⟨mode, chosen⟩ :=
    tcpFrameMode_done env listenerName buffer destinationPort smtpDataMode sshFirstPacket
  obtain ⟨⟨result, rest⟩, finished, sound⟩ := nextTcpFrameForMode_finishes env mode buffer
  refine ⟨mode, result, rest, ?_, sound⟩
  rw [nextTcpFrameWithMode, chosen, Exec.done_bind, finished]
  rfl

/-! The driver loops. -/

/-- The frames of a drain and what it leaves stand for the received bytes in order; only
an error may drop a tail.
-/
structure Accounted (received : Bytes) (frames : List Bytes) (buffer : Bytes) : Prop where
  nonempty : ∀ frame ∈ frames, frame ≠ []
  ordered : frames.flatten ++ buffer = received ∨ buffer = [] ∧ frames.flatten <+: received

variable {buffer : Bytes}

theorem Accounted.cons {received frame rest frames} (filled : frame ≠ [])
    (split : received = frame ++ rest) (later : Accounted rest frames buffer)
    : Accounted received (frame :: frames) buffer := by
  refine ⟨?_, ?_⟩
  · intro member inside
    rcases mem_cons.mp inside with rfl | inside
    · exact filled
    · exact later.nonempty member inside
  · rw [flatten_cons, split, append_assoc]
    rcases later.ordered with whole | ⟨dropped, starts⟩
    · exact .inl (by rw [whole])
    · exact .inr ⟨dropped, prefix_append_right_inj frame |>.mpr starts⟩

/-- The frame loop ends within a budget of one turn for each byte and one more, and
accounts for its buffer; a loop that asks for more data has lost nothing.
Witness: induction on the budget; each turn that goes on has taken a nonempty frame.
-/
theorem frameLoop_accounted (conn : TcpConnection σ) {budget : Nat} (session : TcpSessionState σ)
    (response : Bytes) (enough : buffer.length < budget)
    : ∃ drained, frameLoop conn budget session buffer response = .done drained
        ∧ Accounted buffer drained.frames drained.buffer
        ∧ (drained.action = .proceed → drained.frames.flatten ++ drained.buffer = buffer) := by
  induction budget generalizing session buffer response with
  | zero => omega
  | succ budget ih =>
    obtain ⟨mode, result, rest, called, sound⟩ :=
      nextTcpFrameWithMode_done conn.env conn.name conn.destinationPort session.smtpDataMode
        session.sshFirstPacket buffer
    rw [frameLoop, called, Exec.done_bind]
    cases result with
    | incomplete =>
      cases sound
      exact ⟨_, rfl, ⟨by simp, .inl rfl⟩, fun _ => rfl⟩
    | invalid answer | tooLarge answer =>
      refine ⟨_, rfl, ⟨by simp, ?_⟩, fun proceeds => by cases proceeds⟩
      rcases sound with kept | dropped
      · exact .inl kept
      · exact .inr ⟨dropped, nil_prefix⟩
    | complete frame =>
      obtain ⟨filled, split⟩ := sound
      have one : Accounted buffer [frame] rest :=
        .cons filled split ⟨by simp, .inl rfl⟩
      have shorter : rest.length < budget := by
        have := length_pos_iff.mpr filled
        rw [split, length_append] at enough
        omega
      simp only
      cases (conn.handle session mode frame rest).action with
      | proceed =>
        obtain ⟨drained, finished, accounted, whole⟩ :=
          ih (conn.handle session mode frame rest).session
            (response ++ (conn.handle session mode frame rest).response) shorter
        refine ⟨_, by rw [finished]; rfl, accounted.cons filled split, fun proceeds => ?_⟩
        rw [flatten_cons, append_assoc, whole proceeds, split]
      | close | leave => exact ⟨_, rfl, one, fun proceeds => by cases proceeds⟩

theorem Accounted.starts {received frames} (accounted : Accounted received frames buffer)
    : frames.flatten ++ buffer <+: received := by
  rcases accounted.ordered with whole | ⟨rfl, starts⟩
  · rw [whole]
  · rwa [append_nil]

/-- Over any reads, the frames handed to the handlers and the final buffer are a prefix of
what was received.
Witness: induction on the reads; a loop that goes on reading has kept every byte.
-/
theorem runTcpFrameLoop_ordered (conn : TcpConnection σ) (session : TcpSessionState σ)
    (connectionBuf : Bytes) (reads : List Bytes)
    : ∃ frames buffer, runTcpFrameLoop conn session connectionBuf reads = .done (frames, buffer)
        ∧ (∀ frame ∈ frames, frame ≠ [])
        ∧ frames.flatten ++ buffer <+: connectionBuf ++ reads.flatten := by
  induction reads generalizing session connectionBuf with
  | nil => exact ⟨[], connectionBuf, rfl, by simp, by simp⟩
  | cons data reads ih =>
    obtain ⟨drained, finished, accounted, whole⟩ :=
      frameLoop_accounted conn session [] (Nat.lt_succ_self (connectionBuf ++ data).length)
    rw [runTcpFrameLoop, finished, Exec.done_bind, flatten_cons, ← append_assoc]
    by_cases proceeds : drained.action = .proceed
    · obtain ⟨frames, buffer, ran, nonempty, starts⟩ := ih drained.session drained.buffer
      refine ⟨drained.frames ++ frames, buffer, ?_, ?_, ?_⟩
      · rw [if_pos proceeds, ran]
        rfl
      · intro frame member
        rcases mem_append.mp member with early | late
        · exact accounted.nonempty frame early
        · exact nonempty frame late
      · rw [flatten_append, ← whole proceeds, append_assoc, append_assoc]
        exact (prefix_append_right_inj _).mpr starts
    · refine ⟨drained.frames, drained.buffer, if_neg proceeds, accounted.nonempty, ?_⟩
      exact accounted.starts.trans (prefix_append _ _)

/-- Framer calls are sound in every mode, the frame loop ends on every buffer, and no
received byte is duplicated or reordered.
-/
theorem framing_sound (conn : TcpConnection σ)
    : (∀ mode buffer, Finishes buffer (nextTcpFrameForMode conn.env mode buffer))
      ∧ (∀ session buffer response, ∃ drained,
            frameLoop conn (buffer.length + 1) session buffer response = .done drained
            ∧ Accounted buffer drained.frames drained.buffer)
      ∧ ∀ session connectionBuf reads, ∃ frames buffer,
            runTcpFrameLoop conn session connectionBuf reads = .done (frames, buffer)
            ∧ (∀ frame ∈ frames, frame ≠ [])
            ∧ frames.flatten ++ buffer <+: connectionBuf ++ reads.flatten := by
  refine ⟨nextTcpFrameForMode_finishes conn.env, ?_, runTcpFrameLoop_ordered conn⟩
  intro session buffer response
  obtain ⟨drained, finished, accounted, -⟩ :=
    frameLoop_accounted conn session response (Nat.lt_succ_self buffer.length)
  exact ⟨drained, finished, accounted⟩

end NetTrap.TcpFraming
