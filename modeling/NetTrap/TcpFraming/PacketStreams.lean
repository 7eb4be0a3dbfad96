import NetTrap.TcpFraming.Connection

/-! Streams of MySQL packets and of DNS messages on listeners configured for them.
The mode is chosen again before every frame, and a buffer that starts like a TLS record
is framed as one whatever the listener is called.
-/

namespace NetTrap.TcpFraming

open Access Framing Rust List Bool

/-- A listener between two frames, outside SMTP data mode. -/
structure Listener where
  env : FramingEnv
  name : Str
  destinationPort : Nat
  sshFirstPacket : Bool

namespace Listener

variable (listener : Listener)

/-- The listener name selects this mode. -/
def ConfiguredAs (mode : TcpFrameMode) : Prop :=
  listenerFrameMode listener.env listener.name listener.sshFirstPacket = some mode

def nextFrame (buffer : Bytes) : Exec (TcpFrameMode × TcpFrameResult × Bytes) :=
  nextTcpFrameWithMode listener.env listener.name listener.destinationPort false
    listener.sshFirstPacket buffer

/-- Repeated `nextTcpFrameWithMode` calls up to the first one without a frame. -/
def repeatFrames : (budget : Nat) → Bytes → Exec (List Bytes × Bytes)
  | 0, _ => .fault
  | budget + 1, buffer => do
      let (_, result, rest) ← listener.nextFrame buffer
      match result with
      | .complete frame =>
        let (frames, left) ← repeatFrames budget rest
        return (frame :: frames, left)
      | _ => return ([], rest)

/-- The stream of these packets is cut into exactly these packets, with nothing left. -/
def SplitsExactly (packets : List Bytes) : Prop :=
  ∃ budget, listener.repeatFrames budget packets.flatten = .done (packets, [])

end Listener

/-- A MySQL packet within the frame limit. -/
structure MysqlPacket where
  sequence : UInt8
  payload : Bytes
  fits : 4 + payload.length ≤ maxMysqlFrameSize

/-- Three length bytes, least significant first, and the sequence number. -/
def MysqlPacket.encode (packet : MysqlPacket) : Bytes :=
  UInt8.ofNat packet.payload.length :: UInt8.ofNat (packet.payload.length / 256)
    :: UInt8.ofNat (packet.payload.length / 65536) :: packet.sequence :: packet.payload

/-- A DNS message as it is sent over TCP. -/
structure DnsTcpMessage where
  payload : Bytes
  fits : payload.length < 65536

/-- Two length bytes, most significant first. -/
def DnsTcpMessage.encode (message : DnsTcpMessage) : Bytes :=
  UInt8.ofNat (message.payload.length / 256) :: UInt8.ofNat message.payload.length
    :: message.payload

/-! One frame at the front of a stream. -/

section Calls

variable (listener : Listener)

/-- Buffers that start like a TLS record are framed as one. -/
theorem nextFrame_of_tls {buffer : Bytes} (sniffed : hasTlsRecordPrefix buffer = true)
    : listener.nextFrame buffer = .done (.tls, outcome buffer (follow tlsDecision buffer)) := by
  have called : nextTcpFrameForMode listener.env .tls buffer
      = .done (outcome buffer (follow tlsDecision buffer)) :=
    extractTlsFrame_refines buffer
  simp [Listener.nextFrame, nextTcpFrameWithMode, tcpFrameMode, sniffed, Exec.pure_eq,
    Exec.done_bind, called]

variable {mode : TcpFrameMode}

/-- Other buffers are framed as the listener name says. -/
theorem nextFrame_of_listener {buffer judge} (configured : listener.ConfiguredAs mode)
    (refines : Refines (nextTcpFrameForMode listener.env mode) judge)
    (plain : hasTlsRecordPrefix buffer = false)
    : listener.nextFrame buffer = .done (mode, outcome buffer (follow judge buffer)) := by
  have noHello : isTlsClientHello buffer = false := by
    simp only [isTlsClientHello, hasSupportedTlsRecordHeader, plain]
    split <;> simp
  have chosen : listenerFrameMode listener.env listener.name listener.sshFirstPacket
      = some mode := configured
  simp [Listener.nextFrame, nextTcpFrameWithMode, tcpFrameMode, plain, noHello, chosen,
    Exec.pure_eq, Exec.done_bind, refines buffer]

/-- A call that takes the first packet leaves the stream of the others to split. -/
theorem splitsExactly_cons {packet packets} (called
      : listener.nextFrame (packet ++ packets.flatten)
        = .done (mode, .complete packet, packets.flatten))
    : listener.SplitsExactly (packet :: packets) ↔ listener.SplitsExactly packets := by
  constructor
  · rintro ⟨budget, ran⟩
    cases budget with
    | zero => cases ran
    | succ budget =>
      rw [flatten_cons, Listener.repeatFrames, called, Exec.done_bind] at ran
      obtain ⟨⟨frames, left⟩, inner, collected⟩ := Exec.bind_eq_done ran
      cases collected
      exact ⟨budget, inner⟩
  · rintro ⟨budget, ran⟩
    refine ⟨budget + 1, ?_⟩
    rw [flatten_cons, Listener.repeatFrames, called, Exec.done_bind]
    simp only [ran]
    rfl

/-- A call that does anything but take the first packet spoils the split. -/
theorem not_splitsExactly_cons {packet rest packets result}
    (called : listener.nextFrame (packet ++ packets.flatten) = .done (mode, result, rest))
    (other : result ≠ .complete packet)
    : ¬ listener.SplitsExactly (packet :: packets) := by
  rintro ⟨budget, ran⟩
  cases budget with
  | zero => cases ran
  | succ budget =>
    rw [flatten_cons, Listener.repeatFrames, called, Exec.done_bind] at ran
    cases result with
    | complete frame =>
      obtain ⟨⟨frames, left⟩, inner, collected⟩ := Exec.bind_eq_done ran
      cases collected
      exact other rfl
    | incomplete => cases ran
    | invalid answer => cases ran
    | tooLarge answer => cases ran

/-- A taken length cuts a stream behind its first packet. -/
theorem outcome_take_append (packet rest : Bytes)
    : outcome (packet ++ rest) ((Decision.take packet.length).cut (packet ++ rest))
      = (.complete packet, rest) := by
  rw [outcome_take_of_le (by simp), take_left, drop_left]

/-- A call that takes exactly the first packet was asked for its length. -/
theorem take_of_outcome_complete {judge packet rest}
    (taken : (outcome (packet ++ rest) (follow judge (packet ++ rest))).1 = .complete packet)
    : judge (packet ++ rest) = .take packet.length := by
  cases step : follow judge (packet ++ rest) with
  | wait => rw [step] at taken; cases taken
  | fail rejection =>
    rw [step] at taken
    have isError := rejection.result_isError
    rw [show rejection.result = .complete packet from taken] at isError
    exact isError.elim
  | frame front left =>
    obtain ⟨length, asked, arrived, split, -⟩ := Decision.cut_frame step
    rw [step] at taken
    cases taken
    have size := congrArg List.length split
    rw [List.length_take, Nat.min_eq_left arrived] at size
    rw [asked, size]

/-- A stream is split exactly when each of its packets is cut off whole by the framer that its
first bytes select.
Witness: induction on the packets; a call takes the first packet, or it spoils the split.
-/
theorem splitsExactly_map_iff {judge} {encode : α → Bytes} {Whole : α → Prop}
    (configured : listener.ConfiguredAs mode)
    (refines : Refines (nextTcpFrameForMode listener.env mode) judge) (starts : judge [] = .more)
    (tls : ∀ packet rest, hasTlsRecordPrefix (encode packet ++ rest) = true
      → (tlsDecision (encode packet ++ rest) = .take (encode packet).length ↔ Whole packet))
    (plain : ∀ packet rest, hasTlsRecordPrefix (encode packet ++ rest) = false
      → judge (encode packet ++ rest) = .take (encode packet).length ∧ Whole packet)
    (packets : List α)
    : listener.SplitsExactly (packets.map encode) ↔ ∀ packet ∈ packets, Whole packet := by
  induction packets with
  | nil =>
    refine ⟨fun _ => forall_mem_nil _, fun _ => ⟨1, ?_⟩⟩
    rw [map_nil, flatten_nil, Listener.repeatFrames,
      nextFrame_of_listener listener configured refines rfl, follow, starts]
    rfl
  | cons packet packets ih =>
    rw [map_cons, forall_mem_cons]
    cases sniffed : hasTlsRecordPrefix (encode packet ++ (packets.map encode).flatten) with
    | false =>
      obtain ⟨asked, whole⟩ := plain packet _ sniffed
      have called := nextFrame_of_listener listener configured refines sniffed
      rw [follow, asked, outcome_take_append] at called
      rw [splitsExactly_cons listener called, ih, and_iff_right whole]
    | true =>
      have called := nextFrame_of_tls listener sniffed
      by_cases whole : Whole packet
      · rw [follow, (tls packet _ sniffed).mpr whole, outcome_take_append] at called
        rw [splitsExactly_cons listener called, ih, and_iff_right whole]
      · have spoiled := not_splitsExactly_cons listener called fun taken =>
          whole ((tls packet _ sniffed).mp (take_of_outcome_complete taken))
        exact ⟨fun split => absurd split spoiled, fun both => absurd both.1 whole⟩

end Calls

/-- A TLS record that is taken has a known version and ends within the record limit. -/
theorem tlsDecision_take {kind major minor high low tail length}
    (asked : tlsDecision (kind :: major :: minor :: high :: low :: tail) = .take length)
    : 1 ≤ minor ∧ minor ≤ 4 ∧ length = 5 + u16FromBeBytes high low ∧ length ≤ maxTlsRecordSize := by
  have supported := take_of_guard asked
  split at supported
  · cases supported
  rename_i version
  have limited := take_of_guard supported
  split at limited
  · cases limited
  rename_i within
  cases limited
  simp only [not_eq_true, not_eq_false', and_eq_true, decide_eq_true_eq] at version
  exact ⟨version.2.1, version.2.2, rfl, by omega⟩

theorem hasTlsRecordPrefix_ofNat {kind major : Nat} {rest}
    : hasTlsRecordPrefix (UInt8.ofNat kind :: UInt8.ofNat major :: rest) = true
      ↔ kind % 256 = 0x16 ∧ major % 256 = 0x03 := by
  simp [hasTlsRecordPrefix_cons, ← UInt8.toNat_inj]

/-! MySQL. -/

/-- The length bytes `16 03` at the front of a packet read as a TLS handshake record. -/
def MysqlPacket.LooksLikeTls (packet : MysqlPacket) : Prop :=
  packet.payload.length % 65536 = 0x0316

theorem MysqlPacket.hasTlsRecordPrefix_encode (packet : MysqlPacket) (rest : Bytes)
    : hasTlsRecordPrefix (packet.encode ++ rest) = true ↔ packet.LooksLikeTls := by
  simp only [encode, cons_append, hasTlsRecordPrefix_ofNat, LooksLikeTls]
  omega

theorem MysqlPacket.length_encode (packet : MysqlPacket)
    : packet.encode.length = 4 + packet.payload.length := by
  simp [encode]
  omega

theorem MysqlPacket.mysqlDecision_encode (packet : MysqlPacket) (rest : Bytes)
    : mysqlDecision (packet.encode ++ rest) = .take packet.encode.length := by
  have fits := packet.fits
  have limit : maxMysqlFrameSize = 16777216 := rfl
  have announced
      : mysqlPayloadLen (UInt8.ofNat packet.payload.length)
          (UInt8.ofNat (packet.payload.length / 256))
          (UInt8.ofNat (packet.payload.length / 65536))
        = packet.payload.length := by
    simp [mysqlPayloadLen]
    omega
  rw [length_encode, encode]
  simp only [cons_append, mysqlDecision, announced]
  rw [if_neg (by omega)]

/-- Taken as a TLS record, a packet would need a version byte from one to four and a length
below the TLS limit; no MySQL packet has both.
-/
theorem MysqlPacket.tlsDecision_encode (packet : MysqlPacket) (rest : Bytes)
    (sniffed : packet.LooksLikeTls)
    : tlsDecision (packet.encode ++ rest) ≠ .take packet.encode.length := by
  intro asked
  simp only [LooksLikeTls] at sniffed
  rw [length_encode] at asked
  rcases nonempty : packet.payload with _ | ⟨first, tail⟩
  · rw [nonempty] at sniffed
    cases sniffed
  · rw [encode, nonempty] at asked
    obtain ⟨known, -, -, within⟩ := tlsDecision_take asked
    rw [← nonempty] at known within
    have version : 1 ≤ (UInt8.ofNat (packet.payload.length / 65536)).toNat :=
      UInt8.le_iff_toNat_le.mp known
    rw [UInt8.toNat_ofNat'] at version
    have limit : maxTlsRecordSize = 65536 := rfl
    omega

/-- A stream of packets is split exactly when none of them starts like a TLS record. -/
theorem mysqlStream_splitsExactly_iff
    (listener : Listener) (configured : listener.ConfiguredAs .mysql)
    (packets : List MysqlPacket)
    : listener.SplitsExactly (packets.map MysqlPacket.encode)
      ↔ ∀ packet ∈ packets, ¬ packet.LooksLikeTls := by
  refine splitsExactly_map_iff listener configured extractMysqlFrame_refines rfl ?_ ?_ packets
  · intro packet rest sniffed
    have looks := (packet.hasTlsRecordPrefix_encode rest).mp sniffed
    exact iff_of_false (packet.tlsDecision_encode rest looks) (not_not_intro looks)
  · intro packet rest plain
    rw [← not_eq_true, packet.hasTlsRecordPrefix_encode] at plain
    exact ⟨packet.mysqlDecision_encode rest, plain⟩

/-! DNS. -/

/-- The length bytes `16 03` at the front of a message read as a TLS handshake record. -/
def DnsTcpMessage.LooksLikeTls (message : DnsTcpMessage) : Prop :=
  message.payload.length = 0x1603

/-- Read as a TLS record, the message has a known version and a record length that ends
where the message does.
-/
def DnsTcpMessage.EndsAsTlsRecord (message : DnsTcpMessage) : Prop :=
  ∃ version tail, 1 ≤ version ∧ version ≤ 4 ∧ message.payload = version :: 0x16 :: 0x00 :: tail

section

variable (message : DnsTcpMessage)

theorem DnsTcpMessage.length_encode : message.encode.length = 2 + message.payload.length := by
  simp [encode]
  omega

theorem DnsTcpMessage.hasTlsRecordPrefix_encode (rest : Bytes)
    : hasTlsRecordPrefix (message.encode ++ rest) = true ↔ message.LooksLikeTls := by
  simp only [encode, cons_append, hasTlsRecordPrefix_ofNat, LooksLikeTls]
  have fits := message.fits
  omega

theorem DnsTcpMessage.dnsDecision_encode (rest : Bytes)
    : dnsDecision (message.encode ++ rest) = .take message.encode.length := by
  have fits := message.fits
  have announced
      : u16FromBeBytes (UInt8.ofNat (message.payload.length / 256))
          (UInt8.ofNat message.payload.length)
        = message.payload.length := by
    simp [u16FromBeBytes]
    omega
  rw [length_encode, encode]
  simp [dnsDecision, announced]

/-- Framed as TLS, a message that looks like it is taken whole exactly when it also ends
like a record.
-/
theorem DnsTcpMessage.tlsDecision_encode_iff (rest : Bytes) (sniffed : message.LooksLikeTls)
    : tlsDecision (message.encode ++ rest) = .take message.encode.length
      ↔ message.EndsAsTlsRecord := by
  have size := message.length_encode
  simp only [LooksLikeTls] at sniffed
  have prefixBytes : message.encode = 0x16 :: 0x03 :: message.payload := by
    rw [encode, sniffed]
    rfl
  rw [size, sniffed, prefixBytes]
  rcases payload : message.payload with _ | ⟨version, _ | ⟨high, _ | ⟨low, tail⟩⟩⟩
  iterate 3
    rw [payload] at sniffed
    simp at sniffed
  constructor
  · intro asked
    obtain ⟨known, recent, exactly, -⟩ := tlsDecision_take asked
    have highSmall := high.toNat_lt
    have lowSmall := low.toNat_lt
    simp only [u16FromBeBytes] at exactly
    have highByte : high = 0x16 := UInt8.toNat_inj.mp (by
      rw [show (0x16 : UInt8).toNat = 22 from rfl]
      omega)
    have lowByte : low = 0x00 := UInt8.toNat_inj.mp (by
      rw [show (0x00 : UInt8).toNat = 0 from rfl]
      omega)
    exact ⟨version, tail, known, recent, by rw [payload, highByte, lowByte]⟩
  · rintro ⟨known, behind, low1, high4, same⟩
    rw [payload] at same
    cases same
    simp [tlsDecision, low1, high4, u16FromBeBytes, maxTlsRecordSize]

end

/-- A stream of messages is split exactly when each message that starts like a TLS record
also ends like one.
-/
theorem dnsStream_splitsExactly_iff
    (listener : Listener) (configured : listener.ConfiguredAs .dnsTcp)
    (messages : List DnsTcpMessage)
    : listener.SplitsExactly (messages.map DnsTcpMessage.encode)
      ↔ ∀ message ∈ messages, message.LooksLikeTls → message.EndsAsTlsRecord := by
  refine splitsExactly_map_iff listener configured extractLengthPrefixedFrame_refines rfl
    ?_ ?_ messages
  · intro message rest sniffed
    have looks := (message.hasTlsRecordPrefix_encode rest).mp sniffed
    rw [message.tlsDecision_encode_iff rest looks, forall_prop_of_true looks]
  · intro message rest plain
    rw [← not_eq_true, message.hasTlsRecordPrefix_encode] at plain
    exact ⟨message.dnsDecision_encode rest, fun looks => absurd looks plain⟩

/-- On a MySQL listener a stream is split into its packets exactly when no packet length
has the low bytes `16 03`; on a DNS listener exactly when every message of length `0x1603`
also ends where its TLS reading does.
-/
theorem packetStream_splitsExactly_iff (listener : Listener)
    : (listener.ConfiguredAs .mysql → ∀ packets : List MysqlPacket,
            listener.SplitsExactly (packets.map MysqlPacket.encode)
            ↔ ∀ packet ∈ packets, ¬ packet.LooksLikeTls)
      ∧ (listener.ConfiguredAs .dnsTcp → ∀ messages : List DnsTcpMessage,
            listener.SplitsExactly (messages.map DnsTcpMessage.encode)
            ↔ ∀ message ∈ messages, message.LooksLikeTls → message.EndsAsTlsRecord) :=
  ⟨mysqlStream_splitsExactly_iff listener, dnsStream_splitsExactly_iff listener⟩

/-- A listener called `mysql` on its usual port. -/
def mysqlListener : Listener where
  env := .inert
  name := ascii "mysql"
  destinationPort := 3306
  sshFirstPacket := true

theorem mysqlListener_configuredAs : mysqlListener.ConfiguredAs .mysql := by
  rw [Listener.ConfiguredAs]
  decide

/-- A query of three bytes passes the sniffing. -/
def shortQuery : MysqlPacket where
  sequence := 0
  payload := [3, 65, 66]
  fits := by decide

theorem packetStream_splitsExactly_iff_shortQuery
    : mysqlListener.ConfiguredAs .mysql
      ∧ mysqlListener.SplitsExactly [shortQuery.encode, shortQuery.encode] := by
  refine ⟨mysqlListener_configuredAs, ?_⟩
  have split := (packetStream_splitsExactly_iff mysqlListener).1 mysqlListener_configuredAs
    [shortQuery, shortQuery]
  refine split.mpr fun packet member => ?_
  have same : packet = shortQuery := by simpa using member
  rw [same, MysqlPacket.LooksLikeTls]
  decide

/-- A query of 790 bytes, whose length field begins with `16 03`. -/
def sniffedQuery : MysqlPacket where
  sequence := 0
  payload := List.replicate 790 65
  fits := by rw [List.length_replicate]; decide

/-- The sniffed query is not split off its own stream. -/
theorem mysqlListener_not_splitsExactly_sniffedQuery
    : mysqlListener.ConfiguredAs .mysql ∧ ¬ mysqlListener.SplitsExactly [sniffedQuery.encode] := by
  refine ⟨mysqlListener_configuredAs, fun split => ?_⟩
  have plain := (mysqlStream_splitsExactly_iff mysqlListener mysqlListener_configuredAs
    [sniffedQuery]).mp split sniffedQuery (List.mem_singleton_self _)
  refine plain ?_
  rw [MysqlPacket.LooksLikeTls, sniffedQuery, List.length_replicate]

/-! Other modes. -/

/-- Frames that the framer of a listener completes one by one, none of them starting with the first
byte of a TLS record, are split off their stream again.
Witness: induction on the frames; what follows a frame only extends the rest of its call.
-/
theorem frameStream_splitsExactly (listener : Listener) {mode frames}
    (decided : mode.boundaryInBytes = true) (configured : listener.ConfiguredAs mode)
    (whole
      : ∀ frame ∈ frames,
          nextTcpFrameForMode listener.env mode frame = .done (.complete frame, []))
    (plain : ∀ frame ∈ frames, frame.head? ≠ some 0x16)
    (inside : ∀ later, later <:+ frames → BoundaryDecided mode later.flatten)
    : listener.SplitsExactly frames := by
  obtain ⟨judge, follows⟩ := decidedMode_of_boundaryInBytes listener.env decided
  induction frames with
  | nil =>
    refine ⟨1, ?_⟩
    rw [flatten_nil, Listener.repeatFrames,
      nextFrame_of_listener listener configured follows.refines rfl, follow, follows.starts]
    rfl
  | cons frame frames ih =>
    obtain ⟨first, whole⟩ := forall_mem_cons.mp whole
    obtain ⟨other, plain⟩ := forall_mem_cons.mp plain
    have split := follows.refines.complete first
    have later := (follows.stable frame _ (inside _ suffix_rfl)).frame frames.flatten split
    have unlike : hasTlsRecordPrefix (frame ++ frames.flatten) = false := by
      cases frame with
      | nil =>
        rw [follow, follows.starts] at split
        cases split
      | cons byte frame => simp_all [hasTlsRecordPrefix]
    have called := nextFrame_of_listener listener configured follows.refines unlike
    rw [follow, later] at called
    rw [splitsExactly_cons listener called]
    exact ih whole plain fun later behind => inside later (behind.trans (suffix_cons _ _))

theorem frameStream_splitsExactly_shortQuery
    : mysqlListener.SplitsExactly [shortQuery.encode, shortQuery.encode, shortQuery.encode] :=
  frameStream_splitsExactly mysqlListener rfl mysqlListener_configuredAs (by decide) (by decide)
    fun _ _ => trivial

end NetTrap.TcpFraming
