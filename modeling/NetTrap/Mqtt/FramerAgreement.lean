import NetTrap.Mqtt.RemainingLength
import NetTrap.TcpFraming.EncodedLength

/-! The MQTT framer against the MQTT handler.
Both read the remaining length and check the fixed header, each with code of its own. They
differ on `DISCONNECT`: MQTT 5 gives it a reason code, which the handler reads and the framer
does not let through.
-/

namespace NetTrap.Mqtt

open Access Framing Rust TcpFraming List

theorem encodedLenLoop_eq (budget value : Nat)
    : encodedLenLoop budget value = encodedGroups budget value := by
  induction budget generalizing value with
  | zero => rfl
  | succ budget ih => rw [encodedLenLoop, encodedGroups, ih]

variable {value : Nat} {first type : UInt8}

/-- The framer's loop over the remaining length decides by the integer that its groups encode.
Witness: induction on the encoding; what the first groups add up to is no more than the whole, so
that an early refusal is one of the whole.
-/
theorem Encodes.mqttLengthDecision_eq {code} (encodes : Encodes code value) {rounds}
    (short : code.length ≤ rounds) (bytesRead multiplier before : Nat) (rest : Bytes)
    : mqttLengthDecision first type rounds (bytesRead + 1) multiplier before (code ++ rest)
      = if before + value * multiplier > maxMqttFrameSize then .reject (dropTooLarge none)
        else if mqttRemainingLengthEncodedLen (before + value * multiplier)
          != bytesRead + code.length then .reject (dropInvalid none)
        else if !mqttFixedHeaderIsValid first type (before + value * multiplier) then
          .reject (dropInvalid none)
        else if bytesRead + code.length + 1 + (before + value * multiplier) > maxMqttFrameSize then
          .reject (dropTooLarge none)
        else .take (bytesRead + code.length + 1 + (before + value * multiplier)) := by
  induction encodes generalizing rounds bytesRead multiplier before with
  | @last byte unmarked =>
    obtain ⟨rounds, rfl⟩ := Nat.exists_eq_add_of_le' short
    rw [singleton_append]
    simp only [mqttLengthDecision, Ber.highBit_eq_zero, unmarked, decide_true, if_true,
      Ber.toNat_lowBits, Nat.mod_eq_of_lt unmarked, length_singleton]
  | @group byte code value marked later ih =>
    obtain _ | rounds := rounds
    · cases short
    have more : ¬ (byte &&& 0x80 == 0) = true := by
      simp [Ber.highBit_eq_zero]
      omega
    have sum : before + byte.toNat % 128 * multiplier + value * (multiplier * 128)
        = before + (byte.toNat % 128 + 128 * value) * multiplier := by ring
    simp only [cons_append, mqttLengthDecision, if_neg more, Ber.toNat_lowBits,
      ih (Nat.le_of_succ_le_succ short), length_cons]
    rw [sum, Nat.add_assoc bytesRead, Nat.add_comm 1]
    split
    · rw [if_pos (by omega)]
    · rfl

/-- Groups that go on for longer than the rounds are refused. -/
theorem Encodes.mqttLengthDecision_of_long {code} (encodes : Encodes code value) {rounds}
    (long : rounds < code.length) (i multiplier before : Nat) (rest : Bytes)
    : ∃ refusal ∈ [dropInvalid none, dropTooLarge none],
        mqttLengthDecision first type rounds i multiplier before (code ++ rest)
          = .reject refusal := by
  induction encodes generalizing rounds i multiplier before with
  | last unmarked =>
    obtain rfl : rounds = 0 := Nat.lt_one_iff.mp long
    exact ⟨_, mem_cons_self, rfl⟩
  | @group byte code value marked later ih =>
    obtain _ | rounds := rounds
    · exact ⟨_, mem_cons_self, rfl⟩
    have more : ¬ (byte &&& 0x80 == 0) = true := by
      simp [Ber.highBit_eq_zero]
      omega
    simp only [cons_append, mqttLengthDecision, if_neg more]
    split
    · exact ⟨_, mem_cons_of_mem _ mem_cons_self, rfl⟩
    · exact ih (Nat.lt_of_succ_lt_succ long) _ _ _

theorem mqttDecision_cons (first : UInt8) {tail} (nonempty : tail ≠ [])
    : mqttDecision (first :: tail)
      = if !(1 ≤ packetType [first] && packetType [first] ≤ 14) then .reject (dropInvalid none)
        else mqttLengthDecision first (packetType [first]) 4 1 1 0 tail := by
  obtain ⟨second, tail, rfl⟩ := exists_cons_of_ne_nil nonempty
  rfl

theorem mqttRemainingLengthEncodedLen_eq (value : Nat)
    : mqttRemainingLengthEncodedLen value = remainingLengthEncodedLen value :=
  (encodedLenLoop_eq 10 value).symm

/-- The framer drops the buffer. -/
def Refused (buffer : Bytes) : Prop :=
  extractMqttFrame buffer = .done (.invalid none, [])
    ∨ extractMqttFrame buffer = .done (.tooLarge none, [])

theorem refused_of_reject {buffer refusal}
    (listed : refusal ∈ [dropInvalid none, dropTooLarge none])
    (rejected : mqttDecision buffer = .reject refusal)
    : Refused buffer := by
  rw [Refused, extractMqttFrame_refines buffer, follow, rejected]
  rcases mem_pair.mp listed with rfl | rfl
  · exact .inl rfl
  · exact .inr rfl

/-- Neither a longer form of the length nor one of more than four bytes gets past the framer. -/
theorem Encodes.refused {code} (encodes : Encodes code value)
    (wrong : code ≠ pushRemainingLength value ∨ 4 < code.length) (first : UInt8) (rest : Bytes)
    : Refused (first :: code ++ rest) := by
  have decided := mqttDecision_cons first (append_ne_nil_of_left_ne_nil encodes.bounds.1 rest)
  rw [← cons_append] at decided
  split at decided
  · exact refused_of_reject mem_cons_self decided
  by_cases long : 4 < code.length
  · obtain ⟨refusal, listed, rejected⟩ := encodes.mqttLengthDecision_of_long long 1 1 0 rest
    exact refused_of_reject listed (decided.trans rejected)
  have rejected : mqttLengthDecision first (packetType [first]) 4 1 1 0 (code ++ rest) = _ :=
    encodes.mqttLengthDecision_eq (Nat.le_of_not_lt long) 0 1 0 rest
  rw [Nat.zero_add, Nat.zero_add, Nat.mul_one] at rejected
  split at rejected
  · exact refused_of_reject (mem_cons_of_mem _ mem_cons_self) (decided.trans rejected)
  next small =>
  have longer : mqttRemainingLengthEncodedLen value ≠ code.length := by
    rw [mqttRemainingLengthEncodedLen_eq]
    have limit : maxMqttFrameSize < 128 ^ (9 + 1) := by decide
    rcases encodes.eq_or_longer (by omega : value < 128 ^ (9 + 1)) with written | longer
    · exact absurd written (wrong.resolve_right long)
    · exact Nat.ne_of_lt longer
  rw [if_pos (bne_iff_ne.mpr longer)] at rejected
  exact refused_of_reject mem_cons_self (decided.trans rejected)

/-- The framer's decision on a length that was written. -/
theorem mqttDecision_write (rest : Bytes) (fits : value ≤ mqttMaxVariableByteInteger)
    (known : (1 ≤ packetType [first] && packetType [first] ≤ 14) = true)
    : mqttDecision (first :: pushRemainingLength value ++ rest)
      = if value > maxMqttFrameSize then .reject (dropTooLarge none)
        else if !mqttFixedHeaderIsValid first (packetType [first]) value then
          .reject (dropInvalid none)
        else if (pushRemainingLength value).length + 1 + value > maxMqttFrameSize then
          .reject (dropTooLarge none)
        else .take ((pushRemainingLength value).length + 1 + value) := by
  obtain ⟨encodes, length⟩ := encodes_pushRemainingLength fits
  have short : (pushRemainingLength value).length ≤ 4 := by
    rw [length]
    exact encodedLenLoop_le 10 (Nat.lt_of_le_of_lt fits (by decide))
  have decided : mqttLengthDecision first (packetType [first]) 4 1 1 0
      (pushRemainingLength value ++ rest) = _ :=
    encodes.mqttLengthDecision_eq short 0 1 0 rest
  rw [cons_append, mqttDecision_cons first
    (append_ne_nil_of_left_ne_nil encodes.bounds.1 rest), if_neg (by rw [known]; decide),
    decided]
  simp [mqttRemainingLengthEncodedLen_eq, length]

variable {remainingLen : Nat}

theorem known_of_mqttFixedHeaderIsValid
    (valid : mqttFixedHeaderIsValid first type remainingLen = true)
    : (1 ≤ type && type ≤ 14) = true := by
  unfold mqttFixedHeaderIsValid at valid
  simp only at valid
  split at valid
  all_goals first
    | decide
    | cases valid

/-- What comes of a packet whose length was written: the framer waits for that many bytes and cuts
them off, or refuses them as too many. -/
def framed (first : UInt8) (value : Nat) (rest : Bytes) : TcpFrameResult × Bytes :=
  if 1 + (pushRemainingLength value).length + value > maxMqttFrameSize then (.tooLarge none, [])
  else if rest.length < value then (.incomplete, first :: pushRemainingLength value ++ rest)
  else (.complete (first :: pushRemainingLength value ++ rest.take value), rest.drop value)

theorem extractMqttFrame_write (rest : Bytes) (fits : value ≤ mqttMaxVariableByteInteger)
    (valid : mqttFixedHeaderIsValid first (packetType [first]) value = true)
    : extractMqttFrame (first :: pushRemainingLength value ++ rest)
      = .done (framed first value rest) := by
  have decided : mqttDecision (first :: pushRemainingLength value ++ rest)
      = if 1 + (pushRemainingLength value).length + value > maxMqttFrameSize then
          .reject (dropTooLarge none)
        else .take (1 + (pushRemainingLength value).length + value) := by
    rw [mqttDecision_write rest fits (known_of_mqttFixedHeaderIsValid valid), valid,
      if_neg (by decide : ¬ (!true) = true), Nat.add_comm _ 1]
    split
    · rw [if_pos (by omega)]
    · rfl
  rw [extractMqttFrame_refines, follow, decided, framed]
  split
  · rfl
  · have total : (first :: pushRemainingLength value ++ rest).length
        = 1 + (pushRemainingLength value).length + rest.length := by
      rw [length_append, length_cons, Nat.add_comm 1]
    rw [Decision.cut, total]
    by_cases whole : rest.length < value
    · rw [if_neg (by omega), if_pos whole]
      rfl
    · have header : (first :: pushRemainingLength value).length
          = 1 + (pushRemainingLength value).length := Nat.add_comm _ 1
      rw [if_pos (by omega), if_neg whole, ← header, take_length_add_append, drop_length_add_append]
      rfl

/-- The integers of one to four bytes: each has one shortest form, which is written and which
every reader takes; the framer does so up to the size of a frame. Longer forms are refused. -/
theorem remainingLength_codec (first : UInt8) (rest : Bytes)
    : (∀ value ≤ mqttMaxVariableByteInteger, Encodes (pushRemainingLength value) value
        ∧ (∀ code, Encodes code value →
            code = pushRemainingLength value ∨ (pushRemainingLength value).length < code.length)
        ∧ parseRemainingLength (first :: pushRemainingLength value ++ rest)
          = some (value, (pushRemainingLength value).length + 1)
        ∧ readVariableInt (pushRemainingLength value ++ rest) = some (value, rest)
        ∧ (mqttFixedHeaderIsValid first (packetType [first]) value = true →
          extractMqttFrame (first :: pushRemainingLength value ++ rest)
          = .done (framed first value rest)))
      ∧ ∀ code value, Encodes code value → code ≠ pushRemainingLength value ∨ 4 < code.length →
          parseRemainingLength (first :: code ++ rest) = none
          ∧ readVariableInt (code ++ rest) = none ∧ Refused (first :: code ++ rest) := by
  constructor
  · intro value fits
    obtain ⟨encodes, length⟩ := encodes_pushRemainingLength fits
    refine ⟨encodes, ?_, ?_, ?_, extractMqttFrame_write rest fits⟩
    · intro code other
      rw [length]
      exact other.eq_or_longer (Nat.lt_of_le_of_lt fits (by decide))
    · rw [parseRemainingLength_write first fits, length]
    · rw [readVariableInt, variableInt_write fits]
      rfl
  · intro code value encodes wrong
    have unread : variableInt (code ++ rest) = none := by
      rw [encodes.variableInt_eq, if_neg]
      rintro ⟨written, short⟩
      exact wrong.elim (· written) (Nat.not_lt_of_le short)
    refine ⟨?_, ?_, encodes.refused wrong first rest⟩
    · rw [parseRemainingLength, List.cons_append, List.drop_succ_cons, List.drop_zero, unread]
      exact ite_self _
    · rw [readVariableInt, unread]
      rfl

/-- Two bytes for 200, and a third one that is no part of it. -/
theorem remainingLength_codec_twoBytes
    : readVariableInt [0xC8, 1, 0] = some (200, [0]) ∧ readVariableInt [0xC8, 0x81, 0] = none :=
  ⟨((remainingLength_codec 0xC0 [0]).1 200 (by decide)).2.2.2.1,
    ((remainingLength_codec 0xC0 []).2 [0xC8, 0x81, 0] 200
      (.group (by decide) (.group (by decide) (.last (by decide)))) (.inl (by decide))).2.1⟩

/-- The handler reads the length of a packet that is too large for the framer. -/
theorem remainingLength_codec_oversized
    : parseRemainingLength (0x30 :: pushRemainingLength 268435455) = some (268435455, 5)
      ∧ extractMqttFrame (0x30 :: pushRemainingLength 268435455) = .done (.tooLarge none, []) := by
  decide +kernel

/-- The packet counts as valid in this state: it is answered, a published message is recorded,
or the session ends with a `DISCONNECT`. -/
def Accepts (self : Session) (data : Bytes) : Prop :=
  (handlePacket self data).2 ≠ []
    ∨ (packetType data = mqttPublish ∧ (∃ remainingLen start, Admitted self data remainingLen start)
        ∧ (parsePublish data).isSome)
    ∨ (packetType data = mqttDisconnect ∧ self.state ≠ .disconnected
        ∧ (handlePacket self data).1.state = .disconnected)

/-- What is accepted has got past the fixed header, and is no `PINGRESP`. -/
theorem Accepts.admitted {self data} (accepts : Accepts self data)
    : ∃ remainingLen start, Admitted self data remainingLen start ∧ packetType data ≠ 13 := by
  rcases accepts with answered | ⟨publish, ⟨remainingLen, start, admitted⟩, _⟩
    | ⟨disconnect, opened, closed⟩
  · rcases handlePacket_cases self data with dropped | ⟨remainingLen, start, admitted, handled⟩
    · rw [dropped] at answered
      exact absurd rfl answered
    · refine ⟨remainingLen, start, admitted, ?_⟩
      intro pingresp
      rw [handled, pingresp] at answered
      exact absurd rfl answered
  · refine ⟨remainingLen, start, admitted, ?_⟩
    rw [publish]
    decide
  · rcases handlePacket_cases self data with dropped | ⟨remainingLen, start, admitted, _⟩
    · rw [dropped] at closed
      exact absurd closed opened
    · refine ⟨remainingLen, start, admitted, ?_⟩
      rw [disconnect]
      decide

/-- The two checks of the fixed header, on packets that a server receives. -/
theorem mqttFixedHeaderIsValid_iff (valid : validFixedHeader first type remainingLen = true)
    (notPingresp : type ≠ 13)
    : mqttFixedHeaderIsValid first type remainingLen = true
      ↔ (type = mqttDisconnect → remainingLen = 0) := by
  unfold validFixedHeader at valid
  simp only at valid
  split at valid
  all_goals simp_all [mqttFixedHeaderIsValid, mqttDisconnect]
  -- the other types are no `DISCONNECT`
  all_goals exact fun same => absurd same (by decide)

theorem known_of_validFixedHeader (valid : validFixedHeader first type remainingLen = true)
    : (1 ≤ type && type ≤ 14) = true := by
  unfold validFixedHeader at valid
  simp only at valid
  split at valid
  all_goals first
    | decide
    | cases valid

/-- The framer's decision on a packet that the handler looks at. -/
theorem Admitted.mqttDecision_eq {self data start}
    (admitted : Admitted self data remainingLen start) (notPingresp : packetType data ≠ 13)
    : mqttDecision data
      = if packetType data = mqttDisconnect → remainingLen = 0 then .take data.length
        else .reject (dropInvalid none) := by
  obtain ⟨small, length, whole, header, looked⟩ := admitted
  obtain ⟨fits, starts, first, rest, rfl⟩ := parseRemainingLength_eq_some length
  have limit : mqttMaxPacketBytes = maxMqttFrameSize := rfl
  have decides := mqttFixedHeaderIsValid_iff header notPingresp
  rw [mqttDecision_write rest fits (known_of_validFixedHeader header), if_neg (by omega)]
  by_cases plain : packetType (first :: pushRemainingLength remainingLen ++ rest) = mqttDisconnect
      → remainingLen = 0
  · rw [if_neg, if_neg, if_pos plain, (encodes_pushRemainingLength fits).2, ← starts, whole]
    · rw [(encodes_pushRemainingLength fits).2]
      omega
    · rw [Bool.not_eq_true', Bool.not_eq_false]
      exact decides.mpr plain
  · rw [if_pos, if_neg plain]
    rw [Bool.not_eq_true', Bool.eq_false_iff]
    exact fun valid => plain (decides.mp valid)

/-- A packet that some session accepts is cut off as one frame, unless it is a `DISCONNECT` with
a reason code. -/
theorem mqtt_framer_completes_iff (data : Bytes)
    (accepted : ∃ packets, Accepts (handlePackets .new packets).1 data)
    : extractMqttFrame data = .done (.complete data, [])
      ↔ (packetType data = mqttDisconnect → data.length = 2) := by
  obtain ⟨packets, accepts⟩ := accepted
  obtain ⟨remainingLen, start, admitted, notPingresp⟩ := accepts.admitted
  obtain ⟨_, starts, _⟩ := parseRemainingLength_eq_some admitted.length
  have whole := admitted.whole
  have bodyless : remainingLen = 0 ↔ data.length = 2 := by
    have positive := remainingLengthEncodedLen_pos remainingLen
    constructor
    · rintro rfl
      rw [show remainingLengthEncodedLen 0 = 1 from rfl] at starts
      omega
    · omega
  rw [extractMqttFrame_refines data, follow, admitted.mqttDecision_eq notPingresp, ← bodyless]
  by_cases plain : packetType data = mqttDisconnect → remainingLen = 0
  · rw [if_pos plain, Decision.cut, if_pos (Nat.le_refl _), List.take_length, List.drop_length]
    exact iff_of_true rfl plain
  · rw [if_neg plain]
    refine iff_of_false ?_ plain
    intro same
    cases same

theorem mqtt_framer_completes_pingreq
    : extractMqttFrame [0xC0, 0] = .done (.complete [0xC0, 0], []) :=
  (mqtt_framer_completes_iff [0xC0, 0] ⟨[connectFive], .inl (by decide +kernel)⟩).mpr (by decide)

/-- A `DISCONNECT` with a reason code ends a session of MQTT 5, but does not get past the framer. -/
theorem mqtt_framer_rejects_disconnect
    : Accepts (handlePackets .new [connectFive]).1 [0xE0, 1, 0]
      ∧ extractMqttFrame [0xE0, 1, 0] = .done (.invalid none, []) := by
  refine ⟨.inr (.inr ?_), ?_⟩ <;> decide +kernel

end NetTrap.Mqtt
