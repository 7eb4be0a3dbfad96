import NetTrap.Mqtt.RemainingLength

/-! Sequences of packets in one MQTT session.
How far a session has come is read off its packets alone, and the handler follows. Acknowledgements
are compared with requests taken apart into their topics: the identifier, the properties, and one
length-prefixed filter after the other.
-/

namespace NetTrap.Mqtt

open Rust List

/-- A text with its length in front. -/
def encodeString (text : Bytes) : Bytes :=
  packetIdBytes text.length ++ text

/-- A topic filter with its options, as a `SUBSCRIBE` has it. -/
def encodeSubscription (subscription : Bytes × UInt8) : Bytes :=
  encodeString subscription.1 ++ [subscription.2]

/-- The properties in front of the topics. Only MQTT 5 has them, and only where their length can be
read. -/
def PropertyBlock (context : PropertyContext) (level : UInt8) (properties body : Bytes) : Prop :=
  if level = 3 ∨ level = 4 then properties = []
  else if readVariableInt (properties ++ body) = none then properties = []
  else readProperties context (properties ++ body) = some body

/-- The packet asks for `body` under the identifier, in a session of the protocol level. -/
structure Request (context : PropertyContext) (level : UInt8) (data : Bytes) (packetId : Nat)
    (properties body : Bytes) : Prop where
  payload : packetPayload data = some (packetIdBytes packetId ++ properties ++ body)
  positive : 0 < packetId
  small : packetId < 2 ^ 16
  block : PropertyBlock context level properties body

section Reading

theorem packetIdBytes_u16 (high low : UInt8)
    : packetIdBytes (u16FromBeBytes high low) = [high, low] := by
  have := high.toNat_lt
  have := low.toNat_lt
  have quotient : u16FromBeBytes high low / 256 = high.toNat := by
    rw [u16FromBeBytes]
    omega
  have remainder : u16FromBeBytes high low % 256 = low.toNat := by
    rw [u16FromBeBytes]
    omega
  rw [packetIdBytes, quotient, remainder, UInt8.ofNat_toNat, UInt8.ofNat_toNat]

variable {data rest : Bytes}

theorem readMqttString_eq_some {text : Bytes} (read : readMqttString data = some (text, rest))
    : data = encodeString text ++ rest := by
  obtain _ | ⟨high, _ | ⟨low, tail⟩⟩ := data
  · cases read
  · cases read
  · simp only [readMqttString] at read
    split at read
    case isTrue inside =>
      cases read
      rw [encodeString, length_take, Nat.min_eq_left inside, packetIdBytes_u16,
        append_assoc, take_append_drop]
      rfl
    case isFalse => cases read

theorem readPacketId_eq_some {packetId : Nat} (read : readPacketId data = some (packetId, rest))
    : data = packetIdBytes packetId ++ rest ∧ 0 < packetId ∧ packetId < 2 ^ 16 := by
  obtain _ | ⟨high, _ | ⟨low, tail⟩⟩ := data
  · cases read
  · cases read
  · simp only [readPacketId] at read
    split at read
    case isTrue => cases read
    case isFalse positive =>
      cases read
      rw [packetIdBytes_u16]
      exact ⟨rfl, Nat.pos_of_ne_zero positive, u16FromBeBytes_lt high low⟩

theorem readTopicFilter_eq_some {topic : Bytes} (read : readTopicFilter data = some (topic, rest))
    : data = encodeString topic ++ rest := by
  simp only [readTopicFilter, Option.bind_eq_bind, Option.bind_eq_some_iff] at read
  obtain ⟨⟨text, tail⟩, found, _, _, decoded, isText, _, _, same⟩ := read
  cases same
  rw [fromUtf8_eq isText]
  exact readMqttString_eq_some found

/-- What the loop over subscriptions grants, it grants to the topics that it reads, in order. -/
theorem subscribeTopicsLoop_eq_some {protocolLevel budget before granted}
    (read : subscribeTopicsLoop protocolLevel budget before data = some granted)
    (few : before.length ≤ mqttMaxTopicFilters)
    : ∃ topics : List (Bytes × UInt8), data = topics.flatMap encodeSubscription
        ∧ granted = before ++ topics.map (fun topic => topic.2 &&& 0x03)
        ∧ granted.length ≤ mqttMaxTopicFilters := by
  fun_induction subscribeTopicsLoop protocolLevel budget before data with
  | case1 budget before =>
    cases read
    exact ⟨[], rfl, by simp, few⟩
  | case5 budget before byte data topic options rest found valid room ih =>
    obtain ⟨topics, split, codes, bounded⟩ := ih read (by simp; omega)
    refine ⟨(topic, options) :: topics, ?_, ?_, bounded⟩
    · rw [readTopicFilter_eq_some found, flatMap_cons, ← split, encodeSubscription]
      simp
    · rw [codes]
      simp
  | case2 | case3 | case4 | case6 => cases read

theorem unsubscribeTopicsLoop_eq_some {budget before count : Nat}
    (read : unsubscribeTopicsLoop budget before data = some count)
    (few : before ≤ mqttMaxTopicFilters)
    : ∃ topics : List Bytes, data = topics.flatMap encodeString ∧ count = before + topics.length
        ∧ count ≤ mqttMaxTopicFilters := by
  fun_induction unsubscribeTopicsLoop budget before data with
  | case1 budget before =>
    cases read
    exact ⟨[], rfl, rfl, few⟩
  | case4 budget before byte data topic rest found room ih =>
    obtain ⟨topics, split, total, bounded⟩ := ih read (by omega)
    refine ⟨topic :: topics, ?_, ?_, bounded⟩
    · rw [readTopicFilter_eq_some found, flatMap_cons, ← split]
    · simp [total]
      omega
  | case2 | case3 | case5 => cases read

theorem readProperties_consumes {context} (read : readProperties context data = some rest)
    : ∃ properties, properties ≠ [] ∧ data = properties ++ rest := by
  simp only [readProperties, readVariableInt, Option.bind_eq_bind, Option.bind_eq_some_iff,
    Option.map_eq_some_iff] at read
  obtain ⟨⟨propertiesLen, tail⟩, ⟨⟨value, count, other⟩, length, same⟩, block⟩ := read
  cases same
  obtain ⟨fits, rfl, -⟩ := variableInt_eq_some length
  have nonempty := (encodes_pushRemainingLength fits).1.bounds.1
  split at block
  case isTrue =>
    cases block
    refine ⟨pushRemainingLength value ++ other.take value, by simp [nonempty], ?_⟩
    rw [append_assoc, take_append_drop]
  case isFalse => cases block

/-- Properties are there, or the request begins with its topics. -/
theorem splitProperties_eq_some {context level has}
    (read : splitProperties context (some level) data = some (has, rest))
    : ∃ properties, data = properties ++ rest ∧ (has = true ↔ properties ≠ [])
        ∧ PropertyBlock context level properties rest := by
  have old : isOldLevel (some level) = true ↔ level = 3 ∨ level = 4 := by simp [isOldLevel]
  rw [splitProperties] at read
  split at read
  · next isOld =>
    cases read
    exact ⟨[], rfl, by simp, by rw [PropertyBlock, if_pos (old.mp isOld)]⟩
  next recent =>
  split at read
  · next unread =>
    cases read
    exact ⟨[], rfl, by simp, by rw [PropertyBlock, if_neg (recent ∘ old.mpr), nil_append,
      if_pos unread]⟩
  · next length found =>
    obtain ⟨left, block, same⟩ := Option.map_eq_some_iff.mp read
    cases same
    obtain ⟨properties, nonempty, rfl⟩ := readProperties_consumes block
    refine ⟨properties, rfl, by simp [nonempty], ?_⟩
    rw [PropertyBlock, if_neg (recent ∘ old.mpr), if_neg (by simp [found])]
    exact block

end Reading

section Acknowledgements

/-- What a `SUBACK` owes its request: the identifier, and a return code for each topic. -/
def Suback (level : UInt8) (data answer : Bytes) : Prop :=
  ∃ (packetId : Nat) (properties : Bytes) (topics : List (Bytes × UInt8)),
    Request .subscribe level data packetId properties (topics.flatMap encodeSubscription)
    ∧ packetPayload answer
      = some (packetIdBytes packetId ++ (if properties = [] then [] else [0])
          ++ topics.map fun topic => topic.2 &&& 0x03)

/-- What an `UNSUBACK` owes its request. There are return codes only where the request has
properties. -/
def Unsuback (level : UInt8) (data answer : Bytes) : Prop :=
  ∃ (packetId : Nat) (properties : Bytes) (topics : List Bytes),
    Request .unsubscribe level data packetId properties (topics.flatMap encodeString)
    ∧ packetPayload answer
      = some (packetIdBytes packetId
          ++ if properties = [] then [] else 0 :: topics.map fun _ => 0)

variable {data : Bytes} {self : Session}

theorem packetPayload_of_admitted {remainingLen start : Nat}
    (admitted : Admitted self data remainingLen start)
    : packetPayload data = some (data.drop start) := by
  rw [packetPayload, admitted.length]
  exact if_pos admitted.whole

variable {payload : Bytes} {level : UInt8}

theorem parseSubscribePacketForLevel_eq_some {info}
    (whole : packetPayload data = some payload)
    (parsed : parseSubscribePacketForLevel payload (some level) = some info)
    : ∃ (properties : Bytes) (topics : List (Bytes × UInt8)),
      Request .subscribe level data info.packetId properties (topics.flatMap encodeSubscription)
      ∧ (info.hasProperties = true ↔ properties ≠ [])
      ∧ info.grantedQos = topics.map (fun topic => topic.2 &&& 0x03)
      ∧ info.topicCount = info.grantedQos.length
          ∧ info.grantedQos.length ≤ mqttMaxTopicFilters := by
  simp only [parseSubscribePacketForLevel, parseSubscribeTopics, Option.bind_eq_bind,
    Option.bind_eq_some_iff] at parsed
  obtain ⟨_, _, ⟨packetId, rest⟩, identified, ⟨has, body⟩, block, granted, ⟨_, looped, nonempty⟩,
    same⟩ := parsed
  split at nonempty
  · cases nonempty
  cases nonempty
  cases same
  obtain ⟨rfl, positive, small⟩ := readPacketId_eq_some identified
  obtain ⟨properties, rfl, present, valid⟩ := splitProperties_eq_some block
  obtain ⟨topics, rfl, codes, few⟩ := subscribeTopicsLoop_eq_some looped (Nat.zero_le _)
  refine ⟨properties, topics, ⟨?_, positive, small, valid⟩, present, codes, rfl, few⟩
  rw [whole, append_assoc]

theorem parseUnsubscribePacketForLevel_eq_some {info}
    (whole : packetPayload data = some payload)
    (parsed : parseUnsubscribePacketForLevel payload (some level) = some info)
    : ∃ (properties : Bytes) (topics : List Bytes),
      Request .unsubscribe level data info.packetId properties (topics.flatMap encodeString)
      ∧ (info.hasProperties = true ↔ properties ≠ [])
      ∧ info.topicCount = topics.length ∧ info.topicCount ≤ mqttMaxTopicFilters := by
  simp only [parseUnsubscribePacketForLevel, parseUnsubscribeTopics, Option.bind_eq_bind,
    Option.bind_eq_some_iff] at parsed
  obtain ⟨_, _, ⟨packetId, rest⟩, identified, ⟨has, body⟩, block, count, ⟨_, looped, nonempty⟩,
    same⟩ := parsed
  split at nonempty
  · cases nonempty
  cases nonempty
  cases same
  obtain ⟨rfl, positive, small⟩ := readPacketId_eq_some identified
  obtain ⟨properties, rfl, present, valid⟩ := splitProperties_eq_some block
  obtain ⟨topics, rfl, counted, few⟩ := unsubscribeTopicsLoop_eq_some looped (Nat.zero_le _)
  refine ⟨properties, topics, ⟨?_, positive, small, valid⟩, present, ?_, few⟩
  · rw [whole, append_assoc]
  · rw [counted, Nat.zero_add]

/-- An answer that announces as many bytes as follow. -/
theorem packetPayload_announced (first : UInt8) {announced body} (length : announced = body.length)
    (few : body.length ≤ mqttMaxTopicFilters + 3)
    : packetPayload (first :: pushRemainingLength announced ++ body) = some body := by
  have limit : mqttMaxTopicFilters + 3 ≤ mqttMaxVariableByteInteger := by decide
  rw [length]
  exact packetPayload_write first (le_trans few limit)

theorem handleSubscribe_suback (leveled : self.protocolLevel = some level)
    (whole : packetPayload data = some payload) (answered : handleSubscribe self payload ≠ [])
    : Suback level data (handleSubscribe self payload) := by
  cases parsed : parseSubscribePacketForLevel payload (some level) with
  | none => simp [handleSubscribe, leveled, parsed] at answered
  | some info =>
    obtain ⟨properties, topics, request, present, codes, counted, few⟩ :=
      parseSubscribePacketForLevel_eq_some whole parsed
    have flags
        : (if info.hasProperties then [0] else [])
          = if properties = [] then [] else [(0 : UInt8)] := by
      by_cases bare : properties = [] <;> simp [bare, present]
    refine ⟨info.packetId, properties, topics, request, ?_⟩
    simp only [handleSubscribe, leveled, parsed]
    rw [← codes, ← flags, append_assoc, append_assoc, ← append_assoc (packetIdBytes _)]
    refine packetPayload_announced _ ?_ ?_
    · rw [counted, length_append, length_append]
      split <;> rfl
    · rw [length_append, length_append]
      have : (packetIdBytes info.packetId).length = 2 := rfl
      split <;> simp <;> omega

theorem handleUnsubscribe_unsuback (leveled : self.protocolLevel = some level)
    (whole : packetPayload data = some payload) (answered : handleUnsubscribe self payload ≠ [])
    : Unsuback level data (handleUnsubscribe self payload) := by
  cases parsed : parseUnsubscribePacketForLevel payload (some level) with
  | none => simp [handleUnsubscribe, leveled, parsed] at answered
  | some info =>
    obtain ⟨properties, topics, request, present, counted, few⟩ :=
      parseUnsubscribePacketForLevel_eq_some whole parsed
    refine ⟨info.packetId, properties, topics, request, ?_⟩
    have flags : (if info.hasProperties then 0 :: replicate info.topicCount 0 else [])
        = if properties = [] then [] else 0 :: topics.map fun _ => (0 : UInt8) := by
      rw [counted, map_const']
      by_cases bare : properties = [] <;> simp [bare, present]
    simp only [handleUnsubscribe, leveled, parsed]
    rw [← flags, append_assoc]
    have identifier : (packetIdBytes info.packetId).length = 2 := rfl
    refine packetPayload_announced _ ?_ ?_
    · rw [length_append, identifier]
      split
      · simp
        omega
      · rfl
    · rw [length_append, identifier]
      split
      · simp
        omega
      · rw [length_nil]
        omega

/-- The answer is of a type that carries no return codes of topics. -/
def Codeless (answer : Bytes) : Prop :=
  packetType answer ≠ mqttSuback ∧ packetType answer ≠ mqttUnsuback

instance (answer : Bytes) : Decidable (Codeless answer) :=
  inferInstanceAs (Decidable (_ ∧ _))

theorem codeless_nil : Codeless [] := by
  decide

theorem Codeless.of_head {first : UInt8} (other : Codeless [first]) (rest : Bytes)
    : Codeless (first :: rest) :=
  other

theorem Codeless.silent {answer} (codeless : Codeless answer) {suback unsuback : Prop}
    : (packetType answer = mqttSuback → suback) ∧ (packetType answer = mqttUnsuback → unsuback) :=
  ⟨fun type => absurd type codeless.1, fun type => absurd type codeless.2⟩

theorem handleConnect_codeless (self : Session) (data : Bytes)
    : Codeless (handleConnect self data).2 := by
  rw [handleConnect]
  split
  · exact codeless_nil
  split
  · exact .of_head (by decide) _
  dsimp only
  split <;> exact .of_head (by decide) _

theorem handlePublish_codeless (data : Bytes) : Codeless (handlePublish data) := by
  rw [handlePublish]
  split
  · exact codeless_nil
  split
  · exact codeless_nil
  dsimp only
  split <;> exact .of_head (by decide) _

theorem handlePubrel_codeless (payload : Bytes) : Codeless (handlePubrel payload) := by
  rw [handlePubrel]
  split
  · exact codeless_nil
  · exact .of_head (by decide) _

theorem packetType_handleSubscribe (answered : handleSubscribe self payload ≠ [])
    : packetType (handleSubscribe self payload) = mqttSuback := by
  rw [handleSubscribe] at answered ⊢
  split at answered
  · exact absurd rfl answered
  · exact (by decide : packetType [mqttSuback <<< 4] = mqttSuback)

theorem packetType_handleUnsubscribe (answered : handleUnsubscribe self payload ≠ [])
    : packetType (handleUnsubscribe self payload) = mqttUnsuback := by
  rw [handleUnsubscribe] at answered ⊢
  split at answered
  · exact absurd rfl answered
  · exact (by decide : packetType [mqttUnsuback <<< 4] = mqttUnsuback)

/-- An answer with return codes is the one to a request with topics. -/
theorem dispatch_cases {type remainingLen handled}
    (dispatched : dispatch self data type remainingLen payload = handled)
    : Codeless handled.2 ∨ handled.2 = handleSubscribe self payload
      ∨ handled.2 = handleUnsubscribe self payload := by
  unfold dispatch at dispatched
  split at dispatched <;> subst dispatched
  · exact .inl (handleConnect_codeless self data)
  · exact .inl (handlePublish_codeless data)
  · exact .inr (.inl rfl)
  · exact .inr (.inr rfl)
  · exact .inl (handlePubrel_codeless payload)
  · refine .inl ?_
    dsimp only
    split
    · exact .of_head (by decide) _
    · exact codeless_nil
  · refine .inl ?_
    split <;> exact codeless_nil
  · exact .inl codeless_nil

/-- The two kinds of answers with return codes keep to their requests. -/
theorem handlePacket_acknowledges (leveled : self.protocolLevel = some level) (data : Bytes)
    : (packetType (handlePacket self data).2 = mqttSuback →
        Suback level data (handlePacket self data).2)
      ∧ (packetType (handlePacket self data).2 = mqttUnsuback →
        Unsuback level data (handlePacket self data).2) := by
  rcases handlePacket_cases self data with ignored | ⟨remainingLen, start, admitted, dispatched⟩
  · rw [ignored]
    exact codeless_nil.silent
  · have whole := packetPayload_of_admitted admitted
    rcases dispatch_cases dispatched.symm with codeless | subscribed | unsubscribed
    · exact codeless.silent
    · rw [subscribed]
      by_cases answered : handleSubscribe self (data.drop start) = []
      · rw [answered]
        exact codeless_nil.silent
      · rw [packetType_handleSubscribe answered]
        exact ⟨fun _ => handleSubscribe_suback leveled whole answered,
          fun type => absurd type (by decide)⟩
    · rw [unsubscribed]
      by_cases answered : handleUnsubscribe self (data.drop start) = []
      · rw [answered]
        exact codeless_nil.silent
      · rw [packetType_handleUnsubscribe answered]
        exact ⟨fun type => absurd type (by decide),
          fun _ => handleUnsubscribe_unsuback leveled whole answered⟩

end Acknowledgements

section Phases

/-- What a `CONNECT` says, if it is valid and of a size that the handler looks at. -/
def connectInfo (data : Bytes) : Option MqttConnectInfo :=
  if data.length ≤ mqttMaxPacketBytes then parseConnect data else none

/-- The packet is a `DISCONNECT` that is valid at the protocol level: without a payload before
MQTT 5, and with at most a reason and properties in MQTT 5. -/
def isDisconnect (level : UInt8) (data : Bytes) : Bool :=
  data.length ≤ mqttMaxPacketBytes && data.head? == some 0xE0
    && (packetPayload data).any fun payload =>
      (parseDisconnectPacketForLevel payload (some level)).isSome

/-- How far a session has come. -/
inductive Phase where
  | waiting
  | established (level : UInt8)
  | ended
  deriving DecidableEq, Repr

/-- A valid `CONNECT` establishes a session or is refused, and a valid `DISCONNECT` ends it. -/
def Phase.after (phase : Phase) (data : Bytes) : Phase :=
  match phase with
  | .waiting =>
    match connectInfo data with
    | none => .waiting
    | some info => if info.clientIdRejected then .ended else .established info.protocolLevel
  | .established level => if isDisconnect level data then .ended else .established level
  | .ended => .ended

/-- The phase that packets lead to. -/
def phaseAfter (packets : List Bytes) : Phase :=
  packets.foldl Phase.after .waiting

/-- The handler is where the packets say. -/
def Session.Follows (session : Session) : Phase → Prop
  | .waiting => session = .new
  | .established level => session = ⟨.connected, some level⟩
  | .ended => session.state = .disconnected

variable {data : Bytes} {self : Session}

theorem parseConnect_header {info} (parsed : parseConnect data = some info)
    : (∃ tail, data = 0x10 :: tail)
      ∧ ∃ remainingLen start, parseRemainingLength data = some (remainingLen, start)
        ∧ start + remainingLen = data.length := by
  simp only [parseConnect, packetPayload, Option.bind_eq_bind, Option.bind_eq_some_iff,
    guard] at parsed
  obtain ⟨_, first, payload, ⟨⟨remainingLen, start⟩, length, whole⟩, _⟩ := parsed
  split at first
  case isFalse => cases first
  next head =>
  split at whole
  case isFalse => cases whole
  next total =>
  exact ⟨head?_eq_some_iff.mp head, remainingLen, start, length, total⟩

/-- A packet that is whole and has a valid fixed header is dispatched. -/
theorem handlePacket_dispatched {first tail remainingLen start}
    (small : (first :: tail).length ≤ mqttMaxPacketBytes)
    (length : parseRemainingLength (first :: tail) = some (remainingLen, start))
    (whole : start + remainingLen = (first :: tail).length)
    (header : validFixedHeader first (packetType (first :: tail)) remainingLen = true)
    (looked : self.state.ignores (packetType (first :: tail)) = false)
    : handlePacket self (first :: tail)
      = dispatch self (first :: tail) (packetType (first :: tail)) remainingLen
          ((first :: tail).drop start) := by
  rw [handlePacket, if_neg (by simpa using small), length]
  dsimp only
  rw [if_neg (by simp [whole, header]), if_neg (by simp [looked])]

theorem handlePacket_waiting (data : Bytes)
    : handlePacket .new data
      = match connectInfo data with
        | none => (.new, [])
        | some _ => handleConnect .new data := by
  cases valid : connectInfo data with
  | none =>
    rcases handlePacket_cases .new data with ignored | ⟨remainingLen, start, admitted, dispatched⟩
    · exact ignored
    · have looked := admitted.looked
      rw [Session.new, MqttState.ignores, bne_eq_false_iff_eq] at looked
      rw [connectInfo, if_pos admitted.small] at valid
      rw [dispatched, looked]
      change handleConnect .new data = (.new, [])
      rw [handleConnect, valid]
  | some info =>
    rw [connectInfo] at valid
    split at valid
    case isFalse => cases valid
    next small =>
    obtain ⟨⟨tail, rfl⟩, remainingLen, start, length, whole⟩ := parseConnect_header valid
    have connect : packetType (0x10 :: tail) = mqttConnect :=
      (by decide : packetType [0x10] = mqttConnect)
    have header : validFixedHeader 0x10 mqttConnect remainingLen = true :=
      (by decide : (((0x10 : UInt8) &&& 0x0F) == 0) = true)
    rw [handlePacket_dispatched small length whole (by rwa [connect]) (by rw [connect]; rfl),
      connect]
    rfl

theorem head_eq_of_disconnect (first : UInt8) (type : first >>> 4 &&& 0x0F = mqttDisconnect)
    (flags : first &&& 0x0F = 0)
    : first = 0xE0 := by
  revert first
  exact Ber.forall_byte (by decide +kernel)

theorem handlePacket_isDisconnect {level} (disconnects : isDisconnect level data = true)
    : (handlePacket ⟨.connected, some level⟩ data).1 = ⟨.disconnected, some level⟩ := by
  simp only [isDisconnect, packetPayload, Bool.and_eq_true, decide_eq_true_eq, beq_iff_eq,
    Option.any_eq_true, Option.bind_eq_bind, Option.bind_eq_some_iff] at disconnects
  obtain ⟨⟨small, head⟩, payload, ⟨⟨remainingLen, start⟩, length, whole⟩, valid⟩ := disconnects
  obtain ⟨tail, rfl⟩ := head?_eq_some_iff.mp head
  split at whole
  case isFalse => cases whole
  next total =>
  cases whole
  obtain ⟨⟨⟩, parsed⟩ := Option.isSome_iff_exists.mp valid
  have disconnect : packetType (0xE0 :: tail) = mqttDisconnect :=
    (by decide : packetType [0xE0] = mqttDisconnect)
  have header : validFixedHeader 0xE0 mqttDisconnect remainingLen = true :=
    (by decide : (((0xE0 : UInt8) &&& 0x0F) == 0) = true)
  rw [handlePacket_dispatched small length total (by rwa [disconnect]) (by rw [disconnect]; rfl),
    disconnect]
  unfold dispatch
  dsimp only [mqttDisconnect]
  rw [parsed]
  rfl

/-- A packet that is dispatched as a `DISCONNECT` and parsed is a valid one. -/
theorem isDisconnect_of_parsed {level remainingLen start}
    (admitted : Admitted ⟨.connected, some level⟩ data remainingLen start)
    (type : packetType data = mqttDisconnect)
    (parsed : parseDisconnectPacketForLevel (data.drop start) (some level) = some ())
    : isDisconnect level data = true := by
  have header := admitted.header
  rw [type] at header
  have first := head_eq_of_disconnect (data.headD 0) type (beq_iff_eq.mp header)
  obtain ⟨tail, rfl⟩ : ∃ tail, data = 0xE0 :: tail := by
    cases data with
    | nil => cases first
    | cons head tail => exact ⟨tail, by rw [← first]; rfl⟩
  rw [isDisconnect, decide_eq_true admitted.small, packetPayload_of_admitted admitted]
  simp [parsed]

/-- In an established session, a valid `DISCONNECT` is the one packet that changes anything. -/
theorem handlePacket_established (level : UInt8) (data : Bytes)
    : (handlePacket ⟨.connected, some level⟩ data).1
      = ⟨if isDisconnect level data then .disconnected else .connected, some level⟩ := by
  cases disconnects : isDisconnect level data with
  | true => exact handlePacket_isDisconnect disconnects
  | false =>
    rcases handlePacket_cases ⟨.connected, some level⟩ data with
      ignored | ⟨remainingLen, start, admitted, dispatched⟩
    · rw [ignored]
      rfl
    · rw [dispatched]
      have looked := admitted.looked
      generalize type : packetType data = kind at looked
      unfold dispatch
      split
      · cases looked
      case h_7 =>
        split
        · rfl
        · next parsed =>
          rw [isDisconnect_of_parsed admitted type parsed] at disconnects
          cases disconnects
      all_goals rfl

theorem handlePacket_disconnected (ended : self.state = .disconnected) (data : Bytes)
    : handlePacket self data = (self, []) := by
  rcases handlePacket_cases self data with ignored | ⟨remainingLen, start, admitted, _⟩
  · exact ignored
  · have looked := admitted.looked
    rw [ended] at looked
    cases looked

/-- One packet takes the handler where it takes the phase. -/
theorem Session.Follows.handlePacket {phase} (follows : self.Follows phase) (data : Bytes)
    : (Mqtt.handlePacket self data).1.Follows (phase.after data) := by
  cases phase with
  | waiting =>
    cases follows
    rw [handlePacket_waiting, Phase.after]
    cases valid : connectInfo data with
    | none => rfl
    | some info =>
      have parsed : parseConnect data = some info := by
        rw [connectInfo] at valid
        split at valid
        · exact valid
        · cases valid
      simp only [handleConnect, parsed]
      split <;> rfl
  | established level =>
    cases follows
    have moved := handlePacket_established level data
    cases disconnects : isDisconnect level data with
    | true =>
      rw [disconnects] at moved
      simp only [Phase.after, disconnects, if_true, Session.Follows, moved]
    | false =>
      rw [disconnects] at moved
      simp only [Phase.after, disconnects, Bool.false_eq_true, if_false, Session.Follows, moved]
  | ended =>
    rw [handlePacket_disconnected follows]
    exact follows

theorem handlePackets_append (self : Session) (packets more : List Bytes)
    : (handlePackets self (packets ++ more)).1
      = (handlePackets (handlePackets self packets).1 more).1 := by
  induction packets generalizing self with
  | nil => rfl
  | cons data packets ih => exact ih _

/-- The handler follows the packets, by induction on them. -/
theorem handlePackets_follows (packets : List Bytes)
    : (handlePackets .new packets).1.Follows (phaseAfter packets) := by
  induction packets using reverseRecOn with
  | nil => rfl
  | append_singleton packets data ih =>
    rw [handlePackets_append, phaseAfter, foldl_append]
    exact ih.handlePacket data

end Phases

section Discipline

variable {data : Bytes} {self : Session}

/-- Before a valid `CONNECT` nothing is answered. -/
theorem handlePackets_waiting {packets} (invalid : ∀ data ∈ packets, connectInfo data = none)
    : handlePackets .new packets = (.new, packets.map fun _ => []) := by
  induction packets with
  | nil => rfl
  | cons data packets ih =>
    rw [handlePackets, handlePacket_waiting, invalid data mem_cons_self,
      ih fun other member => invalid other (mem_cons_of_mem _ member)]
    rfl

theorem handlePackets_disconnected (ended : self.state = .disconnected) (packets : List Bytes)
    : handlePackets self packets = (self, packets.map fun _ => []) := by
  induction packets with
  | nil => rfl
  | cons data packets ih =>
    rw [handlePackets, handlePacket_disconnected ended, ih]
    rfl

theorem handlePacket_connect (begun : self.state ≠ .waitingConnect)
    (connect : packetType data = mqttConnect)
    : handlePacket self data = (self, []) := by
  rcases handlePacket_cases self data with ignored | ⟨remainingLen, start, admitted, _⟩
  · exact ignored
  · have looked := admitted.looked
    rw [connect] at looked
    cases state : self.state with
    | waitingConnect => exact absurd state begun
    | connected | disconnected =>
      rw [state] at looked
      cases looked

/-- Session discipline, over any packets of a new session: silence before a valid `CONNECT`; silence
once a `CONNECT` was refused or a valid `DISCONNECT` came; no effect of another `CONNECT`; and
acknowledgements, in established sessions only, that keep to their requests. -/
theorem mqtt_session_discipline (packets : List Bytes)
    : let reached := (handlePackets .new packets).1
      reached.Follows (phaseAfter packets)
      ∧ ((∀ data ∈ packets, connectInfo data = none) →
        (handlePackets .new packets).2 = packets.map fun _ => [])
      ∧ (phaseAfter packets = .ended →
        ∀ more, handlePackets reached more = (reached, more.map fun _ => []))
      ∧ (phaseAfter packets ≠ .waiting →
        ∀ data, packetType data = mqttConnect → handlePacket reached data = (reached, []))
      ∧ ∀ data, (packetType (handlePacket reached data).2 = mqttSuback →
          ∃ level, phaseAfter packets = .established level
            ∧ Suback level data (handlePacket reached data).2)
        ∧ (packetType (handlePacket reached data).2 = mqttUnsuback →
          ∃ level, phaseAfter packets = .established level
            ∧ Unsuback level data (handlePacket reached data).2) := by
  have follows := handlePackets_follows packets
  refine ⟨follows, ?_, ?_, ?_, ?_⟩
  · intro invalid
    rw [handlePackets_waiting invalid]
  · intro ended
    rw [ended] at follows
    exact handlePackets_disconnected follows
  · intro begun data connect
    refine handlePacket_connect (fun waiting => ?_) connect
    generalize phaseAfter packets = phase at follows begun
    cases phase with
    | waiting => exact begun rfl
    | established level =>
      rw [follows] at waiting
      cases waiting
    | ended => cases waiting.symm.trans follows
  · intro data
    generalize phaseAfter packets = phase at follows
    cases phase with
    | waiting =>
      have codeless : Codeless (handlePacket (handlePackets .new packets).1 data).2 := by
        rw [follows, handlePacket_waiting]
        split
        · exact codeless_nil
        · exact handleConnect_codeless .new data
      exact codeless.silent
    | established level =>
      rw [follows]
      have leveled : Session.protocolLevel ⟨.connected, some level⟩ = some level := rfl
      obtain ⟨suback, unsuback⟩ := handlePacket_acknowledges leveled data
      exact ⟨fun type => ⟨level, rfl, suback type⟩, fun type => ⟨level, rfl, unsuback type⟩⟩
    | ended =>
      rw [handlePacket_disconnected follows]
      exact codeless_nil.silent

/-- The `CONNECT` of a client without a client identifier, in MQTT 3.1.1. -/
def connectFour : Bytes :=
  [0x10, 12, 0, 4, 77, 81, 84, 84, 4, 2, 0, 0, 0, 0]

/-- The same without a clean session, which has to be refused. -/
def connectRefused : Bytes :=
  [0x10, 12, 0, 4, 77, 81, 84, 84, 4, 0, 0, 0, 0, 0]

/-- A request for the topics `a` and `b` under the identifier 7, in MQTT 3.1.1. -/
def subscribeFour : Bytes :=
  [0x82, 10, 0, 7, 0, 1, 97, 1, 0, 1, 98, 2]

def subscribeFive : Bytes :=
  [0x82, 11, 0, 7, 0, 0, 1, 97, 1, 0, 1, 98, 2]

def unsubscribeFive : Bytes :=
  [0xA2, 9, 0, 7, 0, 0, 1, 97, 0, 1, 98]

/-- A session of either level, up to its end: what it answers, and what the answers owe. Nothing is
answered after a `DISCONNECT` or a refused `CONNECT`. -/
theorem mqtt_session_discipline_levels
    : (handlePackets .new [subscribeFour, connectFour, subscribeFour, [0xE0, 0], subscribeFour]).2
        = [[], [0x20, 2, 0, 0], [0x90, 4, 0, 7, 1, 2], [], []]
      ∧ (handlePackets .new [connectFive, subscribeFive, unsubscribeFive, [0xE0, 0], connectFive]).2
        = [[0x20, 3, 0, 0, 0], [0x90, 5, 0, 7, 0, 1, 2], [0xB0, 5, 0, 7, 0, 0, 0], [], []]
      ∧ (∃ level, phaseAfter [connectFour] = .established level
          ∧ Suback level subscribeFour [0x90, 4, 0, 7, 1, 2])
      ∧ (∃ level, phaseAfter [connectFive] = .established level
          ∧ Unsuback level unsubscribeFive [0xB0, 5, 0, 7, 0, 0, 0])
      ∧ ∀ more, (handlePackets (handlePackets .new [connectFive, [0xE0, 0]]).1 more).2
            = more.map (fun _ => [])
          ∧ (handlePackets (handlePackets .new [connectRefused]).1 more).2
            = more.map (fun _ => []) := by
  have suback : (handlePacket (handlePackets .new [connectFour]).1 subscribeFour).2
      = [0x90, 4, 0, 7, 1, 2] := by
    decide +kernel
  have unsuback : (handlePacket (handlePackets .new [connectFive]).1 unsubscribeFive).2
      = [0xB0, 5, 0, 7, 0, 0, 0] := by
    decide +kernel
  obtain ⟨-, -, -, -, four⟩ := mqtt_session_discipline [connectFour]
  obtain ⟨-, -, -, -, five⟩ := mqtt_session_discipline [connectFive]
  obtain ⟨-, -, ended, -⟩ := mqtt_session_discipline [connectFive, [0xE0, 0]]
  obtain ⟨-, -, refused, -⟩ := mqtt_session_discipline [connectRefused]
  refine ⟨by decide +kernel, by decide +kernel, ?_, ?_, ?_⟩
  · have owed := (four subscribeFour).1
    rw [suback] at owed
    exact owed (by decide)
  · have owed := (five unsubscribeFive).2
    rw [unsuback] at owed
    exact owed (by decide)
  · intro more
    rw [ended (by decide +kernel), refused (by decide +kernel)]
    exact ⟨rfl, rfl⟩

/-- In a session of MQTT 3.1.1, the `UNSUBACK` for one topic has no return code. -/
theorem mqtt_unsuback_without_codes
    : Request .unsubscribe 4 [0xA2, 5, 0, 7, 0, 1, 97] 7 [] ([ascii "a"].flatMap encodeString)
      ∧ (handlePacket (handlePackets .new [connectFour]).1 [0xA2, 5, 0, 7, 0, 1, 97]).2
        = [0xB0, 2, 0, 7] :=
  ⟨⟨by decide +kernel, by decide, by decide, rfl⟩, by decide +kernel⟩

end Discipline

end NetTrap.Mqtt
