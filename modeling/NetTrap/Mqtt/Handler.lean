import NetTrap.Rust.Text

/-! The packets of MQTT 3.1, 3.1.1 and 5, as the handler parses them.
A parser that moves a position through its data takes what is left of the data and gives back
what it leaves.
-/

namespace NetTrap.Mqtt

open Rust

def mqttMaxVariableByteInteger : Nat := 268435455
def mqttMaxPacketBytes : Nat := 1024 * 1024
def mqttMaxTopicFilters : Nat := 1024
def mqttPublishPayloadPreviewBytes : Nat := 1024

/-! The packet types; those that a `match` looks for are patterns. -/

@[match_pattern] def mqttConnect : UInt8 := 1
def mqttConnack : UInt8 := 2
@[match_pattern] def mqttPublish : UInt8 := 3
def mqttPuback : UInt8 := 4
def mqttPubrec : UInt8 := 5
@[match_pattern] def mqttPubrel : UInt8 := 6
def mqttPubcomp : UInt8 := 7
@[match_pattern] def mqttSubscribe : UInt8 := 8
def mqttSuback : UInt8 := 9
@[match_pattern] def mqttUnsubscribe : UInt8 := 10
def mqttUnsuback : UInt8 := 11
@[match_pattern] def mqttPingreq : UInt8 := 12
@[match_pattern] def mqttPingresp : UInt8 := 13
@[match_pattern] def mqttDisconnect : UInt8 := 14

structure MqttConnectInfo where
  clientId : Str
  username : Option Str
  password : Option Bytes
  protocolLevel : UInt8
  clientIdRejected : Bool
  deriving DecidableEq, Repr

structure MqttPublishInfo where
  topic : Str
  payloadLen : Nat
  payloadPreview : Bytes
  packetId : Option Nat
  deriving DecidableEq, Repr

structure MqttSubscribeInfo where
  (packetId topicCount : Nat)
  grantedQos : Bytes
  hasProperties : Bool
  deriving DecidableEq, Repr

structure MqttUnsubscribeInfo where
  (packetId topicCount : Nat)
  hasProperties : Bool
  deriving DecidableEq, Repr

def validFixedHeader (first packetType : UInt8) (remainingLen : Nat) : Bool :=
  let flags := first &&& 0x0F
  match packetType with
  | mqttConnect => flags == 0
  | mqttPingreq => flags == 0 && remainingLen == 0
  | mqttPingresp => flags == 0 && remainingLen == 0
  | mqttDisconnect => flags == 0
  | mqttPublish => ((flags >>> 1) &&& 0x03) != 0x03
  | mqttSubscribe => flags == 0x02
  | mqttUnsubscribe => flags == 0x02
  | mqttPubrel => flags == 0x02
  | _ => false

/-- The counting loop of `remainingLengthEncodedLen`; a `usize` has at most ten groups of seven
bits. -/
def encodedLenLoop : (budget value : Nat) → Nat
  | 0, _ => 1
  | budget + 1, value => if value ≥ 128 then encodedLenLoop budget (value / 128) + 1 else 1

def remainingLengthEncodedLen (value : Nat) : Nat :=
  encodedLenLoop 10 value

/-- The groups of seven bits of an integer, least significant first: its value, the number of
its bytes, and what is left. At most `rounds` groups may follow. -/
def variableIntLoop
    : (rounds multiplier value bytesRead : Nat) → Bytes → Option (Nat × Nat × Bytes)
  | 0, _, _, _, _ => none
  | _ + 1, _, _, _, [] => none
  | rounds + 1, multiplier, value, bytesRead, byte :: rest =>
    let value := value + (byte &&& 0x7F).toNat * multiplier
    if byte &&& 0x80 == 0 then some (value, bytesRead + 1, rest)
    else variableIntLoop rounds (multiplier * 128) value (bytesRead + 1) rest

variable (data : Bytes)

/-- An integer of one to four bytes, in its shortest form. -/
def variableInt : Option (Nat × Nat × Bytes) :=
  match variableIntLoop 4 1 0 0 data with
  | none => none
  | some (value, bytesRead, rest) =>
    if value > mqttMaxVariableByteInteger || remainingLengthEncodedLen value != bytesRead then none
    else some (value, bytesRead, rest)

/-- The remaining length behind the first byte of a packet, and where the rest begins. -/
def parseRemainingLength : Option (Nat × Nat) :=
  if data.length < 2 then none
  else (variableInt (data.drop 1)).map fun (value, bytesRead, _) => (value, bytesRead + 1)

def readVariableInt : Option (Nat × Bytes) :=
  (variableInt data).map fun (value, _, rest) => (value, rest)

def readMqttString : Bytes → Option (Bytes × Bytes)
  | high :: low :: rest =>
    let len := u16FromBeBytes high low
    if len ≤ rest.length then some (rest.take len, rest.drop len) else none
  | _ => none

def isForbiddenChar (char : Nat) : Bool :=
  char ≤ 0x1f || (0x7f ≤ char && char ≤ 0x9f) || (0xfdd0 ≤ char && char ≤ 0xfdef)
    || char == 0xfffe || char == 0xffff || char &&& 0xfffe == 0xfffe

def validMqttUtf8String (value : Str) : Bool :=
  (chars value).all fun char => !isForbiddenChar char

def readMqttUtf8String : Option (Str × Bytes) := do
  let (value, rest) ← readMqttString data
  let value ← fromUtf8 value
  if validMqttUtf8String value then some (value, rest) else none

def validPublishTopicName (value : Str) : Bool :=
  validMqttUtf8String value && !value.any fun byte => byte == 43 || byte == 35

def validSubscribeTopicFilter (value : Str) : Bool :=
  if value.isEmpty || !validMqttUtf8String value then false
  else if value.count 35 > 1 then false
  else
    let misplaced :=
      match value.idxOf? 35 with
      | none => false
      | some hashPos =>
        hashPos + 1 != value.length || (hashPos > 0 && value[hashPos - 1]? != some 47)
    if misplaced then false
    else (value.splitOn 47).all fun level => !level.contains 43 || level == [43]

/-- The packets with properties. -/
inductive PropertyContext where
  | connect
  | will
  | disconnect
  | subscribe
  | unsubscribe
  | pubrel
  deriving DecidableEq, Repr

/-- What a property holds. -/
inductive PropertyKind where
  | fixedLen (len : Nat)
  | utf8String
  | binaryString
  /-- The user property, the only one that may be repeated. -/
  | utf8Pair
  | nonzeroInt
  deriving DecidableEq, Repr

def propertyKind (context : PropertyContext) (propertyId : UInt8) : Option PropertyKind :=
  match context, propertyId with
  | .connect, 0x11 => some (.fixedLen 4)
  | .connect, 0x21 => some (.fixedLen 2)
  | .connect, 0x27 => some (.fixedLen 4)
  | .connect, 0x22 => some (.fixedLen 2)
  | .connect, 0x19 => some (.fixedLen 1)
  | .connect, 0x17 => some (.fixedLen 1)
  | .connect, 0x26 => some .utf8Pair
  | .connect, 0x15 => some .utf8String
  | .connect, 0x16 => some .binaryString
  | .will, 0x18 => some (.fixedLen 4)
  | .will, 0x01 => some (.fixedLen 1)
  | .will, 0x02 => some (.fixedLen 4)
  | .will, 0x23 => some .utf8String
  | .will, 0x09 => some .utf8String
  | .will, 0x08 => some .binaryString
  | .will, 0x26 => some .utf8Pair
  | .disconnect, 0x11 => some (.fixedLen 4)
  | .disconnect, 0x1F => some .utf8String
  | .disconnect, 0x1C => some .utf8String
  | .disconnect, 0x26 => some .utf8Pair
  | .subscribe, 0x0B => some .nonzeroInt
  | .subscribe, 0x26 => some .utf8Pair
  | .unsubscribe, 0x26 => some .utf8Pair
  | .pubrel, 0x1F => some .utf8String
  | .pubrel, 0x26 => some .utf8Pair
  | _, _ => none

/-- What a property of the kind leaves of the data. -/
def consumeProperty (kind : PropertyKind) (data : Bytes) : Option Bytes :=
  match kind with
  | .fixedLen len => if len ≤ data.length then some (data.drop len) else none
  | .utf8String => (readMqttUtf8String data).map Prod.snd
  | .binaryString => (readMqttString data).map Prod.snd
  | .utf8Pair => do
      let (_, rest) ← readMqttUtf8String data
      let (_, rest) ← readMqttUtf8String rest
      some rest
  | .nonzeroInt => do
      let (value, rest) ← readVariableInt data
      if value == 0 then none else some rest

/-- The loop over the properties; `seen` are those that may not come again. -/
def propertyLoop (context : PropertyContext) : (budget : Nat) → (seen : List UInt8) → Bytes → Bool
  | _, _, [] => true
  | 0, _, _ :: _ => false
  | budget + 1, seen, propertyId :: rest =>
    match propertyKind context propertyId with
    | none => false
    | some kind =>
      if seen.contains propertyId then false
      else
        match consumeProperty kind rest with
        | none => false
        | some rest =>
          propertyLoop context budget (if kind = .utf8Pair then seen else propertyId :: seen) rest

def parsePropertyBlock (properties : Bytes) (context : PropertyContext) : Bool :=
  propertyLoop context properties.length [] properties

/-- A property block with its length in front; what follows it is left. -/
def readProperties (context : PropertyContext) (data : Bytes) : Option Bytes := do
  let (propertiesLen, rest) ← readVariableInt data
  if propertiesLen ≤ rest.length && parsePropertyBlock (rest.take propertiesLen) context then
    some (rest.drop propertiesLen)
  else none

/-- A packet as the parsers see it: its first byte and what follows the remaining length. -/
def packetPayload : Option Bytes := do
  let (remainingLen, start) ← parseRemainingLength data
  if start + remainingLen = data.length then some (data.drop start) else none

/-- The bits of the connect flags that exclude each other. -/
def validConnectFlags (flags : UInt8) : Bool :=
  let usernameFlag := flags &&& 0x80 != 0
  let passwordFlag := flags &&& 0x40 != 0
  let willFlag := flags &&& 0x04 != 0
  let willQos := (flags >>> 3) &&& 0x03
  let willRetain := flags &&& 0x20 != 0
  flags &&& 0x01 == 0 && !(passwordFlag && !usernameFlag)
    && !(willQos == 0x03 || (!willFlag && (willQos != 0 || willRetain)))

/-- The will of a client: its topic and message, in MQTT 5 with properties in front. -/
def skipWill (protoLevel : UInt8) (data : Bytes) : Option Bytes := do
  let rest ← if protoLevel == 5 then readProperties .will data else some data
  let (_, rest) ← readMqttUtf8String rest
  let (_, rest) ← readMqttString rest
  some rest

def readIf {α : Type} (present : Bool) (read : Bytes → Option (α × Bytes)) (data : Bytes)
    : Option (Option α × Bytes) :=
  if present then (read data).map fun (value, rest) => (some value, rest) else some (none, data)

/-- What follows the protocol name: level, flags, two bytes of keep-alive, and the fields. -/
def parseConnectFields (protoName : Bytes) : Bytes → Option MqttConnectInfo
  | protoLevel :: flags :: _ :: _ :: rest => do
      guard ((protoName == ascii "MQTT" && (protoLevel == 4 || protoLevel == 5))
        || (protoName == ascii "MQIsdp" && protoLevel == 3))
      guard (validConnectFlags flags)
      let rest ← if protoLevel == 5 then readProperties .connect rest else some rest
      let (clientId, rest) ← readMqttUtf8String rest
      let rest ← if flags &&& 0x04 != 0 then skipWill protoLevel rest else some rest
      let (username, rest) ← readIf (flags &&& 0x80 != 0) readMqttUtf8String rest
      let (password, rest) ← readIf (flags &&& 0x40 != 0) readMqttString rest
      guard rest.isEmpty
      some
        { clientId := clientId
          username := username
          password := password
          protocolLevel := protoLevel
          clientIdRejected :=
            (protoLevel == 3 || protoLevel == 4) && clientId.isEmpty && flags &&& 0x02 == 0 }
  | _ => none

def parseConnect : Option MqttConnectInfo := do
  guard (data.head? = some 0x10)
  let payload ← packetPayload data
  let (protoName, rest) ← readMqttString payload
  parseConnectFields protoName rest

/-- The packet identifier of a message with an acknowledgement; zero is none. -/
def readPacketId : Bytes → Option (Nat × Bytes)
  | high :: low :: rest =>
    let id := u16FromBeBytes high low
    if id = 0 then none else some (id, rest)
  | _ => none

def parsePublish : Option MqttPublishInfo := do
  let payload ← packetPayload data
  let (topic, rest) ← readMqttString payload
  guard (!topic.isEmpty)
  let topic ← fromUtf8 topic
  guard (validPublishTopicName topic)
  let qos := ((data.headD 0) >>> 1) &&& 0x03
  let (packetId, msgPayload) ← readIf (1 ≤ qos) readPacketId rest
  some
    { topic := topic
      payloadLen := msgPayload.length
      payloadPreview := msgPayload.take mqttPublishPayloadPreviewBytes
      packetId := packetId }

def isOldLevel (protocolLevel : Option UInt8) : Bool :=
  protocolLevel == some 3 || protocolLevel == some 4

def validSubscriptionOptions (options : UInt8) (protocolLevel : Option UInt8) : Bool :=
  if options &&& 0xC0 != 0 || options &&& 0x03 == 3 then false
  else if isOldLevel protocolLevel then options == options &&& 0x03
  else options &&& 0x30 != 0x30

/-- A topic filter, not empty. -/
def readTopicFilter : Option (Str × Bytes) := do
  let (topic, rest) ← readMqttString data
  guard (!topic.isEmpty)
  let topic ← fromUtf8 topic
  guard (validSubscribeTopicFilter topic)
  some (topic, rest)

/-- The loop over the topic filters with their options. -/
def subscribeTopicsLoop (protocolLevel : Option UInt8)
    : (budget : Nat) → (grantedQos : Bytes) → Bytes → Option Bytes
  | _, grantedQos, [] => some grantedQos
  | 0, _, _ :: _ => none
  | budget + 1, grantedQos, byte :: data =>
    match readTopicFilter (byte :: data) with
    | some (_, options :: rest) =>
      if !validSubscriptionOptions options protocolLevel then none
      else if grantedQos.length ≥ mqttMaxTopicFilters then none
      else subscribeTopicsLoop protocolLevel budget (grantedQos ++ [options &&& 0x03]) rest
    | _ => none

def parseSubscribeTopics (protocolLevel : Option UInt8) : Option Bytes := do
  let grantedQos ← subscribeTopicsLoop protocolLevel data.length [] data
  if grantedQos.isEmpty then none else some grantedQos

def unsubscribeTopicsLoop : (budget topicCount : Nat) → Bytes → Option Nat
  | _, topicCount, [] => some topicCount
  | 0, _, _ :: _ => none
  | budget + 1, topicCount, byte :: data =>
    match readTopicFilter (byte :: data) with
    | some (_, rest) =>
      if topicCount ≥ mqttMaxTopicFilters then none
      else unsubscribeTopicsLoop budget (topicCount + 1) rest
    | none => none

def parseUnsubscribeTopics : Option Nat := do
  let topicCount ← unsubscribeTopicsLoop data.length 0 data
  if topicCount = 0 then none else some topicCount

/-- What precedes the topics: the properties if there are any, and whether there are. Only MQTT 5
has them, and a request whose property length cannot be read is taken to have none. -/
def splitProperties (context : PropertyContext) (protocolLevel : Option UInt8) (data : Bytes)
    : Option (Bool × Bytes) :=
  if isOldLevel protocolLevel then some (false, data)
  else
    match readVariableInt data with
    | none => some (false, data)
    | some _ => (readProperties context data).map (true, ·)

def parseSubscribePacketForLevel (payload : Bytes) (protocolLevel : Option UInt8)
    : Option MqttSubscribeInfo := do
  guard (5 ≤ payload.length)
  let (packetId, rest) ← readPacketId payload
  let (hasProperties, rest) ← splitProperties .subscribe protocolLevel rest
  let grantedQos ← parseSubscribeTopics rest protocolLevel
  some
    { packetId := packetId
      topicCount := grantedQos.length
      grantedQos := grantedQos
      hasProperties := hasProperties }

def parseUnsubscribePacketForLevel (payload : Bytes) (protocolLevel : Option UInt8)
    : Option MqttUnsubscribeInfo := do
  guard (5 ≤ payload.length)
  let (packetId, rest) ← readPacketId payload
  let (hasProperties, rest) ← splitProperties .unsubscribe protocolLevel rest
  let topicCount ← parseUnsubscribeTopics rest
  some ⟨packetId, topicCount, hasProperties⟩

/-- A reason code with properties behind it, each of which may be missing at the end. -/
def readReason (valid : UInt8 → Bool) (context : PropertyContext) : Bytes → Option Unit
  | [] => some ()
  | reasonCode :: rest =>
    if !valid reasonCode then none
    else if rest.isEmpty then some ()
    else
      match readProperties context rest with
      | some [] => some ()
      | _ => none

def isValidPubrelReasonCode (reasonCode : UInt8) : Bool :=
  reasonCode == 0x00 || reasonCode == 0x92

def parsePubrelPacket (payload : Bytes) : Option Nat := do
  let (packetId, rest) ← readPacketId payload
  readReason isValidPubrelReasonCode .pubrel rest
  some packetId

def isValidDisconnectReasonCode (reasonCode : UInt8) : Bool :=
  [0x00, 0x04, 0x80, 0x81, 0x82, 0x83, 0x87, 0x89, 0x8B, 0x8D, 0x8E, 0x8F, 0x90, 0x93, 0x94, 0x95,
    0x96, 0x97, 0x98, 0x99, 0x9A, 0x9B, 0x9C, 0x9D, 0x9E, 0x9F, 0xA0, 0xA1,
    0xA2].contains reasonCode

def parseDisconnectPacketForLevel (payload : Bytes) (protocolLevel : Option UInt8) : Option Unit :=
  if isOldLevel protocolLevel then
    if payload.isEmpty then some () else none
  else readReason isValidDisconnectReasonCode .disconnect payload

/-! The MQTT session: one handler, one packet at a time. -/

inductive MqttState where
  | waitingConnect
  | connected
  | disconnected
  deriving DecidableEq, Repr

/-- The mutable fields of a handler. -/
structure Session where
  state : MqttState
  protocolLevel : Option UInt8
  deriving DecidableEq, Repr

def Session.new : Session :=
  ⟨.waitingConnect, none⟩

/-- The loop of `pushRemainingLength`; a `usize` has at most ten groups of seven bits. -/
def remainingLengthLoop : (budget value : Nat) → Bytes
  | 0, _ => []
  | budget + 1, value =>
    let byte := UInt8.ofNat value &&& 0x7f
    if value / 128 > 0 then (byte ||| 0x80) :: remainingLengthLoop budget (value / 128)
    else [byte]

def pushRemainingLength (value : Nat) : Bytes :=
  remainingLengthLoop 10 value

/-- `u16::to_be_bytes`. -/
def packetIdBytes (packetId : Nat) : Bytes :=
  [UInt8.ofNat (packetId / 256), UInt8.ofNat (packetId % 256)]

variable (self : Session)

def handleConnect (data : Bytes) : Session × Bytes :=
  match parseConnect data with
  | none => (self, [])
  | some info =>
    if info.clientIdRejected then
      ({ self with state := .disconnected }, [mqttConnack <<< 4, 2, 0, 2])
    else
      (⟨.connected, some info.protocolLevel⟩,
        if info.protocolLevel == 5 then [mqttConnack <<< 4, 3, 0, 0, 0]
        else [mqttConnack <<< 4, 2, 0, 0])

def handlePublish (data : Bytes) : Bytes :=
  match parsePublish data with
  | none => []
  | some info =>
    match info.packetId with
    | none => []
    | some packetId =>
      let qos := (data.headD 0 >>> 1) &&& 0x03
      (if qos == 2 then mqttPubrec else mqttPuback) <<< 4 :: 2 :: packetIdBytes packetId

def handleSubscribe (payload : Bytes) : Bytes :=
  match parseSubscribePacketForLevel payload self.protocolLevel with
  | none => []
  | some info =>
    let remainingLen := 2 + (if info.hasProperties then 1 else 0) + info.topicCount
    mqttSuback <<< 4 :: pushRemainingLength remainingLen ++ packetIdBytes info.packetId
      ++ (if info.hasProperties then [0] else []) ++ info.grantedQos

def handleUnsubscribe (payload : Bytes) : Bytes :=
  match parseUnsubscribePacketForLevel payload self.protocolLevel with
  | none => []
  | some info =>
    let remainingLen := if info.hasProperties then 2 + 1 + info.topicCount else 2
    mqttUnsuback <<< 4 :: pushRemainingLength remainingLen ++ packetIdBytes info.packetId
      ++ (if info.hasProperties then 0 :: List.replicate info.topicCount 0 else [])

def handlePubrel (payload : Bytes) : Bytes :=
  match parsePubrelPacket payload with
  | none => []
  | some packetId => mqttPubcomp <<< 4 :: 2 :: packetIdBytes packetId

/-- The `match` over the packet type, once the fixed header is in order. -/
def dispatch (data : Bytes) (packetType : UInt8) (remainingLen : Nat) (payload : Bytes)
    : Session × Bytes :=
  match packetType with
  | mqttConnect => handleConnect self data
  | mqttPublish => (self, handlePublish data)
  | mqttSubscribe => (self, handleSubscribe self payload)
  | mqttUnsubscribe => (self, handleUnsubscribe self payload)
  | mqttPubrel => (self, handlePubrel payload)
  | mqttPingreq => (self, if remainingLen == 0 then [mqttPingresp <<< 4, 0] else [])
  | mqttDisconnect =>
    match parseDisconnectPacketForLevel payload self.protocolLevel with
    | none => (self, [])
    | some () => ({ self with state := .disconnected }, [])
  | _ => (self, [])

/-- In this state, packets of this type are not looked at. -/
def MqttState.ignores (state : MqttState) (packetType : UInt8) : Bool :=
  match state with
  | .waitingConnect => packetType != mqttConnect
  | .connected => packetType == mqttConnect
  | .disconnected => true

def packetType (data : Bytes) : UInt8 :=
  (data.headD 0 >>> 4) &&& 0x0F

def handlePacket (data : Bytes) : Session × Bytes :=
  if data.isEmpty || data.length > mqttMaxPacketBytes then (self, [])
  else
    match parseRemainingLength data with
    | none => (self, [])
    | some (remainingLen, start) =>
      if start + remainingLen != data.length
          || !validFixedHeader (data.headD 0) (packetType data) remainingLen then (self, [])
      else if self.state.ignores (packetType data) then (self, [])
      else dispatch self data (packetType data) remainingLen (data.drop start)

/-- The packet is whole, has a valid fixed header, and is looked at in this state. -/
structure Admitted (session : Session) (data : Bytes) (remainingLen start : Nat) : Prop where
  small : data.length ≤ mqttMaxPacketBytes
  length : parseRemainingLength data = some (remainingLen, start)
  whole : start + remainingLen = data.length
  header : validFixedHeader (data.headD 0) (packetType data) remainingLen = true
  looked : session.state.ignores (packetType data) = false

/-- Any other packet is dropped without effect. -/
theorem handlePacket_cases (self : Session) (data : Bytes)
    : handlePacket self data = (self, [])
      ∨ ∃ remainingLen start, Admitted self data remainingLen start ∧ handlePacket self data
          = dispatch self data (packetType data) remainingLen (data.drop start) := by
  fun_cases handlePacket self data with
  | case5 bounds remainingLen start length header looked =>
    simp only [Bool.or_eq_true, decide_eq_true_eq, not_or, List.isEmpty_iff] at bounds
    simp only [Bool.or_eq_true, bne_iff_ne, not_or, Bool.not_eq_true', Bool.not_eq_false,
      not_not] at header
    exact .inr ⟨remainingLen, start,
      ⟨by omega, length, header.1, header.2, by simpa using looked⟩, rfl⟩
  | _ => exact .inl rfl

/-- The packets of one connection, one after the other, with the answers. -/
def handlePackets (self : Session) : List Bytes → Session × List Bytes
  | [] => (self, [])
  | data :: packets =>
    let handled := handlePacket self data
    let later := handlePackets handled.1 packets
    (later.1, handled.2 :: later.2)

/-- The `CONNECT` of an MQTT 5 client without a client identifier. -/
def connectFive : Bytes :=
  [0x10, 13, 0, 4, 77, 81, 84, 84, 5, 2, 0, 0, 0, 0, 0]

end NetTrap.Mqtt
