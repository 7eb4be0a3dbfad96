import NetTrap.Rust.BerDecoding
import NetTrap.Rust.Text

/-! The parsers of the LDAP handler. They pass absolute positions and limits to each other, and
index the whole message with them.
-/

namespace NetTrap.Ldap

open Access Rust

def maxBerLength : Nat := 16 * 1024 * 1024

def maxLdapFilterDepth : Nat := 32

def parseBerLength : Bytes → Exec (Option (Nat × Nat)) :=
  decodeBerLength fun len => len ≤ maxBerLength

variable (data : Bytes) (pos limit : Nat)

/-- The value of the element at `pos` and the position behind it. -/
def consumeExpectedTlvValue (expectedTag : UInt8)
    : Exec (Option (Bytes × Nat)) := do
  if pos ≥ limit then
    return none
  if (← item data pos) != expectedTag then
    return none
  let some (start, stop) ← valueBounds parseBerLength data (pos + 1) limit | return none
  let some value := getRange data start stop | return none
  return some (value, stop)

/-- The length of the element at `pos` and the position behind it. -/
def consumeExpectedTlv (expectedTag : UInt8)
    : Exec (Option (Nat × Nat)) := do
  if pos ≥ limit then
    return none
  if (← item data pos) != expectedTag then
    return none
  let some (start, stop) ← valueBounds parseBerLength data (pos + 1) limit | return none
  return some (stop - start, stop)

/-- An element of any tag. The tag is looked up in all of `data`, not below the limit. -/
def consumeAnyTlv : Exec (Option ((UInt8 × Bytes) × Nat)) := do
  let some tag := data[pos]? | return none
  let some (start, stop) ← valueBounds parseBerLength data (pos + 1) limit | return none
  let some value := getRange data start stop | return none
  return some ((tag, value), stop)

/-! Integers. -/

def isCanonicalNonNegativeInteger (value : Bytes) : Bool :=
  match value with
  | [] => false
  | first :: rest =>
    !(value.length > 4 || first &&& 0x80 != 0)
      && !(value.length > 1 && first == 0 && rest.head?.any (· &&& 0x80 == 0))

def parseCanonicalNonNegativeInteger (value : Bytes) : Option Nat :=
  if !isCanonicalNonNegativeInteger value then none
  else some (value.foldl (fun parsed byte => (parsed <<< 8) ||| byte.toNat) 0)

def i32Max : Nat := 2 ^ 31 - 1

def parseMessageIdValue (value : Bytes) : Option Nat :=
  if !isCanonicalNonNegativeInteger value then none
  else
    let msgId := value.foldl (fun msgId byte => (msgId <<< 8) ||| byte.toNat) 0
    if msgId == 0 || msgId > i32Max then none else some msgId

def consumeEnumeratedInRange (pos limit last : Nat) : Exec (Option Nat) := do
  let some (value, pos) ← consumeExpectedTlvValue data pos limit 0x0a | return none
  let some value := parseCanonicalNonNegativeInteger value | return none
  return if value ≤ last then some pos else none

def consumeCanonicalInteger : Exec (Option Nat) := do
  let some (value, pos) ← consumeExpectedTlvValue data pos limit 0x02 | return none
  return if isCanonicalNonNegativeInteger value then some pos else none

def consumeBoolean : Exec (Option Nat) := do
  let some (value, pos) ← consumeExpectedTlvValue data pos limit 0x01 | return none
  return if value.length == 1 then some pos else none

/-! The message and its controls. -/

/-- The identifier, the position of the operation and the end of the message. -/
def parseMessageId : Exec (Option (Nat × Nat × Nat)) := do
  let some first := data.head? | return none
  if first != 0x30 then
    return none
  let some (pos, seqEnd) ← valueBounds parseBerLength data 1 data.length | return none
  if pos ≥ seqEnd then
    return none
  if (← item data pos) != 0x02 then
    return none
  let some (pos, idEnd) ← valueBounds parseBerLength data (pos + 1) seqEnd | return none
  if idEnd - pos == 0 || idEnd - pos > 4 then
    return none
  let some msgId := parseMessageIdValue (← slice data pos idEnd) | return none
  return some (msgId, idEnd, seqEnd)

def operationEnd (opOffset seqEnd : Nat) : Exec (Option Nat) := do
  let some pos := checkedAdd opOffset 1 | return none
  if pos > seqEnd then
    return none
  let some (_, opEnd) ← valueBounds parseBerLength data pos seqEnd | return none
  return some opEnd

/-- The last field of a control. -/
def controlValueIsWellFormed (pos : Nat) : Exec Bool := do
  if (← item data pos) != 0x04 then
    return false
  let some (_, pos) ← consumeExpectedTlv data pos data.length 0x04 | return false
  return pos == data.length

def controlIsWellFormed : Exec Bool := do
  let some (controlType, pos) ← consumeExpectedTlvValue data 0 data.length 0x04 | return false
  if controlType.isEmpty then
    return false
  if pos == data.length then
    return true
  if (← item data pos) == 0x01 then
    let some (criticality, pos) ← consumeExpectedTlvValue data pos data.length 0x01 | return false
    if criticality.length != 1 then
      return false
    if pos == data.length then
      return true
    controlValueIsWellFormed data pos
  else
    controlValueIsWellFormed data pos

/-- The loop over the controls; each round consumes some bytes, so that `fuel` is enough if it
is the number of bytes left.
-/
def controlsLoop (data : Bytes) : (fuel pos : Nat) → Exec Bool
  | 0, pos => if pos < data.length then .fault else .done true
  | fuel + 1, pos => do
      if pos ≥ data.length then
        return true
      if (← item data pos) != 0x30 then
        return false
      let some (start, stop) ← valueBounds parseBerLength data (pos + 1) data.length | return false
      if !(← controlIsWellFormed (← slice data start stop)) then
        return false
      controlsLoop data fuel stop

def controlsAreWellFormed : Exec Bool :=
  controlsLoop data data.length 0

def messageTailIsValid (tailStart seqEnd : Nat) : Exec Bool := do
  if tailStart == seqEnd then
    return true
  if tailStart ≥ seqEnd then
    return false
  if (← item data tailStart) != 0xa0 then
    return false
  let some pos := checkedAdd tailStart 1 | return false
  let some (pos, controlsEnd) ← valueBounds parseBerLength data pos seqEnd | return false
  if controlsEnd != seqEnd then
    return false
  controlsAreWellFormed (← slice data pos controlsEnd)

/-! Filters. -/

def attributeValueAssertionFilterIsWellFormed (value : Bytes) : Exec Bool := do
  let some ((seqTag, seqValue), pos) ← consumeAnyTlv value 0 value.length | return false
  if seqTag != 0x30 || pos != value.length then
    return false
  let some (_, seqPos) ← consumeExpectedTlv seqValue 0 seqValue.length 0x04 | return false
  let some (_, seqPos) ← consumeExpectedTlv seqValue seqPos seqValue.length 0x04 | return false
  return seqPos == seqValue.length

def approxMatchFilterIsWellFormed (value : Bytes) : Exec Bool :=
  attributeValueAssertionFilterIsWellFormed value

def substringLoop (seqValue : Bytes) : (fuel seqPos : Nat) → (sawSubstring : Bool) → Exec Bool
  | 0, seqPos, sawSubstring => if seqPos < seqValue.length then .fault else .done sawSubstring
  | fuel + 1, seqPos, sawSubstring => do
      if seqPos ≥ seqValue.length then
        return sawSubstring
      let some tag := seqValue[seqPos]? | return false
      if !(0x80 ≤ tag && tag ≤ 0x82) then
        return false
      let some (_, seqPos) ← consumeExpectedTlv seqValue seqPos seqValue.length tag | return false
      substringLoop seqValue fuel seqPos true

def substringFilterIsWellFormed (value : Bytes) : Exec Bool := do
  let some ((seqTag, seqValue), pos) ← consumeAnyTlv value 0 value.length | return false
  if seqTag != 0x30 || pos != value.length then
    return false
  let some (_, seqPos) ← consumeExpectedTlv seqValue 0 seqValue.length 0x04 | return false
  substringLoop seqValue seqValue.length seqPos false

/-- The loop over the operands of a conjunction or disjunction. -/
def operandsLoop (child : UInt8 → Bytes → Exec Bool) (value : Bytes)
    : (fuel pos : Nat) → (sawChild : Bool) → Exec Bool
  | 0, pos, sawChild => if pos < value.length then .fault else .done sawChild
  | fuel + 1, pos, sawChild => do
      if pos ≥ value.length then
        return sawChild
      let some ((childTag, childValue), pos) ← consumeAnyTlv value pos value.length | return false
      if !(← child childTag childValue) then
        return false
      operandsLoop child value fuel pos true

/-- A filter nested in `depth` others has `levels = maxLdapFilterDepth + 1 - depth` left. -/
def filterIsWellFormed : (levels : Nat) → (tag : UInt8) → (value : Bytes) → Exec Bool
  | 0, _, _ => .done false
  | levels + 1, tag, value =>
    if tag == 0xa0 || tag == 0xa1 then
      if value.isEmpty then .done false
      else operandsLoop (filterIsWellFormed levels) value value.length 0 false
    else if tag == 0xa2 then do
      let some ((childTag, childValue), pos) ← consumeAnyTlv value 0 value.length | return false
      if pos != value.length then
        return false
      filterIsWellFormed levels childTag childValue
    else if tag == 0x87 then .done !value.isEmpty
    else if tag == 0xa8 then approxMatchFilterIsWellFormed value
    else if tag == 0xa3 || tag == 0xa5 || tag == 0xa6 then
      attributeValueAssertionFilterIsWellFormed value
    else if tag == 0xa4 then substringFilterIsWellFormed value
    else if tag == 0xa9 then .done !value.isEmpty
    else .done false

/-! Operations. -/

def saslAuthChoiceIsWellFormed (value : Bytes) : Exec Bool := do
  let some (mechanism, pos) ← consumeExpectedTlvValue value 0 value.length 0x04 | return false
  if mechanism.isEmpty || (fromUtf8 mechanism).isNone then
    return false
  if pos == value.length then
    return true
  let some (_, pos) ← consumeExpectedTlv value pos value.length 0x04 | return false
  return pos == value.length

/-- The start of an operation's fields. -/
def operationBody (opOffset opEnd : Nat) : Exec (Option Nat) := do
  let some pos := checkedAdd opOffset 1 | return none
  if pos ≥ opEnd then
    return none
  let some (_, lenBytes) ← parseBerLength (← slice data pos opEnd) | return none
  return some (pos + lenBytes)

def bindRequestIsWellFormed (opOffset opEnd : Nat) : Exec Bool := do
  let some pos ← operationBody data opOffset opEnd | return false
  let some (version, pos) ← consumeExpectedTlvValue data pos opEnd 0x02 | return false
  if !isCanonicalNonNegativeInteger version then
    return false
  let some (_, pos) ← consumeExpectedTlv data pos opEnd 0x04 | return false
  let some tag := data[pos]? | return false
  if !(tag == 0x80 || tag == 0xa3) then
    return false
  let some (pos, authEnd) ← valueBounds parseBerLength data (pos + 1) opEnd | return false
  if authEnd != opEnd then
    return false
  if tag == 0xa3 then
    saslAuthChoiceIsWellFormed (← slice data pos authEnd)
  else
    return true

/-- The bytes of the name a client binds with, before they are made printable. -/
def extractBindDn (opOffset opEnd : Nat) : Exec (Option Bytes) := do
  let some pos ← operationBody data opOffset opEnd | return none
  if pos ≥ opEnd then
    return none
  if (← item data pos) != 0x02 then
    return none
  let some (_, pos) ← valueBounds parseBerLength data (pos + 1) opEnd | return none
  if pos ≥ opEnd then
    return none
  if (← item data pos) != 0x04 then
    return none
  let some (pos, dnEnd) ← valueBounds parseBerLength data (pos + 1) opEnd | return none
  let dn ← slice data pos dnEnd
  return some dn

/-- The fields of a search before its filter. -/
def searchParameters (pos opEnd : Nat) : Exec (Option Nat) := do
  let some (_, pos) ← consumeExpectedTlv data pos opEnd 0x04 | return none
  let some pos ← consumeEnumeratedInRange data pos opEnd 2 | return none
  let some pos ← consumeEnumeratedInRange data pos opEnd 3 | return none
  let some pos ← consumeCanonicalInteger data pos opEnd | return none
  let some pos ← consumeCanonicalInteger data pos opEnd | return none
  consumeBoolean data pos opEnd

def searchRequestIsWellFormed (opOffset opEnd : Nat) : Exec Bool := do
  let some pos ← operationBody data opOffset opEnd | return false
  let some pos ← searchParameters data pos opEnd | return false
  let some ((filterTag, filterValue), pos) ← consumeAnyTlv data pos opEnd | return false
  if !(← filterIsWellFormed (maxLdapFilterDepth + 1) filterTag filterValue) then
    return false
  let some (_, pos) ← consumeExpectedTlv data pos opEnd 0x30 | return false
  return pos == opEnd

/-! The LDAP handler: one message in, one reply out. -/

def maxLdapMatchedDnBytes : Nat := 4096

/-- `u32::to_be_bytes`. -/
def toBeBytes (value : Nat) : Bytes :=
  [3, 2, 1, 0].map fun place => UInt8.ofNat (value / 256 ^ place)

/-- The length field, or nothing if the length does not fit in four bytes. -/
def encodeBerLength (len : Nat) : Option Bytes :=
  if len < 128 then some [UInt8.ofNat len]
  else if len < 2 ^ 8 then some [0x81, UInt8.ofNat len]
  else if len < 2 ^ 16 then some (0x82 :: (toBeBytes len).drop 2)
  else if len < 0x1000000 then some (0x83 :: (toBeBytes len).drop 1)
  else if len < 2 ^ 32 then some (0x84 :: toBeBytes len)
  else none

/-- The identifier as an integer without a sign bit. -/
def encodeMessageId (msgId : Nat) : Bytes :=
  let bytes := toBeBytes msgId
  [0x02] ++
    if msgId ≤ 0x7F then 1 :: bytes.drop 3
    else if msgId ≤ 0xFF then 2 :: 0 :: bytes.drop 3
    else if msgId ≤ 0x7FFF then 2 :: bytes.drop 2
    else if msgId ≤ 0xFFFF then 3 :: 0 :: bytes.drop 2
    else if msgId ≤ 0x7FFFFF then 3 :: bytes.drop 1
    else if msgId ≤ 0xFFFFFF then 4 :: 0 :: bytes.drop 1
    else if msgId ≤ 0x7FFFFFFF then 4 :: bytes
    else 5 :: 0 :: bytes

def wrapLdapMessage (msgId : Nat) (opData : Bytes) : Bytes :=
  let msgIdBytes := encodeMessageId msgId
  match encodeBerLength (msgIdBytes.length + opData.length) with
  | some len => [0x30] ++ len ++ msgIdBytes ++ opData
  | none => []

def buildBindResponse (msgId : Nat) : Bytes :=
  let result := [0x0A, 0x01, 0x00, 0x04, 0x00, 0x04, 0x00]
  match encodeBerLength result.length with
  | some len => wrapLdapMessage msgId ([0x61] ++ len ++ result)
  | none => []

def buildSearchResultDone (baseDn : Bytes) (msgId : Nat) : Bytes :=
  if baseDn.length > maxLdapMatchedDnBytes then []
  else
    match encodeBerLength baseDn.length with
    | none => []
    | some dnLen =>
      let result := [0x0A, 0x01, 0x00] ++ [0x04] ++ dnLen ++ baseDn ++ [0x04, 0x00]
      match encodeBerLength result.length with
      | none => []
      | some len =>
        let packet := wrapLdapMessage msgId ([0x65] ++ len ++ result)
        if packet.length > maxLdapMatchedDnBytes then [] else packet

/-- "dc=nettrap,dc=local". -/
def defaultBaseDn : Bytes :=
  [100, 99, 61, 110, 101, 116, 116, 114, 97, 112, 44, 100, 99, 61, 108, 111, 99, 97, 108]

/-- The part of `handle` that looks at the operation. -/
def handleOperation (baseDn data : Bytes) (msgId opOffset opEnd : Nat) : Exec Bytes := do
  let opByte ← item data opOffset
  if opByte == 0x60 then
    if !(← bindRequestIsWellFormed data opOffset opEnd) then
      return []
    let _ ← extractBindDn data opOffset opEnd
    return buildBindResponse msgId
  else if opByte == 0x63 then
    if !(← searchRequestIsWellFormed data opOffset opEnd) then
      return []
    return buildSearchResultDone baseDn msgId
  else
    return []

def handle (baseDn data : Bytes) : Exec Bytes := do
  if data.length < 7 then
    return []
  if (← item data 0) != 0x30 then
    return []
  let some (msgId, opOffset, seqEnd) ← parseMessageId data | return []
  if seqEnd != data.length then
    return []
  if opOffset ≥ seqEnd then
    return []
  let some opEnd ← operationEnd data opOffset seqEnd | return []
  if !(← messageTailIsValid data opEnd seqEnd) then
    return []
  handleOperation baseDn data msgId opOffset opEnd

end NetTrap.Ldap
