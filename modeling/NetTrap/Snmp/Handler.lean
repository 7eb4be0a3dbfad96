import NetTrap.Rust.BerDecoding

/-! SNMP requests, read twice: by the handler that answers them, and by the detector that
guesses the protocol of a datagram. Each has its own BER decoder.
-/

namespace NetTrap.Snmp

open Access Rust

def maxSnmpCommunityBytes : Nat := 1024

/-- Reads an element with a given tag, and returns its value and the position behind it. -/
def readTlvWith (lengthAt : Bytes → Exec (Option (Nat × Nat))) (data : Bytes) (pos limit : Nat)
    (expectedTag : UInt8) : Exec (Option (Bytes × Nat)) := do
  if limit > data.length || pos ≥ limit then
    return none
  if (← item data pos) != expectedTag then
    return none
  let some (start, stop) ← valueBounds lengthAt data (pos + 1) limit | return none
  let value ← slice data start stop
  return some (value, stop)

/-! The handler. -/

namespace Handler

/-- The length and the size of its field, which is zero if there is no valid field. -/
def parseLen (data : Bytes) : Exec (Nat × Nat) := do
  if data.isEmpty then
    return (0, 0)
  let first ← item data 0
  if first &&& 0x80 == 0 then
    return (first.toNat, 1)
  let n := (first &&& 0x7F).toNat
  if n == 0 || n > 4 || n + 1 > data.length then
    return (0, 0)
  if (← item data 1) == 0 then
    return (0, 0)
  let digits ← slice data 1 (n + 1)
  let l := digits.foldl (fun l byte => (l <<< 8) ||| byte.toNat) 0
  if l < 128 then
    return (0, 0)
  return (l, 1 + n)

/-- The result as every caller reads it. -/
def lengthAt (data : Bytes) : Exec (Option (Nat × Nat)) := do
  let (len, lb) ← parseLen data
  return if lb == 0 then none else some (len, lb)

def readTlv : Bytes → (pos limit : Nat) → UInt8 → Exec (Option (Bytes × Nat)) :=
  readTlvWith lengthAt

def isSupportedVersion (version : Bytes) : Bool :=
  version == [0] || version == [1]

def isCanonicalInteger (value : Bytes) : Bool :=
  match value with
  | [] => false
  | [first] => first &&& 0x80 == 0
  | first :: second :: _ =>
    value.length ≤ 4 && !(first == 0 && second &&& 0x80 == 0)
      && !(first == 0xff && second &&& 0x80 != 0)

def isZeroInteger (value : Bytes) : Bool :=
  isCanonicalInteger value && value.all (· == 0)

def isNonnegativeCanonicalInteger (value : Bytes) : Bool :=
  isCanonicalInteger value && value.head?.any (· &&& 0x80 == 0)

/-- What the handler needs of a request. -/
structure Parsed where
  community : Bytes
  pduType : UInt8
  requestId : Bytes
  version : UInt8
  deriving DecidableEq, Repr

/-- The part of `parse_snmp` behind the PDU's length: the request identifier of a valid PDU. -/
def parsePdu (pduType : UInt8) (pdu : Bytes) : Exec (Option Bytes) := do
  let some (requestId, pduPos) ← readTlv pdu 0 pdu.length 0x02 | return none
  if !isCanonicalInteger requestId then
    return none
  let some (errorStatus, pduPos) ← readTlv pdu pduPos pdu.length 0x02 | return none
  let some (errorIndex, pduPos) ← readTlv pdu pduPos pdu.length 0x02 | return none
  if pduType != 0x05 && (!isZeroInteger errorStatus || !isZeroInteger errorIndex) then
    return none
  if pduType == 0x05
      && (!isNonnegativeCanonicalInteger errorStatus
          || !isNonnegativeCanonicalInteger errorIndex) then
    return none
  let some (_, pduPos) ← readTlv pdu pduPos pdu.length 0x30 | return none
  if pduPos != pdu.length then
    return none
  return some requestId

def parseSnmp (data : Bytes) : Exec (Option Parsed) := do
  let some (message, pos) ← readTlv data 0 data.length 0x30 | return none
  if pos != data.length then
    return none
  let some (version, msgPos) ← readTlv message 0 message.length 0x02 | return none
  if !isSupportedVersion version then
    return none
  let versionByte ← item version 0
  let some (community, msgPos) ← readTlv message msgPos message.length 0x04 | return none
  if community.length > maxSnmpCommunityBytes then
    return none
  let some pduTag := message[msgPos]? | return none
  if !([0xA0, 0xA1, 0xA3, 0xA5].contains pduTag) then
    return none
  let pduType := pduTag &&& 0x1F
  if pduType == 0x05 && versionByte == 0x00 then
    return none
  let some (msgPos, pduEnd) ← valueBounds lengthAt message (msgPos + 1) message.length | return none
  let pdu ← slice message msgPos pduEnd
  if pduEnd != message.length then
    return none
  let some requestId ← parsePdu pduType pdu | return none
  return some ⟨community, pduType, requestId, versionByte⟩

/-- `usize::to_be_bytes`. -/
def toBeBytes (value : Nat) : Bytes :=
  [7, 6, 5, 4, 3, 2, 1, 0].map fun place => UInt8.ofNat (value / 256 ^ place)

def berEncodeLength (len : Nat) : Bytes :=
  let bytes := toBeBytes len
  if len < 128 then bytes.drop 7
  else
    let payload := bytes.drop ((bytes.findIdx? (· != 0)).getD 7)
    (0x80 ||| UInt8.ofNat payload.length) :: payload

/-- "NetTrap SNMP Honeypot". -/
def sysDescr : Bytes :=
  [78, 101, 116, 84, 114, 97, 112, 32, 83, 78, 77, 80, 32, 72, 111, 110, 101, 121, 112, 111, 116]

def oid : Bytes :=
  [0x06, 0x08, 0x2b, 0x06, 0x01, 0x02, 0x01, 0x01, 0x01, 0x00]

def buildGetResponse (community requestId : Bytes) (version : UInt8) : Bytes :=
  let varbind := oid ++ [0x04] ++ berEncodeLength sysDescr.length ++ sysDescr
  let varbindSeq := [0x30] ++ berEncodeLength varbind.length ++ varbind
  let varbindList := [0x30] ++ berEncodeLength varbindSeq.length ++ varbindSeq
  let pdu := [0x02] ++ berEncodeLength requestId.length ++ requestId ++ [0x02, 0x01, 0x00]
    ++ [0x02, 0x01, 0x00] ++ varbindList
  let pduWrapped := [0xA2] ++ berEncodeLength pdu.length ++ pdu
  let msg := [0x02, 0x01, version] ++ [0x04] ++ berEncodeLength community.length ++ community
    ++ pduWrapped
  [0x30] ++ berEncodeLength msg.length ++ msg

def handle (data : Bytes) : Exec Bytes := do
  if data.length < 10 then
    return []
  if (← item data 0) != 0x30 then
    return []
  let some request ← parseSnmp data | return []
  match request.pduType with
  | 0 | 1 | 5 | 3 => return buildGetResponse request.community request.requestId request.version
  | _ => return []

end Handler

/-! The detector. -/

namespace Detector

def berLength : Bytes → Exec (Option (Nat × Nat)) :=
  decodeBerLength fun _ => true

def readBerTlv : Bytes → (pos limit : Nat) → UInt8 → Exec (Option (Bytes × Nat)) :=
  readTlvWith berLength

def zeroIntegerIsValid (value : Bytes) : Bool :=
  value == [0]

def canonicalIntegerIsValid (value : Bytes) : Bool :=
  match value with
  | [] => false
  | [first] => first &&& 0x80 == 0
  | first :: second :: _ =>
    value.length ≤ 4 && !(first == 0 && second &&& 0x80 == 0)
      && !(first == 0xff && second &&& 0x80 != 0)

def nonnegativeCanonicalIntegerIsValid (value : Bytes) : Bool :=
  canonicalIntegerIsValid value && value.head?.any (· &&& 0x80 == 0)

/-- The check of an error field, which a bulk request uses for something else. -/
def errorFieldIsValid (pduTag : UInt8) (value : Bytes) : Bool :=
  if pduTag != 0xa5 then zeroIntegerIsValid value else nonnegativeCanonicalIntegerIsValid value

/-- The part of `looks_like_snmp_request` behind the PDU's length. -/
def looksLikePdu (pduTag : UInt8) (pdu : Bytes) : Exec Bool := do
  let some (requestId, pduPos) ← readBerTlv pdu 0 pdu.length 0x02 | return false
  if !canonicalIntegerIsValid requestId then
    return false
  let some (errorStatus, pduPos) ← readBerTlv pdu pduPos pdu.length 0x02 | return false
  if !errorFieldIsValid pduTag errorStatus then
    return false
  let some (errorIndex, pduPos) ← readBerTlv pdu pduPos pdu.length 0x02 | return false
  if !errorFieldIsValid pduTag errorIndex then
    return false
  let some (_, pduPos) ← readBerTlv pdu pduPos pdu.length 0x30 | return false
  return pduPos == pdu.length

def looksLikeSnmpRequest (data : Bytes) : Exec Bool := do
  if data.length < 10 then
    return false
  if (← item data 0) != 0x30 then
    return false
  let some (message, pos) ← readBerTlv data 0 data.length 0x30 | return false
  if pos != data.length then
    return false
  let some (version, msgPos) ← readBerTlv message 0 message.length 0x02 | return false
  if !(version == [0] || version == [1]) then
    return false
  let some (community, msgPos) ← readBerTlv message msgPos message.length 0x04 | return false
  if community.length > maxSnmpCommunityBytes then
    return false
  let some pduTag := message[msgPos]? | return false
  if !([0xa0, 0xa1, 0xa3, 0xa5].contains pduTag) then
    return false
  if pduTag == 0xa5 && version == [0] then
    return false
  let some (msgPos, pduEnd) ← valueBounds berLength message (msgPos + 1) message.length
    | return false
  let pdu ← slice message msgPos pduEnd
  if pduEnd != message.length then
    return false
  looksLikePdu pduTag pdu

end Detector

/-! The two decoders of SNMP read the same elements: each of them is the reader of BER
elements at the position it has reached.
-/

open Ber

/-- No length of four octets is too large for either decoder. -/
def anyLength : Nat := 256 ^ 4 - 1

theorem anyLength_lt : anyLength < 256 ^ 4 := by
  decide

theorem Detector.berLength_reads : ReadsLength anyLength Detector.berLength := by
  apply decodeBerLength_reads (by decide)
  intro len small
  simp [anyLength]
  omega

theorem Handler.lengthAt_reads : ReadsLength anyLength Handler.lengthAt := by
  refine readsLength_iff.mpr fun data => ?_
  cases lengthView data with
  | empty => rfl
  | @short first rest low =>
    have fits : first.toNat ≤ anyLength := low.le.trans (by decide)
    simp [Handler.lengthAt, Handler.parseLen, highBit_eq_zero, low, readField_short low, fits]
  | broken high count =>
    rw [readField_broken high count]
    simp only [Handler.lengthAt, Handler.parseLen, List.isEmpty_cons, item_cons_zero,
      Exec.done_bind, highBit_eq_zero, toNat_lowBits, decide_eq_true_eq, if_neg high]
    rw [if_neg (by simp), if_pos (by simp; omega)]
    rfl
  | @long first second digits rest high count few =>
    have fits : bigEndian (second :: digits) ≤ anyLength :=
      Nat.le_sub_one_of_lt (bigEndian_small few second)
    simp only [Handler.lengthAt, Handler.parseLen, List.isEmpty_cons, item_cons_zero,
      item_cons_succ, Exec.done_bind, highBit_eq_zero, toNat_lowBits, decide_eq_true_eq,
      if_neg high, count, Nat.add_comm 1, slice_octets, foldl_octets,
      readField_long high count few]
    rw [if_neg (by simp), if_neg (by simp; omega)]
    by_cases zero : second = 0
    · simp [zero]
    · by_cases low : bigEndian (second :: digits) < 128
      · simp [zero, low]
      · simp [zero, low, fits]

/-- What one read of a decoder finds, and where it leaves the cursor. -/
theorem readTlvWith_finds {lengthAt data tail pos} (reads : ReadsLength anyLength lengthAt)
    (cursor : Cursor data pos tail) (low : pos ≤ 256 ^ 4) (tag : UInt8)
    : (readTlvWith lengthAt data pos data.length tag).Finds (readTlv anyLength tag tail)
        fun found read => ∃ pos, found = (read.1, pos) ∧ Cursor data pos read.2 := by
  cases tail with
  | nil =>
    have atEnd := cursor.eq_length_iff.mpr rfl
    exact .inl ⟨by simp [readTlvWith, atEnd], rfl⟩
  | cons first tail =>
    have inside : ¬ data.length ≤ pos := Nat.not_le.mpr (cursor.lt_length_iff.mpr nofun)
    have enter : ¬ (decide (data.length > data.length) || decide (pos ≥ data.length)) = true := by
      simpa using inside
    simp only [readTlvWith, if_neg enter, cursor.item, Exec.done_bind, readTlv]
    by_cases tagged : first = tag
    swap
    · simpa [tagged] using .nothing
    have next : Cursor (data.take data.length) (pos + 1) tail := by
      rw [List.take_length]
      exact cursor.next
    rw [if_neg (by simpa using tagged), if_pos tagged, ← Option.bind_fun_some (readValue _ _)]
    refine (valueBounds_finds reads anyLength_lt (Nat.le_refl _) next (by omega)).bind rfl ?_
    rintro _ ⟨value, rest⟩ - ⟨start, rfl, behind⟩
    rw [List.take_length] at behind
    dsimp only
    rw [behind.slice]
    exact .something ⟨_, rfl, behind.advance⟩

end NetTrap.Snmp
