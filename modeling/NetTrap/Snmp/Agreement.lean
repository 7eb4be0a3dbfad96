import NetTrap.Snmp.Handler

/-! One grammar of SNMP requests behind the detector, the parser and the encoder. -/

namespace NetTrap.Snmp

open Access Access.Exec Rust Exec Handler Detector Ber List Option

/-- The fields of a request message. -/
structure Request where
  (version community : Bytes)
  pduTag : UInt8
  (requestId errorStatus errorIndex varbinds : Bytes)
  deriving DecidableEq, Repr

namespace Request

def pdu (request : Request) : Bytes :=
  Ber.tlv 0x02 request.requestId ++ (Ber.tlv 0x02 request.errorStatus
    ++ (Ber.tlv 0x02 request.errorIndex ++ Ber.tlv 0x30 request.varbinds))

def message (request : Request) : Bytes :=
  Ber.tlv 0x02 request.version
    ++ (Ber.tlv 0x04 request.community ++ Ber.tlv request.pduTag request.pdu)

/-- A request on the wire: elements nested in elements, with nothing behind any of them. -/
def encode (request : Request) : Bytes :=
  Ber.tlv 0x30 request.message

/-- The values a request may have; a bulk request has counts in the place of its errors and
does not exist in version one.
-/
structure Valid (request : Request) : Prop where
  version : request.version = [0] ∨ request.version = [1]
  community : request.community.length ≤ maxSnmpCommunityBytes
  tag : request.pduTag ∈ [0xa0, 0xa1, 0xa3, 0xa5]
  bulk : ¬ (request.pduTag = 0xa5 ∧ request.version = [0])
  requestId : Detector.canonicalIntegerIsValid request.requestId
  errorStatus : Detector.errorFieldIsValid request.pduTag request.errorStatus
  errorIndex : Detector.errorFieldIsValid request.pduTag request.errorIndex

end Request

/-- The PDU of a request with the given head, read element by element. -/
def readPdu (version community : Bytes) (pduTag : UInt8) (pdu : Bytes) : Option Request :=
  (Ber.readTlv anyLength 0x02 pdu).bind fun (requestId, pdu) =>
  if ¬ Detector.canonicalIntegerIsValid requestId then none else
  (Ber.readTlv anyLength 0x02 pdu).bind fun (errorStatus, pdu) =>
  if ¬ Detector.errorFieldIsValid pduTag errorStatus then none else
  (Ber.readTlv anyLength 0x02 pdu).bind fun (errorIndex, pdu) =>
  if ¬ Detector.errorFieldIsValid pduTag errorIndex then none else
  (Ber.readTlv anyLength 0x30 pdu).bind fun (varbinds, rest) =>
  if ¬ rest = [] then none else
  some { version, community, pduTag, requestId, errorStatus, errorIndex, varbinds }

/-- A request, read element by element. -/
def readRequest (data : Bytes) : Option Request :=
  (Ber.readTlv anyLength 0x30 data).bind fun (message, rest) =>
  if ¬ rest = [] then none else
  (Ber.readTlv anyLength 0x02 message).bind fun (version, message) =>
  if ¬ (version = [0] ∨ version = [1]) then none else
  (Ber.readTlv anyLength 0x04 message).bind fun (community, message) =>
  if ¬ community.length ≤ maxSnmpCommunityBytes then none else
  message.head?.bind fun pduTag =>
  if ¬ (pduTag ∈ [0xa0, 0xa1, 0xa3, 0xa5] ∧ ¬ (pduTag = 0xa5 ∧ version = [0])) then none else
  (Ber.readTlv anyLength pduTag message).bind fun (pdu, rest) =>
  if ¬ rest = [] then none else readPdu version community pduTag pdu

variable {request : Request}

theorem readPdu_pdu (valid : request.Valid) (small : request.pdu.length ≤ anyLength)
    : readPdu request.version request.community request.pduTag request.pdu = some request := by
  simp only [Request.pdu, length_append] at small
  have requestId : request.requestId.length ≤ anyLength := by
    have := length_add_two_le_tlv 0x02 request.requestId
    omega
  have errorStatus : request.errorStatus.length ≤ anyLength := by
    have := length_add_two_le_tlv 0x02 request.errorStatus
    omega
  have errorIndex : request.errorIndex.length ≤ anyLength := by
    have := length_add_two_le_tlv 0x02 request.errorIndex
    omega
  have varbinds : request.varbinds.length ≤ anyLength := by
    have := length_add_two_le_tlv 0x30 request.varbinds
    omega
  simp [readPdu, Request.pdu, readTlv_tlv anyLength_lt requestId,
    readTlv_tlv anyLength_lt errorStatus, readTlv_tlv anyLength_lt errorIndex,
    readTlv_last anyLength_lt varbinds, valid.requestId, valid.errorStatus, valid.errorIndex]

/-- Reading accepts exactly the encodings of valid requests, up to the size of a length. -/
theorem readRequest_eq_some {data}
    : readRequest data = some request
      ↔ request.Valid ∧ data = request.encode ∧ request.message.length ≤ anyLength := by
  constructor
  · intro read
    simp only [readRequest, readPdu, bind_eq_some_iff, Prod.exists,
      readTlv_eq_some anyLength_lt, ite_none_left_eq_some, not_not, some.injEq] at read
    obtain ⟨message, _, ⟨rfl, small⟩, rfl, version, _, ⟨rfl, -⟩, supported, community, _, ⟨rfl, -⟩,
      short, pduTag, -, ⟨tag, bulk⟩, pdu, _, ⟨rfl, -⟩, rfl, requestId, _, ⟨rfl, -⟩, idValid,
      errorStatus, _, ⟨rfl, -⟩, statusValid, errorIndex, _, ⟨rfl, -⟩, indexValid, varbinds, _,
      ⟨rfl, -⟩, rfl, rfl⟩ := read
    refine ⟨⟨supported, short, tag, bulk, idValid, statusValid, indexValid⟩, ?_, ?_⟩
    · simp only [Request.encode, Request.message, Request.pdu, append_nil]
    · simpa only [Request.message, Request.pdu, append_nil] using small
  · rintro ⟨valid, rfl, small⟩
    have sizes := small
    simp only [Request.message, length_append] at sizes
    have version : request.version.length ≤ anyLength := by
      have := length_add_two_le_tlv 0x02 request.version
      omega
    have community : request.community.length ≤ anyLength := by
      have := length_add_two_le_tlv 0x04 request.community
      omega
    have pdu : request.pdu.length ≤ anyLength := by
      have := length_add_two_le_tlv request.pduTag request.pdu
      omega
    have head : (tlv request.pduTag request.pdu).head? = some request.pduTag := rfl
    have message : Ber.readTlv anyLength 0x02 request.message = some (request.version, _) :=
      readTlv_tlv anyLength_lt version _
    simp only [readRequest, Request.encode, readTlv_last anyLength_lt small, message,
      readTlv_tlv anyLength_lt community, head, readTlv_last anyLength_lt pdu,
      readPdu_pdu valid pdu, bind_some, not_true_eq_false, if_false, valid.version,
      valid.community, valid.tag, valid.bulk, not_false_eq_true, and_self]

/-- What the handler keeps of a request. -/
def Request.parsed (request : Request) : Handler.Parsed :=
  { community := request.community
    pduType := request.pduTag &&& 0x1f
    requestId := request.requestId
    version := request.version.headD 0 }

theorem ten_le_length_encode (request : Request) : 10 ≤ request.encode.length := by
  have version := length_add_two_le_tlv 0x02 request.version
  have community := length_add_two_le_tlv 0x04 request.community
  have pdu := length_add_two_le_tlv request.pduTag request.pdu
  have requestId := length_add_two_le_tlv 0x02 request.requestId
  have message := length_add_two_le_tlv 0x30 request.message
  simp only [Request.encode]
  simp only [Request.message, Request.pdu, length_append] at *
  omega

/-- A canonical integer whose octets are zero has one octet. -/
theorem Handler.isZeroInteger_eq (value : Bytes)
    : isZeroInteger value = zeroIntegerIsValid value := by
  rw [isZeroInteger, zeroIntegerIsValid, Bool.eq_iff_iff]
  match value with
  | [] => decide
  | [first] =>
    simp only [isCanonicalInteger, all_cons, all_nil, Bool.and_true,
      Bool.and_eq_true, beq_iff_eq, cons.injEq, and_true]
    constructor
    · exact And.right
    · rintro rfl
      decide
  | first :: second :: rest =>
    simp only [isCanonicalInteger, all_cons, Bool.and_eq_true, beq_iff_eq]
    constructor
    · rintro ⟨⟨⟨-, padded⟩, -⟩, rfl, rfl, -⟩
      exact absurd padded (by decide)
    · exact nofun

variable {pduTag : UInt8}

/-- The handler knows a bulk request by the low bits of its tag. -/
theorem bulkType_iff (tag : pduTag ∈ [0xa0, 0xa1, 0xa3, 0xa5])
    : pduTag &&& 0x1f = 0x05 ↔ pduTag = 0xa5 := by
  simp only [mem_cons, not_mem_nil, or_false] at tag
  rcases tag with rfl | rfl | rfl | rfl
  · decide
  · decide
  · decide
  · decide

/-- The two error fields, checked together by type or one by one by tag. -/
theorem errorFields_iff (tag : pduTag ∈ [0xa0, 0xa1, 0xa3, 0xa5]) (errorStatus errorIndex : Bytes)
    : (errorFieldIsValid pduTag errorStatus ∧ errorFieldIsValid pduTag errorIndex)
      ↔ ¬ (pduTag &&& 0x1f != 0x05 && (!isZeroInteger errorStatus
            || !isZeroInteger errorIndex)) = true
        ∧ ¬ (pduTag &&& 0x1f == 0x05 && (!isNonnegativeCanonicalInteger errorStatus
            || !isNonnegativeCanonicalInteger errorIndex)) = true := by
  have nonnegative (value : Bytes) : isNonnegativeCanonicalInteger value
      = nonnegativeCanonicalIntegerIsValid value := rfl
  have type := bulkType_iff tag
  by_cases bulk : pduTag = 0xa5
  · rw [type.mpr bulk]
    simp [errorFieldIsValid, nonnegative, bulk]
  · simp [errorFieldIsValid, isZeroInteger_eq, type, bulk]

section Steps

variable {β γ : Type} {view : Option γ → β} {lengthAt : Bytes → Exec (Option (Nat × Nat))}
  {message tail : Bytes} {pos : Nat} {behind : Bytes × Bytes → Option γ}

/-- A decoder follows the grammar through an element, if it gives up where there is none and
follows the grammar behind it.
-/
theorem readTlv_step {next}
    (reads : ReadsLength anyLength lengthAt) (cursor : Cursor message pos tail)
    (low : pos ≤ 256 ^ 4) (tag : UInt8) (missing : next none = .done (view none))
    (found : ∀ value rest pos, Cursor message pos rest → value.length < 256 ^ 4
      → next (some (value, pos)) = .done (view (behind (value, rest))))
    : (readTlvWith lengthAt message pos message.length tag >>= next)
      = .done (view ((Ber.readTlv anyLength tag tail).bind behind)) := by
  refine (readTlvWith_finds reads cursor low tag).step missing ?_
  rintro _ ⟨value, rest⟩ read ⟨pos, rfl, after⟩
  have short := ((readTlv_eq_some anyLength_lt).mp read).2
  exact found value rest pos after (short.trans_lt anyLength_lt)

/-- The same for the value of the PDU behind its tag. -/
theorem readValue_step {tag next}
    (reads : ReadsLength anyLength lengthAt)
    (small : message.length < 256 ^ 4) (cursor : Cursor message pos (tag :: tail))
    (missing : next none = .done (view none))
    (found : ∀ pdu rest start stop, slice message start stop = .done pdu
      → (stop = message.length ↔ rest = []) → pdu.length < 256 ^ 4
      → next (some (start, stop)) = .done (view (behind (pdu, rest))))
    : (valueBounds lengthAt message (pos + 1) message.length >>= next)
      = .done (view ((Ber.readTlv anyLength tag (tag :: tail)).bind behind)) := by
  have after : Cursor (message.take message.length) (pos + 1) tail := by
    rw [take_length]
    exact cursor.next
  have low := cursor.next.inside
  rw [Ber.readTlv, if_pos rfl]
  refine (valueBounds_finds reads anyLength_lt (Nat.le_refl _) after (by omega)).step missing ?_
  rintro _ ⟨pdu, rest⟩ read ⟨start, rfl, last⟩
  rw [take_length] at last
  have short := ((readValue_eq_some anyLength_lt).mp read).2
  exact found pdu rest start _ last.slice last.advance.eq_length_iff (short.trans_lt anyLength_lt)

end Steps

section Pdu

variable {pdu : Bytes} (small : pdu.length < 256 ^ 4)
include small

theorem Detector.looksLikePdu_eq (version community : Bytes) (pduTag : UInt8)
    : looksLikePdu pduTag pdu = .done (readPdu version community pduTag pdu).isSome := by
  have reads := berLength_reads
  rw [looksLikePdu, readPdu]
  refine readTlv_step reads (.start pdu) (Nat.zero_le _) _ rfl fun requestId _ _ behind _ => ?_
  refine guard_step (by simp) rfl fun _ => ?_
  refine readTlv_step reads behind (behind.inside.trans small.le) _ rfl
    fun errorStatus _ _ behind _ => ?_
  refine guard_step (by simp) rfl fun _ => ?_
  refine readTlv_step reads behind (behind.inside.trans small.le) _ rfl
    fun errorIndex _ _ behind _ => ?_
  refine guard_step (by simp) rfl fun _ => ?_
  refine readTlv_step reads behind (behind.inside.trans small.le) _ rfl
    fun varbinds rest _ behind _ => ?_
  by_cases only : rest = []
  · simp [only, behind.eq_length_iff.mpr only]
  · simp [only, behind.eq_length_iff]

theorem Handler.parsePdu_eq (version community : Bytes) {pduTag}
    (tag : pduTag ∈ [0xa0, 0xa1, 0xa3, 0xa5])
    : parsePdu (pduTag &&& 0x1f) pdu
      = .done ((readPdu version community pduTag pdu).map Request.requestId) := by
  have reads := lengthAt_reads
  have canonical (value : Bytes)
      : isCanonicalInteger value = canonicalIntegerIsValid value := rfl
  rw [parsePdu, readPdu]
  refine readTlv_step reads (.start pdu) (Nat.zero_le _) _ rfl fun requestId _ _ behind _ => ?_
  refine guard_step (by simp [canonical]) rfl fun _ => ?_
  refine readTlv_step reads behind (behind.inside.trans small.le) _ rfl
    fun errorStatus rest _ behind _ => ?_
  -- The handler reads the second error field before it checks the first one.
  have later {behind : Bytes × Bytes → Option Request}
      : (if ¬ errorFieldIsValid pduTag errorStatus then none
          else (Ber.readTlv anyLength 0x02 rest).bind behind)
        = (Ber.readTlv anyLength 0x02 rest).bind fun read =>
            if ¬ errorFieldIsValid pduTag errorStatus then none else behind read := by
    cases Ber.readTlv anyLength 0x02 rest <;> simp
  dsimp only
  rw [later]
  refine readTlv_step reads behind (behind.inside.trans small.le) _ rfl
    fun errorIndex _ _ behind _ => ?_
  have fields := errorFields_iff tag errorStatus errorIndex
  simp only [← ite_or, ← not_and_or]
  refine guard_step (by rw [fields, not_and_or, not_not, not_not]) rfl fun _ => ?_
  refine readTlv_step reads behind (behind.inside.trans small.le) _ rfl
    fun varbinds _ _ behind _ => ?_
  exact guard_step (by simp [behind.eq_length_iff]) rfl fun _ => rfl

end Pdu

theorem Detector.looksLikeSnmpRequest_eq (data : Bytes)
    : looksLikeSnmpRequest data = .done (readRequest data).isSome := by
  have reads := berLength_reads
  rw [looksLikeSnmpRequest]
  by_cases short : data.length < 10
  · cases read : readRequest data with
    | none => simp [short]
    | some request =>
      obtain ⟨-, rfl, -⟩ := readRequest_eq_some.mp read
      exact absurd (ten_le_length_encode request) (by omega)
  rw [if_neg short]
  obtain ⟨first, rest, rfl⟩ := exists_cons_of_length_pos (show 0 < data.length by omega)
  by_cases sequence : first = 0x30
  swap
  · simp [sequence, readRequest, Ber.readTlv]
  rw [item_cons_zero, done_bind, if_neg (by simpa using sequence), readRequest]
  generalize first :: rest = data
  refine readTlv_step reads (.start _) (Nat.zero_le _) _ rfl fun message _ _ behind small => ?_
  refine guard_step (by simp [behind.eq_length_iff]) rfl fun _ => ?_
  refine readTlv_step reads (.start message) (Nat.zero_le _) _ rfl fun version _ _ behind _ => ?_
  refine guard_step (by simp) rfl fun supported => ?_
  refine readTlv_step reads behind (behind.inside.trans small.le) _ rfl
    fun community rest _ behind _ => ?_
  refine guard_step (by simp) rfl fun _ => ?_
  rw [behind.getElem?]
  cases rest with
  | nil => rfl
  | cons pduTag rest =>
    simp only [head?_cons, bind_some, ← ite_or]
    refine guard_step (by simp [or_iff_not_imp_left]) rfl fun _ => ?_
    refine readValue_step reads small behind rfl fun pdu rest start stop taken last small => ?_
    dsimp only
    rw [taken, done_bind]
    refine guard_step (by simp [last]) rfl fun _ => ?_
    exact looksLikePdu_eq small version community pduTag

theorem head_of_readPdu {version community pdu}
    (read : readPdu version community pduTag pdu = some request)
    : request.version = version ∧ request.community = community ∧ request.pduTag = pduTag := by
  simp only [readPdu, bind_eq_some_iff, ite_none_left_eq_some, some.injEq] at read
  obtain ⟨_, -, -, _, -, -, _, -, -, _, -, -, rfl⟩ := read
  exact ⟨rfl, rfl, rfl⟩

theorem Handler.parseSnmp_eq (data : Bytes)
    : parseSnmp data = .done ((readRequest data).map Request.parsed) := by
  have reads := lengthAt_reads
  rw [parseSnmp, readRequest]
  refine readTlv_step reads (.start _) (Nat.zero_le _) _ rfl fun message _ _ behind small => ?_
  refine guard_step (by simp [behind.eq_length_iff]) rfl fun _ => ?_
  refine readTlv_step reads (.start message) (Nat.zero_le _) _ rfl fun version _ _ behind _ => ?_
  refine guard_step (by simp [isSupportedVersion]) rfl fun supported => ?_
  have versionByte : item version 0 = .done (version.headD 0)
      ∧ (version.headD 0 = 0 ↔ version = [0]) := by
    rcases supported with rfl | rfl
    · exact ⟨rfl, by decide⟩
    · exact ⟨rfl, by decide⟩
  rw [versionByte.1, done_bind]
  refine readTlv_step reads behind (behind.inside.trans small.le) _ rfl
    fun community rest _ behind _ => ?_
  refine guard_step (by simp) rfl fun _ => ?_
  rw [behind.getElem?]
  cases rest with
  | nil => rfl
  | cons pduTag rest =>
    simp only [head?_cons, bind_some]
    by_cases tag : pduTag ∈ [0xa0, 0xa1, 0xa3, 0xa5]
    swap
    · simp [tag]
    rw [if_neg (by simpa [or_iff_not_imp_left] using tag)]
    refine guard_step ?_ rfl fun _ => ?_
    · rw [Bool.and_eq_true, beq_iff_eq, beq_iff_eq, bulkType_iff tag, versionByte.2]
      tauto
    refine readValue_step reads small behind rfl fun pdu rest start stop taken last small => ?_
    dsimp only
    rw [taken, done_bind]
    refine guard_step (by simp [last]) rfl fun _ => ?_
    rw [parsePdu_eq small version community tag, done_bind]
    cases read : readPdu version community pduTag pdu with
    | none => rfl
    | some request =>
      obtain ⟨rfl, rfl, rfl⟩ := head_of_readPdu read
      rfl

/-- The handler answers a request it can read, and nothing else. -/
theorem Handler.handle_eq (data : Bytes)
    : handle data = .done (match readRequest data with
        | some request =>
          buildGetResponse request.community request.requestId (request.version.headD 0)
        | none => []) := by
  cases read : readRequest data with
  | none =>
    simp only [handle, parseSnmp_eq, read, map_none, done_bind, pure_eq]
    split
    · rfl
    · next long =>
      rw [item_of_lt (show 0 < data.length by omega), done_bind]
      split
      · rfl
      · rfl
  | some request =>
    obtain ⟨valid, rfl, -⟩ := readRequest_eq_some.mp read
    have long := ten_le_length_encode request
    have first : item request.encode 0 = .done 0x30 := rfl
    simp only [handle, parseSnmp_eq, read, map_some, done_bind, pure_eq, first]
    rw [if_neg (by omega), if_neg (by decide)]
    have tag := valid.tag
    simp only [mem_cons, not_mem_nil, or_false] at tag
    rcases tag with tag | tag | tag | tag
    all_goals
      simp only [Request.parsed, tag]
      rfl

theorem bigEndian_toBeBytes {value} (small : value < 2 ^ 64)
    : bigEndian (toBeBytes value) = value := by
  simp [bigEndian, toBeBytes, shift_or]
  omega

theorem Handler.berEncodeLength_eq {len} (small : len < 2 ^ 64)
    : berEncodeLength len = lengthField len := by
  simp only [berEncodeLength, lengthField]
  split
  · simp [toBeBytes]
  · next long =>
    have value := bigEndian_toBeBytes small
    have digits := octets_bigEndian_drop (show bigEndian (toBeBytes len) ≠ 0 by omega) 7
    rw [← digits, value]
    have few : (octets len).length ≤ 8 := length_octets_le small
    have first : ∀ count ≤ 8, (0x80 : UInt8) ||| UInt8.ofNat count = UInt8.ofNat (128 + count) := by
      decide
    rw [first _ few]

/-- The one variable of each answer. -/
def responseVarbind : Bytes :=
  Ber.tlv 0x30
    (Ber.tlv 0x06 [0x2b, 0x06, 0x01, 0x02, 0x01, 0x01, 0x01, 0x00] ++ Ber.tlv 0x04 Handler.sysDescr)

/-- The message that answers a request: its version, community and identifier, no error, and
one variable.
-/
def Request.response (request : Request) : Request :=
  { version := request.version
    community := request.community
    pduTag := 0xa2
    requestId := request.requestId
    errorStatus := [0]
    errorIndex := [0]
    varbinds := responseVarbind }

theorem responseVarbind_written
    : (let varbind := oid ++ [0x04] ++ berEncodeLength sysDescr.length ++ sysDescr
      let varbindSeq := [0x30] ++ berEncodeLength varbind.length ++ varbind
      [0x30] ++ berEncodeLength varbindSeq.length ++ varbindSeq) = tlv 0x30 responseVarbind := by
  decide

/-- An element as the encoder writes it. -/
theorem element_eq_tlv (tag : UInt8) {value} (small : value.length < 2 ^ 64)
    : [tag] ++ berEncodeLength value.length ++ value = tlv tag value := by
  rw [berEncodeLength_eq small]
  rfl

theorem length_le_of_canonical {value} (canonical : canonicalIntegerIsValid value)
    : value.length ≤ 4 := by
  match value with
  | [] => exact absurd canonical (by decide)
  | [first] => exact Nat.le_add_left 1 3
  | first :: second :: rest =>
    simp only [canonicalIntegerIsValid, Bool.and_eq_true, decide_eq_true_eq] at canonical
    exact canonical.1.1

/-- The encoder writes the response element by element. -/
theorem Handler.buildGetResponse_eq (valid : request.Valid)
    : buildGetResponse request.community request.requestId (request.version.headD 0)
      = request.response.encode := by
  have idSmall := length_le_of_canonical valid.requestId
  have communitySmall : request.community.length ≤ 1024 := valid.community
  have version : [0x02, 0x01, request.version.headD 0] = tlv 0x02 request.version := by
    rcases valid.version with same | same
    · rw [same]
      rfl
    · rw [same]
      rfl
  have pduSize : request.response.pdu.length ≤ 60 := by
    have requestId : (tlv 0x02 request.requestId).length ≤ request.requestId.length + 6 :=
      length_tlv_le (by omega)
    have rest : (tlv 0x02 [0] ++ (tlv 0x02 [0] ++ tlv 0x30 responseVarbind)).length = 43 := rfl
    have shape : request.response.pdu.length = (tlv 0x02 request.requestId).length
        + (tlv 0x02 [0] ++ (tlv 0x02 [0] ++ tlv 0x30 responseVarbind)).length := length_append
    omega
  have messageSize : request.response.message.length < 2 ^ 64 := by
    have community : (tlv 0x04 request.community).length ≤ request.community.length + 6 :=
      length_tlv_le (by omega)
    have pdu : (tlv 0xa2 request.response.pdu).length ≤ request.response.pdu.length + 6 :=
      length_tlv_le (by omega)
    have shape : request.response.message.length = (tlv 0x02 request.version).length
        + ((tlv 0x04 request.community).length + (tlv 0xa2 request.response.pdu).length) := by
      rw [← length_append, ← length_append]
      rfl
    rw [← version] at shape
    simp only [length_cons, length_nil] at shape
    omega
  have pdu : [0x02] ++ berEncodeLength request.requestId.length ++ request.requestId
        ++ [0x02, 0x01, 0x00] ++ [0x02, 0x01, 0x00] ++ tlv 0x30 responseVarbind
      = request.response.pdu := by
    rw [element_eq_tlv 0x02 (by omega), append_assoc, append_assoc]
    rfl
  have message : [0x02, 0x01, request.version.headD 0] ++ [0x04]
        ++ berEncodeLength request.community.length ++ request.community
        ++ tlv 0xa2 request.response.pdu
      = request.response.message := by
    have community := element_eq_tlv 0x04 (show request.community.length < 2 ^ 64 by omega)
    rw [append_assoc, append_assoc, append_assoc, ← append_assoc [0x04],
      ← append_assoc ([0x04] ++ _), community, version]
    rfl
  have wrapped := element_eq_tlv 0xa2 (show request.response.pdu.length < 2 ^ 64 by omega)
  calc buildGetResponse request.community request.requestId (request.version.headD 0)
      = [0x30] ++ berEncodeLength request.response.message.length ++ request.response.message := by
        simp only [buildGetResponse, responseVarbind_written, pdu, wrapped, message]
    _ = request.response.encode := element_eq_tlv 0x30 messageSize

/-- A datagram is taken for an SNMP request exactly if it is answered. The answered datagrams
are the encodings of valid requests, and the answer is the encoding of the response: each
length is that of the value behind it, and nothing follows the outermost element.
Witness: detector and handler both compute `readRequest`.
-/
theorem snmpDetector_iff_answered (data : Bytes)
    : ∃ accepted reply, Detector.looksLikeSnmpRequest data = .done accepted
        ∧ Handler.handle data = .done reply
        ∧ (accepted = true ↔ reply ≠ [])
        ∧ (reply ≠ [] ↔ ∃ request : Request, request.Valid ∧ data = request.encode
          ∧ request.message.length ≤ anyLength ∧ reply = request.response.encode) := by
  refine ⟨_, _, Detector.looksLikeSnmpRequest_eq data, Handler.handle_eq data, ?_⟩
  cases read : readRequest data with
  | none =>
    refine ⟨by simp, ?_⟩
    simp only [ne_eq, not_true_eq_false, false_iff]
    rintro ⟨request, valid, same, small, -⟩
    rw [readRequest_eq_some.mpr ⟨valid, same, small⟩] at read
    cases read
  | some request =>
    obtain ⟨valid, same, small⟩ := readRequest_eq_some.mp read
    have answer := Handler.buildGetResponse_eq valid
    have nonempty : request.response.encode ≠ [] := List.cons_ne_nil _ _
    simp only [answer]
    exact ⟨by simp [nonempty], fun _ => ⟨request, valid, same, small, rfl⟩, fun _ => nonempty⟩

end NetTrap.Snmp
