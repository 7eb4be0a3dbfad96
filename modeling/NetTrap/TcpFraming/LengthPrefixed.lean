import NetTrap.TcpFraming.Basic

/-! Framers whose header holds the frame length at a fixed place: DNS over TCP, TLS
records, SSH packets, MySQL packets and TPKT (RDP).
Each header decides once enough of it has arrived, whatever follows.
-/

namespace NetTrap.TcpFraming

open Access Framing Rust

/-! The framers. -/

def extractLengthPrefixedFrame (buffer : Bytes) : Exec (Option Bytes × Bytes) := do
  if buffer.length < 2 then
    return (none, buffer)
  let declaredLen := u16FromBeBytes (← item buffer 0) (← item buffer 1)
  let totalLen := 2 + declaredLen
  if buffer.length < totalLen then
    return (none, buffer)
  someFrame buffer totalLen

def hasTlsRecordPrefix (buffer : Bytes) : Bool :=
  if _ : buffer.length ≥ 2 then buffer[0] == 0x16 && buffer[1] == 0x03 else false

def hasSupportedTlsRecordHeader (buffer : Bytes) : Bool :=
  hasTlsRecordPrefix buffer
    && if _ : buffer.length ≥ 3 then (0x01 : UInt8) ≤ buffer[2] && buffer[2] ≤ 0x04 else false

def isTlsClientHello (buffer : Bytes) : Bool :=
  if _ : buffer.length ≥ 6 then
    hasSupportedTlsRecordHeader buffer && u16FromBeBytes buffer[3] buffer[4] ≥ 4
      && buffer[5] == 0x01
  else false

def buildTlsAlertDecodeError : Bytes :=
  [21, 0x03, 0x03, 0x00, 0x02, 0x02, 50]

def extractTlsFrame (buffer : Bytes) : Exec (TcpFrameResult × Bytes) := do
  if buffer.length < 5 then
    return (.incomplete, buffer)
  if !hasTlsRecordPrefix buffer then
    return (.invalid none, buffer)
  if !hasSupportedTlsRecordHeader buffer then
    return (.invalid (some buildTlsAlertDecodeError), [])
  let recordLen := u16FromBeBytes (← item buffer 3) (← item buffer 4)
  let totalLen := 5 + recordLen
  if recordLen < 4 then
    return (.invalid (some buildTlsAlertDecodeError), [])
  if totalLen > maxTlsRecordSize then
    return (.tooLarge (some buildTlsAlertDecodeError), [])
  if buffer.length < totalLen then
    return (.incomplete, buffer)
  completeFrame buffer totalLen

def extractSshPayloadFrame (buffer : Bytes) : Exec (TcpFrameResult × Bytes) := do
  if buffer.length < 5 then
    return (.incomplete, buffer)
  let packetLen :=
    u32FromBeBytes (← item buffer 0) (← item buffer 1) (← item buffer 2) (← item buffer 3)
  if packetLen < 5 then
    return (.invalid none, [])
  let some totalLen := checkedAdd 4 packetLen | return (.tooLarge none, [])
  if totalLen > maxSshPacketSize then
    return (.tooLarge none, [])
  if buffer.length < totalLen then
    return (.incomplete, buffer)
  completeFrame buffer totalLen

def extractMysqlFrame (buffer : Bytes) : Exec (TcpFrameResult × Bytes) := do
  if buffer.length < 4 then
    return (.incomplete, buffer)
  let payloadLen :=
    (← item buffer 0).toNat ||| ((← item buffer 1).toNat <<< 8)
      ||| ((← item buffer 2).toNat <<< 16)
  let some totalLen := checkedAdd 4 payloadLen | return (.tooLarge none, [])
  if totalLen > maxMysqlFrameSize then
    return (.tooLarge none, [])
  if buffer.length < totalLen then
    return (.incomplete, buffer)
  completeFrame buffer totalLen

def extractRdpFrame (buffer : Bytes) : Exec (TcpFrameResult × Bytes) := do
  if buffer.length < 4 then
    return (.incomplete, buffer)
  if (← item buffer 0) != 0x03 then
    return (.invalid none, buffer)
  if (← item buffer 1) != 0x00 then
    return (.invalid none, [])
  let totalLen := u16FromBeBytes (← item buffer 2) (← item buffer 3)
  if totalLen < 7 then
    return (.invalid none, [])
  if buffer.length < totalLen then
    return (.incomplete, buffer)
  completeFrame buffer totalLen

/-! What each header decides. -/

def dnsDecision : Bytes → Decision Rejection
  | high :: low :: _ => .take (2 + u16FromBeBytes high low)
  | _ => .more

def tlsDecision : Bytes → Decision Rejection
  | kind :: major :: minor :: high :: low :: _ =>
    let recordLen := u16FromBeBytes high low
    if !(kind == 0x16 && major == 0x03) then .reject (keepInvalid none)
    else if !((kind == 0x16 && major == 0x03) && (0x01 ≤ minor && minor ≤ 0x04)) then
      .reject (dropInvalid (some buildTlsAlertDecodeError))
    else if recordLen < 4 then .reject (dropInvalid (some buildTlsAlertDecodeError))
    else if 5 + recordLen > maxTlsRecordSize then
      .reject (dropTooLarge (some buildTlsAlertDecodeError))
    else .take (5 + recordLen)
  | _ => .more

def sshPayloadDecision : Bytes → Decision Rejection
  | b0 :: b1 :: b2 :: b3 :: _ :: _ =>
    let packetLen := u32FromBeBytes b0 b1 b2 b3
    if packetLen < 5 then .reject (dropInvalid none)
    else if 4 + packetLen > maxSshPacketSize then .reject (dropTooLarge none)
    else .take (4 + packetLen)
  | _ => .more

/-- The three length bytes of a MySQL packet header, least significant first. -/
def mysqlPayloadLen (b0 b1 b2 : UInt8) : Nat :=
  b0.toNat + 256 * b1.toNat + 65536 * b2.toNat

def mysqlDecision : Bytes → Decision Rejection
  | b0 :: b1 :: b2 :: _ :: _ =>
    let totalLen := 4 + mysqlPayloadLen b0 b1 b2
    if totalLen > maxMysqlFrameSize then .reject (dropTooLarge none) else .take totalLen
  | _ => .more

def rdpDecision : Bytes → Decision Rejection
  | version :: reserved :: high :: low :: _ =>
    let totalLen := u16FromBeBytes high low
    if version != 0x03 then .reject (keepInvalid none)
    else if reserved != 0x00 then .reject (dropInvalid none)
    else if totalLen < 7 then .reject (dropInvalid none)
    else .take totalLen
  | _ => .more

/-! The framers follow their decisions. -/

theorem extractLengthPrefixedFrame_refines
    : Refines (optionalFramer extractLengthPrefixedFrame) dnsDecision := by
  intro buffer
  rcases buffer with _ | ⟨high, _ | ⟨low, tail⟩⟩
  · rfl
  · rfl
  · have tailLen : ¬ (high :: low :: tail).length < 2 := by simp
    simp only [optionalFramer, extractLengthPrefixedFrame, if_neg tailLen, item_cons_zero,
      item_cons_succ, Exec.done_bind, follow, dnsDecision]
    generalize 2 + u16FromBeBytes high low = totalLen
    by_cases missing : (high :: low :: tail).length < totalLen
    · rw [if_pos missing, outcome_take_of_lt missing]
      rfl
    · rw [if_neg missing, outcome_take_of_le (by omega), someFrame, drain_of_le (by omega)]
      rfl

theorem hasTlsRecordPrefix_cons (kind major : UInt8) (tail : Bytes)
    : hasTlsRecordPrefix (kind :: major :: tail) = (kind == 0x16 && major == 0x03) := by
  simp [hasTlsRecordPrefix]

theorem hasSupportedTlsRecordHeader_cons (kind major minor : UInt8) (tail : Bytes)
    : hasSupportedTlsRecordHeader (kind :: major :: minor :: tail)
      = ((kind == 0x16 && major == 0x03) && (0x01 ≤ minor && minor ≤ 0x04)) := by
  simp [hasSupportedTlsRecordHeader, hasTlsRecordPrefix_cons]

theorem extractTlsFrame_refines : Refines extractTlsFrame tlsDecision := by
  intro buffer
  rcases buffer with _ | ⟨kind, _ | ⟨major, _ | ⟨minor, _ | ⟨high, _ | ⟨low, tail⟩⟩⟩⟩⟩
  iterate 5 rfl
  have enough : ¬ (kind :: major :: minor :: high :: low :: tail).length < 5 := by simp
  simp only [extractTlsFrame, if_neg enough, hasTlsRecordPrefix_cons,
    hasSupportedTlsRecordHeader_cons, item_cons_zero, item_cons_succ, Exec.done_bind, follow,
    tlsDecision]
  refine guard_reject rfl fun _ => ?_
  refine guard_reject rfl fun _ => ?_
  refine guard_reject rfl fun _ => ?_
  refine guard_reject rfl fun _ => ?_
  exact wait_or_complete _

theorem extractSshPayloadFrame_refines : Refines extractSshPayloadFrame sshPayloadDecision := by
  intro buffer
  rcases buffer with _ | ⟨b0, _ | ⟨b1, _ | ⟨b2, _ | ⟨b3, _ | ⟨b4, tail⟩⟩⟩⟩⟩
  iterate 5 rfl
  have enough : ¬ (b0 :: b1 :: b2 :: b3 :: b4 :: tail).length < 5 := by simp
  have small := u32FromBeBytes_lt b0 b1 b2 b3
  have fits : checkedAdd 4 (u32FromBeBytes b0 b1 b2 b3) = some (4 + u32FromBeBytes b0 b1 b2 b3) :=
    checkedAdd_of_le (by simp only [usizeMax]; omega)
  simp only [extractSshPayloadFrame, if_neg enough, item_cons_zero, item_cons_succ,
    Exec.done_bind, follow, sshPayloadDecision, fits]
  refine guard_reject rfl fun _ => ?_
  refine guard_reject rfl fun _ => ?_
  exact wait_or_complete _

/-- The source's shifts and ors of the length bytes add up to the payload length. -/
theorem mysqlPayloadLen_eq_or (b0 b1 b2 : UInt8)
    : b0.toNat ||| (b1.toNat <<< 8) ||| (b2.toNat <<< 16) = mysqlPayloadLen b0 b1 b2 := by
  have low := b0.toNat_lt
  have mid := b1.toNat_lt
  have lower : b0.toNat ||| (b1.toNat <<< 8) = b0.toNat + b1.toNat * 2 ^ 8 :=
    or_shiftLeft_eq_add _ (by omega)
  rw [lower, or_shiftLeft_eq_add _ (by omega), mysqlPayloadLen]
  omega

theorem mysqlPayloadLen_lt (b0 b1 b2 : UInt8) : mysqlPayloadLen b0 b1 b2 < 2 ^ 24 := by
  have := b0.toNat_lt
  have := b1.toNat_lt
  have := b2.toNat_lt
  simp only [mysqlPayloadLen]
  omega

theorem extractMysqlFrame_refines : Refines extractMysqlFrame mysqlDecision := by
  intro buffer
  rcases buffer with _ | ⟨b0, _ | ⟨b1, _ | ⟨b2, _ | ⟨b3, tail⟩⟩⟩⟩
  iterate 4 rfl
  have enough : ¬ (b0 :: b1 :: b2 :: b3 :: tail).length < 4 := by simp
  have small := mysqlPayloadLen_lt b0 b1 b2
  have fits : checkedAdd 4 (mysqlPayloadLen b0 b1 b2) = some (4 + mysqlPayloadLen b0 b1 b2) :=
    checkedAdd_of_le (by simp only [usizeMax]; omega)
  simp only [extractMysqlFrame, if_neg enough, item_cons_zero, item_cons_succ, Exec.done_bind,
    mysqlPayloadLen_eq_or, follow, mysqlDecision, fits]
  refine guard_reject rfl fun _ => ?_
  exact wait_or_complete _

theorem extractRdpFrame_refines : Refines extractRdpFrame rdpDecision := by
  intro buffer
  rcases buffer with _ | ⟨version, _ | ⟨reserved, _ | ⟨high, _ | ⟨low, tail⟩⟩⟩⟩
  iterate 4 rfl
  have enough : ¬ (version :: reserved :: high :: low :: tail).length < 4 := by simp
  simp only [extractRdpFrame, if_neg enough, item_cons_zero, item_cons_succ, Exec.done_bind,
    follow, rdpDecision]
  refine guard_reject rfl fun _ => ?_
  refine guard_reject rfl fun _ => ?_
  refine guard_reject rfl fun _ => ?_
  exact wait_or_complete _

/-! More data never revises a decided header. -/

section

variable (front back : Bytes)

theorem dnsDecision_settled
    : dnsDecision front = .more ∨ dnsDecision (front ++ back) = dnsDecision front := by
  rcases front with _ | ⟨high, _ | ⟨low, tail⟩⟩
  · exact .inl rfl
  · exact .inl rfl
  · exact .inr rfl

theorem tlsDecision_settled
    : tlsDecision front = .more ∨ tlsDecision (front ++ back) = tlsDecision front := by
  rcases front with _ | ⟨kind, _ | ⟨major, _ | ⟨minor, _ | ⟨high, _ | ⟨low, tail⟩⟩⟩⟩⟩
  iterate 5 exact .inl rfl
  exact .inr rfl

theorem sshPayloadDecision_settled
    : sshPayloadDecision front = .more
      ∨ sshPayloadDecision (front ++ back) = sshPayloadDecision front := by
  rcases front with _ | ⟨b0, _ | ⟨b1, _ | ⟨b2, _ | ⟨b3, _ | ⟨b4, tail⟩⟩⟩⟩⟩
  iterate 5 exact .inl rfl
  exact .inr rfl

theorem mysqlDecision_settled
    : mysqlDecision front = .more ∨ mysqlDecision (front ++ back) = mysqlDecision front := by
  rcases front with _ | ⟨b0, _ | ⟨b1, _ | ⟨b2, _ | ⟨b3, tail⟩⟩⟩⟩
  iterate 4 exact .inl rfl
  exact .inr rfl

theorem rdpDecision_settled
    : rdpDecision front = .more ∨ rdpDecision (front ++ back) = rdpDecision front := by
  rcases front with _ | ⟨version, _ | ⟨reserved, _ | ⟨high, _ | ⟨low, tail⟩⟩⟩⟩
  iterate 4 exact .inl rfl
  exact .inr rfl

end

/-! No header asks for an empty frame. -/

theorem dnsDecision_positive : Positive dnsDecision := by
  intro buffer length asked
  rcases buffer with _ | ⟨high, _ | ⟨low, tail⟩⟩
  iterate 2 cases asked
  cases asked
  omega

theorem tlsDecision_positive : Positive tlsDecision := by
  intro buffer length asked
  rcases buffer with _ | ⟨kind, _ | ⟨major, _ | ⟨minor, _ | ⟨high, _ | ⟨low, tail⟩⟩⟩⟩⟩
  iterate 5 cases asked
  cases take_of_guard (take_of_guard (take_of_guard (take_of_guard asked)))
  omega

theorem sshPayloadDecision_positive : Positive sshPayloadDecision := by
  intro buffer length asked
  rcases buffer with _ | ⟨b0, _ | ⟨b1, _ | ⟨b2, _ | ⟨b3, _ | ⟨b4, tail⟩⟩⟩⟩⟩
  iterate 5 cases asked
  cases take_of_guard (take_of_guard asked)
  omega

theorem mysqlDecision_positive : Positive mysqlDecision := by
  intro buffer length asked
  rcases buffer with _ | ⟨b0, _ | ⟨b1, _ | ⟨b2, _ | ⟨b3, tail⟩⟩⟩⟩
  iterate 4 cases asked
  cases take_of_guard asked
  omega

theorem rdpDecision_positive : Positive rdpDecision := by
  intro buffer length asked
  rcases buffer with _ | ⟨version, _ | ⟨reserved, _ | ⟨high, _ | ⟨low, tail⟩⟩⟩⟩
  iterate 4 cases asked
  have checked := take_of_guard (take_of_guard asked)
  split at checked
  · cases checked
  · cases checked
    omega

end NetTrap.TcpFraming
