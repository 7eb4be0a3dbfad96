import NetTrap.Net.Packet

/-! What an IP datagram carries, read from its first byte on.
Two decoders of the source read datagrams at different offsets of a capture and check the
version field differently; both are compared with the readings defined here.
-/

namespace NetTrap.Net

open Rust Octets List

/-- The IPv4 address in the four bytes at a position. -/
def ipv4At (data : Bytes) (index : Nat) : Ipv4Addr :=
  ⟨bytesAt data index 4, length_bytesAt data index 4⟩

/-- The IPv6 address in the sixteen bytes at a position. -/
def ipv6At (data : Bytes) (index : Nat) : Ipv6Addr :=
  ⟨bytesAt data index 16, length_bytesAt data index 16⟩

/-- The part of a packet that its bytes determine. -/
structure Segment where
  fiveTuple : FiveTuple
  direction : PacketDirection
  tcpFlags : Option TcpFlags
  payload : Bytes
  deriving DecidableEq, Repr

def Packet.segment (packet : Packet) : Segment :=
  ⟨packet.fiveTuple, packet.direction, packet.tcpFlags, packet.payload⟩

theorem Packet.segment_applyVlanTag (packet : Packet) (tag : Option Nat)
    : (packet.applyVlanTag tag).segment = packet.segment := by
  cases tag <;> rfl

variable (datagram : Bytes) (offset : Nat)

/-- The version field of a datagram. -/
def versionOf : Nat :=
  (byteAt datagram 0).toNat / 16

/-- The length of the TCP header at a position. -/
def tcpHeaderLen : Nat :=
  (byteAt datagram (offset + 12)).toNat / 16 * 4

def readTcp (srcIp dstIp : IpAddr) : Option Segment :=
  if datagram.length < offset + 20 then none
  else if tcpHeaderLen datagram offset < 20
      ∨ datagram.length < offset + tcpHeaderLen datagram offset then
    none
  else
    let flags := byteAt datagram (offset + 13)
    some
      { fiveTuple := .new srcIp dstIp (portAt datagram offset) (portAt datagram (offset + 2)) .tcp
        direction := inferTcpDirection srcIp dstIp flags
        tcpFlags := some flags
        payload := datagram.drop (offset + tcpHeaderLen datagram offset) }

def readUdp (srcIp dstIp : IpAddr) : Option Segment :=
  if datagram.length < offset + 8 then none
  else if be16At datagram (offset + 4) < 8
      ∨ datagram.length < offset + be16At datagram (offset + 4) then
    none
  else
    some
      { fiveTuple := .new srcIp dstIp (portAt datagram offset) (portAt datagram (offset + 2)) .udp
        direction := inferDirection srcIp dstIp
        tcpFlags := none
        payload := (datagram.take (offset + be16At datagram (offset + 4))).drop (offset + 8) }

def readIcmp (srcIp dstIp : IpAddr) : Option Segment :=
  if datagram.length < offset + 8 then none
  else
    some
      { fiveTuple := .new srcIp dstIp 0 0 .icmp
        direction := inferDirection srcIp dstIp
        tcpFlags := none
        payload := datagram.drop (offset + 8) }

/-- The transport segment that starts at `offset`. -/
def readTransport (protocol : UInt8) (srcIp dstIp : IpAddr) : Option Segment :=
  if protocol = 6 then readTcp datagram offset srcIp dstIp
  else if protocol = 17 then readUdp datagram offset srcIp dstIp
  else if protocol = 1 ∨ protocol = 58 then readIcmp datagram offset srcIp dstIp
  else none

/-- Hop-by-hop options, routing headers and destination options, which give their length. -/
def isSkippedExtension (protocol : UInt8) : Bool :=
  protocol == 0 || protocol == 43 || protocol == 60

/-- Where the extension header at `offset` ends. -/
def extensionEnd : Nat :=
  offset + 8 * ((byteAt datagram (offset + 1)).toNat + 1)

/-- Follows at most `steps` extension headers to the transport protocol. -/
def readExtensions (datagram : Bytes) : (steps : Nat) → UInt8 → Nat → Option (UInt8 × Nat)
  | 0, _, _ => none
  | steps + 1, protocol, offset =>
    if isSkippedExtension protocol then
      if datagram.length < extensionEnd datagram offset then none
      else
        readExtensions datagram steps (byteAt datagram offset) (extensionEnd datagram offset)
    else if protocol = 44 then
      if datagram.length < offset + 8 then none
      else if be16At datagram (offset + 2) ≠ 0 then none
      else readExtensions datagram steps (byteAt datagram offset) (offset + 8)
    else if protocol = 59 then none
    else some (protocol, offset)

/-- The length of an IPv4 header. -/
def ipv4HeaderLen (data : Bytes) : Nat :=
  (byteAt data 0).toNat % 16 * 4

/-- An IPv4 datagram at the start of `data`; bytes behind its total length are padding. -/
def readIpv4 (data : Bytes) : Option Segment :=
  if data.length < 20 then none
  else if ipv4HeaderLen data < 20 ∨ data.length < ipv4HeaderLen data then none
  else if be16At data 2 < ipv4HeaderLen data ∨ data.length < be16At data 2 then none
  else if be16At data 6 % 16384 ≠ 0 then none
  else
    readTransport (data.take (be16At data 2)) (ipv4HeaderLen data) (byteAt data 9)
      (.v4 (ipv4At data 12)) (.v4 (ipv4At data 16))

/-- An IPv6 datagram at the start of `data`. -/
def readIpv6 (data : Bytes) : Option Segment :=
  if data.length < 40 then none
  else if data.length < 40 + be16At data 4 then none
  else
    match readExtensions (data.take (40 + be16At data 4)) 8 (byteAt data 6) 40 with
    | none => none
    | some (protocol, offset) =>
      readTransport (data.take (40 + be16At data 4)) offset protocol (.v6 (ipv6At data 8))
        (.v6 (ipv6At data 24))

section Shifting

variable (front datagram : Bytes) (offset : Nat) (srcIp dstIp : IpAddr)

theorem portAt_append
    : portAt (front ++ datagram) (front.length + offset) = portAt datagram offset :=
  Fin.ext (be16At_append_right front datagram offset)

theorem tcpHeaderLen_append
    : tcpHeaderLen (front ++ datagram) (front.length + offset) = tcpHeaderLen datagram offset := by
  rw [tcpHeaderLen, Nat.add_assoc, byteAt_append_right, tcpHeaderLen]

theorem readTcp_append
    : readTcp (front ++ datagram) (front.length + offset) srcIp dstIp
      = readTcp datagram offset srcIp dstIp := by
  simp only [readTcp, tcpHeaderLen_append, length_append, Nat.add_assoc,
    Nat.add_lt_add_iff_left, portAt_append, byteAt_append_right, drop_length_add_append]

theorem readUdp_append
    : readUdp (front ++ datagram) (front.length + offset) srcIp dstIp
      = readUdp datagram offset srcIp dstIp := by
  simp only [readUdp, length_append, Nat.add_assoc, Nat.add_lt_add_iff_left,
    portAt_append, be16At_append_right, take_length_add_append,
    drop_length_add_append]

theorem readIcmp_append
    : readIcmp (front ++ datagram) (front.length + offset) srcIp dstIp
      = readIcmp datagram offset srcIp dstIp := by
  simp only [readIcmp, length_append, Nat.add_assoc, Nat.add_lt_add_iff_left,
    drop_length_add_append]

/-- A segment reads the same wherever it stands. -/
theorem readTransport_append (protocol : UInt8)
    : readTransport (front ++ datagram) (front.length + offset) protocol srcIp dstIp
      = readTransport datagram offset protocol srcIp dstIp := by
  simp only [readTransport, readTcp_append, readUdp_append, readIcmp_append]

/-- Extension headers are followed the same way wherever the datagram stands. -/
theorem readExtensions_append (steps : Nat) (protocol : UInt8)
    : readExtensions (front ++ datagram) steps protocol (front.length + offset)
      = (readExtensions datagram steps protocol offset).map fun (found, position) =>
          (found, front.length + position) := by
  induction steps generalizing protocol offset with
  | zero => rfl
  | succ steps ih =>
    have ends
        : extensionEnd (front ++ datagram) (front.length + offset)
          = front.length + extensionEnd datagram offset := by
      simp only [extensionEnd, Nat.add_assoc, byteAt_append_right]
    simp only [readExtensions, ends, byteAt_append_right, length_append, Nat.add_assoc,
      Nat.add_lt_add_iff_left, be16At_append_right, ih]
    split_ifs <;> rfl

end Shifting

/-- Nothing is read behind the end of a datagram. -/
theorem readTransport_of_length_lt {datagram : Bytes} {offset : Nat}
    (outside : datagram.length < offset) (protocol : UInt8) (srcIp dstIp : IpAddr)
    : readTransport datagram offset protocol srcIp dstIp = none := by
  have tcp : datagram.length < offset + 20 := by omega
  have other : datagram.length < offset + 8 := by omega
  simp [readTransport, readTcp, readUdp, readIcmp, tcp, other]

/-! Which datagrams carry a segment.
The readings of a datagram succeed on the well-formed ones and on no others.
-/

/-- A transport header that `protocol` names, with its length field, fits behind `offset`. -/
def TransportFits (datagram : Bytes) (offset : Nat) (protocol : UInt8) : Prop :=
  protocol = 6 ∧ 20 ≤ tcpHeaderLen datagram offset
    ∧ offset + tcpHeaderLen datagram offset ≤ datagram.length
  ∨ protocol = 17 ∧ 8 ≤ be16At datagram (offset + 4)
    ∧ offset + be16At datagram (offset + 4) ≤ datagram.length
  ∨ (protocol = 1 ∨ protocol = 58) ∧ offset + 8 ≤ datagram.length

/-- At most `steps` extension headers, the last of them the transport header itself, lead
from one protocol and position to another.
-/
inductive ExtensionChain (datagram : Bytes) : Nat → UInt8 → Nat → UInt8 → Nat → Prop where
  | transport {steps protocol offset} (kept : isSkippedExtension protocol = false)
      (whole : protocol ≠ 44) (more : protocol ≠ 59)
      : ExtensionChain datagram (steps + 1) protocol offset protocol offset
  | extension {steps protocol offset last position} (skipped : isSkippedExtension protocol = true)
      (fits : extensionEnd datagram offset ≤ datagram.length)
      (rest
        : ExtensionChain datagram steps (byteAt datagram offset) (extensionEnd datagram offset)
            last position)
      : ExtensionChain datagram (steps + 1) protocol offset last position
  | fragment {steps offset last position} (fits : offset + 8 ≤ datagram.length)
      (atomic : be16At datagram (offset + 2) = 0)
      (rest : ExtensionChain datagram steps (byteAt datagram offset) (offset + 8) last position)
      : ExtensionChain datagram (steps + 1) 44 offset last position

/-- A captured, unfragmented IPv4 datagram around a transport segment. -/
structure WellFormedIpv4 (data : Bytes) : Prop where
  header : 20 ≤ ipv4HeaderLen data
  contained : ipv4HeaderLen data ≤ be16At data 2
  captured : be16At data 2 ≤ data.length
  whole : be16At data 6 % 16384 = 0
  transport : TransportFits (data.take (be16At data 2)) (ipv4HeaderLen data) (byteAt data 9)

/-- A captured IPv6 datagram whose extension headers lead to a transport segment. -/
structure WellFormedIpv6 (data : Bytes) : Prop where
  captured : 40 + be16At data 4 ≤ data.length
  transport : ∃ protocol offset,
    ExtensionChain (data.take (40 + be16At data 4)) 8 (byteAt data 6) 40 protocol offset
    ∧ TransportFits (data.take (40 + be16At data 4)) offset protocol

theorem readTransport_isSome_iff (datagram : Bytes) (offset : Nat) (protocol : UInt8)
    (srcIp dstIp : IpAddr)
    : (readTransport datagram offset protocol srcIp dstIp).isSome = true
      ↔ TransportFits datagram offset protocol := by
  rw [readTransport, TransportFits]
  by_cases tcp : protocol = 6
  · have distinct : ¬ (6 : UInt8) = 17 ∧ ¬ ((6 : UInt8) = 1 ∨ (6 : UInt8) = 58) := by decide
    subst tcp
    simp only [if_true, distinct, false_and, or_false, true_and, readTcp]
    split_ifs with short bad
    · simp
      omega
    · simp
      omega
    · simp
      omega
  by_cases udp : protocol = 17
  · have distinct : ¬ ((17 : UInt8) = 1 ∨ (17 : UInt8) = 58) := by decide
    subst udp
    simp only [tcp, if_false, if_true, distinct, false_and, or_false, false_or, true_and, readUdp]
    split_ifs with short bad
    · simp
      omega
    · simp
      omega
    · simp
      omega
  by_cases icmp : protocol = 1 ∨ protocol = 58
  · simp only [tcp, udp, icmp, if_false, if_true, false_and, false_or, true_and, readIcmp]
    split_ifs with short
    · simp
      omega
    · simp
      omega
  · simp [tcp, udp, icmp]

/-- Extension headers are followed along a chain, by induction on the steps. -/
theorem readExtensions_eq_some_iff (datagram : Bytes) (steps : Nat) (protocol : UInt8)
    (offset : Nat) (last : UInt8) (position : Nat)
    : readExtensions datagram steps protocol offset = some (last, position)
      ↔ ExtensionChain datagram steps protocol offset last position := by
  constructor
  · intro found
    fun_induction readExtensions datagram steps protocol offset with
    | case3 steps protocol offset skipped fits ih =>
      exact .extension skipped (Nat.not_lt.mp fits) (ih found)
    | case6 steps offset fits atomic kept ih =>
      exact .fragment (Nat.not_lt.mp fits) (not_not.mp atomic) (ih found)
    | case8 steps protocol offset kept whole more =>
      cases found
      exact .transport (Bool.eq_false_iff.mpr kept) whole more
    | case1 | case2 | case4 | case5 | case7 => cases found
  · intro chain
    induction chain with
    | transport kept whole more => simp [readExtensions, kept, whole, more]
    | extension skipped fits _ ih =>
      rw [readExtensions, if_pos skipped, if_neg (Nat.not_lt.mpr fits), ih]
    | fragment fits atomic _ ih =>
      rw [readExtensions, if_neg (by decide), if_pos rfl, if_neg (Nat.not_lt.mpr fits),
        if_neg (not_not.mpr atomic), ih]

theorem readIpv4_isSome_iff (data : Bytes)
    : (readIpv4 data).isSome = true ↔ WellFormedIpv4 data := by
  rw [readIpv4]
  constructor
  · intro accepted
    split_ifs at accepted with short header total fragment
    · cases accepted
    · cases accepted
    · cases accepted
    · cases accepted
    · exact ⟨by omega, by omega, by omega, not_not.mp fragment,
        (readTransport_isSome_iff _ _ _ _ _).mp accepted⟩
  · rintro ⟨header, contained, captured, whole, transport⟩
    rw [if_neg (by omega), if_neg (by omega), if_neg (by omega), if_neg (not_not.mpr whole)]
    exact (readTransport_isSome_iff _ _ _ _ _).mpr transport

theorem readIpv6_isSome_iff (data : Bytes)
    : (readIpv6 data).isSome = true ↔ WellFormedIpv6 data := by
  rw [readIpv6]
  constructor
  · intro accepted
    split_ifs at accepted with short total
    · cases accepted
    · cases accepted
    · split at accepted
      · cases accepted
      · next protocol offset found =>
        exact ⟨by omega, protocol, offset, (readExtensions_eq_some_iff _ _ _ _ _ _).mp found,
          (readTransport_isSome_iff _ _ _ _ _).mp accepted⟩
  · rintro ⟨captured, protocol, offset, chain, transport⟩
    rw [if_neg (by omega), if_neg (by omega), (readExtensions_eq_some_iff _ _ _ _ _ _).mpr chain]
    exact (readTransport_isSome_iff _ _ _ _ _).mpr transport

end NetTrap.Net
