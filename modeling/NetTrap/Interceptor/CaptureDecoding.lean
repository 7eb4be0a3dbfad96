import NetTrap.Interceptor.Capture

/-! The live decoder finds in a frame what the datagram behind the link header reads. -/

namespace NetTrap.Interceptor

open Rust Net Octets List

section Transport

variable {data : Bytes} {packetEnd : Nat} (offset : Nat) (protocol : UInt8)
  (srcIp dstIp : IpAddr) (interface : Str) (now : Timestamp)

theorem portAt_take {index count : Nat} (inside : index + 1 < count) (data : Bytes)
    : portAt (data.take count) index = portAt data index :=
  Fin.ext (be16At_take inside data)

theorem segment_parseTransport (inside : packetEnd ≤ data.length)
    : (parseTransport data packetEnd offset protocol srcIp dstIp interface now).map Packet.segment
      = readTransport (data.take packetEnd) offset protocol srcIp dstIp := by
  have length : (data.take packetEnd).length = packetEnd := length_take_of_le inside
  rw [parseTransport]
  split
  · next outside =>
    rw [readTransport_of_length_lt (by omega)]
    rfl
  rw [readTransport]
  split
  · rw [readTcp, length]
    split
    · rfl
    have header
        : tcpHeaderLen (data.take packetEnd) offset
          = (byteAt data (offset + 12)).toNat / 16 * 4 := by
      rw [tcpHeaderLen, byteAt_take (by omega)]
    simp only [header]
    split
    · rfl
    rw [portAt_take (by omega), portAt_take (by omega), byteAt_take (by omega)]
    rfl
  split
  · rw [readUdp, length]
    split
    · rfl
    rw [be16At_take (by omega)]
    by_cases short : be16At data (offset + 4) < 8
    · simp [short]
    by_cases long : packetEnd < offset + be16At data (offset + 4)
    · simp [short, long]
    simp only [short, long, or_self, if_false]
    rw [portAt_take (by omega), portAt_take (by omega), take_take,
      Nat.min_eq_left (Nat.not_lt.mp long)]
    rfl
  split
  · rw [readIcmp, length]
    by_cases short : packetEnd < offset + 8
    · simp [short]
    · simp only [short, if_false]
      rfl
  · rfl

end Transport

section Extensions

variable {data : Bytes} {packetEnd : Nat} (srcIp dstIp : IpAddr)

/-- The segment that a position in the datagram leads to. -/
def segmentFrom (datagram : Bytes) (srcIp dstIp : IpAddr) (found : UInt8 × Nat) : Option Segment :=
  readTransport datagram found.2 found.1 srcIp dstIp

/-- Once the loop is behind the datagram it finds no segment any more.
Witness: induction on the turns; only fragment headers of the bytes behind the datagram
let the loop go on, and it stays outside.
-/
theorem ipv6TransportLoop_outside (inside : packetEnd ≤ data.length) (turns : Nat)
    (protocol : UInt8) {offset : Nat} (outside : packetEnd < offset)
    : (ipv6TransportLoop data packetEnd turns protocol offset).bind
        (segmentFrom (data.take packetEnd) srcIp dstIp) = none := by
  have length : (data.take packetEnd).length = packetEnd := length_take_of_le inside
  induction turns generalizing protocol offset with
  | zero => rfl
  | succ turns ih =>
    rw [ipv6TransportLoop]
    split
    · split
      · rw [if_pos (by omega)]
        rfl
      · rfl
    split
    · split
      · rfl
      split
      · rfl
      exact ih _ (by omega)
    split
    · rfl
    exact readTransport_of_length_lt (by omega) _ _ _

/-- The loop finds the segment of the datagram, although it also reads behind it. -/
theorem ipv6TransportLoop_bind (inside : packetEnd ≤ data.length) (turns : Nat)
    (protocol : UInt8) (offset : Nat)
    : (ipv6TransportLoop data packetEnd turns protocol offset).bind
        (segmentFrom (data.take packetEnd) srcIp dstIp)
      = (readExtensions (data.take packetEnd) turns protocol offset).bind
          (segmentFrom (data.take packetEnd) srcIp dstIp) := by
  have length : (data.take packetEnd).length = packetEnd := length_take_of_le inside
  induction turns generalizing protocol offset with
  | zero => rfl
  | succ turns ih =>
    have skipped
        : (protocol = 0 ∨ protocol = 43 ∨ protocol = 60) ↔ isSkippedExtension protocol = true := by
      simp [isSkippedExtension, or_assoc]
    rw [ipv6TransportLoop, readExtensions]
    simp only [skipped, length]
    by_cases extension : isSkippedExtension protocol = true
    · rw [if_pos extension, if_pos extension]
      by_cases fits : offset + 1 < packetEnd
      · have first : data[offset]? = some (byteAt (data.take packetEnd) offset) := by
          rw [byteAt_take (by omega)]
          simp [byteAt, show offset < data.length by omega]
        have second : data[offset + 1]? = some (byteAt (data.take packetEnd) (offset + 1)) := by
          rw [byteAt_take fits]
          simp [byteAt, show offset + 1 < data.length by omega]
        have ends
            : offset + 8 * ((byteAt (data.take packetEnd) (offset + 1)).toNat + 1)
              = extensionEnd (data.take packetEnd) offset :=
          rfl
        simp only [first, second, ends, gt_iff_lt]
        split
        · rfl
        · exact ih _ _
      · have short : packetEnd < extensionEnd (data.take packetEnd) offset := by
          rw [extensionEnd]
          omega
        rw [if_pos short]
        split
        · rw [if_pos (by omega)]
        · rfl
    rw [if_neg extension, if_neg extension]
    split
    · by_cases fits : offset + 8 ≤ packetEnd
      · have captured : ¬ offset + 8 > data.length := by omega
        have contained : ¬ packetEnd < offset + 8 := by omega
        rw [if_neg captured, if_neg contained, be16At_take (by omega), byteAt_take (by omega)]
        split
        · rfl
        · exact ih _ _
      · have cut : packetEnd < offset + 8 := by omega
        rw [if_pos cut]
        split
        · rfl
        split
        · rfl
        exact ipv6TransportLoop_outside srcIp dstIp inside turns _ cut
    · split <;> rfl

end Extensions

section Datagrams

variable (front datagram : Bytes) (interface : Str) (now : Timestamp)

theorem ipv4At_append_right (index : Nat)
    : ipv4At (front ++ datagram) (front.length + index) = ipv4At datagram index := by
  simp only [ipv4At, bytesAt, Nat.add_assoc, byteAt_append_right]

theorem ipv6At_append_right (index : Nat)
    : ipv6At (front ++ datagram) (front.length + index) = ipv6At datagram index := by
  simp only [ipv6At, bytesAt, Nat.add_assoc, byteAt_append_right]

theorem segment_parseIpv4
    : (parseIpv4 (front ++ datagram) (front ++ datagram).length front.length interface now).map
        Packet.segment = readIpv4 datagram := by
  have header
      : (byteAt (front ++ datagram) front.length).toNat % 16 * 4 = ipv4HeaderLen datagram := by
    rw [ipv4HeaderLen, ← byteAt_append_right front datagram 0, Nat.add_zero]
  simp only [parseIpv4, readIpv4, header, be16At_append_right, byteAt_append_right,
    length_append, Nat.add_lt_add_iff_left, gt_iff_lt, ipv4At_append_right]
  by_cases short : datagram.length < 20
  · simp [short]
  by_cases bad : ipv4HeaderLen datagram < 20 ∨ datagram.length < ipv4HeaderLen datagram
  · simp [bad]
  by_cases few : be16At datagram 2 < ipv4HeaderLen datagram
  · simp [few]
  by_cases long : datagram.length < be16At datagram 2
  · simp [long]
  by_cases fragment : be16At datagram 6 % 16384 = 0
  · simp only [short, bad, few, long, or_self, if_false, fragment, ne_eq, not_true_eq_false]
    rw [segment_parseTransport _ _ _ _ _ _ (by rw [length_append]; omega),
      take_length_add_append, readTransport_append]
  · simp [short, bad, few, long, fragment]

theorem segment_parseIpv6
    : (parseIpv6 (front ++ datagram) (front ++ datagram).length front.length interface now).map
        Packet.segment = readIpv6 datagram := by
  simp only [parseIpv6, readIpv6, be16At_append_right, length_append,
    Nat.add_lt_add_iff_left, gt_iff_lt, ipv6At_append_right]
  by_cases short : datagram.length < 40
  · simp [short]
  by_cases long : datagram.length < 40 + be16At datagram 4
  · simp [long]
  have inside : front.length + (40 + be16At datagram 4) ≤ (front ++ datagram).length := by
    rw [length_append]
    omega
  have followed :=
    ipv6TransportLoop_bind (.v6 (ipv6At datagram 8)) (.v6 (ipv6At datagram 24)) inside 8
      (byteAt (front ++ datagram) (front.length + 6)) (front.length + 40)
  have found
      : (ipv6TransportStart (front ++ datagram) front.length
            (front.length + (40 + be16At datagram 4))).bind
          (segmentFrom (front ++ datagram.take (40 + be16At datagram 4))
            (.v6 (ipv6At datagram 8)) (.v6 (ipv6At datagram 24)))
        = (readExtensions (datagram.take (40 + be16At datagram 4)) 8 (byteAt datagram 6) 40).bind
            (segmentFrom (datagram.take (40 + be16At datagram 4)) (.v6 (ipv6At datagram 8))
              (.v6 (ipv6At datagram 24))) := by
    rw [take_length_add_append, readExtensions_append] at followed
    rw [ipv6TransportStart, followed, byteAt_append_right]
    cases readExtensions (datagram.take (40 + be16At datagram 4)) 8 (byteAt datagram 6) 40 with
    | none => rfl
    | some start => exact readTransport_append _ _ _ _ _ _
  simp only [short, long, if_false]
  refine Eq.trans ?_ (found.trans ?_)
  · cases ipv6TransportStart (front ++ datagram) front.length
      (front.length + (40 + be16At datagram 4)) with
    | none => rfl
    | some start =>
      refine (segment_parseTransport _ _ _ _ _ _ inside).trans ?_
      rw [take_length_add_append]
      rfl
  · cases readExtensions (datagram.take (40 + be16At datagram 4)) 8 (byteAt datagram 6) 40 <;> rfl

end Datagrams

end NetTrap.Interceptor
