import NetTrap.Pcap.Writer

/-! The datagrams that the writer makes, read back.
Every encoder puts fixed fields in front of the data, so that each field is found again
behind the ones before it.
-/

namespace NetTrap.Pcap

open Rust Net Octets List

section Segments

variable {packet : Packet} {segment : Bytes}

/-- A TCP segment is its header, with some checksum, and the payload. -/
theorem encodeTcpSegment_eq (encoded : encodeTcpSegment packet = .ok segment)
    : ∃ checksum,
        segment = tcpHeaderFront packet ++ be16Bytes checksum ++ (be16Bytes 0 ++ packet.payload)
        ∧ 20 + packet.payload.length ≤ 65535 := by
  simp only [encodeTcpSegment] at encoded
  split at encoded
  · cases encoded
  rename_i fits
  split at encoded
  · cases encoded
  rename_i checksum computed
  have overwritten :=
    overwrite_append (tcpHeaderFront packet) (be16Bytes 0 ++ packet.payload)
      (show (be16Bytes checksum).length = (be16Bytes 0).length from rfl)
  refine ⟨checksum, ?_, by rw [u16Max] at fits; omega⟩
  rw [← overwritten, ← Except.ok.inj encoded, append_assoc _ (be16Bytes 0)]
  rfl

/-- A UDP segment is its header, with some checksum, and the payload. -/
theorem encodeUdpSegment_eq (encoded : encodeUdpSegment packet = .ok segment)
    : ∃ checksum, segment = udpHeaderFront packet ++ be16Bytes checksum ++ packet.payload
        ∧ 8 + packet.payload.length ≤ 65535 := by
  simp only [encodeUdpSegment] at encoded
  split at encoded
  · cases encoded
  rename_i fits
  split at encoded
  · cases encoded
  rename_i checksum computed
  generalize (if checksum = 0 then 0xffff else checksum) = checksum at encoded
  have overwritten :=
    overwrite_append (udpHeaderFront packet) packet.payload
      (show (be16Bytes checksum).length = (be16Bytes 0).length from rfl)
  refine ⟨checksum, ?_, by rw [u16Max] at fits; omega⟩
  rw [← overwritten, ← Except.ok.inj encoded]
  rfl

/-- What a written segment reads as, between the given addresses. -/
def writtenSegment (packet : Packet) (srcIp dstIp : IpAddr) : Segment :=
  match packet.fiveTuple.protocol with
  | .tcp =>
    { fiveTuple := .new srcIp dstIp packet.fiveTuple.srcPort packet.fiveTuple.dstPort .tcp
      direction := inferTcpDirection srcIp dstIp (segmentFlags packet)
      tcpFlags := some (segmentFlags packet)
      payload := packet.payload }
  | _ =>
    { fiveTuple := .new srcIp dstIp packet.fiveTuple.srcPort packet.fiveTuple.dstPort .udp
      direction := inferDirection srcIp dstIp
      tcpFlags := none
      payload := packet.payload }

theorem portAt_toBeBytes (port : Port) (back : Bytes) : portAt (port.toBeBytes ++ back) 0 = port :=
  Fin.ext (be16At_be16Bytes port.isLt back)

theorem readTcp_written (srcIp dstIp : IpAddr) (checksum : Nat)
    : readTcp (tcpHeaderFront packet ++ be16Bytes checksum ++ (be16Bytes 0 ++ packet.payload)) 0
        srcIp dstIp
      = some
          { fiveTuple := .new srcIp dstIp packet.fiveTuple.srcPort packet.fiveTuple.dstPort .tcp
            direction := inferTcpDirection srcIp dstIp (segmentFlags packet)
            tcpFlags := some (segmentFlags packet)
            payload := packet.payload } := by
  generalize whole
      : tcpHeaderFront packet ++ be16Bytes checksum ++ (be16Bytes 0 ++ packet.payload) = data
  have length : data.length = 20 + packet.payload.length := by
    simp [← whole, tcpHeaderFront, Port.toBeBytes]
    omega
  have offsetByte : byteAt data (0 + 12) = 0x50 := by
    rw [← whole]
    rfl
  have header : tcpHeaderLen data 0 = 20 := by
    rw [tcpHeaderLen, offsetByte]
    rfl
  have flags : byteAt data (0 + 13) = segmentFlags packet := by
    rw [← whole]
    rfl
  have payload : data.drop 20 = packet.payload := by
    rw [← whole]
    rfl
  have source : portAt data 0 = packet.fiveTuple.srcPort := by
    rw [← whole]
    exact portAt_toBeBytes _ []
  have target : portAt data 2 = packet.fiveTuple.dstPort := by
    rw [← whole]
    exact portAt_toBeBytes _ []
  rw [readTcp, if_neg (by omega), header, if_neg (by omega), flags]
  simp [source, target, payload]

theorem readUdp_written (srcIp dstIp : IpAddr) (checksum : Nat)
    (fits : 8 + packet.payload.length ≤ 65535)
    : readUdp (udpHeaderFront packet ++ be16Bytes checksum ++ packet.payload) 0 srcIp dstIp = some
          { fiveTuple := .new srcIp dstIp packet.fiveTuple.srcPort packet.fiveTuple.dstPort .udp
            direction := inferDirection srcIp dstIp
            tcpFlags := none
            payload := packet.payload } := by
  generalize whole : udpHeaderFront packet ++ be16Bytes checksum ++ packet.payload = data
  have length : data.length = 8 + packet.payload.length := by
    simp [← whole, udpHeaderFront, Port.toBeBytes]
    omega
  have announced : be16At data 4 = 8 + packet.payload.length := by
    rw [← whole]
    exact be16At_be16Bytes (by omega) []
  have payload : data.drop 8 = packet.payload := by
    rw [← whole]
    rfl
  have source : portAt data 0 = packet.fiveTuple.srcPort := by
    rw [← whole]
    exact portAt_toBeBytes _ []
  have target : portAt data 2 = packet.fiveTuple.dstPort := by
    rw [← whole]
    exact portAt_toBeBytes _ []
  have all : data.take (8 + packet.payload.length) = data := by
    rw [← length, take_length]
  rw [readUdp, if_neg (by omega)]
  simp only [Nat.zero_add, announced, length]
  rw [if_neg (by omega), all]
  simp only [source, target, payload]

/-- An encoded segment reads as the packet it was made from. -/
theorem readTransport_written (transports
      : packet.fiveTuple.protocol = .tcp ∨ packet.fiveTuple.protocol = .udp)
    (encoded : encodeTransportSegment packet = .ok segment) (front : Bytes) (srcIp dstIp : IpAddr)
    : readTransport (front ++ segment) front.length packet.fiveTuple.protocol.toIpProtocol
        srcIp dstIp
      = some (writtenSegment packet srcIp dstIp) := by
  rw [← Nat.add_zero front.length, readTransport_append]
  rcases transports with tcp | udp
  · simp only [encodeTransportSegment, tcp] at encoded
    obtain ⟨checksum, rfl, -⟩ := encodeTcpSegment_eq encoded
    simp only [tcp, Protocol.toIpProtocol, readTransport, if_true, writtenSegment, readTcp_written]
  · simp only [encodeTransportSegment, udp] at encoded
    obtain ⟨checksum, rfl, fits⟩ := encodeUdpSegment_eq encoded
    have notTcp : ¬ (17 : UInt8) = 6 := by decide
    simp only [udp, Protocol.toIpProtocol, readTransport, notTcp, if_false, if_true,
      writtenSegment, readUdp_written srcIp dstIp checksum fits]

end Segments

section Datagrams

variable {packet : Packet} {transport data : Bytes}

/-- Two addresses and a segment behind the front of a header. -/
theorem addressed_written {front src dst} (srcIp dstIp : IpAddr)
    (transports : packet.fiveTuple.protocol = .tcp ∨ packet.fiveTuple.protocol = .udp)
    (segmented : encodeTransportSegment packet = .ok transport)
    (whole : data = front ++ (src ++ (dst ++ transport)))
    : bytesAt data front.length src.length = src
      ∧ bytesAt data (front.length + src.length) dst.length = dst
      ∧ readTransport data (front.length + src.length + dst.length)
          packet.fiveTuple.protocol.toIpProtocol srcIp dstIp
        = some (writtenSegment packet srcIp dstIp) := by
  refine ⟨by rw [whole, bytesAt_append], ?_, ?_⟩
  · have found := bytesAt_append (front ++ src) dst transport
    rwa [length_append, append_assoc, ← whole] at found
  · have read := readTransport_written transports segmented (front ++ src ++ dst) srcIp dstIp
    rwa [length_append, length_append, append_assoc, append_assoc, ← whole] at read

/-- The first twelve bytes of a written IPv4 header. -/
def ipv4HeaderFront (packet : Packet) (totalLen checksum : Nat) : Bytes :=
  [0x45, 0] ++ be16Bytes totalLen ++ [0, 0, 0, 0, 64, ipProtocolForPacket packet false]
    ++ be16Bytes checksum

theorem encodeIpv4Packet_eq {src dst}
    (encoded : encodeIpv4Packet packet src dst transport = .ok data)
    : ∃ checksum, data = ipv4HeaderFront packet (20 + transport.length) checksum
          ++ (src.octets ++ (dst.octets ++ transport))
        ∧ 20 + transport.length ≤ 65535 := by
  simp only [encodeIpv4Packet] at encoded
  split at encoded
  · cases encoded
  rename_i fits
  generalize internetChecksum _ = checksum at encoded
  have overwritten :=
    overwrite_append ([0x45, 0] ++ be16Bytes (20 + transport.length)
        ++ [0, 0, 0, 0, 64, ipProtocolForPacket packet false])
      (src.octets ++ dst.octets)
      (show (be16Bytes checksum).length = (be16Bytes 0).length from rfl)
  refine ⟨checksum, ?_, by rw [u16Max] at fits; omega⟩
  have header := Except.ok.inj encoded
  rw [append_assoc _ src.octets dst.octets] at header
  have position
      : ([0x45, 0] ++ be16Bytes (20 + transport.length)
          ++ [0, 0, 0, 0, 64, ipProtocolForPacket packet false]).length = 10 :=
    rfl
  rw [position] at overwritten
  rw [← header, overwritten, ipv4HeaderFront]
  simp

/-- A written IPv4 datagram reads as the packet it was made from. -/
theorem readIpv4_written {src dst}
    (transports : packet.fiveTuple.protocol = .tcp ∨ packet.fiveTuple.protocol = .udp)
    (segmented : encodeTransportSegment packet = .ok transport)
    (encoded : encodeIpv4Packet packet src dst transport = .ok data)
    : versionOf data = 4 ∧ readIpv4 data = some (writtenSegment packet (.v4 src) (.v4 dst)) := by
  obtain ⟨checksum, whole, fits⟩ := encodeIpv4Packet_eq encoded
  have frontLength : (ipv4HeaderFront packet (20 + transport.length) checksum).length = 12 := rfl
  have length : data.length = 20 + transport.length := by
    rw [whole]
    simp [frontLength, src.size, dst.size]
    omega
  have firstByte : byteAt data 0 = 0x45 := by
    rw [whole]
    rfl
  have protocol : byteAt data 9 = packet.fiveTuple.protocol.toIpProtocol := by
    rw [whole]
    rfl
  have totalLen : be16At data 2 = 20 + transport.length := by
    rw [whole]
    exact be16At_be16Bytes (by omega) []
  have fragment : be16At data 6 = 0 := by
    rw [whole]
    exact be16At_be16Bytes (Nat.zero_lt_succ _) []
  obtain ⟨source, target, segment⟩ :=
    addressed_written (.v4 src) (.v4 dst) transports segmented whole
  rw [frontLength, src.size] at source
  rw [frontLength, src.size, dst.size] at target segment
  have header : ipv4HeaderLen data = 20 := by
    rw [ipv4HeaderLen, firstByte]
    rfl
  have all : data.take (be16At data 2) = data := by
    rw [totalLen, ← length, take_length]
  refine ⟨by rw [versionOf, firstByte]; rfl, ?_⟩
  rw [readIpv4, if_neg (by omega), header, if_neg (by omega), all, if_neg (by omega), fragment,
    if_neg (by decide), protocol]
  simp only [ipv4At, source, target]
  exact segment

/-- The first eight bytes of a written IPv6 header. -/
def ipv6HeaderFront (packet : Packet) (payloadLen : Nat) : Bytes :=
  [0x60, 0, 0, 0] ++ be16Bytes payloadLen ++ [ipProtocolForPacket packet true, 64]

/-- TCP and UDP are no extension headers. -/
theorem readExtensions_transport {protocol : Protocol}
    (transports : protocol = .tcp ∨ protocol = .udp) (data : Bytes) (offset : Nat)
    : readExtensions data 8 protocol.toIpProtocol offset
      = some (protocol.toIpProtocol, offset) := by
  rcases transports with rfl | rfl <;> rfl

/-- A written IPv6 datagram reads as the packet it was made from. -/
theorem readIpv6_written {src dst}
    (transports : packet.fiveTuple.protocol = .tcp ∨ packet.fiveTuple.protocol = .udp)
    (segmented : encodeTransportSegment packet = .ok transport)
    (encoded : encodeIpv6Packet packet src dst transport = .ok data)
    : versionOf data = 6 ∧ readIpv6 data = some (writtenSegment packet (.v6 src) (.v6 dst)) := by
  simp only [encodeIpv6Packet] at encoded
  split at encoded
  · cases encoded
  rename_i fits
  rw [u16Max] at fits
  have whole
      : data = ipv6HeaderFront packet transport.length
          ++ (src.octets ++ (dst.octets ++ transport)) := by
    rw [← Except.ok.inj encoded, ipv6HeaderFront]
    simp
  have frontLength : (ipv6HeaderFront packet transport.length).length = 8 := rfl
  have length : data.length = 40 + transport.length := by
    rw [whole]
    simp [frontLength, src.size, dst.size]
    omega
  have firstByte : byteAt data 0 = 0x60 := by
    rw [whole]
    rfl
  have protocol : byteAt data 6 = packet.fiveTuple.protocol.toIpProtocol := by
    have named : ipProtocolForPacket packet true = packet.fiveTuple.protocol.toIpProtocol := by
      rcases transports with tcp | udp
      · simp [ipProtocolForPacket, tcp]
      · simp [ipProtocolForPacket, udp]
    rw [← named, whole]
    rfl
  have payloadLen : be16At data 4 = transport.length := by
    rw [whole]
    exact be16At_be16Bytes (by omega) []
  obtain ⟨source, target, segment⟩ :=
    addressed_written (.v6 src) (.v6 dst) transports segmented whole
  rw [frontLength, src.size] at source
  rw [frontLength, src.size, dst.size] at target segment
  have all : data.take (40 + be16At data 4) = data := by
    rw [payloadLen, ← length, take_length]
  refine ⟨by rw [versionOf, firstByte]; rfl, ?_⟩
  rw [readIpv6, if_neg (by omega), if_neg (by omega), all, protocol,
    readExtensions_transport transports]
  simp only [ipv6At, source, target]
  exact segment

end Datagrams

end NetTrap.Pcap
