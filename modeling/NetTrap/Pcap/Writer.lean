import NetTrap.Pcap.Reader

/-! The writer of capture files. A packet carries only its payload, so the IP and transport
headers around it are made up, with lengths and checksums that fit.
-/

namespace NetTrap.Pcap

open Rust Net Octets

/-- The 16-bit words of the data, the last one padded with a zero byte. -/
def wordSum : Bytes → Nat
  | [] => 0
  | [last] => last.toNat * 256
  | high :: low :: rest => high.toNat * 256 + low.toNat + wordSum rest

/-- Adds the carries back in until the sum has 16 bits. -/
def foldCarries (sum : Nat) : Nat :=
  if 65536 ≤ sum then foldCarries (sum % 65536 + sum / 65536) else sum
termination_by sum

def internetChecksum (data : Bytes) : Nat :=
  65535 - foldCarries (wordSum data % 4294967296)

def u16Max : Nat := 65535

def checksumIpv4Pseudo (src dst : Ipv4Addr) (protocol : UInt8) (segment : Bytes)
    : Except PcapError Nat :=
  if segment.length > u16Max then
    .error (.packet ("Transport segment too large for IPv4 pseudo-header: "
      ++ toString segment.length ++ " bytes"))
  else
    .ok (internetChecksum
      (src.octets ++ dst.octets ++ [0, protocol] ++ be16Bytes segment.length ++ segment))

def u32Max : Nat := 4294967295

def checksumIpv6Pseudo (src dst : Ipv6Addr) (protocol : UInt8) (segment : Bytes)
    : Except PcapError Nat :=
  if segment.length > u32Max then
    .error (.packet ("Transport segment too large for IPv6 pseudo-header: "
      ++ toString segment.length ++ " bytes"))
  else
    .ok (internetChecksum
      (src.octets ++ dst.octets ++ be16Bytes (segment.length / 65536)
        ++ be16Bytes (segment.length % 65536) ++ [0, 0, 0, protocol] ++ segment))

variable (packet : Packet)

def transportChecksum (protocol : UInt8) (segment : Bytes) : Except PcapError Nat :=
  match packet.fiveTuple.srcIp, packet.fiveTuple.dstIp with
  | .v4 src, .v4 dst => checksumIpv4Pseudo src dst protocol segment
  | .v6 src, .v6 dst => checksumIpv6Pseudo src dst protocol segment
  | _, _ =>
    .error (.packet "Cannot checksum transport segment with mixed IPv4/IPv6 endpoints")

/-- The flags of a TCP segment: the packet's own, or the ones of plain data. -/
def segmentFlags : TcpFlags :=
  packet.tcpFlags.getD
    (if packet.payload.isEmpty then TcpFlags.ack else TcpFlags.psh ||| TcpFlags.ack)

/-- The header fields of a TCP segment in front of its checksum. -/
def tcpHeaderFront : Bytes :=
  packet.fiveTuple.srcPort.toBeBytes ++ packet.fiveTuple.dstPort.toBeBytes
    ++ [0, 0, 0, 0, 0, 0, 0, 0, 0x50, segmentFlags packet] ++ be16Bytes 64240

def encodeTcpSegment : Except PcapError Bytes :=
  let segmentLen := 20 + packet.payload.length
  if segmentLen > u16Max then
    .error (.packet ("TCP segment too large for PCAP raw IP encoding: " ++ toString segmentLen
      ++ " bytes"))
  else
    let segment := tcpHeaderFront packet ++ be16Bytes 0 ++ be16Bytes 0 ++ packet.payload
    match transportChecksum packet 6 segment with
    | .error error => .error error
    | .ok checksum => .ok (overwrite segment 16 (be16Bytes checksum))

/-- The header fields of a UDP segment in front of its checksum. -/
def udpHeaderFront : Bytes :=
  packet.fiveTuple.srcPort.toBeBytes ++ packet.fiveTuple.dstPort.toBeBytes
    ++ be16Bytes (8 + packet.payload.length)

def encodeUdpSegment : Except PcapError Bytes :=
  let udpLen := 8 + packet.payload.length
  if udpLen > u16Max then
    .error (.packet ("UDP segment too large for PCAP raw IP encoding: " ++ toString udpLen
      ++ " bytes"))
  else
    let segment := udpHeaderFront packet ++ be16Bytes 0 ++ packet.payload
    match transportChecksum packet 17 segment with
    | .error error => .error error
    | .ok checksum =>
      let checksum := if checksum = 0 then 0xffff else checksum
      .ok (overwrite segment 6 (be16Bytes checksum))

def encodeIcmpSegment : Except PcapError Bytes :=
  match packet.fiveTuple.srcIp, packet.fiveTuple.dstIp with
  | .v4 _, .v4 _ =>
    let icmpType : UInt8 := if packet.direction = .inbound then 0 else 8
    let segment := [icmpType, 0, 0, 0, 0, 0, 0, 0] ++ packet.payload
    .ok (overwrite segment 2 (be16Bytes (internetChecksum segment)))
  | .v6 _, .v6 _ =>
    let icmpType : UInt8 := if packet.direction = .inbound then 129 else 128
    let segment := [icmpType, 0, 0, 0, 0, 0, 0, 0] ++ packet.payload
    match transportChecksum packet 58 segment with
    | .error error => .error error
    | .ok checksum => .ok (overwrite segment 2 (be16Bytes checksum))
  | _, _ => .error (.packet "Cannot encode ICMP segment with mixed IPv4/IPv6 endpoints")

def encodeTransportSegment : Except PcapError Bytes :=
  match packet.fiveTuple.protocol with
  | .tcp => encodeTcpSegment packet
  | .udp => encodeUdpSegment packet
  | .icmp => encodeIcmpSegment packet
  | .igmp | .unknown _ => .ok packet.payload

def ipProtocolForPacket (ipv6 : Bool) : UInt8 :=
  if ipv6 && packet.fiveTuple.protocol = .icmp then 58
  else packet.fiveTuple.protocol.toIpProtocol

def encodeIpv4Packet (src dst : Ipv4Addr) (transport : Bytes) : Except PcapError Bytes :=
  let totalLen := 20 + transport.length
  if totalLen > u16Max then
    .error (.packet ("IPv4 packet too large for PCAP raw IP encoding: " ++ toString totalLen
      ++ " bytes"))
  else
    let header :=
      [0x45, 0] ++ be16Bytes totalLen ++ [0, 0, 0, 0, 64, ipProtocolForPacket packet false]
        ++ be16Bytes 0 ++ src.octets ++ dst.octets
    .ok (overwrite header 10 (be16Bytes (internetChecksum header)) ++ transport)

def encodeIpv6Packet (src dst : Ipv6Addr) (transport : Bytes) : Except PcapError Bytes :=
  if transport.length > u16Max then
    .error (.packet ("IPv6 payload too large for PCAP raw IP encoding: "
      ++ toString transport.length ++ " bytes"))
  else
    .ok ([0x60, 0, 0, 0] ++ be16Bytes transport.length
      ++ [ipProtocolForPacket packet true, 64] ++ src.octets ++ dst.octets ++ transport)

def encodeRawIpPacket : Except PcapError Bytes :=
  match encodeTransportSegment packet with
  | .error error => .error error
  | .ok transport =>
    match packet.fiveTuple.srcIp, packet.fiveTuple.dstIp with
    | .v4 src, .v4 dst => encodeIpv4Packet packet src dst transport
    | .v6 src, .v6 dst => encodeIpv6Packet packet src dst transport
    | _, _ => .error (.packet "Cannot encode PCAP packet with mixed IPv4/IPv6 endpoints")

def pcapRecordLen (len : Nat) : Except PcapError Nat :=
  if len > maxPcapRecordBytes then
    .error (.packet ("PCAP record exceeds declared snaplen (" ++ toString len ++ " > "
      ++ toString maxPcapRecordBytes ++ " bytes)"))
  else .ok len

def pcapTimestampSeconds (timestamp : Timestamp) : Except PcapError Nat :=
  if 0 ≤ timestamp.seconds ∧ timestamp.seconds ≤ 4294967295 then .ok timestamp.seconds.toNat
  else
    .error (.packet ("PCAP timestamp seconds " ++ toString timestamp.seconds
      ++ " cannot be represented in classic PCAP"))

/-- The writer's switch and the bytes of its open file. -/
structure PcapWriter where
  enabled : Bool
  file : Option Bytes
  deriving DecidableEq, Repr

namespace PcapWriter

/-- `write_global_header`. -/
def globalHeader : Bytes :=
  le32Bytes 0xa1b2c3d4 ++ [2, 0, 4, 0] ++ le32Bytes 0 ++ le32Bytes 0 ++ le32Bytes pcapSnaplen
    ++ le32Bytes 101

/-- `open`: a fresh file, and the writer switched on. -/
def opened : PcapWriter :=
  ⟨true, some globalHeader⟩

/-- The bytes of one record. -/
def encodeRecord : Except PcapError Bytes :=
  match pcapTimestampSeconds packet.timestamp with
  | .error error => .error error
  | .ok tsSec =>
    match encodeRawIpPacket packet with
    | .error error => .error error
    | .ok data =>
      match pcapRecordLen data.length with
      | .error error => .error error
      | .ok inclLen =>
        .ok (le32Bytes tsSec ++ le32Bytes packet.timestamp.subsecMicros
          ++ le32Bytes inclLen ++ le32Bytes inclLen ++ data)

def writePacket (writer : PcapWriter) (packet : Packet) : Except PcapError PcapWriter :=
  if !writer.enabled then .ok writer
  else
    match writer.file with
    | none => .error (.storage "PCAP writer is enabled but not open")
    | some file =>
      match encodeRecord packet with
      | .error error => .error error
      | .ok record => .ok { writer with file := some (file ++ record) }

/-- Packets written one after the other, all of them accepted. -/
def writePackets (writer : PcapWriter) : List Packet → Except PcapError PcapWriter
  | [] => .ok writer
  | packet :: packets =>
    match writer.writePacket packet with
    | .error error => .error error
    | .ok writer => writer.writePackets packets

end PcapWriter

end NetTrap.Pcap
