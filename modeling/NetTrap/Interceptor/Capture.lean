import NetTrap.Net.Datagram

/-! The decoder of live captures.
It reads at offsets of the captured frame, where the reader of capture files cuts the
datagram out first. The clock's reading is an argument; a frame that is no packet is `none`.
-/

namespace NetTrap.Interceptor

open Rust Net Octets

/-- The link types that `parse_packet` tells apart. -/
inductive Linktype where
  | ethernet
  | raw
  | ipv4
  | ipv6
  | null
  | loop
  | other
  deriving DecidableEq, Repr

variable (data : Bytes) (len : Nat)

/-- `parse_transport`, for data of which `packetEnd` bytes belong to the datagram. -/
def parseTransport (packetEnd transportOffset : Nat) (protocol : UInt8) (srcIp dstIp : IpAddr)
    (interface : Str) (now : Timestamp) : Option Packet :=
  if packetEnd < transportOffset then none
  else if protocol = 6 then
    if packetEnd < transportOffset + 20 then none
    else
      let tcpHeaderLen := (byteAt data (transportOffset + 12)).toNat / 16 * 4
      if tcpHeaderLen < 20 ∨ packetEnd < transportOffset + tcpHeaderLen then none
      else
        let flags := byteAt data (transportOffset + 13)
        let payloadStart := transportOffset + tcpHeaderLen
        let packet :=
          ((Packet.new now
            (.new srcIp dstIp (portAt data transportOffset)
                (portAt data (transportOffset + 2)) .tcp)
            (inferTcpDirection srcIp dstIp flags)
            ((data.take packetEnd).drop payloadStart)).withTcpFlags flags).withInterface interface
        some { packet with length := packetEnd }
  else if protocol = 17 then
    if packetEnd < transportOffset + 8 then none
    else
      let udpLen := be16At data (transportOffset + 4)
      if udpLen < 8 then none
      else
        let udpEnd := transportOffset + udpLen
        if udpEnd > packetEnd then none
        else
          let packet :=
            (Packet.new now
              (.new srcIp dstIp (portAt data transportOffset) (portAt data (transportOffset + 2))
                .udp)
              (inferDirection srcIp dstIp)
              ((data.take udpEnd).drop (transportOffset + 8))).withInterface interface
          some { packet with length := udpEnd }
  else if protocol = 1 ∨ protocol = 58 then
    let payloadStart := transportOffset + 8
    if packetEnd < payloadStart then none
    else
      let packet :=
        (Packet.new now (.new srcIp dstIp 0 0 .icmp) (inferDirection srcIp dstIp)
          ((data.take packetEnd).drop payloadStart)).withInterface interface
      some { packet with length := packetEnd }
  else none

/-- The loop of `ipv6_transport_start`, with the turns that are left. -/
def ipv6TransportLoop (data : Bytes) (packetEnd : Nat)
    : (turns : Nat) → UInt8 → Nat → Option (UInt8 × Nat)
  | 0, _, _ => none
  | turns + 1, protocol, offset =>
    if protocol = 0 ∨ protocol = 43 ∨ protocol = 60 then
      match data[offset]?, data[offset + 1]? with
      | some next, some len =>
        let nextOffset := offset + 8 * (len.toNat + 1)
        if nextOffset > packetEnd then none
        else ipv6TransportLoop data packetEnd turns next nextOffset
      | _, _ => none
    else if protocol = 44 then
      -- A fragment header is looked up in the whole capture, not in the datagram.
      if offset + 8 > data.length then none
      else if be16At data (offset + 2) ≠ 0 then none
      else ipv6TransportLoop data packetEnd turns (byteAt data offset) (offset + 8)
    else if protocol = 59 then none
    else some (protocol, offset)

def ipv6TransportStart (ipOffset packetEnd : Nat) : Option (UInt8 × Nat) :=
  ipv6TransportLoop data packetEnd 8 (byteAt data (ipOffset + 6)) (ipOffset + 40)

def parseIpv4 (len ipOffset : Nat) (interface : Str) (now : Timestamp) : Option Packet :=
  if len < ipOffset + 20 then none
  else
    let ihl := (byteAt data ipOffset).toNat % 16 * 4
    if ihl < 20 ∨ len < ipOffset + ihl then none
    else
      let totalLen := be16At data (ipOffset + 2)
      if totalLen < ihl then none
      else
        let packetEnd := ipOffset + totalLen
        if packetEnd > len then none
        else if be16At data (ipOffset + 6) % 16384 ≠ 0 then none
        else
          parseTransport data packetEnd (ipOffset + ihl) (byteAt data (ipOffset + 9))
            (.v4 (ipv4At data (ipOffset + 12))) (.v4 (ipv4At data (ipOffset + 16))) interface now

def parseIpv6 (len ipOffset : Nat) (interface : Str) (now : Timestamp) : Option Packet :=
  if len < ipOffset + 40 then none
  else
    let packetEnd := ipOffset + (40 + be16At data (ipOffset + 4))
    if packetEnd > len then none
    else
      match ipv6TransportStart data ipOffset packetEnd with
      | none => none
      | some (protocol, transportOffset) =>
        parseTransport data packetEnd transportOffset protocol
          (.v6 (ipv6At data (ipOffset + 8))) (.v6 (ipv6At data (ipOffset + 24))) interface now

def parseIpPacket (len offset : Nat) (versionHint : Option Nat) (interface : Str) (now : Timestamp)
    : Option Packet :=
  if len ≤ offset then none
  else
    let version := versionHint.getD ((byteAt data offset).toNat / 16 % 16)
    if version = 4 then parseIpv4 data len offset interface now
    else if version = 6 then parseIpv6 data len offset interface now
    else none

def maxVlanDepth : Nat := 8

/-- The loop over VLAN tags, with the depth that is left: the ethertype behind them, where
the network header starts, and the first tag.
-/
def vlanLoop (data : Bytes) (len : Nat)
    : (depth : Nat) → Nat → Nat → Option Nat → Option (Nat × Nat × Option Nat)
  | 0, ethertype, ipOffset, vlanTag =>
    if ethertype = 0x8100 ∨ ethertype = 0x88A8 then none
    else some (ethertype, ipOffset, vlanTag)
  | depth + 1, ethertype, ipOffset, vlanTag =>
    if ethertype = 0x8100 ∨ ethertype = 0x88A8 then
      if len < ipOffset + 4 then none
      else
        vlanLoop data len depth (be16At data (ipOffset + 2)) (ipOffset + 4)
          (vlanTag.or (some (be16At data ipOffset % 4096)))
    else some (ethertype, ipOffset, vlanTag)

def parseEthernet (data : Bytes) (len : Nat) (interface : Str) (now : Timestamp)
    : Option Packet :=
  if len < 14 then none
  else
    match vlanLoop data len maxVlanDepth (be16At data 12) 14 none with
    | none => none
    | some (ethertype, ipOffset, vlanTag) =>
      if ethertype = 0x0800 then
        (parseIpv4 data len ipOffset interface now).map (·.applyVlanTag vlanTag)
      else if ethertype = 0x86DD then
        (parseIpv6 data len ipOffset interface now).map (·.applyVlanTag vlanTag)
      else none

/-- The address family in front of a BSD loopback frame; hosts are little-endian. -/
def loopbackFamily (bigEndian : Bool) : Nat :=
  if bigEndian then be16At data 0 * 65536 + be16At data 2 else le32At data 0

def parseNullLoopback (bigEndian : Bool) (interface : Str) (now : Timestamp) : Option Packet :=
  if len < 4 then none
  else
    let family := loopbackFamily data bigEndian
    if family = 2 then parseIpv4 data len 4 interface now
    else if family = 23 ∨ family = 24 ∨ family = 28 ∨ family = 30 then
      parseIpv6 data len 4 interface now
    else none

/-- `parse_packet`: `len` is the length of the frame on the wire. -/
def parsePacket (data : Bytes) (len : Nat) (linktype : Linktype) (interface : Str)
    (now : Timestamp) : Option Packet :=
  let len := min len data.length
  match linktype with
  | .ethernet => parseEthernet data len interface now
  | .raw | .ipv4 => parseIpPacket data len 0 (some 4) interface now
  | .ipv6 => parseIpPacket data len 0 (some 6) interface now
  | .null => parseNullLoopback data len false interface now
  | .loop => parseNullLoopback data len true interface now
  | .other => parseIpPacket data len 0 none interface now

end NetTrap.Interceptor
