import NetTrap.Library.Octets
import NetTrap.Rust.Net

/-! Packets as the core crate hands them around.
A packet's random identifier is left out: no modelled function reads it.
-/

namespace NetTrap.Net

open Rust Octets

inductive Protocol where
  | tcp
  | udp
  | icmp
  | igmp
  | unknown (number : UInt8)
  deriving DecidableEq, Repr

def Protocol.toIpProtocol : Protocol → UInt8
  | .tcp => 6
  | .udp => 17
  | .icmp => 1
  | .igmp => 2
  | .unknown number => number

/-- A transport port. -/
abbrev Port := Fin 65536

/-- Port literals are read with this instance. -/
instance portRange : NeZero 65536 :=
  ⟨by decide⟩

/-- `u16::to_be_bytes`. -/
def Port.toBeBytes (port : Port) : Bytes :=
  be16Bytes port.val

/-- `u16::from_be_bytes` of the two bytes at a position. -/
def portAt (data : Bytes) (index : Nat) : Port :=
  ⟨be16At data index, be16At_lt data index⟩

def canonicalizeIp : IpAddr → IpAddr
  | .v4 ip => .v4 ip
  | .v6 ip =>
    match ip.toIpv4Mapped with
    | some mapped => .v4 mapped
    | none => .v6 ip

structure FiveTuple where
  (srcIp dstIp : IpAddr)
  (srcPort dstPort : Port)
  protocol : Protocol
  deriving DecidableEq, Repr

/-- `FiveTuple::new`. -/
def FiveTuple.new (srcIp dstIp : IpAddr) (srcPort dstPort : Port) (protocol : Protocol)
    : FiveTuple :=
  ⟨canonicalizeIp srcIp, canonicalizeIp dstIp, srcPort, dstPort, protocol⟩

/-- Both addresses are as `FiveTuple::new` leaves them. -/
def FiveTuple.IsCanonical (tuple : FiveTuple) : Prop :=
  canonicalizeIp tuple.srcIp = tuple.srcIp ∧ canonicalizeIp tuple.dstIp = tuple.dstIp

theorem canonicalizeIp_idem (ip : IpAddr)
    : canonicalizeIp (canonicalizeIp ip) = canonicalizeIp ip := by
  cases ip with
  | v4 ip => rfl
  | v6 ip =>
    cases mapped : ip.toIpv4Mapped with
    | none | some inner => simp [canonicalizeIp, mapped]

theorem FiveTuple.new_isCanonical (srcIp dstIp : IpAddr) (srcPort dstPort : Port)
    (protocol : Protocol)
    : (FiveTuple.new srcIp dstIp srcPort dstPort protocol).IsCanonical :=
  ⟨canonicalizeIp_idem srcIp, canonicalizeIp_idem dstIp⟩

inductive PacketDirection where
  | inbound
  | outbound
  | unknown
  deriving DecidableEq, Repr

inductive PacketType where
  | syn
  | synAck
  | ack
  | fin
  | finAck
  | rst
  | push
  | data
  | unknown
  deriving DecidableEq, Repr

/-- The eight flag bits of a TCP header; every combination is a value. -/
abbrev TcpFlags := UInt8

namespace TcpFlags

def fin : TcpFlags := 0x01
def syn : TcpFlags := 0x02
def rst : TcpFlags := 0x04
def psh : TcpFlags := 0x08
def ack : TcpFlags := 0x10

def contains (flags other : TcpFlags) : Bool :=
  flags &&& other == other

def toPacketType (flags : TcpFlags) : PacketType :=
  if contains flags syn && !contains flags ack then .syn
  else if contains flags syn && contains flags ack then .synAck
  else if contains flags rst then .rst
  else if contains flags fin && !contains flags ack then .fin
  else if contains flags fin && contains flags ack then .finAck
  else if contains flags psh then .push
  else if contains flags ack then .ack
  else .unknown

end TcpFlags

/-- `chrono::DateTime<Utc>`: whole seconds since the epoch and nanoseconds. During a leap
second, which shares its number with the last second of a minute, the nanoseconds run on.
-/
structure Timestamp where
  seconds : Int
  nanos : Nat
  valid : nanos < 1000000000 ∨ seconds % 60 = 59 ∧ nanos < 2000000000
  deriving DecidableEq, Repr

namespace Timestamp

def epoch : Timestamp := ⟨0, 0, .inl (by decide)⟩

/-- `DateTime::from_timestamp`, for seconds in its range. -/
def fromTimestamp (seconds : Int) (nanos : Nat) : Option Timestamp :=
  if valid : nanos < 1000000000 ∨ seconds % 60 = 59 ∧ nanos < 2000000000 then
    some ⟨seconds, nanos, valid⟩
  else none

def subsecMicros (timestamp : Timestamp) : Nat :=
  timestamp.nanos / 1000

end Timestamp

structure Packet where
  timestamp : Timestamp
  fiveTuple : FiveTuple
  direction : PacketDirection
  packetType : PacketType
  tcpFlags : Option TcpFlags
  payload : Bytes
  length : Nat
  interface : Option Str
  vlanTag : Option Nat
  deriving DecidableEq, Repr

namespace Packet

/-- `Packet::new`, with the clock's reading as an argument. -/
def new (now : Timestamp) (fiveTuple : FiveTuple) (direction : PacketDirection) (payload : Bytes)
    : Packet where
  timestamp := now
  fiveTuple
  direction
  packetType := .unknown
  tcpFlags := none
  payload
  length := payload.length
  interface := none
  vlanTag := none

def withTcpFlags (packet : Packet) (flags : TcpFlags) : Packet :=
  { packet with packetType := TcpFlags.toPacketType flags, tcpFlags := some flags }

def withInterface (packet : Packet) (interface : Str) : Packet :=
  { packet with interface := some interface }

def withVlan (packet : Packet) (tag : Nat) : Packet :=
  { packet with vlanTag := some tag }

def applyVlanTag (packet : Packet) : Option Nat → Packet
  | some tag => packet.withVlan tag
  | none => packet

end Packet

/-- Loopback, private and link-local addresses, and the IPv6 ranges like them. -/
def isLocalAddress (ip : IpAddr) : Bool :=
  if ip.isLoopback then true
  else
    match ip with
    | .v4 ip => ip.isPrivate || ip.isLinkLocal
    | .v6 ip =>
      match ip.toIpv4Mapped with
      | some mapped => mapped.isPrivate || mapped.isLinkLocal || mapped.isLoopback
      | none =>
        byteAt ip.octets 0 &&& 0xFE == 0xFC
          || (byteAt ip.octets 0 == 0xFE && byteAt ip.octets 1 &&& 0xC0 == 0x80)

def inferDirection (srcIp dstIp : IpAddr) : PacketDirection :=
  match isLocalAddress srcIp, isLocalAddress dstIp with
  | true, false => .outbound
  | false, true => .inbound
  | _, _ => .unknown

def inferTcpDirection (srcIp dstIp : IpAddr) (flags : TcpFlags) : PacketDirection :=
  if TcpFlags.contains flags TcpFlags.syn && !TcpFlags.contains flags TcpFlags.ack then .outbound
  else if TcpFlags.contains flags TcpFlags.syn && TcpFlags.contains flags TcpFlags.ack then
    .inbound
  else inferDirection srcIp dstIp

end NetTrap.Net
