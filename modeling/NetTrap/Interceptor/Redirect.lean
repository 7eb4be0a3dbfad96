import NetTrap.Interceptor.RedirectTable
import NetTrap.Pcap.Reader

/-! Redirecting packets to local listeners and rewriting the answers. -/

namespace NetTrap.Interceptor

open Rust Net Octets

def ipprotoTcp : UInt8 := 6

def ipprotoUdp : UInt8 := 17

structure PortRedirect where
  sourcePort : Option Port
  targetPort : Port
  isTcp : Bool
  deriving DecidableEq, Repr

/-- What `packet_metadata` finds in a packet. -/
structure PacketMetadata where
  isIpv6 : Bool
  protocol : UInt8
  transportOffset : Nat
  (src dst : IpAddr)
  totalLen : Nat
  deriving DecidableEq, Repr

/-- The checks on the transport header, the same for both versions of IP. -/
def transportFits (data : Bytes) (protocol : UInt8) (transportOffset totalLen : Nat) : Bool :=
  if protocol = ipprotoTcp then
    if totalLen < transportOffset + 20 then false
    else
      let transportLen := (byteAt data (transportOffset + 12)).toNat / 16 * 4
      20 ≤ transportLen && transportLen ≤ 60 && !(totalLen < transportOffset + transportLen)
  else if protocol = ipprotoUdp then !(totalLen < transportOffset + 8)
  else true

/-- `ipv6_transport_start`, whose loop is the one of the reader of capture files. -/
def transportStart (data : Bytes) (offset : Nat) : Option (UInt8 × Nat) :=
  Pcap.ipv6TransportLoop data 8 (byteAt data 6) offset

def ipv4Metadata (data : Bytes) (capturedLen : Nat) : Option PacketMetadata :=
  if capturedLen < 20 then none
  else
    let ihl := (byteAt data 0).toNat % 16 * 4
    if !(20 ≤ ihl && ihl ≤ 60) || capturedLen < ihl then none
    else
      let totalLen := be16At data 2
      if totalLen < ihl || totalLen > capturedLen then none
      else if be16At data 6 % 16384 ≠ 0 then none
      else
        let protocol := byteAt data 9
        if transportFits data protocol ihl totalLen then
          some ⟨false, protocol, ihl, .v4 (ipv4At data 12), .v4 (ipv4At data 16), totalLen⟩
        else none

def ipv6Metadata (data : Bytes) (capturedLen : Nat) : Option PacketMetadata :=
  if capturedLen < 40 then none
  else
    let totalLen := 40 + be16At data 4
    if totalLen > capturedLen then none
    else
      match transportStart (data.take totalLen) 40 with
      | none => none
      | some (protocol, transportOffset) =>
        if transportFits data protocol transportOffset totalLen then
          some ⟨true, protocol, transportOffset, .v6 (ipv6At data 8), .v6 (ipv6At data 24),
            totalLen⟩
        else none

def packetMetadata (data : Bytes) (len : Nat) : Option PacketMetadata :=
  let capturedLen := min len data.length
  match data with
  | [] => none
  | first :: _ =>
    if first.toNat / 16 = 4 then ipv4Metadata data capturedLen
    else if first.toNat / 16 = 6 then ipv6Metadata data capturedLen
    else none

def redirectTarget (redirects : List PortRedirect) (protocol : UInt8) (destinationPort : Port)
    : Option Port :=
  let isTcp := protocol == ipprotoTcp
  ((redirects.find? fun redirect =>
      redirect.isTcp == isTcp && redirect.sourcePort == some destinationPort).or
    (redirects.find? fun redirect => redirect.isTcp == isTcp && redirect.sourcePort.isNone)).map
    (·.targetPort)

/-- Where an address stands in the header. -/
def addressStart (isIpv6 source : Bool) : Nat :=
  if isIpv6 then if source then 8 else 24 else if source then 12 else 16

/-- Where a port stands in the packet. -/
def portStart (transportOffset : Nat) (source : Bool) : Nat :=
  transportOffset + if source then 0 else 2

/-- The bytes of an address, if it is of the packet's family. -/
def addressBytes (isIpv6 : Bool) (address : IpAddr) : Option Bytes :=
  match isIpv6, address with
  | true, .v6 address => some address.octets
  | false, .v4 address => some address.octets
  | _, _ => none

/-- `rewrite_endpoint`: whether it succeeded, and the packet. -/
def rewriteEndpoint (data : Bytes) (isIpv6 : Bool) (transportOffset : Nat) (source : Bool)
    (address : IpAddr) (port : Port) : Bool × Bytes :=
  match addressBytes isIpv6 address with
  | none => (false, data)
  | some bytes =>
    if data.length < addressStart isIpv6 source + bytes.length then (false, data)
    else
      let data := overwrite data (addressStart isIpv6 source) bytes
      if data.length < portStart transportOffset source + 2 then (false, data)
      else (true, overwrite data (portStart transportOffset source) port.toBeBytes)

/-- `Ipv4Addr::LOCALHOST` or `Ipv6Addr::LOCALHOST`. -/
def localhost (isIpv6 : Bool) : IpAddr :=
  if isIpv6 then .v6 ⟨List.replicate 15 0 ++ [1], rfl⟩ else .v4 (.new 127 0 0 1)

/-- A packet as the driver hands it over, with what else `redirect_packet` depends on. -/
structure Diverted where
  data : Bytes
  len : Nat
  outbound : Bool
  redirects : List PortRedirect
  now : Instant
  order : EntryOrder

/-- What `redirect_packet` leaves behind. -/
structure Redirected where
  result : Except String Unit
  data : Bytes
  flows : RedirectFlowTable

/-- The end of `redirect_packet`, after an endpoint was to be rewritten. -/
def finishRewrite (rewritten : Bool × Bytes) (failure : String) (totalLen : Nat)
    (flows : RedirectFlowTable) : Redirected :=
  if !rewritten.1 then ⟨.error failure, rewritten.2, flows⟩
  else if totalLen > rewritten.2.length then
    ⟨.error "WinDivert packet length exceeds buffer", rewritten.2, flows⟩
  else ⟨.ok (), rewritten.2, flows⟩

def redirectOutbound (packet : Diverted) (metadata : PacketMetadata) (srcPort dstPort : Port)
    (flows : RedirectFlowTable) : Redirected :=
  if metadata.dst.isLoopback then ⟨.ok (), packet.data, flows⟩
  else
    let key : FlowKey := ⟨metadata.protocol, ⟨metadata.src, srcPort⟩, ⟨metadata.dst, dstPort⟩⟩
    let (known, flows) := flows.outboundListener packet.order key packet.now
    match known.or (redirectTarget packet.redirects metadata.protocol dstPort) with
    | none => ⟨.ok (), packet.data, flows⟩
    | some listenerPort =>
      let flows :=
        if flows.entries.containsKey key then flows else flows.insert key listenerPort packet.now
      finishRewrite
        (rewriteEndpoint packet.data metadata.isIpv6 metadata.transportOffset false
          (localhost metadata.isIpv6) listenerPort)
        "Failed to rewrite outbound endpoint" metadata.totalLen flows

def redirectInbound (packet : Diverted) (metadata : PacketMetadata) (srcPort dstPort : Port)
    (flows : RedirectFlowTable) : Redirected :=
  if !metadata.src.isLoopback then ⟨.ok (), packet.data, flows⟩
  else
    let reverse : ReverseFlowKey := ⟨metadata.protocol, ⟨metadata.dst, dstPort⟩, srcPort⟩
    match flows.inboundDestination packet.order reverse packet.now with
    | (none, flows) => ⟨.ok (), packet.data, flows⟩
    | (some originalDestination, flows) =>
      finishRewrite
        (rewriteEndpoint packet.data metadata.isIpv6 metadata.transportOffset true
          originalDestination.ip originalDestination.port)
        "Failed to rewrite inbound endpoint" metadata.totalLen flows

def redirectPacket (packet : Diverted) (flows : RedirectFlowTable) : Redirected :=
  match packetMetadata packet.data packet.len with
  | none => ⟨.ok (), packet.data, flows⟩
  | some metadata =>
    if metadata.protocol ≠ ipprotoTcp ∧ metadata.protocol ≠ ipprotoUdp then
      ⟨.ok (), packet.data, flows⟩
    else
      let srcPort := portAt packet.data metadata.transportOffset
      let dstPort := portAt packet.data (metadata.transportOffset + 2)
      if packet.outbound then redirectOutbound packet metadata srcPort dstPort flows
      else redirectInbound packet metadata srcPort dstPort flows

end NetTrap.Interceptor
