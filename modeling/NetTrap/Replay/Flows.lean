import NetTrap.Flows.Manager
import NetTrap.Session.Tracker

/-! Replay of a capture: packets are grouped into flows, and the payloads of the client's side are
kept. The hash of a five-tuple is a parameter.
-/

namespace NetTrap.Replay

open Rust Net Session Flows

def maxReplayFlows : Nat := 100000
def maxReplayFlowBytes : Nat := 16 * 1024 * 1024
def maxReplayTotalPayloadBytes : Nat := 128 * 1024 * 1024
def maxReplayFlowChunks : Nat := 4096
def maxReplayTotalPayloadChunks : Nat := 100000

structure ReplayLimits where
  (maxFlows maxFlowBytes maxTotalPayloadBytes maxFlowChunks maxTotalPayloadChunks : Nat)
  deriving DecidableEq, Repr

def ReplayLimits.default : ReplayLimits where
  maxFlows := maxReplayFlows
  maxFlowBytes := maxReplayFlowBytes
  maxTotalPayloadBytes := maxReplayTotalPayloadBytes
  maxFlowChunks := maxReplayFlowChunks
  maxTotalPayloadChunks := maxReplayTotalPayloadChunks

/-- An address with a port. -/
abbrev Endpoint := IpAddr × Port

structure ReplayFlow where
  protocol : Protocol
  clientIp : IpAddr
  clientPort : Port
  serverIp : IpAddr
  serverPort : Port
  firstTs : Timestamp
  packets : List (Bool × Bytes)
  retainedPayloadBytes : Nat
  deriving DecidableEq, Repr

/-- An endpoint as the numbers that its order compares, most significant first. -/
def endpointRank (endpoint : Endpoint) : List Nat :=
  match endpoint.1 with
  | .v4 ip => 4 :: ip.octets.map UInt8.toNat ++ [endpoint.2.val]
  | .v6 ip => 6 :: ip.octets.map UInt8.toNat ++ [endpoint.2.val]

/-- Sequences are compared by the first place at which they differ. -/
def lexLe : List Nat → List Nat → Bool
  | [], _ => true
  | _ :: _, [] => false
  | left :: lefts, right :: rights =>
    if left < right then true else if left = right then lexLe lefts rights else false

def canonicalReplayIp (ip : IpAddr) : IpAddr := normalizeSessionIp ip

/-- Both directions of a flow have one canonical five-tuple. -/
def canonicalFiveTuple (tuple : FiveTuple) : FiveTuple :=
  let srcIp := canonicalReplayIp tuple.srcIp
  let dstIp := canonicalReplayIp tuple.dstIp
  if lexLe (endpointRank (srcIp, tuple.srcPort)) (endpointRank (dstIp, tuple.dstPort)) then
    .new srcIp dstIp tuple.srcPort tuple.dstPort tuple.protocol
  else .new dstIp srcIp tuple.dstPort tuple.srcPort tuple.protocol

def source (packet : Packet) : Endpoint :=
  (packet.fiveTuple.srcIp, packet.fiveTuple.srcPort)

def destination (packet : Packet) : Endpoint :=
  (packet.fiveTuple.dstIp, packet.fiveTuple.dstPort)

def ReplayFlow.client (flow : ReplayFlow) : Endpoint :=
  (flow.clientIp, flow.clientPort)

def ReplayFlow.server (flow : ReplayFlow) : Endpoint :=
  (flow.serverIp, flow.serverPort)

/-- Whether the first packet of a flow comes from its client. -/
def clientIsSrc (packet : Packet) : Bool :=
  match packet.direction with
  | .outbound => true
  | .inbound => false
  | .unknown =>
    match packet.tcpFlags with
    | some flags =>
      if TcpFlags.contains flags TcpFlags.syn && TcpFlags.contains flags TcpFlags.ack then false
      else if TcpFlags.contains flags TcpFlags.syn then true
      else packet.fiveTuple.srcPort ≥ packet.fiveTuple.dstPort
    | none => packet.fiveTuple.srcPort ≥ packet.fiveTuple.dstPort

/-- The flow that a packet opens. -/
def openFlow (packet : Packet) : ReplayFlow :=
  let client := if clientIsSrc packet then source packet else Replay.destination packet
  let server := if clientIsSrc packet then Replay.destination packet else source packet
  { protocol := packet.fiveTuple.protocol
    clientIp := client.1
    clientPort := client.2
    serverIp := server.1
    serverPort := server.2
    firstTs := packet.timestamp
    packets := []
    retainedPayloadBytes := 0 }

/-- Whether a packet counts as one from the client to the server. -/
def isClientToServer (flow : ReplayFlow) (packet : Packet) : Bool :=
  match packet.direction with
  | .outbound => true
  | .inbound => false
  | .unknown => source packet = flow.client

/-- The state of the loop over the packets. -/
structure Grouping where
  flows : List ReplayFlow
  index : HashMap FlowKey Nat
  (retainedPayloadBytes retainedPayloadChunks : Nat)

def Grouping.empty : Grouping :=
  ⟨[], .empty, 0, 0⟩

variable (hash : FiveTuple → FlowKey)

/-- The place of a packet's flow, which is opened if it is new; there is none at the limit. -/
def Grouping.place (limits : ReplayLimits) (grouping : Grouping) (packet : Packet)
    : Option (Grouping × Nat) :=
  let key := hash (canonicalFiveTuple packet.fiveTuple)
  match grouping.index.get key with
  | some slot => some (grouping, slot)
  | none =>
    if grouping.flows.length ≥ limits.maxFlows then none
    else
      some ({ grouping with
          flows := grouping.flows ++ [openFlow packet]
          index := grouping.index.insert key grouping.flows.length },
        grouping.flows.length)

/-- A payload of the client is kept as far as there is room. -/
def Grouping.retain (limits : ReplayLimits) (grouping : Grouping) (slot : Nat) (flow : ReplayFlow)
    (payload : Bytes) : Grouping :=
  -- `checked_sub` fails where more is retained than the limit.
  if limits.maxFlowBytes < flow.retainedPayloadBytes
      ∨ limits.maxTotalPayloadBytes < grouping.retainedPayloadBytes then grouping
  else
    let flowRoom := limits.maxFlowBytes - flow.retainedPayloadBytes
    let totalRoom := limits.maxTotalPayloadBytes - grouping.retainedPayloadBytes
    let cappedByChunks := flow.packets.length ≥ limits.maxFlowChunks
      ∨ grouping.retainedPayloadChunks ≥ limits.maxTotalPayloadChunks
    let taken := min (min flowRoom totalRoom) payload.length
    if taken = 0 ∨ cappedByChunks then grouping
    else
      { grouping with
        flows := grouping.flows.set slot
          { flow with
            retainedPayloadBytes := flow.retainedPayloadBytes + taken
            packets := flow.packets ++ [(true, payload.take taken)] }
        retainedPayloadBytes := grouping.retainedPayloadBytes + taken
        retainedPayloadChunks := grouping.retainedPayloadChunks + 1 }

/-- One turn of the loop. The index has places of flows only. -/
def Grouping.add (limits : ReplayLimits) (grouping : Grouping) (packet : Packet) : Grouping :=
  match grouping.place hash limits packet with
  | none => grouping
  | some (grouping, slot) =>
    if packet.payload.isEmpty then grouping
    else
      match grouping.flows[slot]? with
      | none => grouping
      | some flow =>
        if !isClientToServer flow packet then grouping
        else grouping.retain limits slot flow packet.payload

def groupFlowsWithLimits (packets : List Packet) (limits : ReplayLimits) : List ReplayFlow :=
  (packets.foldl (Grouping.add hash limits) .empty).flows

def groupFlows (packets : List Packet) : List ReplayFlow :=
  groupFlowsWithLimits hash packets .default

def isStream (protocol : Protocol) : Bool :=
  protocol = .tcp

/-- The loop over the payloads of a stream, with the bytes before them. -/
def concatenate (buf : Bytes) : List (Bool × Bytes) → Bytes
  | [] => buf
  | (c2s, payload) :: packets =>
    if !c2s then concatenate buf packets
    else if buf.length ≥ maxReplayFlowBytes then buf
    else
      let taken := min (maxReplayFlowBytes - buf.length) payload.length
      concatenate (buf ++ payload.take taken) packets

def clientPayloads (flow : ReplayFlow) : List Bytes :=
  if isStream flow.protocol then
    let buf := concatenate [] flow.packets
    if buf.isEmpty then [] else [buf]
  else
    (flow.packets.filter fun packet => packet.1).map fun packet =>
      packet.2.take (min maxReplayFlowBytes packet.2.length)

end NetTrap.Replay
