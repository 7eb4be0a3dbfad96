import NetTrap.Pcap.RoundTrip
import NetTrap.Replay.Attribution

/-! When the payloads of a replayed flow are those of its client.
A capture is judged by its shape: where its packets come from and go to, their flags and the lengths
of their payloads. What the payloads say is left open.
-/

namespace NetTrap.Replay

open Rust Net Flows List

/-- One flow for each conversation, in the order in which they are first seen, and each with the
payloads of its client. -/
structure Faithful (packets : List Packet) (flows : List ReplayFlow) : Prop where
  grouped : flows.map ReplayFlow.conversation = conversations packets
  attributed : ∀ flow ∈ flows,
    clientPayloads flow
      = presented flow.protocol
        (payloadsOf (fun packet => source packet = flow.client) packets flow.conversation)

/-- The client that a packet tells by itself: it opens a connection or answers to that, or it goes
between a local and a public address. -/
def tells (packet : Packet) : Option Endpoint :=
  if packet.tcpFlags.any (TcpFlags.contains · TcpFlags.syn) then
    if packet.tcpFlags.any (TcpFlags.contains · TcpFlags.ack) then some (destination packet)
    else some (source packet)
  else
    match isLocalAddress packet.fiveTuple.srcIp, isLocalAddress packet.fiveTuple.dstIp with
    | true, false => some (source packet)
    | false, true => some (destination packet)
    | _, _ => none

/-- The client that the first packet of a conversation tells, or else its end with the higher
port. -/
def toldClient (packets : List Packet) (of : Conversation) : Option Endpoint :=
  (packets.find? fun packet => conversation packet = of).map fun first =>
    (tells first).getD
      (if first.fiveTuple.srcPort ≥ first.fiveTuple.dstPort then source first
        else destination first)

/-- No payload comes with a packet that tells another client than the first packet of its
conversation. -/
def SidesAgree (packets : List Packet) : Prop :=
  ∀ packet ∈ packets, packet.payload ≠ [] → ∀ client ∈ tells packet,
    toldClient packets (conversation packet) = some client

instance (packets : List Packet) : Decidable (SidesAgree packets) :=
  inferInstanceAs (Decidable (∀ packet ∈ packets, _))

/-- A direction that is known agrees with the first packet of the conversation: what goes out comes
from its client, and what comes in does not. -/
def DirectionsAgree (packets : List Packet) : Prop :=
  ∀ packet ∈ packets, packet.payload ≠ [] → packet.direction ≠ .unknown →
    (packet.direction = .outbound ↔ clientOf packets (conversation packet) = some (source packet))

/-- The same packets with other texts of the same lengths. -/
def Relabels (packets others : List Packet) : Prop :=
  List.Forall₂ (fun packet other =>
      other.payload.length = packet.payload.length
      ∧ other = { packet with payload := other.payload })
    packets others

/-! The directions of packets that come from a capture file. -/

section Reading

variable {packet : Packet} {packets : List Packet}

/-- The addresses are canonical, and the direction is inferred from them and the flags. -/
structure Directed (packet : Packet) : Prop where
  canonical : packet.fiveTuple.IsCanonical
  inferred : packet.direction
    = match packet.tcpFlags with
      | some flags => inferTcpDirection packet.fiveTuple.srcIp packet.fiveTuple.dstIp flags
      | none => inferDirection packet.fiveTuple.srcIp packet.fiveTuple.dstIp

theorem isLocalAddress_canonicalizeIp (ip : IpAddr)
    : isLocalAddress (canonicalizeIp ip) = isLocalAddress ip := by
  cases ip with
  | v4 ip => rfl
  | v6 ip =>
    cases mapped : ip.toIpv4Mapped with
    | none => rw [canonicalizeIp, mapped]
    | some plain =>
      have foreign : ip.isLoopback = false := by
        rw [Bool.eq_false_iff]
        intro loopback
        rw [Ipv6Addr.isLoopback, beq_iff_eq] at loopback
        unfold Ipv6Addr.toIpv4Mapped at mapped
        split_ifs at mapped with front
        rw [loopback] at front
        exact absurd front (by decide)
      rw [canonicalizeIp, mapped]
      simp only [isLocalAddress, IpAddr.isLoopback, foreign, mapped]
      by_cases loopback : plain.isLoopback = true <;> simp [loopback]

theorem directed_parseTransport {data offset protocol srcIp dstIp timestamp origLen}
    (parsed : Pcap.parseTransport data offset protocol srcIp dstIp timestamp origLen = some packet)
    : Directed packet := by
  unfold Pcap.parseTransport at parsed
  dsimp only at parsed
  split_ifs at parsed <;> cases parsed <;> refine ⟨FiveTuple.new_isCanonical _ _ _ _ _, ?_⟩ <;>
    simp [Packet.new, Packet.withTcpFlags, FiveTuple.new, inferTcpDirection, inferDirection,
      isLocalAddress_canonicalizeIp]

theorem Directed.applyVlanTag (directed : Directed packet) (tag : Option Nat)
    : Directed (packet.applyVlanTag tag) := by
  cases tag with
  | none => exact directed
  | some tag => exact ⟨directed.canonical, directed.inferred⟩

theorem directed_of_readFile {buf : Bytes} (read : Pcap.readFile buf = .ok packets)
    (member : packet ∈ packets)
    : Directed packet := by
  obtain ⟨-, format, linktype, snaplen, header, records, -, -, -, -, rfl⟩ :=
    Pcap.readFile_ok_iff.mp read
  obtain ⟨record, -, decoded⟩ := mem_filterMap.mp member
  unfold Pcap.decodeRecord Pcap.parseLinkPacket at decoded
  dsimp only at decoded
  split_ifs at decoded
  split at decoded
  · cases decoded
  split_ifs at decoded
  all_goals obtain ⟨inner, parsed, rfl⟩ := Option.map_eq_some_iff.mp decoded
  all_goals refine Directed.applyVlanTag ?_ _
  · unfold Pcap.parseIpv4Packet at parsed
    dsimp only at parsed
    split_ifs at parsed
    exact directed_parseTransport parsed
  · unfold Pcap.parseIpv6Packet at parsed
    dsimp only at parsed
    split_ifs at parsed
    split at parsed
    · cases parsed
    · exact directed_parseTransport parsed

/-- The direction says what the packet tells. -/
theorem Directed.tells_eq (directed : Directed packet)
    : tells packet
      = match packet.direction with
        | .outbound => some (source packet)
        | .inbound => some (destination packet)
        | .unknown => none := by
  rw [directed.inferred, tells]
  cases packet.tcpFlags with
  | none => grind [inferDirection]
  | some flags => grind [inferDirection, inferTcpDirection]

theorem Directed.client_eq (directed : Directed packet)
    : (openFlow packet).client
      = (tells packet).getD
        (if packet.fiveTuple.srcPort ≥ packet.fiveTuple.dstPort then source packet
          else destination packet) := by
  have opened : (openFlow packet).client
      = if clientIsSrc packet then source packet else destination packet := rfl
  rw [opened, clientIsSrc, directed.tells_eq]
  cases known : packet.direction with
  | outbound | inbound => rfl
  | unknown =>
    have inferred := directed.inferred
    rw [known] at inferred
    cases flags : packet.tcpFlags with
    | none => simp
    | some flags' => grind [inferDirection, inferTcpDirection]

theorem clientOf_eq_toldClient (directed : ∀ packet ∈ packets, Directed packet)
    (of : Conversation)
    : clientOf packets of = toldClient packets of := by
  rw [clientOf, toldClient]
  cases found : packets.find? fun packet => conversation packet = of with
  | none => rfl
  | some first => exact congrArg some (directed first (mem_of_find?_eq_some found)).client_eq

/-- The client of a packet's conversation is one of the packet's own ends. -/
theorem clientOf_conversation (member : packet ∈ packets)
    : clientOf packets (conversation packet) = some (source packet)
      ∨ clientOf packets (conversation packet) = some (destination packet) := by
  rw [clientOf]
  cases found : packets.find? fun other => conversation other = conversation packet with
  | none => exact absurd (find?_eq_none.mp found packet member) (by simp)
  | some first =>
    have same : conversation first = conversation packet := by simpa using find?_some found
    have opened : (openFlow first).client
        = if clientIsSrc first then source first else destination first := rfl
    rw [Option.map_some, opened]
    rcases Sym2.eq_iff.mp (Prod.ext_iff.mp same).1 with ⟨from', to'⟩ | ⟨from', to'⟩ <;>
      rw [from', to'] <;> cases clientIsSrc first <;> simp

theorem directionsAgree_iff (directed : ∀ packet ∈ packets, Directed packet)
    (distinct : ∀ packet ∈ packets, source packet ≠ destination packet)
    : DirectionsAgree packets ↔ SidesAgree packets := by
  refine forall₂_congr fun packet member => imp_congr_right fun _ => ?_
  rw [(directed packet member).tells_eq, ← clientOf_eq_toldClient directed]
  have ends := clientOf_conversation member
  have apart := distinct packet member
  cases packet.direction <;> grind

end Reading

section Agreement

variable {packets : List Packet}

theorem taken_eq_of_directionsAgree (agree : DirectionsAgree packets) {packet}
    (member : packet ∈ packets)
    (nonempty : packet.payload ≠ [])
    : takenForClient packets packet = fromClient packets packet := by
  have side := agree packet member nonempty
  rw [takenForClient]
  cases direction : packet.direction with
  | unknown => rfl
  | outbound =>
    rw [direction] at side
    exact (decide_eq_true ((side (by simp)).mp rfl)).symm
  | inbound =>
    rw [direction] at side
    refine (decide_eq_false fun client => ?_).symm
    cases (side (by simp)).mpr client

theorem directionsAgree_of_taken_eq
    (same : ∀ packet ∈ packets, packet.payload ≠ [] →
      takenForClient packets packet = fromClient packets packet)
    : DirectionsAgree packets := by
  intro packet member nonempty known
  have side := same packet member nonempty
  rw [takenForClient] at side
  cases direction : packet.direction with
  | unknown => exact absurd direction known
  | outbound =>
    rw [direction] at side
    exact iff_of_true rfl (of_decide_eq_true side.symm)
  | inbound =>
    rw [direction] at side
    exact iff_of_false (by simp) (of_decide_eq_false side.symm)

variable {left right : Packet → Bool}

/-- Filters that agree on packets with payloads keep the same ones. -/
theorem payloads_congr {few}
    (same : ∀ packet ∈ few, packet.payload ≠ [] → left packet = right packet)
    : payloads left few = payloads right few := by
  rw [payloads, payloads]
  refine congrArg _ (filter_congr fun packet member => ?_)
  by_cases nonempty : packet.payload = []
  · simp [nonempty]
  · rw [same packet member nonempty]

theorem payloadsOf_congr {few of}
    (same : ∀ packet ∈ few, conversation packet = of → packet.payload ≠ [] →
      left packet = right packet)
    : payloadsOf left few of = payloadsOf right few of := by
  refine payloads_congr fun packet member => ?_
  obtain ⟨among, own⟩ := mem_filter.mp member
  exact same packet among (by simpa using own)

theorem Within.congr (within : Within left packets)
    (same : ∀ packet ∈ packets, packet.payload ≠ [] → left packet = right packet)
    : Within right packets where
  flows := within.flows
  flowBytes of := by
    rw [← payloadsOf_congr fun packet member _ => same packet member]
    exact within.flowBytes of
  flowChunks of := by
    rw [← payloadsOf_congr fun packet member _ => same packet member]
    exact within.flowChunks of
  totalBytes := by
    rw [← payloads_congr same]
    exact within.totalBytes
  totalChunks := by
    rw [← payloads_congr same]
    exact within.totalChunks

theorem payloads_sublist (keeps : Packet → Bool) (few : List Packet)
    : (payloads keeps few).Sublist (payloads (fun _ => true) few) := by
  refine List.Sublist.map _ (monotone_filter_right few fun packet => ?_)
  cases keeps packet <;> simp

/-- Keeping less stays within the limits. -/
theorem Within.weaken (within : Within (fun _ => true) packets) (keeps : Packet → Bool)
    : Within keeps packets where
  flows := within.flows
  flowBytes of := (payloads_sublist keeps _).flatten.length_le.trans (within.flowBytes of)
  flowChunks of := (payloads_sublist keeps _).length_le.trans (within.flowChunks of)
  totalBytes := (payloads_sublist keeps _).flatten.length_le.trans within.totalBytes
  totalChunks := (payloads_sublist keeps _).length_le.trans within.totalChunks

theorem fromClient_eq {flow : ReplayFlow} {packet : Packet}
    (client : clientOf packets flow.conversation = some flow.client)
    (own : conversation packet = flow.conversation)
    : fromClient packets packet = decide (source packet = flow.client) := by
  rw [fromClient, own, client]
  simp only [Option.some.injEq, decide_eq_decide]
  exact eq_comm

end Agreement

section Hypotheses

variable {hash : FiveTuple → FlowKey} {packets : List Packet} (keyed : Keyed hash packets)
include keyed

/-- What a flow presents are the payloads that were taken for its client's. -/
theorem groupFlows_taken (within : Within (takenForClient packets) packets)
    : (groupFlows hash packets).map ReplayFlow.conversation = conversations packets
      ∧ ∀ flow ∈ groupFlows hash packets, clientOf packets flow.conversation = some flow.client
        ∧ clientPayloads flow = presented flow.protocol
            (payloadsOf (takenForClient packets) packets flow.conversation) := by
  obtain ⟨grouping, flows, holds⟩ := groupFlows_holds keyed within
  rw [← flows]
  refine ⟨holds.flows, fun flow member => ⟨holds.client flow member, ?_⟩⟩
  exact clientPayloads_eq (holds.kept flow member) (within.flowBytes _)

/-- Where the sides agree, the client's payloads are presented. -/
theorem faithful_of_directionsAgree (within : Within (fromClient packets) packets)
    (agree : DirectionsAgree packets)
    : Faithful packets (groupFlows hash packets) := by
  have same : ∀ packet ∈ packets, packet.payload ≠ [] →
      fromClient packets packet = takenForClient packets packet :=
    fun packet member nonempty => (taken_eq_of_directionsAgree agree member nonempty).symm
  obtain ⟨grouped, taken⟩ := groupFlows_taken keyed (within.congr same)
  refine ⟨grouped, fun flow member => ?_⟩
  obtain ⟨client, presents⟩ := taken flow member
  rw [presents]
  refine congrArg _ (payloadsOf_congr fun packet among own nonempty => ?_)
  rw [← same packet among nonempty]
  exact fromClient_eq client own

/-- Where different texts do not matter, the sides agree. -/
theorem taken_eq_of_faithful (within : Within (takenForClient packets) packets)
    (faithful : Faithful packets (groupFlows hash packets)) {of} (seen : of ∈ conversations packets)
    : (payloadsOf (takenForClient packets) packets of).flatten
      = (payloadsOf (fromClient packets) packets of).flatten := by
  obtain ⟨grouped, taken⟩ := groupFlows_taken keyed within
  rw [← grouped] at seen
  obtain ⟨flow, member, rfl⟩ := mem_map.mp seen
  obtain ⟨client, presents⟩ := taken flow member
  have attributed := faithful.attributed flow member
  rw [presents] at attributed
  have texts := congrArg flatten attributed
  rw [flatten_presented, flatten_presented] at texts
  rw [texts]
  refine congrArg _ (payloadsOf_congr fun packet _ own _ => ?_)
  exact (fromClient_eq client own).symm

end Hypotheses

section Relabelling

variable {packets others : List Packet} (relabels : Relabels packets others)

include relabels

/-- What does not depend on the texts is the same. -/
theorem Relabels.map_eq {α : Type} {of : Packet → α}
    (textless : ∀ packet text, of { packet with payload := text } = of packet)
    : others.map of = packets.map of := by
  induction relabels with
  | nil => rfl
  | @cons packet other _ _ same _ ih =>
    rw [map_cons, map_cons, ih, same.2, textless]

theorem Relabels.conversations_eq : conversations others = conversations packets := by
  rw [conversations, conversations, relabels.map_eq fun _ _ => rfl]

theorem Relabels.clientOf_eq (of : Conversation) : clientOf others of = clientOf packets of := by
  induction relabels with
  | nil => rfl
  | @cons packet other packets others same _ ih =>
    have own : conversation other = conversation packet := by
      rw [same.2]
      rfl
    rw [clientOf, clientOf, find?_cons, find?_cons, own]
    split
    · rw [Option.map_some, Option.map_some, same.2]
      rfl
    · exact ih

theorem Relabels.filter (keeps : Packet → Bool)
    (textless : ∀ packet text, keeps { packet with payload := text } = keeps packet)
    : Relabels (packets.filter keeps) (others.filter keeps) := by
  induction relabels with
  | nil => exact .nil
  | @cons packet other _ _ same _ ih =>
    have own : keeps other = keeps packet := by
      rw [same.2, textless]
    rw [filter_cons, filter_cons, own]
    split
    · exact .cons same ih
    · exact ih

theorem Relabels.lengths
    : (payloads (fun _ => true) others).map length
      = (payloads (fun _ => true) packets).map length := by
  induction relabels with
  | nil => rfl
  | @cons packet other packets others same _ ih =>
    have emptiness : other.payload.isEmpty = packet.payload.isEmpty := by
      rw [Bool.eq_iff_iff, isEmpty_iff_length_eq_zero, isEmpty_iff_length_eq_zero, same.1]
    rw [← singleton_append, ← singleton_append (x := packet), payloads_append,
      payloads_append, map_append, map_append, ih, payloads_singleton,
      payloads_singleton, emptiness]
    split
    · exact congrArg (fun length => [length] ++ _) same.1
    · rfl

theorem Relabels.within (within : Within (fun _ => true) packets)
    : Within (fun _ => true) others := by
  have sizes {left right : List Bytes} (lengths : left.map length = right.map length)
      : left.flatten.length = right.flatten.length ∧ left.length = right.length := by
    refine ⟨?_, ?_⟩
    · rw [length_flatten, lengths, length_flatten]
    · rw [← length_map, lengths, length_map]
  have total := sizes relabels.lengths
  have own (of : Conversation) :=
    sizes (relabels.filter (fun packet => conversation packet = of) fun _ _ => rfl).lengths
  exact {
    flows := relabels.conversations_eq ▸ within.flows
    flowBytes := fun of => (own of).1.trans_le (within.flowBytes of)
    flowChunks := fun of => (own of).2.trans_le (within.flowChunks of)
    totalBytes := total.1.trans_le within.totalBytes
    totalChunks := total.2.trans_le within.totalChunks }

theorem Relabels.of_mem {other} (member : other ∈ others)
    : ∃ packet ∈ packets, other.payload.length = packet.payload.length
        ∧ other = { packet with payload := other.payload } := by
  induction relabels with
  | nil => cases member
  | @cons packet first packets others same _ ih =>
    rcases mem_cons.mp member with rfl | later
    · exact ⟨packet, mem_cons_self .., same⟩
    · obtain ⟨packet, among, same⟩ := ih later
      exact ⟨packet, mem_cons_of_mem _ among, same⟩

theorem Relabels.directionsAgree (agree : DirectionsAgree packets) : DirectionsAgree others := by
  intro other member nonempty known
  obtain ⟨packet, among, length, same⟩ := relabels.of_mem member
  have direction : other.direction = packet.direction := by
    rw [same]
  have own : conversation other = conversation packet := by
    rw [same]
    rfl
  have sameSource : source other = source packet := by
    rw [same]
    rfl
  rw [relabels.clientOf_eq, direction, own, sameSource]
  rw [direction] at known
  refine agree packet among ?_ known
  intro nothing
  rw [nothing] at length
  exact nonempty (length_eq_zero_iff.mp length)

end Relabelling

section Marking

/-- The packet with one byte throughout its payload. -/
def filled (byte : UInt8) (packet : Packet) : Packet :=
  { packet with payload := List.replicate packet.payload.length byte }

section

variable {packets others} (relabels : Relabels packets others) (byte : UInt8) (packet : Packet)
include relabels byte packet

theorem Relabels.fromClient_filled
    : fromClient others (filled byte packet) = fromClient packets packet := by
  rw [fromClient, fromClient, relabels.clientOf_eq]
  rfl

theorem Relabels.takenForClient_filled
    : takenForClient others (filled byte packet) = takenForClient packets packet := by
  rw [takenForClient, takenForClient, relabels.fromClient_filled]
  rfl

end

/-- Every text is blank but that of one packet. -/
def marked (before : List Packet) (packet : Packet) (after : List Packet) : List Packet :=
  before.map (filled 0) ++ filled 1 packet :: after.map (filled 0)

theorem relabels_filled (byte : UInt8) (packets : List Packet)
    : Relabels packets (packets.map (filled byte)) := by
  refine forall₂_map_right_iff.mpr (forall₂_same.mpr fun packet _ => ?_)
  exact ⟨length_replicate, rfl⟩

theorem relabels_marked (before : List Packet) (packet : Packet) (after : List Packet)
    : Relabels (before ++ packet :: after) (marked before packet after) := by
  refine rel_append (relabels_filled 0 before) (.cons ?_ (relabels_filled 0 after))
  exact ⟨length_replicate, rfl⟩

theorem mark_not_mem_blank (keeps : Packet → Bool) (packets : List Packet) (of : Conversation)
    : 1 ∉ (payloadsOf keeps (packets.map (filled 0)) of).flatten := by
  intro member
  obtain ⟨text, among, mark⟩ := mem_flatten.mp member
  rw [payloadsOf, payloads, mem_map] at among
  obtain ⟨other, kept, rfl⟩ := among
  obtain ⟨packet, _, rfl⟩ := mem_map.mp (mem_filter.mp (mem_filter.mp kept).1).1
  exact absurd (eq_of_mem_replicate mark) (by decide)

/-- The mark is among the payloads exactly where that packet's is kept. -/
theorem mark_mem_iff (keeps : Packet → Bool) (before : List Packet) {packet} (after : List Packet)
    (nonempty : packet.payload ≠ [])
    : 1 ∈ (payloadsOf keeps (marked before packet after) (conversation packet)).flatten
      ↔ keeps (filled 1 packet) = true := by
  have own : conversation (filled 1 packet) = conversation packet := rfl
  have length : packet.payload.length ≠ 0 := mt length_eq_zero_iff.mp nonempty
  have text : (filled 1 packet).payload.isEmpty = false := by
    simp [filled, nonempty]
  rw [marked, ← singleton_append, payloadsOf_append, payloadsOf_append, flatten_append,
    flatten_append, mem_append, mem_append, payloadsOf_singleton, if_pos own,
    payloads_singleton, text]
  have left := mark_not_mem_blank keeps before (conversation packet)
  have right := mark_not_mem_blank keeps after (conversation packet)
  cases keeps (filled 1 packet) <;> simp [left, right, filled, length]

theorem seen_marked (before : List Packet) (packet : Packet) (after : List Packet)
    : conversation packet ∈ conversations (marked before packet after) := by
  rw [(relabels_marked before packet after).conversations_eq, conversations, mem_eraseDups]
  simp

end Marking

/-- Captures within the limits, in which no packet goes to where it comes from: flows present the
payloads of their clients, whatever the payloads say, exactly where no packet tells another client
than the first one. -/
theorem replay_sides_agree_iff (hash : FiveTuple → FlowKey) (buf : Bytes) (packets : List Packet)
    (read : Pcap.readFile buf = .ok packets)
    (distinct : ∀ packet ∈ packets, source packet ≠ destination packet)
    (injective : ∀ left ∈ packets, ∀ right ∈ packets,
      hash (canonicalFiveTuple left.fiveTuple) = hash (canonicalFiveTuple right.fiveTuple) →
      canonicalFiveTuple left.fiveTuple = canonicalFiveTuple right.fiveTuple)
    : (Within (fromClient packets) packets → SidesAgree packets →
        Faithful packets (groupFlows hash packets))
      ∧ (Within (fun _ => true) packets →
        ((∀ others, Relabels packets others → Faithful others (groupFlows hash others))
          ↔ SidesAgree packets)) := by
  have directed (packet) (member : packet ∈ packets) := directed_of_readFile read member
  have relabelled {others : List Packet} (relabels : Relabels packets others)
      : Keyed hash others := by
    have origin (other : Packet) (member : other ∈ others)
        : ∃ packet ∈ packets, other.fiveTuple = packet.fiveTuple := by
      obtain ⟨packet, among, _, same⟩ := relabels.of_mem member
      exact ⟨packet, among, by rw [same]⟩
    refine ⟨?_, ?_⟩
    · intro other member
      obtain ⟨packet, among, same⟩ := origin other member
      exact same ▸ (directed packet among).canonical
    · intro left leftMember right rightMember
      obtain ⟨first, firstAmong, firstSame⟩ := origin left leftMember
      obtain ⟨second, secondAmong, secondSame⟩ := origin right rightMember
      rw [firstSame, secondSame]
      exact injective first firstAmong second secondAmong
  have keyed : Keyed hash packets :=
      ⟨fun packet among => (directed packet among).canonical, injective⟩
  rw [← directionsAgree_iff directed distinct]
  refine ⟨faithful_of_directionsAgree keyed, fun within => ⟨fun faithful => ?_, ?_⟩⟩
  · refine directionsAgree_of_taken_eq fun packet member nonempty => ?_
    obtain ⟨before, after, rfl⟩ := List.append_of_mem member
    have relabels := relabels_marked before packet after
    have same := taken_eq_of_faithful (relabelled relabels) ((relabels.within within).weaken _)
      (faithful _ relabels) (seen_marked before packet after)
    have taken := mark_mem_iff (takenForClient (marked before packet after)) before after nonempty
    have came := mark_mem_iff (fromClient (marked before packet after)) before after nonempty
    rw [same, came] at taken
    rw [relabels.fromClient_filled, relabels.takenForClient_filled] at taken
    exact (Bool.eq_iff_iff.mpr taken).symm
  · intro agree others relabels
    exact faithful_of_directionsAgree (relabelled relabels) ((relabels.within within).weaken _)
      (relabels.directionsAgree agree)

section Captures

def publicHost : IpAddr :=
  .v4 (.new 198 51 100 7)

def localHost : IpAddr :=
  .v4 (.new 192 168 1 5)

/-- A TCP packet as the reader of a capture makes it. -/
def tcpPacket (srcIp dstIp : IpAddr) (srcPort dstPort : Port) (flags : TcpFlags) (payload : Bytes)
    : Packet :=
  (Packet.new .epoch (.new srcIp dstIp srcPort dstPort .tcp) (inferTcpDirection srcIp dstIp flags)
    payload).withTcpFlags flags

/-- A public client opens a connection to a local server, which answers its request. -/
def inboundCapture : List Packet :=
  [tcpPacket publicHost localHost 40000 80 TcpFlags.syn [],
    tcpPacket publicHost localHost 40000 80 TcpFlags.ack (ascii "request"),
    tcpPacket localHost publicHost 80 40000 TcpFlags.ack (ascii "response")]

/-- The client is recorded, but the payload of the server is presented for its own. -/
theorem replay_attributes_response
    : ((groupFlows (fun _ => 0) inboundCapture).map fun flow => (flow.client, clientPayloads flow))
      = [((publicHost, 40000), [ascii "response"])] := by
  decide +kernel

/-- A local client opens a connection, sends a request and is answered, and asks a name server. -/
def localCapture : List Packet :=
  [tcpPacket localHost publicHost 40000 80 TcpFlags.syn [],
    tcpPacket publicHost localHost 80 40000 (TcpFlags.syn ||| TcpFlags.ack) [],
    tcpPacket localHost publicHost 40000 80 TcpFlags.ack (ascii "request"),
    .new .epoch (.new localHost publicHost 5353 53 .udp) .outbound (ascii "query"),
    tcpPacket publicHost localHost 80 40000 TcpFlags.ack (ascii "response")]

/-- The capture file of these packets, and what is read from it. -/
def localFile : Bytes :=
  match Pcap.PcapWriter.opened.writePackets localCapture with
  | .ok writer => writer.file.getD []
  | .error _ => []

def localPackets : List Packet :=
  (Pcap.readFile localFile).toOption.getD []

/-- The ports tell the conversations of the capture apart. -/
def portsOf (tuple : FiveTuple) : FlowKey :=
  .ofNat (tuple.srcPort.val * 65536 + tuple.dstPort.val)

theorem replay_sides_agree_local
    : Faithful localPackets (groupFlows portsOf localPackets)
      ∧ (groupFlows portsOf localPackets).map (fun flow => (flow.client, clientPayloads flow))
        = [((localHost, 40000), [ascii "request"]), ((localHost, 5353), [ascii "query"])] := by
  have read : Pcap.readFile localFile = .ok localPackets := by
    have fine : (Pcap.readFile localFile).toOption.isSome := by decide +kernel
    rw [localPackets]
    cases found : Pcap.readFile localFile with
    | ok packets => rfl
    | error error => rw [found] at fine; cases fine
  have agree := replay_sides_agree_iff portsOf localFile localPackets read (by decide +kernel)
    (by decide +kernel)
  refine ⟨agree.1 ?_ (by decide +kernel), by decide +kernel⟩
  have own (of : Conversation) : (payloadsOf (fromClient localPackets) localPackets of).Sublist
      (payloads (fromClient localPackets) localPackets) :=
    (List.filter_sublist.filter _).map _
  exact {
    flows := by decide +kernel
    flowBytes := fun of => (own of).flatten.length_le.trans (by decide +kernel)
    flowChunks := fun of => (own of).length_le.trans (by decide +kernel)
    totalBytes := by decide +kernel
    totalChunks := by decide +kernel }

end Captures

end NetTrap.Replay
