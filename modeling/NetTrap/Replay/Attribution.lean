import Mathlib.Data.Sym.Sym2
import NetTrap.Library.FirstSeen
import NetTrap.Replay.Flows

/-! Which payloads the replay attributes to a flow's client.
A flow stands for an unordered pair of endpoints with a protocol. Its client is fixed by its first
packet, while the side of a later packet is told by that packet's own direction.
-/

namespace NetTrap.Replay

open Rust Net Session Flows List

/-- An unordered pair of endpoints with a protocol. -/
abbrev Conversation := Sym2 Endpoint × Protocol

def conversation (packet : Packet) : Conversation :=
  (s(source packet, destination packet), packet.fiveTuple.protocol)

def ReplayFlow.conversation (flow : ReplayFlow) : Conversation :=
  (s(flow.client, flow.server), flow.protocol)

section Endpoints

theorem endpointRank_injective {left right} (same : endpointRank left = endpointRank right)
    : left = right := by
  obtain ⟨leftIp, leftPort⟩ := left
  obtain ⟨rightIp, rightPort⟩ := right
  have octets (first second : Bytes)
      (same : first.map UInt8.toNat ++ [leftPort.val] = second.map UInt8.toNat ++ [rightPort.val])
      : first = second ∧ leftPort = rightPort := by
    obtain ⟨bytes, port⟩ := append_inj' same rfl
    exact ⟨map_injective_iff.mpr (fun _ _ => UInt8.toNat_inj.mp) bytes,
      Fin.ext (singleton_injective port)⟩
  cases leftIp <;> cases rightIp <;>
    simp only [endpointRank, cons_append, cons.injEq, true_and] at same
  case v4.v4 first second =>
    obtain ⟨bytes, rfl⟩ := octets _ _ same
    cases first
    cases second
    cases bytes
    rfl
  case v6.v6 first second =>
    obtain ⟨bytes, rfl⟩ := octets _ _ same
    cases first
    cases second
    cases bytes
    rfl
  all_goals exact absurd same.1 (by decide)

theorem lexLe_total (left right : List Nat)
    : lexLe left right = true ∨ lexLe right left = true := by
  induction left generalizing right with
  | nil => exact .inl rfl
  | cons first lefts ih =>
    cases right with
    | nil => exact .inr rfl
    | cons second rights =>
      rw [lexLe, lexLe]
      rcases lt_trichotomy first second with less | rfl | less
      · exact .inl (if_pos less)
      · simpa using ih rights
      · exact .inr (if_pos less)

theorem lexLe_antisymm {left right} (le : lexLe left right = true) (ge : lexLe right left = true)
    : left = right := by
  induction left generalizing right with
  | nil =>
    cases right with
    | nil => rfl
    | cons => cases ge
  | cons first lefts ih =>
    cases right with
    | nil => cases le
    | cons second rights =>
      rw [lexLe] at le ge
      rcases lt_trichotomy first second with less | rfl | less
      · simp [Nat.lt_asymm less, Nat.ne_of_gt less] at ge
      · rw [ih (by simpa using le) (by simpa using ge)]
      · simp [Nat.lt_asymm less, Nat.ne_of_gt less] at le

/-- The two endpoints, the lesser one first. -/
def inOrder (left right : Endpoint) : Endpoint × Endpoint :=
  if lexLe (endpointRank left) (endpointRank right) then (left, right) else (right, left)

theorem inOrder_comm (left right : Endpoint) : inOrder left right = inOrder right left := by
  rw [inOrder, inOrder]
  rcases lexLe_total (endpointRank left) (endpointRank right) with le | le
  · rw [if_pos le]
    split
    case isTrue ge => rw [endpointRank_injective (lexLe_antisymm le ge)]
    case isFalse => rfl
  · rw [if_pos le]
    split
    case isTrue ge => rw [endpointRank_injective (lexLe_antisymm ge le)]
    case isFalse => rfl

theorem pair_inOrder (left right : Endpoint)
    : s((inOrder left right).1, (inOrder left right).2) = s(left, right) := by
  rw [inOrder]
  split
  · rfl
  · exact Sym2.eq_swap

/-- Ordering the endpoints tells pairs apart as far as their order does not matter. -/
theorem inOrder_eq_iff (left right first second : Endpoint)
    : inOrder left right = inOrder first second ↔ s(left, right) = s(first, second) := by
  constructor
  · intro same
    rw [← pair_inOrder left right, same, pair_inOrder]
  · intro same
    rcases Sym2.eq_iff.mp same with ⟨rfl, rfl⟩ | ⟨rfl, rfl⟩
    · rfl
    · exact inOrder_comm left right

theorem normalizeSessionIp_eq (ip : IpAddr) : normalizeSessionIp ip = canonicalizeIp ip := by
  cases ip with
  | v4 ip => rfl
  | v6 ip =>
    rw [normalizeSessionIp, canonicalizeIp]
    cases ip.toIpv4Mapped <;> rfl

/-- The canonical five-tuple of a canonical one has the endpoints in order. -/
theorem canonicalFiveTuple_eq {tuple} (canonical : tuple.IsCanonical)
    : canonicalFiveTuple tuple
      = let pair := inOrder (tuple.srcIp, tuple.srcPort) (tuple.dstIp, tuple.dstPort)
        ⟨pair.1.1, pair.2.1, pair.1.2, pair.2.2, tuple.protocol⟩ := by
  simp only [canonicalFiveTuple, canonicalReplayIp, normalizeSessionIp_eq, canonical.1,
    canonical.2, inOrder]
  split <;> simp only [FiveTuple.new, canonical.1, canonical.2]

theorem canonicalFiveTuple_eq_iff {left right} (leftCanonical : left.fiveTuple.IsCanonical)
    (rightCanonical : right.fiveTuple.IsCanonical)
    : canonicalFiveTuple left.fiveTuple = canonicalFiveTuple right.fiveTuple
      ↔ conversation left = conversation right := by
  rw [canonicalFiveTuple_eq leftCanonical, canonicalFiveTuple_eq rightCanonical, conversation,
    conversation, Prod.mk.injEq, source, destination, source, destination, ← inOrder_eq_iff]
  simp only [FiveTuple.mk.injEq, Prod.ext_iff]
  tauto

end Endpoints

/-- The endpoint that the first packet of a conversation makes its client. -/
def clientOf (packets : List Packet) (of : Conversation) : Option Endpoint :=
  (packets.find? fun packet => conversation packet = of).map fun first => (openFlow first).client

/-- The packet comes from the client of its conversation. -/
def fromClient (packets : List Packet) (packet : Packet) : Bool :=
  clientOf packets (conversation packet) = some (source packet)

/-- The packet is taken for one from the client. -/
def takenForClient (packets : List Packet) (packet : Packet) : Bool :=
  match packet.direction with
  | .outbound => true
  | .inbound => false
  | .unknown => fromClient packets packet

/-- The payloads of those packets that are to be kept, where they have one. -/
def payloads (keeps : Packet → Bool) (packets : List Packet) : List Bytes :=
  (packets.filter fun packet => keeps packet && !packet.payload.isEmpty).map Packet.payload

/-- Those of one conversation. -/
def payloadsOf (keeps : Packet → Bool) (packets : List Packet) (of : Conversation) : List Bytes :=
  payloads keeps (packets.filter fun packet => conversation packet = of)

def conversations (packets : List Packet) : List Conversation :=
  (packets.map conversation).eraseDups

/-- What is to be kept of a capture stays within the limits of the replay. -/
structure Within (keeps : Packet → Bool) (packets : List Packet) : Prop where
  flows : (conversations packets).length ≤ maxReplayFlows
  flowBytes : ∀ of, (payloadsOf keeps packets of).flatten.length ≤ maxReplayFlowBytes
  flowChunks : ∀ of, (payloadsOf keeps packets of).length ≤ maxReplayFlowChunks
  totalBytes : (payloads keeps packets).flatten.length ≤ maxReplayTotalPayloadBytes
  totalChunks : (payloads keeps packets).length ≤ maxReplayTotalPayloadChunks

section Payloads

variable {keeps : Packet → Bool}

section

variable (keeps : Packet → Bool)

theorem payloads_append (before after : List Packet)
    : payloads keeps (before ++ after) = payloads keeps before ++ payloads keeps after := by
  rw [payloads, filter_append, map_append]
  rfl

theorem payloads_singleton (packet : Packet)
    : payloads keeps [packet]
      = if keeps packet && !packet.payload.isEmpty then [packet.payload] else [] := by
  rw [payloads, filter_singleton, cond_eq_ite]
  split <;> rfl

theorem payloadsOf_append (before after : List Packet) (of : Conversation)
    : payloadsOf keeps (before ++ after) of
      = payloadsOf keeps before of ++ payloadsOf keeps after of := by
  rw [payloadsOf, filter_append, payloads_append]
  rfl

theorem payloadsOf_singleton (packet : Packet) (of : Conversation)
    : payloadsOf keeps [packet] of
      = if conversation packet = of then payloads keeps [packet] else [] := by
  rw [payloadsOf, filter_singleton, cond_eq_ite]
  simp only [decide_eq_true_eq]
  split <;> rfl

end

/-- A conversation that has not been seen has no payloads. -/
theorem payloadsOf_eq_nil {packets of} (unseen : ∀ packet ∈ packets, conversation packet ≠ of)
    : payloadsOf keeps packets of = [] := by
  have none : packets.filter (fun packet => conversation packet = of) = [] := by
    rw [filter_eq_nil_iff]
    intro packet member
    simpa using unseen packet member
  rw [payloadsOf, none]
  rfl

section Split

variable {packets done rest : List Packet} {packet : Packet}
  (split : packets = done ++ packet :: rest) (kept : payloads keeps [packet] = [packet.payload])
include split kept

theorem payloads_split
    : payloads keeps packets = payloads keeps done ++ [packet.payload] ++ payloads keeps rest := by
  rw [split, ← singleton_append, payloads_append, payloads_append, kept, append_assoc]

theorem payloadsOf_split
    : payloadsOf keeps packets (conversation packet)
      = payloadsOf keeps done (conversation packet) ++ [packet.payload]
        ++ payloadsOf keeps rest (conversation packet) := by
  rw [split, ← singleton_append, payloadsOf_append, payloadsOf_append, payloadsOf_singleton,
    if_pos rfl, kept, append_assoc]

end Split

end Payloads

/-- The conversations that have been seen when one more packet has. -/
def noted (seen : List Conversation) (of : Conversation) : List Conversation :=
  if of ∈ seen then seen else seen ++ [of]

theorem mem_noted (seen : List Conversation) (of : Conversation) : of ∈ noted seen of := by
  rw [noted]
  split
  case isTrue before => exact before
  case isFalse => simp

/-- What the loop holds when it has `seen` the conversations, and the packets so far are `done`. -/
structure Holds (hash : FiveTuple → FlowKey) (packets done : List Packet)
    (seen : List Conversation) (grouping : Grouping) : Prop where
  flows : grouping.flows.map ReplayFlow.conversation = seen
  distinct : seen.Nodup
  covers : ∀ packet ∈ done, conversation packet ∈ seen
  known : ∀ slot of, seen[slot]? = some of → ∀ packet ∈ packets, conversation packet = of →
    grouping.index.get (hash (canonicalFiveTuple packet.fiveTuple)) = some slot
  unknown : ∀ packet ∈ packets, conversation packet ∉ seen →
    grouping.index.get (hash (canonicalFiveTuple packet.fiveTuple)) = none
  client : ∀ flow ∈ grouping.flows, clientOf packets flow.conversation = some flow.client
  kept : ∀ flow ∈ grouping.flows,
    flow.packets
      = (payloadsOf (takenForClient packets) done flow.conversation).map (Prod.mk true)
  bytes : ∀ flow ∈ grouping.flows,
    flow.retainedPayloadBytes
      = (payloadsOf (takenForClient packets) done flow.conversation).flatten.length
  totalBytes : grouping.retainedPayloadBytes
    = (payloads (takenForClient packets) done).flatten.length
  totalChunks : grouping.retainedPayloadChunks = (payloads (takenForClient packets) done).length

section Loop

variable {hash : FiveTuple → FlowKey} {packets done rest : List Packet} {packet : Packet}
  {seen : List Conversation} {grouping : Grouping}

theorem holds_empty (hash : FiveTuple → FlowKey) (packets : List Packet)
    : Holds hash packets [] [] .empty where
  flows := rfl
  distinct := nodup_nil
  covers := by simp
  known := by simp
  unknown := fun _ _ _ => HashMap.get_empty _
  client := by simp [Grouping.empty]
  kept := by simp [Grouping.empty]
  bytes := by simp [Grouping.empty]
  totalBytes := rfl
  totalChunks := rfl

/-- A conversation is a flow's if the flow is opened by its first packet. -/
theorem openFlow_conversation (packet : Packet)
    : (openFlow packet).conversation = conversation packet := by
  rw [ReplayFlow.conversation, conversation, ReplayFlow.client, ReplayFlow.server, openFlow]
  cases clientIsSrc packet with
  | true => rfl
  | false => exact congrArg (·, packet.fiveTuple.protocol) Sym2.eq_swap

variable {slot : Nat}

/-- The flow at the place of its conversation. -/
theorem Holds.flow_at (holds : Holds hash packets done seen grouping) {of}
    (here : seen[slot]? = some of)
    : ∃ flow, grouping.flows[slot]? = some flow ∧ flow.conversation = of := by
  rw [← holds.flows, List.getElem?_map, Option.map_eq_some_iff] at here
  exact here

/-- The keys of the packets tell their five-tuples apart. -/
structure Keyed (hash : FiveTuple → FlowKey) (packets : List Packet) : Prop where
  canonical : ∀ packet ∈ packets, packet.fiveTuple.IsCanonical
  injective : ∀ left ∈ packets, ∀ right ∈ packets,
    hash (canonicalFiveTuple left.fiveTuple) = hash (canonicalFiveTuple right.fiveTuple) →
    canonicalFiveTuple left.fiveTuple = canonicalFiveTuple right.fiveTuple

section Keys

variable (keyed : Keyed hash packets)
include keyed

/-- Packets have the same key exactly where they belong to the same conversation. -/
theorem hash_eq_iff {left right} (leftMember : left ∈ packets) (rightMember : right ∈ packets)
    : hash (canonicalFiveTuple left.fiveTuple) = hash (canonicalFiveTuple right.fiveTuple)
      ↔ conversation left = conversation right := by
  rw [← canonicalFiveTuple_eq_iff (keyed.canonical left leftMember)
    (keyed.canonical right rightMember)]
  exact ⟨keyed.injective left leftMember right rightMember, congrArg hash⟩

section

variable (holds : Holds hash packets done seen grouping) (split : packets = done ++ packet :: rest)
include holds split

/-- The loop opens a flow for a conversation that it has not seen. -/
theorem Holds.open (fresh : conversation packet ∉ seen)
    : Holds hash packets done (seen ++ [conversation packet]) { grouping with
          flows := grouping.flows ++ [openFlow packet]
          index := grouping.index.insert (hash (canonicalFiveTuple packet.fiveTuple))
            grouping.flows.length } := by
  have member : packet ∈ packets := by
    rw [split]
    simp
  have unseen : ∀ other ∈ done, conversation other ≠ conversation packet := by
    intro other earlier same
    exact fresh (same ▸ holds.covers other earlier)
  have none : payloadsOf (takenForClient packets) done (conversation packet) = [] :=
    payloadsOf_eq_nil unseen
  have size : grouping.flows.length = seen.length := by
    rw [← holds.flows, length_map]
  have opened (flow : ReplayFlow) (property : ReplayFlow → Prop)
      (old : ∀ flow ∈ grouping.flows, property flow) (new : property (openFlow packet))
      : flow ∈ grouping.flows ++ [openFlow packet] → property flow := by
    intro among
    rcases mem_append.mp among with earlier | last
    · exact old flow earlier
    · rw [mem_singleton.mp last]
      exact new
  refine { holds with
    flows := ?_, distinct := ?_, covers := ?_, known := ?_, unknown := ?_, client := ?_, kept := ?_,
    bytes := ?_ }
  · rw [map_append, holds.flows, map_singleton, openFlow_conversation]
  · refine nodup_append.mpr ⟨holds.distinct, nodup_singleton _, ?_⟩
    intro other among last singleton same
    rw [same, mem_singleton.mp singleton] at among
    exact fresh among
  · intro other earlier
    exact mem_append_left _ (holds.covers other earlier)
  · intro slot of here other among same
    rcases Nat.lt_or_ge slot seen.length with inside | outside
    · rw [List.getElem?_append_left inside] at here
      have apart : conversation other ≠ conversation packet := by
        intro own
        exact fresh (own ▸ same ▸ mem_of_getElem? here)
      rw [HashMap.get_insert_ne _ (mt (hash_eq_iff keyed among member).mp apart)]
      exact holds.known slot of here other among same
    · rw [List.getElem?_append_right outside, List.getElem?_singleton] at here
      split at here
      case isFalse => cases here
      case isTrue last =>
        cases here
        rw [(hash_eq_iff keyed among member).mpr same, HashMap.get_insert_self, size]
        congr 1
        omega
  · intro other among unseen
    rw [mem_append, not_or, mem_singleton] at unseen
    rw [HashMap.get_insert_ne _ (mt (hash_eq_iff keyed among member).mp unseen.2)]
    exact holds.unknown other among unseen.1
  · intro flow
    refine opened flow (fun flow => clientOf packets flow.conversation = some flow.client)
      holds.client ?_
    have first : packets.find? (fun other => conversation other = conversation packet)
        = some packet := by
      rw [split, find?_append, find?_eq_none.mpr (by simpa using unseen)]
      simp
    rw [openFlow_conversation, clientOf, first]
    rfl
  · intro flow
    refine opened flow _ holds.kept ?_
    rw [openFlow_conversation, none]
    rfl
  · intro flow
    refine opened flow _ holds.bytes ?_
    rw [openFlow_conversation, none]
    rfl

/-- Every packet within the limit has a place. -/
theorem Holds.place (limit : conversation packet ∉ seen → seen.length < maxReplayFlows)
    : ∃ placed slot flow, grouping.place hash .default packet = some (placed, slot)
        ∧ placed.flows[slot]? = some flow ∧ flow.conversation = conversation packet
        ∧ Holds hash packets done (noted seen (conversation packet)) placed := by
  have member : packet ∈ packets := by
    rw [split]
    simp
  rw [Grouping.place, noted]
  by_cases known : conversation packet ∈ seen
  · obtain ⟨slot, here⟩ := mem_iff_getElem?.mp known
    obtain ⟨flow, found, same⟩ := holds.flow_at here
    rw [holds.known slot _ here packet member rfl, if_pos known]
    exact ⟨grouping, slot, flow, rfl, found, same, holds⟩
  · have size : grouping.flows.length = seen.length := by
      rw [← holds.flows, length_map]
    have room : ¬ grouping.flows.length ≥ ReplayLimits.default.maxFlows := by
      rw [size]
      exact Nat.not_le.mpr (limit known)
    rw [holds.unknown packet member known, if_neg known]
    dsimp only
    rw [if_neg room]
    refine ⟨_, _, openFlow packet, rfl, ?_, openFlow_conversation packet,
      holds.open keyed split known⟩
    exact List.getElem?_concat_length

end

end Keys

variable {flow : ReplayFlow}

/-- Replacing the flow of one conversation leaves those of the others. -/
theorem mem_set_of_distinct {flows : List ReplayFlow} {changed other : ReplayFlow}
    (distinct : (flows.map ReplayFlow.conversation).Nodup) (here : flows[slot]? = some flow)
    (member : other ∈ flows.set slot changed)
    : other = changed ∨ other ∈ flows ∧ other.conversation ≠ flow.conversation := by
  obtain ⟨place, found⟩ := mem_iff_getElem?.mp member
  rw [List.getElem?_set] at found
  split at found
  · split at found
    · exact .inl (Option.some.inj found).symm
    · cases found
  next elsewhere =>
  refine .inr ⟨mem_of_getElem? found, ?_⟩
  intro same
  obtain ⟨placeInside, _⟩ := List.getElem?_eq_some_iff.mp found
  have equal : (flows.map ReplayFlow.conversation)[place]?
      = (flows.map ReplayFlow.conversation)[slot]? := by
    rw [List.getElem?_map, List.getElem?_map, found, here, Option.map_some, Option.map_some, same]
  exact elsewhere (List.getElem?_inj (by simpa using placeInside) distinct |>.mp equal).symm

/-- The side of a packet is decided as the first packet of its conversation has it. -/
theorem isClientToServer_eq (client : clientOf packets flow.conversation = some flow.client)
    (same : flow.conversation = conversation packet)
    : isClientToServer flow packet = takenForClient packets packet := by
  rw [isClientToServer, takenForClient, fromClient, ← same, client]
  cases packet.direction with
  | inbound | outbound => rfl
  | unknown =>
    simp only [Option.some.injEq, decide_eq_decide]
    exact eq_comm

variable (holds : Holds hash packets done seen grouping)

include holds

/-- A packet without a payload to keep changes nothing but what has been done. -/
theorem Holds.skip (known : conversation packet ∈ seen)
    (none : payloads (takenForClient packets) [packet] = [])
    : Holds hash packets (done ++ [packet]) seen grouping := by
  have same (of : Conversation) : payloadsOf (takenForClient packets) (done ++ [packet]) of
      = payloadsOf (takenForClient packets) done of := by
    rw [payloadsOf_append, payloadsOf_singleton, none, ite_self, append_nil]
  have total : payloads (takenForClient packets) (done ++ [packet])
      = payloads (takenForClient packets) done := by
    rw [payloads_append, none, append_nil]
  refine { holds with covers := ?_, kept := ?_, bytes := ?_, totalBytes := ?_, totalChunks := ?_ }
  · intro other among
    rcases mem_append.mp among with earlier | last
    · exact holds.covers other earlier
    · rwa [mem_singleton.mp last]
  · intro flow among
    rw [same]
    exact holds.kept flow among
  · intro flow among
    rw [same]
    exact holds.bytes flow among
  · rw [total]
    exact holds.totalBytes
  · rw [total]
    exact holds.totalChunks

/-- A payload to keep is added to its flow and to the totals. -/
theorem Holds.keep (here : grouping.flows[slot]? = some flow)
    (same : flow.conversation = conversation packet)
    (kept : payloads (takenForClient packets) [packet] = [packet.payload])
    : Holds hash packets (done ++ [packet]) seen { grouping with
          flows := grouping.flows.set slot { flow with
              retainedPayloadBytes := flow.retainedPayloadBytes + packet.payload.length
              packets := flow.packets ++ [(true, packet.payload)] }
          retainedPayloadBytes := grouping.retainedPayloadBytes + packet.payload.length
          retainedPayloadChunks := grouping.retainedPayloadChunks + 1 } := by
  have among : flow ∈ grouping.flows := mem_of_getElem? here
  have known : conversation packet ∈ seen := by
    rw [← holds.flows, ← same]
    exact mem_map_of_mem among
  have distinct : (grouping.flows.map ReplayFlow.conversation).Nodup :=
    holds.flows.symm ▸ holds.distinct
  have own : payloadsOf (takenForClient packets) (done ++ [packet]) flow.conversation
      = payloadsOf (takenForClient packets) done flow.conversation ++ [packet.payload] := by
    rw [payloadsOf_append, payloadsOf_singleton, if_pos same.symm, kept]
  have others (of : Conversation) (apart : of ≠ flow.conversation)
      : payloadsOf (takenForClient packets) (done ++ [packet]) of
        = payloadsOf (takenForClient packets) done of := by
    rw [payloadsOf_append, payloadsOf_singleton, ← same, if_neg apart.symm, append_nil]
  have total : payloads (takenForClient packets) (done ++ [packet])
      = payloads (takenForClient packets) done ++ [packet.payload] := by
    rw [payloads_append, kept]
  refine { holds with
    flows := ?_, covers := ?_, client := ?_, kept := ?_, bytes := ?_, totalBytes := ?_,
    totalChunks := ?_ }
  · rw [← holds.flows, map_set]
    refine ext_getElem? fun place => ?_
    rw [List.getElem?_set]
    split
    case isFalse => rfl
    case isTrue same =>
      have stored : (grouping.flows.map ReplayFlow.conversation)[slot]?
          = some flow.conversation := by
        rw [List.getElem?_map, here]
        rfl
      rw [← same, if_pos (List.getElem?_eq_some_iff.mp stored).1, stored]
      rfl
  · intro other earlier
    rcases mem_append.mp earlier with earlier | last
    · exact holds.covers other earlier
    · rwa [mem_singleton.mp last]
  · intro other member
    rcases mem_set_of_distinct distinct here member with rfl | ⟨old, _⟩
    · exact holds.client flow among
    · exact holds.client other old
  · intro other member
    rcases mem_set_of_distinct distinct here member with rfl | ⟨old, apart⟩
    · refine (congrArg (· ++ [(true, packet.payload)]) (holds.kept flow among)).trans ?_
      rw [← map_singleton, ← map_append]
      exact congrArg (map (Prod.mk true)) own.symm
    · rw [others _ apart]
      exact holds.kept other old
  · intro other member
    rcases mem_set_of_distinct distinct here member with rfl | ⟨old, apart⟩
    · refine (congrArg (· + packet.payload.length) (holds.bytes flow among)).trans ?_
      refine Eq.trans ?_ (congrArg (length ∘ flatten) own.symm)
      simp
    · rw [others _ apart]
      exact holds.bytes other old
  · rw [total, flatten_concat, length_append]
    exact congrArg (· + packet.payload.length) holds.totalBytes
  · rw [total, length_append]
    exact congrArg (· + 1) holds.totalChunks

/-- Within the limits, a payload of the client is kept whole. -/
theorem Holds.retain (within : Within (takenForClient packets) packets)
    (split : packets = done ++ packet :: rest) (here : grouping.flows[slot]? = some flow)
    (same : flow.conversation = conversation packet)
    (kept : payloads (takenForClient packets) [packet] = [packet.payload])
    (nonempty : packet.payload ≠ [])
    : Holds hash packets (done ++ [packet]) seen
        (grouping.retain .default slot flow packet.payload) := by
  have among : flow ∈ grouping.flows := mem_of_getElem? here
  have positive : 0 < packet.payload.length := length_pos_of_ne_nil nonempty
  have flowBytes := within.flowBytes (conversation packet)
  have flowChunks := within.flowChunks (conversation packet)
  have totalBytes := within.totalBytes
  have totalChunks := within.totalChunks
  have ownBytes := holds.bytes flow among
  have ownChunks := congrArg length (holds.kept flow among)
  rw [same] at ownBytes ownChunks
  rw [length_map] at ownChunks
  rw [payloadsOf_split split kept, flatten_append, flatten_concat, length_append,
    length_append, ← ownBytes] at flowBytes
  rw [payloadsOf_split split kept, length_append, length_append, length_singleton,
    ← ownChunks] at flowChunks
  rw [payloads_split split kept, flatten_append, flatten_concat, length_append,
    length_append, ← holds.totalBytes] at totalBytes
  rw [payloads_split split kept, length_append, length_append, length_singleton,
    ← holds.totalChunks] at totalChunks
  have taken : min (min (maxReplayFlowBytes - flow.retainedPayloadBytes)
      (maxReplayTotalPayloadBytes - grouping.retainedPayloadBytes)) packet.payload.length
      = packet.payload.length := by
    omega
  rw [Grouping.retain]
  simp only [ReplayLimits.default, taken]
  rw [if_neg (by omega), if_neg (by omega), take_length]
  exact holds.keep here same kept

/-- One turn of the loop. -/
theorem Holds.add (keyed : Keyed hash packets) (within : Within (takenForClient packets) packets)
    (split : packets = done ++ packet :: rest)
    (limit : conversation packet ∉ seen → seen.length < maxReplayFlows)
    : Holds hash packets (done ++ [packet]) (noted seen (conversation packet))
        (grouping.add hash .default packet) := by
  obtain ⟨placed, slot, flow, place, here, same, holds⟩ := holds.place keyed split limit
  have known := mem_noted seen (conversation packet)
  have among : flow ∈ placed.flows := mem_of_getElem? here
  have single := payloads_singleton (takenForClient packets) packet
  rw [Grouping.add, place]
  dsimp only
  by_cases nonempty : packet.payload = []
  · rw [nonempty] at single
    rw [if_pos (by simpa using nonempty)]
    exact holds.skip known (by simpa using single)
  · rw [if_neg (by simpa using nonempty), here]
    dsimp only
    rw [isClientToServer_eq (holds.client flow among) same]
    cases side : takenForClient packets packet with
    | false =>
      rw [side] at single
      exact holds.skip known single
    | true =>
      rw [side] at single
      refine holds.retain within split here same ?_ nonempty
      simpa [nonempty] using single

end Loop

section Runs

variable {hash : FiveTuple → FlowKey} {packets : List Packet}

theorem noted_conversations (done : List Packet) (packet : Packet)
    : noted (conversations done) (conversation packet) = conversations (done ++ [packet]) := by
  rw [noted, conversations, conversations, map_append, map_singleton]
  split
  case isTrue before =>
    rw [FirstSeen.eraseDups_concat_of_mem (mem_eraseDups.mp before)]
  case isFalse fresh =>
    rw [FirstSeen.eraseDups_concat_of_not_mem (mt mem_eraseDups.mpr fresh)]

theorem length_conversations_le (before after : List Packet)
    : (conversations before).length ≤ (conversations (before ++ after)).length := by
  rw [conversations, conversations, map_append, eraseDups_append, length_append]
  exact Nat.le_add_right _ _

section Hypotheses

variable (keyed : Keyed hash packets) (within : Within (takenForClient packets) packets)
include keyed within

/-- The loop to its end, by induction on the packets that are left. -/
theorem Holds.run {done rest grouping}
    (holds : Holds hash packets done (conversations done) grouping) (split : packets = done ++ rest)
    : Holds hash packets packets (conversations packets)
        (rest.foldl (Grouping.add hash .default) grouping) := by
  induction rest generalizing done grouping with
  | nil =>
    rw [append_nil] at split
    rw [split] at holds ⊢
    exact holds
  | cons packet rest ih =>
    have more : packets = done ++ [packet] ++ rest := by
      rw [split, append_assoc]
      rfl
    have step := holds.add keyed within split ?_
    · rw [noted_conversations] at step
      exact ih step more
    · intro fresh
      have grown := congrArg length (noted_conversations done packet)
      rw [noted, if_neg fresh, length_append, length_singleton] at grown
      have bound := within.flows
      rw [more] at bound
      have := length_conversations_le (done ++ [packet]) rest
      omega

theorem groupFlows_holds
    : ∃ grouping, grouping.flows = groupFlows hash packets
        ∧ Holds hash packets packets (conversations packets) grouping :=
  ⟨_, rfl, (holds_empty hash packets).run keyed within rfl⟩

end Hypotheses

/-- Payloads as they are handed on: those of a stream in one piece. -/
def presented (protocol : Protocol) (texts : List Bytes) : List Bytes :=
  if isStream protocol then (if texts.flatten.isEmpty then [] else [texts.flatten]) else texts

theorem flatten_presented (protocol : Protocol) (texts : List Bytes)
    : (presented protocol texts).flatten = texts.flatten := by
  rw [presented]
  split
  · split
    case isTrue nothing => rw [isEmpty_iff.mp nothing, flatten_nil]
    case isFalse => simp
  · rfl

theorem concatenate_eq {buf : Bytes} {texts : List Bytes}
    (room : buf.length + texts.flatten.length ≤ maxReplayFlowBytes)
    : concatenate buf (texts.map (Prod.mk true)) = buf ++ texts.flatten := by
  induction texts generalizing buf with
  | nil => simp [concatenate]
  | cons text texts ih =>
    rw [flatten_cons, length_append] at room
    rw [map_cons, concatenate, if_neg (by simp)]
    split
    case isTrue full =>
      have nothing : (text ++ texts.flatten).length = 0 := by
        rw [length_append]
        omega
      rw [flatten_cons, length_eq_zero_iff.mp nothing, append_nil]
    case isFalse =>
      have whole : min (maxReplayFlowBytes - buf.length) text.length = text.length := by
        omega
      simp only [whole, take_length]
      rw [ih (by rw [length_append]; omega), flatten_cons, append_assoc]

theorem clientPayloads_eq {flow texts} (kept : flow.packets = texts.map (Prod.mk true))
    (small : texts.flatten.length ≤ maxReplayFlowBytes)
    : clientPayloads flow = presented flow.protocol texts := by
  rw [clientPayloads, presented, kept]
  split
  · rw [concatenate_eq (by simpa using small)]
    rfl
  · have all : (texts.map (Prod.mk true)).filter (fun packet => packet.1)
        = texts.map (Prod.mk true) := by
      rw [filter_eq_self]
      intro packet member
      obtain ⟨text, _, rfl⟩ := mem_map.mp member
      rfl
    rw [all, map_map]
    refine (map_congr_left fun text member => ?_).trans (map_id _)
    have bound := (sublist_flatten_of_mem member).length_le
    have whole : min maxReplayFlowBytes text.length = text.length := by
      omega
    simp [whole]

end Runs

end NetTrap.Replay
