import NetTrap.Interceptor.RedirectRewriting
import NetTrap.Interceptor.RedirectViews

/-! Answers are sent on under the address that the client talked to.
A run is described by what an observer of the packets can see: which packets were redirected
to which listener, and which answers were rewritten. The table agrees with this history as
far as it is recent.
-/

namespace NetTrap.Interceptor

open Rust Net Octets List Option

/-- A packet that was changed on its way. -/
inductive FlowEvent where
  | redirected (flow : ReverseFlowKey) (destination : SocketAddr) (time : Instant)
  | answered (flow : ReverseFlowKey) (time : Instant)
  deriving DecidableEq, Repr

def FlowEvent.flow : FlowEvent → ReverseFlowKey
  | redirected flow _ _ => flow
  | answered flow _ => flow

def FlowEvent.time : FlowEvent → Instant
  | redirected _ _ time => time
  | answered _ time => time

/-- The destination of a packet that was redirected along a flow. -/
def FlowEvent.destinationOf (flow : ReverseFlowKey) : FlowEvent → Option SocketAddr
  | redirected other destination _ => if other = flow then some destination else none
  | answered _ _ => none

/-- Where the last packet that was redirected along a flow wanted to go; histories start with
the latest event.
-/
def lastDestination (history : List FlowEvent) (flow : ReverseFlowKey) : Option SocketAddr :=
  history.findSome? (FlowEvent.destinationOf flow)

/-- When the last packet of a flow was redirected or answered. -/
def lastSeen (history : List FlowEvent) (flow : ReverseFlowKey) : Option Instant :=
  (history.find? fun event => event.flow = flow).map FlowEvent.time

/-- The flow of an outbound packet that goes to a listener. -/
def Diverted.outboundFlow (packet : Diverted) (metadata : PacketMetadata) (listenerPort : Port)
    : ReverseFlowKey :=
  ⟨metadata.protocol, ⟨metadata.src, portAt packet.data metadata.transportOffset⟩, listenerPort⟩

/-- The destination of an outbound packet. -/
def Diverted.destination (packet : Diverted) (metadata : PacketMetadata) : SocketAddr :=
  ⟨metadata.dst, portAt packet.data (metadata.transportOffset + 2)⟩

/-- The flow of an inbound packet, which comes from a listener. -/
def Diverted.inboundFlow (packet : Diverted) (metadata : PacketMetadata) : ReverseFlowKey :=
  ⟨metadata.protocol, packet.destination metadata, portAt packet.data metadata.transportOffset⟩

/-- What an observer sees of a packet: it is an event if bytes were changed. The listener that
an outbound packet was redirected to is read off from the packet.
-/
def Diverted.event (packet : Diverted) (written : Bytes) : Option FlowEvent :=
  match packetMetadata packet.data packet.len with
  | none => none
  | some metadata =>
    if written = packet.data then none
    else if packet.outbound then
      some (.redirected
        (packet.outboundFlow metadata (portAt written (metadata.transportOffset + 2)))
        (packet.destination metadata) packet.now)
    else some (.answered (packet.inboundFlow metadata) packet.now)

/-- The state of a run: the flows, and what was observed. -/
structure RedirectRun where
  flows : RedirectFlowTable
  history : List FlowEvent

def RedirectRun.step (run : RedirectRun) (packet : Diverted) : RedirectRun :=
  let after := redirectPacket packet run.flows
  ⟨after.flows, (packet.event after.data).toList ++ run.history⟩

def redirectRun (packets : List Diverted) : RedirectRun :=
  packets.foldl RedirectRun.step ⟨.empty, []⟩

/-- What the history says about a flow. -/
def historyView (history : List FlowEvent) (flow : ReverseFlowKey)
    : Option (SocketAddr × Instant) :=
  (lastDestination history flow).bind fun destination =>
    (lastSeen history flow).map fun seen => (destination, seen)

section History

variable (history : List FlowEvent) (flow other : ReverseFlowKey) (destination : SocketAddr)
  (time : Instant)

theorem lastDestination_redirected
    : lastDestination (.redirected flow destination time :: history) other
      = if other = flow then some destination else lastDestination history other := by
  rw [lastDestination, findSome?_cons, FlowEvent.destinationOf]
  by_cases same : flow = other
  · rw [if_pos same, if_pos same.symm]
  · rw [if_neg same, if_neg (Ne.symm same)]
    rfl

theorem lastDestination_answered
    : lastDestination (.answered flow time :: history) other = lastDestination history other := by
  rw [lastDestination, findSome?_cons]
  rfl

theorem lastSeen_cons (event : FlowEvent)
    : lastSeen (event :: history) other
      = if other = event.flow then some event.time else lastSeen history other := by
  rw [lastSeen, find?_cons]
  by_cases same : event.flow = other
  · simp [same]
  · rw [if_neg (Ne.symm same)]
    simp [same, lastSeen]

end History

/-- The table knows what the history says, as far as it is recent. -/
structure RedirectRun.Tracks (run : RedirectRun) (clock : Instant) : Prop where
  inv : RedirectFlowTable.Inv clock run.flows
  agree : ∀ flow,
    (run.flows.view flow).filter (recent clock)
      = (historyView run.history flow).filter (recent clock)
  /-- Nothing is answered that was not redirected before. -/
  redirected : ∀ flow, (lastSeen run.history flow).isSome = true →
    (lastDestination run.history flow).isSome = true
  family : ∀ flow known, run.flows.view flow = some known →
    ∀ isIpv6, IsFamily isIpv6 flow.client.ip → IsFamily isIpv6 known.1.ip
  remote : ∀ flow known, run.flows.view flow = some known → known.1.ip.isLoopback = false

theorem tracks_empty (clock : Instant) : RedirectRun.Tracks ⟨.empty, []⟩ clock where
  inv := RedirectFlowTable.inv_empty clock
  agree flow := by
    rw [RedirectFlowTable.view_empty]
    rfl
  redirected flow seen := by cases seen
  family flow known found := by
    rw [RedirectFlowTable.view_empty] at found
    cases found
  remote flow known found := by
    rw [RedirectFlowTable.view_empty] at found
    cases found

section Steps

open RedirectFlowTable

variable {run : RedirectRun} {clock now : Instant}

/-- Nothing was observed, and the table forgot at most what is too old. -/
theorem RedirectRun.Tracks.idle (tracks : run.Tracks clock) (later : clock ≤ now) {flows}
    (unchanged : flows = run.flows ∨ flows = run.flows.prune now)
    : RedirectRun.Tracks ⟨flows, run.history⟩ now := by
  have inv : Inv clock flows := by
    rcases unchanged with rfl | rfl
    · exact tracks.inv
    · exact tracks.inv.prune now
  have kept : ∀ flow, (flows.view flow).filter (recent now)
      = (run.flows.view flow).filter (recent now) := by
    intro flow
    rcases unchanged with rfl | rfl
    · rfl
    · rw [view_prune tracks.inv, filter_recent_filter (Nat.le_refl _)]
  have known : ∀ flow found, flows.view flow = some found → run.flows.view flow = some found := by
    intro flow found shown
    rcases unchanged with rfl | rfl
    · exact shown
    · rw [view_prune tracks.inv, filter_eq_some_iff] at shown
      exact shown.1
  exact {
    inv := { inv with seen := fun pair member => (inv.seen pair member).trans later }
    agree := fun flow => by
      rw [kept, ← filter_recent_filter later, tracks.agree, filter_recent_filter later]
    redirected := tracks.redirected
    family := fun flow found shown => tracks.family flow found (known flow found shown)
    remote := fun flow found shown => tracks.remote flow found (known flow found shown) }

/-- A flow was observed now, with a destination that the table records and the history
says.
-/
theorem RedirectRun.Tracks.observe (tracks : run.Tracks clock) (later : clock ≤ now)
    {flows} (inv : Inv now flows) {event} (time : event.time = now)
    {destination}
    (view : ∀ flow, flows.view flow = if flow = event.flow then some (destination, now)
        else (run.flows.view flow).filter (recent now))
    (last : ∀ flow, lastDestination (event :: run.history) flow
      = if flow = event.flow then some destination else lastDestination run.history flow)
    (family : ∀ isIpv6, IsFamily isIpv6 event.flow.client.ip → IsFamily isIpv6 destination.ip)
    (remote : destination.ip.isLoopback = false)
    : RedirectRun.Tracks ⟨flows, event :: run.history⟩ now where
  inv := inv
  agree flow := by
    rw [view, historyView, last, lastSeen_cons, time]
    split
    · rfl
    · rw [filter_recent_filter (Nat.le_refl _), ← filter_recent_filter later, tracks.agree,
        filter_recent_filter later]
      rfl
  redirected flow seen := by
    rw [last]
    split
    · rfl
    next distinct =>
      rw [lastSeen_cons, if_neg distinct] at seen
      exact tracks.redirected flow seen
  family flow known shown := by
    rw [view] at shown
    split at shown
    · next same =>
      cases shown
      rw [same]
      exact family
    · exact tracks.family flow known (filter_eq_some_iff.mp shown).1
  remote flow known shown := by
    rw [view] at shown
    split at shown
    · cases shown
      exact remote
    · exact tracks.remote flow known (filter_eq_some_iff.mp shown).1

end Steps

section Packets

open RedirectFlowTable

variable {flows : RedirectFlowTable} {clock : Instant} {packet : Diverted}
  {metadata : PacketMetadata}

variable {written : Bytes}

theorem finishRewrite_of_rewritten (sound : metadata.Sound packet.data) {source endpoint}
    (rewritten : EndpointRewritten metadata source endpoint packet.data written) (failure : String)
    (flows : RedirectFlowTable)
    : finishRewrite (true, written) failure metadata.totalLen flows = ⟨.ok (), written, flows⟩ := by
  have fits : ¬ metadata.totalLen > written.length := by
    rw [rewritten.length]
    exact Nat.not_lt.mpr sound.captured
  rw [finishRewrite, if_neg (by simp), if_neg fits]

/-- The key of the flow of an outbound packet. -/
def Diverted.key (packet : Diverted) (metadata : PacketMetadata) : FlowKey :=
  ⟨metadata.protocol, ⟨metadata.src, portAt packet.data metadata.transportOffset⟩,
    packet.destination metadata⟩

/-- The listener that an outbound packet is sent to: the one of its flow, or else the one
that is configured for its port.
-/
def Diverted.listener (packet : Diverted) (metadata : PacketMetadata) (flows : RedirectFlowTable)
    : Option Port :=
  (flows.outboundListener packet.order (packet.key metadata) packet.now).1.or
    (redirectTarget packet.redirects metadata.protocol (packet.destination metadata).port)

/-- The flows after an outbound packet was sent to a listener. -/
def Diverted.enterFlow (packet : Diverted) (metadata : PacketMetadata) (flows : RedirectFlowTable)
    (listenerPort : Port) : RedirectFlowTable :=
  let flows := (flows.outboundListener packet.order (packet.key metadata) packet.now).2
  if flows.entries.containsKey (packet.key metadata) then flows
  else flows.insert (packet.key metadata) listenerPort packet.now

variable {listenerPort : Port}

/-- The flow of a packet that is sent to its listener is known with the packet's destination.
Witness: either the flow was known and is seen again, or it is new.
-/
theorem enterFlow_spec (inv : Inv clock flows) (later : clock ≤ packet.now)
    (room : flows.entries.len < maxRedirectFlows)
    (chosen : packet.listener metadata flows = some listenerPort)
    : Inv packet.now (packet.enterFlow metadata flows listenerPort)
      ∧ ∀ flow, (packet.enterFlow metadata flows listenerPort).view flow
          = if flow = packet.outboundFlow metadata listenerPort then
              some (packet.destination metadata, packet.now)
            else (flows.view flow).filter (recent packet.now) := by
  have pruned : Inv clock (flows.prune packet.now) := inv.prune packet.now
  rw [Diverted.listener, outboundListener] at chosen
  rw [Diverted.enterFlow, outboundListener]
  cases found : (flows.prune packet.now).entries.get (packet.key metadata) with
  | some flow =>
    have port : flow.listenerPort = listenerPort := by
      rw [found] at chosen
      exact some.inj chosen
    have destination : flow.originalDestination = packet.destination metadata :=
      pruned.destination _ _ found
    have contained
        : ((flows.prune packet.now).touch packet.order (packet.key metadata)
            packet.now).entries.containsKey (packet.key metadata) = true := by
      rw [HashMap.containsKey, get_entries_touch packet.order _ found, if_pos rfl]
      rfl
    simp only [map_some, isSome_some, if_true, contained]
    refine ⟨pruned.touch packet.order later _, fun other => ?_⟩
    rw [view_touch pruned packet.order found, port, destination, view_prune inv]
    rfl
  | none =>
    have missing
        : (flows.prune packet.now).entries.containsKey (packet.key metadata) = false := by
      rw [HashMap.containsKey, found]
      rfl
    have absent
        : ((flows.prune packet.now).prune packet.now).entries.get (packet.key metadata) = none := by
      rw [get_entries_prune pruned, found]
      rfl
    have still : (flows.prune packet.now).entries.len < maxRedirectFlows :=
      Nat.lt_of_le_of_lt (len_entries_pruneLoop_le packet.now flows.expiry flows) room
    simp only [map_none, isSome_none, Bool.false_eq_true, if_false, missing]
    refine ⟨pruned.insert later _ _, fun other => ?_⟩
    rw [view_insert pruned listenerPort absent still, view_prune inv,
      filter_recent_filter (Nat.le_refl _)]
    rfl

/-- A flow that no listener is found for leaves no trace. -/
theorem outboundListener_unknown (unknown : packet.listener metadata flows = none)
    : (flows.outboundListener packet.order (packet.key metadata) packet.now).2
      = flows.prune packet.now := by
  rw [Diverted.listener, or_eq_none_iff] at unknown
  have none := unknown.1
  rw [outboundListener] at none ⊢
  simp only at none ⊢
  rw [none]
  rfl

/-- What `redirect_packet` can do with a packet: leave it alone, send it to a listener, or
send it on as an answer. An answer is left alone only if the table knows nothing recent.
-/
inductive PacketFate (packet : Diverted) (flows : RedirectFlowTable) (after : Redirected) : Prop
    where
  | ignored (done : after.result = .ok ()) (same : after.data = packet.data)
      (kept : after.flows = flows ∨ after.flows = flows.prune packet.now)
      (unknown : ∀ metadata, packetMetadata packet.data packet.len = some metadata →
        metadata.Transports → packet.outbound = false → metadata.src.isLoopback = true →
        (flows.view (packet.inboundFlow metadata)).filter (recent packet.now) = none)
  | redirected (metadata : PacketMetadata) (listenerPort : Port)
      (found : packetMetadata packet.data packet.len = some metadata)
      (outbound : packet.outbound = true) (remote : metadata.dst.isLoopback = false)
      (chosen : packet.listener metadata flows = some listenerPort)
      (done : after.result = .ok ())
      (rewritten
        : EndpointRewritten metadata false ⟨localhost metadata.isIpv6, listenerPort⟩ packet.data
            after.data)
      (entered : after.flows = packet.enterFlow metadata flows listenerPort)
  | answered (metadata : PacketMetadata) (destination : SocketAddr) (seen : Instant)
      (found : packetMetadata packet.data packet.len = some metadata)
      (inbound : packet.outbound = false) (loopback : metadata.src.isLoopback = true)
      (known : (flows.view (packet.inboundFlow metadata)).filter (recent packet.now)
        = some (destination, seen))
      (done : after.result = .ok ())
      (rewritten : EndpointRewritten metadata true destination packet.data after.data)
      (inv : Inv packet.now after.flows)
      (view : ∀ flow, after.flows.view flow
        = if flow = packet.inboundFlow metadata then some (destination, packet.now)
          else (flows.view flow).filter (recent packet.now))

/-- An outbound packet that has a listener is sent to it. -/
theorem redirectOutbound_chosen (found : packetMetadata packet.data packet.len = some metadata)
    (transport : metadata.Transports) (remote : metadata.dst.isLoopback = false) {listenerPort}
    (chosen : packet.listener metadata flows = some listenerPort)
    : ∃ written, redirectOutbound packet metadata (portAt packet.data metadata.transportOffset)
          (portAt packet.data (metadata.transportOffset + 2)) flows
        = ⟨.ok (), written, packet.enterFlow metadata flows listenerPort⟩
      ∧ EndpointRewritten metadata false ⟨localhost metadata.isIpv6, listenerPort⟩ packet.data
          written := by
  have sound := packetMetadata_sound found
  obtain ⟨written, success, rewritten⟩ :=
    rewriteEndpoint_spec sound transport false (isFamily_localhost metadata.isIpv6) listenerPort
  refine ⟨written, ?_, rewritten⟩
  rw [Diverted.listener, Diverted.key, Diverted.destination] at chosen
  simp only [redirectOutbound, remote, Bool.false_eq_true, if_false, chosen, success]
  exact finishRewrite_of_rewritten sound rewritten _ _

/-- An outbound packet is left alone or sent to its listener. -/
theorem redirectOutbound_fate (found : packetMetadata packet.data packet.len = some metadata)
    (transport : metadata.Transports) (outbound : packet.outbound = true)
    : PacketFate packet flows
        (redirectOutbound packet metadata (portAt packet.data metadata.transportOffset)
          (portAt packet.data (metadata.transportOffset + 2)) flows) := by
  have never {property : Prop} (inbound : packet.outbound = false) : property := by
    rw [outbound] at inbound
    cases inbound
  cases remote : metadata.dst.isLoopback with
  | true =>
    rw [redirectOutbound, if_pos remote]
    exact .ignored rfl rfl (.inl rfl) fun _ _ _ inbound => never inbound
  | false =>
    cases chosen : packet.listener metadata flows with
    | none =>
      have unknown := outboundListener_unknown chosen
      rw [Diverted.listener, Diverted.key, Diverted.destination] at chosen
      simp only [redirectOutbound, remote, Bool.false_eq_true, if_false, chosen]
      exact .ignored rfl rfl (.inr unknown) fun _ _ _ inbound => never inbound
    | some listenerPort =>
      obtain ⟨written, same, rewritten⟩ := redirectOutbound_chosen found transport remote chosen
      rw [same]
      exact .redirected metadata listenerPort found outbound remote chosen rfl rewritten rfl

/-- The flows after an answer was looked up. -/
theorem inboundDestination_eq (inv : Inv clock flows) (order : EntryOrder) (now : Instant)
    (flow : ReverseFlowKey)
    : (∃ destination seen after, (flows.view flow).filter (recent now) = some (destination, seen)
        ∧ flows.inboundDestination order flow now = (some destination, after)
        ∧ ∀ other, after.view other = if other = flow then some (destination, now)
              else (flows.view other).filter (recent now))
      ∨ (flows.view flow).filter (recent now) = none
        ∧ flows.inboundDestination order flow now = (none, flows.prune now) := by
  have pruned : Inv clock (flows.prune now) := inv.prune now
  rw [← view_prune inv]
  cases known : (flows.prune now).view flow with
  | none =>
    refine .inr ⟨rfl, ?_⟩
    have free : (flows.prune now).reverse.get flow = none := by
      cases indexed : (flows.prune now).reverse.get flow with
      | none => rfl
      | some key =>
        obtain ⟨current, stored, rfl⟩ := (pruned.mirrored _ _).mp indexed
        rw [view_of_entry pruned stored] at known
        cases known
    simp only [inboundDestination, free]
  | some pair =>
    obtain ⟨key, current, indexed, stored, rfl, rfl⟩ := entry_of_view pruned known
    refine .inl ⟨current.originalDestination, current.lastSeen,
      (flows.prune now).touch order key now, rfl, ?_, fun other => ?_⟩
    · simp [inboundDestination, indexed, stored]
    · rw [view_touch pruned order stored, view_prune inv]

/-- An inbound packet is left alone or sent on under the destination of its flow. -/
theorem redirectInbound_fate (inv : Inv clock flows) (later : clock ≤ packet.now)
    (found : packetMetadata packet.data packet.len = some metadata)
    (transport : metadata.Transports)
    (family : ∀ known, flows.view (packet.inboundFlow metadata) = some known →
      IsFamily metadata.isIpv6 known.1.ip)
    (inbound : packet.outbound = false)
    : PacketFate packet flows
        (redirectInbound packet metadata (portAt packet.data metadata.transportOffset)
          (portAt packet.data (metadata.transportOffset + 2)) flows) := by
  have sound := packetMetadata_sound found
  have kept := inv.inboundDestination packet.order later (packet.inboundFlow metadata)
  rw [redirectInbound]
  split
  · next outside =>
    refine .ignored rfl rfl (.inl rfl) fun other parsed _ _ loopback => ?_
    rw [found] at parsed
    cases parsed
    simp [loopback] at outside
  next inside =>
    rcases inboundDestination_eq inv packet.order packet.now (packet.inboundFlow metadata) with
      ⟨destination, seen, after, known, looked, view⟩ | ⟨unknown, looked⟩
    · have shown := (filter_eq_some_iff.mp known).1
      obtain ⟨written, success, rewritten⟩ :=
        rewriteEndpoint_spec sound transport true (family _ shown) destination.port
      rw [looked] at kept
      rw [Diverted.inboundFlow, Diverted.destination] at looked
      simp only [looked, success]
      rw [finishRewrite_of_rewritten sound rewritten]
      exact .answered metadata destination seen found inbound (by simpa using inside) known rfl
        rewritten kept view
    · rw [Diverted.inboundFlow, Diverted.destination] at looked
      simp only [looked]
      refine .ignored rfl rfl (.inr rfl) fun other parsed _ _ _ => ?_
      rw [found] at parsed
      cases parsed
      exact unknown

/-- A packet whose endpoint was replaced by another one has changed. -/
theorem EndpointRewritten.ne (sound : metadata.Sound packet.data) {source endpoint}
    (rewritten : EndpointRewritten metadata source endpoint packet.data written)
    (apart : endpoint.ip ≠ if source then metadata.src else metadata.dst)
    : written ≠ packet.data := by
  rintro rfl
  obtain ⟨bytes, encoded, rfl⟩ := rewritten.address
  cases source with
  | true => exact apart (addressBytes_inj encoded sound.source)
  | false => exact apart (addressBytes_inj encoded sound.target)

theorem event_unchanged (packet : Diverted) : packet.event packet.data = none := by
  rw [Diverted.event]
  split
  · rfl
  · exact if_pos rfl

variable (found : packetMetadata packet.data packet.len = some metadata)

include found

theorem event_redirected (outbound : packet.outbound = true)
    (remote : metadata.dst.isLoopback = false) (rewritten
      : EndpointRewritten metadata false ⟨localhost metadata.isIpv6, listenerPort⟩ packet.data
          written)
    : packet.event written
      = some (.redirected (packet.outboundFlow metadata listenerPort) (packet.destination metadata)
          packet.now) := by
  have changed : written ≠ packet.data := by
    apply rewritten.ne (packetMetadata_sound found)
    intro same
    have loopback := isLoopback_localhost metadata.isIpv6
    rw [show localhost metadata.isIpv6 = metadata.dst from same, remote] at loopback
    cases loopback
  have port : portAt written (metadata.transportOffset + 2) = listenerPort := rewritten.port
  rw [Diverted.event, found]
  simp [changed, outbound, port]

theorem event_answered (inbound : packet.outbound = false) {destination}
    (loopback : metadata.src.isLoopback = true) (remote : destination.ip.isLoopback = false)
    (rewritten : EndpointRewritten metadata true destination packet.data written)
    : packet.event written = some (.answered (packet.inboundFlow metadata) packet.now) := by
  have changed : written ≠ packet.data := by
    apply rewritten.ne (packetMetadata_sound found)
    intro same
    rw [show destination.ip = metadata.src from same, loopback] at remote
    cases remote
  rw [Diverted.event, found]
  simp [changed, inbound]

theorem redirectPacket_eq (transport : metadata.Transports) (flows : RedirectFlowTable)
    : redirectPacket packet flows = if packet.outbound then
          redirectOutbound packet metadata (portAt packet.data metadata.transportOffset)
            (portAt packet.data (metadata.transportOffset + 2)) flows
        else
          redirectInbound packet metadata (portAt packet.data metadata.transportOffset)
            (portAt packet.data (metadata.transportOffset + 2)) flows := by
  have passed : ¬ (metadata.protocol ≠ ipprotoTcp ∧ metadata.protocol ≠ ipprotoUdp) := by
    rcases transport with tcp | udp
    · exact fun other => other.1 tcp
    · exact fun other => other.2 udp
  rw [redirectPacket, found]
  exact if_neg passed

theorem redirectPacket_chosen (transport : metadata.Transports)
    (outbound : packet.outbound = true) (remote : metadata.dst.isLoopback = false)
    (listenerPort : Port) (chosen : packet.listener metadata flows = some listenerPort)
    : (redirectPacket packet flows).result = .ok ()
      ∧ EndpointRewritten metadata false ⟨localhost metadata.isIpv6, listenerPort⟩ packet.data
          (redirectPacket packet flows).data := by
  obtain ⟨written, same, rewritten⟩ := redirectOutbound_chosen found transport remote chosen
  rw [redirectPacket_eq found transport, if_pos outbound, same]
  exact ⟨rfl, rewritten⟩

omit found

/-- Packets that are not parsed, and those of other protocols, are left alone. -/
theorem redirectPacket_other
    (other : ∀ metadata, packetMetadata packet.data packet.len = some metadata →
      ¬ metadata.Transports)
    (flows : RedirectFlowTable)
    : redirectPacket packet flows = ⟨.ok (), packet.data, flows⟩ := by
  rw [redirectPacket]
  split
  · rfl
  · next metadata found => exact if_pos (not_or.mp (other metadata found))

section Runs

variable {run : RedirectRun} (tracks : run.Tracks clock) (later : clock ≤ packet.now)

include tracks later

/-- The observed flow of an outbound packet is known to the table. -/
theorem RedirectRun.Tracks.redirect (room : run.flows.entries.len < maxRedirectFlows)
    (sound : metadata.Sound packet.data) (remote : metadata.dst.isLoopback = false)
    (chosen : packet.listener metadata run.flows = some listenerPort)
    : RedirectRun.Tracks ⟨packet.enterFlow metadata run.flows listenerPort,
          .redirected (packet.outboundFlow metadata listenerPort) (packet.destination metadata)
            packet.now :: run.history⟩
        packet.now := by
  obtain ⟨inv, view⟩ := enterFlow_spec tracks.inv later room chosen
  refine tracks.observe later inv rfl view (fun flow => lastDestination_redirected _ _ _ _ _)
    (fun isIpv6 family => ?_) remote
  have source : IsFamily metadata.isIpv6 metadata.src := isFamily_of_addressBytes sound.source
  have target : IsFamily metadata.isIpv6 metadata.dst := isFamily_of_addressBytes sound.target
  have same : isIpv6 = metadata.isIpv6 := source.unique family
  rw [same]
  exact target

/-- The observed flow of an answer is the one that the table knows. -/
theorem RedirectRun.Tracks.answer {flow destination seen}
    (known : (run.flows.view flow).filter (recent packet.now) = some (destination, seen)) {flows}
    (inv : Inv packet.now flows)
    (view : ∀ other,
      flows.view other = if other = flow then some (destination, packet.now)
        else (run.flows.view other).filter (recent packet.now))
    : RedirectRun.Tracks ⟨flows, .answered flow packet.now :: run.history⟩ packet.now := by
  have shown := (filter_eq_some_iff.mp known).1
  have last : lastDestination run.history flow = some destination := by
    rw [← filter_recent_filter later, tracks.agree, filter_recent_filter later,
      filter_eq_some_iff, historyView] at known
    obtain ⟨found, first, second⟩ := bind_eq_some_iff.mp known.1
    obtain ⟨time, -, same⟩ := map_eq_some_iff.mp second
    cases same
    exact first
  refine tracks.observe later inv rfl view (fun other => ?_) (tracks.family flow _ shown)
    (tracks.remote flow _ shown)
  rw [lastDestination_answered]
  by_cases same : other = flow
  · rw [same, last]
    exact (if_pos rfl).symm
  · exact (if_neg same).symm

theorem packetFate : PacketFate packet run.flows (redirectPacket packet run.flows) := by
  by_cases parsed : ∃ metadata, packetMetadata packet.data packet.len = some metadata
      ∧ metadata.Transports
  · obtain ⟨metadata, found, transport⟩ := parsed
    rw [redirectPacket_eq found transport]
    cases direction : packet.outbound with
    | true => exact redirectOutbound_fate found transport direction
    | false =>
      have target : IsFamily metadata.isIpv6 metadata.dst :=
        isFamily_of_addressBytes (packetMetadata_sound found).target
      exact redirectInbound_fate tracks.inv later found transport
        (fun known shown => tracks.family _ known shown _ target) direction
  · rw [redirectPacket_other fun metadata found transport => parsed ⟨metadata, found, transport⟩]
    exact .ignored rfl rfl (.inl rfl) fun metadata found transport =>
      absurd ⟨metadata, found, transport⟩ parsed

/-- One packet keeps the table and the history in agreement. -/
theorem RedirectRun.Tracks.step (room : run.flows.entries.len < maxRedirectFlows)
    : (run.step packet).Tracks packet.now := by
  rw [RedirectRun.step]
  cases packetFate tracks later with
  | ignored done same kept unknown =>
    rw [same, event_unchanged]
    exact tracks.idle later kept
  | redirected metadata listenerPort found outbound remote chosen done rewritten entered =>
    rw [event_redirected found outbound remote rewritten, entered]
    exact tracks.redirect later room (packetMetadata_sound found) remote chosen
  | answered metadata destination seen found inbound loopback known done rewritten inv view =>
    have remote := tracks.remote _ _ (filter_eq_some_iff.mp known).1
    rw [event_answered found inbound loopback remote rewritten]
    exact tracks.answer later known inv view

end Runs

/-- The table and the history agree along every run, by induction on the packets. -/
theorem tracks_redirectRun {packets}
    (ordered : packets.Pairwise fun earlier later => earlier.now ≤ later.now)
    (room : ∀ front, front <+: packets → (redirectRun front).flows.entries.len < maxRedirectFlows)
    {clock : Instant} (past : ∀ packet ∈ packets, packet.now ≤ clock)
    : (redirectRun packets).Tracks clock := by
  induction packets using reverseRecOn generalizing clock with
  | nil => exact tracks_empty clock
  | append_singleton packets packet ih =>
    obtain ⟨before, -, last⟩ := pairwise_append.mp ordered
    have tracks : (redirectRun packets).Tracks packet.now :=
      ih before (fun front part => room front (part.trans (prefix_append _ _)))
        fun earlier member => last earlier member packet (mem_singleton.mpr rfl)
    have stepped : (redirectRun (packets ++ [packet])).Tracks packet.now := by
      rw [redirectRun, foldl_append]
      exact tracks.step (Nat.le_refl _) (room packets (prefix_append _ _))
    exact stepped.idle (past packet (by simp)) (.inl rfl)

end Packets

/-- What a user of the redirection relies on, for one packet after a run. -/
structure CorrectlyRedirected (run : RedirectRun) (packet : Diverted) (after : Redirected) : Prop
    where
  /-- An answer comes from the destination of the last packet that its client sent. -/
  answers : ∀ metadata, packetMetadata packet.data packet.len = some metadata →
    metadata.Transports → packet.outbound = false → metadata.src.isLoopback = true →
    ∀ seen, lastSeen run.history (packet.inboundFlow metadata) = some seen →
      packet.now - seen < redirectFlowIdleTimeout →
      ∃ destination,
        lastDestination run.history (packet.inboundFlow metadata) = some destination
        ∧ after.result = .ok ()
        ∧ EndpointRewritten metadata true destination packet.data after.data
  /-- An outbound packet that was changed goes to the loopback address of its family, and to
  the listener of its flow or of its port.
  -/
  targets : packet.outbound = true → after.data ≠ packet.data →
    ∃ metadata listenerPort,
      packetMetadata packet.data packet.len = some metadata
      ∧ packet.listener metadata run.flows = some listenerPort
      ∧ EndpointRewritten metadata false ⟨localhost metadata.isIpv6, listenerPort⟩ packet.data
          after.data
  /-- An outbound packet that leaves the host and has a listener is sent to it. -/
  matched : ∀ metadata, packetMetadata packet.data packet.len = some metadata →
    metadata.Transports → packet.outbound = true → metadata.dst.isLoopback = false →
    ∀ listenerPort, packet.listener metadata run.flows = some listenerPort →
      after.result = .ok ()
      ∧ EndpointRewritten metadata false ⟨localhost metadata.isIpv6, listenerPort⟩ packet.data
          after.data
  /-- Only the address and the port of one endpoint may change. -/
  frame : after.data = packet.data
    ∨ ∃ metadata endpoint,
        packetMetadata packet.data packet.len = some metadata
        ∧ EndpointRewritten metadata (!packet.outbound) endpoint packet.data after.data

/-- Every packet of a run in which the table does not fill up is redirected correctly.
Witness: the table knows what the history says, so that an answer whose flow was seen
recently is found there.
-/
theorem redirectPacket_correct (packets : List Diverted) (packet : Diverted)
    (ordered : (packets ++ [packet]).Pairwise fun earlier later => earlier.now ≤ later.now)
    (room : ∀ front, front <+: packets → (redirectRun front).flows.entries.len < maxRedirectFlows)
    : CorrectlyRedirected (redirectRun packets) packet
        (redirectPacket packet (redirectRun packets).flows) := by
  obtain ⟨before, -, last⟩ := List.pairwise_append.mp ordered
  have tracks : (redirectRun packets).Tracks packet.now :=
    tracks_redirectRun before room
      fun earlier member => last earlier member packet (List.mem_singleton.mpr rfl)
  have agrees : ∀ flow seen, lastSeen (redirectRun packets).history flow = some seen →
      packet.now - seen < redirectFlowIdleTimeout →
      ∃ destination, lastDestination (redirectRun packets).history flow = some destination
        ∧ ((redirectRun packets).flows.view flow).filter (recent packet.now)
          = some (destination, seen) := by
    intro flow seen shown fresh
    obtain ⟨destination, found⟩ :=
      Option.isSome_iff_exists.mp (tracks.redirected flow (by rw [shown]; rfl))
    refine ⟨destination, found, ?_⟩
    rw [tracks.agree, historyView, found, Option.bind_some, shown, Option.map_some]
    exact Option.filter_some_pos (decide_eq_true fresh)
  cases packetFate tracks (Nat.le_refl _) with
  | ignored done same kept unknown =>
    refine ⟨?_, fun outbound changed => absurd same changed, fun _ => redirectPacket_chosen,
      .inl same⟩
    intro metadata found transport inbound loopback seen shown fresh
    obtain ⟨destination, -, known⟩ := agrees _ seen shown fresh
    rw [unknown metadata found transport inbound loopback] at known
    cases known
  | redirected metadata listenerPort found outbound remote chosen done rewritten entered =>
    refine ⟨?_, fun _ _ => ⟨metadata, listenerPort, found, chosen, rewritten⟩,
      fun _ => redirectPacket_chosen, .inr ?_⟩
    · intro other parsed transport inbound
      rw [outbound] at inbound
      cases inbound
    · rw [outbound]
      exact ⟨metadata, _, found, rewritten⟩
  | answered metadata destination seen found inbound loopback known done rewritten inv view =>
    refine ⟨?_, ?_, fun _ => redirectPacket_chosen, .inr ?_⟩
    · intro other parsed transport _ _ time shown fresh
      rw [found] at parsed
      cases parsed
      obtain ⟨target, sent, agreed⟩ := agrees _ time shown fresh
      rw [known] at agreed
      cases agreed
      exact ⟨destination, sent, done, rewritten⟩
    · intro outbound
      rw [inbound] at outbound
      cases outbound
    · rw [inbound]
      exact ⟨metadata, destination, found, rewritten⟩

/-- A UDP packet of a client, and the answer of the listener on port 5353. -/
def sampleRequest : Diverted where
  data := [0x45, 0, 0, 28, 0, 0, 0, 0, 64, 17, 0, 0, 10, 0, 0, 2, 9, 9, 9, 9,
    0x9C, 0x40, 0, 53, 0, 8, 0, 0]
  len := 28
  outbound := true
  redirects := [⟨some 53, 5353, false⟩]
  now := 5
  order := .stored _

def sampleAnswer : Diverted where
  data := [0x45, 0, 0, 28, 0, 0, 0, 0, 64, 17, 0, 0, 127, 0, 0, 1, 10, 0, 0, 2,
    0x14, 0xE9, 0x9C, 0x40, 0, 8, 0, 0]
  len := 28
  outbound := false
  redirects := []
  now := 9
  order := .stored _

theorem redirectPacket_correct_sample
    : CorrectlyRedirected (redirectRun [sampleRequest]) sampleAnswer
        (redirectPacket sampleAnswer (redirectRun [sampleRequest]).flows) := by
  refine redirectPacket_correct [sampleRequest] sampleAnswer (by decide) ?_
  rintro front ⟨rest, shape⟩
  cases front with
  | nil => decide
  | cons first others =>
    obtain ⟨rfl, empty⟩ := List.cons.inj shape
    rw [(List.append_eq_nil_iff.mp empty).1]
    decide

example
    : (redirectPacket sampleAnswer (redirectRun [sampleRequest]).flows).data
      = [0x45, 0, 0, 28, 0, 0, 0, 0, 64, 17, 0, 0, 9, 9, 9, 9, 10, 0, 0, 2,
          0, 53, 0x9C, 0x40, 0, 8, 0, 0] := by
  decide

end NetTrap.Interceptor
