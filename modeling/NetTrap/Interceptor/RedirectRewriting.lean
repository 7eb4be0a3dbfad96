import NetTrap.Interceptor.Redirect

/-! What rewriting an endpoint does to the bytes of a packet. -/

namespace NetTrap.Interceptor

open Rust Net Octets

/-- An address is of the family of a packet. -/
def IsFamily (isIpv6 : Bool) : IpAddr → Prop
  | .v4 _ => isIpv6 = false
  | .v6 _ => isIpv6 = true

variable {address : IpAddr}

theorem IsFamily.unique {one other : Bool} (first : IsFamily one address)
    (second : IsFamily other address)
    : other = one := by
  cases address with
  | v4 address | v6 address => exact Eq.trans second (Eq.symm first)

/-- The number of bytes of an address. -/
def addressLen (isIpv6 : Bool) : Nat :=
  if isIpv6 then 16 else 4

/-- The length of the fixed part of the IP header. -/
def fixedHeaderLen (isIpv6 : Bool) : Nat :=
  if isIpv6 then 40 else 20

variable {isIpv6 : Bool}

theorem addressBytes_of_isFamily (family : IsFamily isIpv6 address)
    : ∃ bytes, addressBytes isIpv6 address = some bytes ∧ bytes.length = addressLen isIpv6 := by
  cases address with
  | v4 address | v6 address =>
    cases family
    exact ⟨address.octets, rfl, address.size⟩

theorem isFamily_of_addressBytes {bytes : Bytes}
    (encoded : addressBytes isIpv6 address = some bytes)
    : IsFamily isIpv6 address := by
  cases isIpv6 <;> cases address <;> first | rfl | cases encoded

/-- An address of a given family is known by its bytes. -/
theorem addressBytes_inj {one other bytes} (first : addressBytes isIpv6 one = some bytes)
    (second : addressBytes isIpv6 other = some bytes)
    : one = other := by
  rcases one with ⟨⟨octets, _⟩⟩ | ⟨⟨octets, _⟩⟩ <;>
    rcases other with ⟨⟨others, _⟩⟩ | ⟨⟨others, _⟩⟩ <;>
    cases isIpv6 <;> simp only [addressBytes, reduceCtorEq, Option.some.injEq] at first second
  all_goals simp only [first, second]

theorem isLoopback_localhost (isIpv6 : Bool) : (localhost isIpv6).isLoopback = true := by
  cases isIpv6 <;> decide

theorem isFamily_localhost (isIpv6 : Bool) : IsFamily isIpv6 (localhost isIpv6) := by
  cases isIpv6 <;> rfl

/-- The addresses stand in the fixed part of the header. -/
theorem addressStart_add_le (isIpv6 source : Bool)
    : addressStart isIpv6 source + addressLen isIpv6 ≤ fixedHeaderLen isIpv6 := by
  cases isIpv6 <;> cases source <;> decide

/-- The packets that may be redirected are those of TCP and UDP. -/
def PacketMetadata.Transports (metadata : PacketMetadata) : Prop :=
  metadata.protocol = ipprotoTcp ∨ metadata.protocol = ipprotoUdp

/-- What `redirect_packet` relies on: the header and eight bytes of the transport segment lie
inside the packet.
-/
structure PacketMetadata.Sound (metadata : PacketMetadata) (data : Bytes) : Prop where
  header : fixedHeaderLen metadata.isIpv6 ≤ metadata.transportOffset
  transport : metadata.Transports →
    metadata.transportOffset + 8 ≤ metadata.totalLen
  captured : metadata.totalLen ≤ data.length
  source : addressBytes metadata.isIpv6 metadata.src
    = some (bytesAt data (addressStart metadata.isIpv6 true) (addressLen metadata.isIpv6))
  target : addressBytes metadata.isIpv6 metadata.dst
    = some (bytesAt data (addressStart metadata.isIpv6 false) (addressLen metadata.isIpv6))

variable {data : Bytes}

theorem add_eight_le_of_transportFits {protocol offset totalLen}
    (fits : transportFits data protocol offset totalLen = true)
    (transport : protocol = ipprotoTcp ∨ protocol = ipprotoUdp)
    : offset + 8 ≤ totalLen := by
  rw [transportFits] at fits
  split at fits
  · split at fits
    · cases fits
    · omega
  next other =>
    rw [if_pos (transport.resolve_left other)] at fits
    simpa using fits

/-- Following extension headers never goes back. -/
theorem le_of_readExtensions {datagram steps protocol last offset position}
    (found : readExtensions datagram steps protocol offset = some (last, position))
    : offset ≤ position := by
  have chain := (readExtensions_eq_some_iff ..).mp found
  clear found
  induction chain with
  | transport => exact Nat.le_refl _
  | extension skipped fits rest ih =>
    rw [extensionEnd] at ih
    omega
  | fragment fits atomic rest ih => omega

variable {metadata : PacketMetadata}

theorem ipv4Metadata_sound {capturedLen : Nat} (captured : capturedLen ≤ data.length)
    (found : ipv4Metadata data capturedLen = some metadata)
    : metadata.Sound data := by
  revert found
  fun_cases ipv4Metadata data capturedLen with
  | case5 _ ihl header totalLen total _ protocol fits =>
    rintro ⟨⟩
    simp only [Bool.or_eq_true, Bool.not_eq_true', Bool.and_eq_false_iff, decide_eq_false_iff_not,
      decide_eq_true_eq, not_or, not_not] at header total
    have inside : be16At data 2 ≤ data.length := (Nat.not_lt.mp total.2).trans captured
    exact ⟨header.1.1, add_eight_le_of_transportFits fits, inside, rfl, rfl⟩
  | _ => nofun

theorem ipv6Metadata_sound {capturedLen : Nat} (captured : capturedLen ≤ data.length)
    (found : ipv6Metadata data capturedLen = some metadata)
    : metadata.Sound data := by
  revert found
  fun_cases ipv6Metadata data capturedLen with
  | case4 _ totalLen total protocol offset start fits =>
    rintro ⟨⟩
    rw [transportStart, Pcap.ipv6TransportLoop_eq] at start
    exact ⟨le_of_readExtensions start, add_eight_le_of_transportFits fits,
      (Nat.not_lt.mp total).trans captured, rfl, rfl⟩
  | _ => nofun

theorem packetMetadata_sound {len : Nat} (found : packetMetadata data len = some metadata)
    : metadata.Sound data := by
  have captured : min len data.length ≤ data.length := Nat.min_le_right _ _
  simp only [packetMetadata] at found
  split at found
  · cases found
  split at found
  · exact ipv4Metadata_sound captured found
  split at found
  · exact ipv6Metadata_sound captured found
  · cases found

/-- The packet `written` is the packet `data` with another endpoint. -/
structure EndpointRewritten (metadata : PacketMetadata) (source : Bool) (endpoint : SocketAddr)
    (data written : Bytes) : Prop where
  length : written.length = data.length
  address : ∃ bytes, addressBytes metadata.isIpv6 endpoint.ip = some bytes
    ∧ bytesAt written (addressStart metadata.isIpv6 source) (addressLen metadata.isIpv6) = bytes
  port : portAt written (portStart metadata.transportOffset source) = endpoint.port
  others : ∀ index,
    (index < addressStart metadata.isIpv6 source
      ∨ addressStart metadata.isIpv6 source + addressLen metadata.isIpv6 ≤ index) →
    (index < portStart metadata.transportOffset source
      ∨ portStart metadata.transportOffset source + 2 ≤ index) →
    byteAt written index = byteAt data index

/-- Rewriting an endpoint of a sound packet succeeds when the address is of its family.
Witness: the address stands in the fixed header and the port behind it.
-/
theorem rewriteEndpoint_spec (sound : metadata.Sound data)
    (transport : metadata.Transports) (source : Bool)
    (family : IsFamily metadata.isIpv6 address) (port : Port)
    : ∃ written, rewriteEndpoint data metadata.isIpv6 metadata.transportOffset source address port
          = (true, written)
        ∧ EndpointRewritten metadata source ⟨address, port⟩ data written := by
  obtain ⟨bytes, encoded, length⟩ := addressBytes_of_isFamily family
  have header := sound.header
  have room := sound.transport transport
  have captured := sound.captured
  have inside := addressStart_add_le metadata.isIpv6 source
  have behind
      : metadata.transportOffset ≤ portStart metadata.transportOffset source
        ∧ portStart metadata.transportOffset source ≤ metadata.transportOffset + 2 := by
    cases source
    · exact ⟨Nat.le_add_right _ _, Nat.le_refl _⟩
    · exact ⟨Nat.le_refl _, Nat.le_add_right _ _⟩
  have addressFits : addressStart metadata.isIpv6 source + bytes.length ≤ data.length := by omega
  have middle := length_overwrite addressFits
  have portFits
      : portStart metadata.transportOffset source + port.toBeBytes.length
        ≤ (overwrite data (addressStart metadata.isIpv6 source) bytes).length := by
    have two : port.toBeBytes.length = 2 := rfl
    omega
  refine ⟨overwrite (overwrite data (addressStart metadata.isIpv6 source) bytes)
    (portStart metadata.transportOffset source) port.toBeBytes, ?_, ?_, ?_, ?_, ?_⟩
  · simp only [rewriteEndpoint, encoded]
    rw [if_neg (Nat.not_lt.mpr addressFits)]
    exact if_neg (Nat.not_lt.mpr portFits)
  · rw [length_overwrite portFits, middle]
  · refine ⟨bytes, encoded, ?_⟩
    rw [← length, bytesAt_overwrite_outside portFits (.inl (by omega)),
      bytesAt_overwrite addressFits]
  · exact Fin.ext (be16At_overwrite port.isLt portFits)
  · intro index outside apart
    rw [byteAt_overwrite_outside portFits apart,
      byteAt_overwrite_outside addressFits (by rwa [length])]

end NetTrap.Interceptor
