import NetTrap.Interceptor.CaptureDecoding
import NetTrap.Pcap.Reader

/-! When the live decoder and the reader of capture files agree on a frame.
Both read the datagram behind the link header the same way; they differ in what tells them
the version of IP. The live decoder believes the link layer, the reader of files believes
the version field of the datagram.
-/

namespace NetTrap.Interceptor

open Rust Net Octets Pcap Option List

/-- The link types that both decoders know. -/
inductive CapturedLink where
  | ethernet
  | raw
  | ipv4
  | ipv6
  | loop
  deriving DecidableEq, Repr

def CapturedLink.live : CapturedLink → Linktype
  | .ethernet => .ethernet
  | .raw => .raw
  | .ipv4 => .ipv4
  | .ipv6 => .ipv6
  | .loop => .loop

def CapturedLink.file : CapturedLink → Pcap.LinkType
  | .ethernet => .ethernet
  | .raw => .raw
  | .ipv4 => .ipv4
  | .ipv6 => .ipv6
  | .loop => .loop

inductive IpVersion where
  | v4
  | v6
  deriving DecidableEq, Repr

namespace IpVersion

def read : IpVersion → Bytes → Option Segment
  | v4 => readIpv4
  | v6 => readIpv6

def WellFormed : IpVersion → Bytes → Prop
  | v4 => WellFormedIpv4
  | v6 => WellFormedIpv6

theorem read_isSome_iff (version : IpVersion) (datagram : Bytes)
    : (version.read datagram).isSome = true ↔ version.WellFormed datagram := by
  cases version with
  | v4 => exact readIpv4_isSome_iff datagram
  | v6 => exact readIpv6_isSome_iff datagram

/-- The version in the first four bits of a datagram. -/
def ofField (datagram : Bytes) : Option IpVersion :=
  if versionOf datagram = 4 then some v4
  else if versionOf datagram = 6 then some v6
  else none

/-- The version that an ethertype names. -/
def ofEthertype (ethertype : Nat) : Option IpVersion :=
  if ethertype = 0x0800 then some v4
  else if ethertype = 0x86DD then some v6
  else none

/-- The version that an address family names on a live capture. -/
def ofFamily (family : Nat) : Option IpVersion :=
  if family = 2 then some v4
  else if family = 23 ∨ family = 24 ∨ family = 28 ∨ family = 30 then some v6
  else none

end IpVersion

/-- The ethertype behind at most eight VLAN tags, and the position behind it. -/
def etherHeader (data : Bytes) : Option (Nat × Nat × Option Nat) :=
  if data.length < 14 then none else Pcap.skipVlanTags data 8 (be16At data 12) 14 none

/-- The bytes behind the link header. -/
def datagramOf (link : CapturedLink) (data : Bytes) : Bytes :=
  match link with
  | .ethernet => (etherHeader data).elim [] fun (_, offset, _) => data.drop offset
  | .raw | .ipv4 | .ipv6 => data
  | .loop => data.drop 4

/-- The version that the link layer gives on a live capture. -/
def linkVersion (link : CapturedLink) (data : Bytes) : Option IpVersion :=
  match link with
  | .ethernet => (etherHeader data).bind fun (ethertype, _, _) => IpVersion.ofEthertype ethertype
  | .raw | .ipv4 => some .v4
  | .ipv6 => some .v6
  | .loop => if data.length < 4 then none else IpVersion.ofFamily (loopbackFamily data true)

/-- The version that the datagram gives in a capture file, unless the link layer rules it
out.
-/
def fieldVersion (link : CapturedLink) (data : Bytes) : Option IpVersion :=
  match link with
  | .ethernet =>
    if (linkVersion .ethernet data).isSome then IpVersion.ofField (datagramOf .ethernet data)
    else none
  | .raw => IpVersion.ofField data
  | .ipv4 => if versionOf data = 4 then some .v4 else none
  | .ipv6 => if versionOf data = 6 then some .v6 else none
  | .loop =>
    if data.length < 4 then none
    else if Pcap.bsdLoopbackFamilyIsIp (data.take 4) then IpVersion.ofField (data.drop 4)
    else none

/-- Both decoders accept a frame or both do not, and they find the same in it. -/
structure SameReading (live file : Option Packet) : Prop where
  accepted : live.isSome = true ↔ file.isSome = true
  content : ∀ one ∈ live, ∀ other ∈ file,
    one.fiveTuple = other.fiveTuple ∧ one.payload = other.payload ∧ one.tcpFlags = other.tcpFlags

section Live

variable (data : Bytes) (interface : Str) (now : Timestamp)

theorem vlanLoop_eq (depth ethertype offset : Nat) (tag : Option Nat)
    : vlanLoop data data.length depth ethertype offset tag
      = skipVlanTags data depth ethertype offset tag := by
  induction depth generalizing ethertype offset tag with
  | zero => rfl
  | succ depth ih => simp only [vlanLoop, skipVlanTags, ih]

/-- The VLAN tags that were passed lie inside the frame. -/
theorem skipVlanTags_le {depth ethertype offset tag found last position}
    (inside : offset ≤ data.length)
    (skipped : skipVlanTags data depth ethertype offset tag = some (last, position, found))
    : position ≤ data.length := by
  fun_induction skipVlanTags data depth ethertype offset tag with
  | case2 | case5 =>
    cases skipped
    exact inside
  | case4 depth ethertype offset tag tagged fits ih => exact ih (by omega) skipped
  | case1 | case3 => cases skipped

theorem segment_parseIpv4_at {offset} (inside : offset ≤ data.length)
    : (parseIpv4 data data.length offset interface now).map Packet.segment
      = readIpv4 (data.drop offset) := by
  have split := segment_parseIpv4 (data.take offset) (data.drop offset) interface now
  rwa [take_append_drop, length_take_of_le inside] at split

theorem segment_parseIpv6_at {offset} (inside : offset ≤ data.length)
    : (parseIpv6 data data.length offset interface now).map Packet.segment
      = readIpv6 (data.drop offset) := by
  have split := segment_parseIpv6 (data.take offset) (data.drop offset) interface now
  rwa [take_append_drop, length_take_of_le inside] at split

theorem map_segment_applyVlanTag (packet : Option Packet) (tag : Option Nat)
    : (packet.map (·.applyVlanTag tag)).map Packet.segment = packet.map Packet.segment := by
  cases packet with
  | none => rfl
  | some packet => exact congrArg some (packet.segment_applyVlanTag tag)

theorem segment_parseEthernet
    : (parseEthernet data data.length interface now).map Packet.segment
      = (linkVersion .ethernet data).bind fun version =>
          version.read (datagramOf .ethernet data) := by
  rw [parseEthernet, linkVersion, datagramOf, etherHeader]
  by_cases short : data.length < 14
  · simp [short]
  rw [if_neg short, if_neg short, maxVlanDepth, vlanLoop_eq]
  cases skipped : skipVlanTags data 8 (be16At data 12) 14 none with
  | none => rfl
  | some header =>
    obtain ⟨ethertype, offset, tag⟩ := header
    have inside : offset ≤ data.length := skipVlanTags_le data (Nat.not_lt.mp short) skipped
    simp only [bind_some, elim_some, IpVersion.ofEthertype]
    split
    · rw [map_segment_applyVlanTag, segment_parseIpv4_at data interface now inside]
      rfl
    split
    · rw [map_segment_applyVlanTag, segment_parseIpv6_at data interface now inside]
      rfl
    · rfl

theorem segment_parseIpPacket {hint : Nat} {version : IpVersion}
    (named : hint = 4 ∧ version = .v4 ∨ hint = 6 ∧ version = .v6)
    : (parseIpPacket data data.length 0 (some hint) interface now).map Packet.segment
      = version.read data := by
  have start : data.drop 0 = data := drop_zero
  rw [parseIpPacket]
  split
  · next empty =>
    have nothing : data = [] := length_eq_zero_iff.mp (Nat.le_zero.mp empty)
    rw [nothing]
    cases version <;> rfl
  rcases named with ⟨rfl, rfl⟩ | ⟨rfl, rfl⟩
  · exact (segment_parseIpv4_at data interface now (Nat.zero_le _)).trans (by rw [start]; rfl)
  · exact (segment_parseIpv6_at data interface now (Nat.zero_le _)).trans (by rw [start]; rfl)

theorem segment_parseNullLoopback
    : (parseNullLoopback data data.length true interface now).map Packet.segment
      = (linkVersion .loop data).bind fun version => version.read (datagramOf .loop data) := by
  rw [parseNullLoopback, linkVersion, datagramOf]
  split
  · rfl
  next long =>
    have inside : 4 ≤ data.length := Nat.not_lt.mp long
    simp only [IpVersion.ofFamily]
    split
    · exact segment_parseIpv4_at data interface now inside
    split
    · exact segment_parseIpv6_at data interface now inside
    · rfl

/-- A live frame is read in the version that the link layer gives. -/
theorem segment_parsePacket (link : CapturedLink) {len} (whole : data.length ≤ len)
    : (parsePacket data len link.live interface now).map Packet.segment
      = (linkVersion link data).bind fun version => version.read (datagramOf link data) := by
  simp only [parsePacket, Nat.min_eq_right whole]
  cases link with
  | ethernet => exact segment_parseEthernet data interface now
  | raw | ipv4 => exact segment_parseIpPacket data interface now (.inl ⟨rfl, rfl⟩)
  | ipv6 => exact segment_parseIpPacket data interface now (.inr ⟨rfl, rfl⟩)
  | loop => exact segment_parseNullLoopback data interface now

end Live

section File

variable (data : Bytes) (timestamp : Timestamp) (origLen : Nat)

theorem versionOf_mod (datagram : Bytes)
    : (byteAt datagram 0).toNat / 16 % 16 = versionOf datagram := by
  have bound := (byteAt datagram 0).toNat_lt
  rw [versionOf]
  omega

theorem map_segment_packetOf (segment : Option Segment)
    : (segment.map (packetOf timestamp origLen)).map Packet.segment = segment := by
  cases segment <;> rfl

section

variable (datagram : Bytes) (tag : Option Nat)

/-- A datagram whose version field is checked decodes in that version. -/
theorem segment_parseIpv4Packet
    : ((parseIpv4Packet datagram timestamp origLen).map (·.applyVlanTag tag)).map Packet.segment
      = if versionOf datagram = 4 then readIpv4 datagram else none := by
  rw [map_segment_applyVlanTag, parseIpv4Packet_eq]
  split
  · exact map_segment_packetOf timestamp origLen _
  · rfl

theorem segment_parseIpv6Packet
    : ((parseIpv6Packet datagram timestamp origLen).map (·.applyVlanTag tag)).map Packet.segment
      = if versionOf datagram = 6 then readIpv6 datagram else none := by
  rw [map_segment_applyVlanTag, parseIpv6Packet_eq]
  split
  · exact map_segment_packetOf timestamp origLen _
  · rfl

/-- Decoding by the version field. -/
theorem segment_byField
    : (if datagram.isEmpty = true then none
      else if versionOf datagram = 4 then
        (parseIpv4Packet datagram timestamp origLen).map (·.applyVlanTag tag)
      else if versionOf datagram = 6 then
        (parseIpv6Packet datagram timestamp origLen).map (·.applyVlanTag tag)
      else none).map Packet.segment
      = (IpVersion.ofField datagram).bind fun version => version.read datagram := by
  split
  · next empty =>
    rw [isEmpty_iff.mp empty]
    rfl
  rw [IpVersion.ofField]
  split
  · next four =>
    rw [segment_parseIpv4Packet, if_pos four]
    rfl
  split
  · next six =>
    rw [segment_parseIpv6Packet, if_pos six]
    rfl
  · rfl

end

/-- Behind a link header that does not fix the version, the version field decides. -/
theorem segment_parseLinkPacket_ofField {linktype : Pcap.LinkType} {headerLen}
    (free : linktype ≠ .ipv4 ∧ linktype ≠ .ipv6) (long : headerLen ≤ data.length) {datagram tag}
    (payload : Pcap.linkPayload data linktype = some (datagram, tag))
    : (parseLinkPacket data linktype headerLen timestamp origLen).map Packet.segment
      = (IpVersion.ofField datagram).bind fun version => version.read datagram := by
  rw [parseLinkPacket, if_neg (Nat.not_lt.mpr long), payload]
  cases linktype with
  | ipv4 => exact absurd rfl free.1
  | ipv6 => exact absurd rfl free.2
  | ethernet | null | loop | raw | linuxSll =>
    simp only [versionOf_mod]
    exact segment_byField timestamp origLen datagram tag

theorem segment_parseLinkPacket_refused {linktype : Pcap.LinkType} {headerLen}
    (payload : Pcap.linkPayload data linktype = none)
    : (parseLinkPacket data linktype headerLen timestamp origLen).map Packet.segment = none := by
  rw [parseLinkPacket, payload]
  split <;> rfl

theorem segment_parseLinkPacket_ethernet
    : (parseLinkPacket data .ethernet 14 timestamp origLen).map Packet.segment
      = (fieldVersion .ethernet data).bind fun version =>
          version.read (datagramOf .ethernet data) := by
  rw [fieldVersion, linkVersion, datagramOf, etherHeader]
  by_cases short : data.length < 14
  · rw [parseLinkPacket, if_pos short, if_pos short]
    rfl
  rw [if_neg short]
  cases skipped : skipVlanTags data 8 (be16At data 12) 14 none with
  | none =>
    apply segment_parseLinkPacket_refused
    rw [Pcap.linkPayload, if_neg short, Pcap.maxVlanDepth, skipped]
  | some header =>
    obtain ⟨ethertype, offset, tag⟩ := header
    simp only [bind_some, elim_some]
    by_cases known : ethertype = 0x0800 ∨ ethertype = 0x86DD
    · have named : (IpVersion.ofEthertype ethertype).isSome = true := by
        rw [IpVersion.ofEthertype]
        rcases known with rfl | rfl <;> rfl
      rw [if_pos named]
      apply segment_parseLinkPacket_ofField data timestamp origLen (by decide) (Nat.not_lt.mp short)
      rw [Pcap.linkPayload, if_neg short, Pcap.maxVlanDepth, skipped]
      exact if_pos known
    · have unnamed : IpVersion.ofEthertype ethertype = none := by
        rw [not_or] at known
        rw [IpVersion.ofEthertype, if_neg known.1, if_neg known.2]
      rw [unnamed]
      apply segment_parseLinkPacket_refused
      rw [Pcap.linkPayload, if_neg short, Pcap.maxVlanDepth, skipped]
      exact if_neg known

theorem segment_parseLinkPacket_loop
    : (parseLinkPacket data .loop 4 timestamp origLen).map Packet.segment
      = (fieldVersion .loop data).bind fun version => version.read (datagramOf .loop data) := by
  rw [fieldVersion, datagramOf]
  by_cases short : data.length < 4
  · rw [parseLinkPacket, if_pos short, if_pos short]
    rfl
  rw [if_neg short]
  by_cases family : bsdLoopbackFamilyIsIp (data.take 4) = true
  · rw [if_pos family]
    apply segment_parseLinkPacket_ofField data timestamp origLen (by decide) (Nat.not_lt.mp short)
    rw [Pcap.linkPayload, if_neg short, family]
    rfl
  · rw [if_neg family]
    apply segment_parseLinkPacket_refused
    rw [Pcap.linkPayload, if_neg short, Bool.eq_false_iff.mpr family]
    rfl

theorem segment_parseLinkPacket_ipv4
    : (parseLinkPacket data .ipv4 0 timestamp origLen).map Packet.segment
      = (fieldVersion .ipv4 data).bind fun version => version.read (datagramOf .ipv4 data) := by
  have decoded := segment_parseIpv4Packet timestamp origLen data none
  simp only [parseLinkPacket, Pcap.linkPayload, fieldVersion, datagramOf,
    Nat.not_lt_zero, if_false, if_true]
  by_cases empty : data = []
  · subst empty
    rfl
  rw [if_neg (by simpa using empty), decoded]
  split <;> rfl

theorem segment_parseLinkPacket_ipv6
    : (parseLinkPacket data .ipv6 0 timestamp origLen).map Packet.segment
      = (fieldVersion .ipv6 data).bind fun version => version.read (datagramOf .ipv6 data) := by
  have decoded := segment_parseIpv6Packet timestamp origLen data none
  have distinct : ¬ (6 : Nat) = 4 := by decide
  simp only [parseLinkPacket, Pcap.linkPayload, fieldVersion, datagramOf,
    Nat.not_lt_zero, if_false, if_true, distinct]
  by_cases empty : data = []
  · subst empty
    rfl
  rw [if_neg (by simpa using empty), decoded]
  split <;> rfl

/-- A frame of a capture file is read in the version of its version field. -/
theorem segment_parseLinkPacket (link : CapturedLink)
    : (parseLinkPacket data link.file link.file.headerLen timestamp origLen).map Packet.segment
      = (fieldVersion link data).bind fun version => version.read (datagramOf link data) := by
  cases link with
  | ethernet => exact segment_parseLinkPacket_ethernet data timestamp origLen
  | raw =>
    exact segment_parseLinkPacket_ofField data timestamp origLen (by decide) (Nat.zero_le _) rfl
  | ipv4 => exact segment_parseLinkPacket_ipv4 data timestamp origLen
  | ipv6 => exact segment_parseLinkPacket_ipv6 data timestamp origLen
  | loop => exact segment_parseLinkPacket_loop data timestamp origLen

end File

section Agreement

theorem readTransport_srcIp {datagram offset protocol srcIp dstIp segment}
    (found : readTransport datagram offset protocol srcIp dstIp = some segment)
    : segment.fiveTuple.srcIp = canonicalizeIp srcIp := by
  rw [readTransport] at found
  split at found
  · rw [readTcp] at found
    split_ifs at found
    cases found
    rfl
  split at found
  · rw [readUdp] at found
    split_ifs at found
    cases found
    rfl
  split at found
  · rw [readIcmp] at found
    split_ifs at found
    cases found
    rfl
  · cases found

/-- Only an IPv4-mapped address is canonicalised to an IPv4 one. -/
theorem byteAt_eq_zero_of_mapped {data index ip}
    (mapped : canonicalizeIp (.v6 (ipv6At data index)) = .v4 ip)
    : byteAt data (index + 1) = 0 := by
  rw [canonicalizeIp] at mapped
  split at mapped
  · next inner found =>
    rw [Ipv6Addr.toIpv4Mapped] at found
    split at found
    · next zeros =>
      have second : ((bytesAt data index 16).take 12)[1]? = some 0 := by
        rw [show bytesAt data index 16 = (ipv6At data index).octets from rfl, zeros]
        rfl
      exact some.inj second
    · cases found
  · cases mapped

/-- One datagram read in both versions gives two different five-tuples.
Witness: byte 9 is the protocol of the IPv4 reading, and it lies in the zeros in front of
an IPv4-mapped source address of the IPv6 reading.
-/
theorem readIpv4_fiveTuple_ne {data four six} (one : readIpv4 data = some four)
    (other : readIpv6 data = some six)
    : four.fiveTuple ≠ six.fiveTuple := by
  have wellFormed : WellFormedIpv4 data := (readIpv4_isSome_iff data).mp (by rw [one]; rfl)
  intro same
  have source : four.fiveTuple.srcIp = .v4 (ipv4At data 12) := by
    rw [readIpv4] at one
    split_ifs at one
    exact readTransport_srcIp one
  have mapped : six.fiveTuple.srcIp = canonicalizeIp (.v6 (ipv6At data 8)) := by
    rw [readIpv6] at other
    split_ifs at other
    split at other
    · cases other
    · exact readTransport_srcIp other
  have zero : byteAt data 9 = 0 := byteAt_eq_zero_of_mapped (by rw [← mapped, ← same, source])
  have transport := wellFormed.transport
  rw [zero] at transport
  rcases transport with ⟨protocol, -⟩ | ⟨protocol, -⟩ | ⟨protocol, -⟩
  · exact absurd protocol (by decide)
  · exact absurd protocol (by decide)
  · exact absurd protocol (by decide)

theorem IpVersion.read_fiveTuple_ne {one other : IpVersion} (distinct : one ≠ other) {data : Bytes}
    {left right : Segment} (first : one.read data = some left)
    (second : other.read data = some right)
    : left.fiveTuple ≠ right.fiveTuple := by
  cases one <;> cases other
  · exact absurd rfl distinct
  · exact readIpv4_fiveTuple_ne first second
  · exact (readIpv4_fiveTuple_ne second first).symm
  · exact absurd rfl distinct

section Readings

variable {live file : Option Packet} {datagram : Bytes} {linked fielded : Option IpVersion}

theorem isSome_iff_wellFormed {packet : Option Packet}
    (decoded : packet.map Packet.segment = linked.bind fun version => version.read datagram)
    : packet.isSome = true ↔ ∃ version, linked = some version ∧ version.WellFormed datagram := by
  rw [← isSome_map (f := Packet.segment), decoded]
  cases linked with
  | none => simp
  | some version => simpa using version.read_isSome_iff datagram

theorem SameReading.of_map_segment (same : live.map Packet.segment = file.map Packet.segment)
    : SameReading live file := by
  cases live with
  | none =>
    cases file with
    | none => exact ⟨Iff.rfl, fun one member => by cases member⟩
    | some packet => cases same
  | some packet =>
    cases file with
    | none => cases same
    | some other =>
      have equal : packet.segment = other.segment := some.inj same
      refine ⟨Iff.rfl, fun one member two taken => ?_⟩
      cases member
      cases taken
      exact ⟨congrArg Segment.fiveTuple equal, congrArg Segment.payload equal,
        congrArg Segment.tcpFlags equal⟩

/-- Two readings of one datagram agree if they take it for the same version or reject it.
Witness: both accepted in different versions would give different five-tuples.
-/
theorem sameReading_iff
    (first : live.map Packet.segment = linked.bind fun version => version.read datagram)
    (second : file.map Packet.segment = fielded.bind fun version => version.read datagram)
    : SameReading live file ↔ linked = fielded
        ∨ ∀ version, linked = some version ∨ fielded = some version →
            ¬ version.WellFormed datagram := by
  constructor
  · rintro ⟨accepted, content⟩
    rw [isSome_iff_wellFormed first, isSome_iff_wellFormed second] at accepted
    by_contra apart
    obtain ⟨unequal, reading⟩ := not_or.mp apart
    have both
        : (∃ version, linked = some version ∧ version.WellFormed datagram)
          ∧ ∃ version, fielded = some version ∧ version.WellFormed datagram := by
      simp only [not_forall, not_not] at reading
      obtain ⟨version, taken | taken, formed⟩ := reading
      · exact ⟨⟨version, taken, formed⟩, accepted.mp ⟨version, taken, formed⟩⟩
      · exact ⟨accepted.mpr ⟨version, taken, formed⟩, ⟨version, taken, formed⟩⟩
    obtain ⟨packet, rfl⟩ := isSome_iff_exists.mp ((isSome_iff_wellFormed first).mpr both.1)
    obtain ⟨stored, rfl⟩ := isSome_iff_exists.mp ((isSome_iff_wellFormed second).mpr both.2)
    obtain ⟨⟨one, rfl, -⟩, ⟨other, rfl, -⟩⟩ := both
    have distinct : one ≠ other := fun same => unequal (congrArg some same)
    exact IpVersion.read_fiveTuple_ne distinct first.symm second.symm
      (content packet rfl stored rfl).1
  · rintro (rfl | rejected)
    · exact .of_map_segment (first.trans second.symm)
    · have nothing : live.isSome = false := by
        rw [Bool.eq_false_iff, ne_eq, isSome_iff_wellFormed first]
        rintro ⟨version, taken, formed⟩
        exact rejected version (.inl taken) formed
      have neither : file.isSome = false := by
        rw [Bool.eq_false_iff, ne_eq, isSome_iff_wellFormed second]
        rintro ⟨version, taken, formed⟩
        exact rejected version (.inr taken) formed
      rw [isSome_eq_false_iff, isNone_iff_eq_none] at nothing neither
      exact .of_map_segment (by rw [nothing, neither])

end Readings

/-- The decoders agree on a frame exactly if the link layer and the version field name the
same version, or if the datagram is not well-formed in any version that one of them names.
-/
theorem parsePacket_sameReading_iff (link : CapturedLink) (data : Bytes) {len : Nat}
    (whole : data.length ≤ len) (interface : Str) (now timestamp : Timestamp) (origLen : Nat)
    : SameReading (parsePacket data len link.live interface now)
        (Pcap.parseLinkPacket data link.file link.file.headerLen timestamp origLen)
      ↔ linkVersion link data = fieldVersion link data
        ∨ ∀ version, linkVersion link data = some version ∨ fieldVersion link data = some version →
            ¬ version.WellFormed (datagramOf link data) :=
  sameReading_iff (segment_parsePacket data interface now link whole)
    (segment_parseLinkPacket data timestamp origLen link)

/-- An IPv6 datagram with a UDP segment of eight bytes. -/
def sampleIpv6Datagram : Bytes :=
  [0x60, 0, 0, 0, 0, 8, 17, 64] ++ List.replicate 15 0 ++ [1] ++ List.replicate 15 0 ++ [2]
    ++ [0x30, 0x39, 0, 53, 0, 8, 0, 0]

/-- On an IPv6 link the decoders agree on the datagram. -/
theorem parsePacket_sameReading_iff_sample
    : SameReading (parsePacket sampleIpv6Datagram 60 .ipv6 [] .epoch)
        (Pcap.parseLinkPacket sampleIpv6Datagram .ipv6 0 .epoch 60) :=
  (parsePacket_sameReading_iff .ipv6 sampleIpv6Datagram (by decide) [] .epoch .epoch 60).mpr
    (.inl (by decide))

/-- On a raw link only the reader of files accepts it. -/
theorem parsePacket_not_sameReading_raw
    : ¬ SameReading (parsePacket sampleIpv6Datagram 48 .raw [] .epoch)
        (Pcap.parseLinkPacket sampleIpv6Datagram .raw 0 .epoch 48) := by
  intro same
  have live : (parsePacket sampleIpv6Datagram 48 .raw [] .epoch).isSome = false := by decide
  have file : (Pcap.parseLinkPacket sampleIpv6Datagram .raw 0 .epoch 48).isSome = true := by
    decide
  rw [same.accepted.mpr file] at live
  cases live

end Agreement

end NetTrap.Interceptor
