import NetTrap.Net.Datagram

/-! The reader of capture files: the file format, and the decoding of the packets in it.
Access to the file system is left out; a file is its bytes.
-/

namespace NetTrap.Pcap

open Rust Net Octets

/-- `Error::Packet` and `Error::Storage`. -/
inductive PcapError where
  | packet (text : String)
  | storage (text : String)
  deriving DecidableEq, Repr

inductive LinkType where
  | ethernet
  | null
  | loop
  | raw
  | linuxSll
  | ipv4
  | ipv6
  deriving DecidableEq, Repr

/-- The link types of the format that the reader knows, by number. -/
def LinkType.ofNumber (number : Nat) : Option LinkType :=
  if number = 1 then some .ethernet
  else if number = 12 then some .null
  else if number = 14 then some .loop
  else if number = 101 then some .raw
  else if number = 113 then some .linuxSll
  else if number = 228 then some .ipv4
  else if number = 229 then some .ipv6
  else none

/-- `link_header_len`. -/
def LinkType.headerLen : LinkType → Nat
  | .ethernet => 14
  | .raw | .ipv4 | .ipv6 => 0
  | .null | .loop => 4
  | .linuxSll => 16

def parseTransport (data : Bytes) (transportOffset : Nat) (protocol : UInt8)
    (srcIp dstIp : IpAddr) (timestamp : Timestamp) (origLen : Nat) : Option Packet :=
  if protocol = 6 then
    if data.length < transportOffset + 20 then none
    else
      let tcpHdrLen := (byteAt data (transportOffset + 12)).toNat / 16 * 4
      if !(20 ≤ tcpHdrLen && tcpHdrLen ≤ 60) then none
      else if data.length < transportOffset + tcpHdrLen then none
      else
        let flags := byteAt data (transportOffset + 13)
        let packet :=
          (Packet.new timestamp
            (.new srcIp dstIp (portAt data transportOffset)
                (portAt data (transportOffset + 2)) .tcp)
            (inferTcpDirection srcIp dstIp flags)
            (data.drop (transportOffset + tcpHdrLen))).withTcpFlags flags
        some { packet with length := origLen }
  else if protocol = 17 then
    if data.length < transportOffset + 8 then none
    else
      let udpLen := be16At data (transportOffset + 4)
      let payloadEnd := transportOffset + udpLen
      if udpLen < 8 || payloadEnd > data.length then none
      else
        let packet :=
          Packet.new timestamp
            (.new srcIp dstIp (portAt data transportOffset)
                (portAt data (transportOffset + 2)) .udp)
            (inferDirection srcIp dstIp)
            ((data.take payloadEnd).drop (transportOffset + 8))
        some { packet with length := origLen }
  else if protocol = 1 ∨ protocol = 58 then
    if data.length < transportOffset + 8 then none
    else
      let packet :=
        Packet.new timestamp (.new srcIp dstIp 0 0 .icmp) (inferDirection srcIp dstIp)
          (data.drop (transportOffset + 8))
      some { packet with length := origLen }
  else none

/-- The loop of `ipv6_transport_start`, with the turns that are left. -/
def ipv6TransportLoop (data : Bytes) : (turns : Nat) → UInt8 → Nat → Option (UInt8 × Nat)
  | 0, _, _ => none
  | turns + 1, protocol, offset =>
    if protocol = 0 ∨ protocol = 43 ∨ protocol = 60 then
      match data[offset]?, data[offset + 1]? with
      | some next, some len =>
        let nextOffset := offset + 8 * (len.toNat + 1)
        if nextOffset > data.length then none
        else ipv6TransportLoop data turns next nextOffset
      | _, _ => none
    else if protocol = 44 then
      if offset + 8 > data.length then none
      else if be16At data (offset + 2) ≠ 0 then none
      else ipv6TransportLoop data turns (byteAt data offset) (offset + 8)
    else if protocol = 59 then none
    else some (protocol, offset)

def ipv6TransportStart (data : Bytes) : Option (UInt8 × Nat) :=
  ipv6TransportLoop data 8 (byteAt data 6) 40

def parseIpv4Packet (data : Bytes) (timestamp : Timestamp) (origLen : Nat) : Option Packet :=
  if data.length < 20 then none
  else if (byteAt data 0).toNat / 16 ≠ 4 then none
  else
    let ihl := (byteAt data 0).toNat % 16 * 4
    if ihl < 20 || data.length < ihl then none
    else
      let totalLen := be16At data 2
      if totalLen < ihl || totalLen > data.length then none
      else if be16At data 6 % 16384 ≠ 0 then none
      else
        let packetData := data.take totalLen
        parseTransport packetData ihl (byteAt packetData 9) (.v4 (ipv4At packetData 12))
          (.v4 (ipv4At packetData 16)) timestamp origLen

def parseIpv6Packet (data : Bytes) (timestamp : Timestamp) (origLen : Nat) : Option Packet :=
  if data.length < 40 then none
  else if (byteAt data 0).toNat / 16 ≠ 6 then none
  else
    let totalLen := 40 + be16At data 4
    if totalLen > data.length then none
    else
      let packetData := data.take totalLen
      match ipv6TransportStart packetData with
      | none => none
      | some (protocol, transportOffset) =>
        parseTransport packetData transportOffset protocol (.v6 (ipv6At packetData 8))
          (.v6 (ipv6At packetData 24)) timestamp origLen

def bsdLoopbackFamilyIsIp (header : Bytes) : Bool :=
  [[2, 0, 0, 0], [0, 0, 0, 2], [24, 0, 0, 0], [0, 0, 0, 24], [28, 0, 0, 0], [0, 0, 0, 28],
    [30, 0, 0, 0], [0, 0, 0, 30]].contains header

/-- The loop over VLAN tags: the first tag, and where the network header starts. -/
def skipVlanTags (data : Bytes)
    : (depth : Nat) → Nat → Nat → Option Nat → Option (Nat × Nat × Option Nat)
  | 0, ethertype, offset, vlanTag =>
    if ethertype = 0x8100 ∨ ethertype = 0x88A8 then none else some (ethertype, offset, vlanTag)
  | depth + 1, ethertype, offset, vlanTag =>
    if ethertype = 0x8100 ∨ ethertype = 0x88A8 then
      if data.length < offset + 4 then none
      else
        skipVlanTags data depth (be16At data (offset + 2)) (offset + 4)
          (vlanTag.or (some (be16At data offset % 4096)))
    else some (ethertype, offset, vlanTag)

def maxVlanDepth : Nat := 8

/-- The network packet of a frame and the VLAN tag in front of it. -/
def linkPayload (data : Bytes) (linktype : LinkType) : Option (Bytes × Option Nat) :=
  match linktype with
  | .ethernet =>
    if data.length < 14 then none
    else
      match skipVlanTags data maxVlanDepth (be16At data 12) 14 none with
      | none => none
      | some (ethertype, offset, vlanTag) =>
        if ethertype = 0x0800 ∨ ethertype = 0x86DD then some (data.drop offset, vlanTag)
        else none
  | .null | .loop =>
    if data.length < 4 then none
    else if !bsdLoopbackFamilyIsIp (data.take 4) then none
    else some (data.drop 4, none)
  | .linuxSll =>
    if data.length < 16 then none
    else if be16At data 14 = 0x0800 ∨ be16At data 14 = 0x86DD then some (data.drop 16, none)
    else none
  | .raw | .ipv4 | .ipv6 => some (data, none)

def parseLinkPacket (data : Bytes) (linktype : LinkType) (linkHeaderLen : Nat)
    (timestamp : Timestamp) (origLen : Nat) : Option Packet :=
  if data.length < linkHeaderLen then none
  else
    match linkPayload data linktype with
    | none => none
    | some (ipData, vlanTag) =>
      if ipData.isEmpty then none
      else
        let version :=
          match linktype with
          | .ipv4 => 4
          | .ipv6 => 6
          | _ => (byteAt ipData 0).toNat / 16 % 16
        if version = 4 then
          (parseIpv4Packet ipData timestamp origLen).map (·.applyVlanTag vlanTag)
        else if version = 6 then
          (parseIpv6Packet ipData timestamp origLen).map (·.applyVlanTag vlanTag)
        else none

def maxPcapReadBytes : Nat := 512 * 1024 * 1024

def maxPcapRecords : Nat := 100000

def pcapSnaplen : Nat := 65535

def maxPcapRecordBytes : Nat := pcapSnaplen

/-- What the magic number says about the byte order and the timestamps. -/
structure PcapFormat where
  (swapped nano : Bool)
  deriving DecidableEq, Repr

def PcapFormat.ofMagic (magic : Nat) : Option PcapFormat :=
  if magic = 0xa1b2c3d4 then some ⟨false, false⟩
  else if magic = 0xd4c3b2a1 then some ⟨true, false⟩
  else if magic = 0xa1b23c4d then some ⟨false, true⟩
  else if magic = 0x4d3cb2a1 then some ⟨true, true⟩
  else none

variable (format : PcapFormat) (linktype : LinkType) (snaplen : Nat) (buf : Bytes)

/-- `read_u32` in the byte order of the file. -/
def PcapFormat.readU32 (data : Bytes) (offset : Nat) : Nat :=
  if format.swapped then be16At data offset * 65536 + be16At data (offset + 2)
  else le32At data offset

/-- `read_u16` in the byte order of the file. -/
def PcapFormat.readU16 (data : Bytes) (offset : Nat) : Nat :=
  if format.swapped then be16At data offset
  else (byteAt data offset).toNat + (byteAt data (offset + 1)).toNat * 256

/-- The nanoseconds of a record's timestamp; `pos` is where the record ends. -/
def recordNanos (pos tsFrac : Nat) : Except PcapError Nat :=
  if format.nano then
    if tsFrac ≥ 1000000000 then
      .error (.packet ("PCAP nanosecond timestamp fraction is out of range at offset "
        ++ toString pos ++ " (" ++ toString tsFrac ++ ")"))
    else .ok tsFrac
  else if tsFrac ≥ 1000000 then
    .error (.packet ("PCAP microsecond timestamp fraction is out of range at offset "
      ++ toString pos ++ " (" ++ toString tsFrac ++ ")"))
  else .ok (tsFrac * 1000)

/-- A record's packet, if it can be decoded, and where it ends; the record's header, in
front of `start`, gave the four numbers.
-/
def readRecordData (start tsSec tsFrac inclLen origLen : Nat)
    : Except PcapError (Option Packet × Nat) :=
  match checkedAdd start inclLen with
  | none => .error (.packet ("PCAP packet length overflows at offset " ++ toString start))
  | some packetEnd =>
    if inclLen > snaplen then
      .error (.packet ("PCAP packet length exceeds snaplen at offset " ++ toString start
        ++ " (" ++ toString inclLen ++ " > " ++ toString snaplen ++ ")"))
    else if origLen < inclLen then
      .error (.packet ("PCAP original length is smaller than captured length at offset "
        ++ toString start ++ " (" ++ toString origLen ++ " < " ++ toString inclLen ++ ")"))
    else if packetEnd > buf.length then
      .error (.packet ("PCAP packet is truncated at offset " ++ toString start))
    else
      (recordNanos format packetEnd tsFrac).map fun tsNsec =>
        let timestamp := (Timestamp.fromTimestamp tsSec tsNsec).getD .epoch
        (parseLinkPacket ((buf.take packetEnd).drop start) linktype linktype.headerLen timestamp
          origLen, packetEnd)

/-- The record at `pos`. -/
def readRecord (pos : Nat) : Except PcapError (Option Packet × Nat) :=
  readRecordData format linktype snaplen buf (pos + 16) (format.readU32 buf pos)
    (format.readU32 buf (pos + 4)) (format.readU32 buf (pos + 8)) (format.readU32 buf (pos + 12))

/-- The end of the record loop: no bytes may be left. -/
def finishRecords (pos : Nat) (packets : List Packet) : Except PcapError (List Packet) :=
  if pos ≠ buf.length then
    .error (.packet ("PCAP truncated record header at offset " ++ toString pos))
  else .ok packets

/-- The record loop, with the number of records that it may still read. -/
def recordLoop (format : PcapFormat) (linktype : LinkType) (snaplen : Nat) (buf : Bytes)
    : (left pos : Nat) → List Packet → Except PcapError (List Packet)
  | 0, pos, packets =>
    if pos + 16 ≤ buf.length then
      .error (.packet ("PCAP file exceeds record limit (>" ++ toString maxPcapRecords
        ++ " records)"))
    else finishRecords buf pos packets
  | left + 1, pos, packets =>
    if pos + 16 ≤ buf.length then
      match readRecord format linktype snaplen buf pos with
      | .error error => .error error
      | .ok (packet, pos) =>
        recordLoop format linktype snaplen buf left pos (packets ++ packet.toList)
    else finishRecords buf pos packets

/-- Eight hexadecimal digits. -/
def hexDigits (value : Nat) : String :=
  String.ofList ((List.range 8).map fun index => Nat.digitChar (value / 16 ^ (7 - index) % 16))

/-- `PcapReader::read_file` on the contents of the file. -/
def readFile : Except PcapError (List Packet) :=
  if buf.length > maxPcapReadBytes then
    .error (.packet ("PCAP file exceeds read limit (" ++ toString buf.length ++ " > "
      ++ toString maxPcapReadBytes ++ " bytes)"))
  else if buf.length < 24 then .error (.packet "PCAP file too short for global header")
  else
    match PcapFormat.ofMagic (le32At buf 0) with
    | none => .error (.packet ("Invalid PCAP magic: 0x" ++ hexDigits (le32At buf 0)))
    | some format =>
      let versionMajor := format.readU16 buf 4
      let versionMinor := format.readU16 buf 6
      if versionMajor ≠ 2 ∨ versionMinor ≠ 4 then
        .error (.packet ("unsupported PCAP version: " ++ toString versionMajor ++ "."
          ++ toString versionMinor))
      else
        let snaplen := format.readU32 buf 16
        if snaplen > maxPcapRecordBytes then
          .error (.packet ("PCAP snaplen exceeds read limit (" ++ toString snaplen ++ " > "
            ++ toString maxPcapRecordBytes ++ " bytes)"))
        else
          match LinkType.ofNumber (format.readU32 buf 20) with
          | none =>
            .error (.packet ("unsupported PCAP linktype: "
              ++ toString (format.readU32 buf 20)))
          | some linktype => recordLoop format linktype snaplen buf maxPcapRecords 24 []

/-! The file reader decodes a packet as its datagram reads, once the version field agrees. -/

/-- The packet that the reader makes of a segment. -/
def packetOf (timestamp : Timestamp) (origLen : Nat) (segment : Segment) : Packet where
  timestamp
  fiveTuple := segment.fiveTuple
  direction := segment.direction
  packetType := (segment.tcpFlags.map TcpFlags.toPacketType).getD .unknown
  tcpFlags := segment.tcpFlags
  payload := segment.payload
  length := origLen
  interface := none
  vlanTag := none

section Transport

variable (data : Bytes) (offset : Nat) (srcIp dstIp : IpAddr) (timestamp : Timestamp)
  (origLen : Nat)

/-- A data offset has four bits, so a TCP header is never longer than 60 bytes. -/
theorem tcpHeaderLen_le : tcpHeaderLen data offset ≤ 60 := by
  have bound := (byteAt data (offset + 12)).toNat_lt
  rw [tcpHeaderLen]
  omega

theorem parseTransport_eq (protocol : UInt8)
    : parseTransport data offset protocol srcIp dstIp timestamp origLen
      = (readTransport data offset protocol srcIp dstIp).map (packetOf timestamp origLen) := by
  rw [parseTransport, readTransport]
  split
  · have bound := tcpHeaderLen_le data offset
    have header : (byteAt data (offset + 12)).toNat / 16 * 4 = tcpHeaderLen data offset := rfl
    rw [readTcp]
    split
    · rfl
    simp only [header]
    by_cases short : tcpHeaderLen data offset < 20
    · simp [short, Nat.not_le.mpr short]
    · simp only [bound, Nat.not_lt.mp short, short, decide_true, Bool.and_self, Bool.not_true,
        Bool.false_eq_true, if_false, false_or]
      split <;> rfl
  split
  · rw [readUdp]
    split
    · rfl
    by_cases short : be16At data (offset + 4) < 8
    · simp [short]
    · by_cases long : data.length < offset + be16At data (offset + 4)
      · simp [short, long]
      · simp only [short, long, decide_false, Bool.or_self, Bool.false_eq_true, if_false, or_self]
        rfl
  split
  · rw [readIcmp]
    split <;> rfl
  · rfl

end Transport

/-- The loop over extension headers follows them as the datagram reads. -/
theorem ipv6TransportLoop_eq (data : Bytes) (turns : Nat) (protocol : UInt8) (offset : Nat)
    : ipv6TransportLoop data turns protocol offset = readExtensions data turns protocol offset := by
  induction turns generalizing protocol offset with
  | zero => rfl
  | succ turns ih =>
    rw [ipv6TransportLoop, readExtensions]
    have skipped : (protocol = 0 ∨ protocol = 43 ∨ protocol = 60)
        ↔ isSkippedExtension protocol = true := by
      simp [isSkippedExtension, or_assoc]
    simp only [skipped, ih]
    split
    · -- A length byte outside the data cannot be followed: the header would not fit.
      by_cases inside : offset + 1 < data.length
      · have first : data[offset]? = some (byteAt data offset) := by
          simp [byteAt, show offset < data.length by omega]
        have second : data[offset + 1]? = some (byteAt data (offset + 1)) := by
          simp [byteAt, inside]
        have ends
            : offset + 8 * ((byteAt data (offset + 1)).toNat + 1) = extensionEnd data offset :=
          rfl
        simp [first, second, ends]
      · have missing : data[offset + 1]? = none := by
          simp
          omega
        have short : data.length < extensionEnd data offset := by
          rw [extensionEnd]
          omega
        rw [missing, if_pos short]
        cases data[offset]? <;> rfl
    · rfl

section Datagrams

variable (data : Bytes) (timestamp : Timestamp) (origLen : Nat)

theorem parseIpv4Packet_eq
    : parseIpv4Packet data timestamp origLen
      = if versionOf data = 4 then (readIpv4 data).map (packetOf timestamp origLen)
        else none := by
  rw [parseIpv4Packet, readIpv4, versionOf]
  by_cases short : data.length < 20
  · simp [short]
  by_cases version : (byteAt data 0).toNat / 16 = 4
  · have header : (byteAt data 0).toNat % 16 * 4 = ipv4HeaderLen data := rfl
    simp only [short, version, if_false, if_true, ne_eq, not_true_eq_false, header]
    by_cases bad : ipv4HeaderLen data < 20 ∨ data.length < ipv4HeaderLen data
    · simp [bad]
    by_cases wrong : be16At data 2 < ipv4HeaderLen data ∨ data.length < be16At data 2
    · simp [bad, wrong]
    by_cases fragment : be16At data 6 % 16384 = 0
    · have room : 20 ≤ be16At data 2 := by omega
      have protocol : byteAt (data.take (be16At data 2)) 9 = byteAt data 9 :=
        byteAt_take (by omega) data
      have source : ipv4At (data.take (be16At data 2)) 12 = ipv4At data 12 := by
        simp only [ipv4At, bytesAt_take (show 12 + 4 ≤ be16At data 2 by omega) data]
      have target : ipv4At (data.take (be16At data 2)) 16 = ipv4At data 16 := by
        simp only [ipv4At, bytesAt_take (show 16 + 4 ≤ be16At data 2 by omega) data]
      simp only [not_or] at bad wrong
      simp [bad, wrong, fragment, parseTransport_eq, protocol, source, target]
    · simp [bad, wrong, fragment]
  · simp [short, version]

theorem parseIpv6Packet_eq
    : parseIpv6Packet data timestamp origLen
      = if versionOf data = 6 then (readIpv6 data).map (packetOf timestamp origLen)
        else none := by
  rw [parseIpv6Packet, readIpv6, versionOf]
  by_cases short : data.length < 40
  · simp [short]
  by_cases version : (byteAt data 0).toNat / 16 = 6
  · simp only [short, version, if_false, if_true, ne_eq, not_true_eq_false, gt_iff_lt]
    by_cases long : data.length < 40 + be16At data 4
    · simp [long]
    have protocol : byteAt (data.take (40 + be16At data 4)) 6 = byteAt data 6 :=
      byteAt_take (by omega) data
    have source : ipv6At (data.take (40 + be16At data 4)) 8 = ipv6At data 8 := by
      simp only [ipv6At, bytesAt_take (show 8 + 16 ≤ 40 + be16At data 4 by omega) data]
    have target : ipv6At (data.take (40 + be16At data 4)) 24 = ipv6At data 24 := by
      simp only [ipv6At, bytesAt_take (show 24 + 16 ≤ 40 + be16At data 4 by omega) data]
    simp only [long, if_false, ipv6TransportStart, protocol, ipv6TransportLoop_eq, source, target]
    cases readExtensions (data.take (40 + be16At data 4)) 8 (byteAt data 6) 40 with
    | none => rfl
    | some found => exact parseTransport_eq _ _ _ _ _ _ _
  · simp [short, version]

end Datagrams

end NetTrap.Pcap
