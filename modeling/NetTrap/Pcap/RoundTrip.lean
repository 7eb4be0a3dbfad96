import Mathlib.Data.List.Forall2
import NetTrap.Pcap.Encoding
import NetTrap.Pcap.Records

/-! Packets that were written to a capture file are read back.
The writer's checks on sizes are the ones that the reader makes, except for the limits on
the file as a whole and on the fraction of a second.
-/

namespace NetTrap.Pcap

open Rust Net Octets PcapWriter List

section Records

variable {packet : Packet} {data record : Bytes}

/-- The reader decodes what the writer encoded. -/
theorem parseLinkPacket_written
    (transports : packet.fiveTuple.protocol = .tcp ∨ packet.fiveTuple.protocol = .udp)
    (encoded : encodeRawIpPacket packet = .ok data) (timestamp : Timestamp) (origLen : Nat)
    : parseLinkPacket data .raw 0 timestamp origLen = some (packetOf timestamp origLen
            (writtenSegment packet packet.fiveTuple.srcIp packet.fiveTuple.dstIp)) := by
  simp only [encodeRawIpPacket] at encoded
  split at encoded
  · cases encoded
  rename_i transport segmented
  have nonempty (version : Nat) (filled : versionOf data = version) (positive : 0 < version)
      : data.isEmpty = false := by
    rcases data with _ | ⟨first, rest⟩
    · subst filled
      exact absurd positive (by decide)
    · rfl
  split at encoded
  · rename_i src dst source target
    obtain ⟨version, reads⟩ := readIpv4_written transports segmented encoded
    have number : (byteAt data 0).toNat / 16 = 4 := version
    rw [source, target]
    simp [parseLinkPacket, linkPayload, nonempty 4 version (by decide), number,
      parseIpv4Packet_eq, version, reads, Packet.applyVlanTag]
  · rename_i src dst source target
    obtain ⟨version, reads⟩ := readIpv6_written transports segmented encoded
    have number : (byteAt data 0).toNat / 16 = 6 := version
    rw [source, target]
    simp [parseLinkPacket, linkPayload, nonempty 6 version (by decide), number,
      parseIpv6Packet_eq, version, reads, Packet.applyVlanTag]
  · cases encoded

/-- A record is four numbers and the encoded packet. -/
theorem encodeRecord_eq (encoded : encodeRecord packet = .ok record)
    : ∃ data, encodeRawIpPacket packet = .ok data ∧ data.length ≤ 65535
        ∧ 0 ≤ packet.timestamp.seconds
        ∧ packet.timestamp.seconds ≤ 4294967295
        ∧ record = le32Bytes packet.timestamp.seconds.toNat
            ++ (le32Bytes packet.timestamp.subsecMicros
              ++ (le32Bytes data.length ++ (le32Bytes data.length ++ data))) := by
  simp only [encodeRecord, pcapTimestampSeconds, pcapRecordLen] at encoded
  split at encoded
  · cases encoded
  rename_i tsSec inRange
  split at inRange
  · rename_i bounds
    cases inRange
    split at encoded
    · cases encoded
    rename_i data written
    split at encoded
    · cases encoded
    rename_i inclLen fits
    split at fits
    · cases fits
    · rename_i small
      cases fits
      rw [maxPcapRecordBytes, pcapSnaplen] at small
      refine ⟨data, written, by omega, bounds.1, bounds.2, ?_⟩
      rw [← Except.ok.inj encoded]
      simp
  · cases inRange

/-- The numbers in front of a packet are read back from behind `front`. -/
theorem le32At_field {data front back value} (layout : data = front ++ (le32Bytes value ++ back))
    (small : value < 4294967296)
    : le32At data front.length = value := by
  have found := le32At_append_right front (le32Bytes value ++ back) 0
  rw [Nat.add_zero, le32At_le32Bytes small] at found
  rw [layout, found]

/-- A written record is complete, with the packet's own timestamp. -/
theorem encodeRecord_complete (encoded : encodeRecord packet = .ok record)
    : Complete writerFormat 65535 record ∧ encodeRawIpPacket packet = .ok (record.drop 16)
      ∧ (writerFormat.readU32 record 0 : Int) = packet.timestamp.seconds
      ∧ writerFormat.readU32 record 4 = packet.timestamp.subsecMicros
      ∧ writerFormat.readU32 record 12 = record.length - 16 := by
  obtain ⟨data, written, small, past, bounded, seconds⟩ := encodeRecord_eq encoded
  have micros : packet.timestamp.subsecMicros < 4294967296 := by
    have valid := packet.timestamp.valid
    rw [Timestamp.subsecMicros]
    omega
  have length : record.length = 16 + data.length := by
    rw [seconds]
    simp [length_le32Bytes]
    omega
  have included := seconds.trans (append_assoc _ _ _).symm
  have original := included.trans (append_assoc _ _ _).symm
  have whole := original.trans (append_assoc _ _ _).symm
  have captured : record.drop 16 = data := by
    rw [whole]
    exact drop_left' rfl
  have tsSec := le32At_field (seconds.trans (nil_append _).symm) (by omega)
  have tsFrac := le32At_field seconds micros
  have inclLen := le32At_field included (by omega)
  have origLen := le32At_field original (by omega)
  refine ⟨⟨by omega, inclLen.trans (by omega), by omega⟩, captured ▸ written, ?_, tsFrac,
    origLen.trans (by omega)⟩
  exact (congrArg _ tsSec).trans (Int.toNat_of_nonneg past)

end Records

section Files

/-- A packet that was read is the one that was written, up to what the format keeps: its
timestamp to the microsecond, and for TCP the flags, which default to those of an
acknowledgement, with data pushed.
-/
structure SameCapture (written read : Packet) : Prop where
  fiveTuple : read.fiveTuple = written.fiveTuple
  payload : read.payload = written.payload
  tcpFlags
    : read.tcpFlags
      = match written.fiveTuple.protocol, written.tcpFlags with
        | .tcp, some flags => some flags
        | .tcp, none =>
          some (if written.payload.isEmpty then TcpFlags.ack else TcpFlags.psh ||| TcpFlags.ack)
        | _, _ => none
  seconds : read.timestamp.seconds = written.timestamp.seconds
  nanos : read.timestamp.nanos = written.timestamp.nanos / 1000 * 1000

/-- A packet that the round trip keeps: TCP or UDP between canonical addresses, outside of
leap seconds.
-/
structure Keepable (packet : Packet) : Prop where
  transports : packet.fiveTuple.protocol = .tcp ∨ packet.fiveTuple.protocol = .udp
  canonical : packet.fiveTuple.IsCanonical
  ordinary : packet.timestamp.nanos < 1000000000

theorem sameCapture_packetOf {packet : Packet} (keepable : Keepable packet) (origLen : Nat)
    {timestamp} (seconds : timestamp.seconds = packet.timestamp.seconds)
    (nanos : timestamp.nanos = packet.timestamp.nanos / 1000 * 1000)
    : SameCapture packet (packetOf timestamp origLen
          (writtenSegment packet packet.fiveTuple.srcIp packet.fiveTuple.dstIp)) := by
  obtain ⟨source, target⟩ := keepable.canonical
  rcases packet with ⟨stamp, ⟨srcIp, dstIp, srcPort, dstPort, protocol⟩, direction, kind, flags,
    payload, length, interface, vlanTag⟩
  simp only at source target
  rcases keepable.transports with tcp | udp
  · simp only at tcp
    subst tcp
    refine ⟨?_, rfl, ?_, seconds, nanos⟩
    · simp only [packetOf, writtenSegment, FiveTuple.new, source, target]
    · cases flags <;> rfl
  · simp only at udp
    subst udp
    refine ⟨?_, rfl, rfl, seconds, nanos⟩
    simp only [packetOf, writtenSegment, FiveTuple.new, source, target]

/-- The record of a packet worth keeping. -/
theorem decodeRecord_keepable {packet record} (keepable : Keepable packet)
    (encoded : encodeRecord packet = .ok record)
    : Acceptable writerFormat 65535 record ∧ ∃ read,
          decodeRecord writerFormat .raw record = some read
          ∧ SameCapture packet read := by
  obtain ⟨complete, written, seconds, fraction, original⟩ := encodeRecord_complete encoded
  have ordinary := keepable.ordinary
  have nanos
      : writerFormat.nanosOf (writerFormat.readU32 record 4)
        = packet.timestamp.subsecMicros * 1000 := by
    rw [fraction]
    rfl
  have valid : packet.timestamp.subsecMicros * 1000 < 1000000000 := by
    rw [Timestamp.subsecMicros]
    omega
  have same :=
    @sameCapture_packetOf packet keepable (record.length - 16)
      ⟨packet.timestamp.seconds, packet.timestamp.subsecMicros * 1000, .inl valid⟩ rfl rfl
  refine ⟨⟨complete, original.ge, nanos.trans_lt valid⟩, _, ?_, same⟩
  rw [decodeRecord, nanos, seconds, original, Timestamp.fromTimestamp, dif_pos (.inl valid)]
  exact parseLinkPacket_written keepable.transports written _ _

variable {packets : List Packet}

/-- The records of written packets are decoded one after the other. -/
theorem filterMap_decodeRecord_written {records} (encoded
      : List.Forall₂ (fun packet record => encodeRecord packet = .ok record) packets
          records) (keepable : ∀ packet ∈ packets, Keepable packet)
    : (∀ record ∈ records, Acceptable writerFormat 65535 record) ∧ List.Forall₂ SameCapture packets
          (records.filterMap (decodeRecord writerFormat .raw)) := by
  induction encoded with
  | nil => exact ⟨by simp, .nil⟩
  | cons first others ih =>
    obtain ⟨keep, keeps⟩ := forall_mem_cons.mp keepable
    obtain ⟨acceptable, read, found, same⟩ := decodeRecord_keepable keep first
    obtain ⟨later, sames⟩ := ih keeps
    refine ⟨forall_mem_cons.mpr ⟨acceptable, later⟩, ?_⟩
    rw [filterMap_cons_some found]
    exact .cons same sames

/-- Accepted packets extend the file by their records. -/
theorem writePackets_file {writer last : PcapWriter} {file : Bytes}
    (enabled : writer.enabled = true) (opened : writer.file = some file)
    (written : writer.writePackets packets = .ok last)
    : ∃ records, List.Forall₂ (fun packet record => encodeRecord packet = .ok record) packets
          records
        ∧ last.file = some (file ++ records.flatten) := by
  induction packets generalizing writer file with
  | nil =>
    cases written
    exact ⟨[], .nil, by simpa using opened⟩
  | cons packet packets ih =>
    simp only [writePackets, writePacket, enabled, opened, Bool.not_true,
      Bool.false_eq_true, if_false] at written
    cases encoded : encodeRecord packet with
    | error error =>
      rw [encoded] at written
      cases written
    | ok record =>
      rw [encoded] at written
      obtain ⟨records, others, content⟩ := ih rfl rfl written
      exact ⟨record :: records, .cons encoded others, by rw [content]; simp⟩

/-- Packets that the writer accepts are read back from a file that the reader accepts.
Witness: the file is a valid header and one acceptable record for each packet.
-/
theorem readFile_writePackets {packets : List Packet} {writer : PcapWriter}
    (written : PcapWriter.opened.writePackets packets = .ok writer)
    (keepable : ∀ packet ∈ packets, Keepable packet) (few : packets.length ≤ 100000)
    (small : ∀ file, writer.file = some file → file.length ≤ 512 * 1024 * 1024)
    : ∃ file read, writer.file = some file ∧ readFile file = .ok read
        ∧ List.Forall₂ SameCapture packets read := by
  obtain ⟨records, encoded, content⟩ := writePackets_file rfl rfl written
  obtain ⟨acceptable, same⟩ := filterMap_decodeRecord_written encoded keepable
  exact ⟨_, _, content,
    readFile_records validHeader_globalHeader acceptable (encoded.length_eq ▸ few)
      (small _ content), same⟩

end Files

/-- A UDP packet that fits in an IPv4 datagram is accepted. -/
theorem encodeRecord_accepts {packet src dst} (udp : packet.fiveTuple.protocol = .udp)
    (source : packet.fiveTuple.srcIp = .v4 src) (target : packet.fiveTuple.dstIp = .v4 dst)
    (fits : packet.payload.length ≤ 65507)
    (range : 0 ≤ packet.timestamp.seconds ∧ packet.timestamp.seconds ≤ 4294967295)
    : ∃ record, encodeRecord packet = .ok record := by
  have length
      : (udpHeaderFront packet ++ be16Bytes 0 ++ packet.payload).length
        = 8 + packet.payload.length := by
    simp [udpHeaderFront, Port.toBeBytes]
    omega
  have segmented : ∃ segment, encodeUdpSegment packet = .ok segment := by
    have within : ¬ 8 + packet.payload.length > u16Max := by
      rw [u16Max]
      omega
    simp only [encodeUdpSegment, transportChecksum, source, target, checksumIpv4Pseudo, length,
      within, if_false]
    exact ⟨_, rfl⟩
  obtain ⟨segment, segmented⟩ := segmented
  obtain ⟨checksum, layout, -⟩ := encodeUdpSegment_eq segmented
  have size : segment.length = 8 + packet.payload.length := by
    rw [layout, ← length]
    simp [length_be16Bytes]
  have encoded : ∃ data, encodeIpv4Packet packet src dst segment = .ok data := by
    rw [encodeIpv4Packet, if_neg (by rw [u16Max]; omega)]
    exact ⟨_, rfl⟩
  obtain ⟨data, encoded⟩ := encoded
  obtain ⟨headerChecksum, whole, -⟩ := encodeIpv4Packet_eq encoded
  have total : ¬ data.length > maxPcapRecordBytes := by
    have front : (ipv4HeaderFront packet (20 + segment.length) headerChecksum).length = 12 := rfl
    rw [whole, maxPcapRecordBytes, pcapSnaplen]
    simp [src.size, dst.size, front]
    omega
  have raw : encodeRawIpPacket packet = .ok data := by
    rw [encodeRawIpPacket, encodeTransportSegment, udp]
    simp only [segmented, source, target, encoded]
  rw [encodeRecord, pcapTimestampSeconds, if_pos range, raw]
  simp only [pcapRecordLen, total, if_false]
  exact ⟨_, rfl⟩

/-- A query of two bytes at the given time. -/
def sampleQuery (timestamp : Timestamp) : Packet :=
  .new timestamp (.new (.v4 (.new 10 0 0 5)) (.v4 (.new 192 0 2 1)) 5353 53 .udp) .outbound [1, 2]

theorem sampleQuery_accepted (timestamp : Timestamp)
    (range : 0 ≤ timestamp.seconds ∧ timestamp.seconds ≤ 4294967295)
    : ∃ record, encodeRecord (sampleQuery timestamp) = .ok record
        ∧ opened.writePackets [sampleQuery timestamp] = .ok ⟨true, some (globalHeader ++ record)⟩
        ∧ (globalHeader ++ record).length ≤ 512 * 1024 * 1024 := by
  have short : (sampleQuery timestamp).payload.length = 2 := rfl
  have accepted : ∃ record, encodeRecord (sampleQuery timestamp) = .ok record :=
    encodeRecord_accepts rfl rfl rfl (by omega) range
  obtain ⟨record, encoded⟩ := accepted
  obtain ⟨data, -, small, -, -, layout⟩ := encodeRecord_eq encoded
  have header : globalHeader.length = 24 := rfl
  refine ⟨record, encoded, ?_, ?_⟩
  · rw [writePackets, writePacket, encoded]
    rfl
  · rw [layout]
    simp [length_le32Bytes, header]
    omega

/-- A datagram over IPv4 and a segment over IPv6, of the first day of 2017. -/
def samplePackets : List Packet :=
  [sampleQuery ⟨1483228800, 250, .inl (by decide)⟩,
    .new ⟨1483228801, 1000, .inl (by decide)⟩
      (.new (.v6 (.ofGroups [0x2001, 0xdb8, 0, 1]))
        (.v6 (.ofGroups [0x2001, 0xdb8, 0, 2])) 443 50000 .tcp) .inbound [3, 4, 5]]

theorem readFile_writePackets_samples
    : ∃ writer file read, PcapWriter.opened.writePackets samplePackets = .ok writer
        ∧ writer.file = some file ∧ readFile file = .ok read
        ∧ List.Forall₂ SameCapture samplePackets read := by
  obtain ⟨writer, written⟩ : ∃ writer, PcapWriter.opened.writePackets samplePackets = .ok writer :=
    ⟨_, rfl⟩
  have keepable : ∀ packet ∈ samplePackets, Keepable packet := by
    refine List.forall_mem_cons.mpr ⟨?_, List.forall_mem_singleton.mpr ?_⟩
    · exact ⟨.inr rfl, FiveTuple.new_isCanonical _ _ _ _ _, by decide⟩
    · exact ⟨.inl rfl, FiveTuple.new_isCanonical _ _ _ _ _, by decide⟩
  have small : ∀ file, writer.file = some file → file.length ≤ 512 * 1024 * 1024 := by
    cases written
    decide +kernel
  obtain ⟨file, read, content, found, same⟩ :=
    readFile_writePackets written keepable (by decide) small
  exact ⟨writer, file, read, written, content, found, same⟩

/-- The writer accepts a packet of a leap second, but the reader refuses the file: the
microseconds are out of its range.
-/
theorem readFile_leapSecond
    : ∃ writer file error, PcapWriter.opened.writePackets
            [sampleQuery ⟨1483228799, 1000000000, .inr (by decide)⟩] = .ok writer
        ∧ writer.file = some file
        ∧ readFile file = .error error := by
  obtain ⟨record, encoded, written, small⟩ :=
    sampleQuery_accepted ⟨1483228799, 1000000000, .inr (by decide)⟩ (by decide)
  obtain ⟨complete, -, -, fraction, original⟩ := encodeRecord_complete encoded
  have beyond : 1000000000 ≤ writerFormat.nanosOf (writerFormat.readU32 record 4) := by
    rw [fraction]
    decide
  rw [← List.append_nil record] at written small
  obtain ⟨error, refused⟩ :=
    readFile_refuses validHeader_globalHeader complete original.ge beyond [] small
  exact ⟨_, _, error, written, rfl, refused⟩

end NetTrap.Pcap
