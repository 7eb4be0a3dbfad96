import NetTrap.Pcap.Writer

/-! The records of a capture file, each described by its own bytes.
The reader keeps in step with them: a record that it cannot decode is passed over as a whole.
-/

namespace NetTrap.Pcap

open Rust Net Octets List

/-- The nanoseconds that a record's fraction of a second stands for. -/
def PcapFormat.nanosOf (format : PcapFormat) (fraction : Nat) : Nat :=
  if format.nano then fraction else fraction * 1000

/-- The packet of a record, if it can be decoded. -/
def decodeRecord (format : PcapFormat) (linktype : LinkType) (record : Bytes) : Option Packet :=
  let nanos := format.nanosOf (format.readU32 record 4)
  parseLinkPacket (record.drop 16) linktype linktype.headerLen
    ((Timestamp.fromTimestamp (format.readU32 record 0) nanos).getD .epoch)
    (format.readU32 record 12)

/-- A record that is all there: its header, and as many bytes as the header says. -/
structure Complete (format : PcapFormat) (snaplen : Nat) (record : Bytes) : Prop where
  header : 16 ≤ record.length
  captured : format.readU32 record 8 = record.length - 16
  limited : record.length - 16 ≤ snaplen

/-- A complete record with an original length and a fraction of a second that make sense. -/
structure Acceptable (format : PcapFormat) (snaplen : Nat) (record : Bytes) : Prop
    extends Complete format snaplen record where
  original : record.length - 16 ≤ format.readU32 record 12
  fraction : format.nanosOf (format.readU32 record 4) < 1000000000

/-- A global header of a version and a link type that the reader knows. -/
structure ValidHeader (format : PcapFormat) (linktype : LinkType) (snaplen : Nat) (header : Bytes)
    : Prop where
  length : header.length = 24
  magic : PcapFormat.ofMagic (le32At header 0) = some format
  versionMajor : format.readU16 header 4 = 2
  versionMinor : format.readU16 header 6 = 4
  declared : format.readU32 header 16 = snaplen
  limited : snaplen ≤ maxPcapRecordBytes
  linktype : LinkType.ofNumber (format.readU32 header 20) = some linktype

section Reading

variable {format : PcapFormat} {linktype : LinkType} {snaplen : Nat} {header record : Bytes}

/-- A number inside a record is read where the record lies. -/
theorem PcapFormat.readU32_append (format : PcapFormat) {index} (inside : index + 3 < record.length)
    (front rest : Bytes)
    : format.readU32 (front ++ (record ++ rest)) (front.length + index)
      = format.readU32 record index := by
  rw [readU32, readU32, Nat.add_assoc, be16At_append_right, be16At_append_right,
    le32At_append_right, be16At_append_left (by omega), be16At_append_left (by omega),
    le32At_append_left inside]

theorem PcapFormat.readU16_append (format : PcapFormat) {index} (inside : index + 1 < header.length)
    (rest : Bytes)
    : format.readU16 (header ++ rest) index = format.readU16 header index := by
  rw [readU16, readU16, be16At_append_left inside, byteAt_append_left (by omega),
    byteAt_append_left inside]

theorem recordNanos_of_lt {fraction} (inRange : format.nanosOf fraction < 1000000000) (pos : Nat)
    : recordNanos format pos fraction = .ok (format.nanosOf fraction) := by
  rw [PcapFormat.nanosOf] at inRange ⊢
  rw [recordNanos]
  split
  · rename_i nano
    rw [if_pos nano] at inRange
    rw [if_neg (by omega)]
  · rename_i micro
    rw [if_neg micro] at inRange
    rw [if_neg (by omega)]

theorem recordNanos_of_ge {fraction} (beyond : 1000000000 ≤ format.nanosOf fraction) (pos : Nat)
    : ∃ error, recordNanos format pos fraction = .error error := by
  rw [PcapFormat.nanosOf] at beyond
  rw [recordNanos]
  split
  · rename_i nano
    rw [if_pos nano] at beyond
    rw [if_pos beyond]
    exact ⟨_, rfl⟩
  · rename_i micro
    rw [if_neg micro] at beyond
    rw [if_pos (by omega)]
    exact ⟨_, rfl⟩

/-- The reader finds a complete record behind `front`, up to its timestamp. -/
theorem readRecord_behind (complete : Complete format snaplen record)
    (original : record.length - 16 ≤ format.readU32 record 12) (front rest : Bytes)
    (room : (front ++ (record ++ rest)).length ≤ usizeMax)
    : readRecord format linktype snaplen (front ++ (record ++ rest)) front.length
      = (recordNanos format (front.length + record.length) (format.readU32 record 4)).map
          fun nanos =>
            (parseLinkPacket (record.drop 16) linktype linktype.headerLen
              ((Timestamp.fromTimestamp (format.readU32 record 0) nanos).getD .epoch)
              (format.readU32 record 12),
              front.length + record.length) := by
  have long := complete.header
  have seconds :=
    format.readU32_append (Nat.lt_of_lt_of_le (by decide : 0 + 3 < 16) long) front rest
  have ends : front.length + 16 + (record.length - 16) = front.length + record.length := by omega
  have total : (front ++ (record ++ rest)).length = front.length + record.length + rest.length := by
    simp
    omega
  have data
      : ((front ++ (record ++ rest)).take (front.length + record.length)).drop (front.length + 16)
        = record.drop 16 := by
    rw [← append_assoc, take_left' length_append, ← drop_drop, drop_left]
  rw [Nat.add_zero] at seconds
  rw [readRecord, seconds, format.readU32_append (by omega), format.readU32_append (by omega),
    format.readU32_append (by omega), complete.captured, readRecordData,
    checkedAdd_of_le (by omega)]
  simp only
  rw [if_neg (Nat.not_lt.mpr complete.limited), if_neg (Nat.not_lt.mpr original),
    if_neg (by omega), ends, data]

theorem readRecord_acceptable (acceptable : Acceptable format snaplen record) (front rest : Bytes)
    (room : (front ++ (record ++ rest)).length ≤ usizeMax)
    : readRecord format linktype snaplen (front ++ (record ++ rest)) front.length
      = .ok (decodeRecord format linktype record, front.length + record.length) := by
  rw [readRecord_behind acceptable.toComplete acceptable.original front rest room,
    recordNanos_of_lt acceptable.fraction]
  rfl

theorem recordLoop_end (buf : Bytes) (left : Nat) (packets : List Packet)
    : recordLoop format linktype snaplen buf left buf.length packets = .ok packets := by
  have finished : ¬ buf.length + 16 ≤ buf.length := by omega
  have complete : finishRecords buf buf.length packets = .ok packets := by
    rw [finishRecords, if_neg (not_not.mpr rfl)]
  cases left with
  | zero | succ left => rw [recordLoop, if_neg finished, complete]

/-- The record loop decodes the records one after the other.
Witness: induction on the records, with those already read in front.
-/
theorem recordLoop_records {records : List Bytes}
    (acceptable : ∀ record ∈ records, Acceptable format snaplen record) {left : Nat}
    (few : records.length ≤ left) (front : Bytes)
    (room : (front ++ records.flatten).length ≤ usizeMax) (earlier : List Packet)
    : recordLoop format linktype snaplen (front ++ records.flatten) left front.length earlier
      = .ok (earlier ++ records.filterMap (decodeRecord format linktype)) := by
  induction records generalizing left front earlier with
  | nil => rw [flatten_nil, append_nil, recordLoop_end, filterMap_nil, append_nil]
  | cons record records ih =>
    obtain ⟨first, others⟩ := forall_mem_cons.mp acceptable
    rw [flatten_cons] at room ⊢
    have regroup : front ++ (record ++ records.flatten) = front ++ record ++ records.flatten := by
      rw [append_assoc]
    have more : front.length + 16 ≤ (front ++ (record ++ records.flatten)).length := by
      have long := first.header
      simp
      omega
    cases left with
    | zero => cases few
    | succ left =>
      rw [recordLoop, if_pos more, readRecord_acceptable first front _ room]
      simp only
      rw [← length_append, regroup,
        ih others (by simpa using few) (front ++ record) (by rwa [← regroup])]
      cases decoded : decodeRecord format linktype record with
      | none => simp [decoded]
      | some packet => simp [decoded]

/-- The records behind a valid header are read in the format that it selects. -/
theorem readFile_header (valid : ValidHeader format linktype snaplen header) (records : Bytes)
    (small : (header ++ records).length ≤ maxPcapReadBytes)
    : readFile (header ++ records)
      = recordLoop format linktype snaplen (header ++ records) maxPcapRecords 24 [] := by
  have length := valid.length
  have long : ¬ (header ++ records).length < 24 := by
    rw [length_append, length]
    omega
  have number (index : Nat) (inside : index + 3 < header.length)
      : format.readU32 (header ++ records) index = format.readU32 header index := by
    have found := format.readU32_append inside [] records
    rwa [nil_append, length_nil, Nat.zero_add] at found
  rw [readFile, if_neg (by omega), if_neg long, le32At_append_left (by omega), valid.magic]
  simp only
  rw [format.readU16_append (by omega), format.readU16_append (by omega), number 16 (by omega),
    number 20 (by omega), valid.versionMajor, valid.versionMinor, valid.declared, valid.linktype,
    if_neg (by decide), if_neg (Nat.not_lt.mpr valid.limited)]

theorem readFile_records {records : List Bytes}
    (valid : ValidHeader format linktype snaplen header)
    (acceptable : ∀ record ∈ records, Acceptable format snaplen record)
    (few : records.length ≤ 100000)
    (small : (header ++ records.flatten).length ≤ 512 * 1024 * 1024)
    : readFile (header ++ records.flatten)
      = .ok (records.filterMap (decodeRecord format linktype)) := by
  have room : (header ++ records.flatten).length ≤ usizeMax := by
    rw [usizeMax]
    omega
  rw [readFile_header valid records.flatten small, ← valid.length, maxPcapRecords,
    recordLoop_records acceptable few header room [], nil_append]

/-- A first record whose fraction reaches a second makes the reader refuse the file. -/
theorem readFile_refuses (valid : ValidHeader format linktype snaplen header)
    (complete : Complete format snaplen record)
    (original : record.length - 16 ≤ format.readU32 record 12)
    (beyond : 1000000000 ≤ format.nanosOf (format.readU32 record 4)) (rest : Bytes)
    (small : (header ++ (record ++ rest)).length ≤ maxPcapReadBytes)
    : ∃ error, readFile (header ++ (record ++ rest)) = .error error := by
  have room : (header ++ (record ++ rest)).length ≤ usizeMax := by
    rw [maxPcapReadBytes] at small
    rw [usizeMax]
    omega
  have more : header.length + 16 ≤ (header ++ (record ++ rest)).length := by
    have long := complete.header
    simp
    omega
  obtain ⟨error, refused⟩ := recordNanos_of_ge beyond (header.length + record.length)
  have found : readRecord format linktype snaplen _ _ = _ :=
    readRecord_behind complete original header rest room
  rw [refused] at found
  rw [readFile_header valid _ small, ← valid.length, maxPcapRecords, recordLoop, if_pos more, found]
  exact ⟨error, rfl⟩

end Reading

/-! What the reader accepts. -/

section Accepted

variable {format : PcapFormat} {linktype : LinkType} {snaplen : Nat} {buf : Bytes}
  (room : buf.length ≤ usizeMax)

include room

/-- What the reader takes for a record is acceptable. -/
theorem acceptable_of_readRecord {pos packet next} (header : pos + 16 ≤ buf.length)
    (read : readRecord format linktype snaplen buf pos = .ok (packet, next))
    : ∃ record, Acceptable format snaplen record ∧ packet = decodeRecord format linktype record
        ∧ next = pos + record.length ∧ buf.drop pos = record ++ buf.drop next := by
  have passed := read
  rw [readRecord] at passed
  revert passed
  fun_cases readRecordData with
  | case5 packetEnd sum small original inside =>
    intro passed
    have ends := checkedAdd_eq sum
    obtain ⟨front, tail, rfl, rfl⟩ : ∃ front tail, buf = front ++ tail ∧ pos = front.length :=
      ⟨_, _, (take_append_drop pos buf).symm, (length_take_of_le (by omega)).symm⟩
    rw [length_append] at inside
    obtain ⟨record, rest, rfl, length⟩
        : ∃ record rest, tail = record ++ rest
            ∧ record.length = 16 + format.readU32 (front ++ tail) (front.length + 8) :=
      ⟨_, _, (take_append_drop _ tail).symm, length_take_of_le (by omega)⟩
    have number {index} (within : index + 3 < 16) := format.readU32_append
      (show index + 3 < record.length by omega) front rest
    rw [number (by decide)] at length small original passed
    rw [number (by decide)] at original
    have fraction : format.nanosOf (format.readU32 record 4) < 1000000000 := by
      by_contra beyond
      obtain ⟨_, refused⟩ := recordNanos_of_ge (Nat.not_lt.mp beyond) packetEnd
      rw [number (by decide), refused] at passed
      cases passed
    have acceptable : Acceptable format snaplen record :=
      ⟨⟨by omega, by omega, by omega⟩, by omega, fraction⟩
    rw [readRecord_acceptable acceptable front rest room] at read
    cases read
    exact ⟨record, acceptable, rfl, rfl, by rw [drop_left, ← drop_drop, drop_left, drop_left]⟩
  | _ => nofun

/-- Whatever the record loop reads to the end is acceptable records, one after the other. -/
theorem records_of_recordLoop {left pos earlier packets}
    (read : recordLoop format linktype snaplen buf left pos earlier = .ok packets)
    : ∃ records : List Bytes, buf.drop pos = records.flatten
        ∧ (∀ record ∈ records, Acceptable format snaplen record) ∧ records.length ≤ left
        ∧ packets = earlier ++ records.filterMap (decodeRecord format linktype) := by
  fun_induction recordLoop format linktype snaplen buf left pos earlier with
  | case1 | case3 => cases read
  | case2 | case5 =>
    rw [finishRecords] at read
    split at read
    · cases read
    · next whole =>
      cases read
      exact ⟨[], by simp [not_not.mp whole], forall_mem_nil _, Nat.zero_le _, by simp⟩
  | case4 left pos earlier header packet next found ih =>
    obtain ⟨record, acceptable, rfl, -, cut⟩ := acceptable_of_readRecord room header found
    obtain ⟨records, behind, others, few, rfl⟩ := ih read
    refine ⟨record :: records, by rw [cut, behind, flatten_cons],
      forall_mem_cons.mpr ⟨acceptable, others⟩, Nat.succ_le_succ few, ?_⟩
    cases decoded : decodeRecord format linktype record <;> simp [decoded]

end Accepted

/-- The reader accepts exactly the files of a header and acceptable records within its limits, and
returns the packets of those records that can be decoded.
-/
theorem readFile_ok_iff {buf packets}
    : readFile buf = .ok packets
      ↔ buf.length ≤ maxPcapReadBytes ∧ ∃ format linktype snaplen header, ∃ records : List Bytes,
          ValidHeader format linktype snaplen header
          ∧ (∀ record ∈ records, Acceptable format snaplen record)
          ∧ records.length ≤ maxPcapRecords ∧ buf = header ++ records.flatten
          ∧ packets = records.filterMap (decodeRecord format linktype) := by
  constructor
  · fun_cases readFile buf with
    | case7 small long format magic major minor version snaplen limited linktype known =>
      intro read
      have room : buf.length ≤ usizeMax := by
        rw [maxPcapReadBytes] at small
        rw [usizeMax]
        omega
      obtain ⟨records, behind, acceptable, few, rfl⟩ := records_of_recordLoop room read
      obtain ⟨header, tail, rfl, length⟩ : ∃ header tail,
          buf = header ++ tail ∧ header.length = 24 :=
        ⟨_, _, (take_append_drop 24 buf).symm, length_take_of_le (Nat.not_lt.mp long)⟩
      have number {index} (inside : index + 3 < 24)
          : format.readU32 (header ++ tail) index = format.readU32 header index := by
        simpa using format.readU32_append (length ▸ inside) [] tail
      rw [not_or, not_not, not_not] at version
      rw [le32At_append_left (by omega)] at magic
      rw [number (by decide)] at known
      have valid : ValidHeader format linktype snaplen header :=
        ⟨length, magic, (format.readU16_append (by omega) _).symm.trans version.1,
          (format.readU16_append (by omega) _).symm.trans version.2, (number (by decide)).symm,
          Nat.not_lt.mp limited, known⟩
      rw [drop_left' length] at behind
      exact ⟨Nat.not_lt.mp small, format, linktype, snaplen, header, records, valid,
        acceptable, few, by rw [behind], rfl⟩
    | _ => nofun
  · rintro ⟨small, format, linktype, snaplen, header, records, valid, acceptable, few, rfl, rfl⟩
    exact readFile_records valid acceptable few small

/-- How `write_packet` returns: with success, with an error from before the first write, or
with the error of a write.
-/
inductive WriteOutcome where
  | done
  | refused (error : PcapError)
  | failed
  deriving DecidableEq, Repr

/-- `write_packet` to a file that takes `room` more bytes. The five `write_all` calls store
the record in order, up to the first byte that the file does not take.
-/
def PcapWriter.writePacketWithin (writer : PcapWriter) (room : Nat) (packet : Packet)
    : WriteOutcome × PcapWriter :=
  if !writer.enabled then (.done, writer)
  else
    match writer.file with
    | none => (.refused (.storage "PCAP writer is enabled but not open"), writer)
    | some file =>
      match encodeRecord packet with
      | .error error => (.refused error, writer)
      | .ok record =>
        (if record.length ≤ room then .done else .failed,
          { writer with file := some (file ++ record.take room) })

namespace PcapWriter

variable {writer : PcapWriter} {room : Nat} {packet : Packet}

/-- A packet is refused before anything is written; a failed write leaves a part of the
record behind.
-/
theorem writePacketWithin_error
    : match writer.writePacketWithin room packet with
      | (.done, _) => True
      | (.refused _, next) => next = writer
      | (.failed, next) =>
        ∃ file record, writer.file = some file ∧ encodeRecord packet = .ok record
          ∧ room < record.length
          ∧ next.file = some (file ++ record.take room) := by
  rw [writePacketWithin]
  by_cases disabled : (!writer.enabled) = true
  · rw [if_pos disabled]
    trivial
  rw [if_neg disabled]
  cases opened : writer.file with
  | none => rfl
  | some file =>
    cases encoded : encodeRecord packet with
    | error error => rfl
    | ok record =>
      by_cases fits : record.length ≤ room
      · simp only [if_pos fits]
      · simp only [if_neg fits]
        exact ⟨file, record, rfl, rfl, Nat.not_le.mp fits, rfl⟩

end PcapWriter

/-- Files in the byte order and with the timestamps that the writer uses. -/
def writerFormat : PcapFormat :=
  ⟨false, false⟩

theorem validHeader_globalHeader : ValidHeader writerFormat .raw 65535 PcapWriter.globalHeader where
  length := rfl
  magic := by decide
  versionMajor := by decide
  versionMinor := by decide
  declared := by decide
  limited := Nat.le_refl _
  linktype := by decide

/-- A file of acceptable records is read record by record. A packet that is refused leaves
the written file as it was, and one whose writing fails adds a part of its record.
Witness: the record loop advances by the length of each record, decoded or not; the writer
encodes before it writes.
-/
theorem readFile_keepsRecords {format : PcapFormat} {linktype : LinkType} {snaplen : Nat}
    {header : Bytes} {records : List Bytes} (valid : ValidHeader format linktype snaplen header)
    (acceptable : ∀ record ∈ records, Acceptable format snaplen record)
    (few : records.length ≤ 100000)
    (small : (header ++ records.flatten).length ≤ 512 * 1024 * 1024)
    (writer : PcapWriter) (room : Nat) (packet : Packet)
    : readFile (header ++ records.flatten) = .ok (records.filterMap (decodeRecord format linktype))
      ∧ match writer.writePacketWithin room packet with
        | (.done, _) => True
        | (.refused _, next) => next = writer
        | (.failed, next) =>
          ∃ file record, writer.file = some file ∧ PcapWriter.encodeRecord packet = .ok record
            ∧ room < record.length
            ∧ next.file = some (file ++ record.take room) :=
  ⟨readFile_records valid acceptable few small, PcapWriter.writePacketWithin_error⟩

/-- A datagram of two bytes. -/
def sampleDatagram : Bytes :=
  le32Bytes 1483228800 ++ le32Bytes 5 ++ le32Bytes 30 ++ le32Bytes 30
    ++ [0x45, 0, 0, 30, 0, 0, 0, 0, 64, 17, 0, 0, 10, 0, 0, 5, 192, 0, 2, 1,
      0x14, 0xe9, 0, 53, 0, 10, 0, 0, 7, 8]

/-- The beginning of an IPv4 header, and nothing of the rest. -/
def sampleFragment : Bytes :=
  le32Bytes 1483228801 ++ le32Bytes 6 ++ le32Bytes 3 ++ le32Bytes 30 ++ [0x45, 0, 0]

/-- The record between two datagrams cannot be decoded, and the datagrams are read. -/
theorem readFile_keepsRecords_mixed
    : readFile (PcapWriter.globalHeader
          ++ [sampleDatagram, sampleFragment, sampleDatagram].flatten)
        = .ok ([sampleDatagram, sampleFragment, sampleDatagram].filterMap
            (decodeRecord writerFormat .raw))
      ∧ (decodeRecord writerFormat .raw sampleDatagram).map (·.payload) = some [7, 8]
      ∧ (decodeRecord writerFormat .raw sampleFragment).isNone := by
  have datagram : Acceptable writerFormat 65535 sampleDatagram :=
    ⟨⟨by decide, by decide, by decide⟩, by decide, by decide⟩
  have fragment : Acceptable writerFormat 65535 sampleFragment :=
    ⟨⟨by decide, by decide, by decide⟩, by decide, by decide⟩
  have acceptable : ∀ record ∈ [sampleDatagram, sampleFragment, sampleDatagram],
      Acceptable writerFormat 65535 record := by
    simp [datagram, fragment]
  refine ⟨(readFile_keepsRecords validHeader_globalHeader acceptable (by decide) (by decide +kernel)
    PcapWriter.opened 0 (.new .epoch (.new (.v4 (.new 10 0 0 5)) (.v4 (.new 192 0 2 1)) 0 0 .igmp)
      .outbound [])).1, by decide +kernel, by decide +kernel⟩

/-- A complete record whose microseconds reach a million makes the reader refuse the file,
and a write that fails after four bytes leaves them in the file.
-/
theorem readFile_keepsRecords_fails
    : (∃ record error, Complete writerFormat 65535 record
        ∧ readFile (PcapWriter.globalHeader ++ [record].flatten) = .error error)
      ∧ ∃ packet, PcapWriter.opened.writePacketWithin 4 packet
          = (.failed, ⟨true, some (PcapWriter.globalHeader ++ [0, 0, 0, 0])⟩) := by
  have complete
      : Complete writerFormat 65535
          (le32Bytes 0 ++ le32Bytes 1000000 ++ le32Bytes 0 ++ le32Bytes 0) :=
    ⟨by decide, by decide, by decide⟩
  obtain ⟨error, refused⟩ :=
    readFile_refuses validHeader_globalHeader complete (by decide) (by decide) [] (by decide)
  refine ⟨⟨_, error, complete, refused⟩, ?_⟩
  exact ⟨.new .epoch (.new (.v6 (.ofGroups [0])) (.v6 (.ofGroups [0])) 0 0 .igmp) .outbound [], rfl⟩

end NetTrap.Pcap
