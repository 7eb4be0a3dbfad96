import NetTrap.Dns.Handler
import NetTrap.Library.Ber
import NetTrap.Library.DnsWire

/-! How a replay takes the question from a query. -/

namespace NetTrap.Replay

open Rust NetTrap.Core Dns Access Octets List Option

def dnsQtypeName (qtype : Nat) : Str :=
  match qtype with
  | 1 => ascii "A"
  | 2 => ascii "NS"
  | 5 => ascii "CNAME"
  | 6 => ascii "SOA"
  | 12 => ascii "PTR"
  | 15 => ascii "MX"
  | 16 => ascii "TXT"
  | 28 => ascii "AAAA"
  | 33 => ascii "SRV"
  | 255 => ascii "ANY"
  | other => numeral 10 other

/-- Two hexadecimal digits. -/
def hexByte (byte : UInt8) : Str :=
  [digitByte (byte.toNat / 16), digitByte (byte.toNat % 16)]

def safeDnsLabel (label : Bytes) : Str :=
  match fromUtf8 label with
  | some text => text
  | none => ascii "hex:" ++ label.flatMap hexByte

/-- The loop over the labels; `room` is how many may follow before there are more than 127. -/
def dnsLabelsLoop : (room : Nat) → Bytes → Option (List Str × Bytes)
  | _, [] => none
  | room, len :: rest =>
    if len = 0 then some ([], rest)
    else if len &&& 0xC0 ≠ 0 then none
    else if 63 < len.toNat then none
    else if rest.length < len.toNat then none
    else
      match room with
      | 0 => none
      | room + 1 =>
        (dnsLabelsLoop room (rest.drop len.toNat)).map fun (labels, behind) =>
          (safeDnsLabel (rest.take len.toNat) :: labels, behind)

def parseDnsQuestion (data : Bytes) : Option (Str × Str) :=
  if data.length < 12 then none
  else
    let flags := be16At data 2
    let ancount := be16At data 6
    let nscount := be16At data 8
    let arcount := be16At data 10
    if flags &&& 0x8000 ≠ 0 ∨ (flags >>> 11) &&& 0x0F > 2 ∨ ancount ≠ 0 ∨ nscount ≠ 0
        ∨ arcount ≠ 0 then none
    else
      let qdcount := be16At data 4
      if qdcount ≠ 1 then none
      else
        match dnsLabelsLoop 127 (data.drop 12) with
        | none => none
        | some (labels, behind) =>
          if behind.length < 4 then none
          else
            let qtype := be16At behind 0
            let name :=
              if labels.isEmpty then ascii "."
              else ((ascii ".").intercalate labels).map toAsciiLowercase
            some (name, dnsQtypeName qtype)

/-! A replay sees the question that the live handler saw. -/

/-- Letters, digits and hyphens. -/
def isHostByte (byte : UInt8) : Bool :=
  isAsciiAlphanumeric byte || byte == 45

def dotted (labels : List Bytes) : Str :=
  (ascii ".").intercalate labels

def lower (text : Str) : Str :=
  text.map toAsciiLowercase

/-- Labels with the prefix `xn--` are left out: the library shows them in Unicode. -/
def isHostLabel (label : Bytes) : Bool :=
  label.all isHostByte && !(ascii "xn--").isPrefixOf (lower label)

def HostLabels (labels : List Bytes) : Prop :=
  ∀ label ∈ labels, isHostLabel label = true

/-- The name of the question; the root is a dot. -/
def questionName (labels : List Bytes) : Str :=
  if labels.isEmpty then ascii "." else lower (dotted labels)

def typeMnemonics : List (Nat × String) :=
  [(1, "A"), (2, "NS"), (5, "CNAME"), (6, "SOA"), (12, "PTR"), (15, "MX"), (16, "TXT"),
    (28, "AAAA"), (33, "SRV"), (255, "ANY")]

def messageOf (query : DnsWire.Query) : Message :=
  {
    messageType := .query,
    opCode := query.opCode,
    queries := [{ name := ⟨query.labels, true⟩, queryType := query.queryType.toNat }],
    answers := [],
    authorities := [],
    additionals := []
  }

/-- What the handler relies on. Standard queries without extensions are decoded as they were
written; others keep the kind of query if they are decoded at all. Names of letters, digits and
hyphens, none of them internationalised, are written with dots and read back, where the case of
letters may change. -/
structure Standard (hickory : Hickory) : Prop where
  decodes (query : DnsWire.Query)
    : query.opCode = 0 → query.edns = none
      → hickory.messageFromVec query.encode = some (messageOf query)
  keepsOpCode (query : DnsWire.Query) (message : Message)
    : hickory.messageFromVec query.encode = some message → message.opCode = query.opCode
  writes (name : Name)
    : HostLabels name.labels
      → hickory.nameToUtf8 name = dotted name.labels ++ if name.isFqdn then ascii "." else []
  reads (labels : List Bytes)
    : labels ≠ [] → HostLabels labels → (∀ label ∈ labels, DnsWire.LabelSize label)
      → (DnsWire.encodeName labels).length ≤ 255
      → ∃ read, hickory.nameFromUtf8 (dotted labels) = some ⟨read, false⟩ ∧ HostLabels read
        ∧ read.map lower = labels.map lower
  mnemonics (entry : Nat × String)
    : entry ∈ typeMnemonics → hickory.recordTypeToString entry.1 = ascii entry.2

section Names

variable {labels : List Bytes}

/-- The letters, digits and the hyphen are ASCII, and no dots. -/
theorem isHostByte_plain (byte : UInt8) : isHostByte byte = true → byte < 0x80 ∧ byte ≠ 46 := by
  revert byte
  exact Ber.forall_byte (by decide +kernel)

theorem isHostByte_of_mem {label : Bytes} (host : isHostLabel label = true) {byte : UInt8}
    (member : byte ∈ label)
    : isHostByte byte = true :=
  all_eq_true.mp (Bool.and_eq_true_iff.mp host).1 byte member

theorem ascii_dot : ascii "." = [46] :=
  rfl

@[simp]
theorem dotted_singleton (label : Bytes) : dotted [label] = label :=
  intercalate_singleton

theorem dotted_cons_cons (label next : Bytes) (labels : List Bytes)
    : dotted (label :: next :: labels) = label ++ ascii "." ++ dotted (next :: labels) :=
  intercalate_cons_cons

theorem HostLabels.plain (host : HostLabels labels) {byte : UInt8} (member : byte ∈ dotted labels)
    : byte < 0x80 := by
  induction labels with
  | nil => cases member
  | cons label labels ih =>
    obtain ⟨first, others⟩ := forall_mem_cons.mp host
    cases labels with
    | nil =>
      rw [dotted_singleton] at member
      exact (isHostByte_plain byte (isHostByte_of_mem first member)).1
    | cons next labels =>
      rw [dotted_cons_cons, mem_append, mem_append] at member
      rcases member with (inside | dot) | later
      · exact (isHostByte_plain byte (isHostByte_of_mem first inside)).1
      · rw [mem_singleton.mp dot]
        decide
      · exact ih others later

theorem lower_dotted (labels : List Bytes) : lower (dotted labels) = dotted (labels.map lower) := by
  induction labels with
  | nil => rfl
  | cons label labels ih =>
    cases labels with
    | nil => rw [dotted_singleton, map_singleton, dotted_singleton]
    | cons next labels =>
      have dot : lower (ascii ".") = ascii "." := by decide
      rw [map_cons] at ih
      rw [dotted_cons_cons, map_cons, map_cons, dotted_cons_cons, ← ih, lower,
        map_append, map_append]
      change lower label ++ lower (ascii ".") ++ lower (dotted (next :: labels)) = _
      rw [dot]

/-- The last byte of a name is no dot. -/
theorem HostLabels.getLast?_dotted (host : HostLabels labels) (nonempty : labels ≠ [])
    (filled : ∀ label ∈ labels, label ≠ [])
    : ∃ last, (dotted labels).getLast? = some last ∧ last ≠ 46 := by
  induction labels with
  | nil => exact absurd rfl nonempty
  | cons label labels ih =>
    obtain ⟨first, others⟩ := forall_mem_cons.mp host
    obtain ⟨here, filled⟩ := forall_mem_cons.mp filled
    cases labels with
    | nil =>
      rw [dotted_singleton]
      have member := getLast_mem here
      exact ⟨_, getLast?_eq_some_getLast here,
        (isHostByte_plain _ (isHostByte_of_mem first member)).2⟩
    | cons next labels =>
      obtain ⟨last, ends, other⟩ := ih others (by simp) filled
      refine ⟨last, ?_, other⟩
      rw [dotted_cons_cons, getLast?_append, ends]
      rfl

/-- Names that differ in case have the same shape. -/
theorem filled_of_map_lower {read : List Bytes} (same : read.map lower = labels.map lower)
    (filled : ∀ label ∈ labels, label ≠ [])
    : ∀ label ∈ read, label ≠ [] := by
  intro label member
  have lowered : lower label ∈ labels.map lower := same ▸ mem_map_of_mem member
  obtain ⟨written, inside, equal⟩ := mem_map.mp lowered
  rintro rfl
  exact filled written inside (map_eq_nil_iff.mp equal)

end Names

section Labels

/-- Both tests of a length leave what fits into six bits. -/
theorem sixBits (len : UInt8) : len &&& 0xC0 = 0 ↔ ¬ 63 < len.toNat := by
  revert len
  exact Ber.forall_byte (by decide +kernel)

/-- Witness: induction on the room; the budget of the general reader counts the end as well. -/
theorem dnsLabelsLoop_eq (room : Nat) (data : Bytes)
    : dnsLabelsLoop room data = (DnsWire.readName (room + 1) data).map fun (labels, behind) =>
          (labels.map safeDnsLabel, behind) := by
  induction room generalizing data with
  | zero =>
    cases data with
    | nil => rfl
    | cons len rest =>
      rw [dnsLabelsLoop, DnsWire.readName]
      split_ifs <;> simp_all [DnsWire.readName, sixBits]
  | succ room ih =>
    cases data with
    | nil => rfl
    | cons len rest =>
      rw [dnsLabelsLoop, DnsWire.readName, ih]
      by_cases stops : len = 0
      · rw [if_pos stops, if_pos stops]
        rfl
      rw [if_neg stops, if_neg stops]
      by_cases wide : 63 < len.toNat
      · rw [if_pos (mt (sixBits len).mp (not_not_intro wide)), if_pos (.inl wide)]
        rfl
      rw [if_neg (not_not_intro ((sixBits len).mpr wide)), if_neg wide]
      by_cases cut : rest.length < len.toNat
      · rw [if_pos cut, if_pos (.inr cut)]
        rfl
      rw [if_neg cut, if_neg (not_or.mpr ⟨wide, cut⟩), Option.map_map, Option.map_map]
      rfl

/-- Where the general reader finds a name, the handler finds its end. -/
theorem dnsNameEnd_of_readName {budget data behind labels}
    (read : DnsWire.readName budget data = some (labels, behind))
    : dnsNameEnd budget data = some behind := by
  induction budget generalizing data labels with
  | zero => cases read
  | succ budget ih =>
    cases data with
    | nil => cases read
    | cons len rest =>
      rw [DnsWire.readName] at read
      rw [dnsNameEnd]
      by_cases stops : len = 0
      · rw [if_pos stops] at read ⊢
        cases read
        rfl
      rw [if_neg stops] at read ⊢
      by_cases refused : 63 < len.toNat ∨ rest.length < len.toNat
      · rw [if_pos refused] at read
        cases read
      rw [if_neg refused, map_eq_some_iff] at read
      obtain ⟨⟨later, _⟩, found, same⟩ := read
      cases same
      have low : len &&& 0xC0 = 0 := (sixBits len).mpr (not_or.mp refused).1
      rw [low, if_neg (by decide), if_neg (not_not_intro rfl), if_neg (not_or.mp refused).2]
      exact ih found

theorem safeDnsLabel_of_host {label : Bytes} (host : isHostLabel label = true)
    : safeDnsLabel label = label := by
  have decoded : fromUtf8 label = some label :=
    fromUtf8_ascii fun byte member => (isHostByte_plain byte (isHostByte_of_mem host member)).1
  rw [safeDnsLabel, decoded]

end Labels

section Queries

variable (query : DnsWire.Query)

theorem drop_encode : query.encode.drop 12 = query.question ++ query.additional :=
  rfl

theorem twelve_le_length : 12 ≤ query.encode.length := by
  rw [DnsWire.Query.encode, length_append, DnsWire.Query.length_header]
  omega

theorem flags_encode : be16At query.encode 2 = query.flagsHigh.toNat * 256 + query.flagsLow.toNat :=
  rfl

/-- The counts of the sections. -/
theorem counts_encode
    : be16At query.encode 4 = 1 ∧ be16At query.encode 6 = 0 ∧ be16At query.encode 8 = 0
      ∧ be16At query.encode 10 = if query.edns.isSome then 1 else 0 := by
  have none : (0 : UInt8).toNat * 256 + (0 : UInt8).toNat = 0 := by decide
  have one : (0 : UInt8).toNat * 256 + (1 : UInt8).toNat = 1 := by decide
  refine ⟨one, none, none, ?_⟩
  have last : be16At query.encode 10
      = (0 : UInt8).toNat * 256 + (if query.edns.isSome then 1 else 0 : UInt8).toNat := rfl
  rw [last]
  split
  · exact one
  · exact none

theorem be16At_behind (behind : Bytes)
    : be16At (be16Bytes query.queryType.toNat ++ behind) 0 = query.queryType.toNat :=
  be16At_be16Bytes (by simpa using query.queryType.toNat_lt) _

theorem parseDnsQuestion_edns {record} (present : query.edns = some record)
    : parseDnsQuestion query.encode = none := by
  obtain ⟨_, _, _, additional⟩ := counts_encode query
  rw [present, isSome_some, if_pos rfl] at additional
  have refused : be16At query.encode 10 ≠ 0 := by
    rw [additional]
    decide
  rw [parseDnsQuestion]
  split
  · rfl
  · dsimp only
    rw [if_pos (.inr (.inr (.inr (.inr refused))))]

/-- The bits of a standard query. -/
theorem flags_standard (standard : query.opCode = 0)
    : be16At query.encode 2 &&& 0x8000 = 0 ∧ be16At query.encode 2 >>> 11 &&& 0x0F = 0 := by
  have low := query.flagsLow.toNat_lt
  have small : be16At query.encode 2 < 2 ^ 11 := by
    rw [DnsWire.Query.opCode] at standard
    rw [flags_encode]
    omega
  constructor
  · have clear : (be16At query.encode 2).testBit 15 = false :=
      Nat.testBit_lt_two_pow (small.trans (by decide))
    rw [show 0x8000 = 2 ^ 15 from rfl, Nat.and_two_pow, clear]
    rfl
  · rw [Nat.shiftRight_eq_div_pow, Nat.div_eq_of_lt small]
    rfl

theorem parseDnsQuestion_encode (standard : query.opCode = 0) (absent : query.edns = none)
    (host : HostLabels query.labels)
    : parseDnsQuestion query.encode
      = some (questionName query.labels, dnsQtypeName query.queryType.toNat) := by
  obtain ⟨questions, answers, authorities, additional⟩ := counts_encode query
  rw [absent, isSome_none, if_neg (by decide)] at additional
  obtain ⟨response, kind⟩ := flags_standard query standard
  have few : query.labels.length < 128 := Nat.lt_succ_of_le query.length_labels_le
  have shown : query.labels.map safeDnsLabel = query.labels :=
    (map_congr_left fun label member => safeDnsLabel_of_host (host label member)).trans (map_id' _)
  have read : dnsLabelsLoop 127 (query.encode.drop 12)
      = some (query.labels, be16Bytes query.queryType.toNat
          ++ (be16Bytes query.queryClass.toNat ++ query.additional)) := by
    rw [dnsLabelsLoop_eq, drop_encode, query.readName_question few, map_some]
    dsimp only
    rw [shown]
  rw [parseDnsQuestion, if_neg (Nat.not_lt.mpr (twelve_le_length query))]
  have unflagged : ¬ (be16At query.encode 2 &&& 0x8000 ≠ 0
      ∨ be16At query.encode 2 >>> 11 &&& 0x0F > 2
      ∨ be16At query.encode 6 ≠ 0 ∨ be16At query.encode 8 ≠ 0 ∨ be16At query.encode 10 ≠ 0) := by
    rw [response, kind, answers, authorities, additional]
    decide
  dsimp only
  rw [if_neg unflagged, if_neg (not_not_intro questions), read]
  dsimp only
  rw [if_neg (by simp; omega), be16At_behind]
  rfl

/-- The only record that may follow is the one for extensions. -/
theorem hasOnlyEdnsAdditional_encode
    : hasOnlyEdnsAdditional query.encode (be16At query.encode 10) = true := by
  obtain ⟨_, _, _, additional⟩ := counts_encode query
  rw [hasOnlyEdnsAdditional, additional]
  cases present : query.edns with
  | none => rfl
  | some record =>
    have nameEnd := dnsNameEnd_of_readName (query.readName_question query.length_labels_lt)
    have written : query.additional = [0, 0, 41] ++ (record.fixed
        ++ (be16Bytes record.data.length ++ record.data)) := by
      rw [DnsWire.Query.additional, present]
      rfl
    obtain ⟨budget, positive⟩ := Nat.exists_eq_add_of_lt query.length_labels_lt
    rw [isSome_some, if_pos rfl, if_neg (by decide), drop_encode, nameEnd]
    have skipped : (be16Bytes query.queryType.toNat
        ++ (be16Bytes query.queryClass.toNat ++ query.additional)).drop 4 = query.additional := rfl
    dsimp only
    rw [skipped, positive, written, cons_append, dnsNameEnd, if_pos rfl]
    dsimp only
    rw [getRange, if_pos (by simp)]
    simp [dnsRecordTypeOpt, be16At, byteAt]

theorem safeMessageFromVec_encode (hickory : Hickory)
    : safeMessageFromVec hickory query.encode = hickory.messageFromVec query.encode := by
  obtain ⟨questions, answers, authorities, additional⟩ := counts_encode query
  have counts : dnsSectionCounts query.encode = some [1, 0, 0, be16At query.encode 10] := by
    rw [dnsSectionCounts, getRange, if_pos ⟨by decide, twelve_le_length query⟩]
    change some [be16At query.encode 4, be16At query.encode 6, be16At query.encode 8,
      be16At query.encode 10] = _
    rw [questions, answers, authorities]
  have few : be16At query.encode 10 ≤ maxDnsQueryAdditionals := by
    rw [additional]
    split <;> decide
  rw [safeMessageFromVec, counts]
  dsimp only
  rw [hasOnlyEdnsAdditional_encode, if_neg (by simp [few])]

variable {hickory : Hickory} (standardLibrary : Standard hickory)

include standardLibrary

theorem normalizeDnsQueryDomain_encode (host : HostLabels query.labels)
    : normalizeDnsQueryDomain hickory (hickory.nameToUtf8 ⟨query.labels, true⟩)
      = some (questionName query.labels) := by
  have filled : ∀ label ∈ query.labels, label ≠ [] :=
    fun label member => ne_nil_of_length_pos (query.labelSizes label member).1
  rw [standardLibrary.writes _ host, if_pos rfl, normalizeDnsQueryDomain, stripSuffix,
    if_pos (by rw [ascii_dot, getLast?_concat]), ascii_dot, dropLast_concat]
  dsimp only
  by_cases root : query.labels = []
  · rw [root]
    rfl
  · obtain ⟨last, ends, other⟩ := host.getLast?_dotted root filled
    obtain ⟨read, named, readHost, same⟩ :=
      standardLibrary.reads query.labels root host query.labelSizes query.nameSize
    have readSome : read ≠ [] := by
      rintro rfl
      exact root (map_eq_nil_iff.mp same.symm)
    obtain ⟨readLast, readEnds, readOther⟩ :=
      readHost.getLast?_dotted readSome (filled_of_map_lower same filled)
    have nonempty : dotted query.labels ≠ [] := by
      intro empty
      rw [empty] at ends
      cases ends
    rw [if_neg (by simpa using nonempty), ends, if_neg (by simpa using other),
      containsUnicodeLineSeparator_ascii fun _ => host.plain, named, map_some,
      standardLibrary.writes _ readHost, if_neg (by simp), if_neg (by simp), append_nil,
      trimEndMatches_of_getLast? (by simpa [readEnds] using readOther), questionName,
      if_neg (by simpa using root)]
    change some (lower (dotted read)) = _
    rw [lower_dotted, same, ← lower_dotted]

theorem parseQuerySummary_encode (standard : query.opCode = 0) (absent : query.edns = none)
    (host : HostLabels query.labels) {mnemonic : String}
    (named : (query.queryType.toNat, mnemonic) ∈ typeMnemonics)
    : parseQuerySummary hickory query.encode
      = some (questionName query.labels, ascii mnemonic) := by
  have decoded : safeMessageFromVec hickory query.encode = some (messageOf query) :=
    (safeMessageFromVec_encode query hickory).trans (standardLibrary.decodes query standard absent)
  have domain := normalizeDnsQueryDomain_encode query standardLibrary host
  have typeName := standardLibrary.mnemonics _ named
  rw [parseQuerySummary, decoded]
  simp [messageOf, standard, domain, typeName]

/-- Other kinds of queries are not for the handler. -/
theorem parseQuerySummary_other (other : query.opCode ≠ 0)
    : parseQuerySummary hickory query.encode = none := by
  rw [parseQuerySummary, safeMessageFromVec_encode]
  cases decoded : hickory.messageFromVec query.encode with
  | none => rfl
  | some message =>
    have kept := standardLibrary.keepsOpCode query message decoded
    simp [kept, other]

omit standardLibrary in
theorem dnsQtypeName_of_mem {entry} (named : entry ∈ typeMnemonics)
    : dnsQtypeName entry.1 = ascii entry.2 := by
  have all : ∀ entry ∈ typeMnemonics, dnsQtypeName entry.1 = ascii entry.2 := by decide
  exact all entry named

end Queries

section Reference

/-- A library for queries with one question. -/
def referenceLibrary : Hickory where
  messageFromVec data := do
    let (labels, behind) ← DnsWire.readName 128 (data.drop 12)
    some {
      messageType := if byteAt data 2 < 0x80 then .query else .response,
      opCode := (byteAt data 2).toNat / 8 % 16,
      queries := [{ name := ⟨labels, true⟩, queryType := be16At behind 0 }],
      answers := [],
      authorities := [],
      additionals := []
    }
  nameFromUtf8 text := some ⟨text.splitOn 46, false⟩
  nameToUtf8 name := dotted name.labels ++ if name.isFqdn then ascii "." else []
  recordTypeToString := dnsQtypeName

theorem referenceLibrary_decodes (query : DnsWire.Query)
    : referenceLibrary.messageFromVec query.encode = some (messageOf query) := by
  have few : query.labels.length < 128 := Nat.lt_succ_of_le query.length_labels_le
  have high : byteAt query.encode 2 = query.flagsHigh := rfl
  have asked : query.flagsHigh < 0x80 := UInt8.lt_iff_toNat_lt.mpr query.isQuery
  have kind : query.flagsHigh.toNat / 8 % 16 = query.opCode := by
    have bound := query.isQuery
    rw [DnsWire.Query.opCode]
    omega
  simp only [referenceLibrary, drop_encode, query.readName_question few, high, if_pos asked, kind,
    be16At_behind, bind_eq_bind, bind_some]
  rfl

/-- Witness: dots stand between labels only, so splitting at them finds the labels. -/
theorem standard_referenceLibrary : Standard referenceLibrary where
  decodes query _ _ := referenceLibrary_decodes query
  keepsOpCode query message decoded := by
    rw [referenceLibrary_decodes] at decoded
    exact (congrArg Message.opCode (Option.some.inj decoded)).symm
  writes _ _ := rfl
  reads labels nonempty host _ _ := by
    refine ⟨labels, ?_, host, rfl⟩
    have undotted : ∀ label ∈ labels, 46 ∉ label := fun label member dot =>
      (isHostByte_plain 46 (isHostByte_of_mem (host label member) dot)).2 rfl
    exact congrArg (fun read => some (Name.mk read false))
      (splitOn_intercalate 46 undotted nonempty)
  mnemonics _ named := dnsQtypeName_of_mem named

/-- A query for the address of `a.B`. -/
def smallQuery (edns : Option DnsWire.Edns) : DnsWire.Query where
  id := 0x1234
  flagsHigh := 1
  flagsLow := 0
  labels := [ascii "a", ascii "B"]
  queryType := 1
  queryClass := 1
  edns
  isQuery := by decide
  labelSizes := by decide
  nameSize := by decide

/-- The record of a client that takes answers of 1232 bytes. -/
def smallEdns : DnsWire.Edns where
  payload := 1232
  rcodeHigh := 0
  version := 0
  flags := 0
  options := []
  optionSize := by decide
  size := by decide

theorem hostLabels_smallQuery (edns : Option DnsWire.Edns)
    : HostLabels (smallQuery edns).labels := by
  intro label member
  change label ∈ [ascii "a", ascii "B"] at member
  revert label
  decide +kernel

end Reference

end NetTrap.Replay
