import NetTrap.Nbi.Fingerprint
import NetTrap.Storage.Database

/-! The two copies of an event, in JSON and in the database, compared after a reload.
A reload writes protocol and addresses in one form. The database hashes a legacy identifier
before that and the JSON copy after it, and the database alone gives an event from an IPv6
source an IPv6 destination.
-/

namespace NetTrap.Storage

open Rust Net Nbi NetworkBehaviorIndicator List

/-! Legacy identifiers. -/

theorem mem_hexadecimal16 {number char} (member : char ∈ hexadecimal16 number)
    : ∃ digit < 16, char = Nat.digitChar digit := by
  obtain ⟨place, -, rfl⟩ := mem_map.mp member
  exact ⟨_, Nat.mod_lt _ (by decide), rfl⟩

theorem digitChar_plain : ∀ digit < 16,
    isWhitespace (Nat.digitChar digit).toNat = false ∧ isUnsafe (Nat.digitChar digit) = false
      ∧ Nat.digitChar digit ≠ '-' := by
  decide +kernel

variable (fingerprint : Text)

theorem legacyEventId_eq_append
    : ∃ digits : Text, digits.length = 16
        ∧ (∀ char ∈ digits, isWhitespace char.toNat = false ∧ isUnsafe char = false ∧ char ≠ '-')
        ∧ legacyEventIdFromFingerprint fingerprint = .lit "legacy-" ++ digits := by
  refine ⟨hexadecimal16 (fnv1a fingerprint.utf8), by simp [hexadecimal16], ?_, rfl⟩
  intro char member
  obtain ⟨digit, small, rfl⟩ := mem_hexadecimal16 member
  exact digitChar_plain digit small

theorem legacyEventId_validName : ValidName (legacyEventIdFromFingerprint fingerprint) := by
  obtain ⟨digits, length, plain, written⟩ := legacyEventId_eq_append fingerprint
  have unpadded : (legacyEventIdFromFingerprint fingerprint).trim
      = legacyEventIdFromFingerprint fingerprint := by
    refine Text.trimMatches_eq_self.mpr ⟨?_, ?_⟩
    · rw [written]
      rintro char ⟨⟩
      rfl
    · intro char member
      have nonempty : digits ≠ [] := by
        rintro rfl
        cases length
      rw [written, getLast?_append_of_ne_nil _ nonempty] at member
      exact (plain char (mem_of_getLast? member)).1
  refine ⟨⟨?_, ?_⟩, ?_, unpadded⟩
  · rw [written, length_append, length]
    decide
  · rw [written]
    intro char member
    rcases mem_append.mp member with front | digit
    · have word : ∀ char ∈ Text.lit "legacy-", isUnsafe char = false := by
        simp [Text.lit]
        decide
      exact word char front
    · exact (plain char digit).2.1
  · rw [unpadded, written]
    exact append_ne_nil_of_left_ne_nil (by decide) _

/-- A hashed identifier is not hashed again: there is no dash behind two digits. -/
theorem shouldNormalize_legacyEventId
    : shouldNormalizeLegacyEventId (legacyEventIdFromFingerprint fingerprint) = false := by
  obtain ⟨digits, length, plain, written⟩ := legacyEventId_eq_append fingerprint
  have valid := legacyEventId_validName fingerprint
  rw [shouldNormalizeLegacyEventId, valid.trimMatches isWhitespace_of_blank]
  match digits, length with
  | first :: second :: third :: rest, _ =>
    have third_ne := (plain third (by simp)).2.2
    have noMark : legacyDbMark.isPrefixOf (legacyEventIdFromFingerprint fingerprint) = false := by
      rw [written]
      simp [legacyDbMark, Text.lit, isPrefixOf, Ne.symm third_ne]
    simp [noMark, valid.ne_nil]

/-! Insertion. -/

variable {ι : Type} {json : IndicatorsJson ι} {timestampError : Text → Option Text}
  {event : NetworkBehaviorIndicator} {id : Int}

theorem normalizedEventId_validName (valid : Valid timestampError event)
    : ValidName event.normalizedEventId := by
  rw [normalizedEventId]
  split
  · exact legacyEventId_validName _
  · exact valid.eventId

/-- What is hashed once stays: an event with a normalized identifier keeps it. -/
theorem normalizedEventId_of_normalized {other : NetworkBehaviorIndicator}
    (normalized : other.eventId = event.normalizedEventId)
    : other.normalizedEventId = event.normalizedEventId := by
  have settled : shouldNormalizeLegacyEventId event.normalizedEventId = false := by
    rw [normalizedEventId]
    split
    · exact shouldNormalize_legacyEventId _
    · next plain => exact Bool.not_eq_true _ ▸ plain
  rw [normalizedEventId, normalized, settled]
  rfl

/-- Whether the database has room for the process number: PostgreSQL stores 32 signed bits. -/
def DatabaseBackend.Holds : DatabaseBackend → Option UInt32 → Prop
  | .sqlite _, _ => True
  | .postgres _, processPid => ∀ pid ∈ processPid, pid.toNat < 2 ^ 31

def DatabaseBackend.nodeId : DatabaseBackend → Text
  | .sqlite nodeId => nodeId
  | .postgres nodeId => nodeId

theorem validateForInsertion_eq_ok (valid : Valid timestampError event)
    : validateForInsertion timestampError (normalizeLegacyNbiEventForValidation event)
      = .ok () := by
  have accepted := validateResourceBounds_eq_ok.mpr
    (show Valid timestampError { event with eventId := event.normalizedEventId } from
      { valid with eventId := normalizedEventId_validName valid })
  rw [validateForInsertion, normalizeLegacyNbiEventForValidation, accepted]
  rfl

/-- A valid event is stored with its normalized identifier, in both databases. -/
theorem insertEvent_eq_ok (backend : DatabaseBackend) (valid : Valid timestampError event)
    (holds : backend.Holds event.processPid)
    : backend.insertEvent json timestampError id event
      = .ok (row json id backend.nodeId { event with eventId := event.normalizedEventId }
          (event.processPid.map fun pid => (pid.toNat : Int))) := by
  cases backend with
  | sqlite nodeId =>
    rw [DatabaseBackend.insertEvent, validateForInsertion_eq_ok valid]
    rfl
  | postgres nodeId =>
    have again : normalizeLegacyNbiEventForValidation (normalizeLegacyNbiEventForValidation event)
        = normalizeLegacyNbiEventForValidation event := by
      rw [normalizeLegacyNbiEventForValidation, normalizeLegacyNbiEventForValidation,
        normalizedEventId_of_normalized rfl]
    have param : postgresProcessPidParam event.processPid
        = .ok (event.processPid.map fun pid => (pid.toNat : Int)) := by
      cases found : event.processPid with
      | none => rfl
      | some pid =>
        rw [postgresProcessPidParam, if_pos (holds pid found)]
        rfl
    rw [DatabaseBackend.insertEvent, validateForInsertion_eq_ok valid, postgresInsertEvent, again,
      validateForInsertion_eq_ok valid]
    simp only [normalizeLegacyNbiEventForValidation, param]
    rfl

/-! Reload. -/

/-- The event came from an IPv6 address and was sent to the unspecified IPv4 address. -/
def ipv6ToUnspecifiedIpv4 (event : NetworkBehaviorIndicator) : Bool :=
  match (parseIp event.srcIp).map canonicalizeIp, (parseIp event.dstIp).map canonicalizeIp with
  | some (.v6 _), some (.v4 dstIp) => dstIp.isUnspecified
  | _, _ => false

/-- The destination with which an event comes back from the database. -/
def databaseDestination (event : NetworkBehaviorIndicator) : Text :=
  if ipv6ToUnspecifiedIpv4 event then .lit "::" else canonicalizeNbiIp event.dstIp

variable {nodeId : Text}

theorem validatePort_toNat {field} (port : UInt16)
    : validatePort id nodeId field port.toNat = .ok port := by
  have small := port.toNat_lt
  rw [validatePort, if_pos ⟨by omega, by omega⟩, Int.toNat_natCast, UInt16.ofNat_toNat]

theorem validateProcessPid_toNat (pid : UInt32)
    : validateProcessPid id nodeId pid.toNat = .ok pid := by
  have small := pid.toNat_lt
  rw [validateProcessPid, if_pos ⟨by omega, by omega⟩, Int.toNat_natCast, UInt32.ofNat_toNat]

theorem mapM_validateProcessPid (processPid : Option UInt32)
    : (processPid.map fun pid => (pid.toNat : Int)).mapM (validateProcessPid id nodeId)
      = .ok processPid := by
  cases processPid with
  | none => rfl
  | some pid =>
    rw [Option.map_some, Option.mapM_some, validateProcessPid_toNat]
    rfl

theorem canonicalizeStoredEventIp_eq_ok {field value ip} (parsed : parseIp value = some ip)
    : canonicalizeStoredEventIp id nodeId field value = .ok (formatIp (canonicalizeIp ip)) := by
  rw [canonicalizeStoredEventIp, parsed]
  cases ip with
  | v4 addr => rfl
  | v6 addr =>
    simp only [canonicalizeIp]
    cases addr.toIpv4Mapped with
    | none => rfl
    | some mapped => rfl

/-- Only the unspecified IPv4 address is written as four zeroes. -/
theorem formatIp_eq_zeroes {ip} (canonical : ip.Canonical)
    : formatIp ip = .lit "0.0.0.0" ↔ ip = .v4 (.new 0 0 0 0) := by
  have zeroes : formatIp (.v4 (.new 0 0 0 0)) = .lit "0.0.0.0" := by decide +kernel
  rw [← zeroes]
  exact ⟨formatIp_inj canonical trivial, congrArg formatIp⟩

theorem formatIp_ipv6Unspecified : formatIp (.v6 ipv6Unspecified) = .lit "::" := by
  decide +kernel

theorem isUnspecified_iff (addr : Ipv4Addr) : addr.isUnspecified = true ↔ addr = .new 0 0 0 0 := by
  obtain ⟨octets, size⟩ := addr
  match octets, size with
  | [a, b, c, d], _ => simp [Ipv4Addr.isUnspecified, Ipv4Addr.new]

theorem canonicalizeStoredEventDestinationIp_eq_ok {src dst}
    (parsedSrc : parseIp event.srcIp = some src) (parsedDst : parseIp event.dstIp = some dst)
    : canonicalizeStoredEventDestinationIp id nodeId (formatIp (canonicalizeIp src)) event.dstIp
      = .ok (databaseDestination event) := by
  have srcCanonical := canonical_canonicalizeIp src
  have dstCanonical := canonical_canonicalizeIp dst
  rw [canonicalizeStoredEventDestinationIp, canonicalizeStoredEventIp_eq_ok parsedDst,
    databaseDestination, ipv6ToUnspecifiedIpv4, canonicalizeNbiIp, parsedSrc, parsedDst]
  simp only [Option.map_some, parseIp_formatIp srcCanonical]
  generalize canonicalizeIp src = src at srcCanonical ⊢
  generalize canonicalizeIp dst = dst at dstCanonical ⊢
  by_cases zeroes : dst = .v4 (.new 0 0 0 0)
  · subst zeroes
    have written : formatIp (.v4 (.new 0 0 0 0)) = .lit "0.0.0.0" :=
      (formatIp_eq_zeroes dstCanonical).mpr rfl
    cases src with
    | v4 addr => simp [written, bind, Except.bind, pure, Except.pure]
    | v6 addr =>
      simp [written, formatIp_ipv6Unspecified, bind, Except.bind, pure, Except.pure,
        isUnspecified_iff]
  · have other : formatIp dst ≠ .lit "0.0.0.0" := fun same =>
      zeroes ((formatIp_eq_zeroes dstCanonical).mp same)
    cases src with
    | v4 addr => simp [other, bind, Except.bind, pure, Except.pure]
    | v6 addr =>
      cases dst with
      | v4 dst =>
        have specified : dst.isUnspecified = false := by
          rw [← Bool.not_eq_true, isUnspecified_iff]
          exact fun same => zeroes (congrArg IpAddr.v4 same)
        simp [other, specified, bind, Except.bind, pure, Except.pure]
      | v6 dst => simp [other, bind, Except.bind, pure, Except.pure]

theorem trimAsciiEdges_eq_self {value} (valid : ValidName value)
    : trimAsciiEdges value = value := by
  apply valid.trimMatches
  intro char dropped
  simp only [Bool.or_eq_true, beq_iff_eq, or_assoc] at dropped
  rcases dropped with rfl | rfl | rfl | rfl | rfl <;> rfl

theorem databaseDestination_valid (valid : Valid timestampError event)
    : BoundedText (databaseDestination event) ∧ (parseIp (databaseDestination event)).isSome := by
  rw [databaseDestination]
  split
  · have unspecified : validateNbiIp "dst_ip" (.lit "::") = .ok () := by decide +kernel
    exact validateNbiIp_eq_ok.mp unspecified
  · exact valid_canonicalizeNbiIp valid.dstIp.2

/-- The event that a valid event comes back as from the database. -/
def fromDatabase (event : NetworkBehaviorIndicator) : NetworkBehaviorIndicator :=
  { event.reloaded with eventId := event.normalizedEventId, dstIp := databaseDestination event }

theorem tryInto_row (valid : Valid timestampError event)
    : (row json id nodeId { event with eventId := event.normalizedEventId }
          (event.processPid.map fun pid => (pid.toNat : Int))).tryIntoNetworkBehaviorIndicator
        json timestampError
      = .ok (fromDatabase event) := by
  obtain ⟨src, parsedSrc⟩ := Option.isSome_iff_exists.mp valid.srcIp.2
  obtain ⟨dst, parsedDst⟩ := Option.isSome_iff_exists.mp valid.dstIp.2
  have source : formatIp (canonicalizeIp src) = canonicalizeNbiIp event.srcIp := by
    rw [canonicalizeNbiIp, parsedSrc]
  have destination : canonicalizeStoredEventDestinationIp id nodeId
      (formatIp (canonicalizeIp src)) event.dstIp = .ok (databaseDestination event) :=
    canonicalizeStoredEventDestinationIp_eq_ok parsedSrc parsedDst
  have stays : (fromDatabase event).normalizedEventId = event.normalizedEventId :=
    normalizedEventId_of_normalized rfl
  have accepted : (fromDatabase event).validateResourceBounds timestampError = .ok () :=
    validateResourceBounds_eq_ok.mpr { valid.reloaded with
        eventId := normalizedEventId_validName valid
        dstIp := databaseDestination_valid valid }
  simp only [StoredEvent.tryIntoNetworkBehaviorIndicator, row]
  rw [validatePort_toNat, validatePort_toNat, mapM_validateProcessPid, json.fromStr_toJson,
    canonicalizeStoredEventIp_eq_ok parsedSrc]
  simp only [bind, Except.bind, Except.mapError]
  rw [destination, source, trimAsciiEdges_eq_self valid.listener,
    trimAsciiEdges_eq_self valid.protocol,
    normalizeOptionalProcessName_eq_self valid.processName]
  -- The identifier is set to what it is already.
  let renamed : NetworkBehaviorIndicator :=
    { fromDatabase event with eventId := (fromDatabase event).normalizedEventId }
  have same : renamed = fromDatabase event := by
    simp only [renamed, stays]
    rfl
  change (Except.mapError _ (renamed.validateResourceBounds timestampError)).bind
    (fun _ => .ok renamed) = _
  rw [same, accepted]
  rfl

/-! Agreement. -/

/-- The database changes a destination that it does not take for one of the source. -/
theorem databaseDestination_eq_iff
    : canonicalizeNbiIp event.dstIp = databaseDestination event
      ↔ ipv6ToUnspecifiedIpv4 event = false := by
  rw [databaseDestination]
  constructor
  · intro same
    rw [← Bool.not_eq_true]
    intro changed
    rw [if_pos changed, ← formatIp_ipv6Unspecified] at same
    rw [ipv6ToUnspecifiedIpv4] at changed
    split at changed
    · next addr dst _ parsedDst =>
      obtain ⟨ip, parsed, canonical⟩ := Option.map_eq_some_iff.mp parsedDst
      rw [canonicalizeNbiIp, parsed] at same
      simp only [canonical] at same
      have mapped : (IpAddr.v4 dst).Canonical := trivial
      have unmapped : (IpAddr.v6 ipv6Unspecified).Canonical :=
        show ipv6Unspecified.toIpv4Mapped = none by decide
      cases formatIp_inj mapped unmapped same
    · cases changed
  · intro kept
    rw [kept]
    rfl

theorem fingerprint_eq_iff (valid : Valid timestampError event)
    : event.reloaded.contentFingerprint = (fromDatabase event).contentFingerprint
      ↔ ipv6ToUnspecifiedIpv4 event = false := by
  have jsonNames : ∀ name ∈ event.reloaded.processName, name ≠ [] := valid.processName_ne_nil
  have rowNames : ∀ name ∈ (fromDatabase event).processName, name ≠ [] := valid.processName_ne_nil
  rw [contentFingerprint_eq_iff jsonNames rowNames, ← databaseDestination_eq_iff]
  constructor
  · intro same
    exact same.1.dstIp
  · intro destination
    exact ⟨⟨rfl, rfl, rfl, rfl, rfl, destination, rfl, rfl, rfl⟩, rfl, rfl⟩

/-- Protocol and addresses are written as a reload writes them. -/
def ReloadsUnchanged (event : NetworkBehaviorIndicator) : Prop :=
  event.protocol.toAsciiUppercase = event.protocol ∧ canonicalizeNbiIp event.srcIp = event.srcIp
    ∧ canonicalizeNbiIp event.dstIp = event.dstIp

theorem normalizedEventId_eq
    (unchanged : shouldNormalizeLegacyEventId event.eventId = true → ReloadsUnchanged event)
    : event.reloaded.normalizedEventId = event.normalizedEventId := by
  rw [normalizedEventId, normalizedEventId]
  change (if shouldNormalizeLegacyEventId event.eventId = true then _ else event.eventId) = _
  split
  · next legacy =>
    obtain ⟨protocol, srcIp, dstIp⟩ := unchanged legacy
    have same : event.reloaded = event := by
      rw [reloaded, protocol, srcIp, dstIp]
    rw [same]
  · rfl

/-- Both copies of a valid event can be reloaded. They have one fingerprint unless the
database changes the destination, and one identifier unless it is a legacy one that is hashed
over texts that a reload writes otherwise.
-/
theorem reloads_agree (backend : DatabaseBackend) (json : IndicatorsJson ι) (id : Int)
    (accepted : event.validateResourceBounds timestampError = .ok ())
    (holds : backend.Holds event.processPid)
    : ∃ fromJson stored fromRow, NetworkBehaviorIndicator.deserialize event.serialize = .ok fromJson
        ∧ backend.insertEvent json timestampError id event = .ok stored
        ∧ stored.tryIntoNetworkBehaviorIndicator json timestampError = .ok fromRow
        ∧ ((shouldNormalizeLegacyEventId event.eventId = true → ReloadsUnchanged event) →
            fromJson.normalizedEventId = fromRow.normalizedEventId)
        ∧ (fromJson.contentFingerprint = fromRow.contentFingerprint
            ↔ ipv6ToUnspecifiedIpv4 event = false) := by
  have valid := validateResourceBounds_eq_ok.mp accepted
  refine ⟨event.reloaded, _, fromDatabase event, deserialize_serialize valid,
    insertEvent_eq_ok backend valid holds, tryInto_row valid, ?_, fingerprint_eq_iff valid⟩
  intro unchanged
  have stays : (fromDatabase event).normalizedEventId = event.normalizedEventId :=
    normalizedEventId_of_normalized rfl
  rw [stays, normalizedEventId_eq unchanged]

section Samples

/-- JSON that keeps the indicators as they are. -/
def plainJson : IndicatorsJson Indicators :=
  ⟨fun indicators => indicators, .ok, fun _ => rfl⟩

def sampleStored (eventId protocol srcIp dstIp : String) : NetworkBehaviorIndicator :=
  ⟨.lit eventId, .lit "2026-01-01T00:00:00Z", .lit "dns", .lit protocol, .lit srcIp, 40000,
    .lit dstIp, 53, none, none, .empty⟩

/-- What the two reloads say about an event of an SQLite database. -/
def reloads (event : NetworkBehaviorIndicator)
    : Option ((Text × Text) × (Text × Text)) :=
  let described (event : NetworkBehaviorIndicator) :=
    (event.normalizedEventId, event.contentFingerprint)
  match NetworkBehaviorIndicator.deserialize event.serialize,
      (DatabaseBackend.sqlite []).insertEvent plainJson (fun _ => none) 1 event >>=
        (·.tryIntoNetworkBehaviorIndicator plainJson fun _ => none) with
  | .ok fromJson, .ok fromRow => some (described fromJson, described fromRow)
  | _, _ => none

theorem reloads_agree_legacy
    : ∃ fromJson stored fromRow, NetworkBehaviorIndicator.deserialize
            (sampleStored "legacy-db-7" "UDP" "10.0.0.2" "10.0.0.1").serialize = .ok fromJson
        ∧ (DatabaseBackend.postgres []).insertEvent plainJson (fun _ => none) 1
            (sampleStored "legacy-db-7" "UDP" "10.0.0.2" "10.0.0.1") = .ok stored
        ∧ stored.tryIntoNetworkBehaviorIndicator plainJson (fun _ => none) = .ok fromRow
        ∧ fromJson.normalizedEventId = fromRow.normalizedEventId
        ∧ fromJson.contentFingerprint = fromRow.contentFingerprint := by
  have accepted : (sampleStored "legacy-db-7" "UDP" "10.0.0.2" "10.0.0.1").validateResourceBounds
      (fun _ => none) = .ok () := by
    decide +kernel
  obtain ⟨fromJson, stored, fromRow, read, written, loaded, ids, fingerprints⟩ :=
    reloads_agree (.postgres []) plainJson 1 accepted (by rintro pid ⟨⟩)
  exact ⟨fromJson, stored, fromRow, read, written, loaded,
    ids fun _ => by rw [ReloadsUnchanged]; decide +kernel, fingerprints.mpr (by decide +kernel)⟩

/-- A legacy identifier over a lower-case protocol, and an event from an IPv6 source to the
unspecified IPv4 address.
-/
theorem reloads_disagree
    : (∀ event ∈ [sampleStored "legacy-db-7" "udp" "10.0.0.2" "10.0.0.1",
          sampleStored "event-1" "UDP" "2001:db8::1" "0.0.0.0"],
        event.validateResourceBounds (fun _ => none) = .ok ())
      ∧ (reloads (sampleStored "legacy-db-7" "udp" "10.0.0.2" "10.0.0.1")).map
          (fun copies => decide (copies.1.1 = copies.2.1)) = some false
      ∧ (reloads (sampleStored "event-1" "UDP" "2001:db8::1" "0.0.0.0")).map
          (fun copies => decide (copies.1.2 = copies.2.2)) = some false := by
  decide +kernel

end Samples

end NetTrap.Storage
