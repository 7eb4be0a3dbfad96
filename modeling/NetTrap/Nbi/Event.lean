import Mathlib
import NetTrap.Rust.Chars
import NetTrap.Rust.Net

/-! Network behaviour indicators: the events that are collected, stored and exported.
Whether a timestamp is RFC 3339 is the verdict of `chrono`, which validation takes as an
argument: its error, if it has one.
-/

namespace NetTrap.Nbi

open Rust

/-! Events. -/

/-- `BTreeMap<String, String>`: entries by ascending keys. -/
@[ext]
structure Indicators where
  entries : List (Text × Text)
  sorted : entries.Pairwise fun left right => left.1 < right.1
  deriving DecidableEq, Repr

def Indicators.empty : Indicators :=
  ⟨[], .nil⟩

structure NetworkBehaviorIndicator where
  (eventId timestamp listener protocol srcIp : Text)
  srcPort : UInt16
  dstIp : Text
  dstPort : UInt16
  processName : Option Text
  processPid : Option UInt32
  indicators : Indicators
  deriving DecidableEq, Repr

def nbiSchemaVersion : Nat := 1

def maxIndicators : Nat := 64

def singleLineMaxChars : Nat := 240

/-- A control character, or white space other than the blank. -/
def isUnsafe (char : Char) : Bool :=
  isControl char.toNat || (isWhitespace char.toNat && char != ' ')

variable (field : String) (value : Text)

/-- `sanitize::single_line`. -/
def singleLine : Text :=
  (value.map fun char => if isUnsafe char then ' ' else char).take singleLineMaxChars

def normalizeOptionalProcessName (name : Option Text) : Option Text :=
  name.bind fun name =>
    let name := singleLine name
    if name.trim.isEmpty then none else some name

/-! Validation. -/

/-- The message of `Error::Parse`. -/
abbrev Verdict := Except Text Unit

def validateTextLength : Verdict :=
  if singleLineMaxChars < value.length then
    .error (.lit "NBI " ++ .lit field ++ .lit " exceeds text limit (" ++ .decimal value.length
      ++ .lit " > " ++ .decimal singleLineMaxChars ++ .lit " characters)")
  else .ok ()

def validateBoundedText : Verdict := do
  validateTextLength field value
  if value.any isUnsafe then
    .error (.lit "NBI " ++ .lit field
      ++ .lit " contains unsafe line-break or control characters")
  else .ok ()

def validateNonemptyText : Verdict :=
  if value.trim.isEmpty then .error (.lit "NBI " ++ .lit field ++ .lit " must not be empty")
  else .ok ()

/-- A text that may not be padded. -/
def validateUnpadded : Verdict :=
  if value ≠ value.trim then .error (.lit "NBI " ++ .lit field ++ .lit " must not be padded")
  else .ok ()

def validateNbiTimestamp (timestampError : Text → Option Text) (value : Text) : Verdict :=
  match timestampError value with
  | some error =>
    .error (.lit "NBI timestamp '" ++ value ++ .lit "' is not valid RFC3339: " ++ error)
  | none => .ok ()

def invalidIp : Text :=
  .lit "NBI " ++ .lit field ++ .lit " contains invalid IP '" ++ value
    ++ .lit "': invalid IP address syntax"

/-- `str::parse::<IpAddr>`. -/
def parseIp : Option IpAddr :=
  parseIpAddr value.utf8

def validateNbiIp : Verdict := do
  validateBoundedText field value
  match parseIp value with
  | none => .error (invalidIp field value)
  | some _ => .ok ()

def resourceBoundEventId (eventId : Text) : Text :=
  let eventId := singleLine eventId
  if eventId.isEmpty then .lit "<missing>" else eventId

def validateProcessName (name : Option Text) : Verdict :=
  match name with
  | none => .ok ()
  | some name => do
      validateBoundedText "process_name" name
      validateNonemptyText "process_name" name

def validateIndicators : List (Text × Text) → Verdict
  | [] => .ok ()
  | (key, value) :: rest => do
      validateBoundedText "indicator key" key
      validateNonemptyText "indicator key" key
      validateBoundedText "indicator value" value
      validateIndicators rest

namespace NetworkBehaviorIndicator

def validateIndicatorCount (self : NetworkBehaviorIndicator) : Verdict :=
  let indicatorCount := self.indicators.entries.length
  if maxIndicators < indicatorCount then
    .error (.lit "NBI event '" ++ resourceBoundEventId self.eventId
      ++ .lit "' has too many indicators (" ++ .decimal indicatorCount ++ .lit " > "
      ++ .decimal maxIndicators ++ .lit ")")
  else .ok ()

def validateResourceBounds (self : NetworkBehaviorIndicator)
    (timestampError : Text → Option Text)
    : Verdict := do
  validateBoundedText "event_id" self.eventId
  validateNonemptyText "event_id" self.eventId
  validateUnpadded "event_id" self.eventId
  validateBoundedText "timestamp" self.timestamp
  validateNonemptyText "timestamp" self.timestamp
  validateNbiTimestamp timestampError self.timestamp
  validateBoundedText "listener" self.listener
  validateNonemptyText "listener" self.listener
  validateUnpadded "listener" self.listener
  validateBoundedText "protocol" self.protocol
  validateNonemptyText "protocol" self.protocol
  validateUnpadded "protocol" self.protocol
  validateNbiIp "src_ip" self.srcIp
  validateNbiIp "dst_ip" self.dstIp
  validateProcessName self.processName
  self.validateIndicatorCount
  validateIndicators self.indicators.entries

end NetworkBehaviorIndicator

/-! Fingerprints and event ids. -/

/-- What `push_fingerprint_field` appends. -/
def fingerprintField (key value : Text) : Text :=
  key ++ '[' :: Text.decimal value.len ++ ']' :: '=' :: value ++ ['|']

/-- What `push_fingerprint_option_field` appends. -/
def fingerprintOptionField (key : Text) : Option Text → Text
  | some value => fingerprintField key value
  | none => fingerprintField key []

/-- The order in which `content_fingerprint` sorts the indicators. -/
def entryLe (left right : Text × Text) : Bool :=
  decide (left.1 < right.1) || (decide (left.1 = right.1) && decide (left.2 ≤ right.2))

/-- The indicators of a fingerprint, without their number. -/
def indicatorFields (entries : List (Text × Text)) : Text :=
  entries.flatMap fun entry => fingerprintField entry.1 entry.2

namespace NetworkBehaviorIndicator

def contentFingerprint (self : NetworkBehaviorIndicator) : Text :=
  let indicators := self.indicators.entries.mergeSort entryLe
  fingerprintField (.lit "timestamp") self.timestamp
    ++ (fingerprintField (.lit "listener") self.listener
    ++ (fingerprintField (.lit "protocol") self.protocol
    ++ (fingerprintField (.lit "src_ip") self.srcIp
    ++ (fingerprintField (.lit "src_port") (.decimal self.srcPort.toNat)
    ++ (fingerprintField (.lit "dst_ip") self.dstIp
    ++ (fingerprintField (.lit "dst_port") (.decimal self.dstPort.toNat)
    ++ (fingerprintOptionField (.lit "process_name") self.processName
    ++ (fingerprintOptionField (.lit "process_pid")
        (self.processPid.map fun pid => .decimal pid.toNat)
    ++ (.lit "indicators[" ++ (.decimal indicators.length ++ (.lit "]="
    ++ indicatorFields indicators)))))))))))

end NetworkBehaviorIndicator

def legacyDbMark : Text := .lit "legacy-db-"

def shouldNormalizeLegacyEventId (eventId : Text) : Bool :=
  let eventId := eventId.trimMatches fun char => char == ' ' || char == '\t'
  eventId.isEmpty || (legacyDbMark.isPrefixOf eventId && !eventId.any isUnsafe)

/-- 64-bit FNV-1a. -/
def fnv1a (bytes : Bytes) : UInt64 :=
  bytes.foldl (fun hash byte => (hash ^^^ byte.toUInt64) * 0x100000001b3) 0xcbf29ce484222325

/-- The sixteen hexadecimal digits of a number. -/
def hexadecimal16 (number : UInt64) : Text :=
  (List.range 16).map fun place => Nat.digitChar (number.toNat / 16 ^ (15 - place) % 16)

def legacyEventIdFromFingerprint (contentFingerprint : Text) : Text :=
  .lit "legacy-" ++ hexadecimal16 (fnv1a contentFingerprint.utf8)

def NetworkBehaviorIndicator.normalizedEventId (self : NetworkBehaviorIndicator) : Text :=
  if shouldNormalizeLegacyEventId self.eventId then
    legacyEventIdFromFingerprint self.contentFingerprint
  else self.eventId

/-! What an event has to be like to pass `validate_resource_bounds`. -/

/-- A check behind another one. -/
theorem check_bind_eq_ok {first : Verdict} {second : Unit → Verdict}
    : (first >>= second) = .ok () ↔ first = .ok () ∧ second () = .ok () := by
  cases first with
  | ok value =>
    change second value = .ok () ↔ _
    simp
  | error message =>
    change (Except.error message : Verdict) = .ok () ↔ _
    simp

/-- A text of at most 240 characters, all of them safe to print on a line. -/
structure BoundedText (value : Text) : Prop where
  short : value.length ≤ singleLineMaxChars
  safe : ∀ char ∈ value, isUnsafe char = false

variable {field : String} {value : Text}

theorem validateBoundedText_eq_ok
    : validateBoundedText field value = .ok () ↔ BoundedText value := by
  rw [validateBoundedText, check_bind_eq_ok, validateTextLength]
  constructor
  · rintro ⟨short, safe⟩
    split at short
    · cases short
    · split at safe
      · cases safe
      · next small allSafe =>
        refine ⟨by omega, fun char member => ?_⟩
        rw [← Bool.not_eq_true]
        exact fun isBad => allSafe (List.any_eq_true.mpr ⟨char, member, isBad⟩)
  · rintro ⟨short, safe⟩
    rw [if_neg (by omega), if_neg]
    · exact ⟨rfl, rfl⟩
    · rw [List.any_eq_true]
      rintro ⟨char, member, isBad⟩
      rw [safe char member] at isBad
      cases isBad

theorem validateNonemptyText_eq_ok
    : validateNonemptyText field value = .ok () ↔ value.trim ≠ [] := by
  rw [validateNonemptyText]
  split <;> simp_all

theorem validateUnpadded_eq_ok : validateUnpadded field value = .ok () ↔ value.trim = value := by
  rw [validateUnpadded]
  split
  · next padded => simp [Ne.symm padded]
  · next unpadded => simp [(not_not.mp unpadded).symm]

variable {timestampError : Text → Option Text}

theorem validateNbiTimestamp_eq_ok
    : validateNbiTimestamp timestampError value = .ok () ↔ timestampError value = none := by
  rw [validateNbiTimestamp]
  split <;> simp_all

theorem validateNbiIp_eq_ok
    : validateNbiIp field value = .ok () ↔ BoundedText value ∧ (parseIp value).isSome := by
  rw [validateNbiIp, check_bind_eq_ok, validateBoundedText_eq_ok]
  split <;> simp_all

theorem validateProcessName_eq_ok {name}
    : validateProcessName name = .ok () ↔ ∀ value ∈ name, BoundedText value ∧ value.trim ≠ [] := by
  cases name with
  | none => simp [validateProcessName]
  | some value =>
    simp [validateProcessName, check_bind_eq_ok, validateBoundedText_eq_ok,
      validateNonemptyText_eq_ok]

/-- A key and a value that an event may have as an indicator. -/
structure ValidEntry (entry : Text × Text) : Prop where
  key : BoundedText entry.1
  nonempty : entry.1.trim ≠ []
  value : BoundedText entry.2

theorem validateIndicators_eq_ok {entries}
    : validateIndicators entries = .ok () ↔ ∀ entry ∈ entries, ValidEntry entry := by
  induction entries with
  | nil => simp [validateIndicators]
  | cons first rest ih =>
    rw [validateIndicators, check_bind_eq_ok, check_bind_eq_ok, check_bind_eq_ok,
      validateBoundedText_eq_ok, validateNonemptyText_eq_ok, validateBoundedText_eq_ok, ih,
      List.forall_mem_cons]
    constructor
    · rintro ⟨key, nonempty, value, others⟩
      exact ⟨⟨key, nonempty, value⟩, others⟩
    · rintro ⟨⟨key, nonempty, value⟩, others⟩
      exact ⟨key, nonempty, value, others⟩

/-- An identifier, listener or protocol: bounded, not blank, and not padded. -/
structure ValidName (value : Text) : Prop where
  bounded : BoundedText value
  nonempty : value.trim ≠ []
  unpadded : value.trim = value

/-- The events that pass `validate_resource_bounds`. -/
structure Valid (timestampError : Text → Option Text) (event : NetworkBehaviorIndicator)
    : Prop where
  eventId : ValidName event.eventId
  timestampText : BoundedText event.timestamp ∧ event.timestamp.trim ≠ []
  timestamp : timestampError event.timestamp = none
  listener : ValidName event.listener
  protocol : ValidName event.protocol
  srcIp : BoundedText event.srcIp ∧ (parseIp event.srcIp).isSome
  dstIp : BoundedText event.dstIp ∧ (parseIp event.dstIp).isSome
  processName : ∀ name ∈ event.processName, BoundedText name ∧ name.trim ≠ []
  indicatorCount : event.indicators.entries.length ≤ maxIndicators
  indicators : ∀ entry ∈ event.indicators.entries, ValidEntry entry

theorem validateIndicatorCount_eq_ok {event : NetworkBehaviorIndicator}
    : event.validateIndicatorCount = .ok () ↔ event.indicators.entries.length ≤ maxIndicators := by
  rw [NetworkBehaviorIndicator.validateIndicatorCount]
  split
  · next many => simp [many]
  · next few => simpa using few

theorem validateResourceBounds_eq_ok {event}
    : event.validateResourceBounds timestampError = .ok () ↔ Valid timestampError event := by
  simp only [NetworkBehaviorIndicator.validateResourceBounds, check_bind_eq_ok,
    validateBoundedText_eq_ok, validateNonemptyText_eq_ok, validateUnpadded_eq_ok,
    validateNbiTimestamp_eq_ok, validateNbiIp_eq_ok, validateProcessName_eq_ok,
    validateIndicatorCount_eq_ok, validateIndicators_eq_ok]
  constructor
  · rintro ⟨id, idNonempty, idUnpadded, time, timeNonempty, timestamp, listener,
      listenerNonempty, listenerUnpadded, protocol, protocolNonempty, protocolUnpadded, srcIp,
      dstIp, processName, count, indicators⟩
    exact ⟨⟨id, idNonempty, idUnpadded⟩, ⟨time, timeNonempty⟩, timestamp,
      ⟨listener, listenerNonempty, listenerUnpadded⟩,
      ⟨protocol, protocolNonempty, protocolUnpadded⟩, srcIp, dstIp, processName, count,
      indicators⟩
  · intro valid
    exact ⟨valid.eventId.bounded, valid.eventId.nonempty, valid.eventId.unpadded,
      valid.timestampText.1, valid.timestampText.2, valid.timestamp, valid.listener.bounded,
      valid.listener.nonempty, valid.listener.unpadded, valid.protocol.bounded,
      valid.protocol.nonempty, valid.protocol.unpadded, valid.srcIp, valid.dstIp,
      valid.processName, valid.indicatorCount, valid.indicators⟩

end NetTrap.Nbi
