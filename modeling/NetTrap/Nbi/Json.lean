import NetTrap.Nbi.Event
import NetTrap.Net.Packet
import NetTrap.Rust.NetFormat

/-! Events as JSON: the fields that `Serialize` writes and what `Deserialize` makes of them.
The texts and numbers of the fields are taken to come back from JSON as they were written.
-/

namespace NetTrap.Nbi

open Rust Net List

/-- The fields of an event in JSON. -/
structure NetworkBehaviorIndicatorSerde extends NetworkBehaviorIndicator where
  schemaVersion : Nat

/-- `Display` for `IpAddr`. -/
def formatIp (ip : IpAddr) : Text :=
  .ofAscii ip.format

/-- `Display` for `Error::Parse`. -/
def parseError (message : Text) : Text :=
  .lit "Parse error: " ++ message

def parseNbiIpForDeserialize (field : String) (value : Text) : Except Text Text :=
  match parseIp value with
  | none => .error (parseError (invalidIp field value))
  | some ip => .ok (formatIp (canonicalizeIp ip))

def parseNbiProtocolForDeserialize (value : Text) : Except Text Text :=
  if value.trimMatches (fun char => char == ' ' || char == '\t') ≠ value || value.isEmpty
      || value.any isUnsafe then
    .error (parseError (.lit "NBI protocol '" ++ value
      ++ .lit "' contains unsafe line-break or control characters"))
  else .ok value.toAsciiUppercase

namespace NetworkBehaviorIndicator

/-- `Serialize`. -/
def serialize (self : NetworkBehaviorIndicator) : NetworkBehaviorIndicatorSerde :=
  ⟨self, nbiSchemaVersion⟩

/-- `Deserialize`. -/
def deserialize (helper : NetworkBehaviorIndicatorSerde) : Except Text NetworkBehaviorIndicator :=
  if helper.schemaVersion ≠ nbiSchemaVersion then
    .error (.lit "unsupported NBI schema_version " ++ .decimal helper.schemaVersion
      ++ .lit "; expected " ++ .decimal nbiSchemaVersion)
  else do
    let srcIp ← parseNbiIpForDeserialize "src_ip" helper.srcIp
    let dstIp ← parseNbiIpForDeserialize "dst_ip" helper.dstIp
    let protocol ← parseNbiProtocolForDeserialize helper.protocol
    return { helper.toNetworkBehaviorIndicator with
      protocol, srcIp, dstIp, processName := normalizeOptionalProcessName helper.processName }

end NetworkBehaviorIndicator

/-! Addresses. -/

theorem canonical_canonicalizeIp (ip : IpAddr) : (canonicalizeIp ip).Canonical := by
  cases ip with
  | v4 addr => trivial
  | v6 addr =>
    rw [canonicalizeIp]
    cases mapped : addr.toIpv4Mapped with
    | none => exact mapped
    | some inner => trivial

theorem addressByte_safe {byte : UInt8} (addressByte : isAddressByte byte = true)
    : byte < 128 ∧ isUnsafe (Char.ofNat byte.toNat) = false := by
  have all : ∀ number < 256, isAddressByte (UInt8.ofNat number) = true →
      UInt8.ofNat number < 128 ∧ isUnsafe (Char.ofNat number) = false := by
    decide +kernel
  have here := all byte.toNat byte.toNat_lt
  rw [UInt8.ofNat_toNat] at here
  exact here addressByte

variable {ip : IpAddr}

theorem boundedText_formatIp (canonical : ip.Canonical) : BoundedText (formatIp ip) := by
  obtain ⟨short, plain⟩ := IpAddr.format_plain canonical
  constructor
  · rw [formatIp, Text.ofAscii, length_map, singleLineMaxChars]
    omega
  · intro char member
    obtain ⟨byte, inside, rfl⟩ := mem_map.mp member
    exact (addressByte_safe (plain byte inside)).2

theorem parseIp_formatIp (canonical : ip.Canonical) : parseIp (formatIp ip) = some ip := by
  have plain := (IpAddr.format_plain canonical).2
  rw [parseIp, formatIp,
    Text.utf8_ofAscii fun byte member => (addressByte_safe (plain byte member)).1,
    parseIpAddr_format canonical]

theorem formatIp_inj {other : IpAddr} (canonical : ip.Canonical) (otherCanonical : other.Canonical)
    (same : formatIp ip = formatIp other)
    : ip = other := by
  have parsed := parseIp_formatIp canonical
  rw [same, parseIp_formatIp otherCanonical] at parsed
  exact (Option.some.inj parsed).symm

/-- The text that an address is reloaded with; `canonicalize_nbi_ip`. -/
def canonicalizeNbiIp (value : Text) : Text :=
  match parseIp value with
  | some ip => formatIp (canonicalizeIp ip)
  | none => value

/-! Texts. -/

variable {value : Text}

theorem singleLine_eq_self (bounded : BoundedText value) : singleLine value = value := by
  have safe : (value.map fun char => if isUnsafe char then ' ' else char) = value := by
    rw [map_congr_left (g := id), map_id]
    intro char member
    simp [bounded.safe char member]
  rw [singleLine, safe, take_of_length_le bounded.short]

theorem normalizeOptionalProcessName_eq_self {name}
    (valid : ∀ value ∈ name, BoundedText value ∧ value.trim ≠ [])
    : normalizeOptionalProcessName name = name := by
  cases name with
  | none => rfl
  | some value =>
    obtain ⟨bounded, nonempty⟩ := valid value rfl
    simp [normalizeOptionalProcessName, singleLine_eq_self bounded, nonempty]

/-- Only letters are changed to upper case, and neither case of a letter is white space or
a control character.
-/
theorem class_toUpper (char : Char)
    : isWhitespace char.toUpper.toNat = isWhitespace char.toNat
      ∧ isUnsafe char.toUpper = isUnsafe char := by
  by_cases lower : 'a'.val ≤ char.val ∧ char.val ≤ 'z'.val
  · have letters : ∀ number < 123, 97 ≤ number →
        isWhitespace (Char.ofNat number).toUpper.toNat = isWhitespace (Char.ofNat number).toNat
          ∧ isUnsafe (Char.ofNat number).toUpper = isUnsafe (Char.ofNat number) := by
      decide +kernel
    have here := letters char.toNat (Nat.lt_succ_of_le lower.2) lower.1
    rwa [Char.ofNat_toNat] at here
  · rw [Char.toUpper, dif_neg lower]
    exact ⟨rfl, rfl⟩

theorem ValidName.toAsciiUppercase (valid : ValidName value)
    : ValidName value.toAsciiUppercase := by
  have unpadded : value.toAsciiUppercase.trim = value.toAsciiUppercase := by
    have ends := Text.trimMatches_eq_self.mp valid.unpadded
    refine Text.trimMatches_eq_self.mpr ⟨?_, ?_⟩
    · rw [Text.toAsciiUppercase, head?_map]
      rintro char member
      obtain ⟨lower, first, rfl⟩ := Option.mem_map.mp member
      rw [(class_toUpper lower).1]
      exact ends.1 lower first
    · rw [Text.toAsciiUppercase, getLast?_map]
      rintro char member
      obtain ⟨lower, last, rfl⟩ := Option.mem_map.mp member
      rw [(class_toUpper lower).1]
      exact ends.2 lower last
  refine ⟨⟨?_, ?_⟩, ?_, unpadded⟩
  · rw [Text.toAsciiUppercase, length_map]
    exact valid.bounded.short
  · intro char member
    obtain ⟨lower, inside, rfl⟩ := mem_map.mp member
    rw [(class_toUpper lower).2]
    exact valid.bounded.safe lower inside
  · rw [unpadded, Text.toAsciiUppercase, Ne, map_eq_nil_iff, ← valid.unpadded]
    exact valid.nonempty

/-- A text that `trim` leaves alone is left alone by a trimming of fewer characters. -/
theorem ValidName.trimMatches (valid : ValidName value) {drops}
    (fewer : ∀ char, drops char = true → isWhitespace char.toNat = true)
    : value.trimMatches drops = value := by
  obtain ⟨first, last⟩ := Text.trimMatches_eq_self.mp valid.unpadded
  have kept {char : Char} (visible : isWhitespace char.toNat = false) : drops char = false := by
    rw [← Bool.not_eq_true]
    intro dropped
    rw [fewer char dropped] at visible
    cases visible
  exact Text.trimMatches_eq_self.mpr
    ⟨fun char member => kept (first char member), fun char member => kept (last char member)⟩

theorem isWhitespace_of_blank (char : Char) (blank : (char == ' ' || char == '\t') = true)
    : isWhitespace char.toNat = true := by
  rcases Bool.or_eq_true_iff.mp blank with isSpace | isTab
  · rw [beq_iff_eq.mp isSpace]
    rfl
  · rw [beq_iff_eq.mp isTab]
    rfl

theorem ValidName.ne_nil (valid : ValidName value) : value ≠ [] := by
  rintro rfl
  exact valid.nonempty rfl

/-! Reloaded events. -/

/-- The event with its protocol in upper case and its addresses in their canonical form. -/
def NetworkBehaviorIndicator.reloaded (self : NetworkBehaviorIndicator)
    : NetworkBehaviorIndicator :=
  { self with
    protocol := self.protocol.toAsciiUppercase
    srcIp := canonicalizeNbiIp self.srcIp
    dstIp := canonicalizeNbiIp self.dstIp }

theorem parseNbiIpForDeserialize_eq_ok {field : String} (valid : (parseIp value).isSome)
    : parseNbiIpForDeserialize field value = .ok (canonicalizeNbiIp value) := by
  obtain ⟨ip, parsed⟩ := Option.isSome_iff_exists.mp valid
  rw [parseNbiIpForDeserialize, canonicalizeNbiIp, parsed]

theorem parseNbiProtocolForDeserialize_eq_ok (valid : ValidName value)
    : parseNbiProtocolForDeserialize value = .ok value.toAsciiUppercase := by
  have safe : value.any isUnsafe = false :=
    any_eq_false.mpr fun char member => by simp [valid.bounded.safe char member]
  rw [parseNbiProtocolForDeserialize, valid.trimMatches isWhitespace_of_blank, safe]
  simp [valid.ne_nil]

variable {timestampError : Text → Option Text} {event : NetworkBehaviorIndicator}

theorem deserialize_serialize (valid : Valid timestampError event)
    : NetworkBehaviorIndicator.deserialize event.serialize = .ok event.reloaded := by
  have name := normalizeOptionalProcessName_eq_self valid.processName
  simp only [NetworkBehaviorIndicator.deserialize, NetworkBehaviorIndicator.serialize, ne_eq,
    not_true_eq_false, if_false]
  rw [parseNbiIpForDeserialize_eq_ok valid.srcIp.2, parseNbiIpForDeserialize_eq_ok valid.dstIp.2,
    parseNbiProtocolForDeserialize_eq_ok valid.protocol, name]
  rfl

theorem valid_canonicalizeNbiIp (valid : (parseIp value).isSome)
    : BoundedText (canonicalizeNbiIp value) ∧ (parseIp (canonicalizeNbiIp value)).isSome := by
  obtain ⟨ip, parsed⟩ := Option.isSome_iff_exists.mp valid
  have canonical := canonical_canonicalizeIp ip
  rw [canonicalizeNbiIp, parsed]
  exact ⟨boundedText_formatIp canonical, by rw [parseIp_formatIp canonical]; rfl⟩

theorem Valid.reloaded (valid : Valid timestampError event) : Valid timestampError event.reloaded :=
  { valid with
    protocol := valid.protocol.toAsciiUppercase
    srcIp := valid_canonicalizeNbiIp valid.srcIp.2
    dstIp := valid_canonicalizeNbiIp valid.dstIp.2 }

end NetTrap.Nbi
