import NetTrap.Rust.BerDecoding
import NetTrap.TcpFraming.LengthPrefixed

/-! Framers whose length field has itself a variable length: the MQTT remaining-length
integer and the BER length of an LDAP message.
-/

namespace NetTrap.TcpFraming

open Access Framing Rust Exec List Ber

/-! MQTT. -/

def mqttFixedHeaderIsValid (first packetType : UInt8) (remainingLen : Nat) : Bool :=
  let flags := first &&& 0x0f
  match packetType with
  | 1 => flags == 0
  | 2 => false
  | 3 => ((flags >>> 1) &&& 0x03) != 0x03
  | 4 | 5 | 7 | 9 | 11 => flags == 0
  | 6 | 8 | 10 => flags == 0x02
  | 12 => flags == 0 && remainingLen == 0
  | 13 => false
  | 14 => flags == 0 && remainingLen == 0
  | _ => false

/-- The counting loop of `mqttRemainingLengthEncodedLen`; a `usize` has at most ten
groups of seven bits.
-/
def encodedGroups : Nat → Nat → Nat
  | 0, _ => 1
  | budget + 1, value => if value ≥ 128 then encodedGroups budget (value / 128) + 1 else 1

def mqttRemainingLengthEncodedLen (value : Nat) : Nat :=
  encodedGroups 10 value

/-- The `for i in 1..=4` loop of `extractMqttFrame` over the positions still to read. -/
def mqttLengthLoop (buffer : Bytes) (packetType : UInt8)
    : List Nat → (multiplier remainingLen : Nat) → Exec (TcpFrameResult × Bytes)
  | [], _, _ => return (.invalid none, [])
  | i :: positions, multiplier, remainingLen => do
      if i ≥ buffer.length then
        return (.incomplete, buffer)
      let byte ← item buffer i
      let some groupLen := checkedMul (byte &&& 0x7F).toNat multiplier
        | return (.invalid none, [])
      let some remainingLen := checkedAdd remainingLen groupLen | return (.tooLarge none, [])
      if remainingLen > maxMqttFrameSize then
        return (.tooLarge none, [])
      if byte &&& 0x80 == 0 then
        if mqttRemainingLengthEncodedLen remainingLen != i then
          return (.invalid none, [])
        let headerLen := i + 1
        if !mqttFixedHeaderIsValid (← item buffer 0) packetType remainingLen then
          return (.invalid none, [])
        let some totalLen := checkedAdd headerLen remainingLen | return (.tooLarge none, [])
        if totalLen > maxMqttFrameSize then
          return (.tooLarge none, [])
        if buffer.length < totalLen then
          return (.incomplete, buffer)
        completeFrame buffer totalLen
      else
        let some multiplier := checkedMul multiplier 128 | return (.invalid none, [])
        mqttLengthLoop buffer packetType positions multiplier remainingLen

def extractMqttFrame (buffer : Bytes) : Exec (TcpFrameResult × Bytes) := do
  if buffer.length < 2 then
    return (.incomplete, buffer)
  let packetType := ((← item buffer 0) >>> 4) &&& 0x0F
  if !(1 ≤ packetType && packetType ≤ 14) then
    return (.invalid none, [])
  mqttLengthLoop buffer packetType [1, 2, 3, 4] 1 0

/-- The decision of the remaining-length bytes: `rounds` groups may still follow, the
first of them at position `i`.
-/
def mqttLengthDecision (first packetType : UInt8)
    : (rounds i multiplier remainingLen : Nat) → Bytes → Decision Rejection
  | 0, _, _, _, _ => .reject (dropInvalid none)
  | _ + 1, _, _, _, [] => .more
  | rounds + 1, i, multiplier, remainingLen, byte :: rest =>
    let remainingLen := remainingLen + (byte &&& 0x7F).toNat * multiplier
    if remainingLen > maxMqttFrameSize then .reject (dropTooLarge none)
    else if byte &&& 0x80 == 0 then
      if mqttRemainingLengthEncodedLen remainingLen != i then .reject (dropInvalid none)
      else if !mqttFixedHeaderIsValid first packetType remainingLen then
        .reject (dropInvalid none)
      else if i + 1 + remainingLen > maxMqttFrameSize then .reject (dropTooLarge none)
      else .take (i + 1 + remainingLen)
    else
      mqttLengthDecision first packetType rounds (i + 1) (multiplier * 128) remainingLen rest

def mqttDecision : Bytes → Decision Rejection
  | first :: second :: tail =>
    let packetType := (first >>> 4) &&& 0x0F
    if !(1 ≤ packetType && packetType ≤ 14) then .reject (dropInvalid none)
    else mqttLengthDecision first packetType 4 1 1 0 (second :: tail)
  | _ => .more

/-- The positions loop reads the suffix that the decision recurses on.
Witness: induction on the rounds left; the multiplier stays below `2^28`, so no checked
operation overflows.
-/
theorem mqttLengthLoop_eq (buffer : Bytes) (first packetType : UInt8)
    (head : item buffer 0 = .done first) (rounds i multiplier remainingLen : Nat)
    (small : multiplier * 128 ^ rounds ≤ 2 ^ 28) (bounded : remainingLen ≤ maxMqttFrameSize)
    (near : i + rounds ≤ 5)
    : mqttLengthLoop buffer packetType (range' i rounds) multiplier remainingLen = .done
          (outcome buffer ((mqttLengthDecision first packetType rounds i multiplier remainingLen
              (buffer.drop i)).cut
              buffer)) := by
  induction rounds generalizing i multiplier remainingLen with
  | zero => rfl
  | succ rounds ih =>
    rw [range'_succ]
    cases suffix : buffer.drop i with
    | nil =>
      have atEnd : i ≥ buffer.length := drop_eq_nil_iff.mp suffix
      simp only [mqttLengthLoop, if_pos atEnd]
      rfl
    | cons byte rest =>
      have inside : ¬ i ≥ buffer.length := by
        intro atEnd
        rw [drop_eq_nil_of_le atEnd] at suffix
        cases suffix
      have digit : (byte &&& 0x7F).toNat < 128 := by
        rw [UInt8.toNat_and]
        exact Nat.lt_of_le_of_lt Nat.and_le_right (by decide)
      have power : 1 ≤ 128 ^ rounds := Nat.one_le_pow _ _ (by omega)
      have scaled : multiplier * 128 ≤ 2 ^ 28 := by
        refine Nat.le_trans ?_ small
        rw [Nat.pow_succ, Nat.mul_comm (128 ^ rounds)]
        exact Nat.mul_le_mul_left _ (by omega)
      have group : (byte &&& 0x7F).toNat * multiplier ≤ 2 ^ 28 :=
        Nat.le_trans (Nat.mul_le_mul_right multiplier (Nat.le_of_lt digit)) (by omega)
      have next : buffer.drop (i + 1) = rest := by
        rw [← drop_drop, suffix]
        rfl
      simp only [maxMqttFrameSize] at bounded
      have fitsMul : checkedMul (byte &&& 0x7F).toNat multiplier
          = some ((byte &&& 0x7F).toNat * multiplier) :=
        checkedMul_of_le (by simp only [usizeMax]; omega)
      have fitsAdd : checkedAdd remainingLen ((byte &&& 0x7F).toNat * multiplier)
          = some (remainingLen + (byte &&& 0x7F).toNat * multiplier) :=
        checkedAdd_of_le (by simp only [usizeMax]; omega)
      have fitsNext : checkedMul multiplier 128 = some (multiplier * 128) :=
        checkedMul_of_le (by simp only [usizeMax]; omega)
      simp only [mqttLengthLoop, mqttLengthDecision, if_neg inside, item_of_drop suffix,
        done_bind, fitsMul, fitsAdd, fitsNext, head]
      refine guard_reject rfl fun within => ?_
      simp only [maxMqttFrameSize] at within
      split
      · have fitsTotal
            : i + 1 + (remainingLen + (byte &&& 0x7F).toNat * multiplier) ≤ usizeMax := by
          simp only [usizeMax]
          omega
        simp only [checkedAdd_of_le fitsTotal]
        refine guard_reject rfl fun _ => ?_
        refine guard_reject rfl fun _ => ?_
        refine guard_reject rfl fun _ => ?_
        exact wait_or_complete _
      · rw [← next]
        refine ih (i + 1) (multiplier * 128) _ ?_ (by simp only [maxMqttFrameSize]; omega)
          (by omega)
        rw [Nat.mul_assoc, ← Nat.pow_succ']
        exact small

theorem extractMqttFrame_refines : Refines extractMqttFrame mqttDecision := by
  intro buffer
  rcases buffer with _ | ⟨first, _ | ⟨second, tail⟩⟩
  iterate 2 rfl
  have enough : ¬ (first :: second :: tail).length < 2 := by simp
  simp only [extractMqttFrame, if_neg enough, item_cons_zero, done_bind, follow, mqttDecision]
  refine guard_reject rfl fun _ => ?_
  exact mqttLengthLoop_eq _ first _ rfl 4 1 1 0 (by decide) (by decide) (by decide)

theorem mqttLengthDecision_settled (first packetType : UInt8)
    (rounds i multiplier remainingLen : Nat) (front back : Bytes)
    : mqttLengthDecision first packetType rounds i multiplier remainingLen front = .more
      ∨ mqttLengthDecision first packetType rounds i multiplier remainingLen (front ++ back)
        = mqttLengthDecision first packetType rounds i multiplier remainingLen front := by
  induction rounds generalizing i multiplier remainingLen front with
  | zero => exact .inr rfl
  | succ rounds ih =>
    cases front with
    | nil => exact .inl rfl
    | cons byte rest =>
      simp only [cons_append, mqttLengthDecision]
      split
      · exact .inr rfl
      · split
        · exact .inr rfl
        · exact ih _ _ _ rest

theorem mqttDecision_settled (front back : Bytes)
    : mqttDecision front = .more ∨ mqttDecision (front ++ back) = mqttDecision front := by
  rcases front with _ | ⟨first, _ | ⟨second, tail⟩⟩
  iterate 2 exact .inl rfl
  simp only [cons_append, mqttDecision]
  split
  · exact .inr rfl
  · exact mqttLengthDecision_settled _ _ 4 1 1 0 (second :: tail) back

/-! LDAP. -/

inductive LdapBerLength where
  | complete (totalLen : Nat)
  | incomplete
  | invalid
  | tooLarge
  | notLdap
  deriving DecidableEq, Repr

inductive BerLengthField where
  | complete (payloadLen lenBytes : Nat)
  | incomplete
  | invalid
  deriving DecidableEq, Repr

def parseBerLength (data : Bytes) : Exec BerLengthField := do
  let some first := data.head? | return .incomplete
  if first &&& 0x80 == 0 then
    return .complete first.toNat 1
  let numBytes := (first &&& 0x7F).toNat
  if numBytes == 0 || numBytes > 4 then
    return .invalid
  if data.length < 1 + numBytes then
    return .incomplete
  let second ← item data 1
  if numBytes == 1 then
    if second < 128 then
      return .invalid
  else if second == 0 then
    return .invalid
  let digits ← slice data 1 (numBytes + 1)
  let len := digits.foldl (fun len byte => (len <<< 8) ||| byte.toNat) 0
  return .complete len (1 + numBytes)

def ldapTotalLen (buffer : Bytes) : Exec LdapBerLength := do
  if buffer.head? != some 0x30 then
    return .notLdap
  match ← parseBerLength (← sliceFrom buffer 1) with
  | .incomplete => return .incomplete
  | .invalid => return .invalid
  | .complete payloadLen lenBytes =>
    if payloadLen > maxLdapBerPayloadSize then
      return .tooLarge
    match (checkedAdd 1 lenBytes).bind (checkedAdd · payloadLen) with
    | some totalLen => return .complete totalLen
    | none => return .tooLarge

def extractLdapFrame (buffer : Bytes) : Exec (TcpFrameResult × Bytes) := do
  if buffer.length < 2 then
    return (.incomplete, buffer)
  match ← ldapTotalLen buffer with
  | .incomplete =>
    if buffer.length > maxLdapFrameSize then
      return (.tooLarge none, [])
    return (.incomplete, buffer)
  | .invalid => return (.invalid none, [])
  | .tooLarge => return (.tooLarge none, [])
  | .notLdap => optionalFramer extractImmediateFrame buffer
  | .complete totalLen =>
    if totalLen > maxLdapFrameSize then
      return (.tooLarge none, [])
    if buffer.length < totalLen then
      if buffer.length > maxLdapFrameSize then
        return (.tooLarge none, [])
      return (.incomplete, buffer)
    completeFrame buffer totalLen

/-- The base-256 value of the length digits, most significant first. -/
def berDigits (digits : Bytes) : Nat :=
  digits.foldl (fun len byte => (len <<< 8) ||| byte.toNat) 0

/-- The BER length at the front of `data`, read without positions. -/
def berLength : Bytes → BerLengthField
  | [] => .incomplete
  | first :: rest =>
    let numBytes := (first &&& 0x7F).toNat
    if first &&& 0x80 == 0 then .complete first.toNat 1
    else if numBytes == 0 || numBytes > 4 then .invalid
    else if rest.length < numBytes then .incomplete
    else if numBytes == 1 && rest.head?.any (· < 128) then .invalid
    else if numBytes != 1 && rest.head? == some 0 then .invalid
    else .complete (berDigits (rest.take numBytes)) (1 + numBytes)

def ldapDecision (buffer : Bytes) : Decision Rejection :=
  if buffer.length < 2 then .more
  else if buffer.head? != some 0x30 then .take buffer.length
  else
    match berLength buffer.tail with
    | .incomplete => .more
    | .invalid => .reject (dropInvalid none)
    | .complete payloadLen lenBytes =>
      if payloadLen > maxLdapBerPayloadSize then .reject (dropTooLarge none)
      else .take (1 + lenBytes + payloadLen)

section

variable {first second : UInt8} {digits rest : Bytes} (high : ¬ first.toNat < 128)
include high

theorem berLength_broken (count : Miscounts first rest)
    : berLength (first :: rest)
      = if first.toNat % 128 = 0 ∨ 4 < first.toNat % 128 then .invalid else .incomplete := by
  simp only [berLength, highBit_eq_zero, toNat_lowBits, decide_eq_true_eq, if_neg high]
  by_cases counted : first.toNat % 128 = 0 ∨ 4 < first.toNat % 128
  · simp [counted]
  · simp [counted]
    omega

theorem berLength_long (count : first.toNat % 128 = digits.length + 1) (few : digits.length < 4)
    : berLength (first :: second :: (digits ++ rest))
      = if second = 0 ∨ bigEndian (second :: digits) < 128 then .invalid
        else .complete (bigEndian (second :: digits)) (digits.length + 1 + 1) := by
  rw [← shortest_ite]
  simp only [berLength, highBit_eq_zero, toNat_lowBits, decide_eq_true_eq, if_neg high, count]
  cases digits with
  | nil => simp [berDigits, bigEndian]
  | cons third digits =>
    rw [length_cons] at few
    simp [berDigits, bigEndian, Nat.add_comm 1]
    grind

end

/-- The positional reader agrees with the pattern-matching one and stays in range. -/
theorem parseBerLength_eq (data : Bytes) : parseBerLength data = .done (berLength data) := by
  cases lengthView data with
  | empty => rfl
  | short low => simp [parseBerLength, berLength, highBit_eq_zero, low]
  | @broken first rest high count =>
    rw [berLength_broken high count]
    simp only [parseBerLength, head?_cons, highBit_eq_zero, toNat_lowBits, decide_eq_true_eq,
      if_neg high]
    by_cases counted : first.toNat % 128 = 0 ∨ 4 < first.toNat % 128
    · simp [counted]
    · rw [if_neg (by simpa using counted), if_pos (by simp; omega), if_neg counted]
      rfl
  | @long first second digits rest high count few =>
    rw [berLength_long high count few]
    simp only [parseBerLength, head?_cons, highBit_eq_zero, toNat_lowBits, decide_eq_true_eq,
      if_neg high, count, item_cons_succ, item_cons_zero, done_bind, Nat.add_comm 1, slice_octets,
      foldl_octets, beq_iff_eq, shortest_ite]
    rw [if_neg (by simp; omega), if_neg (by simp)]
    exact (apply_ite _ _ _ _).symm

/-- The value and the size of a field that is complete. -/
def BerLengthField.whole : BerLengthField → Option (Nat × Nat)
  | .complete payloadLen lenBytes => some (payloadLen, lenBytes)
  | .incomplete | .invalid => none

theorem berLength_whole (data : Bytes) : (berLength data).whole = readField data := by
  cases lengthView data with
  | empty => rfl
  | short low => simp [berLength, highBit_eq_zero, low, readField_short low, BerLengthField.whole]
  | broken high count =>
    rw [readField_broken high count, berLength_broken high count]
    split <;> rfl
  | long high count few =>
    rw [readField_long high count few, berLength_long high count few]
    split <;> rfl

theorem berLength_eq_complete {data payloadLen lenBytes}
    : berLength data = .complete payloadLen lenBytes
      ↔ payloadLen < 256 ^ 4 ∧ lenBytes = (lengthField payloadLen).length
        ∧ lengthField payloadLen <+: data := by
  have whole : berLength data = .complete payloadLen lenBytes
      ↔ (berLength data).whole = some (payloadLen, lenBytes) := by
    cases berLength data <;> simp [BerLengthField.whole]
  rw [whole, berLength_whole, readField]
  constructor
  · intro read
    obtain ⟨⟨len, rest⟩, field, same⟩ := Option.map_eq_some_iff.mp read
    cases same
    obtain ⟨rfl, small⟩ := readLength_eq_some.mp field
    exact ⟨small, rfl, rest, rfl⟩
  · rintro ⟨small, rfl, rest, rfl⟩
    rw [readLength_lengthField small, Option.map_some]

theorem berLength_complete {data payloadLen lenBytes}
    (read : berLength data = .complete payloadLen lenBytes)
    : payloadLen < 2 ^ 32 ∧ lenBytes ≤ 5 := by
  obtain ⟨small, rfl, -⟩ := berLength_eq_complete.mp read
  exact ⟨small, length_lengthField_le small⟩

theorem berLength_incomplete {data} (short : berLength data = .incomplete)
    : data = [] ∨ ∃ first rest, data = first :: rest ∧ rest.length < first.toNat - 128
        ∧ first.toNat ≤ 132 := by
  cases lengthView data with
  | empty => exact .inl rfl
  | short low => simp [berLength, highBit_eq_zero, low] at short
  | @broken first rest high count =>
    rw [berLength_broken high count] at short
    split at short
    · cases short
    · have := first.toNat_lt
      exact .inr ⟨first, rest, rfl, by omega, by omega⟩
  | long high count few =>
    rw [berLength_long high count few] at short
    split at short <;> cases short

/-- A length field that is not cut off does not depend on what follows it. -/
theorem berLength_append {front : Bytes} (back : Bytes)
    (whole : berLength front ≠ .incomplete)
    : berLength (front ++ back) = berLength front := by
  cases lengthView front with
  | empty => exact absurd rfl whole
  | short low => simp [berLength, highBit_eq_zero, low]
  | broken high count =>
    rw [berLength_broken high count] at whole ⊢
    split at whole
    · next uncounted =>
      rw [cons_append, berLength_broken high (or_assoc.mp (.inl uncounted)), if_pos uncounted]
    · exact absurd rfl whole
  | long high count few =>
    rw [cons_append, cons_append, append_assoc, berLength_long high count few,
      berLength_long high count few]

theorem berLength_total {data payloadLen lenBytes}
    (read : berLength data = .complete payloadLen lenBytes)
    : (checkedAdd 1 lenBytes).bind (checkedAdd · payloadLen)
      = some (1 + lenBytes + payloadLen) := by
  obtain ⟨payloadSmall, lenSmall⟩ := berLength_complete read
  have fitsTotal : 1 + lenBytes + payloadLen ≤ usizeMax := by
    simp only [usizeMax]
    omega
  have fitsTag : 1 + lenBytes ≤ usizeMax := by omega
  rw [checkedAdd_of_le fitsTag, Option.bind_some, checkedAdd_of_le fitsTotal]

/-- A proper prefix of a shortest form. -/
def CutShort (data : Bytes) : Prop :=
  ∃ len rest, len < 256 ^ 4 ∧ rest ≠ [] ∧ data ++ rest = lengthField len

/-- The front of a form with two to four octets that starts with a zero. -/
def ZeroLed (data : Bytes) : Prop :=
  ∃ first rest, data = first :: 0 :: rest ∧ rest.length + 1 < first.toNat - 128
    ∧ first.toNat ≤ 132

/-- Octets of 255 complete a field that does not start with a zero. -/
theorem cutShort_of_missing {first : UInt8} {rest} (missing : rest.length < first.toNat - 128)
    (few : first.toNat ≤ 132) (leading : rest.head? ≠ some 0)
    : CutShort (first :: rest) := by
  obtain ⟨count, size⟩ := Nat.exists_eq_add_of_lt missing
  have low : first.toNat % 128 = (rest ++ replicate (count + 1) 255).length := by
    rw [length_append, length_replicate]
    omega
  have whole : berLength (first :: (rest ++ replicate (count + 1) 255))
      = .complete (berDigits (rest ++ replicate (count + 1) 255)) (first.toNat - 127) := by
    simp only [berLength, highBit_eq_zero, toNat_lowBits]
    rw [if_neg (by simp; omega), if_neg (by simp; omega), if_neg (by omega), if_neg, if_neg, low,
      take_length, ← low]
    · exact congrArg _ (by omega)
    · cases rest with
      | nil => simp [replicate_succ]
      | cons second rest => simpa using fun _ => leading
    · cases rest with
      | nil => simp [replicate_succ]
      | cons second rest =>
        simp at size ⊢
        omega
  obtain ⟨small, same, shape⟩ := berLength_eq_complete.mp whole
  refine ⟨_, _, small, by simp, (shape.eq_of_length ?_).symm⟩
  rw [← same, length_cons, ← low]
  omega

theorem berLength_eq_incomplete {data}
    : berLength data = .incomplete ↔ CutShort data ∨ ZeroLed data := by
  constructor
  · intro short
    obtain rfl | ⟨first, rest, rfl, missing, few⟩ := berLength_incomplete short
    · exact .inl ⟨0, [0], by decide, by simp, rfl⟩
    · by_cases leading : rest.head? = some 0
      · obtain ⟨rest, rfl⟩ := head?_eq_some_iff.mp leading
        exact .inr ⟨first, rest, rfl, missing, few⟩
      · exact .inl (cutShort_of_missing missing few leading)
  · rintro (⟨len, rest, small, more, shape⟩ | ⟨first, rest, rfl, missing, few⟩)
    · by_contra whole
      have field := berLength_append rest whole
      rw [shape, berLength_eq_complete.mpr ⟨small, rfl, prefix_rfl⟩] at field
      obtain ⟨-, -, inside⟩ := berLength_eq_complete.mp field.symm
      have shorter := inside.length_le
      rw [← shape, length_append] at shorter
      exact more (length_eq_zero_iff.mp (by omega))
    · simp only [berLength, highBit_eq_zero, toNat_lowBits]
      rw [if_neg (by simp; omega), if_neg (by simp; omega), if_pos (by rw [length_cons]; omega)]

/-- The length field of an LDAP message: the shortest forms with at most four octets are read and
their total fits, and more input is asked for on their proper prefixes and on the front of a longer
form that starts with a zero.
-/
theorem parseBerLength_shortest (data : Bytes)
    : ∃ field, parseBerLength data = .done field
      ∧ (∀ payloadLen lenBytes, field = .complete payloadLen lenBytes
        ↔ payloadLen < 256 ^ 4 ∧ lenBytes = (lengthField payloadLen).length
          ∧ lengthField payloadLen <+: data)
      ∧ (field = .incomplete ↔ CutShort data ∨ ZeroLed data)
      ∧ ∀ payloadLen lenBytes, field = .complete payloadLen lenBytes
        → (checkedAdd 1 lenBytes).bind (checkedAdd · payloadLen)
          = some (1 + lenBytes + payloadLen) := by
  refine ⟨_, parseBerLength_eq data, fun _ _ => berLength_eq_complete, berLength_eq_incomplete,
    fun _ _ => berLength_total⟩

/-- The second octet of a shortest form is not zero. -/
theorem parseBerLength_zeroLed
    : parseBerLength [0x82, 0] = .done .incomplete ∧ ¬ CutShort [0x82, 0] := by
  refine ⟨rfl, ?_⟩
  rintro ⟨len, rest, -, -, shape⟩
  rw [lengthField] at shape
  split at shape
  · cases (cons.inj shape).2
  · have leading := octets_leading len
    rw [← (cons.inj shape).2] at leading
    exact leading rfl

theorem ldapTotalLen_eq (buffer : Bytes)
    : ldapTotalLen buffer = .done (if buffer.head? != some 0x30 then .notLdap
          else
            match berLength buffer.tail with
            | .incomplete => .incomplete
            | .invalid => .invalid
            | .complete payloadLen lenBytes =>
              if payloadLen > maxLdapBerPayloadSize then .tooLarge
              else .complete (1 + lenBytes + payloadLen)) := by
  refine ite_eq_done (fun _ => rfl) fun isLdap => ?_
  cases buffer with
  | nil => simp at isLdap
  | cons first rest =>
    have tail : sliceFrom (first :: rest) 1 = .done rest :=
      sliceFrom_of_le (by simp)
    simp only [tail, done_bind, parseBerLength_eq, tail_cons]
    cases read : berLength rest with
    | incomplete => rfl
    | invalid => rfl
    | complete payloadLen lenBytes =>
      refine ite_eq_done (fun _ => rfl) fun _ => ?_
      simp only [berLength_total read]
      rfl

theorem extractLdapFrame_refines : Refines extractLdapFrame ldapDecision := by
  intro buffer
  simp only [follow, ldapDecision]
  refine guard_more fun enough => ?_
  simp only [ldapTotalLen_eq, done_bind]
  by_cases isLdap : buffer.head? = some 0x30
  · simp only [isLdap, bne_self_eq_false, Bool.false_eq_true, if_false]
    cases read : berLength buffer.tail with
    | incomplete =>
      have short : buffer.tail.length ≤ 4 := by
        obtain shape | ⟨first, rest, shape, missing, few⟩ := berLength_incomplete read
        · simp [shape]
        · rw [shape, length_cons]
          omega
      rw [length_tail] at short
      have within : ¬ buffer.length > maxLdapFrameSize := by
        simp only [maxLdapFrameSize, maxLdapBerPayloadSize]
        omega
      simp only [if_neg within]
      rfl
    | invalid => rfl
    | complete payloadLen lenBytes =>
      obtain ⟨-, lenSmall⟩ := berLength_complete read
      simp only
      by_cases huge : payloadLen > maxLdapBerPayloadSize
      · simp only [if_pos huge]
        rfl
      · have total : ¬ 1 + lenBytes + payloadLen > maxLdapFrameSize := by
          simp only [maxLdapFrameSize]
          omega
        simp only [if_neg huge, if_neg total]
        rw [← wait_or_complete]
        split
        · rename_i missing
          rw [if_neg (by omega)]
          rfl
        · rfl
  · have other : (buffer.head? != some 0x30) = true := by simpa using isLdap
    have nonempty : buffer.isEmpty = false := by
      cases buffer with
      | nil => simp at enough
      | cons first rest => rfl
    have immediate := extractImmediateFrame_refines buffer
    simp only [follow, immediateDecision, nonempty, Bool.false_eq_true, if_false] at immediate
    simp only [other, if_true]
    exact immediate

/-- The buffers on which LDAP framing reads a BER length: no first byte yet, or the
universal SEQUENCE tag.
-/
def StartsLdapMessage (buffer : Bytes) : Prop :=
  ∀ first ∈ buffer.head?, first = 0x30

theorem ldapDecision_settled (front back : Bytes) (tagged : StartsLdapMessage (front ++ back))
    : ldapDecision front = .more ∨ ldapDecision (front ++ back) = ldapDecision front := by
  rcases front with _ | ⟨first, _ | ⟨second, rest⟩⟩
  · exact .inl rfl
  · exact .inl rfl
  · have tag : first = 0x30 := tagged first rfl
    subst tag
    simp only [ldapDecision, cons_append, length_cons, head?_cons, tail_cons,
      bne_self_eq_false, Bool.false_eq_true, if_false]
    rw [if_neg (by omega), if_neg (by omega)]
    cases read : berLength (second :: rest) with
    | incomplete => exact .inl rfl
    | invalid | complete payloadLen lenBytes =>
      right
      rw [← cons_append, berLength_append back (by simp [read]), read]

/-! No header asks for an empty frame. -/

theorem mqttLengthDecision_positive {first packetType rounds i multiplier remainingLen length data}
    (asked
      : mqttLengthDecision first packetType rounds i multiplier remainingLen data = .take length)
    : 0 < length := by
  induction rounds generalizing i multiplier remainingLen data with
  | zero => cases asked
  | succ rounds ih =>
    cases data with
    | nil => cases asked
    | cons byte rest =>
      have grouped := take_of_guard asked
      split at grouped
      · cases take_of_guard (take_of_guard (take_of_guard grouped))
        omega
      · exact ih grouped

theorem mqttDecision_positive : Positive mqttDecision := by
  intro buffer length asked
  rcases buffer with _ | ⟨first, _ | ⟨second, tail⟩⟩
  iterate 2 cases asked
  exact mqttLengthDecision_positive (take_of_guard asked)

theorem ldapDecision_positive : Positive ldapDecision := by
  intro buffer length asked
  simp only [ldapDecision] at asked
  split at asked
  · cases asked
  split at asked
  · cases asked
    omega
  cases read : berLength buffer.tail with
  | incomplete | invalid => rw [read] at asked; cases asked
  | complete payloadLen lenBytes =>
    rw [read] at asked
    cases take_of_guard asked
    omega

end NetTrap.TcpFraming
