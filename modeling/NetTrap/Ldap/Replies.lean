import NetTrap.Ldap.Safety

/-! The replies of the LDAP handler, and the requests that they answer. -/

namespace NetTrap.Ldap

open Access Rust Ber Exec List Option

theorem ofNat_eq_zero_iff (value : Nat) : UInt8.ofNat value = 0 ↔ value % 256 = 0 := by
  rw [← UInt8.toNat_inj, UInt8.toNat_ofNat']
  rfl

/-- The length fields that the handler writes are the shortest ones. -/
theorem encodeBerLength_eq {len} (small : len < 2 ^ 32)
    : encodeBerLength len = some (lengthField len) := by
  have long {first digits} (large : ¬ len < 128) (count : first = .ofNat (128 + digits.length))
      (value : bigEndian digits = len) (leading : digits.head? ≠ some 0)
      : some (first :: digits) = some (lengthField len) := by
    rw [lengthField, if_neg large, ← value, octets_bigEndian leading, count]
  unfold encodeBerLength
  split_ifs with short
  · rw [lengthField, if_pos short]
  all_goals refine long short rfl ?_ ?_
  all_goals simp [toBeBytes, bigEndian, shift_or, ofNat_eq_zero_iff]
  all_goals omega

theorem encodeMessageId_eq {msgId} (positive : 1 ≤ msgId) (small : msgId ≤ i32Max)
    : ∃ id, encodeMessageId msgId = tlv 0x02 id ∧ parseMessageIdValue id = some msgId := by
  have parsed {id} (canonical : isCanonicalNonNegativeInteger id = true)
      (value : bigEndian id = msgId) : parseMessageIdValue id = some msgId := by
    have number : id.foldl (fun msgId byte => (msgId <<< 8) ||| byte.toNat) 0 = msgId := value
    have valid : ¬ (msgId = 0 ∨ msgId > i32Max) := by omega
    simp [parseMessageIdValue, canonical, number, valid]
  unfold i32Max at small
  refine ⟨(encodeMessageId msgId).drop 2, ?_⟩
  unfold encodeMessageId
  dsimp only
  -- one case for each number of octets, with and without a zero in front
  split_ifs
  all_goals refine ⟨rfl, parsed ?_ ?_⟩
  all_goals simp [isCanonicalNonNegativeInteger, toBeBytes, bigEndian, shift_or, bne,
    highBit_eq_zero, ofNat_eq_zero_iff]
  all_goals omega

/-- Where a message can be read, the handler's parser finds its identifier. -/
theorem parseMessageId_of_readMessage {data msgId op body tail}
    (read : readMessage data = some (msgId, op, body, tail))
    : ∃ pos, parseMessageId data = .done (some (msgId, pos, data.length)) := by
  rcases parseMessageId_finds data with
    ⟨_, none⟩ | ⟨_, ⟨_, rest, more⟩, found, head, pos, seqEnd, rfl, _, _, last⟩
  · simp [readMessage, none] at read
  · simp only [readMessage, head, bind_some, ite_none_left_eq_some, bind_eq_some_iff,
      map_eq_some_iff] at read
    obtain ⟨whole, op, -, _, -, same⟩ := read
    cases same
    rw [last.mpr (not_not.mp whole)] at found
    exact ⟨pos, found⟩

/-- The fields of a successful result. -/
def resultFields (matched : Bytes) : Bytes :=
  Ber.tlv 0x0a [0] ++ (Ber.tlv 0x04 matched ++ Ber.tlv 0x04 [])

/-- One whole message with this identifier that carries a result, and nothing behind it. -/
structure IsReply (msgId : Nat) (reply : Bytes) : Prop where
  layout : ∃ id op matched,
    reply = Ber.tlv 0x30 (Ber.tlv 0x02 id ++ Ber.tlv op (resultFields matched))
  correlated : ∃ pos, parseMessageId reply = .done (some (msgId, pos, reply.length))

theorem length_resultFields {matched} (short : matched.length ≤ maxLdapMatchedDnBytes)
    : (resultFields matched).length ≤ 5000 := by
  unfold maxLdapMatchedDnBytes at short
  have field := @length_tlv_le 0x04 matched (by omega)
  simp only [resultFields, length_append]
  have fixed : (tlv 0x0a [0]).length = 3 ∧ (tlv 0x04 []).length = 2 := by decide
  omega

section Replies

variable {msgId : Nat} (positive : 1 ≤ msgId) (small : msgId ≤ i32Max)
include positive small

theorem wrapLdapMessage_isReply {matched} (short : matched.length ≤ maxLdapMatchedDnBytes)
    (op : UInt8) : IsReply msgId (wrapLdapMessage msgId (tlv op (resultFields matched))) := by
  obtain ⟨id, encoded, parsed⟩ := encodeMessageId_eq positive small
  have idShort := parseMessageIdValue_length parsed
  have bound : maxBerLength = 16777216 := rfl
  have inner : (tlv 0x02 id ++ tlv op (resultFields matched)).length ≤ maxBerLength := by
    have fields := length_resultFields short
    have idSize := @length_tlv_le 0x02 id (by omega)
    have opSize := @length_tlv_le op (resultFields matched) (by omega)
    rw [length_append]
    omega
  have whole : wrapLdapMessage msgId (tlv op (resultFields matched))
      = tlv 0x30 (tlv 0x02 id ++ tlv op (resultFields matched)) := by
    rw [wrapLdapMessage, encoded, ← length_append, encodeBerLength_eq (by omega)]
    exact append_assoc _ _ _
  have read : readMessage (wrapLdapMessage msgId (tlv op (resultFields matched)))
      = some (msgId, op, resultFields matched, []) := by
    rw [readMessage_eq_some, append_nil]
    exact ⟨id, parsed, whole, inner⟩
  exact ⟨⟨id, op, matched, whole⟩, parseMessageId_of_readMessage read⟩

theorem buildBindResponse_isReply : IsReply msgId (buildBindResponse msgId) := by
  have none : ([] : Bytes).length ≤ maxLdapMatchedDnBytes := Nat.zero_le _
  exact wrapLdapMessage_isReply positive small none 0x61

theorem buildSearchResultDone_isReply {baseDn} (nonempty : buildSearchResultDone baseDn msgId ≠ [])
    : IsReply msgId (buildSearchResultDone baseDn msgId) := by
  rw [buildSearchResultDone] at nonempty ⊢
  split_ifs at nonempty ⊢ with long
  · exact absurd rfl nonempty
  have short : baseDn.length ≤ maxLdapMatchedDnBytes := Nat.le_of_not_lt long
  have fields := length_resultFields short
  have written : [0x0A, 0x01, 0x00] ++ [0x04] ++ lengthField baseDn.length ++ baseDn ++ [0x04, 0x00]
      = resultFields baseDn := by
    simp [resultFields, tlv, lengthField]
  unfold maxLdapMatchedDnBytes at short
  simp only [encodeBerLength_eq (show baseDn.length < 2 ^ 32 by omega), written,
    encodeBerLength_eq (show (resultFields baseDn).length < 2 ^ 32 by omega)] at nonempty ⊢
  split_ifs at nonempty ⊢
  · exact absurd rfl nonempty
  · exact wrapLdapMessage_isReply positive small (Nat.le_of_not_lt long) 0x65

end Replies

/-- What an operation is answered with. -/
theorem handleOperation_reply {baseDn data msgId opOffset opEnd reply}
    (answered : handleOperation baseDn data msgId opOffset opEnd = .done reply)
    : reply = [] ∨ reply = buildBindResponse msgId
      ∨ reply = buildSearchResultDone baseDn msgId := by
  rw [handleOperation] at answered
  obtain ⟨op, _, answered⟩ := bind_eq_done answered
  split_ifs at answered
  · obtain ⟨valid, _, answered⟩ := bind_eq_done answered
    split_ifs at answered
    · cases answered
      exact .inl rfl
    · obtain ⟨dn, _, answered⟩ := bind_eq_done answered
      cases answered
      exact .inr (.inl rfl)
  · obtain ⟨valid, _, answered⟩ := bind_eq_done answered
    split_ifs at answered
    · cases answered
      exact .inl rfl
    · cases answered
      exact .inr (.inr rfl)
  · cases answered
    exact .inl rfl

theorem parseMessageIdValue_range {id msgId} (parsed : parseMessageIdValue id = some msgId)
    : 1 ≤ msgId ∧ msgId ≤ i32Max := by
  grind [parseMessageIdValue]

/-- Every reply is one whole message with the identifier of its request, the builders keep every
identifier there is, and the length fields are read back. -/
theorem ldap_replies_correlated (baseDn : Bytes)
    : (∀ data reply, handle baseDn data = .done reply → reply ≠ []
        → ∃ msgId pos, parseMessageId data = .done (some (msgId, pos, data.length))
          ∧ IsReply msgId reply)
      ∧ (∀ msgId, 1 ≤ msgId → msgId ≤ i32Max → IsReply msgId (buildBindResponse msgId)
        ∧ (buildSearchResultDone baseDn msgId ≠ []
          → IsReply msgId (buildSearchResultDone baseDn msgId)))
      ∧ ∀ len rest, len ≤ maxBerLength → ∃ field, encodeBerLength len = some field
        ∧ parseBerLength (field ++ rest) = .done (some (len, field.length)) := by
  refine ⟨?_, ?_, ?_⟩
  · intro data reply handled nonempty
    rcases handle_cases baseDn data with
      ⟨empty, -⟩ | ⟨msgId, op, body, tail, opOffset, opEnd, same, read, -, -⟩
    · rw [empty] at handled
      cases handled
      exact absurd rfl nonempty
    · obtain ⟨id, parsed, -, -⟩ := readMessage_eq_some.mp read
      obtain ⟨positive, small⟩ := parseMessageIdValue_range parsed
      obtain ⟨pos, found⟩ := parseMessageId_of_readMessage read
      refine ⟨msgId, pos, found, ?_⟩
      rw [same] at handled
      rcases handleOperation_reply handled with rfl | rfl | rfl
      · exact absurd rfl nonempty
      · exact buildBindResponse_isReply positive small
      · exact buildSearchResultDone_isReply positive small nonempty
  · intro msgId positive small
    exact ⟨buildBindResponse_isReply positive small, buildSearchResultDone_isReply positive small⟩
  · intro len rest small
    have bound : maxBerLength = 16777216 := rfl
    refine ⟨Ber.lengthField len, encodeBerLength_eq (by omega), ?_⟩
    rw [parseBerLength_reads, Ber.readLength_lengthField (by omega), Option.bind_some, if_pos small]

theorem ldap_replies_correlated_last : IsReply i32Max (buildBindResponse i32Max) :=
  ((ldap_replies_correlated []).2.1 i32Max (by decide) (Nat.le_refl _)).1

end NetTrap.Ldap
