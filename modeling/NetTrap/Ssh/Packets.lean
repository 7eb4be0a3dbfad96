import NetTrap.TcpFraming.LengthPrefixed

/-! SSH binary packets, as the handler builds them and the framer takes them. -/

namespace NetTrap.Ssh

open Rust TcpFraming

def sshPacketAlignment : Nat := 8

def paddingLen (payload : Bytes) : Nat :=
  let unpadded := payload.length + 1
  let padding := (sshPacketAlignment - unpadded % sshPacketAlignment) % sshPacketAlignment
  if padding < 4 then padding + sshPacketAlignment else padding

/-- `u32::to_be_bytes`. -/
def u32ToBeBytes (value : Nat) : Bytes :=
  [.ofNat (value / 2 ^ 24), .ofNat (value / 2 ^ 16), .ofNat (value / 2 ^ 8), .ofNat value]

/-- The random source is the stream of bytes that it fills the padding with. -/
def buildSshPacketWithRng (payload : Bytes) (rng : Nat → UInt8) : Bytes :=
  let padding := paddingLen payload
  let totalLen := 1 + payload.length + padding
  if 2 ^ 32 ≤ totalLen then []
  else if 2 ^ 8 ≤ padding then []
  else u32ToBeBytes totalLen ++ .ofNat padding :: payload ++ (List.range padding).map rng

/-- The packet has exact length fields, enough padding and this payload between them, and the framer
takes it off every buffer that starts with it. -/
def Carries (payload packet : Bytes) : Prop :=
  ∃ b0 b1 b2 b3 padding body,
    packet = b0 :: b1 :: b2 :: b3 :: padding :: body
    ∧ u32FromBeBytes b0 b1 b2 b3 = body.length + 1
    ∧ 4 ≤ padding.toNat ∧ padding.toNat ≤ 255
    ∧ body.take (u32FromBeBytes b0 b1 b2 b3 - padding.toNat - 1) = payload
    ∧ (packet.length ≤ maxSshPacketSize
      → ∀ rest, extractSshPayloadFrame (packet ++ rest) = .done (.complete packet, rest))

/-- A whole number of blocks besides, with the length field counted. -/
def Conforms (payload packet : Bytes) : Prop :=
  packet.length % sshPacketAlignment = 0 ∧ Carries payload packet

theorem paddingLen_spec (payload : Bytes)
    : 4 ≤ paddingLen payload ∧ paddingLen payload < 12
      ∧ (1 + payload.length + paddingLen payload) % 8 = 0 := by
  unfold paddingLen sshPacketAlignment
  by_cases small : (8 - (payload.length + 1) % 8) % 8 < 4
  · rw [if_pos small]
    omega
  · rw [if_neg small]
    omega

theorem u32FromBeBytes_u32ToBeBytes {value} (small : value < 2 ^ 32)
    : u32FromBeBytes (.ofNat (value / 2 ^ 24)) (.ofNat (value / 2 ^ 16)) (.ofNat (value / 2 ^ 8))
        (.ofNat value) = value := by
  simp [u32FromBeBytes]
  omega

/-- A packet within the framer's limit is taken whole. Witness: its length field is exact. -/
theorem extractSshPayloadFrame_packet {b0 b1 b2 b3 padding : UInt8} {body : Bytes}
    (said : u32FromBeBytes b0 b1 b2 b3 = body.length + 1) (padded : 4 ≤ body.length)
    (limited : body.length + 5 ≤ maxSshPacketSize) (rest : Bytes)
    : extractSshPayloadFrame (b0 :: b1 :: b2 :: b3 :: padding :: body ++ rest)
      = .done (.complete (b0 :: b1 :: b2 :: b3 :: padding :: body), rest) := by
  have judged : sshPayloadDecision (b0 :: b1 :: b2 :: b3 :: padding :: body ++ rest)
      = .take (body.length + 5) := by
    simp only [List.cons_append, sshPayloadDecision, said]
    rw [if_neg (by omega), if_neg (by omega)]
    congr 1
    omega
  rw [extractSshPayloadFrame_refines, Framing.follow, judged, outcome_take_of_le (by simp)]
  simp

/-- Every packet carries its payload, and none conforms: the padding aligns what follows the length
field, so the packet is four bytes over a whole number of blocks. -/
theorem buildSshPacketWithRng_misaligned (payload : Bytes) (rng : Nat → UInt8)
    (fits : 1 + payload.length + paddingLen payload < 2 ^ 32)
    : Carries payload (buildSshPacketWithRng payload rng)
      ∧ (buildSshPacketWithRng payload rng).length % sshPacketAlignment = 4
      ∧ ¬ Conforms payload (buildSshPacketWithRng payload rng) := by
  obtain ⟨enough, short, aligned⟩ := paddingLen_spec payload
  have built : buildSshPacketWithRng payload rng
      = u32ToBeBytes (1 + payload.length + paddingLen payload)
        ++ .ofNat (paddingLen payload) :: payload ++ (List.range (paddingLen payload)).map rng := by
    rw [buildSshPacketWithRng, if_neg (by omega), if_neg (by omega)]
  have total : (buildSshPacketWithRng payload rng).length % sshPacketAlignment = 4 := by
    simp [built, u32ToBeBytes, sshPacketAlignment]
    omega
  have apart : ¬ Conforms payload (buildSshPacketWithRng payload rng) := by
    rintro ⟨whole, _⟩
    omega
  refine ⟨?_, total, apart⟩
  have padding : (UInt8.ofNat (paddingLen payload)).toNat = paddingLen payload := by
    simp
    omega
  have length : (payload ++ (List.range (paddingLen payload)).map rng).length + 1
      = 1 + payload.length + paddingLen payload := by
    simp
    omega
  have field := u32FromBeBytes_u32ToBeBytes fits
  refine ⟨_, _, _, _, _, _, built, field.trans length.symm, by omega, by omega, ?_, ?_⟩
  · rw [field, padding]
    exact List.take_left' (by omega)
  · intro limited rest
    rw [built] at limited ⊢
    exact extractSshPayloadFrame_packet (field.trans length.symm) (by omega) limited rest

theorem buildSshPacketWithRng_newKeys : Carries [21] (buildSshPacketWithRng [21] fun _ => 0) :=
  (buildSshPacketWithRng_misaligned [21] _ (by decide)).1

/-- The packet of `SSH_MSG_NEWKEYS` has twelve bytes. -/
theorem buildSshPacketWithRng_not_conforms
    : ¬ Conforms [21] (buildSshPacketWithRng [21] fun _ => 0) := by
  rintro ⟨whole, _⟩
  exact absurd whole (by decide)

end NetTrap.Ssh
