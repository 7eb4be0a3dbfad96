import Mathlib.Tactic.Ring
import NetTrap.Library.Ber
import NetTrap.Mqtt.Handler

/-! Integers of variable length: what the handler writes, its parsers read back. -/

namespace NetTrap.Mqtt

open Rust Ber List

theorem remainingLengthEncodedLen_pos (value : Nat) : 1 ≤ remainingLengthEncodedLen value := by
  rw [remainingLengthEncodedLen, encodedLenLoop]
  split <;> omega

/-- Groups of seven bits, least significant first; all but the last one are marked. -/
inductive Encodes : Bytes → Nat → Prop where
  | last {byte : UInt8} (unmarked : byte.toNat < 128) : Encodes [byte] byte.toNat
  | group {byte : UInt8} {code : Bytes} {value : Nat} (marked : 128 ≤ byte.toNat)
      (later : Encodes code value) : Encodes (byte :: code) (byte.toNat % 128 + 128 * value)

variable {code : Bytes} {value : Nat}

theorem Encodes.bounds (encodes : Encodes code value) : code ≠ [] ∧ value < 128 ^ code.length := by
  induction encodes with
  | last unmarked => exact ⟨cons_ne_nil _ _, by simpa using unmarked⟩
  | group marked later ih =>
    refine ⟨cons_ne_nil _ _, ?_⟩
    simp
    omega

/-- The loop that reads groups reads an encoding that is not too long for it. -/
theorem Encodes.variableIntLoop_eq (encodes : Encodes code value)
    (rounds multiplier before bytesRead : Nat) (rest : Bytes)
    : variableIntLoop rounds multiplier before bytesRead (code ++ rest)
      = if code.length ≤ rounds then
          some (before + value * multiplier, bytesRead + code.length, rest)
        else none := by
  induction encodes generalizing rounds multiplier before bytesRead with
  | @last byte unmarked =>
    cases rounds with
    | zero => rfl
    | succ rounds =>
      rw [singleton_append, variableIntLoop, length_singleton, if_pos (Nat.le_add_left 1 rounds)]
      simp only [highBit_eq_zero, unmarked, decide_true, if_true, toNat_lowBits,
        Nat.mod_eq_of_lt unmarked]
  | @group byte code value marked later ih =>
    cases rounds with
    | zero => rfl
    | succ rounds =>
      have more : ¬ (byte &&& 0x80 == 0) = true := by
        simp [highBit_eq_zero]
        omega
      simp only [cons_append, variableIntLoop, if_neg more, toNat_lowBits, ih,
        length_cons, Nat.add_le_add_iff_right]
      have sum : before + byte.toNat % 128 * multiplier + value * (multiplier * 128)
          = before + (byte.toNat % 128 + 128 * value) * multiplier := by ring
      rw [sum, Nat.add_assoc bytesRead, Nat.add_comm 1]

/-- The bits of a group that is marked because another one follows. -/
theorem markedGroup_bits (byte : UInt8)
    : 128 ≤ (byte &&& 0x7f ||| 0x80).toNat
      ∧ (byte &&& 0x7f ||| 0x80).toNat % 128 = (byte &&& 0x7f).toNat := by
  revert byte
  exact forall_byte (by decide +kernel)

theorem toNat_group (value : Nat) : (UInt8.ofNat value &&& 0x7f).toNat = value % 128 := by
  have low := toNat_lowBits (UInt8.ofNat value)
  rw [UInt8.toNat_ofNat'] at low
  omega

theorem encodes_lastGroup (small : value < 128) : Encodes [UInt8.ofNat value &&& 0x7f] value := by
  have last : (UInt8.ofNat value &&& 0x7f).toNat = value := by
    rw [toNat_group, Nat.mod_eq_of_lt small]
  have encodes := Encodes.last (last.trans_lt small)
  rwa [last] at encodes

/-- The loop that writes groups writes an encoding, of the length that is counted for it. -/
theorem encodes_remainingLengthLoop {budget : Nat} (fits : value < 128 ^ (budget + 1))
    : Encodes (remainingLengthLoop (budget + 1) value) value
      ∧ (remainingLengthLoop (budget + 1) value).length = encodedLenLoop (budget + 1) value := by
  induction budget generalizing value with
  | zero =>
    rw [remainingLengthLoop, encodedLenLoop, if_neg (by omega), if_neg (by omega)]
    exact ⟨encodes_lastGroup (by omega), rfl⟩
  | succ budget ih =>
    rw [remainingLengthLoop, encodedLenLoop]
    by_cases more : value ≥ 128
    · have shorter : value / 128 < 128 ^ (budget + 1) := by
        rw [Nat.div_lt_iff_lt_mul (by decide), ← Nat.pow_succ]
        exact fits
      obtain ⟨marked, bits⟩ := markedGroup_bits (UInt8.ofNat value)
      obtain ⟨later, length⟩ := ih shorter
      have encodes := Encodes.group marked later
      rw [bits, toNat_group, Nat.mod_add_div] at encodes
      rw [if_pos (by omega), if_pos more, length_cons, length]
      exact ⟨encodes, rfl⟩
    · rw [if_neg (by omega), if_neg more]
      exact ⟨encodes_lastGroup (by omega), rfl⟩

/-- What was written is the shortest encoding, and the only one of its length.
Witness: induction on the encoding; a last group of zero makes it longer.
-/
theorem Encodes.eq_or_longer (encodes : Encodes code value) {budget : Nat}
    (fits : value < 128 ^ (budget + 1))
    : code = remainingLengthLoop (budget + 1) value
      ∨ encodedLenLoop (budget + 1) value < code.length := by
  induction encodes generalizing budget with
  | @last byte unmarked =>
    left
    rw [remainingLengthLoop, if_neg (by omega)]
    congr 1
    rw [← UInt8.toNat_inj, toNat_group, Nat.mod_eq_of_lt unmarked]
  | @group byte code value marked later ih =>
    have nonempty := length_pos_iff.mpr later.bounds.1
    rw [remainingLengthLoop, encodedLenLoop, length_cons]
    by_cases ends : value = 0
    · right
      rw [if_neg (by omega)]
      omega
    · obtain _ | budget := budget
      · omega
      have next : (byte.toNat % 128 + 128 * value) / 128 = value := by omega
      have shorter : value < 128 ^ (budget + 1) := by
        rw [Nat.pow_succ] at fits
        omega
      rw [next, if_pos (by omega), if_pos (by omega)]
      refine (ih shorter).imp (fun written => ?_) (Nat.add_lt_add_right · 1)
      obtain ⟨high, bits⟩ := markedGroup_bits (UInt8.ofNat (byte.toNat % 128 + 128 * value))
      have upper := UInt8.toNat_lt (UInt8.ofNat (byte.toNat % 128 + 128 * value) &&& 0x7f ||| 0x80)
      have same := UInt8.toNat_lt byte
      rw [toNat_group] at bits
      rw [← written]
      congr 1
      rw [← UInt8.toNat_inj]
      omega

theorem encodes_pushRemainingLength (fits : value ≤ mqttMaxVariableByteInteger)
    : Encodes (pushRemainingLength value) value
      ∧ (pushRemainingLength value).length = remainingLengthEncodedLen value :=
  encodes_remainingLengthLoop (Nat.lt_of_le_of_lt fits (by decide))

/-- Of the encodings of at most four bytes, just the shortest one of each integer is read. -/
theorem Encodes.variableInt_eq (encodes : Encodes code value) (rest : Bytes)
    : variableInt (code ++ rest)
      = if code = pushRemainingLength value ∧ code.length ≤ 4 then some (value, code.length, rest)
        else none := by
  rw [variableInt, encodes.variableIntLoop_eq]
  by_cases short : code.length ≤ 4
  · have below : value < 128 ^ 4 :=
      Nat.lt_of_lt_of_le encodes.bounds.2 (Nat.pow_le_pow_right (by decide) short)
    have fits : value ≤ mqttMaxVariableByteInteger := Nat.le_of_lt_succ below
    simp only [if_pos short, Nat.zero_add, Nat.mul_one]
    rcases encodes.eq_or_longer (Nat.lt_of_lt_of_le below (by decide : 128 ^ 4 ≤ 128 ^ (9 + 1)))
      with written | longer
    · have length : remainingLengthEncodedLen value = code.length := by
        rw [← (encodes_pushRemainingLength fits).2, written]
        rfl
      rw [if_neg, if_pos ⟨written, short⟩]
      simp only [Bool.or_eq_true, decide_eq_true_eq, bne_iff_ne, not_or, not_not]
      exact ⟨by omega, length⟩
    · rw [if_pos, if_neg]
      · rintro ⟨written, -⟩
        rw [written, (encodes_pushRemainingLength fits).2] at longer
        exact absurd longer (Nat.lt_irrefl _)
      · simp only [Bool.or_eq_true, bne_iff_ne]
        exact .inr (Nat.ne_of_lt longer)
  · simp only [if_neg short, if_neg (fun both : _ ∧ _ => short both.2)]

theorem encodedLenLoop_le (budget : Nat) {groups : Nat} (fits : value < 128 ^ (groups + 1))
    : encodedLenLoop budget value ≤ groups + 1 := by
  induction budget generalizing groups value with
  | zero => exact Nat.le_add_left 1 groups
  | succ budget ih =>
    rw [encodedLenLoop]
    split
    next more =>
      obtain _ | groups := groups
      · omega
      have shorter : value / 128 < 128 ^ (groups + 1) := by
        rw [Nat.div_lt_iff_lt_mul (by decide), ← Nat.pow_succ]
        exact fits
      exact Nat.succ_le_succ (ih shorter)
    · exact Nat.le_add_left 1 groups

theorem variableInt_write (fits : value ≤ mqttMaxVariableByteInteger) (rest : Bytes)
    : variableInt (pushRemainingLength value ++ rest)
      = some (value, remainingLengthEncodedLen value, rest) := by
  obtain ⟨encodes, length⟩ := encodes_pushRemainingLength fits
  have short : remainingLengthEncodedLen value ≤ 4 :=
    encodedLenLoop_le 10 (Nat.lt_of_le_of_lt fits (by decide))
  rw [encodes.variableInt_eq, if_pos ⟨rfl, length.trans_le short⟩, length]

/-- Whatever the loop reads is an encoding. -/
theorem encodes_of_variableIntLoop {rounds multiplier before bytesRead total count data rest}
    (read : variableIntLoop rounds multiplier before bytesRead data = some (total, count, rest))
    : ∃ code value, Encodes code value ∧ data = code ++ rest := by
  induction rounds generalizing multiplier before bytesRead data with
  | zero => cases read
  | succ rounds ih =>
    cases data with
    | nil => cases read
    | cons byte data =>
      simp only [variableIntLoop, highBit_eq_zero, decide_eq_true_eq] at read
      split at read
      next unmarked =>
        cases read
        exact ⟨[byte], _, .last unmarked, rfl⟩
      next marked =>
        obtain ⟨code, value, encodes, rfl⟩ := ih read
        exact ⟨byte :: code, _, .group (Nat.le_of_not_lt marked) encodes, rfl⟩

theorem variableInt_eq_some {data rest count} (read : variableInt data = some (value, count, rest))
    : value ≤ mqttMaxVariableByteInteger ∧ data = pushRemainingLength value ++ rest
      ∧ count = remainingLengthEncodedLen value := by
  obtain ⟨code, number, encodes, rfl⟩ : ∃ code number,
      Encodes code number ∧ data = code ++ rest := by
    rw [variableInt] at read
    split at read
    · cases read
    next looped =>
    split at read
    · cases read
    cases read
    exact encodes_of_variableIntLoop looped
  rw [encodes.variableInt_eq] at read
  split at read
  · next shortest =>
    obtain ⟨rfl, rfl, -⟩ := read
    have below : value < 128 ^ 4 :=
      Nat.lt_of_lt_of_le encodes.bounds.2 (Nat.pow_le_pow_right (by decide) shortest.2)
    have fits : value ≤ mqttMaxVariableByteInteger := Nat.le_of_lt_succ below
    refine ⟨fits, by rw [← shortest.1], ?_⟩
    rw [shortest.1]
    exact (encodes_pushRemainingLength fits).2
  · cases read

theorem parseRemainingLength_write (first : UInt8) (fits : value ≤ mqttMaxVariableByteInteger)
    (rest : Bytes)
    : parseRemainingLength (first :: pushRemainingLength value ++ rest)
      = some (value, remainingLengthEncodedLen value + 1) := by
  have positive := remainingLengthEncodedLen_pos value
  have length := (encodes_pushRemainingLength fits).2
  rw [parseRemainingLength, if_neg, cons_append, drop_succ_cons, drop_zero,
    variableInt_write fits]
  · rfl
  · simp [length]
    omega

theorem parseRemainingLength_eq_some {data remainingLen start}
    (length : parseRemainingLength data = some (remainingLen, start))
    : remainingLen ≤ mqttMaxVariableByteInteger ∧ start = remainingLengthEncodedLen remainingLen + 1
      ∧ ∃ first rest, data = first :: pushRemainingLength remainingLen ++ rest := by
  rw [parseRemainingLength] at length
  split at length
  · cases length
  next enough =>
  obtain ⟨⟨value, bytesRead, rest⟩, read, same⟩ := Option.map_eq_some_iff.mp length
  cases same
  obtain ⟨fits, split, rfl⟩ := variableInt_eq_some read
  obtain ⟨first, tail, rfl⟩ := exists_cons_of_length_pos (by omega : 0 < data.length)
  exact ⟨fits, rfl, first, rest, congrArg (first :: ·) split⟩

/-- A packet that is written with the length of its body in front is read as that body. -/
theorem packetPayload_write (first : UInt8) {body : Bytes}
    (fits : body.length ≤ mqttMaxVariableByteInteger)
    : packetPayload (first :: pushRemainingLength body.length ++ body) = some body := by
  have length := (encodes_pushRemainingLength fits).2
  have total : remainingLengthEncodedLen body.length + 1 + body.length
      = (first :: pushRemainingLength body.length ++ body).length := by
    simp [length]
    omega
  rw [packetPayload, parseRemainingLength_write first fits]
  simp only [Option.bind_eq_bind, Option.bind_some]
  rw [if_pos total, cons_append, drop_succ_cons, ← length, drop_left]

end NetTrap.Mqtt
