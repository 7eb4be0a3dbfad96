import Mathlib.Data.List.Induction
import Mathlib.Data.Nat.Bitwise

/-! Tag, length and value: the definite-length encoding of BER, with length fields in their
shortest form. Reading is the inverse of writing, up to the four octets a length may have.
-/

namespace Ber

open List Option

/-! Octets of a number. -/

/-- Base-256 digits, most significant first. -/
def bigEndian (bytes : List UInt8) : Nat :=
  bytes.foldl (fun value byte => (value <<< 8) ||| byte.toNat) 0

def octetsUpTo : (fuel value : Nat) → List UInt8
  | 0, _ => []
  | fuel + 1, value =>
    if value = 0 then [] else octetsUpTo fuel (value / 256) ++ [UInt8.ofNat (value % 256)]

/-- The digits of a number, without leading zeroes. -/
def octets (value : Nat) : List UInt8 :=
  octetsUpTo value value

theorem octetsUpTo_eq {fuel more value} (enough : value ≤ fuel) (also : value ≤ more)
    : octetsUpTo fuel value = octetsUpTo more value := by
  induction fuel generalizing more value with
  | zero =>
    cases more with
    | zero => rfl
    | succ more => rw [octetsUpTo, octetsUpTo, if_pos (by omega)]
  | succ fuel ih =>
    cases more with
    | zero => rw [octetsUpTo, octetsUpTo, if_pos (by omega)]
    | succ more =>
      rw [octetsUpTo, octetsUpTo]
      split
      · rfl
      · next positive =>
        have front : value / 256 ≤ fuel := by omega
        have alsoFront : value / 256 ≤ more := by omega
        rw [ih front alsoFront]

theorem octets_zero : octets 0 = [] :=
  rfl

theorem octets_of_pos {value} (positive : 0 < value)
    : octets value = octets (value / 256) ++ [UInt8.ofNat (value % 256)] := by
  obtain ⟨fuel, rfl⟩ : ∃ fuel, value = fuel + 1 := ⟨value - 1, by omega⟩
  rw [octets, octetsUpTo, if_neg (by omega), octets,
    octetsUpTo_eq (show (fuel + 1) / 256 ≤ fuel by omega) le_rfl]

theorem shift_or (value : Nat) (byte : UInt8)
    : (value <<< 8) ||| byte.toNat = value * 256 + byte.toNat := by
  rw [Nat.shiftLeft_eq, Nat.mul_comm, ← Nat.two_pow_add_eq_or_of_lt (UInt8.toNat_lt byte)]

theorem bigEndian_concat (bytes : List UInt8) (byte : UInt8)
    : bigEndian (bytes ++ [byte]) = bigEndian bytes * 256 + byte.toNat := by
  rw [bigEndian, foldl_append, foldl_cons, foldl_nil, shift_or]
  rfl

theorem bigEndian_octets (value : Nat) : bigEndian (octets value) = value := by
  induction value using Nat.strong_induction_on with
  | _ value ih =>
    rcases Nat.eq_zero_or_pos value with rfl | positive
    · rfl
    · rw [octets_of_pos positive, bigEndian_concat, ih _ (Nat.div_lt_self positive (by decide)),
        UInt8.toNat_ofNat']
      omega

theorem bigEndian_lt (bytes : List UInt8) : bigEndian bytes < 256 ^ bytes.length := by
  induction bytes using reverseRecOn with
  | nil => decide
  | append_singleton bytes byte ih =>
    have small := UInt8.toNat_lt byte
    simp [bigEndian_concat]
    omega

theorem bigEndian_pos {bytes first} (head : bytes.head? = some first) (nonzero : first ≠ 0)
    : 0 < bigEndian bytes := by
  induction bytes using reverseRecOn with
  | nil => cases head
  | append_singleton bytes byte ih =>
    rw [bigEndian_concat]
    cases bytes with
    | nil =>
      have same : byte = first := some.inj head
      have positive : byte.toNat ≠ 0 := by
        intro zero
        exact nonzero (same ▸ UInt8.toNat_inj.mp zero)
      omega
    | cons other rest =>
      have positive := ih head
      omega

/-- Digits without a leading zero are those of their number. -/
theorem octets_bigEndian {bytes} (leading : bytes.head? ≠ some 0)
    : octets (bigEndian bytes) = bytes := by
  induction bytes using reverseRecOn with
  | nil => rfl
  | append_singleton bytes byte ih =>
    have last : UInt8.ofNat ((bigEndian bytes * 256 + byte.toNat) % 256) = byte := by
      rw [Nat.mul_add_mod_self_right, Nat.mod_eq_of_lt (UInt8.toNat_lt byte)]
      exact UInt8.ofNat_toNat
    have front : (bigEndian bytes * 256 + byte.toNat) / 256 = bigEndian bytes := by
      have := UInt8.toNat_lt byte
      omega
    have positive : 0 < bigEndian (bytes ++ [byte]) := by
      obtain ⟨first, tail, shape⟩ := exists_cons_of_ne_nil
        (append_ne_nil_of_right_ne_nil bytes (cons_ne_nil byte []))
      rw [shape] at leading ⊢
      exact bigEndian_pos rfl fun zero => leading (congrArg some zero)
    rw [octets_of_pos positive, bigEndian_concat, last, front, ih]
    cases bytes with
    | nil => exact nofun
    | cons other rest => exact leading

/-- Dropping the leading zeroes of a positive number leaves its digits. -/
theorem octets_bigEndian_drop {bytes} (positive : bigEndian bytes ≠ 0) (fallback : Nat)
    : octets (bigEndian bytes) = bytes.drop ((bytes.findIdx? (· != 0)).getD fallback) := by
  induction bytes generalizing fallback with
  | nil => exact absurd rfl positive
  | cons first rest ih =>
    by_cases zero : first = 0
    · subst zero
      have same : bigEndian (0 :: rest) = bigEndian rest := rfl
      rw [same] at positive ⊢
      have tail := ih positive
      cases found : rest.findIdx? (· != 0) with
      | some index =>
        rw [tail 0, found, findIdx?_cons]
        simp [found]
      | none =>
        -- without a nonzero digit the number would be zero
        have empty := tail rest.length
        rw [found, getD_none, drop_length] at empty
        have value := bigEndian_octets (bigEndian rest)
        rw [empty] at value
        exact absurd value.symm positive
    · have found : (first :: rest).findIdx? (· != 0) = some 0 := by
        rw [findIdx?_cons]
        simp [zero]
      rw [found, getD_some, drop_zero]
      exact octets_bigEndian fun leading => zero (some.inj leading)

theorem length_octets_le {value count} (small : value < 256 ^ count)
    : (octets value).length ≤ count := by
  induction count generalizing value with
  | zero =>
    obtain rfl : value = 0 := by simpa using small
    exact Nat.le_refl 0
  | succ count ih =>
    rcases Nat.eq_zero_or_pos value with rfl | positive
    · exact Nat.zero_le _
    · have shorter := ih (show value / 256 < 256 ^ count by
        rw [Nat.div_lt_iff_lt_mul (by decide), ← Nat.pow_succ]
        exact small)
      simp [octets_of_pos positive]
      omega

theorem octets_leading (value : Nat) : (octets value).head? ≠ some 0 := by
  induction value using Nat.strong_induction_on with
  | _ value ih =>
    rcases Nat.eq_zero_or_pos value with rfl | positive
    · exact nofun
    · have front := ih (value / 256) (Nat.div_lt_self positive (by decide))
      rw [octets_of_pos positive]
      rcases Nat.eq_zero_or_pos (value / 256) with zero | more
      · rw [zero, octets_zero, nil_append, head?_cons]
        intro same
        have : value % 256 = 0 := by
          have := congrArg UInt8.toNat (some.inj same)
          rw [UInt8.toNat_ofNat'] at this
          simpa using this
        omega
      · rw [octets_of_pos more, append_assoc] at *
        rw [head?_append] at front ⊢
        cases shape : (octets (value / 256 / 256)).head? with
        | some first | none => simpa [shape] using front

/-! Lengths and elements. -/

/-- A length field, in the short form if it fits. -/
def lengthField (length : Nat) : List UInt8 :=
  if length < 128 then [UInt8.ofNat length]
  else UInt8.ofNat (128 + (octets length).length) :: octets length

def tlv (tag : UInt8) (value : List UInt8) : List UInt8 :=
  tag :: lengthField value.length ++ value

/-- The length field at the front of `bytes`, and what follows it. -/
def readLength : (bytes : List UInt8) → Option (Nat × List UInt8)
  | [] => none
  | first :: rest =>
    let count := first.toNat - 128
    if first.toNat < 128 then some (first.toNat, rest)
    else if count = 0 ∨ 4 < count ∨ rest.length < count then none
    else if (rest.take count).head? = some 0 ∨ bigEndian (rest.take count) < 128 then none
    else some (bigEndian (rest.take count), rest.drop count)

/-- The value whose length field is at the front of `bytes`, and what follows the value. -/
def readValue (bound : Nat) (bytes : List UInt8) : Option (List UInt8 × List UInt8) :=
  match readLength bytes with
  | some (length, body) =>
    if length ≤ bound ∧ length ≤ body.length then some (body.take length, body.drop length)
    else none
  | none => none

/-- The value of the element at the front of `bytes`, and what follows the element. -/
def readTlv (bound : Nat) (tag : UInt8) : (bytes : List UInt8) → Option (List UInt8 × List UInt8)
  | [] => none
  | first :: rest => if first = tag then readValue bound rest else none

section Reading

variable {bytes rest value : List UInt8} {length : Nat} {tag : UInt8}

theorem readLength_lengthField (small : length < 256 ^ 4) (rest : List UInt8)
    : readLength (lengthField length ++ rest) = some (length, rest) := by
  rw [lengthField]
  by_cases short : length < 128
  · have same : (UInt8.ofNat length).toNat = length := by
      rw [UInt8.toNat_ofNat']
      omega
    simp [if_pos short, readLength, same]
  · have few := length_octets_le small
    have value := bigEndian_octets length
    have some_octets : 0 < (octets length).length := by
      rw [octets_of_pos (by omega), length_append, length_singleton]
      omega
    have same : (UInt8.ofNat (128 + (octets length).length)).toNat
        = 128 + (octets length).length := by
      rw [UInt8.toNat_ofNat']
      omega
    have front : ¬ 128 + (octets length).length < 128 := by omega
    simp only [if_neg short, cons_append, readLength, same, if_neg front,
      Nat.add_sub_cancel_left, take_left, drop_left, value]
    rw [if_neg, if_neg]
    · rintro (leading | low)
      · exact octets_leading length leading
      · exact short low
    · rw [length_append]
      omega

theorem eq_of_readLength (read : readLength bytes = some (length, rest))
    : bytes = lengthField length ++ rest ∧ length < 256 ^ 4 := by
  cases bytes with
  | nil => cases read
  | cons first bytes =>
    have bound := UInt8.toNat_lt first
    simp only [readLength] at read
    split at read
    · next short =>
      cases read
      refine ⟨?_, by omega⟩
      rw [lengthField, if_pos short, UInt8.ofNat_toNat]
      rfl
    split at read
    · cases read
    split at read
    · cases read
    next long counted valid =>
    obtain ⟨rfl, rfl⟩ := Prod.mk.inj (some.inj read)
    have enough : first.toNat - 128 ≤ bytes.length := by omega
    have digits : octets (bigEndian (bytes.take (first.toNat - 128)))
        = bytes.take (first.toNat - 128) :=
      octets_bigEndian fun leading => valid (.inl leading)
    have size : (bytes.take (first.toNat - 128)).length = first.toNat - 128 :=
      length_take_of_le enough
    refine ⟨?_, ?_⟩
    · rw [lengthField, if_neg (by omega), digits, size,
        show 128 + (first.toNat - 128) = first.toNat by omega, UInt8.ofNat_toNat,
        cons_append, take_append_drop]
    · calc bigEndian (bytes.take (first.toNat - 128))
          < 256 ^ (bytes.take (first.toNat - 128)).length := bigEndian_lt _
        _ ≤ 256 ^ 4 := Nat.pow_le_pow_right (by decide) (by omega)

theorem readLength_eq_some
    : readLength bytes = some (length, rest)
      ↔ bytes = lengthField length ++ rest ∧ length < 256 ^ 4 := by
  constructor
  · exact eq_of_readLength
  · rintro ⟨rfl, small⟩
    exact readLength_lengthField small rest

variable {bound : Nat}

section

variable (small : bound < 256 ^ 4)
include small

theorem readValue_eq_some
    : readValue bound bytes = some (value, rest)
      ↔ bytes = lengthField value.length ++ (value ++ rest) ∧ value.length ≤ bound := by
  constructor
  · intro read
    rw [readValue] at read
    split at read
    · next length body field =>
      split at read
      · next fits =>
        obtain ⟨rfl, rfl⟩ := Prod.mk.inj (some.inj read)
        obtain ⟨rfl, -⟩ := readLength_eq_some.mp field
        rw [length_take_of_le fits.2, take_append_drop]
        exact ⟨rfl, fits.1⟩
      · cases read
    · cases read
  · rintro ⟨rfl, short⟩
    have field := readLength_lengthField (short.trans_lt small) (value ++ rest)
    simp only [readValue, field]
    rw [if_pos ⟨short, by rw [length_append]; omega⟩, take_left, drop_left]

/-- Reading an element is the inverse of writing it. -/
theorem readTlv_eq_some
    : readTlv bound tag bytes = some (value, rest)
      ↔ bytes = tlv tag value ++ rest ∧ value.length ≤ bound := by
  cases bytes with
  | nil =>
    rw [tlv]
    exact ⟨nofun, nofun⟩
  | cons first bytes =>
    rw [readTlv, tlv, cons_append, cons_append, append_assoc, cons.injEq]
    by_cases tagged : first = tag
    · rw [if_pos tagged, readValue_eq_some small]
      exact ⟨fun ⟨shape, short⟩ => ⟨⟨tagged, shape⟩, short⟩,
        fun ⟨⟨_, shape⟩, short⟩ => ⟨shape, short⟩⟩
    · rw [if_neg tagged]
      exact ⟨nofun, fun ⟨⟨same, _⟩, _⟩ => absurd same tagged⟩

theorem readTlv_tlv (short : value.length ≤ bound) (rest : List UInt8)
    : readTlv bound tag (tlv tag value ++ rest) = some (value, rest) :=
  (readTlv_eq_some small).mpr ⟨rfl, short⟩

theorem readTlv_last (short : value.length ≤ bound)
    : readTlv bound tag (tlv tag value) = some (value, []) :=
  (readTlv_eq_some small).mpr ⟨(append_nil _).symm, short⟩

end

end Reading

/-! Sizes. -/

theorem lengthField_ne_nil (length : Nat) : lengthField length ≠ [] := by
  rw [lengthField]
  split
  · exact cons_ne_nil _ _
  · exact cons_ne_nil _ _

theorem length_lengthField_of_short {length} (short : length < 128)
    : (lengthField length).length = 1 := by
  rw [lengthField, if_pos short, length_singleton]

theorem length_lengthField_le {length} (small : length < 256 ^ 4)
    : (lengthField length).length ≤ 5 := by
  rw [lengthField]
  split
  · exact Nat.le_add_left 1 4
  · exact Nat.succ_le_succ (length_octets_le small)

/-- The size of a length field is the part of the input that reading it takes. -/
theorem length_lengthField_of_readLength {bytes rest length}
    (read : readLength bytes = some (length, rest))
    : (lengthField length).length = bytes.length - rest.length := by
  obtain ⟨rfl, -⟩ := readLength_eq_some.mp read
  rw [length_append, Nat.add_sub_cancel_right]

theorem length_add_two_le_tlv (tag : UInt8) (value : List UInt8)
    : value.length + 2 ≤ (tlv tag value).length := by
  have field := length_pos_iff.mpr (lengthField_ne_nil value.length)
  simp [tlv]
  omega

theorem length_tlv_le {tag value} (small : value.length < 256 ^ 4)
    : (tlv tag value).length ≤ value.length + 6 := by
  have field := length_lengthField_le small
  simp [tlv]
  omega

/-! The first octet of a length field. -/

theorem forall_byte {property : UInt8 → Prop}
    (all : ∀ value : Fin 256, property (UInt8.ofNat value.val)) (byte : UInt8)
    : property byte := by
  have held := all ⟨byte.toNat, byte.toNat_lt⟩
  simpa using held

theorem highBit_eq_zero (byte : UInt8) : (byte &&& 0x80 == 0) = decide (byte.toNat < 128) := by
  revert byte
  exact forall_byte (by decide +kernel)

theorem toNat_lowBits (byte : UInt8) : (byte &&& 0x7f).toNat = byte.toNat % 128 := by
  revert byte
  exact forall_byte (by decide +kernel)

end Ber
