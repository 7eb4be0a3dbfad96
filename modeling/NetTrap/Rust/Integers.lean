import Mathlib.Data.List.Basic
import Mathlib.Data.Nat.Bitwise

/-! Fixed-width integers as the source reads them from bytes.
A `usize` is a natural number below `2^64`; only its checked operations can fail, since
every other sum in the modelled code is bounded by a buffer length or a small constant.
-/

namespace NetTrap.Rust

/-- A byte string: `Vec<u8>` or `&[u8]`. -/
abbrev Bytes := List UInt8

def usizeMax : Nat := 2 ^ 64 - 1

/-- `usize::checked_add`. -/
def checkedAdd (left right : Nat) : Option Nat :=
  if left + right ≤ usizeMax then some (left + right) else none

/-- `usize::checked_mul`. -/
def checkedMul (left right : Nat) : Option Nat :=
  if left * right ≤ usizeMax then some (left * right) else none

variable {left right : Nat}

theorem checkedAdd_of_le (fits : left + right ≤ usizeMax)
    : checkedAdd left right = some (left + right) :=
  if_pos fits

theorem checkedAdd_of_lt (overflows : usizeMax < left + right) : checkedAdd left right = none :=
  if_neg (by omega)

theorem checkedAdd_eq {sum : Nat} (added : checkedAdd left right = some sum)
    : sum = left + right := by
  simp only [checkedAdd] at added
  split at added
  · exact (Option.some.inj added).symm
  · cases added

theorem checkedMul_of_le (fits : left * right ≤ usizeMax)
    : checkedMul left right = some (left * right) :=
  if_pos fits

/-- `u16::from_be_bytes`, widened. -/
def u16FromBeBytes (high low : UInt8) : Nat :=
  high.toNat * 256 + low.toNat

/-- `u32::from_be_bytes`, widened. -/
def u32FromBeBytes (b0 b1 b2 b3 : UInt8) : Nat :=
  ((b0.toNat * 256 + b1.toNat) * 256 + b2.toNat) * 256 + b3.toNat

theorem u16FromBeBytes_lt (high low : UInt8) : u16FromBeBytes high low < 2 ^ 16 := by
  have := high.toNat_lt
  have := low.toNat_lt
  simp only [u16FromBeBytes]
  omega

theorem u32FromBeBytes_lt (b0 b1 b2 b3 : UInt8) : u32FromBeBytes b0 b1 b2 b3 < 2 ^ 32 := by
  have := b0.toNat_lt
  have := b1.toNat_lt
  have := b2.toNat_lt
  have := b3.toNat_lt
  simp only [u32FromBeBytes]
  omega

/-- The low `8 * k` bits and a shifted high part combine by addition. -/
theorem or_shiftLeft_eq_add {low : Nat} (high : Nat) {shift : Nat} (small : low < 2 ^ shift)
    : low ||| (high <<< shift) = low + high * 2 ^ shift := by
  rw [Nat.or_comm, ← Nat.shiftLeft_add_eq_or_of_lt small, Nat.shiftLeft_eq, Nat.add_comm]

end NetTrap.Rust
