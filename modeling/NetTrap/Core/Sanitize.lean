import NetTrap.Rust.Text

/-! Checks of text that the crates share. -/

namespace NetTrap.Core

open Rust

/-- The separators of lines beyond ASCII. -/
def isUnicodeLineSeparator (char : Nat) : Bool :=
  char == 0x85 || char == 0x2028 || char == 0x2029

def containsUnicodeLineSeparator (value : Str) : Bool :=
  (chars value).any isUnicodeLineSeparator

/-- ASCII text has none of them. -/
theorem containsUnicodeLineSeparator_ascii {text : Bytes} (plain : ∀ byte ∈ text, byte < 0x80)
    : containsUnicodeLineSeparator text = false := by
  rw [containsUnicodeLineSeparator, chars_ascii plain, List.any_map, List.any_eq_false]
  intro byte member
  have small : byte.toNat < 128 := UInt8.lt_iff_toNat_lt.mp (plain byte member)
  simp [isUnicodeLineSeparator]
  omega

end NetTrap.Core
