import Mathlib.Data.List.TakeWhile
import NetTrap.Rust.Text

/-! Strings by their characters, for the code that looks at characters and not at bytes. -/

namespace NetTrap.Rust

open List

/-- A `String`, given by its characters. -/
abbrev Text := List Char

namespace Text

/-- The text of a literal. -/
def lit (literal : String) : Text :=
  literal.toList

/-- `str::as_bytes`. -/
def utf8 (text : Text) : Bytes :=
  text.flatMap String.utf8EncodeChar

/-- `str::len`: the number of bytes. -/
def len (text : Text) : Nat :=
  text.utf8.length

/-- `str::trim_matches`. -/
def trimMatches (drops : Char → Bool) (text : Text) : Text :=
  ((text.dropWhile drops).reverse.dropWhile drops).reverse

/-- `str::trim`. -/
def trim (text : Text) : Text :=
  text.trimMatches fun char => isWhitespace char.toNat

/-- `str::to_ascii_uppercase`. -/
def toAsciiUppercase (text : Text) : Text :=
  text.map Char.toUpper

/-- `to_string` of a number. -/
def decimal (number : Nat) : Text :=
  Nat.toDigits 10 number

theorem decimal_inj {left right} (same : decimal left = decimal right) : left = right := by
  rw [← Nat.ofDigitChars_ten_toDigits (n := left), ← Nat.ofDigitChars_ten_toDigits (n := right)]
  exact congrArg (Nat.ofDigitChars 10 · 0) same

theorem isDigit_of_mem_decimal {number char} (member : char ∈ decimal number)
    : char.isDigit = true :=
  Nat.isDigit_of_mem_toDigits (by decide) (by decide) member

@[simp]
theorem len_nil : len [] = 0 :=
  rfl

theorem len_cons (char : Char) (text : Text) : len (char :: text) = char.utf8Size + text.len := by
  rw [len, utf8, flatMap_cons, length_append, String.length_utf8EncodeChar]
  rfl

/-- The text of ASCII bytes. -/
def ofAscii (bytes : Bytes) : Text :=
  bytes.map fun byte => Char.ofNat byte.toNat

theorem utf8_ofAscii {bytes} (ascii : ∀ byte ∈ bytes, byte < 128)
    : (ofAscii bytes).utf8 = bytes := by
  have one : ∀ number < 128, String.utf8EncodeChar (Char.ofNat number) = [UInt8.ofNat number] := by
    decide +kernel
  induction bytes with
  | nil => rfl
  | cons byte rest ih =>
    have first := one byte.toNat (ascii byte mem_cons_self)
    rw [UInt8.ofNat_toNat] at first
    rw [utf8, ofAscii, map_cons, flatMap_cons, first, singleton_append]
    exact congrArg (byte :: ·) (ih fun byte member => ascii byte (.tail _ member))

theorem dropWhile_eq_self {drops : Char → Bool} {text : Text}
    : text.dropWhile drops = text ↔ ∀ char ∈ text.head?, drops char = false := by
  cases text with
  | nil => simp
  | cons first rest =>
    rw [dropWhile_eq_self_iff]
    simp

/-- A text is left alone if neither its first nor its last character is to be dropped. -/
theorem trimMatches_eq_self {drops : Char → Bool} {text : Text}
    : text.trimMatches drops = text
      ↔ (∀ char ∈ text.head?, drops char = false) ∧ ∀ char ∈ text.getLast?, drops char = false := by
  rw [← head?_reverse, ← dropWhile_eq_self, ← dropWhile_eq_self, trimMatches]
  constructor
  · intro same
    have front : text.dropWhile drops = text := by
      apply (dropWhile_suffix drops).eq_of_length_le
      have shorter :=
        (dropWhile_suffix drops (l := (text.dropWhile drops).reverse)).length_le
      rw [length_reverse, ← length_reverse, same] at shorter
      exact shorter
    rw [front] at same
    exact ⟨front, reverse_eq_iff.mp same⟩
  · rintro ⟨front, back⟩
    rw [front, back, reverse_reverse]

/-- Texts of one length in front of equal texts are equal. -/
theorem append_inj_of_len {left right leftRest rightRest : Text} (lengths : left.len = right.len)
    (same : left ++ leftRest = right ++ rightRest)
    : left = right ∧ leftRest = rightRest := by
  induction left generalizing right with
  | nil =>
    cases right with
    | nil => exact ⟨rfl, same⟩
    | cons char right =>
      have positive := char.utf8Size_pos
      rw [len_nil, len_cons] at lengths
      omega
  | cons char left ih =>
    cases right with
    | nil =>
      have positive := char.utf8Size_pos
      rw [len_nil, len_cons] at lengths
      omega
    | cons other right =>
      obtain ⟨rfl, rest⟩ := cons.inj same
      rw [len_cons, len_cons] at lengths
      obtain ⟨rfl, equal⟩ := ih (by omega) rest
      exact ⟨rfl, equal⟩

end Text

/-- Two runs of one class of elements, each in front of an element outside of the class. -/
theorem append_cons_inj {α : Type} (inside : α → Bool) {left right leftRest rightRest stop}
    (outside : inside stop = false) (leftInside : ∀ item ∈ left, inside item = true)
    (rightInside : ∀ item ∈ right, inside item = true)
    (same : left ++ stop :: leftRest = right ++ stop :: rightRest)
    : left = right ∧ leftRest = rightRest := by
  have front {run : List α} (rest : List α) (allInside : ∀ item ∈ run, inside item = true)
      : (run ++ stop :: rest).takeWhile inside = run := by
    rw [takeWhile_append_of_pos allInside, takeWhile_cons_of_neg (by simp [outside]), append_nil]
  have runs : left = right := by
    rw [← front leftRest leftInside, same, front rightRest rightInside]
  subst runs
  exact ⟨rfl, cons.inj (append_cancel_left same) |>.2⟩

end NetTrap.Rust
