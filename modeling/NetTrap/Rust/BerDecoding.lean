import NetTrap.Library.Ber
import NetTrap.Library.Cursor
import NetTrap.Rust.Integers

/-! BER by position: the steps that the decoders of the source repeat, and the elements they
find there.
-/

namespace NetTrap.Rust

open Access Ber List

/-- A length field and its size; a length of the long form may be bounded. -/
def decodeBerLength (accepts : Nat → Bool) (data : Bytes) : Exec (Option (Nat × Nat)) := do
  let some first := data.head? | return none
  if first &&& 0x80 == 0 then
    return some (first.toNat, 1)
  let numBytes := (first &&& 0x7f).toNat
  if numBytes == 0 || numBytes > 4 || data.length < 1 + numBytes then
    return none
  let second ← item data 1
  if numBytes == 1 then
    if second < 128 then
      return none
  else if second == 0 then
    return none
  let digits ← slice data 1 (1 + numBytes)
  let len := digits.foldl (fun len byte => (len <<< 8) ||| byte.toNat) 0
  if !accepts len then
    return none
  return some (len, 1 + numBytes)

/-- The bounds of the value whose length field stands at `pos`, if it ends below the limit. -/
def valueBounds (lengthAt : Bytes → Exec (Option (Nat × Nat))) (data : Bytes) (pos limit : Nat)
    : Exec (Option (Nat × Nat)) := do
  let some (len, lenBytes) ← lengthAt (← slice data pos limit) | return none
  let start := pos + lenBytes
  let some stop := checkedAdd start len | return none
  if stop > limit then
    return none
  return some (start, stop)

/-- A decoder of length fields, up to a bound on the length. -/
def ReadsLength (bound : Nat) (lengthAt : Bytes → Exec (Option (Nat × Nat))) : Prop :=
  ∀ data, lengthAt data = .done ((Ber.readLength data).bind fun field =>
    if field.1 ≤ bound then some (field.1, (Ber.lengthField field.1).length) else none)

/-- No octets, too many, or more than there are. -/
abbrev Miscounts (first : UInt8) (rest : Bytes) : Prop :=
  first.toNat % 128 = 0 ∨ 4 < first.toNat % 128 ∨ rest.length < first.toNat % 128

/-- A length field by what there is of it. -/
inductive LengthView : Bytes → Prop where
  | empty : LengthView []
  | short {first rest} (low : first.toNat < 128) : LengthView (first :: rest)
  | broken {first rest} (high : ¬ first.toNat < 128)
      (count : Miscounts first rest) : LengthView (first :: rest)
  | long {first second digits rest} (high : ¬ first.toNat < 128)
      (count : first.toNat % 128 = digits.length + 1) (few : digits.length < 4)
    : LengthView (first :: second :: (digits ++ rest))

theorem lengthView : (data : Bytes) → LengthView data
  | [] => .empty
  | first :: rest => by
    by_cases low : first.toNat < 128
    · exact .short low
    by_cases count : Miscounts first rest
    · exact .broken low count
    cases rest with
    | nil =>
      rw [Miscounts, length_nil] at count
      omega
    | cons second rest =>
      rw [Miscounts, length_cons] at count
      have size : (rest.take (first.toNat % 128 - 1)).length = first.toNat % 128 - 1 :=
        length_take_of_le (by omega)
      rw [← take_append_drop (first.toNat % 128 - 1) rest]
      exact .long low (by omega) (by omega)

/-- The length at the front of `data`, and the size of its field. -/
def readField (data : Bytes) : Option (Nat × Nat) :=
  (readLength data).map fun field => (field.1, (lengthField field.1).length)

section

variable {first second : UInt8} {digits rest : Bytes}

theorem readField_short (low : first.toNat < 128)
    : readField (first :: rest) = some (first.toNat, 1) := by
  simp [readField, readLength, low, length_lengthField_of_short low]

variable (high : ¬ first.toNat < 128)
include high

theorem readField_broken (count : Miscounts first rest)
    : readField (first :: rest) = none := by
  have bound := first.toNat_lt
  rw [readField, readLength, if_neg high, if_pos (by omega), Option.map_none]

variable (count : first.toNat % 128 = digits.length + 1) (few : digits.length < 4)
include count few

theorem readField_long
    : readField (first :: second :: (digits ++ rest))
      = if second = 0 ∨ bigEndian (second :: digits) < 128 then none
        else some (bigEndian (second :: digits), digits.length + 1 + 1) := by
  have bound := first.toNat_lt
  have size : first.toNat - 128 = digits.length + 1 := by omega
  have read : readLength (first :: second :: (digits ++ rest))
      = if second = 0 ∨ bigEndian (second :: digits) < 128 then none
        else some (bigEndian (second :: digits), rest) := by
    simp [readLength, high, size]
    omega
  rw [readField, read]
  split
  · rfl
  · next valid =>
    rw [if_neg valid] at read
    simp [length_lengthField_of_readLength read]
    omega

end

/-- Two or more digits without a leading zero make at least 256. -/
theorem le_bigEndian {digits second} (head : digits.head? = some second) (nonzero : second ≠ 0)
    (several : 2 ≤ digits.length)
    : 256 ≤ bigEndian digits := by
  cases digits using reverseRecOn with
  | nil => cases head
  | append_singleton front last =>
    cases front with
    | nil => simp at several
    | cons other front =>
      have positive : 0 < bigEndian (other :: front) := bigEndian_pos head nonzero
      rw [bigEndian_concat]
      omega

theorem bigEndian_singleton (byte : UInt8) : bigEndian [byte] = byte.toNat :=
  (bigEndian_concat [] byte).trans (Nat.zero_add _)

theorem slice_octets {first second : UInt8} {digits rest : Bytes}
    : slice (first :: second :: (digits ++ rest)) 1 (digits.length + 1 + 1)
      = .done (second :: digits) := by
  rw [slice_of_le (by omega) (by simp)]
  simp

theorem foldl_octets (digits : Bytes)
    : digits.foldl (fun len byte => (len <<< 8) ||| byte.toNat) 0 = bigEndian digits :=
  rfl

/-- The decoders tell a shortest form by the first octet and its place. -/
theorem shortest_ite {second digits} {α : Type} (yes no : α)
    : (if digits.length + 1 = 1 then if second < 128 then yes else no
        else if second = 0 then yes else no)
      = if second = 0 ∨ bigEndian (second :: digits) < 128 then yes else no := by
  cases digits with
  | nil =>
    have low : (second = 0 ∨ bigEndian [second] < 128) ↔ second < 128 := by
      rw [bigEndian_singleton]
      constructor
      · rintro (rfl | low)
        · decide
        · exact low
      · exact .inr
    simp [low]
  | cons third digits =>
    have zero : (second = 0 ∨ bigEndian (second :: third :: digits) < 128) ↔ second = 0 := by
      refine or_iff_left_of_imp fun low => ?_
      by_contra nonzero
      have large : 256 ≤ bigEndian (second :: third :: digits) :=
        le_bigEndian rfl nonzero (by simp)
      omega
    simp [zero]

theorem readsLength_iff {bound lengthAt}
    : ReadsLength bound lengthAt ↔ ∀ data, lengthAt data = .done ((readField data).bind fun field =>
        if field.1 ≤ bound then some field else none) := by
  simp [ReadsLength, readField, Option.bind_map]

theorem bigEndian_small {digits : Bytes} (few : digits.length < 4) (second : UInt8)
    : bigEndian (second :: digits) < 256 ^ 4 :=
  (bigEndian_lt _).trans_le (Nat.pow_le_pow_right (by decide) few)

theorem decodeBerLength_reads {bound accepts} (short : 128 ≤ bound)
    (accepted : ∀ len, len < 256 ^ 4 → (accepts len = true ↔ len ≤ bound))
    : ReadsLength bound (decodeBerLength accepts) := by
  refine readsLength_iff.mpr fun data => ?_
  cases lengthView data with
  | empty => rfl
  | short low =>
    simp [decodeBerLength, highBit_eq_zero, low, readField_short low]
    omega
  | broken high count =>
    rw [readField_broken high count]
    simp only [decodeBerLength, head?_cons, highBit_eq_zero, toNat_lowBits, decide_eq_true_eq,
      if_neg high]
    rw [if_pos (by simp; omega)]
    rfl
  | @long first second digits rest high count few =>
    have agrees := accepted _ (bigEndian_small few second)
    simp only [decodeBerLength, head?_cons, highBit_eq_zero, toNat_lowBits, decide_eq_true_eq,
      if_neg high, count, item_cons_succ, item_cons_zero, Exec.done_bind, slice_octets,
      foldl_octets, beq_iff_eq, shortest_ite, readField_long high count few, Nat.add_comm 1]
    rw [if_neg (by simp; omega)]
    split
    · rfl
    · by_cases fits : bigEndian (second :: digits) ≤ bound
      · simp [fits, agrees.mpr fits]
      · simp [fits, agrees.not.mpr fits]

/-- The bounds a decoder computes are those of the value at the cursor, and it leaves the
cursor behind that value.
-/
theorem valueBounds_finds {lengthAt bound limit pos data tail} (reads : ReadsLength bound lengthAt)
    (small : bound < 256 ^ 4) (inside : limit ≤ data.length)
    (cursor : Cursor (data.take limit) pos tail) (low : pos ≤ 2 ^ 33)
    : (valueBounds lengthAt data pos limit).Finds (readValue bound tail) fun bounds read =>
        ∃ start, bounds = (start, start + read.1.length)
          ∧ Cursor (data.take limit) start (read.1 ++ read.2) := by
  simp only [valueBounds, cursor.slice_limit inside, Exec.done_bind, reads tail, readValue]
  cases read : readLength tail with
  | none => exact .nothing
  | some field =>
    obtain ⟨length, body⟩ := field
    obtain ⟨rfl, -⟩ := readLength_eq_some.mp read
    simp only [Option.bind_some]
    by_cases short : length ≤ bound
    swap
    · simpa [short] using .nothing
    rw [if_pos short]
    have fieldSize := length_lengthField_le (short.trans_lt small)
    have fits : checkedAdd (pos + (lengthField length).length) length
        = some (pos + (lengthField length).length + length) := by
      apply checkedAdd_of_le
      simp only [usizeMax]
      omega
    have total := cursor.advance.length_below inside
    simp only [fits]
    by_cases whole : length ≤ body.length
    swap
    · rw [if_pos (by omega), if_neg (by omega)]
      exact .nothing
    rw [if_neg (by omega), if_pos ⟨short, whole⟩]
    refine .something ⟨pos + (lengthField length).length, ?_, ?_⟩
    · rw [length_take_of_le whole]
    · rw [take_append_drop]
      exact cursor.advance

end NetTrap.Rust
