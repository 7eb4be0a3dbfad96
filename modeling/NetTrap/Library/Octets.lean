import Mathlib.Data.List.Basic

/-! Fields of byte strings: reading them at fixed positions, laying them out in network or
little-endian order, and overwriting them in place.
Reading past the end gives zero; callers check lengths first.
-/

namespace Octets

open List

/-- The byte at a position. -/
def byteAt (data : List UInt8) (index : Nat) : UInt8 :=
  data.getD index 0

/-- `count` bytes from a position on. -/
def bytesAt (data : List UInt8) (start count : Nat) : List UInt8 :=
  (List.range count).map fun offset => byteAt data (start + offset)

/-- The 16-bit number at a position, the high byte first. -/
def be16At (data : List UInt8) (index : Nat) : Nat :=
  (byteAt data index).toNat * 256 + (byteAt data (index + 1)).toNat

/-- The two bytes of a 16-bit number, the high one first. -/
def be16Bytes (value : Nat) : List UInt8 :=
  [UInt8.ofNat (value / 256), UInt8.ofNat value]

/-- The 32-bit number at a position, the low byte first. -/
def le32At (data : List UInt8) (index : Nat) : Nat :=
  (byteAt data index).toNat + (byteAt data (index + 1)).toNat * 256
    + (byteAt data (index + 2)).toNat * 65536 + (byteAt data (index + 3)).toNat * 16777216

/-- The four bytes of a 32-bit number, the low one first. -/
def le32Bytes (value : Nat) : List UInt8 :=
  [UInt8.ofNat value, UInt8.ofNat (value / 256), UInt8.ofNat (value / 65536),
    UInt8.ofNat (value / 16777216)]

/-- The data with `bytes` written over it from `start` on. -/
def overwrite (data : List UInt8) (start : Nat) (bytes : List UInt8) : List UInt8 :=
  data.take start ++ bytes ++ data.drop (start + bytes.length)

section Positions

variable {front back data : List UInt8} {index count : Nat}

@[simp]
theorem byteAt_cons_zero (head : UInt8) (tail : List UInt8) : byteAt (head :: tail) 0 = head :=
  rfl

@[simp]
theorem byteAt_cons_succ (head : UInt8) (tail : List UInt8) (index : Nat)
    : byteAt (head :: tail) (index + 1) = byteAt tail index :=
  rfl

theorem byteAt_append_left (inside : index < front.length) (back : List UInt8)
    : byteAt (front ++ back) index = byteAt front index := by
  simp [byteAt, getElem?_append_left inside]

theorem byteAt_append_right (front back : List UInt8) (index : Nat)
    : byteAt (front ++ back) (front.length + index) = byteAt back index := by
  simp only [byteAt, getD_eq_getElem?_getD]
  rw [getElem?_append_right (Nat.le_add_right _ _), Nat.add_sub_cancel_left]

theorem byteAt_drop (data : List UInt8) (count index : Nat)
    : byteAt (data.drop count) index = byteAt data (count + index) := by
  simp [byteAt]

theorem byteAt_take (inside : index < count) (data : List UInt8)
    : byteAt (data.take count) index = byteAt data index := by
  simp [byteAt, getElem?_take_of_lt inside]

@[simp]
theorem length_bytesAt (data : List UInt8) (start count : Nat)
    : (bytesAt data start count).length = count := by
  simp [bytesAt]

theorem bytesAt_take {start total} (inside : start + count ≤ total) (data : List UInt8)
    : bytesAt (data.take total) start count = bytesAt data start count := by
  refine map_congr_left fun offset member => ?_
  rw [mem_range] at member
  exact byteAt_take (by omega) data

/-- A field that was laid out behind `front` is read back. -/
theorem bytesAt_append (front field back : List UInt8)
    : bytesAt (front ++ (field ++ back)) front.length field.length = field := by
  refine ext_getElem (by simp) fun index inside fits => ?_
  simp only [bytesAt, getElem_map, getElem_range, byteAt_append_right]
  rw [byteAt_append_left fits]
  simp [byteAt, fits]

theorem be16At_append_left (inside : index + 1 < front.length) (back : List UInt8)
    : be16At (front ++ back) index = be16At front index := by
  rw [be16At, byteAt_append_left (by omega), byteAt_append_left inside, be16At]

theorem be16At_append_right (front back : List UInt8) (index : Nat)
    : be16At (front ++ back) (front.length + index) = be16At back index := by
  simp only [be16At, Nat.add_assoc, byteAt_append_right]

theorem be16At_take (inside : index + 1 < count) (data : List UInt8)
    : be16At (data.take count) index = be16At data index := by
  rw [be16At, byteAt_take (by omega), byteAt_take inside, be16At]

theorem le32At_append_left (inside : index + 3 < front.length) (back : List UInt8)
    : le32At (front ++ back) index = le32At front index := by
  simp only [le32At]
  rw [byteAt_append_left (by omega), byteAt_append_left (by omega),
    byteAt_append_left (by omega), byteAt_append_left inside]

theorem le32At_append_right (front back : List UInt8) (index : Nat)
    : le32At (front ++ back) (front.length + index) = le32At back index := by
  simp only [le32At, Nat.add_assoc, byteAt_append_right]

end Positions

theorem be16At_lt (data : List UInt8) (index : Nat) : be16At data index < 65536 := by
  have high := (byteAt data index).toNat_lt
  have low := (byteAt data (index + 1)).toNat_lt
  rw [be16At]
  omega

/-- Overwriting a field replaces it and nothing else. -/
theorem overwrite_append (front back : List UInt8) {old new} (same : new.length = old.length)
    : overwrite (front ++ old ++ back) front.length new = front ++ new ++ back := by
  have before : (front ++ old ++ back).take front.length = front := by simp
  have behind : (front ++ old ++ back).drop (front.length + new.length) = back :=
    drop_left' (by rw [length_append, same])
  rw [overwrite, before, behind]

section Overwriting

variable {data bytes : List UInt8} {start : Nat} (fits : start + bytes.length ≤ data.length)

include fits

theorem length_overwrite : (overwrite data start bytes).length = data.length := by
  simp [overwrite]
  omega

/-- Overwriting a field changes no byte outside of it. -/
theorem byteAt_overwrite_outside {index} (outside : index < start ∨ start + bytes.length ≤ index)
    : byteAt (overwrite data start bytes) index = byteAt data index := by
  have before : (data.take start).length = start := length_take_of_le (by omega)
  rcases outside with left | right
  · rw [overwrite, append_assoc, byteAt_append_left (by omega), byteAt_take left]
  · have length : (data.take start ++ bytes).length = start + bytes.length := by
      rw [length_append, before]
    obtain ⟨rest, rfl⟩ := Nat.exists_eq_add_of_le right
    have behind := byteAt_append_right (data.take start ++ bytes)
      (data.drop (start + bytes.length)) rest
    rw [length] at behind
    rw [overwrite, behind, byteAt_drop]

/-- The field that was written is read back. -/
theorem bytesAt_overwrite : bytesAt (overwrite data start bytes) start bytes.length = bytes := by
  have before : (data.take start).length = start := length_take_of_le (by omega)
  have found := bytesAt_append (data.take start) bytes (data.drop (start + bytes.length))
  rwa [before, ← append_assoc] at found

/-- A field that does not overlap with the written one is read as before. -/
theorem bytesAt_overwrite_outside {index count}
    (outside : index + count ≤ start ∨ start + bytes.length ≤ index)
    : bytesAt (overwrite data start bytes) index count = bytesAt data index count := by
  refine map_congr_left fun offset member => ?_
  rw [mem_range] at member
  exact byteAt_overwrite_outside fits (by omega)

end Overwriting

@[simp]
theorem length_be16Bytes (value : Nat) : (be16Bytes value).length = 2 :=
  rfl

@[simp]
theorem length_le32Bytes (value : Nat) : (le32Bytes value).length = 4 :=
  rfl

/-- A 16-bit number that was laid out is read back. -/
theorem be16At_be16Bytes {value} (small : value < 65536) (back : List UInt8)
    : be16At (be16Bytes value ++ back) 0 = value := by
  simp [be16At, be16Bytes, byteAt_cons_zero, byteAt_cons_succ]
  omega

/-- A 16-bit number that was written over others is read back. -/
theorem be16At_overwrite {data start value} (small : value < 65536) (fits : start + 2 ≤ data.length)
    : be16At (overwrite data start (be16Bytes value)) start = value := by
  have before : (data.take start).length = start := length_take_of_le (by omega)
  have found := be16At_append_right (data.take start)
    (be16Bytes value ++ data.drop (start + (be16Bytes value).length)) 0
  rw [before, ← append_assoc] at found
  exact found.trans (be16At_be16Bytes small _)

/-- A 32-bit number that was laid out is read back. -/
theorem le32At_le32Bytes {value} (small : value < 4294967296) (back : List UInt8)
    : le32At (le32Bytes value ++ back) 0 = value := by
  have one : byteAt (le32Bytes value ++ back) 1 = UInt8.ofNat (value / 256) := rfl
  have two : byteAt (le32Bytes value ++ back) 2 = UInt8.ofNat (value / 65536) := rfl
  have three : byteAt (le32Bytes value ++ back) 3 = UInt8.ofNat (value / 16777216) := rfl
  have zero : byteAt (le32Bytes value ++ back) 0 = UInt8.ofNat value := rfl
  simp [le32At, zero, one, two, three]
  omega

end Octets
