import NetTrap.Ldap.Elements

/-! The controls at the end of an LDAP message. -/

namespace NetTrap.Ldap

open Access Rust Ber List

/-- A control: a named extension, perhaps marked critical, perhaps with a value. -/
structure Control where
  controlType : Bytes
  criticality : Option UInt8
  value : Option Bytes
  named : controlType ≠ []

namespace Control

def valueField (control : Control) : Bytes :=
  control.value.elim [] (Ber.tlv 0x04)

def criticalityField (control : Control) : Bytes :=
  control.criticality.elim [] fun critical => Ber.tlv 0x01 [critical]

def encode (control : Control) : Bytes :=
  Ber.tlv 0x04 control.controlType ++ (control.criticalityField ++ control.valueField)

end Control

def encodeControls (controls : List Control) : Bytes :=
  controls.flatMap fun control => Ber.tlv 0x30 control.encode

/-- An element that was written can be read back, whatever follows it. -/
theorem readTlv_iff {tag : UInt8} {tail : Bytes} {property : Bytes × Bytes → Prop}
    (small : tail.length ≤ maxBerLength)
    : (∃ read, readTlv maxBerLength tag tail = some read ∧ property read)
      ↔ ∃ value rest, tail = tlv tag value ++ rest ∧ property (value, rest) := by
  simp only [Prod.exists, readTlv_eq_some maxBerLength_lt]
  constructor
  · rintro ⟨value, rest, ⟨shape, -⟩, holds⟩
    exact ⟨value, rest, shape, holds⟩
  · rintro ⟨value, rest, rfl, holds⟩
    have element := length_add_two_le_tlv tag value
    rw [length_append] at small
    exact ⟨value, rest, ⟨rfl, by omega⟩, holds⟩

/-- The tests before an element of a check. -/
theorem element_decides {data tail : Bytes} {pos limit : Nat} {tag : UInt8} {parser : Exec Bool}
    {property : Bytes × Bytes → Prop} (within : Within data limit)
    (cursor : Cursor (data.take limit) pos tail) (nonempty : tail ≠ [])
    (found : ∀ {rest}, Cursor (data.take limit) (pos + 1) rest
      → parser.Decides (∃ read, readValue maxBerLength rest = some read ∧ property read))
    : (item data pos >>= fun first => if first != tag then pure false else parser).Decides
        (∃ read, readTlv maxBerLength tag tail = some read ∧ property read) := by
  obtain ⟨first, rest, rfl⟩ := exists_cons_of_ne_nil nonempty
  rw [cursor.item_below within.inside, Exec.done_bind, readTlv]
  by_cases tagged : first = tag
  · rw [if_neg (by simpa using tagged), if_pos tagged]
    exact found cursor.next
  · rw [if_pos (by simpa using tagged), if_neg tagged]
    exact .no (by simp)

section Control

variable {data tail : Bytes} {pos : Nat} (small : data.length ≤ maxBerLength)
  (cursor : Cursor (data.take data.length) pos tail)
include small cursor

theorem tail_small : tail.length ≤ maxBerLength := by
  have length := cursor.length
  rw [take_length] at length
  omega

theorem controlValueIsWellFormed_decides (nonempty : tail ≠ [])
    : (controlValueIsWellFormed data pos).Decides (∃ value, tail = tlv 0x04 value) := by
  have only : (∃ value, tail = tlv 0x04 value)
      ↔ ∃ read, readTlv maxBerLength 0x04 tail = some read ∧ read.2 = [] := by
    rw [readTlv_iff (tail_small small cursor)]
    simp
  rw [only]
  obtain ⟨first, rest, rfl⟩ := exists_cons_of_ne_nil nonempty
  rw [controlValueIsWellFormed, cursor.item_below (Nat.le_refl _), Exec.done_bind]
  by_cases tagged : first = 0x04
  swap
  · rw [if_pos (by simpa using tagged), readTlv, if_neg tagged]
    exact .no (by simp)
  rw [if_neg (by simpa using tagged)]
  refine .step (consumeExpectedTlv_finds (.whole small) cursor 0x04) rfl fun _ _ _ behind => ?_
  exact ⟨_, rfl, by rw [beq_iff_eq, behind.eq_limit_iff (Nat.le_refl _)]⟩

/-- The value of a control may be missing. -/
theorem controlValue_decides
    : (if pos == data.length then pure true else controlValueIsWellFormed data pos).Decides
        (∃ value : Option Bytes, tail = value.elim [] (tlv 0x04)) := by
  have atEnd := cursor.eq_limit_iff (Nat.le_refl _)
  by_cases last : tail = []
  · rw [if_pos (by simpa using atEnd.mpr last)]
    exact .yes ⟨none, last⟩
  rw [if_neg (by simpa using atEnd.not.mpr last)]
  refine (controlValueIsWellFormed_decides small cursor last).congr ?_
  constructor
  · rintro ⟨value, shape⟩
    exact ⟨some value, shape⟩
  · rintro ⟨none | value, shape⟩
    · exact absurd shape last
    · exact ⟨value, shape⟩

end Control

theorem controlIsWellFormed_decides {data} (small : data.length ≤ maxBerLength)
    : (controlIsWellFormed data).Decides (∃ control : Control, data = control.encode) := by
  have fields : (∃ control : Control, data = control.encode)
      ↔ ∃ read, readTlv maxBerLength 0x04 data = some read ∧ read.1 ≠ []
        ∧ ∃ (criticality : Option UInt8) (value : Option Bytes),
          read.2 = criticality.elim [] (fun critical => tlv 0x01 [critical])
            ++ value.elim [] (tlv 0x04) := by
    rw [readTlv_iff small]
    constructor
    · rintro ⟨⟨controlType, criticality, value, named⟩, shape⟩
      exact ⟨controlType, _, shape, named, criticality, value, rfl⟩
    · rintro ⟨controlType, _, shape, named, criticality, value, rfl⟩
      exact ⟨⟨controlType, criticality, value, named⟩, shape⟩
  rw [fields]
  refine .step (consumeExpectedTlvValue_finds (.whole small) (wholeCursor data) 0x04) rfl ?_
  rintro _ ⟨controlType, rest⟩ - ⟨pos, rfl, behind⟩
  refine .guard (by simp) fun _ => ?_
  have atEnd := behind.eq_limit_iff (Nat.le_refl _)
  cases rest with
  | nil =>
    rw [if_pos (by simpa using atEnd)]
    exact .yes ⟨none, none, rfl⟩
  | cons first rest =>
    rw [if_neg (by simpa using atEnd), behind.item_below (Nat.le_refl _), Exec.done_bind]
    by_cases critical : first = 0x01
    · rw [if_pos (by simpa using critical)]
      have marked : (∃ (criticality : Option UInt8) (value : Option Bytes),
            first :: rest = criticality.elim [] (fun critical => tlv 0x01 [critical])
              ++ value.elim [] (tlv 0x04))
          ↔ ∃ read, readTlv maxBerLength 0x01 (first :: rest) = some read ∧ read.1.length = 1
            ∧ ∃ value : Option Bytes, read.2 = value.elim [] (tlv 0x04) := by
        rw [readTlv_iff (tail_small small behind)]
        constructor
        · rintro ⟨_ | mark, value, shape⟩
          · cases value with
            | none => cases shape
            | some value => exact absurd ((cons.inj shape).1.symm.trans critical) (by decide)
          · exact ⟨[mark], _, shape, rfl, value, rfl⟩
        · rintro ⟨_, _, shape, single, value, rfl⟩
          obtain ⟨mark, rfl⟩ := length_eq_one_iff.mp single
          exact ⟨some mark, value, shape⟩
      rw [marked]
      refine .step (consumeExpectedTlvValue_finds (.whole small) behind 0x01) rfl ?_
      rintro _ ⟨criticality, rest⟩ - ⟨pos, rfl, behind⟩
      exact .guard (by simp) fun _ => controlValue_decides small behind
    · rw [if_neg (by simpa using critical)]
      refine (controlValueIsWellFormed_decides small behind (cons_ne_nil _ _)).congr ?_
      constructor
      · rintro ⟨value, shape⟩
        exact ⟨none, some value, shape⟩
      · rintro ⟨_ | mark, value, shape⟩
        · cases value with
          | none => cases shape
          | some value => exact ⟨value, shape⟩
        · exact absurd (cons.inj shape).1 critical

/-- Each round of the loop takes one control off the front. -/
theorem controlsLoop_decides {data tail fuel pos} (small : data.length ≤ maxBerLength)
    (cursor : Cursor (data.take data.length) pos tail) (enough : tail.length ≤ fuel)
    : (controlsLoop data fuel pos).Decides
        (∃ controls : List Control, tail = encodeControls controls) := by
  induction fuel generalizing pos tail with
  | zero =>
    have empty : tail = [] := length_eq_zero_iff.mp (Nat.le_zero.mp enough)
    have atEnd := (cursor.limit_le_iff (Nat.le_refl _)).mpr empty
    rw [controlsLoop, if_neg (by omega)]
    exact .yes ⟨[], empty⟩
  | succ fuel ih =>
    rw [controlsLoop]
    by_cases last : tail = []
    · rw [if_pos ((cursor.limit_le_iff (Nat.le_refl _)).mpr last)]
      exact .yes ⟨[], last⟩
    rw [if_neg ((cursor.limit_le_iff (Nat.le_refl _)).not.mpr last)]
    have first : (∃ controls : List Control, tail = encodeControls controls)
        ↔ ∃ read, readTlv maxBerLength 0x30 tail = some read
          ∧ (∃ control : Control, read.1 = control.encode)
          ∧ ∃ controls : List Control, read.2 = encodeControls controls := by
      rw [readTlv_iff (tail_small small cursor)]
      constructor
      · rintro ⟨_ | ⟨control, controls⟩, shape⟩
        · exact absurd shape last
        · exact ⟨_, _, shape, ⟨control, rfl⟩, controls, rfl⟩
      · rintro ⟨_, _, shape, ⟨control, rfl⟩, controls, rfl⟩
        exact ⟨control :: controls, shape⟩
    rw [first]
    refine element_decides (.whole small) cursor last fun {body} after => ?_
    refine .step (bounds_finds (.whole small) after) rfl ?_
    rintro _ ⟨value, rest⟩ read ⟨start, rfl, behind⟩
    obtain ⟨field, short⟩ := (readValue_eq_some maxBerLength_lt).mp read
    dsimp only
    rw [behind.slice_below (Nat.le_refl _), Exec.done_bind]
    refine .both (controlIsWellFormed_decides short) fun _ => ih behind.advance ?_
    have whole := cursor.length
    have part := behind.advance.length
    have before := after.length
    have sizes := congrArg length field
    rw [length_append, length_append] at sizes
    omega

theorem controlsAreWellFormed_decides {data} (small : data.length ≤ maxBerLength)
    : (controlsAreWellFormed data).Decides
        (∃ controls : List Control, data = encodeControls controls) :=
  controlsLoop_decides small (wholeCursor data) (Nat.le_refl _)

end NetTrap.Ldap
