import NetTrap.Rust.Text

/-! Decoded texts, character by character. -/

namespace NetTrap.Rust

open List Option Bool

/-- The bytes of one character beyond ASCII, by what decoding makes of them. -/
structure IsWide (char : Nat) (bytes : Bytes) : Prop where
  high : ∀ byte ∈ bytes, 0x80 ≤ byte
  nonempty : bytes ≠ []
  lower : 0x80 ≤ char
  upper : char < 0x200000
  decodes (rest : Bytes) : decodeUtf8 (bytes ++ rest) = (decodeUtf8 rest).map (char :: ·)

variable {byte : UInt8}

theorem high_of_not_lt (wide : ¬ byte < 0x80) : 0x80 ≤ byte :=
  UInt8.not_lt.mp wide

theorem isContinuation_iff : isContinuation byte = true ↔ 0x80 ≤ byte ∧ byte ≤ 0xBF := by
  simp [isContinuation]

theorem continuationBits_lt (byte : UInt8) : continuationBits byte < 64 :=
  Nat.mod_lt _ (by decide)

section Wide

variable {b0 b1 b2 b3 : UInt8}

theorem toNat_between {least most : UInt8} (between : (least ≤ b0 && b0 ≤ most) = true)
    : least.toNat ≤ b0.toNat ∧ b0.toNat ≤ most.toNat := by
  simpa [UInt8.le_iff_toNat_le] using between

/-- A first byte that leaves no bits asks for more of the second. -/
theorem toNat_shortest (bare least : UInt8) (second : isContinuation b1 = true)
    (shortest : if b0 == bare then least ≤ b1 else True)
    : b0.toNat ≠ bare.toNat ∨ least.toNat ≤ b1.toNat ∧ b1.toNat ≤ 0xBF := by
  by_cases shifted : b0 = bare
  · rw [if_pos (by simpa using shifted)] at shortest
    exact .inr ⟨UInt8.le_iff_toNat_le.mp shortest,
      UInt8.le_iff_toNat_le.mp (isContinuation_iff.mp second).2⟩
  · exact .inl fun same => shifted (UInt8.toNat_inj.mp same)

variable (wide : ¬ b0 < 0x80)

include wide

theorem isWide_two (two : (0xC2 ≤ b0 && b0 ≤ 0xDF) = true) (second : isContinuation b1 = true)
    : IsWide (b0.toNat % 32 * 64 + continuationBits b1) [b0, b1] where
  high := by
    simp only [forall_mem_cons]
    exact ⟨high_of_not_lt wide, (isContinuation_iff.mp second).1, by simp⟩
  nonempty := by simp
  lower := by
    have between : 0xC2 ≤ b0.toNat ∧ b0.toNat ≤ 0xDF := toNat_between two
    omega
  upper := by
    have bits := continuationBits_lt b1
    omega
  decodes rest := by
    rw [cons_append, cons_append, nil_append, decodeUtf8.eq_def]
    dsimp only
    rw [if_neg wide, if_pos two, if_pos second]

theorem isWide_three (notTwo : ¬ (0xC2 ≤ b0 && b0 ≤ 0xDF) = true)
    (three : (0xE0 ≤ b0 && b0 ≤ 0xEF) = true)
    (fine : (isContinuation b1 && decide (if b0 == 0xE0 then 0xA0 ≤ b1 else true = true)
      && decide (if b0 == 0xED then b1 ≤ 0x9F else true = true) && isContinuation b2) = true)
    : IsWide (b0.toNat % 16 * 4096 + continuationBits b1 * 64 + continuationBits b2)
        [b0, b1, b2] where
  high := by
    simp only [and_eq_true] at fine
    simp only [forall_mem_cons]
    exact ⟨high_of_not_lt wide, (isContinuation_iff.mp fine.1.1.1).1,
      (isContinuation_iff.mp fine.2).1, by simp⟩
  nonempty := by simp
  lower := by
    simp only [and_eq_true, decide_eq_true_eq] at fine
    have between : 0xE0 ≤ b0.toNat ∧ b0.toNat ≤ 0xEF := toNat_between three
    have bits : b0.toNat ≠ 0xE0 ∨ 0xA0 ≤ b1.toNat ∧ b1.toNat ≤ 0xBF :=
      toNat_shortest 0xE0 0xA0 fine.1.1.1 fine.1.1.2
    rw [continuationBits]
    omega
  upper := by
    have second := continuationBits_lt b1
    have third := continuationBits_lt b2
    omega
  decodes rest := by
    rw [cons_append, cons_append, cons_append, nil_append, decodeUtf8.eq_def]
    dsimp only
    rw [if_neg wide, if_neg notTwo, if_pos three, if_pos fine]

theorem isWide_four (notTwo : ¬ (0xC2 ≤ b0 && b0 ≤ 0xDF) = true)
    (notThree : ¬ (0xE0 ≤ b0 && b0 ≤ 0xEF) = true) (four : (0xF0 ≤ b0 && b0 ≤ 0xF4) = true)
    (fine : (isContinuation b1 && decide (if b0 == 0xF0 then 0x90 ≤ b1 else true = true)
      && decide (if b0 == 0xF4 then b1 ≤ 0x8F else true = true) && isContinuation b2
      && isContinuation b3) = true)
    : IsWide (b0.toNat % 8 * 262144 + continuationBits b1 * 4096 + continuationBits b2 * 64
        + continuationBits b3) [b0, b1, b2, b3] where
  high := by
    simp only [and_eq_true] at fine
    simp only [forall_mem_cons]
    exact ⟨high_of_not_lt wide, (isContinuation_iff.mp fine.1.1.1.1).1,
      (isContinuation_iff.mp fine.1.2).1, (isContinuation_iff.mp fine.2).1, by simp⟩
  nonempty := by simp
  lower := by
    simp only [and_eq_true, decide_eq_true_eq] at fine
    have between : 0xF0 ≤ b0.toNat ∧ b0.toNat ≤ 0xF4 := toNat_between four
    have bits : b0.toNat ≠ 0xF0 ∨ 0x90 ≤ b1.toNat ∧ b1.toNat ≤ 0xBF :=
      toNat_shortest 0xF0 0x90 fine.1.1.1.1 fine.1.1.1.2
    rw [continuationBits]
    omega
  upper := by
    have second := continuationBits_lt b1
    have third := continuationBits_lt b2
    have fourth := continuationBits_lt b3
    omega
  decodes rest := by
    rw [cons_append, cons_append, cons_append, cons_append, nil_append, decodeUtf8.eq_def]
    dsimp only
    rw [if_neg wide, if_neg notTwo, if_neg notThree, if_pos four, if_pos fine]

end Wide

variable {out : List Nat}

/-- The first character of a text that decodes, and the text behind it. -/
theorem decodeUtf8_cons_cases {first rest} (decoded : decodeUtf8 (first :: rest) = some out)
    : (first < 0x80 ∧ ∃ later, out = first.toNat :: later ∧ decodeUtf8 rest = some later)
      ∨ ∃ char bytes behind later, IsWide char bytes ∧ first :: rest = bytes ++ behind
        ∧ out = char :: later ∧ decodeUtf8 behind = some later := by
  rw [decodeUtf8.eq_def] at decoded
  dsimp only at decoded
  split at decoded
  case isTrue plain =>
    obtain ⟨later, found, same⟩ := map_eq_some_iff.mp decoded
    exact .inl ⟨plain, later, same.symm, found⟩
  case isFalse wide =>
  refine .inr ?_
  split at decoded
  case isTrue two =>
    split at decoded
    case h_2 => cases decoded
    case h_1 b1 behind =>
      obtain ⟨second, decoded⟩ := ite_none_right_eq_some.mp decoded
      obtain ⟨later, found, same⟩ := map_eq_some_iff.mp decoded
      exact ⟨_, [first, b1], behind, later, isWide_two wide two second, rfl, same.symm, found⟩
  case isFalse notTwo =>
  split at decoded
  case isTrue three =>
    split at decoded
    case h_2 => cases decoded
    case h_1 b1 b2 behind =>
      obtain ⟨fine, decoded⟩ := ite_none_right_eq_some.mp decoded
      obtain ⟨later, found, same⟩ := map_eq_some_iff.mp decoded
      exact ⟨_, [first, b1, b2], behind, later, isWide_three wide notTwo three fine, rfl,
        same.symm, found⟩
  case isFalse notThree =>
  split at decoded
  case isFalse => cases decoded
  case isTrue four =>
    split at decoded
    case h_2 => cases decoded
    case h_1 b1 b2 b3 behind =>
      obtain ⟨fine, decoded⟩ := ite_none_right_eq_some.mp decoded
      obtain ⟨later, found, same⟩ := map_eq_some_iff.mp decoded
      exact ⟨_, [first, b1, b2, b3], behind, later, isWide_four wide notTwo notThree four fine,
        rfl, same.symm, found⟩

/-- Characters of decoded texts, by induction along the text. -/
theorem decodeUtf8_induction {motive : Bytes → List Nat → Prop} (nil : motive [] [])
    (plain : ∀ (byte : UInt8) rest later, byte < 0x80 → decodeUtf8 rest = some later
      → motive rest later → motive (byte :: rest) (byte.toNat :: later))
    (wide : ∀ char bytes rest later, IsWide char bytes → motive rest later
      → motive (bytes ++ rest) (char :: later)) {text : Bytes}
    (decoded : decodeUtf8 text = some out)
    : motive text out := by
  induction length : text.length using Nat.strongRecOn generalizing text out with
  | _ size ih =>
    cases text with
    | nil =>
      cases decoded
      exact nil
    | cons first rest =>
      rcases decodeUtf8_cons_cases decoded with
        ⟨small, later, rfl, found⟩ | ⟨char, bytes, behind, later, isWide, split, rfl, found⟩
      · exact plain first rest later small found (ih rest.length (by simp [← length]) found rfl)
      · have shorter : behind.length < size := by
          have lengths := congrArg List.length split
          have filled := List.length_pos_of_ne_nil isWide.nonempty
          rw [length_append, length] at lengths
          omega
        rw [split]
        exact wide char bytes behind later isWide (ih behind.length shorter found rfl)

theorem decodeUtf8_lt {text} (decoded : decodeUtf8 text = some out)
    : ∀ char ∈ out, char < 0x200000 := by
  refine decodeUtf8_induction (motive := fun _ out => ∀ char ∈ out, char < 0x200000)
    ?_ ?_ ?_ decoded
  · simp
  · intro byte rest later _ _ ih
    have small := byte.toNat_lt
    exact forall_mem_cons.mpr ⟨by omega, ih⟩
  · intro char bytes rest later isWide ih
    exact forall_mem_cons.mpr ⟨isWide.upper, ih⟩

/-- An ASCII character stands in the text as its byte. -/
theorem mem_of_mem_decodeUtf8 {text} (decoded : decodeUtf8 text = some out) (small : byte < 0x80)
    : byte.toNat ∈ out → byte ∈ text := by
  refine decodeUtf8_induction (motive := fun text out => byte.toNat ∈ out → byte ∈ text)
    ?_ ?_ ?_ decoded
  · simp
  · intro first rest later _ _ ih member
    rcases mem_cons.mp member with same | behind
    · rw [UInt8.toNat_inj.mp same]
      exact mem_cons_self
    · exact .tail _ (ih behind)
  · intro char bytes rest later isWide ih member
    rcases mem_cons.mp member with same | behind
    · have bound : byte.toNat < 0x80 := UInt8.lt_iff_toNat_lt.mp small
      have lower := isWide.lower
      omega
    · exact mem_append_right _ (ih behind)

/-- Decoding splits at ASCII bytes. Witness: such a byte is no part of a wider character. -/
theorem decodeUtf8_split {front back} (small : byte < 0x80)
    (decoded : decodeUtf8 (front ++ byte :: back) = some out)
    : ∃ before behind, decodeUtf8 front = some before ∧ decodeUtf8 back = some behind
        ∧ out = before ++ byte.toNat :: behind := by
  refine decodeUtf8_induction (motive := fun text out => ∀ front, text = front ++ byte :: back
      → ∃ before behind, decodeUtf8 front = some before ∧ decodeUtf8 back = some behind
        ∧ out = before ++ byte.toNat :: behind) ?_ ?_ ?_ decoded front rfl
  · intro front split
    simp at split
  · intro first rest later smallFirst found ih front split
    cases front with
    | nil =>
      cases split
      exact ⟨[], later, rfl, found, rfl⟩
    | cons _ front =>
      cases split
      obtain ⟨before, behind, front', back', rfl⟩ := ih front rfl
      refine ⟨first.toNat :: before, behind, ?_, back', rfl⟩
      rw [decodeUtf8.eq_def]
      simp [smallFirst, front']
  · intro char bytes rest later isWide ih front split
    obtain ⟨inner, rfl⟩ : ∃ inner, front = bytes ++ inner := by
      rcases append_eq_append_iff.mp split.symm with
        ⟨more, rfl, rest'⟩ | ⟨inner, rfl, _⟩
      · cases more with
        | nil => exact ⟨[], by simp⟩
        | cons head more =>
          cases rest'
          have high := isWide.high byte (by simp)
          exact absurd small (UInt8.not_lt.mpr high)
      · exact ⟨inner, rfl⟩
    rw [append_assoc] at split
    obtain ⟨before, behind, front', back', rfl⟩ := ih inner (append_cancel_left split)
    refine ⟨char :: before, behind, ?_, back', rfl⟩
    rw [isWide.decodes, front', map_some]

end NetTrap.Rust
