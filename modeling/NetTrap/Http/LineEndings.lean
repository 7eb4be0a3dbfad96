import NetTrap.Http.Syntax

/-! Line breaks that are not `\r\n`: where they stand, and that more data keeps them.
-/

namespace NetTrap.Http

open Search Rust List Bool

/-- A line feed that does not follow a carriage return. -/
def BareLineFeedAt (data : Bytes) (idx : Nat) : Prop :=
  data[idx]? = some 10 ∧ (idx = 0 ∨ data[idx - 1]? ≠ some 13)

/-- A carriage return with anything but a line feed behind it. -/
def BareCarriageReturnAt (data : Bytes) (idx : Nat) : Prop :=
  data[idx]? = some 13 ∧ idx + 1 < data.length ∧ data[idx + 1]? ≠ some 10

theorem any_zipIdx_iff (data : Bytes) (test : UInt8 × Nat → Bool)
    : data.zipIdx.any test = true
      ↔ ∃ idx byte, data[idx]? = some byte ∧ test (byte, idx) = true := by
  rw [any_eq_true]
  constructor
  · rintro ⟨⟨byte, idx⟩, member, holds⟩
    exact ⟨idx, byte, mem_zipIdx_iff_getElem?.mp member, holds⟩
  · rintro ⟨idx, byte, found, holds⟩
    exact ⟨(byte, idx), mem_zipIdx_iff_getElem?.mpr found, holds⟩

theorem hasBareLineFeed_iff (data : Bytes)
    : hasBareLineFeed data = true ↔ ∃ idx, BareLineFeedAt data idx := by
  rw [hasBareLineFeed, any_zipIdx_iff]
  constructor
  · rintro ⟨idx, byte, found, holds⟩
    simp only [and_eq_true, beq_iff_eq, or_eq_true, bne_iff_ne] at holds
    exact ⟨idx, by rw [found, holds.1], holds.2⟩
  · rintro ⟨idx, found, bare⟩
    exact ⟨idx, 10, found, by simpa using bare⟩

theorem hasInvalidHttpLineEnding_iff (data : Bytes)
    : hasInvalidHttpLineEnding data = true
      ↔ ∃ idx, BareLineFeedAt data idx ∨ BareCarriageReturnAt data idx := by
  rw [hasInvalidHttpLineEnding, any_zipIdx_iff]
  constructor
  · rintro ⟨idx, byte, found, holds⟩
    simp only [and_eq_true, beq_iff_eq, or_eq_true, bne_iff_ne, decide_eq_true_eq] at holds
    rcases holds with ⟨rfl, bare⟩ | ⟨⟨rfl, inside⟩, bare⟩
    · exact ⟨idx, .inl ⟨found, bare⟩⟩
    · exact ⟨idx, .inr ⟨found, inside, bare⟩⟩
  · rintro ⟨idx, ⟨found, bare⟩ | ⟨found, inside, bare⟩⟩
    · exact ⟨idx, 10, found, by simpa using bare⟩
    · exact ⟨idx, 13, found, by simpa using ⟨inside, bare⟩⟩

variable {idx : Nat}

theorem lt_length_of_getElem? {data : Bytes} {byte : UInt8} (found : data[idx]? = some byte)
    : idx < data.length := by
  obtain ⟨inside, -⟩ := List.getElem?_eq_some_iff.mp found
  exact inside

variable {line : Bytes}

theorem IsPlain.no_carriageReturn (plain : IsPlain line) : 13 ∉ line :=
  fun member => (plain 13 member).2 rfl

theorem IsPlain.getElem?_ne {text} (plain : IsPlain text) (idx : Nat)
    : text[idx]? ≠ some 10 ∧ text[idx]? ≠ some 13 := by
  constructor
  · intro found
    exact (plain 10 (mem_of_getElem? found)).1 rfl
  · intro found
    exact (plain 13 (mem_of_getElem? found)).2 rfl

theorem IsPlain.hasBareLineFeed_eq (plain : IsPlain line) : hasBareLineFeed line = false := by
  rw [← not_eq_true, hasBareLineFeed_iff]
  rintro ⟨idx, found, -⟩
  exact (plain.getElem?_ne idx).1 found

/-- Line feeds behind a finished line are bare on their own terms. -/
theorem BareLineFeedAt.behind_line {text rest} (plain : IsPlain text)
    : BareLineFeedAt (text ++ crlf ++ rest) idx
      ↔ ∃ offset, idx = text.length + 2 + offset ∧ BareLineFeedAt rest offset := by
  have length : (text ++ crlf).length = text.length + 2 := by simp [crlf]
  have behind (offset : Nat)
      : (text ++ crlf ++ rest)[text.length + 2 + offset]? = rest[offset]? := by
    rw [List.getElem?_append_right (by omega), length]
    congr 1
    omega
  have within {index : Nat} (inside : index < text.length)
      : (text ++ crlf ++ rest)[index]? = text[index]? := by
    rw [append_assoc, List.getElem?_append_left inside]
  have first : (text ++ crlf ++ rest)[text.length]? = some 13 := by
    rw [append_assoc, List.getElem?_append_right (Nat.le_refl _)]
    simp [crlf]
  have second : (text ++ crlf ++ rest)[text.length + 1]? = some 10 := by
    rw [append_assoc, List.getElem?_append_right (by omega)]
    simp [crlf]
  constructor
  · rintro ⟨found, alone⟩
    rcases Nat.lt_trichotomy idx text.length with before | rfl | after
    · rw [within before] at found
      exact absurd found (plain.getElem?_ne idx).1
    · rw [first] at found
      cases found
    · obtain ⟨offset, rfl⟩ := Nat.exists_eq_add_of_lt after
      cases offset with
      | zero =>
        rcases alone with start | start
        · omega
        · exact absurd first start
      | succ offset =>
        have position : text.length + (offset + 1) + 1 = text.length + 2 + offset := by omega
        rw [position] at found alone ⊢
        refine ⟨offset, rfl, by rwa [behind] at found, ?_⟩
        cases offset with
        | zero => exact .inl rfl
        | succ offset =>
          refine .inr ?_
          rcases alone with start | start
          · omega
          · have previous : text.length + 2 + (offset + 1) - 1 = text.length + 2 + offset := by
              omega
            rwa [previous, behind] at start
  · rintro ⟨offset, rfl, found, alone⟩
    refine ⟨by rwa [behind], .inr ?_⟩
    cases offset with
    | zero =>
      rw [Nat.add_zero, Nat.add_sub_assoc (by decide), second]
      simp
    | succ offset =>
      have previous : text.length + 2 + (offset + 1) - 1 = text.length + 2 + offset := by
        omega
      rw [previous, behind]
      rcases alone with start | start
      · cases start
      · exact start

theorem hasBareLineFeed_line (plain : IsPlain line) (rest : Bytes)
    : hasBareLineFeed (line ++ crlf ++ rest) = hasBareLineFeed rest := by
  rw [Bool.eq_iff_iff, hasBareLineFeed_iff, hasBareLineFeed_iff]
  constructor
  · rintro ⟨idx, bare⟩
    obtain ⟨offset, -, behind⟩ := (BareLineFeedAt.behind_line plain).mp bare
    exact ⟨offset, behind⟩
  · rintro ⟨offset, bare⟩
    exact ⟨_, (BareLineFeedAt.behind_line plain).mpr ⟨offset, rfl, bare⟩⟩

variable {front : Bytes}

/-- More data keeps a bare line feed where it is. -/
theorem BareLineFeedAt.append (bare : BareLineFeedAt front idx) (back : Bytes)
    : BareLineFeedAt (front ++ back) idx := by
  obtain ⟨found, alone⟩ := bare
  have inside := lt_length_of_getElem? found
  refine ⟨by rw [List.getElem?_append_left inside, found], ?_⟩
  rwa [List.getElem?_append_left (by omega)]

theorem hasBareLineFeed_of_append {back} (clean : hasBareLineFeed (front ++ back) = false)
    : hasBareLineFeed front = false := by
  rw [← not_eq_true, hasBareLineFeed_iff] at clean ⊢
  rintro ⟨idx, bare⟩
  exact clean ⟨idx, bare.append back⟩

/-- More data keeps a bare carriage return where it is. -/
theorem BareCarriageReturnAt.append (bare : BareCarriageReturnAt front idx) (back : Bytes)
    : BareCarriageReturnAt (front ++ back) idx := by
  obtain ⟨found, inside, alone⟩ := bare
  refine ⟨by rw [List.getElem?_append_left (by omega), found], ?_, ?_⟩
  · rw [length_append]
    omega
  · rwa [List.getElem?_append_left inside]

theorem hasInvalidHttpLineEnding_append (invalid : hasInvalidHttpLineEnding front = true)
    (back : Bytes)
    : hasInvalidHttpLineEnding (front ++ back) = true := by
  obtain ⟨idx, feed | carriage⟩ := (hasInvalidHttpLineEnding_iff front).mp invalid
  · exact (hasInvalidHttpLineEnding_iff _).mpr ⟨idx, .inl (feed.append back)⟩
  · exact (hasInvalidHttpLineEnding_iff _).mpr ⟨idx, .inr (carriage.append back)⟩

/-- A finished line has no misplaced line break. -/
theorem hasInvalidHttpLineEnding_line {rest} (plain : IsPlain line)
    (clean : hasInvalidHttpLineEnding rest = false)
    : hasInvalidHttpLineEnding (line ++ crlf ++ rest) = false := by
  rw [← not_eq_true, hasInvalidHttpLineEnding_iff] at clean ⊢
  rintro ⟨idx, feed | ⟨found, inside, alone⟩⟩
  · obtain ⟨offset, -, behind⟩ := (BareLineFeedAt.behind_line plain).mp feed
    exact clean ⟨offset, .inl behind⟩
  · rw [append_assoc] at found alone inside
    rcases Nat.lt_or_ge idx line.length with before | after
    · rw [List.getElem?_append_left before] at found
      exact (plain.getElem?_ne idx).2 found
    obtain ⟨offset, rfl⟩ := Nat.exists_eq_add_of_le after
    rw [Nat.add_assoc] at alone
    rw [List.getElem?_append_right (by omega), Nat.add_sub_cancel_left] at found alone
    rw [length_append] at inside
    rcases offset with _ | _ | offset
    · exact alone rfl
    · cases found
    · exact clean ⟨offset, .inr ⟨found, by simp [crlf] at inside; omega, alone⟩⟩

/-- The bytes of an occurrence, position by position. -/
theorem getElem?_of_prefix_drop {needle data : Bytes} {start : Nat}
    (here : needle <+: data.drop start) {offset : Nat} {byte : UInt8}
    (found : needle[offset]? = some byte)
    : data[start + offset]? = some byte := by
  obtain ⟨rest, split⟩ := here
  have inside := lt_length_of_getElem? found
  rw [← List.getElem?_drop, ← split, List.getElem?_append_left inside, found]

/-- A misplaced line break in front of the first `\r\n` stays in the first line. -/
theorem misplaced_before_crlf {back lineLen} (missing : findSub crlf front = none)
    (found : findSub crlf (front ++ back) = some lineLen)
    (misplaced : BareLineFeedAt front idx ∨ BareCarriageReturnAt front idx)
    : ∃ byte ∈ (front ++ back).take lineLen, byte = 10 ∨ byte = 13 := by
  have reaches : front.length < lineLen + 2 := findSub_append_of_none (by decide) missing found
  have here := findSub_occurs found
  have carriage : (front ++ back)[lineLen + 0]? = some 13 := getElem?_of_prefix_drop here rfl
  rw [Nat.add_zero] at carriage
  have feed : (front ++ back)[lineLen + 1]? = some 10 := getElem?_of_prefix_drop here rfl
  rcases misplaced with bare | bare
  · have inside := lt_length_of_getElem? bare.1
    have later := (bare.append back).1
    have before : idx < lineLen := by
      rcases Nat.lt_or_ge idx lineLen with before | behind
      · exact before
      · rw [show idx = lineLen by omega, carriage] at later
        cases later
    exact ⟨10, mem_of_getElem? ((List.getElem?_take_of_lt before).trans later), .inl rfl⟩
  · have inside := bare.2.1
    have later := bare.append back
    have before : idx < lineLen := by
      rcases Nat.lt_or_ge idx lineLen with before | behind
      · exact before
      · have same : idx = lineLen := by omega
        rw [same] at later
        exact absurd feed later.2.2
    exact ⟨13, mem_of_getElem? ((List.getElem?_take_of_lt before).trans later.1), .inr rfl⟩

/-- A misplaced line break in front of the first blank line stays in the block before it:
as a line feed, or as a carriage return with no line feed behind it there.
-/
theorem misplaced_before_blankLine {back blockLen} (missing : findSub blankLine front = none)
    (found : findSub blankLine (front ++ back) = some blockLen)
    (misplaced : BareLineFeedAt front idx ∨ BareCarriageReturnAt front idx)
    : BareLineFeedAt ((front ++ back).take blockLen) idx
      ∨ ((front ++ back).take blockLen)[idx]? = some 13
        ∧ ((front ++ back).take blockLen)[idx + 1]? ≠ some 10 := by
  have reaches : front.length < blockLen + 4 :=
    findSub_append_of_none (by decide) missing found
  have here := findSub_occurs found
  have first : (front ++ back)[blockLen + 0]? = some 13 := getElem?_of_prefix_drop here rfl
  rw [Nat.add_zero] at first
  have second : (front ++ back)[blockLen + 1]? = some 10 := getElem?_of_prefix_drop here rfl
  have third : (front ++ back)[blockLen + 2]? = some 13 := getElem?_of_prefix_drop here rfl
  rcases misplaced with bare | bare
  · have inside := lt_length_of_getElem? bare.1
    obtain ⟨later, alone⟩ := bare.append back
    have before : idx < blockLen := by
      by_contra behind
      have places : idx = blockLen ∨ idx = blockLen + 1 ∨ idx = blockLen + 2 := by omega
      rcases places with same | same | same
      · rw [same, first] at later
        cases later
      · rw [same] at alone
        rcases alone with zero | other
        · omega
        · exact other (by rw [Nat.add_sub_cancel]; exact first)
      · rw [same, third] at later
        cases later
    refine .inl ⟨(List.getElem?_take_of_lt before).trans later, ?_⟩
    rcases alone with zero | other
    · exact .inl zero
    · exact .inr (by rwa [List.getElem?_take_of_lt (by omega)])
  · have inside := bare.2.1
    obtain ⟨later, -, alone⟩ := bare.append back
    have before : idx < blockLen := by
      by_contra behind
      have places : idx = blockLen ∨ idx = blockLen + 1 := by omega
      rcases places with same | same
      · rw [same] at alone
        exact alone second
      · rw [same, second] at later
        cases later
    refine .inr ⟨(List.getElem?_take_of_lt before).trans later, ?_⟩
    rcases Nat.lt_or_ge (idx + 1) blockLen with within | ended
    · rwa [List.getElem?_take_of_lt within]
    · rw [List.getElem?_take_eq_none ended]
      simp

end NetTrap.Http
