import NetTrap.TcpFraming.Memcached

/-! The Redis framer: inline commands as lines, and RESP arrays of bulk strings.
Positions only move forward, so each bulk string is decided by the bytes up to its end.
-/

namespace NetTrap.TcpFraming

open Access Framing Search Rust List Option

def findCrlfFrom (haystack : Bytes) (start : Nat) : Option Nat :=
  if start ≤ haystack.length then
    (findSub crlf (haystack.drop start)).map fun offset => start + offset
  else none

def parseRespArrayCount (text : Str) : Option Nat :=
  if text.isEmpty || !text.all isAsciiDigit then none else parseDecimalUsize text

def parseRespBulkLen (text : Str) : Option (Option Nat) :=
  if text == ascii "-1" then some none
  else if text.isEmpty || !text.all isAsciiDigit then none
  else (parseDecimalUsize text).map some

/-- The loop over the bulk strings of an array, `remaining` of them from `pos` on. -/
def redisBulkLoop (buffer : Bytes) : Nat → Nat → Exec (TcpFrameResult × Bytes)
  | 0, pos => completeFrame buffer pos
  | remaining + 1, pos => do
      if pos ≥ buffer.length then
        return (.incomplete, buffer)
      if (← item buffer pos) != 36 then
        return (.invalid none, [])
      let some bulkHeaderEnd := findCrlfFrom buffer pos | return (.incomplete, buffer)
      let some bulkLenText := fromUtf8 (← slice buffer (pos + 1) bulkHeaderEnd)
        | return (.invalid none, [])
      let some bulkLen := parseRespBulkLen bulkLenText | return (.invalid none, [])
      let pos := bulkHeaderEnd + 2
      let some bulkLen := bulkLen | return (.invalid none, [])
      if bulkLen > maxRedisBulkSize then
        return (.tooLarge none, [])
      let some dataEnd := checkedAdd pos bulkLen | return (.tooLarge none, [])
      let some framePos := checkedAdd dataEnd 2 | return (.tooLarge none, [])
      if framePos > maxRedisFrameSize then
        return (.tooLarge none, [])
      if buffer.length < framePos then
        return (.incomplete, buffer)
      if (← slice buffer dataEnd framePos) != crlf then
        return (.invalid none, [])
      redisBulkLoop buffer remaining framePos

def extractRedisRespArrayFrame (buffer : Bytes) : Exec (TcpFrameResult × Bytes) := do
  let some headerEnd := findCrlfFrom buffer 0 | return (.incomplete, buffer)
  let some countText := fromUtf8 (← slice buffer 1 headerEnd) | return (.invalid none, [])
  let some count := parseRespArrayCount countText | return (.invalid none, [])
  if count == 0 then
    return (.invalid none, [])
  if count > maxRedisArrayCount then
    return (.tooLarge none, [])
  redisBulkLoop buffer count (headerEnd + 2)

def extractRedisFrame (buffer : Bytes) : Exec (TcpFrameResult × Bytes) := do
  if buffer.isEmpty then
    return (.incomplete, buffer)
  if buffer.length > maxRedisFrameSize then
    return (.tooLarge none, [])
  if (← item buffer 0) == 42 then
    extractRedisRespArrayFrame buffer
  else
    extractLimitedLineFrame buffer maxLineFrameSize

/-! Decisions. -/

/-- The bytes between a marker and the line break that ends its header. -/
def headerText (buffer : Bytes) (marker headerEnd : Nat) : Option Str :=
  fromUtf8 ((buffer.take headerEnd).drop (marker + 1))

def redisBulkDecision (buffer : Bytes) : Nat → Nat → Decision Rejection
  | 0, pos => .take pos
  | remaining + 1, pos =>
    if pos ≥ buffer.length then .more
    else if buffer.getD pos 0 != 36 then .reject (dropInvalid none)
    else
      match findCrlfFrom buffer pos with
      | none => .more
      | some headerEnd =>
        match (headerText buffer pos headerEnd).bind parseRespBulkLen with
        | some (some bulkLen) =>
          let framePos := headerEnd + 2 + bulkLen + 2
          if bulkLen > maxRedisBulkSize then .reject (dropTooLarge none)
          else if framePos > maxRedisFrameSize then .reject (dropTooLarge none)
          else if buffer.length < framePos then .more
          else if (buffer.take framePos).drop (headerEnd + 2 + bulkLen) != crlf then
            .reject (dropInvalid none)
          else redisBulkDecision buffer remaining framePos
        | _ => .reject (dropInvalid none)

def redisArrayDecision (buffer : Bytes) : Decision Rejection :=
  match findCrlfFrom buffer 0 with
  | none => .more
  | some headerEnd =>
    match (headerText buffer 0 headerEnd).bind parseRespArrayCount with
    | some count =>
      if count == 0 then .reject (dropInvalid none)
      else if count > maxRedisArrayCount then .reject (dropTooLarge none)
      else redisBulkDecision buffer count (headerEnd + 2)
    | none => .reject (dropInvalid none)

def redisDecision (buffer : Bytes) : Decision Rejection :=
  if buffer.isEmpty then .more
  else if buffer.length > maxRedisFrameSize then .reject (dropTooLarge none)
  else if buffer.getD 0 0 == 42 then redisArrayDecision buffer
  else lineDecision maxLineFrameSize buffer

/-! Line breaks from a position on. -/

section

variable {haystack start found} (located : findCrlfFrom haystack start = some found)
include located

theorem findCrlfFrom_bounds : start ≤ found ∧ found + 2 ≤ haystack.length := by
  simp only [findCrlfFrom] at located
  split at located
  · obtain ⟨offset, searched, rfl⟩ := map_eq_some_iff.mp located
    have fits : offset + 2 ≤ (haystack.drop start).length :=
      findSub_add_le (by decide) searched
    rw [length_drop] at fits
    omega
  · cases located

/-- A marker byte is not the line break that ends its header. -/
theorem findCrlfFrom_after (marker : haystack.getD start 0 ≠ 13) : start < found := by
  have bounds := findCrlfFrom_bounds located
  rcases Nat.lt_or_eq_of_le bounds.1 with after | rfl
  · exact after
  · simp only [findCrlfFrom] at located
    rw [if_pos (by omega)] at located
    obtain ⟨offset, searched, at0⟩ := map_eq_some_iff.mp located
    obtain ⟨tail, here⟩ := findSub_occurs (show findSub crlf _ = some 0 by
      rw [searched, show offset = 0 by omega])
    have first : haystack[start]? = some 13 := by
      rw [← head?_drop, ← drop_zero (l := haystack.drop start), ← here]
      rfl
    exact absurd (by simp [first]) marker

end

theorem findCrlfFrom_append {front start found} (located : findCrlfFrom front start = some found)
    (back : Bytes)
    : findCrlfFrom (front ++ back) start = some found := by
  have bounds := findCrlfFrom_bounds located
  simp only [findCrlfFrom] at located ⊢
  rw [if_pos (by omega)] at located
  rw [if_pos (by rw [length_append]; omega), drop_append_of_le_length (by omega)]
  obtain ⟨offset, searched, rfl⟩ := map_eq_some_iff.mp located
  rw [findSub_append_of_some (by decide) searched back]
  rfl

theorem headerText_append {front headerEnd} (inside : headerEnd ≤ front.length) (back : Bytes)
    (marker : Nat)
    : headerText (front ++ back) marker headerEnd = headerText front marker headerEnd := by
  rw [headerText, take_append_of_le_length inside, headerText]

/-! Refinement. -/

variable {buffer : Bytes}

/-- The data of one bulk string; both overflow checks answer as the size limit does. -/
theorem redisBulkData_refines (remaining dataStart bulkLen : Nat) (onward
      : ∀ {pos}, pos ≤ buffer.length → redisBulkLoop buffer remaining pos
            = .done (outcome buffer ((redisBulkDecision buffer remaining pos).cut buffer)))
    : (do
        let some dataEnd := checkedAdd dataStart bulkLen | return (.tooLarge none, [])
        let some framePos := checkedAdd dataEnd 2 | return (.tooLarge none, [])
        if framePos > maxRedisFrameSize then
          return (.tooLarge none, [])
        if buffer.length < framePos then
          return (.incomplete, buffer)
        if (← slice buffer dataEnd framePos) != crlf then
          return (.invalid none, [])
        redisBulkLoop buffer remaining framePos : Exec (TcpFrameResult × Bytes))
      = .done (outcome buffer (Decision.cut buffer (let framePos := dataStart + bulkLen + 2
          if framePos > maxRedisFrameSize then .reject (dropTooLarge none)
          else if buffer.length < framePos then .more
          else if (buffer.take framePos).drop (dataStart + bulkLen) != crlf then
            .reject (dropInvalid none)
          else redisBulkDecision buffer remaining framePos))) := by
  by_cases fits : dataStart + bulkLen + 2 ≤ usizeMax
  · rw [checkedAdd_of_le (by omega)]
    simp only
    rw [checkedAdd_of_le fits]
    simp only
    refine guard_reject rfl fun _ => ?_
    refine guard_more fun arrived => ?_
    rw [slice_of_le (by omega) (by omega)]
    simp only [Exec.done_bind]
    refine guard_reject rfl fun _ => ?_
    exact onward (by omega)
  · have long : dataStart + bulkLen + 2 > maxRedisFrameSize := by
      simp only [usizeMax, maxRedisFrameSize] at fits ⊢
      omega
    simp only [if_pos long]
    cases sum : checkedAdd dataStart bulkLen with
    | none => rfl
    | some dataEnd =>
      have total : dataEnd = dataStart + bulkLen := checkedAdd_eq sum
      simp only [total]
      rw [checkedAdd_of_lt (by omega)]
      rfl

/-- The loop follows its decision from any position inside the buffer, by induction on the
bulk strings still to read.
-/
theorem redisBulkLoop_refines (buffer : Bytes) (remaining : Nat) {pos : Nat}
    (inside : pos ≤ buffer.length)
    : redisBulkLoop buffer remaining pos
      = .done (outcome buffer ((redisBulkDecision buffer remaining pos).cut buffer)) := by
  induction remaining generalizing pos with
  | zero => rw [redisBulkLoop, redisBulkDecision, outcome_take_of_le inside,
      completeFrame_of_le inside]
  | succ remaining ih =>
    simp only [redisBulkLoop, redisBulkDecision]
    refine guard_more fun before => ?_
    rw [item_eq_getD (by omega) 0]
    simp only [Exec.done_bind]
    refine guard_reject rfl fun marked => ?_
    have marker : buffer.getD pos 0 = 36 := by simpa using marked
    cases located : findCrlfFrom buffer pos with
    | none => rfl
    | some headerEnd =>
      have after := findCrlfFrom_after located (by rw [marker]; decide)
      have bounds := findCrlfFrom_bounds located
      simp only
      rw [slice_of_le (by omega) (by omega)]
      simp only [Exec.done_bind, headerText]
      cases fromUtf8 ((buffer.take headerEnd).drop (pos + 1)) with
      | none => rfl
      | some text =>
        simp only [bind_some]
        cases parseRespBulkLen text with
        | none => rfl
        | some announced =>
          cases announced with
          | none => rfl
          | some bulkLen =>
            simp only
            refine guard_reject rfl fun small => ?_
            exact redisBulkData_refines remaining (headerEnd + 2) bulkLen @ih

theorem extractRedisRespArrayFrame_refines (marker : buffer.getD 0 0 = 42)
    : extractRedisRespArrayFrame buffer
      = .done (outcome buffer ((redisArrayDecision buffer).cut buffer)) := by
  simp only [extractRedisRespArrayFrame, redisArrayDecision]
  cases located : findCrlfFrom buffer 0 with
  | none => rfl
  | some headerEnd =>
    have after := findCrlfFrom_after located (by rw [marker]; decide)
    have bounds := findCrlfFrom_bounds located
    simp only
    rw [slice_of_le (by omega) (by omega)]
    simp only [Exec.done_bind, headerText]
    cases fromUtf8 ((buffer.take headerEnd).drop 1) with
    | none => rfl
    | some text =>
      simp only [bind_some]
      cases parseRespArrayCount text with
      | none => rfl
      | some count =>
        simp only
        refine guard_reject rfl fun _ => ?_
        refine guard_reject rfl fun _ => ?_
        exact redisBulkLoop_refines buffer count bounds.2

theorem extractRedisFrame_refines : Refines extractRedisFrame redisDecision := by
  intro buffer
  simp only [extractRedisFrame, follow, redisDecision]
  refine guard_more fun nonempty => ?_
  refine guard_reject rfl fun _ => ?_
  have inside : 0 < buffer.length := by
    rw [length_pos_iff]
    simpa using nonempty
  rw [item_eq_getD inside 0]
  simp only [Exec.done_bind]
  split
  · rename_i starred
    exact extractRedisRespArrayFrame_refines (by simpa using starred)
  · exact extractLimitedLineFrame_refines maxLineFrameSize buffer

/-! Stability. -/

/-- A bulk string that has arrived is read the same way with more data behind it, by
induction on the bulk strings still to read.
-/
theorem redisBulkDecision_settled (front back : Bytes) (remaining pos : Nat)
    : redisBulkDecision front remaining pos = .more
      ∨ redisBulkDecision (front ++ back) remaining pos
        = redisBulkDecision front remaining pos := by
  induction remaining generalizing pos with
  | zero => exact .inr rfl
  | succ remaining ih =>
    simp only [redisBulkDecision]
    by_cases ended : pos ≥ front.length
    · exact .inl (if_pos ended)
    have endedLater : ¬ pos ≥ (front ++ back).length := by
      simp
      omega
    rw [if_neg ended, if_neg endedLater, getD_append_of_lt (by omega)]
    split
    · exact .inr rfl
    cases located : findCrlfFrom front pos with
    | none => exact .inl rfl
    | some headerEnd =>
      have bounds := findCrlfFrom_bounds located
      rw [findCrlfFrom_append located back]
      simp only [headerText_append (show headerEnd ≤ front.length by omega) back]
      rcases (headerText front pos headerEnd).bind parseRespBulkLen with _ | _ | bulkLen
      · exact .inr rfl
      · exact .inr rfl
      simp only
      split
      · exact .inr rfl
      split
      · exact .inr rfl
      by_cases short : front.length < headerEnd + 2 + bulkLen + 2
      · exact .inl (if_pos short)
      have shortLater : ¬ (front ++ back).length < headerEnd + 2 + bulkLen + 2 := by
        simp
        omega
      rw [if_neg short, if_neg shortLater, take_append_of_le_length (by omega)]
      split
      · exact .inr rfl
      · exact ih _

theorem redisArrayDecision_settled (front back : Bytes)
    : redisArrayDecision front = .more
      ∨ redisArrayDecision (front ++ back) = redisArrayDecision front := by
  simp only [redisArrayDecision]
  cases located : findCrlfFrom front 0 with
  | none => exact .inl rfl
  | some headerEnd =>
    have bounds := findCrlfFrom_bounds located
    rw [findCrlfFrom_append located back]
    simp only [headerText_append (show headerEnd ≤ front.length by omega) back]
    cases (headerText front 0 headerEnd).bind parseRespArrayCount with
    | none => exact .inr rfl
    | some count =>
      simp only
      split
      · exact .inr rfl
      split
      · exact .inr rfl
      · exact redisBulkDecision_settled front back count _

theorem redisDecision_kept {front back : Bytes}
    (bounded : (front ++ back).length ≤ maxRedisFrameSize)
    : (redisDecision front).Kept (redisDecision (front ++ back)) := by
  by_cases empty : front = []
  · rw [empty]
    exact .opened _
  have inside : 0 < front.length := length_pos_iff.mpr empty
  have shorter : ¬ front.length > maxRedisFrameSize := by
    rw [length_append] at bounded
    omega
  simp only [redisDecision, isEmpty_eq_false_iff.mpr empty, shorter,
    isEmpty_eq_false_iff.mpr (append_ne_nil_of_left_ne_nil empty back),
    show ¬ (front ++ back).length > maxRedisFrameSize by omega, getD_append_of_lt inside,
    Bool.false_eq_true, if_false]
  split
  · exact .of_settled (redisArrayDecision_settled front back)
  · exact lineDecision_kept maxLineFrameSize front back

theorem redisBulkDecision_positive {remaining pos length : Nat} (behind : 0 < pos)
    (asked : redisBulkDecision buffer remaining pos = .take length)
    : 0 < length := by
  induction remaining generalizing pos with
  | zero =>
    cases asked
    exact behind
  | succ remaining ih =>
    have marked := take_of_guard (take_of_wait asked)
    split at marked
    · cases marked
    split at marked
    · refine ih ?_ (take_of_guard (take_of_wait (take_of_guard (take_of_guard marked))))
      omega
    · cases marked

theorem redisDecision_positive : Positive redisDecision := by
  intro buffer length asked
  have bounded := take_of_guard (take_of_wait asked)
  split at bounded
  · simp only [redisArrayDecision] at bounded
    split at bounded
    · cases bounded
    split at bounded
    · exact redisBulkDecision_positive (Nat.succ_pos _) (take_of_guard (take_of_guard bounded))
    · cases bounded
  · exact lineDecision_positive maxLineFrameSize buffer length bounded

end NetTrap.TcpFraming
