import NetTrap.TcpFraming.Delimited

/-! The memcached framer: binary requests with a length field, and text commands whose
storage forms announce a data block behind the command line.
-/

namespace NetTrap.TcpFraming

open Access Framing Search Rust List

/-- `b"ERROR\r\n"`. -/
def memcachedError : Bytes := ascii "ERROR\r\n"

def extractMemcachedBinaryFrame (buffer : Bytes) : Exec (TcpFrameResult × Bytes) := do
  if buffer.length < 24 then
    return (.incomplete, buffer)
  let bodyLen :=
    u32FromBeBytes (← item buffer 8) (← item buffer 9) (← item buffer 10) (← item buffer 11)
  let some totalLen := checkedAdd 24 bodyLen | return (.tooLarge none, [])
  if totalLen > maxMemcachedFrameSize then
    return (.tooLarge none, [])
  if buffer.length < totalLen then
    return (.incomplete, buffer)
  completeFrame buffer totalLen

def parseMemcachedUnsignedDecimal (value : Str) : Option Nat :=
  if value.isEmpty || !value.all isAsciiDigit then none else parseDecimalUsize value

/-- Commands that are followed by a data block. -/
def memcachedStorageCommands : List Str :=
  ["set", "add", "replace", "append", "prepend", "cas"].map ascii

def memcachedStorageBodyLen (header : Str) : Except Unit (Option Nat) :=
  if (chars header).any fun ch => isWhitespace ch && ch != 32 then .error ()
  else
    let parts := header.splitOn 32
    if (parts.drop 1).any List.isEmpty then .error ()
    else
      match parts with
      | [] => .ok none
      | command :: parts =>
        if !memcachedStorageCommands.contains (command.map toAsciiLowercase) then .ok none
        else
          match parts[3]? with
          | none => .error ()
          | some bytes =>
            match parseMemcachedUnsignedDecimal bytes with
            | some bodyLen => .ok (some bodyLen)
            | none => .error ()

/-- `header.strip_suffix(b"\r").unwrap_or(header)`. -/
def stripCarriageReturn (header : Bytes) : Bytes :=
  if header.getLast? == some 13 then header.dropLast else header

def extractMemcachedFrame (buffer : Bytes) : Exec (TcpFrameResult × Bytes) := do
  if buffer.isEmpty then
    return (.incomplete, buffer)
  if (← item buffer 0) == 0x80 then
    extractMemcachedBinaryFrame buffer
  else
    let some lineEnd := buffer.findIdx? (· == 10)
      | if buffer.length > maxMemcachedLineSize then return (.tooLarge none, [])
        else return (.incomplete, buffer)
    if lineEnd == 0 || buffer[lineEnd - 1]? != some 13 then
      return (.invalid (some memcachedError), [])
    let headerLen := lineEnd + 1
    if headerLen > maxMemcachedLineSize then
      return (.tooLarge none, [])
    let header ← slice buffer 0 lineEnd
    let some headerText := fromUtf8 (stripCarriageReturn header) | return (.invalid none, [])
    match memcachedStorageBodyLen headerText with
    | .ok (some bodyLen) =>
      let some bodyEnd := checkedAdd headerLen bodyLen | return (.tooLarge none, [])
      let some totalLen := checkedAdd bodyEnd 2 | return (.tooLarge none, [])
      if totalLen > maxMemcachedFrameSize then
        return (.tooLarge none, [])
      if buffer.length < totalLen then
        return (.incomplete, buffer)
      if (← slice buffer bodyEnd totalLen) != crlf then
        return (.invalid none, [])
      completeFrame buffer totalLen
    | .ok none => completeFrame buffer headerLen
    | .error _ => return (.invalid (some memcachedError), [])

/-! Decisions. -/

def memcachedBinaryDecision (buffer : Bytes) : Decision Rejection :=
  if buffer.length < 24 then .more
  else
    let totalLen :=
      24 + u32FromBeBytes (buffer.getD 8 0) (buffer.getD 9 0) (buffer.getD 10 0)
        (buffer.getD 11 0)
    if totalLen > maxMemcachedFrameSize then .reject (dropTooLarge none) else .take totalLen

/-- A storage command's data block must end in a line break. -/
def memcachedBodyDecision (buffer : Bytes) (bodyEnd : Nat) : Decision Rejection :=
  if bodyEnd + 2 > maxMemcachedFrameSize then .reject (dropTooLarge none)
  else if buffer.length < bodyEnd + 2 then .more
  else if (buffer.take (bodyEnd + 2)).drop bodyEnd != crlf then .reject (dropInvalid none)
  else .take (bodyEnd + 2)

def memcachedLineDecision (buffer : Bytes) (lineEnd : Nat) : Decision Rejection :=
  if lineEnd == 0 || buffer[lineEnd - 1]? != some 13 then
    .reject (dropInvalid (some memcachedError))
  else if lineEnd + 1 > maxMemcachedLineSize then .reject (dropTooLarge none)
  else
    match fromUtf8 (stripCarriageReturn (buffer.take lineEnd)) with
    | none => .reject (dropInvalid none)
    | some header =>
      match memcachedStorageBodyLen header with
      | .ok (some bodyLen) => memcachedBodyDecision buffer (lineEnd + 1 + bodyLen)
      | .ok none => .take (lineEnd + 1)
      | .error _ => .reject (dropInvalid (some memcachedError))

def memcachedDecision (buffer : Bytes) : Decision Rejection :=
  if buffer.isEmpty then .more
  else if buffer.getD 0 0 == 0x80 then memcachedBinaryDecision buffer
  else
    match buffer.findIdx? (· == 10) with
    | some lineEnd => memcachedLineDecision buffer lineEnd
    | none =>
      if buffer.length > maxMemcachedLineSize then .reject (dropTooLarge none) else .more

theorem extractMemcachedBinaryFrame_refines
    : Refines extractMemcachedBinaryFrame memcachedBinaryDecision := by
  intro buffer
  simp only [extractMemcachedBinaryFrame, follow, memcachedBinaryDecision]
  refine guard_more fun enough => ?_
  rw [item_eq_getD (show 8 < buffer.length by omega) 0,
    item_eq_getD (show 9 < buffer.length by omega) 0,
    item_eq_getD (show 10 < buffer.length by omega) 0,
    item_eq_getD (show 11 < buffer.length by omega) 0]
  have small := u32FromBeBytes_lt (buffer.getD 8 0) (buffer.getD 9 0) (buffer.getD 10 0)
    (buffer.getD 11 0)
  simp only [Exec.done_bind]
  generalize u32FromBeBytes (buffer.getD 8 0) (buffer.getD 9 0) (buffer.getD 10 0)
    (buffer.getD 11 0) = bodyLen at small ⊢
  rw [checkedAdd_of_le (by simp only [usizeMax]; omega)]
  refine guard_reject rfl fun _ => ?_
  exact wait_or_complete _

/-- The data block behind a storage command; both overflow checks answer as the size
limit does.
-/
theorem memcachedBody_refines (buffer : Bytes) (headerLen bodyLen : Nat)
    : (do
        let some bodyEnd := checkedAdd headerLen bodyLen | return (.tooLarge none, [])
        let some totalLen := checkedAdd bodyEnd 2 | return (.tooLarge none, [])
        if totalLen > maxMemcachedFrameSize then
          return (.tooLarge none, [])
        if buffer.length < totalLen then
          return (.incomplete, buffer)
        if (← slice buffer bodyEnd totalLen) != crlf then
          return (.invalid none, [])
        completeFrame buffer totalLen : Exec (TcpFrameResult × Bytes))
      = .done (outcome buffer
          ((memcachedBodyDecision buffer (headerLen + bodyLen)).cut buffer)) := by
  simp only [memcachedBodyDecision]
  by_cases fits : headerLen + bodyLen + 2 ≤ usizeMax
  · rw [checkedAdd_of_le (by omega)]
    simp only
    rw [checkedAdd_of_le fits]
    simp only
    refine guard_reject rfl fun _ => ?_
    refine guard_more fun arrived => ?_
    rw [slice_of_le (by omega) (by omega)]
    simp only [Exec.done_bind]
    refine guard_reject rfl fun _ => ?_
    rw [outcome_take_of_le (by omega), completeFrame_of_le (by omega)]
  · have long : headerLen + bodyLen + 2 > maxMemcachedFrameSize := by
      simp only [usizeMax, maxMemcachedFrameSize] at fits ⊢
      omega
    rw [if_pos long]
    cases sum : checkedAdd headerLen bodyLen with
    | none => rfl
    | some bodyEnd =>
      have total : bodyEnd = headerLen + bodyLen := checkedAdd_eq sum
      simp only [total]
      rw [checkedAdd_of_lt (by omega)]
      rfl

theorem extractMemcachedFrame_refines : Refines extractMemcachedFrame memcachedDecision := by
  intro buffer
  simp only [extractMemcachedFrame, follow, memcachedDecision]
  refine guard_more fun nonempty => ?_
  have inside : 0 < buffer.length := by
    rw [length_pos_iff]
    simpa using nonempty
  rw [item_eq_getD inside 0]
  simp only [Exec.done_bind]
  split
  · exact extractMemcachedBinaryFrame_refines buffer
  · cases found : buffer.findIdx? (· == 10) with
    | none => exact guard_reject rfl fun _ => rfl
    | some lineEnd =>
      have lineInside := findIdx?_lt found
      simp only [memcachedLineDecision]
      refine guard_reject rfl fun _ => ?_
      refine guard_reject rfl fun short => ?_
      rw [slice_of_le (Nat.zero_le _) (Nat.le_of_lt lineInside)]
      simp only [Exec.done_bind, drop_zero]
      cases fromUtf8 (stripCarriageReturn (buffer.take lineEnd)) with
      | none => rfl
      | some header =>
        simp only
        cases memcachedStorageBodyLen header with
        | error => rfl
        | ok announced =>
          cases announced with
          | none =>
            simp only
            rw [outcome_take_of_le lineInside, completeFrame_of_le lineInside]
          | some bodyLen => exact memcachedBody_refines buffer (lineEnd + 1) bodyLen

/-- More data does not move a header field that has arrived. -/
theorem getD_append_of_lt {front index} (inside : index < front.length) (back : Bytes)
    : (front ++ back).getD index 0 = front.getD index 0 := by
  simp [getElem?_append_left inside]

theorem memcachedBinaryDecision_settled (front back : Bytes)
    : memcachedBinaryDecision front = .more
      ∨ memcachedBinaryDecision (front ++ back) = memcachedBinaryDecision front := by
  simp only [memcachedBinaryDecision]
  by_cases short : front.length < 24
  · exact .inl (if_pos short)
  · refine .inr ?_
    rw [if_neg short, if_neg (by rw [length_append]; omega),
      getD_append_of_lt (by omega), getD_append_of_lt (by omega), getD_append_of_lt (by omega),
      getD_append_of_lt (by omega)]

theorem memcachedBodyDecision_settled (front back : Bytes) (bodyEnd : Nat)
    : memcachedBodyDecision front bodyEnd = .more
      ∨ memcachedBodyDecision (front ++ back) bodyEnd = memcachedBodyDecision front bodyEnd := by
  simp only [memcachedBodyDecision]
  by_cases long : bodyEnd + 2 > maxMemcachedFrameSize
  · exact .inr (by rw [if_pos long, if_pos long])
  · rw [if_neg long, if_neg long]
    by_cases short : front.length < bodyEnd + 2
    · exact .inl (if_pos short)
    · refine .inr ?_
      rw [if_neg short, if_neg (by rw [length_append]; omega), take_append_of_le_length (by omega)]

variable {lineEnd : Nat}

theorem memcachedLineDecision_settled {front : Bytes} (back : Bytes)
    (inside : lineEnd < front.length)
    : memcachedLineDecision front lineEnd = .more
      ∨ memcachedLineDecision (front ++ back) lineEnd = memcachedLineDecision front lineEnd := by
  simp only [memcachedLineDecision]
  rw [getElem?_append_left (by omega), take_append_of_le_length (by omega)]
  split
  · exact .inr rfl
  · split
    · exact .inr rfl
    · split
      · exact .inr rfl
      · split
        · exact memcachedBodyDecision_settled front back _
        · exact .inr rfl
        · exact .inr rfl

theorem memcachedLineDecision_of_long (buffer : Bytes) (long : maxMemcachedLineSize < lineEnd + 1)
    : ∃ rejection, memcachedLineDecision buffer lineEnd = .reject rejection := by
  simp only [memcachedLineDecision, gt_iff_lt, long, if_true]
  split <;> exact ⟨_, rfl⟩

theorem memcachedDecision_kept (front back : Bytes)
    : (memcachedDecision front).Kept (memcachedDecision (front ++ back)) := by
  by_cases empty : front = []
  · rw [empty]
    exact .opened _
  have inside : 0 < front.length := length_pos_iff.mpr empty
  simp only [memcachedDecision, isEmpty_eq_false_iff.mpr empty,
    isEmpty_eq_false_iff.mpr (append_ne_nil_of_left_ne_nil empty back),
    getD_append_of_lt inside, Bool.false_eq_true, if_false]
  split
  · exact .of_settled (memcachedBinaryDecision_settled _ back)
  · cases found : front.findIdx? (· == 10) with
    | some lineEnd =>
      rw [findIdx?_append_of_some found back]
      exact .of_settled (memcachedLineDecision_settled back (findIdx?_lt found))
    | none =>
      simp only
      split
      · rename_i long
        cases later : (front ++ back).findIdx? (· == 10) with
        | some lineEnd =>
          have behind := findIdx?_append_of_none found later
          have tooLong : maxMemcachedLineSize < lineEnd + 1 := by omega
          obtain ⟨rejection, rejected⟩ :=
            memcachedLineDecision_of_long (front ++ back) tooLong
          simp only [rejected]
          exact .rejected _ _
        | none =>
          simp only
          rw [if_pos (by rw [length_append]; omega)]
          exact .same _
      · exact .opened _

theorem memcachedLineDecision_positive {buffer length}
    (asked : memcachedLineDecision buffer lineEnd = .take length)
    : 0 < length := by
  have checked := take_of_guard (take_of_guard asked)
  split at checked
  · cases checked
  split at checked
  · cases take_of_guard (take_of_wait (take_of_guard checked))
    omega
  · cases checked
    omega
  · cases checked

theorem memcachedDecision_positive : Positive memcachedDecision := by
  intro buffer length asked
  have nonempty := take_of_wait asked
  split at nonempty
  · cases take_of_guard (take_of_wait nonempty)
    omega
  split at nonempty
  · exact memcachedLineDecision_positive nonempty
  · cases take_of_guard nonempty

end NetTrap.TcpFraming
