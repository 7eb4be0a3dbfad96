import NetTrap.Library.Search
import NetTrap.Rust.Text
import NetTrap.TcpFraming.Basic

/-! Framers that treat unrecognised data as one frame: Postgres, SOCKS, SMB and NKN.
How much they take depends on how much has arrived, so only soundness is shown here.
-/

namespace NetTrap.TcpFraming

open Access Search Rust

/-! Postgres. -/

def isPostgresTypedMessage (byte : UInt8) : Bool :=
  (ascii "QXPBDECHSF").contains byte

/-- Return `Incomplete` until `totalLen` bytes are there, then drain them. -/
def waitOrComplete (buffer : Bytes) (totalLen : Nat) : Exec (TcpFrameResult × Bytes) :=
  if buffer.length < totalLen then return (.incomplete, buffer)
  else completeFrame buffer totalLen

def extractPostgresFrame (buffer : Bytes) : Exec (TcpFrameResult × Bytes) := do
  if buffer.isEmpty then
    return (.incomplete, buffer)
  if isPostgresTypedMessage (← item buffer 0) then
    if buffer.length < 5 then
      return (.incomplete, buffer)
    let len :=
      u32FromBeBytes (← item buffer 1) (← item buffer 2) (← item buffer 3) (← item buffer 4)
    if len < 4 then
      return (.invalid none, [])
    match checkedAdd 1 len with
    | some totalLen =>
      if totalLen ≤ maxPostgresFrameSize then waitOrComplete buffer totalLen
      else return (.tooLarge none, [])
    | none => return (.tooLarge none, [])
  else
    if buffer.length < 4 then
      return (.incomplete, buffer)
    let len :=
      u32FromBeBytes (← item buffer 0) (← item buffer 1) (← item buffer 2) (← item buffer 3)
    if len < 4 then
      optionalFramer extractImmediateFrame buffer
    else if len > maxPostgresFrameSize then
      return (.tooLarge none, [])
    else
      waitOrComplete buffer len

/-! SOCKS. -/

def extractSocks4Frame (buffer : Bytes) : Exec (TcpFrameResult × Bytes) := do
  if buffer.length > maxSocks4FrameSize then
    return (.tooLarge none, [])
  if buffer.length < 9 then
    return (.incomplete, buffer)
  let some userEnd := (← sliceFrom buffer 8).findIdx? (· == 0) | return (.incomplete, buffer)
  let totalLen := 8 + userEnd + 1
  let isSocks4a :=
    (← item buffer 4) == 0 && (← item buffer 5) == 0 && (← item buffer 6) == 0
      && (← item buffer 7) != 0
  if isSocks4a then
    let hostStart := totalLen
    let some hostEnd := (← sliceFrom buffer hostStart).findIdx? (· == 0)
      | return (.incomplete, buffer)
    completeFrame buffer (hostStart + hostEnd + 1)
  else
    completeFrame buffer totalLen

def extractSocks5Frame (buffer : Bytes) : Exec (Option Bytes × Bytes) := do
  if buffer.length < 2 then
    return (none, buffer)
  let nmethods := (← item buffer 1).toNat
  let some greetingLen := checkedAdd 2 nmethods | return (none, buffer)
  if nmethods == 0 then
    someFrame buffer greetingLen
  else if nmethods > 0 && buffer.length < greetingLen then
    return (none, buffer)
  else if nmethods > 0 && buffer.length == greetingLen then
    someFrame buffer greetingLen
  else if buffer.length < 4 then
    return (none, buffer)
  else if (← item buffer 2) != 0x00 then
    extractImmediateFrame buffer
  else
    let addressType ← item buffer 3
    if addressType == 0x01 then
      if buffer.length < 10 then return (none, buffer) else someFrame buffer 10
    else if addressType == 0x03 then
      if buffer.length < 5 then
        return (none, buffer)
      let some totalLen := checkedAdd 7 (← item buffer 4).toNat | return (none, buffer)
      if buffer.length < totalLen then return (none, buffer) else someFrame buffer totalLen
    else if addressType == 0x04 then
      if buffer.length < 22 then return (none, buffer) else someFrame buffer 22
    else
      extractImmediateFrame buffer

def extractSocksFrame (buffer : Bytes) : Exec (TcpFrameResult × Bytes) := do
  match buffer.head? with
  | none => return (.incomplete, buffer)
  | some version =>
    if version == 0x04 then
      extractSocks4Frame buffer
    else if version == 0x05 then
      if buffer.length ≥ 2 then
        let greetingLen := 2 + (← item buffer 1).toNat
        if buffer.length == greetingLen then
          return ← optionalFramer extractSocks5Frame buffer
      if buffer.length ≥ 3 then
        if (← item buffer 2) != 0x00 then
          return (.invalid none, [])
      optionalFramer extractSocks5Frame buffer
    else
      optionalFramer extractImmediateFrame buffer

/-! SMB and NKN. -/

def extractSmbFrame (buffer : Bytes) : Exec (Option Bytes × Bytes) := do
  if buffer.length < 4 then
    return (none, buffer)
  if (← item buffer 0) != 0x00 then
    extractImmediateFrame buffer
  else if (← item buffer 1) &&& 0xfe != 0 then
    extractImmediateFrame buffer
  else
    let payloadLen :=
      (((← item buffer 1).toNat &&& 0x01) <<< 16) ||| ((← item buffer 2).toNat <<< 8)
        ||| (← item buffer 3).toNat
    let some totalLen := checkedAdd 4 payloadLen | return (none, buffer)
    if buffer.length < totalLen then
      return (none, buffer)
    someFrame buffer totalLen

/-- What the JSON stream decoder says about the value at the front of its input. -/
inductive JsonItem where
  | value (byteOffset : Nat)
  | eof
  | malformed
  | none
  deriving DecidableEq, Repr

/-- The NKN framer over any JSON stream decoder `nextJson`. -/
def extractNknFrame (nextJson : Bytes → JsonItem) (buffer : Bytes)
    : Exec (TcpFrameResult × Bytes) := do
  if buffer.isEmpty then
    return (.incomplete, buffer)
  if buffer.length > maxNknFrameSize then
    return (.tooLarge none, [])
  let jsonStart := (buffer.findIdx? (!isAsciiWhitespace ·)).getD buffer.length
  if jsonStart == buffer.length then
    return (.incomplete, buffer)
  if !(ascii "\x7b[").contains (← item buffer jsonStart) then
    return (.complete buffer, [])
  match nextJson (← sliceFrom buffer jsonStart) with
  | .value byteOffset =>
    let valueEnd := jsonStart + byteOffset
    let frameLen := valueEnd + ((buffer.drop valueEnd).takeWhile isAsciiWhitespace).length
    if frameLen != buffer.length then
      return (.invalid none, [])
    completeFrame buffer frameLen
  | .eof => return (.incomplete, buffer)
  | .malformed => return (.invalid none, [])
  | .none => return (.incomplete, buffer)

/-! Soundness. -/

variable {buffer : Bytes}

theorem Finishes.immediate : Finishes buffer (optionalFramer extractImmediateFrame buffer) :=
  OptionFinishes.immediate.finishes

theorem length_pos_of_not_isEmpty (nonempty : ¬ buffer.isEmpty = true) : 0 < buffer.length := by
  rw [List.length_pos_iff]
  simpa using nonempty

theorem extractPostgresFrame_finishes (buffer : Bytes)
    : Finishes buffer (extractPostgresFrame buffer) := by
  refine .guard .incomplete fun nonempty => ?_
  refine .read (length_pos_of_not_isEmpty nonempty) fun kind => ?_
  split
  · refine .guard .incomplete fun enough => ?_
    refine .read (by omega) fun b1 => .read (by omega) fun b2 => ?_
    refine .read (by omega) fun b3 => .read (by omega) fun b4 => ?_
    refine .guard (.invalid none) fun _ => ?_
    cases sum : checkedAdd 1 (u32FromBeBytes b1 b2 b3 b4) with
    | none => exact .tooLarge none
    | some totalLen =>
      have total := checkedAdd_eq sum
      simp only
      split
      · exact .waitOrComplete (by omega)
      · exact .tooLarge none
  · refine .guard .incomplete fun enough => ?_
    refine .read (by omega) fun b0 => .read (by omega) fun b1 => ?_
    refine .read (by omega) fun b2 => .read (by omega) fun b3 => ?_
    refine .guard .immediate fun atLeast => ?_
    refine .guard (.tooLarge none) fun _ => ?_
    exact .waitOrComplete (by omega)

theorem extractSocks4Frame_finishes (buffer : Bytes)
    : Finishes buffer (extractSocks4Frame buffer) := by
  refine .guard (.tooLarge none) fun _ => ?_
  refine .guard .incomplete fun enough => ?_
  rw [sliceFrom_of_le (by omega), Exec.done_bind]
  cases user : (buffer.drop 8).findIdx? (· == 0) with
  | none => exact .incomplete
  | some userEnd =>
    have userInside := findIdx?_lt user
    rw [List.length_drop] at userInside
    refine .read (by omega) fun b4 => .read (by omega) fun b5 => ?_
    refine .read (by omega) fun b6 => .read (by omega) fun b7 => ?_
    simp only
    split
    · rw [sliceFrom_of_le (by omega), Exec.done_bind]
      cases host : (buffer.drop (8 + userEnd + 1)).findIdx? (· == 0) with
      | none => exact .incomplete
      | some hostEnd =>
        have hostInside := findIdx?_lt host
        rw [List.length_drop] at hostInside
        exact .complete (by omega) (by omega)
    · exact .complete (by omega) (by omega)

theorem extractSocks5Frame_finishes (buffer : Bytes)
    : OptionFinishes buffer (extractSocks5Frame buffer) := by
  refine .guard (fun _ => .none) fun enough => ?_
  refine .read (by omega) fun methods => ?_
  cases sum : checkedAdd 2 methods.toNat with
  | none => simp only [sum]; exact .none
  | some greetingLen =>
    have total := checkedAdd_eq sum
    simp only [sum]
    refine .guard (fun noMethods => ?_) fun _ => ?_
    · have zero := eq_of_beq noMethods
      exact .drained (by omega) (by omega)
    refine .guard (fun _ => .none) fun _ => ?_
    refine .guard (fun exactly => ?_) fun _ => ?_
    · simp only [Bool.and_eq_true, beq_iff_eq] at exactly
      exact .drained (by omega) (by omega)
    refine .guard (fun _ => .none) fun four => ?_
    refine .read (by omega) fun reserved => ?_
    refine .guard (fun _ => .immediate) fun _ => ?_
    refine .read (by omega) fun addressType => ?_
    refine .guard (fun _ => .waitOrTake (by omega)) fun _ => ?_
    refine .guard (fun _ => ?_) fun _ => ?_
    · refine .guard (fun _ => .none) fun five => ?_
      refine .read (by omega) fun nameLen => ?_
      cases length : checkedAdd 7 nameLen.toNat with
      | none => exact .none
      | some totalLen =>
        have lengthEq := checkedAdd_eq length
        exact .waitOrTake (by omega)
    refine .guard (fun _ => .waitOrTake (by omega)) fun _ => ?_
    exact .immediate

theorem extractSocksFrame_finishes (buffer : Bytes)
    : Finishes buffer (extractSocksFrame buffer) := by
  have socks5 := (extractSocks5Frame_finishes buffer).finishes
  rw [extractSocksFrame]
  cases buffer.head? with
  | none => exact .incomplete
  | some version =>
    simp only
    refine .guard (extractSocks4Frame_finishes buffer) fun _ => ?_
    split
    · have request
          : Finishes buffer (if buffer.length ≥ 3 then do
                if (← item buffer 2) != 0x00 then return (.invalid none, [])
                else optionalFramer extractSocks5Frame buffer
              else optionalFramer extractSocks5Frame buffer) := by
        split
        · exact .read (by omega) fun reserved => .guard (.invalid none) fun _ => socks5
        · exact socks5
      split
      · exact .read (by omega) fun methods => .guard socks5 fun _ => request
      · exact request
    · exact .immediate

theorem extractSmbFrame_finishes (buffer : Bytes)
    : OptionFinishes buffer (extractSmbFrame buffer) := by
  refine .guard (fun _ => .none) fun enough => ?_
  refine .read (by omega) fun kind => ?_
  refine .guard (fun _ => .immediate) fun _ => ?_
  refine .read (by omega) fun flags => ?_
  refine .guard (fun _ => .immediate) fun _ => ?_
  refine .read (by omega) fun high => .read (by omega) fun mid => .read (by omega) fun low => ?_
  simp only
  generalize (((high.toNat &&& 0x01) <<< 16) ||| (mid.toNat <<< 8) ||| low.toNat) = payloadLen
  cases sum : checkedAdd 4 payloadLen with
  | none => exact .none
  | some totalLen =>
    have total := checkedAdd_eq sum
    exact .waitOrTake (by omega)

theorem extractNknFrame_finishes (nextJson : Bytes → JsonItem) (buffer : Bytes)
    : Finishes buffer (extractNknFrame nextJson buffer) := by
  refine .guard .incomplete fun nonempty => ?_
  refine .guard (.tooLarge none) fun _ => ?_
  have positive := length_pos_of_not_isEmpty nonempty
  cases found : buffer.findIdx? (!isAsciiWhitespace ·) with
  | none => exact .guard .incomplete fun unequal => absurd (beq_self_eq_true _) unequal
  | some jsonStart =>
    have inside := findIdx?_lt found
    simp only [Option.getD_some]
    refine .guard .incomplete fun _ => ?_
    refine .read inside fun opening => ?_
    refine .guard ⟨_, rfl, List.ne_nil_of_length_pos positive, by simp⟩ fun _ => ?_
    rw [sliceFrom_of_le (by omega), Exec.done_bind]
    cases nextJson (buffer.drop jsonStart) with
    | value byteOffset =>
      refine .guard (.invalid none) fun whole => ?_
      simp only [bne_iff_ne, ne_eq, not_not] at whole
      exact .complete (by omega) (by omega)
    | eof => exact .incomplete
    | malformed => exact .invalid none
    | none => exact .incomplete

end NetTrap.TcpFraming
