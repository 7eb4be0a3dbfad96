import NetTrap.Library.Search
import NetTrap.Rust.Text
import NetTrap.TcpFraming.LengthPrefixed

/-! Framers that look for a delimiter: text lines, SMTP data and memcached requests.
A size limit is tested both on an unfinished frame and on a finished one; appended data
moves a rejected frame from the first test to the second.
-/

namespace NetTrap.TcpFraming

open Access Framing Search Rust List

def findSubslice (haystack needle : Bytes) : Option Nat :=
  findSub needle haystack

/-! Lines. -/

def extractLimitedLineFrame (buffer : Bytes) (maxLen : Nat)
    : Exec (TcpFrameResult × Bytes) := do
  if let some lineEnd := buffer.findIdx? (· == 10) then
    let frameLen := lineEnd + 1
    if frameLen > maxLen then
      return (.tooLarge none, [])
    completeFrame buffer frameLen
  else
    if buffer.length > maxLen then
      return (.tooLarge none, [])
    return (.incomplete, buffer)

def extractLineFrame (buffer : Bytes) : Exec (TcpFrameResult × Bytes) :=
  extractLimitedLineFrame buffer maxLineFrameSize

def lineDecision (maxLen : Nat) (buffer : Bytes) : Decision Rejection :=
  match buffer.findIdx? (· == 10) with
  | some lineEnd =>
    if lineEnd + 1 > maxLen then .reject (dropTooLarge none) else .take (lineEnd + 1)
  | none => if buffer.length > maxLen then .reject (dropTooLarge none) else .more

theorem extractLimitedLineFrame_refines (maxLen : Nat)
    : Refines (extractLimitedLineFrame · maxLen) (lineDecision maxLen) := by
  intro buffer
  simp only [extractLimitedLineFrame, follow, lineDecision]
  cases found : buffer.findIdx? (· == 10) with
  | some lineEnd =>
    have inside := findIdx?_lt found
    refine guard_reject rfl fun _ => ?_
    rw [outcome_take_of_le (by omega), completeFrame_of_le (by omega)]
  | none => exact guard_reject rfl fun _ => rfl

theorem lineDecision_kept (maxLen : Nat) (front back : Bytes)
    : (lineDecision maxLen front).Kept (lineDecision maxLen (front ++ back)) := by
  simp only [lineDecision]
  cases found : front.findIdx? (· == 10) with
  | some lineEnd =>
    rw [findIdx?_append_of_some found back]
    exact .same _
  | none =>
    simp only
    split
    · rename_i long
      cases later : (front ++ back).findIdx? (· == 10) with
      | some lineEnd =>
        have behind := findIdx?_append_of_none found later
        simp only
        rw [if_pos (by omega)]
        exact .same _
      | none =>
        simp only
        rw [if_pos (by rw [length_append]; omega)]
        exact .same _
    · exact .opened _

/-! SMTP data. -/

/-- `b"552 Message too large\r\n"`. -/
def messageTooLarge : Bytes := ascii "552 Message too large\r\n"

def extractSmtpDataFrameWithLimit (buffer : Bytes) (maxLen : Nat)
    : Exec (TcpFrameResult × Bytes) := do
  if (ascii ".\r\n").isPrefixOf buffer then
    completeFrame buffer 3
  else if let some offset := findSubslice buffer (ascii "\r\n.\r\n") then
    let frameLen := offset + 5
    if frameLen > maxLen then
      return (.tooLarge (some messageTooLarge), [])
    completeFrame buffer frameLen
  else
    if buffer.length > maxLen then
      return (.tooLarge (some messageTooLarge), [])
    return (.incomplete, buffer)

def extractSmtpDataFrame (buffer : Bytes) : Exec (TcpFrameResult × Bytes) :=
  extractSmtpDataFrameWithLimit buffer maxSmtpDataSize

def smtpDataDecision (maxLen : Nat) (buffer : Bytes) : Decision Rejection :=
  if (ascii ".\r\n").isPrefixOf buffer then .take 3
  else
    match findSubslice buffer (ascii "\r\n.\r\n") with
    | some offset =>
      if offset + 5 > maxLen then .reject (dropTooLarge (some messageTooLarge))
      else .take (offset + 5)
    | none =>
      if buffer.length > maxLen then .reject (dropTooLarge (some messageTooLarge)) else .more

theorem extractSmtpDataFrameWithLimit_refines (maxLen : Nat)
    : Refines (extractSmtpDataFrameWithLimit · maxLen) (smtpDataDecision maxLen) := by
  intro buffer
  simp only [extractSmtpDataFrameWithLimit, follow, smtpDataDecision]
  split
  · rename_i starts
    have fits := (List.isPrefixOf_iff_prefix.mp starts).length_le
    have three : 3 ≤ buffer.length := fits
    rw [outcome_take_of_le three, completeFrame_of_le three]
  · cases found : findSubslice buffer (ascii "\r\n.\r\n") with
    | some offset =>
      have inside : offset + 5 ≤ buffer.length := findSub_add_le (by decide) found
      refine guard_reject rfl fun _ => ?_
      rw [outcome_take_of_le inside, completeFrame_of_le inside]
    | none => exact guard_reject rfl fun _ => rfl

/-- Appended data turns the opening test on only for buffers shorter than the dot line. -/
theorem isPrefixOf_append_eq {needle front : Bytes} (back : Bytes)
    (enough : needle.length ≤ front.length)
    : needle.isPrefixOf (front ++ back) = needle.isPrefixOf front := by
  rw [Bool.eq_iff_iff, isPrefixOf_iff_prefix, isPrefixOf_iff_prefix]
  have starts : 0 + needle.length ≤ front.length := by omega
  exact prefix_drop_append_iff starts

theorem smtpDataDecision_kept {maxLen : Nat} (roomy : 3 ≤ maxLen) (front back : Bytes)
    : (smtpDataDecision maxLen front).Kept (smtpDataDecision maxLen (front ++ back)) := by
  by_cases short : front.length < 3
  · have other : (ascii ".\r\n").isPrefixOf front = false := by
      rw [Bool.eq_false_iff, ne_eq, isPrefixOf_iff_prefix]
      exact fun starts => absurd starts.length_le (by simpa [ascii] using short)
    have missing : findSubslice front (ascii "\r\n.\r\n") = none := by
      cases found : findSubslice front (ascii "\r\n.\r\n") with
      | none => rfl
      | some offset =>
        have inside : offset + 5 ≤ front.length := findSub_add_le (by decide) found
        omega
    have waits : smtpDataDecision maxLen front = .more := by
      simp only [smtpDataDecision, other, missing, Bool.false_eq_true, if_false]
      rw [if_neg (by omega)]
    rw [waits]
    exact .opened _
  · simp only [smtpDataDecision]
    rw [isPrefixOf_append_eq back (by simpa [ascii] using short)]
    split
    · exact .same _
    · cases found : findSubslice front (ascii "\r\n.\r\n") with
      | some offset =>
        have later : findSubslice (front ++ back) (ascii "\r\n.\r\n") = some offset :=
          findSub_append_of_some (by decide) found back
        rw [later]
        exact .same _
      | none =>
        simp only
        split
        · cases later : findSubslice (front ++ back) (ascii "\r\n.\r\n") with
          | some offset =>
            have behind : front.length < offset + 5 :=
              findSub_append_of_none (by decide) found later
            simp only
            rw [if_pos (by omega)]
            exact .same _
          | none =>
            simp only
            rw [if_pos (by rw [length_append]; omega)]
            exact .same _
        · exact .opened _

theorem lineDecision_positive (maxLen : Nat) : Positive (lineDecision maxLen) := by
  intro buffer length asked
  simp only [lineDecision] at asked
  split at asked
  · cases take_of_guard asked
    omega
  · cases take_of_guard asked

theorem smtpDataDecision_positive (maxLen : Nat) : Positive (smtpDataDecision maxLen) := by
  intro buffer length asked
  simp only [smtpDataDecision] at asked
  split at asked
  · cases asked
    omega
  split at asked
  · cases take_of_guard asked
    omega
  · cases take_of_guard asked

end NetTrap.TcpFraming
