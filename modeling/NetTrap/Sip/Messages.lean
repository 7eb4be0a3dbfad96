import NetTrap.Rust.Utf8
import NetTrap.Sip.Handler
import NetTrap.TcpFraming.HttpParsing

/-! The head of a SIP message as a list of lines. -/

namespace NetTrap.Sip

open Rust NetTrap.Core Search List Bool
open Http (BareLineFeedAt BareCarriageReturnAt IsPlain blankLine any_zipIdx_iff)

section Lines

theorem encodeLines_cons (line : Str) (rest : List Str)
    : encodeLines (line :: rest) = line ++ crlf ++ encodeLines rest :=
  rfl

theorem encodeLines_append (front back : List Str)
    : encodeLines (front ++ back) = encodeLines front ++ encodeLines back :=
  flatMap_append

/-- Breaks that stand alone are found in what is behind a line, too. -/
theorem BareCarriageReturnAt.behind {rest idx} (bare : BareCarriageReturnAt rest idx)
    (front : Bytes)
    : BareCarriageReturnAt (front ++ rest) (front.length + idx) := by
  obtain ⟨found, inside, alone⟩ := bare
  refine ⟨?_, ?_, ?_⟩
  · rwa [getElem?_append_right (by omega), Nat.add_sub_cancel_left]
  · simp
    omega
  · rwa [Nat.add_assoc, getElem?_append_right (by omega), Nat.add_sub_cancel_left]

/-- Witness: induction on the length; the first part of a break ends a line, and a carriage return
with its line feed is the only one that does. -/
theorem exists_lines {data}
    (whole : ∀ idx, ¬ (BareLineFeedAt data idx ∨ BareCarriageReturnAt data idx))
    (ends : data = [] ∨ data.getLast? = some 10)
    : ∃ lines, data = encodeLines lines ∧ ∀ line ∈ lines, IsPlain line := by
  induction length : data.length using Nat.strongRecOn generalizing data with
  | _ size ih =>
    let plainByte (byte : UInt8) : Bool := byte != 10 && byte != 13
    have split : data.takeWhile plainByte ++ data.dropWhile plainByte = data :=
      takeWhile_append_dropWhile
    have plain : IsPlain (data.takeWhile plainByte) := by
      intro byte member
      simpa [plainByte] using mem_takeWhile_imp member
    generalize data.takeWhile plainByte = line at split plain
    cases rest : data.dropWhile plainByte with
    | nil =>
      rw [rest, append_nil] at split
      subst split
      rcases ends with rfl | last
      · exact ⟨[], rfl, by simp⟩
      · exact absurd rfl (plain 10 (mem_of_getLast? last)).1
    | cons byte behind =>
      have stops : plainByte byte = false := by
        simpa [rest] using head?_dropWhile_not plainByte data
      rw [rest] at split
      subst split
      have here : (line ++ byte :: behind)[line.length]? = some byte := by
        rw [getElem?_append_right (Nat.le_refl _), Nat.sub_self]
        rfl
      by_cases feed : byte = 10
      · subst feed
        refine absurd (.inl ⟨here, ?_⟩) (whole line.length)
        rcases Nat.eq_zero_or_pos line.length with empty | filled
        · exact .inl empty
        · rw [getElem?_append_left (by omega)]
          exact .inr (plain.getElem?_ne _).2
      have carriage : byte = 13 := by
        simpa [plainByte, feed] using stops
      subst carriage
      cases behind with
      | nil => simp at ends
      | cons next behind =>
        have second : (line ++ 13 :: next :: behind)[line.length + 1]? = some next := by
          rw [getElem?_append_right (by omega), Nat.add_sub_cancel_left]
          rfl
        have paired : next = 10 := by
          by_contra other
          refine whole line.length (.inr ⟨here, ?_, ?_⟩)
          · simp
          · rw [second]
            simpa using other
        subst paired
        have regroup : line ++ 13 :: 10 :: behind = line ++ crlf ++ behind := by simp [crlf]
        rw [regroup] at whole ends length ⊢
        have shorter : behind.length < size := by
          rw [← length]
          simp [crlf]
          omega
        have wholeBehind : ∀ idx,
            ¬ (BareLineFeedAt behind idx ∨ BareCarriageReturnAt behind idx) := by
          rintro idx (bare | bare)
          · exact whole _ (.inl ((BareLineFeedAt.behind_line plain).mpr ⟨idx, rfl, bare⟩))
          · exact whole _ (.inr (BareCarriageReturnAt.behind bare _))
        have endsBehind : behind = [] ∨ behind.getLast? = some 10 := by
          cases behind with
          | nil => exact .inl rfl
          | cons first behind => exact .inr (by simpa using ends)
        obtain ⟨lines, rfl, plains⟩ := ih behind.length shorter wholeBehind endsBehind rfl
        exact ⟨line :: lines, rfl, forall_mem_cons.mpr ⟨plain, plains⟩⟩

theorem splitOn_encodeLines {ls} (plain : ∀ line ∈ ls, IsPlain line)
    : (encodeLines ls).splitOn 10 = ls.map (· ++ [13]) ++ [[]] := by
  induction ls with
  | nil => rfl
  | cons line ls ih =>
    obtain ⟨first, others⟩ := forall_mem_cons.mp plain
    rw [encodeLines_cons, TcpFraming.splitOn_line first, ih others]
    rfl

theorem lines_encodeLines {ls} (plain : ∀ line ∈ ls, IsPlain line)
    : lines (encodeLines ls) = ls := by
  have stripped : (fun line => (stripSuffix 13 (line ++ [13])).getD (line ++ [13]))
      = (id : Str → Str) := by
    funext line
    simp [stripSuffix]
  rw [lines, splitOn_encodeLines plain]
  simp [Function.comp_def, stripped]

theorem trimEndMatches_plain {line} (plain : IsPlain line) : trimEndMatches 13 line = line :=
  trimEndMatches_of_getLast? fun last => plain.no_carriageReturn (mem_of_getLast? last)

end Lines

section Heads

/-- What stands behind the last line feed does not matter. -/
theorem hasStrayLineEnding_iff {head} (ends : head.getLast? = some 10) (body : Bytes)
    : hasStrayLineEnding head (head ++ body) = true
      ↔ ∃ idx, BareLineFeedAt head idx ∨ BareCarriageReturnAt head idx := by
  rw [hasStrayLineEnding, or_eq_true, any_zipIdx_iff, any_zipIdx_iff, exists_or]
  refine or_congr (exists_congr fun idx => ?_) (exists_congr fun idx => ?_)
  · simp only [and_eq_true, beq_iff_eq, or_eq_true, bne_iff_ne]
    constructor
    · rintro ⟨byte, found, rfl, alone⟩
      have inside := Http.lt_length_of_getElem? found
      exact ⟨found, alone.imp_right fun other => by
        rwa [getElem?_append_left (by omega)] at other⟩
    · rintro ⟨found, alone⟩
      have inside := Http.lt_length_of_getElem? found
      exact ⟨10, found, rfl, alone.imp_right fun other => by
        rwa [getElem?_append_left (by omega)]⟩
  · simp only [and_eq_true, beq_iff_eq, bne_iff_ne, decide_eq_true_eq]
    have notLast (found : head[idx]? = some 13) : idx + 1 < head.length := by
      have inside := Http.lt_length_of_getElem? found
      by_contra beyond
      have last : head.getLast? = head[idx]? := by
        rw [getLast?_eq_getElem?]
        congr 1
        omega
      rw [last, found] at ends
      cases ends
    constructor
    · rintro ⟨byte, found, ⟨rfl, _⟩, alone⟩
      rw [getElem?_append_left (notLast found)] at alone
      exact ⟨found, notLast found, alone⟩
    · rintro ⟨found, inside, alone⟩
      refine ⟨13, found, ⟨rfl, ?_⟩, ?_⟩
      · simp
        omega
      · rwa [getElem?_append_left inside]

variable {position : Nat}

/-- Witness: a blank line among the fields would come before the one at the end. -/
theorem nonempty_of_first {request fields body} (plain : ∀ line ∈ request :: fields, IsPlain line)
    (first : findSub blankLine (encodeLines (request :: fields) ++ (crlf ++ body)) = some position)
    (last : position + 2 = (encodeLines (request :: fields)).length)
    : ∀ field ∈ fields, field ≠ [] := by
  induction fields generalizing request position with
  | nil => simp
  | cons field fields ih =>
    obtain ⟨plainRequest, plains⟩ := forall_mem_cons.mp plain
    have absent := plainRequest.no_carriageReturn
    rw [encodeLines_cons, append_assoc] at first
    rw [encodeLines_cons, length_append, length_append] at last
    by_cases empty : field = []
    · subst empty
      have here : findSub blankLine
          (request ++ crlf ++ (encodeLines ([] :: fields) ++ (crlf ++ body)))
          = some request.length := by
        have start : crlf ++ (encodeLines ([] :: fields) ++ (crlf ++ body))
            = [13, 10, 13, 10] ++ (encodeLines fields ++ (crlf ++ body)) := rfl
        rw [append_assoc, blankLine, findSub_skip absent, start, findSub_self, Option.map_some,
          Nat.zero_add]
      rw [here] at first
      cases first
      rw [encodeLines_cons, length_append, length_append] at last
      simp only [crlf, length_cons, length_nil] at last
      omega
    · have plainField := (forall_mem_cons.mp plains).1
      have next : encodeLines (field :: fields) ++ (crlf ++ body)
          = field ++ (crlf ++ encodeLines fields ++ (crlf ++ body)) := by
        simp [encodeLines_cons]
      rw [next, TcpFraming.findSub_blankLine_line absent plainField.no_carriageReturn empty, ← next,
        Option.map_eq_some_iff] at first
      obtain ⟨later, found, rfl⟩ := first
      simp only [crlf, length_cons, length_nil] at last
      exact forall_mem_cons.mpr ⟨empty, ih plains found (by omega)⟩

/-- The lines before the first blank one. -/
structure IsHead (data : Bytes) (position : Nat) (request : Str) (fields : List Str) : Prop where
  first : findSub blankLine data = some position
  lines : data.take (position + 2) = encodeLines (request :: fields)
  plain : ∀ line ∈ request :: fields, IsPlain line
  nonempty : ∀ field ∈ fields, field ≠ []

variable {data : Bytes} (found : findSub blankLine data = some position)

include found

theorem take_of_first
    : data.take (position + 2) = data.take position ++ crlf
      ∧ data.take (position + 4) = data.take (position + 2) ++ crlf := by
  have inside := findSub_add_le (by decide) found
  have front : data = data.take position ++ blankLine ++ data.drop (position + 4) :=
      findSub_split found
  have size : (data.take position).length = position := by
    simp
    omega
  have two : (data.take position ++ crlf).length = position + 2 := by simp [crlf, size]
  have four : (data.take position ++ blankLine).length = position + 4 := by simp [blankLine, size]
  have first : data.take (position + 2) = data.take position ++ crlf := by
    conv_lhs => rw [front, show blankLine = crlf ++ crlf from rfl, ← append_assoc,
      append_assoc (data.take position ++ crlf), take_left' two]
  refine ⟨first, ?_⟩
  rw [first]
  conv_lhs => rw [front, take_left' four]
  simp [blankLine, crlf]

theorem getLast?_of_first : (data.take (position + 4)).getLast? = some 10 := by
  rw [(take_of_first found).2, getLast?_append]
  rfl

/-- The handler looks into the body for what is behind the head, in vain. -/
theorem hasStrayLineEnding_of_first
    : hasStrayLineEnding (data.take (position + 4)) (data.take (position + 4))
      = hasStrayLineEnding (data.take (position + 4)) data := by
  have ends := getLast?_of_first found
  have alone := hasStrayLineEnding_iff ends []
  have inside := hasStrayLineEnding_iff ends (data.drop (position + 4))
  rw [append_nil] at alone
  rw [take_append_drop] at inside
  rw [Bool.eq_iff_iff, alone, inside]

theorem exists_head (whole : hasStrayLineEnding (data.take (position + 4)) data = false)
    : ∃ request fields, IsHead data position request fields := by
  obtain ⟨closed, head⟩ := take_of_first found
  have ends := getLast?_of_first found
  have wholeHead : ∀ idx, ¬ (BareLineFeedAt (data.take (position + 4)) idx
      ∨ BareCarriageReturnAt (data.take (position + 4)) idx) := by
    rw [← not_exists, ← hasStrayLineEnding_iff ends (data.drop (position + 4)),
      take_append_drop, whole]
    exact false_ne_true
  rw [head] at wholeHead
  obtain ⟨ls, split, plain⟩ := exists_lines
    (fun idx bare => wholeHead idx (bare.imp (·.append crlf) (·.append crlf)))
    (.inr (by rw [closed, getLast?_append]; rfl))
  cases ls with
  | nil =>
    rw [closed] at split
    exact absurd split (by simp [encodeLines, crlf])
  | cons request fields =>
    refine ⟨request, fields, found, split, plain, ?_⟩
    have size : (data.take (position + 2)).length = position + 2 := by
      have inside := findSub_add_le (by decide) found
      simp only [blankLine, length_cons, length_nil] at inside
      simp
      omega
    have whole : encodeLines (request :: fields) ++ (crlf ++ data.drop (position + 4)) = data := by
      rw [← split, ← append_assoc, ← head, take_append_drop]
    exact nonempty_of_first plain (whole.symm ▸ found) (by rw [← split, size])

end Heads

end NetTrap.Sip
