import NetTrap.Http.LineEndings
import NetTrap.TcpFraming.HttpDecision

/-! The grammar of request heads, and that the framer's checks recognise it.
A head is a request line and field lines, each ended by a line break, and an empty line.
-/

namespace NetTrap.TcpFraming

open Framing Search Rust Http List

/-- Field lines and the empty line that ends them. -/
def encodeFields : List Bytes → Bytes
  | [] => crlf
  | line :: lines => line ++ crlf ++ encodeFields lines

def encodeHead (requestLine : Bytes) (lines : List Bytes) : Bytes :=
  requestLine ++ crlf ++ encodeFields lines

/-- A head without the blank line that ends it. -/
def headBlock (requestLine : Bytes) (lines : List Bytes) : Bytes :=
  requestLine ++ lines.flatMap (crlf ++ ·)

/-- What field lines say about the body, on top of what is already known. -/
def BodyFields.addLines (fields : BodyFields) : List Bytes → Option BodyFields
  | [] => some fields
  | line :: lines =>
    match headerField line with
    | none => none
    | some (name, value) =>
      match fields.add name value with
      | none => none
      | some fields => fields.addLines lines

/-- The request heads that the framer accepts, with the framing of the body behind them. -/
inductive HttpHead : Bytes → HttpBodyFraming → Prop where
  | lines {requestLine : Bytes} {lines : List Bytes} {fields : BodyFields}
      {framing : HttpBodyFraming} (plain : IsPlain requestLine)
      (request : validHttpRequestLine requestLine = true)
      (collected : (⟨[], none⟩ : BodyFields).addLines lines = some fields)
      (asks : fields.framing = .ok framing)
      (fits : (headBlock requestLine lines).length ≤ maxHttpHeaderSize)
      : HttpHead (encodeHead requestLine lines) framing

theorem encodeHead_eq (requestLine : Bytes) (lines : List Bytes)
    : encodeHead requestLine lines = headBlock requestLine lines ++ blankLine := by
  induction lines generalizing requestLine with
  | nil => simp [encodeHead, encodeFields, headBlock, crlf, blankLine]
  | cons line lines ih =>
    have later := ih line
    simp only [encodeHead, headBlock, append_assoc] at later
    simp [encodeHead, encodeFields, headBlock, later]

variable {fields out : BodyFields} {line : Bytes} {lines : List Bytes}

/-- Inversion of one collected line. -/
theorem BodyFields.addLines_cons (collected : fields.addLines (line :: lines) = some out)
    : ∃ name value next, headerField line = some (name, value) ∧ fields.add name value = some next
        ∧ next.addLines lines = some out := by
  simp only [addLines] at collected
  split at collected
  · cases collected
  rename_i name value isField
  split at collected
  · cases collected
  rename_i next added
  exact ⟨name, value, next, isField, added, collected⟩

theorem headerField_plain {field} (isField : headerField line = some field) : IsPlain line := by
  intro byte member
  simp only [headerField] at isField
  split at isField
  · cases isField
  rename_i colon found
  split at isField
  · cases isField
  rename_i valid
  simp only [Bool.or_eq_true, not_or, Bool.not_eq_true', Bool.not_eq_false, all_eq_true] at valid
  obtain ⟨⟨-, tokens⟩, values⟩ := valid
  obtain ⟨inside, isColon, -⟩ := findIdx?_eq_some_iff_getElem.mp found
  rw [← take_append_drop colon line, drop_eq_getElem_cons inside] at member
  rcases mem_append.mp member with inName | behind
  · exact plain_of_test (by decide) (tokens byte inName)
  rcases mem_cons.mp behind with same | inValue
  · rw [same, eq_of_beq isColon]
    decide
  · exact plain_of_test (by decide) (values byte inValue)

theorem headerField_nonempty {field} (isField : headerField line = some field) : line ≠ [] := by
  rintro rfl
  cases isField

/-- Every collected line is a field. -/
theorem BodyFields.addLines_fields (collected : fields.addLines lines = some out)
    : ∀ line ∈ lines, ∃ field, headerField line = some field := by
  induction lines generalizing fields with
  | nil => simp
  | cons first lines ih =>
    obtain ⟨name, value, next, isField, -, later⟩ := addLines_cons collected
    intro line member
    rcases mem_cons.mp member with rfl | member
    · exact ⟨_, isField⟩
    · exact ih later line member

theorem crlfLines_line (absent : 13 ∉ line) (rest : Bytes)
    : crlfLines (line ++ crlf ++ rest) = (line :: (crlfLines rest).1, (crlfLines rest).2) := by
  have found : findSub crlf (line ++ crlf ++ rest) = some line.length := by
    rw [crlf, append_assoc, findSub_skip absent, findSub_self]
    simp
  rw [crlfLines_some found]
  have front : (line ++ crlf ++ rest).take line.length = line := by simp
  have behind : (line ++ crlf ++ rest).drop (line.length + 2) = rest :=
    drop_left' (by simp [crlf])
  rw [front, behind]

/-- Reading an encoding of lines gives back what the lines say. -/
theorem collectFields_encode (collected : fields.addLines lines = some out)
    : collectFields (crlfLines (encodeFields lines)).1 fields = some out := by
  induction lines generalizing fields with
  | nil =>
    rw [encodeFields, ← append_nil crlf, ← nil_append crlf, crlfLines_line (by simp)]
    exact collected
  | cons line lines ih =>
    obtain ⟨name, value, next, isField, added, later⟩ := BodyFields.addLines_cons collected
    have nonempty : line.isEmpty = false := by
      simpa using headerField_nonempty isField
    rw [encodeFields, crlfLines_line (headerField_plain isField).no_carriageReturn,
      collectFields, nonempty, isField]
    simp only [Bool.false_eq_true, if_false, added]
    exact ih later

/-- Collected fields come from field lines up to an empty line.
Witness: induction on the text, one line at a time.
-/
theorem encodeFields_of_collectFields {rest}
    (collected : collectFields (crlfLines rest).1 fields = some out)
    : ∃ lines behind, rest = encodeFields lines ++ behind ∧ fields.addLines lines = some out := by
  induction length : rest.length using Nat.strongRecOn generalizing rest fields with
  | _ remaining ih =>
    cases found : findSub crlf rest with
    | none =>
      rw [crlfLines_none found] at collected
      cases collected
    | some index =>
      have split := findSub_split found
      have fits : index + 2 ≤ rest.length := findSub_add_le (by decide) found
      rw [crlfLines_some found, collectFields] at collected
      generalize rest.take index = line at *
      split at collected
      · rename_i empty
        cases isEmpty_iff.mp empty
        exact ⟨[], _, by simpa [encodeFields] using split, collected⟩
      split at collected
      · cases collected
      rename_i name value isField
      split at collected
      · cases collected
      rename_i next added
      obtain ⟨lines, behind, later, adds⟩ :=
        ih (rest.drop (index + 2)).length (by rw [length_drop]; omega) collected rfl
      refine ⟨line :: lines, behind, ?_, by simp only [BodyFields.addLines, isField, added, adds]⟩
      rw [encodeFields, append_assoc, ← later]
      exact split

/-- A line break and the start of a field line make no blank line. -/
theorem findSub_blankLine_line {next} (absent : 13 ∉ line) (nextAbsent : 13 ∉ next)
    (nonempty : next ≠ []) (rest : Bytes)
    : findSub blankLine (line ++ crlf ++ (next ++ rest))
      = (findSub blankLine (next ++ rest)).map (· + (line.length + 2)) := by
  rcases next with _ | ⟨first, next⟩
  · exact absurd rfl nonempty
  simp only [mem_cons, not_or] at nextAbsent
  rw [append_assoc, blankLine, findSub_skip absent, crlf, cons_append, cons_append,
    nil_append, findSub_cons, findSub_cons]
  have notHere
      : ([13, 10, 13, 10] : Bytes).isPrefixOf (13 :: 10 :: (first :: next ++ rest)) = false := by
    simp [isPrefixOf, nextAbsent.1]
  have notBehind
      : ([13, 10, 13, 10] : Bytes).isPrefixOf (10 :: (first :: next ++ rest)) = false := by
    simp [isPrefixOf]
  rw [notHere, notBehind]
  simp only [Bool.false_eq_true, if_false, Option.map_map]
  congr 1
  funext position
  simp
  omega

variable {requestLine : Bytes}

/-- The first blank line of an encoding is its end, by induction along the lines. -/
theorem findSub_blankLine_head (absent : 13 ∉ requestLine)
    (fields : ∀ line ∈ lines, ∃ field, headerField line = some field)
    : findSub blankLine (encodeHead requestLine lines)
      = some (headBlock requestLine lines).length := by
  induction lines generalizing requestLine with
  | nil =>
    have found : findSub blankLine blankLine = some 0 := by decide
    rw [encodeHead_eq, headBlock, flatMap_nil, append_nil]
    rw [blankLine] at found ⊢
    rw [findSub_skip absent, found]
    simp
  | cons line lines ih =>
    obtain ⟨field, isField⟩ := fields line mem_cons_self
    have plain := headerField_plain isField
    have later := ih plain.no_carriageReturn fun line member =>
      fields line (mem_cons_of_mem _ member)
    rw [encodeHead, encodeFields, append_assoc line,
      findSub_blankLine_line absent plain.no_carriageReturn (headerField_nonempty isField),
      ← append_assoc line, ← encodeHead, later]
    simp [headBlock, crlf]
    omega

theorem hasBareLineFeed_encodeFields
    (fields : ∀ line ∈ lines, ∃ field, headerField line = some field)
    : hasBareLineFeed (encodeFields lines) = false := by
  induction lines with
  | nil => decide
  | cons line lines ih =>
    obtain ⟨field, isField⟩ := fields line mem_cons_self
    rw [encodeFields, hasBareLineFeed_line (headerField_plain isField)]
    exact ih fun line member => fields line (mem_cons_of_mem _ member)

/-- The request line of a block is the text in front of its first line break. -/
theorem requestLine_of_headBlock
    (ends : findSub crlf (requestLine ++ crlf) = some requestLine.length) (lines : List Bytes)
    : (headBlock requestLine lines).take ((findSubslice (headBlock requestLine lines) crlf).getD
            (headBlock requestLine lines).length)
        = requestLine := by
  rw [findSubslice_eq, headBlock]
  cases lines with
  | nil =>
    rw [flatMap_nil, append_nil]
    cases early : findSub crlf requestLine with
    | none => simp
    | some index =>
      have fits : index + 2 ≤ requestLine.length := findSub_add_le (by decide) early
      rw [findSub_append_of_some (by decide) early crlf, Option.some.injEq] at ends
      omega
  | cons line lines =>
    rw [flatMap_cons, append_assoc crlf, ← append_assoc, findSub_append_of_some (by decide) ends]
    simp

section Plain

variable (plain : IsPlain requestLine)
  (named : ∀ line ∈ lines, ∃ field, headerField line = some field)

include plain named

theorem hasBareLineFeed_encodeHead : hasBareLineFeed (encodeHead requestLine lines) = false := by
  rw [encodeHead, hasBareLineFeed_line plain]
  exact hasBareLineFeed_encodeFields named

theorem hasBareLineFeed_headBlock : hasBareLineFeed (headBlock requestLine lines) = false := by
  have whole := hasBareLineFeed_encodeHead plain named
  rw [encodeHead_eq] at whole
  exact hasBareLineFeed_of_append whole

/-- The field lines do not count for the request line's check. -/
theorem validHttpRequestLine_headBlock
    : validHttpRequestLine (headBlock requestLine lines) = validHttpRequestLine requestLine := by
  have ends : findSub crlf (requestLine ++ crlf) = some requestLine.length := by
    have found : findSub crlf crlf = some 0 := by decide
    rw [crlf] at found ⊢
    rw [findSub_skip plain.no_carriageReturn, found]
    simp
  have alone := requestLine_of_headBlock ends []
  simp only [headBlock, flatMap_nil, append_nil] at alone
  simp [validHttpRequestLine, hasBareLineFeed_headBlock plain named, plain.hasBareLineFeed_eq,
    requestLine_of_headBlock ends lines, alone]

end Plain

variable {framing : HttpBodyFraming}

/-- A head passes the checks of the framer. -/
theorem HttpHead.passes {head} (accepted : HttpHead head framing)
    : ∃ block, head = block ++ blankLine ∧ findSub blankLine head = some block.length
        ∧ block.length ≤ maxHttpHeaderSize
        ∧ validHttpRequestLine block = true
        ∧ headFraming head = .ok framing := by
  cases accepted with
  | @lines requestLine lines out _ plain request collected asks fits =>
    have fields := BodyFields.addLines_fields collected
    refine ⟨headBlock requestLine lines, encodeHead_eq requestLine lines,
      findSub_blankLine_head plain.no_carriageReturn fields, fits, ?_, ?_⟩
    · rw [validHttpRequestLine_headBlock plain fields, request]
    · have nonempty : requestLine.isEmpty = false := by
        rcases requestLine with _ | ⟨first, rest⟩
        · revert request
          decide
        · rfl
      rw [headFraming, hasBareLineFeed_encodeHead plain fields, encodeHead,
        crlfLines_line plain.no_carriageReturn]
      simp only [Bool.false_eq_true, if_false, nonempty, collectFields_encode collected]
      exact asks

/-- A request line without carriage returns is plain in a block without bare line feeds. -/
theorem isPlain_of_headBlock (clean : hasBareLineFeed (headBlock requestLine lines) = false)
    (absent : 13 ∉ requestLine)
    : IsPlain requestLine := by
  intro byte member
  refine ⟨?_, fun carriage => absent (carriage ▸ member)⟩
  rintro rfl
  obtain ⟨idx, found⟩ := mem_iff_getElem?.mp member
  have inside := lt_length_of_getElem? found
  have bare : BareLineFeedAt (headBlock requestLine lines) idx := by
    refine BareLineFeedAt.append ⟨found, .inr ?_⟩ _
    intro previous
    exact absent (mem_of_getElem? previous)
  have invalid := (hasBareLineFeed_iff _).mpr ⟨idx, bare⟩
  rw [clean] at invalid
  cases invalid

/-- What passes the checks is a head.
Witness: the lines that the framing check read, up to the first blank line.
-/
theorem httpHead_of_checks {block}
    (ends : findSub blankLine (block ++ blankLine) = some block.length)
    (fits : block.length ≤ maxHttpHeaderSize) (valid : validHttpRequestLine block = true)
    (framed : headFraming (block ++ blankLine) = .ok framing)
    : HttpHead (block ++ blankLine) framing := by
  cases found : findSub crlf (block ++ blankLine) with
  | none =>
    rw [headFraming, crlfLines_none found] at framed
    split at framed <;> cases framed
  | some index =>
    have split := findSub_split found
    have taken := findSub_take (by decide) found
    have reaches : index + 2 ≤ (block ++ blankLine).length := findSub_add_le (by decide) found
    have length : ((block ++ blankLine).take index).length = index := by
      rw [length_take]
      omega
    rw [headFraming, crlfLines_some found] at framed
    generalize (block ++ blankLine).take index = requestLine at split taken length framed
    subst length
    split at framed
    · cases framed
    simp only at framed
    split at framed
    · cases framed
    split at framed
    · cases framed
    rename_i fields collected
    obtain ⟨lines, behind, later, adds⟩ := encodeFields_of_collectFields collected
    have whole : block ++ blankLine = encodeHead requestLine lines ++ behind := by
      rw [encodeHead, append_assoc, ← later]
      exact split
    rw [encodeHead_eq] at whole
    have nothing : behind = [] := by
      have here : blankLine <+: (block ++ blankLine).drop (headBlock requestLine lines).length := by
        rw [whole, append_assoc, drop_left]
        exact prefix_append _ _
      have lengths := congrArg length whole
      simp only [length_append] at lengths
      by_contra more
      have positive := length_pos_iff.mpr more
      exact findSub_first ends (by omega) here
    subst nothing
    rw [append_nil] at whole
    cases append_cancel_right whole
    have checked := valid
    simp only [validHttpRequestLine, requestLine_of_headBlock taken lines] at checked
    split at checked
    · cases checked
    rename_i clean
    split at checked
    · cases checked
    rename_i absent
    have plain := isPlain_of_headBlock (Bool.eq_false_iff.mpr clean) (by simpa using absent)
    have isFields := BodyFields.addLines_fields adds
    rw [validHttpRequestLine_headBlock plain isFields] at valid
    rw [← encodeHead_eq]
    exact .lines plain valid adds framed fits

/-- How a buffer can begin: with an unfinished head, with one that a check refuses, or
with a request's head.
-/
inductive HeadView : Bytes → Prop where
  | unfinished {buffer : Bytes} (missing : findSub blankLine buffer = none) : HeadView buffer
  | refused {block : Bytes} (body : Bytes)
      (ends : findSub blankLine (block ++ blankLine) = some block.length)
      (bad : ∀ framing, ¬ HttpHead (block ++ blankLine) framing)
      : HeadView (block ++ blankLine ++ body)
  | accepted {head : Bytes} {framing : HttpBodyFraming} (body : Bytes)
      (accepted : HttpHead head framing) : HeadView (head ++ body)

theorem headView (buffer : Bytes) : HeadView buffer := by
  cases found : findSub blankLine buffer with
  | none => exact .unfinished found
  | some headerEnd =>
    have split := findSub_split found
    have taken := findSub_take (by decide) found
    have fits : headerEnd + 4 ≤ buffer.length := findSub_add_le (by decide) found
    have length : (buffer.take headerEnd).length = headerEnd := by
      simp
      omega
    rw [split]
    generalize buffer.take headerEnd = block at taken length ⊢
    subst length
    by_cases isHead : ∃ framing, HttpHead (block ++ blankLine) framing
    · obtain ⟨framing, accepted⟩ := isHead
      exact .accepted _ accepted
    · exact .refused _ taken fun framing accepted => isHead ⟨framing, accepted⟩

theorem httpDecision_unfinished {buffer} (missing : findSub blankLine buffer = none)
    : httpDecision buffer = if buffer.length > maxHttpHeaderSize then
          .reject (dropTooLarge (some headerFieldsTooLarge))
        else .more := by
  rw [httpDecision, missing]

section

variable {block} (ends : findSub blankLine (block ++ blankLine) = some block.length)
include ends

/-- Behind a finished block the checks decide, whatever the body. -/
theorem httpDecision_block (body : Bytes)
    : httpDecision (block ++ blankLine ++ body) = if block.length > maxHttpHeaderSize then
          .reject (dropTooLarge (some headerFieldsTooLarge))
        else if !validHttpRequestLine block then .reject (dropInvalid (some badRequest))
        else
          match headFraming (block ++ blankLine) with
          | .ok framing =>
            httpBodyDecision (block ++ blankLine ++ body) (block.length + 4) framing
          | .error error => .reject (httpRejection error) := by
  have front : (block ++ blankLine ++ body).take block.length = block := by simp
  have head : (block ++ blankLine ++ body).take (block.length + 4) = block ++ blankLine :=
    take_left' (by simp [blankLine])
  rw [httpDecision, findSub_append_of_some (by decide) ends body]
  dsimp only
  revert front head
  generalize (block ++ blankLine ++ body).take block.length = text
  generalize (block ++ blankLine ++ body).take (block.length + 4) = start
  rintro rfl rfl
  rfl

theorem httpDecision_refused (bad : ∀ framing, ¬ HttpHead (block ++ blankLine) framing)
    (body : Bytes)
    : ∃ rejection, httpDecision (block ++ blankLine ++ body) = .reject rejection := by
  rw [httpDecision_block ends]
  split
  · exact ⟨_, rfl⟩
  rename_i fits
  split
  · exact ⟨_, rfl⟩
  rename_i valid
  cases framed : headFraming (block ++ blankLine) with
  | error error => exact ⟨_, rfl⟩
  | ok framing =>
    exact absurd (httpHead_of_checks ends (by omega) (by simpa using valid) framed) (bad framing)

end

/-- Behind a head the framing it asks for decides. -/
theorem HttpHead.decision {head} (accepted : HttpHead head framing) (body : Bytes)
    : httpDecision (head ++ body) = httpBodyDecision (head ++ body) head.length framing := by
  obtain ⟨block, rfl, ends, fits, valid, framed⟩ := accepted.passes
  rw [httpDecision_block ends, if_neg (by omega), valid, framed, length_append]
  rfl

end NetTrap.TcpFraming
