import NetTrap.TcpFraming.Http

/-! The HTTP framer follows a decision on the buffer.
The position loops are replaced by recursion on what is left to scan, and each is shown
to stay inside the buffer and to end within its budget.
-/

namespace NetTrap.TcpFraming

open Access Framing Search Rust Http Exec List

/-! What the scanning loops compute. -/

theorem findSubslice_eq (haystack needle : Bytes)
    : findSubslice haystack needle = findSub needle haystack :=
  rfl

/-- Collecting the body fields of the lines up to the first empty one. -/
def collectFields : List Bytes → BodyFields → Option BodyFields
  | [], _ => none
  | line :: lines, fields =>
    if line.isEmpty then some fields
    else
      match headerField line with
      | none => none
      | some (name, value) =>
        match fields.add name value with
        | none => none
        | some fields => collectFields lines fields

/-- The complete lines of a text. -/
def crlfLines (data : Bytes) : List Bytes × Bytes :=
  breakLines 13 [10] data

theorem crlfLines_none {data : Bytes} (missing : findSub crlf data = none)
    : crlfLines data = ([], data) :=
  breakLines_none missing

theorem crlfLines_some {data index} (found : findSub crlf data = some index)
    : crlfLines data = (data.take index :: (crlfLines (data.drop (index + 2))).1,
          (crlfLines (data.drop (index + 2))).2) :=
  breakLines_some found

theorem nextCrlfLine_eq {bytes start} (inside : start ≤ bytes.length)
    : nextCrlfLine bytes start = .done ((findSub crlf (bytes.drop start)).map fun offset =>
            ((bytes.drop start).take offset, start + offset + 2)) := by
  rw [nextCrlfLine, sliceFrom_of_le inside, done_bind, findSubslice_eq]
  cases found : findSub crlf (bytes.drop start) with
  | none => rfl
  | some offset =>
    have fits : offset + 2 ≤ (bytes.drop start).length := findSub_add_le (by decide) found
    rw [length_drop] at fits
    simp only
    rw [slice_of_le (by omega) (by omega), drop_take]
    simp

variable {pos : Nat}

/-- The field loop reads the lines behind its position, by induction on its budget. -/
theorem fieldLoop_eq (headers : Bytes) (budget : Nat) (fields : BodyFields)
    (inside : pos ≤ headers.length) (enough : headers.length < budget + pos)
    : fieldLoop headers budget pos fields
      = .done (collectFields (crlfLines (headers.drop pos)).1 fields) := by
  induction budget generalizing pos fields with
  | zero => omega
  | succ budget ih =>
    rw [fieldLoop, nextCrlfLine_eq inside, done_bind]
    cases found : findSub crlf (headers.drop pos) with
    | none =>
      rw [crlfLines_none found]
      rfl
    | some offset =>
      have fits : offset + 2 ≤ (headers.drop pos).length :=
        findSub_add_le (by decide) found
      rw [length_drop] at fits
      rw [crlfLines_some found, drop_drop]
      simp only [Option.map_some, collectFields]
      refine ite_eq_done (fun _ => rfl) fun _ => ?_
      cases headerField ((headers.drop pos).take offset) with
      | none => rfl
      | some field =>
        simp only
        cases fields.add field.1 field.2 with
        | none => rfl
        | some fields => exact ih fields (by omega) (by omega)

/-- The framing of a header block, line by line. -/
def headFraming (headers : Bytes) : Except HttpFrameError HttpBodyFraming :=
  if hasBareLineFeed headers then .error .invalid
  else
    match (crlfLines headers).1 with
    | [] => .error .invalid
    | requestLine :: lines =>
      if requestLine.isEmpty then .error .invalid
      else
        match collectFields lines ⟨[], none⟩ with
        | none => .error .invalid
        | some fields => fields.framing

theorem httpBodyFraming_eq (headers : Bytes)
    : httpBodyFraming headers = .done (headFraming headers) := by
  rw [httpBodyFraming, headFraming]
  refine ite_eq_done (fun _ => rfl) fun _ => ?_
  rw [nextCrlfLine_eq (Nat.zero_le _), done_bind, drop_zero]
  cases found : findSub crlf headers with
  | none =>
    rw [crlfLines_none found]
    rfl
  | some offset =>
    have fits : offset + 2 ≤ headers.length := findSub_add_le (by decide) found
    rw [crlfLines_some found]
    simp only [Option.map_some, Nat.zero_add]
    refine ite_eq_done (fun _ => rfl) fun _ => ?_
    rw [fieldLoop_eq headers _ _ fits (by omega), done_bind]
    cases collectFields (crlfLines (headers.drop (offset + 2))).1 ⟨[], none⟩ with
    | none => rfl
    | some fields => rfl

/-- A trailer line is empty or a field. -/
def isTrailerLine (line : Bytes) : Bool :=
  line.isEmpty || (headerField line).isSome

theorem trailerLoop_eq (trailers : Bytes) (budget : Nat) (inside : pos ≤ trailers.length)
    (enough : trailers.length < budget + pos)
    : trailerLoop trailers budget pos = .done ((crlfLines (trailers.drop pos)).1.all isTrailerLine
            && isTrailerLine (crlfLines (trailers.drop pos)).2) := by
  induction budget generalizing pos with
  | zero => omega
  | succ budget ih =>
    rw [trailerLoop, sliceFrom_of_le inside, done_bind, findSubslice_eq]
    cases found : findSub crlf (trailers.drop pos) with
    | none =>
      rw [crlfLines_none found]
      rfl
    | some offset =>
      have fits : offset + 2 ≤ (trailers.drop pos).length :=
        findSub_add_le (by decide) found
      rw [length_drop] at fits
      have atEnd : pos + (offset + 2) = trailers.length
          → crlfLines (trailers.drop (pos + (offset + 2))) = ([], []) := by
        intro ended
        rw [drop_eq_nil_of_le (by omega)]
        exact crlfLines_none rfl
      have inside' : pos + (offset + 2) ≤ trailers.length := by omega
      have onward := ih inside' (by omega)
      rw [crlfLines_some found, drop_drop]
      simp only
      rw [slice_of_le (by omega) (by omega), done_bind, drop_take, Nat.add_sub_cancel_left]
      generalize (trailers.drop pos).take offset = line
      simp only [all_cons, onward, isTrailerLine]
      by_cases ended : pos + (offset + 2) = trailers.length
      · rw [atEnd ended]
        cases line.isEmpty <;> cases headerField line <;> simp [ended]
      · cases line.isEmpty <;> cases headerField line <;> simp [ended]

/-- Trailer blocks that the framer accepts. -/
def trailersWellFormed (trailers : Bytes) : Bool :=
  !hasBareLineFeed trailers
    && ((crlfLines trailers).1.all isTrailerLine && isTrailerLine (crlfLines trailers).2)

theorem chunkTrailersAreWellFormed_eq (trailers : Bytes)
    : chunkTrailersAreWellFormed trailers = .done (trailersWellFormed trailers) := by
  rw [chunkTrailersAreWellFormed, trailersWellFormed]
  cases hasBareLineFeed trailers with
  | true => rfl
  | false =>
    simp only [Bool.false_eq_true, if_false]
    rw [trailerLoop_eq trailers _ (Nat.zero_le _) (by omega), drop_zero]
    simp

/-! Scanning a chunked body. -/

/-- The size that a chunk-size line announces. -/
def chunkLineSize (line : Bytes) : Option Nat :=
  (fromUtf8 line).bind parseHttpChunkSize

/-- What follows the last chunk, `start` bytes into the buffer. -/
def scanTrailers (start : Nat) (trailers : Bytes) : Except HttpFrameError (Option Nat) :=
  if crlf.isPrefixOf trailers then .ok (some (start + 2))
  else
    match findSub blankLine trailers with
    | none => unfinishedScan (start + trailers.length) trailers
    | some trailerEnd =>
      if !trailersWellFormed (trailers.take trailerEnd) then .error .invalid
      else if start + trailerEnd + 4 > maxHttpRequestSize then .error .tooLarge
      else .ok (some (start + trailerEnd + 4))

/-- The chunks of a body, `start` bytes into the buffer. -/
def scanChunks (start : Nat) (rest : Bytes) : Except HttpFrameError (Option Nat) :=
  match findSub crlf rest with
  | none => unfinishedScan (start + rest.length) rest
  | some lineLen =>
    match chunkLineSize (rest.take lineLen) with
    | none => .error .invalid
    | some 0 => scanTrailers (start + (lineLen + 2)) (rest.drop (lineLen + 2))
    | some (less + 1) =>
      let frameLen := lineLen + 2 + (less + 1) + 2
      if start + frameLen > maxHttpRequestSize then .error .tooLarge
      else if rest.length < frameLen then .ok none
      else if (rest.take frameLen).drop (lineLen + 2 + (less + 1)) != crlf then
        .error .invalid
      else scanChunks (start + frameLen) (rest.drop frameLen)
termination_by rest.length
decreasing_by
  simp
  omega

theorem lastChunkEnd_eq (buffer : Bytes) (inside : pos ≤ buffer.length)
    : lastChunkEnd buffer pos = .done (scanTrailers pos (buffer.drop pos)) := by
  rw [lastChunkEnd, sliceFrom_of_le inside, done_bind, findSubslice_eq, scanTrailers]
  refine ite_eq_done (fun _ => rfl) fun _ => ?_
  cases found : findSub blankLine (buffer.drop pos) with
  | none =>
    have size : pos + (buffer.drop pos).length = buffer.length := by
      simp
      omega
    simp only [size]
    rfl
  | some trailerEnd =>
    have fits : trailerEnd + 4 ≤ (buffer.drop pos).length :=
      findSub_add_le (by decide) found
    simp only
    rw [slice_of_le (Nat.zero_le _) (by omega), done_bind, drop_zero,
      chunkTrailersAreWellFormed_eq, done_bind]
    refine ite_eq_done (fun _ => rfl) fun _ => ?_
    exact ite_eq_done (fun _ => rfl) fun _ => rfl

/-- The data of one chunk; both overflow checks answer as the size limit does. -/
theorem chunkData_eq {buffer budget lineLen less}
    (size : pos + (buffer.drop pos).length = buffer.length) (onward
      : ∀ {next}, next ≤ buffer.length → pos < next
          → chunkLoop buffer budget next = .done (scanChunks next (buffer.drop next)))
    : (do
        let some dataEnd := checkedAdd (pos + lineLen + 2) (less + 1)
          | return .error .tooLarge
        let some frameEnd := checkedAdd dataEnd 2 | return .error .tooLarge
        if frameEnd > maxHttpRequestSize then
          return .error .tooLarge
        if buffer.length < frameEnd then
          return .ok none
        if (← slice buffer dataEnd (dataEnd + 2)) != crlf then
          return .error .invalid
        chunkLoop buffer budget frameEnd : Exec (Except HttpFrameError (Option Nat)))
      = .done (let frameLen := lineLen + 2 + (less + 1) + 2
          if pos + frameLen > maxHttpRequestSize then .error .tooLarge
          else if (buffer.drop pos).length < frameLen then .ok none
          else if ((buffer.drop pos).take frameLen).drop (lineLen + 2 + (less + 1)) != crlf then
            .error .invalid
          else scanChunks (pos + frameLen) ((buffer.drop pos).drop frameLen)) := by
  have regroup : pos + lineLen + 2 + (less + 1) + 2 = pos + (lineLen + 2 + (less + 1) + 2) := by
    omega
  by_cases fits : pos + (lineLen + 2 + (less + 1) + 2) ≤ usizeMax
  · rw [checkedAdd_of_le (by omega)]
    simp only
    rw [checkedAdd_of_le (by omega)]
    simp only [regroup]
    refine ite_eq_done (fun _ => rfl) fun _ => ?_
    rw [drop_drop, drop_take, drop_drop]
    by_cases short : buffer.length < pos + (lineLen + 2 + (less + 1) + 2)
    · rw [if_pos short, if_pos (by omega)]
      rfl
    · rw [if_neg short, if_neg (by omega), slice_of_le (by omega) (by omega), done_bind, drop_take]
      rw [show pos + lineLen + 2 + (less + 1) = pos + (lineLen + 2 + (less + 1)) by omega,
        ← Nat.add_assoc pos _ 2, Nat.add_sub_cancel_left, Nat.add_sub_cancel_left]
      refine ite_eq_done (fun _ => rfl) fun _ => ?_
      exact onward (by omega) (by omega)
  · have long : pos + (lineLen + 2 + (less + 1) + 2) > maxHttpRequestSize := by
      simp only [usizeMax, maxHttpRequestSize] at fits ⊢
      omega
    simp only [if_pos long]
    cases sum : checkedAdd (pos + lineLen + 2) (less + 1) with
    | none => rfl
    | some dataEnd =>
      have total := checkedAdd_eq sum
      simp only [total]
      rw [checkedAdd_of_lt (by omega)]
      rfl

/-- The chunk loop scans what lies behind its position, by induction on its budget. -/
theorem chunkLoop_eq (buffer : Bytes) (budget : Nat) (inside : pos ≤ buffer.length)
    (enough : buffer.length < budget + pos)
    : chunkLoop buffer budget pos = .done (scanChunks pos (buffer.drop pos)) := by
  induction budget generalizing pos with
  | zero => omega
  | succ budget ih =>
    have size : pos + (buffer.drop pos).length = buffer.length := by
      simp
      omega
    rw [chunkLoop, sliceFrom_of_le inside, done_bind, findSubslice_eq, scanChunks]
    cases found : findSub crlf (buffer.drop pos) with
    | none =>
      simp only [size]
      rfl
    | some lineLen =>
      have fits : lineLen + 2 ≤ (buffer.drop pos).length := findSub_add_le (by decide) found
      simp only
      rw [slice_of_le (by omega) (by omega), done_bind, drop_take, Nat.add_sub_cancel_left]
      simp only [chunkLineSize]
      cases fromUtf8 ((buffer.drop pos).take lineLen) with
      | none => rfl
      | some line =>
        simp only [Option.bind_some]
        rcases parseHttpChunkSize line with _ | _ | less
        · rfl
        · simp only [beq_self_eq_true, if_true]
          rw [lastChunkEnd_eq buffer (by omega), drop_drop, Nat.add_assoc]
        · have notLast : (less + 1 == 0) = false := by simp
          simp only [notLast, Bool.false_eq_true, if_false]
          exact chunkData_eq size fun moved further => ih moved (by omega)

theorem scanTrailers_bounds {start total trailers}
    (ended : scanTrailers start trailers = .ok (some total))
    : start + 2 ≤ total ∧ total ≤ start + trailers.length := by
  simp only [scanTrailers] at ended
  split at ended
  · rename_i starts
    have fits : 2 ≤ trailers.length := (List.isPrefixOf_iff_prefix.mp starts).length_le
    cases ended
    omega
  split at ended
  · simp only [unfinishedScan] at ended
    split at ended
    · cases ended
    split at ended <;> cases ended
  · rename_i trailerEnd found
    have fits : trailerEnd + 4 ≤ trailers.length := findSub_add_le (by decide) found
    split at ended
    · cases ended
    split at ended
    · cases ended
    · cases ended
      omega

/-- A scanned message ends inside the buffer, behind where the scan started. -/
theorem scanChunks_bounds {start total rest} (ended : scanChunks start rest = .ok (some total))
    : start < total ∧ total ≤ start + rest.length := by
  fun_induction scanChunks start rest with
  | case1 start rest missing =>
    simp only [unfinishedScan] at ended
    split at ended
    · cases ended
    split at ended <;> cases ended
  | case2 => cases ended
  | case3 start rest lineLen found =>
    have fits : lineLen + 2 ≤ rest.length := findSub_add_le (by decide) found
    have bounds := scanTrailers_bounds ended
    rw [length_drop] at bounds
    omega
  | case4 => cases ended
  | case5 => cases ended
  | case6 => cases ended
  | case7 start rest lineLen found less size frameLen long short data ih =>
    have bounds := ih ended
    rw [length_drop] at bounds
    omega

/-! The decision. -/

def httpRejection : HttpFrameError → Rejection
  | .invalid => dropInvalid (some badRequest)
  | .tooLarge => dropTooLarge (some payloadTooLarge)

def scanDecision : Except HttpFrameError (Option Nat) → Decision Rejection
  | .ok (some total) => .take total
  | .ok none => .more
  | .error error => .reject (httpRejection error)

/-- The body of a request whose header block ends at `headersEnd`. -/
def httpBodyDecision (buffer : Bytes) (headersEnd : Nat) : HttpBodyFraming → Decision Rejection
  | .chunked => scanDecision (scanChunks headersEnd (buffer.drop headersEnd))
  | .contentLength length =>
    if headersEnd + length > maxHttpRequestSize then
      .reject (dropTooLarge (some payloadTooLarge))
    else .take (headersEnd + length)
  | .headersOnly => .take headersEnd

def httpDecision (buffer : Bytes) : Decision Rejection :=
  match findSub blankLine buffer with
  | none =>
    if buffer.length > maxHttpHeaderSize then
      .reject (dropTooLarge (some headerFieldsTooLarge))
    else .more
  | some headerEnd =>
    if headerEnd > maxHttpHeaderSize then .reject (dropTooLarge (some headerFieldsTooLarge))
    else if !validHttpRequestLine (buffer.take headerEnd) then
      .reject (dropInvalid (some badRequest))
    else
      match headFraming (buffer.take (headerEnd + 4)) with
      | .ok framing => httpBodyDecision buffer (headerEnd + 4) framing
      | .error error => .reject (httpRejection error)

theorem httpFrameError_refines (buffer : Bytes) (error : HttpFrameError)
    : (.done (httpFrameError error, []) : Exec (TcpFrameResult × Bytes)) = .done (outcome buffer
            ((Decision.reject (httpRejection error) : Decision Rejection).cut buffer)) := by
  cases error <;> rfl

theorem extractHttpRequestWithFraming_refines (buffer : Bytes) {headersEnd : Nat}
    (inside : headersEnd ≤ buffer.length) (framing : HttpBodyFraming)
    : extractHttpRequestWithFraming buffer headersEnd framing
      = .done (outcome buffer ((httpBodyDecision buffer headersEnd framing).cut buffer)) := by
  cases framing with
  | headersOnly =>
    rw [extractHttpRequestWithFraming, httpBodyDecision, outcome_take_of_le inside,
      completeFrame_of_le inside]
  | contentLength length =>
    simp only [extractHttpRequestWithFraming, httpBodyDecision]
    by_cases fits : headersEnd + length ≤ usizeMax
    · rw [checkedAdd_of_le fits]
      refine guard_reject rfl fun _ => ?_
      exact wait_or_complete _
    · have long : headersEnd + length > maxHttpRequestSize := by
        simp only [usizeMax, maxHttpRequestSize] at fits ⊢
        omega
      rw [checkedAdd_of_lt (by omega), if_pos long]
      rfl
  | chunked =>
    simp only [extractHttpRequestWithFraming, extractChunkedHttpBodyLen, httpBodyDecision]
    rw [chunkLoop_eq buffer _ inside (by omega), done_bind]
    cases scanned : scanChunks headersEnd (buffer.drop headersEnd) with
    | error error => exact httpFrameError_refines buffer error
    | ok ended =>
      cases ended with
      | none => rfl
      | some total =>
        have bounds := scanChunks_bounds scanned
        rw [length_drop] at bounds
        simp only [scanDecision]
        rw [outcome_take_of_le (by omega), completeFrame_of_le (by omega)]

theorem extractHttpRequest_refines : Refines extractHttpRequest httpDecision := by
  intro buffer
  simp only [extractHttpRequest, findSubslice_eq, follow, httpDecision]
  cases found : findSub blankLine buffer with
  | none => exact guard_reject rfl fun _ => rfl
  | some headerEnd =>
    have fits : headerEnd + 4 ≤ buffer.length := findSub_add_le (by decide) found
    have headLength : (buffer.take (headerEnd + 4)).length = headerEnd + 4 := by
      simp
      omega
    simp only
    rw [slice_of_le (Nat.zero_le _) fits, done_bind, drop_zero]
    refine guard_reject rfl fun _ => ?_
    rw [slice_of_le (Nat.zero_le _) (by omega), done_bind, drop_zero,
      take_take, Nat.min_eq_left (by omega)]
    refine guard_reject rfl fun _ => ?_
    rw [httpBodyFraming_eq, done_bind]
    cases headFraming (buffer.take (headerEnd + 4)) with
    | error error => exact httpFrameError_refines buffer error
    | ok framing => exact extractHttpRequestWithFraming_refines buffer fits framing

theorem httpBodyDecision_positive {buffer headersEnd length framing} (behind : 0 < headersEnd)
    (asked : httpBodyDecision buffer headersEnd framing = .take length)
    : 0 < length := by
  cases framing with
  | headersOnly =>
    cases asked
    exact behind
  | contentLength body =>
    simp only [httpBodyDecision] at asked
    split at asked <;> cases asked
    omega
  | chunked =>
    simp only [httpBodyDecision] at asked
    rcases scanned : scanChunks headersEnd (buffer.drop headersEnd) with _ | _ | total
    · rw [scanned] at asked
      cases asked
    · rw [scanned] at asked
      cases asked
    · rw [scanned] at asked
      cases asked
      have bounds := scanChunks_bounds scanned
      omega

theorem httpDecision_positive : Positive httpDecision := by
  intro buffer length asked
  simp only [httpDecision] at asked
  split at asked
  · split at asked <;> cases asked
  split at asked
  · cases asked
  split at asked
  · cases asked
  split at asked
  · exact httpBodyDecision_positive (Nat.succ_pos _) asked
  · cases asked

end NetTrap.TcpFraming
