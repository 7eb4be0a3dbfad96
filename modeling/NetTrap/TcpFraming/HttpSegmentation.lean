import NetTrap.TcpFraming.ChunkedBodies
import NetTrap.TcpFraming.HttpHeads
import NetTrap.TcpFraming.Segmentation

/-! When the outcome of the HTTP framer depends on segmentation.
Unfinished data is refused as soon as it is longer than a limit, while the limit on the
finished message does not count the last bytes. What lies between is refused when it
arrives in parts and accepted when it arrives whole.
-/

namespace NetTrap.TcpFraming

open Access Framing Search Rust Http List

/-- Chunked bodies, finished or not, that no check refuses. -/
inductive ChunkedSoFar : (start : Nat) → Bytes → Prop where
  | line {start : Nat} {rest : Bytes} (missing : findSub crlf rest = none)
      (clean : hasInvalidHttpLineEnding rest = false)
      (fits : start + rest.length ≤ maxHttpRequestSize) : ChunkedSoFar start rest
  | trailers {start : Nat} {line tail : Bytes} (final : ChunkLine line 0)
      (other : ¬ crlf <+: tail) (missing : findSub blankLine tail = none)
      (clean : hasInvalidHttpLineEnding tail = false)
      (fits : start + (line.length + 2) + tail.length ≤ maxHttpRequestSize)
      : ChunkedSoFar start (line ++ crlf ++ tail)
  | data {start size : Nat} {line tail : Bytes} (header : ChunkLine line size) (filled : 0 < size)
      (fits : start + (line.length + 2 + size + 2) ≤ maxHttpRequestSize)
      (short : tail.length < size + 2) : ChunkedSoFar start (line ++ crlf ++ tail)
  | complete {start : Nat} {body : Bytes} {chunks : List Bytes} (behind : Bytes)
      (message : ChunkedMessage start body chunks) : ChunkedSoFar start (body ++ behind)
  | chunk {start : Nat} {line data rest : Bytes} (header : ChunkLine line data.length)
      (filled : data ≠ []) (fits : start + (encodeChunk line data).length ≤ maxHttpRequestSize)
      (later : ChunkedSoFar (start + (encodeChunk line data).length) rest)
      : ChunkedSoFar start (encodeChunk line data ++ rest)

theorem unfinishedScan_ok_iff (bufferLen : Nat) (pending : Bytes)
    : (∃ ended, unfinishedScan bufferLen pending = .ok ended)
      ↔ hasInvalidHttpLineEnding pending = false ∧ bufferLen ≤ maxHttpRequestSize := by
  simp only [unfinishedScan]
  cases hasInvalidHttpLineEnding pending with
  | true => simp
  | false =>
    by_cases long : bufferLen > maxHttpRequestSize
    · simp [long]
    · simp [long, Nat.not_lt.mp long]

/-- A scan of trailers that waits has stayed within the limit. -/
theorem scanTrailers_ok_iff (start : Nat) (tail : Bytes)
    : (∃ ended, scanTrailers start tail = .ok ended)
      ↔ (∃ trailer behind, tail = trailer ++ behind ∧ TrailerPart start trailer)
        ∨ ¬ crlf <+: tail ∧ findSub blankLine tail = none ∧ hasInvalidHttpLineEnding tail = false
          ∧ start + tail.length ≤ maxHttpRequestSize := by
  constructor
  · rintro ⟨ended, scanned⟩
    cases ended with
    | some total =>
      obtain ⟨trailer, behind, split, -, part⟩ := scanTrailers_complete scanned
      exact .inl ⟨trailer, behind, split, part⟩
    | none =>
      simp only [scanTrailers] at scanned
      split at scanned
      · cases scanned
      rename_i other
      rw [List.isPrefixOf_iff_prefix] at other
      cases missing : findSub blankLine tail with
      | none =>
        rw [missing] at scanned
        exact .inr ⟨other, rfl, (unfinishedScan_ok_iff _ _).mp ⟨none, scanned⟩⟩
      | some trailerEnd =>
        simp only [missing] at scanned
        split at scanned
        · cases scanned
        split at scanned <;> cases scanned
  · rintro (⟨trailer, behind, rfl, part⟩ | ⟨other, missing, clean, fits⟩)
    · exact ⟨_, part.scan behind⟩
    · rw [scanTrailers, if_neg (by rwa [List.isPrefixOf_iff_prefix]), missing]
      exact (unfinishedScan_ok_iff _ _).mpr ⟨clean, fits⟩

/-- The scan refuses exactly what the grammar leaves out.
Witness: induction on what is left to read, and on the grammar.
-/
theorem scanChunks_ok_iff (start : Nat) (rest : Bytes)
    : (∃ ended, scanChunks start rest = .ok ended) ↔ ChunkedSoFar start rest := by
  constructor
  · rintro ⟨ended, scanned⟩
    induction length : rest.length using Nat.strongRecOn generalizing start rest with
    | _ remaining ih =>
      cases bodyView start rest with
      | unfinished missing =>
        rw [scanChunks_unfinished missing] at scanned
        obtain ⟨clean, fits⟩ := (unfinishedScan_ok_iff _ _).mp ⟨ended, scanned⟩
        exact .line missing clean fits
      | malformed tail ends unread =>
        rw [scanChunks_malformed tail ends unread] at scanned
        cases scanned
      | last tail header =>
        rw [scanChunks_last header] at scanned
        rcases (scanTrailers_ok_iff _ _).mp ⟨ended, scanned⟩ with
          ⟨trailer, behind, rfl, part⟩ | ⟨other, missing, clean, fits⟩
        · rw [← append_assoc]
          exact .complete behind (.last header part)
        · exact .trailers header other missing clean fits
      | oversized tail header filled exceeds =>
        rw [scanChunks_oversized header filled exceeds] at scanned
        cases scanned
      | short tail header filled fits missing => exact .data header filled fits missing
      | unterminated tail header filled fits arrived other =>
        rw [scanChunks_unterminated header filled fits arrived other] at scanned
        cases scanned
      | @chunk line data rest header filled fits =>
        rw [scanChunks_chunk header filled fits] at scanned
        have shorter : rest.length < remaining := by
          rw [← length, length_append, length_encodeChunk]
          omega
        exact .chunk header filled fits (ih _ shorter _ _ scanned rfl)
  · intro soFar
    induction soFar with
    | line missing clean fits =>
      rw [scanChunks_unfinished missing]
      exact (unfinishedScan_ok_iff _ _).mpr ⟨clean, fits⟩
    | trailers final other missing clean fits =>
      rw [scanChunks_last final]
      exact (scanTrailers_ok_iff _ _).mpr (.inr ⟨other, missing, clean, fits⟩)
    | data header filled fits short => exact ⟨_, scanChunks_short header filled fits short⟩
    | complete behind message => exact ⟨_, message.scan behind⟩
    | chunk header filled fits later ih =>
      rw [scanChunks_chunk header filled fits]
      exact ih

/-! Errors that more data keeps. -/

theorem isTrailerLine_plain {line} (accepted : isTrailerLine line = true) : IsPlain line := by
  simp only [isTrailerLine, Bool.or_eq_true] at accepted
  rcases accepted with empty | isField
  · rw [isEmpty_iff.mp empty]
    intro byte member
    cases member
  · obtain ⟨field, isField⟩ := Option.isSome_iff_exists.mp isField
    exact headerField_plain isField

/-- Lines without carriage returns leave them to the line breaks between them.
Witness: induction on the data, one line at a time.
-/
theorem lineFeed_behind_carriageReturn {data : Bytes}
    (lines : ∀ line ∈ (crlfLines data).1, isTrailerLine line = true)
    (tail : isTrailerLine (crlfLines data).2 = true) {idx : Nat} (found : data[idx]? = some 13)
    : data[idx + 1]? = some 10 := by
  induction length : data.length using Nat.strongRecOn generalizing data idx with
  | _ remaining ih =>
    cases located : findSub crlf data with
    | none =>
      rw [crlfLines_none located] at tail
      exact absurd rfl (isTrailerLine_plain tail _ (mem_of_getElem? found)).2
    | some lineLen =>
      have here := findSub_occurs located
      have inside := findSub_lt located
      have feed : data[lineLen + 1]? = some 10 := getElem?_of_prefix_drop here rfl
      rw [crlfLines_some located] at lines tail
      rcases Nat.lt_trichotomy idx lineLen with before | rfl | behind
      · have member : 13 ∈ data.take lineLen :=
          mem_of_getElem? ((getElem?_take_of_lt before).trans found)
        have plain := isTrailerLine_plain (lines _ mem_cons_self) _ member
        exact absurd rfl plain.2
      · exact feed
      · have notFeed : idx ≠ lineLen + 1 := by
          rintro rfl
          rw [feed] at found
          cases found
        have shorter : (data.drop (lineLen + 2)).length < remaining := by
          rw [← length, length_drop]
          omega
        have inRest : (data.drop (lineLen + 2))[idx - (lineLen + 2)]? = some 13 := by
          rw [getElem?_drop, show lineLen + 2 + (idx - (lineLen + 2)) = idx by omega, found]
        have later := ih _ shorter
          (fun line member => lines line (mem_cons_of_mem _ member)) tail inRest rfl
        rw [getElem?_drop] at later
        rwa [show lineLen + 2 + (idx - (lineLen + 2) + 1) = idx + 1 by omega] at later

/-- A misplaced line break makes a trailer block ill-formed. -/
theorem trailersWellFormed_of_misplaced {block idx}
    (misplaced
      : BareLineFeedAt block idx ∨ block[idx]? = some 13 ∧ block[idx + 1]? ≠ some 10)
    : trailersWellFormed block = false := by
  rw [← Bool.not_eq_true]
  intro wellFormed
  simp only [trailersWellFormed, Bool.and_eq_true, Bool.not_eq_true', all_eq_true] at wellFormed
  obtain ⟨noFeed, lines, tail⟩ := wellFormed
  rcases misplaced with feed | ⟨carriage, alone⟩
  · rw [(hasBareLineFeed_iff block).mpr ⟨idx, feed⟩] at noFeed
    cases noFeed
  · exact alone (lineFeed_behind_carriageReturn lines tail carriage)

variable {error : HttpFrameError}

/-- Data within the limit that ends in the middle of a line is refused for a misplaced
line break only.
-/
theorem misplaced_of_unfinishedScan {bufferLen pending}
    (refused : unfinishedScan bufferLen pending = .error error)
    (fits : bufferLen ≤ maxHttpRequestSize)
    : hasInvalidHttpLineEnding pending = true := by
  simp only [unfinishedScan] at refused
  split at refused
  · assumption
  · rw [if_neg (by omega)] at refused
    cases refused

theorem unfinishedScan_of_misplaced {bufferLen pending}
    (invalid : hasInvalidHttpLineEnding pending = true)
    : unfinishedScan bufferLen pending = .error .invalid := by
  rw [unfinishedScan, if_pos invalid]

/-- Trailers with a misplaced line break do not begin with an empty line, whatever follows. -/
theorem not_crlf_of_misplaced {tail} (other : ¬ crlf <+: tail)
    (invalid : hasInvalidHttpLineEnding tail = true) (back : Bytes)
    : ¬ crlf <+: tail ++ back := by
  rcases tail with _ | ⟨first, _ | ⟨second, tail⟩⟩
  · cases invalid
  · intro starts
    obtain ⟨rest, split⟩ := starts
    cases split
    revert invalid
    decide
  · intro starts
    have enough : 0 + crlf.length ≤ (first :: second :: tail).length := by
      simp [crlf]
    exact other ((prefix_drop_append_iff enough).mp starts)

variable {start : Nat}

/-- More data keeps an error in the trailers of a message within the limit. -/
theorem scanTrailers_error_kept {tail} (refused : scanTrailers start tail = .error error)
    (fits : start + tail.length ≤ maxHttpRequestSize) (back : Bytes)
    : ∃ later, scanTrailers start (tail ++ back) = .error later := by
  simp only [scanTrailers] at refused
  split at refused
  · cases refused
  rename_i notEmpty
  rw [List.isPrefixOf_iff_prefix] at notEmpty
  cases missing : findSub blankLine tail with
  | some trailerEnd =>
    have inside : trailerEnd + 4 ≤ tail.length := findSub_add_le (by decide) missing
    have enough : crlf.length ≤ tail.length := by
      rw [show crlf.length = 2 from rfl]
      omega
    rw [scanTrailers, isPrefixOf_append_eq back enough,
      if_neg (by rwa [List.isPrefixOf_iff_prefix]),
      findSub_append_of_some (by decide) missing back]
    simp only [missing] at refused ⊢
    rw [take_append_of_le_length (by omega)]
    exact ⟨error, refused⟩
  | none =>
    rw [missing] at refused
    have invalid := misplaced_of_unfinishedScan refused fits
    have stillNotEmpty := not_crlf_of_misplaced notEmpty invalid back
    rw [scanTrailers, if_neg (by rwa [List.isPrefixOf_iff_prefix])]
    cases found : findSub blankLine (tail ++ back) with
    | none =>
      exact ⟨_, unfinishedScan_of_misplaced (hasInvalidHttpLineEnding_append invalid back)⟩
    | some trailerEnd =>
      obtain ⟨idx, misplaced⟩ := (hasInvalidHttpLineEnding_iff tail).mp invalid
      have illFormed := trailersWellFormed_of_misplaced
        (misplaced_before_blankLine missing found misplaced)
      simp only [illFormed, Bool.not_false, if_true]
      exact ⟨_, rfl⟩

variable {front : Bytes}

/-- More data keeps an error in a body within the limit.
Witness: induction on what is left to read; a misplaced line break ends up inside the line
or the trailer block that the new data completes.
-/
theorem scanChunks_error_kept (refused : scanChunks start front = .error error)
    (within : start + front.length ≤ maxHttpRequestSize) (back : Bytes)
    : ∃ later, scanChunks start (front ++ back) = .error later := by
  induction length : front.length using Nat.strongRecOn generalizing start front with
  | _ remaining ih =>
    cases bodyView start front with
    | unfinished missing =>
      rw [scanChunks_unfinished missing] at refused
      have invalid := misplaced_of_unfinishedScan refused within
      cases found : findSub crlf (front ++ back) with
      | none =>
        rw [scanChunks_unfinished found]
        exact ⟨_, unfinishedScan_of_misplaced (hasInvalidHttpLineEnding_append invalid back)⟩
      | some lineLen =>
        obtain ⟨idx, misplaced⟩ := (hasInvalidHttpLineEnding_iff front).mp invalid
        obtain ⟨byte, member, isBreak⟩ := misplaced_before_crlf missing found misplaced
        have unread : chunkLineSize ((front ++ back).take lineLen) = none := by
          cases announced : chunkLineSize ((front ++ back).take lineLen) with
          | none => rfl
          | some size =>
            obtain ⟨notFeed, notCarriage⟩ := chunkLineSize_plain announced member
            rcases isBreak with feed | carriage
            · exact absurd feed notFeed
            · exact absurd carriage notCarriage
        rw [scanChunks, found]
        simp only [unread]
        exact ⟨_, rfl⟩
    | malformed tail ends unread =>
      rw [append_assoc]
      exact ⟨_, scanChunks_malformed (tail ++ back) ends unread⟩
    | last tail header =>
      rw [scanChunks_last header] at refused
      rw [append_assoc, scanChunks_last header]
      refine scanTrailers_error_kept refused ?_ back
      simp [crlf] at within
      omega
    | oversized tail header filled exceeds =>
      rw [append_assoc]
      exact ⟨_, scanChunks_oversized header filled exceeds (tail ++ back)⟩
    | short tail header filled fits missing =>
      rw [scanChunks_short header filled fits missing] at refused
      cases refused
    | @unterminated line data tail header filled fits arrived other =>
      have regroup : line ++ crlf ++ (data ++ tail) ++ back
          = line ++ crlf ++ (data ++ (tail ++ back)) := by
        simp
      rw [regroup]
      refine ⟨_, scanChunks_unterminated header filled fits ?_ ?_⟩
      · simp
        omega
      · rwa [take_append_of_le_length arrived]
    | @chunk line data rest header filled fits =>
      rw [scanChunks_chunk header filled fits] at refused
      rw [length_append] at within length
      have shorter : rest.length < remaining := by
        rw [← length, length_encodeChunk]
        omega
      rw [append_assoc, scanChunks_chunk header filled fits]
      exact ih _ shorter refused (by omega) rfl

/-- A scan that waits for more data has stayed within the limit. -/
theorem scanChunks_none_fits {rest} (waits : scanChunks start rest = .ok none)
    : start + rest.length ≤ maxHttpRequestSize := by
  have soFar := (scanChunks_ok_iff start rest).mp ⟨_, waits⟩
  induction soFar with
  | line missing clean fits => exact fits
  | trailers final other missing clean fits | data header filled fits short =>
    simp [crlf]
    omega
  | complete behind message =>
    rw [message.scan behind] at waits
    cases waits
  | chunk header filled fits later ih =>
    rw [scanChunks_chunk header filled fits] at waits
    have rest := ih waits
    simp
    omega

/-! Bodies that are refused before their end arrives. -/

/-- The received part of a body is already longer than the limit, and the data that
follows completes a message that it begins.
-/
def LateEnd (start : Nat) (front back : Bytes) : Prop :=
  maxHttpRequestSize < start + front.length
  ∧ ∃ body chunks,
      ChunkedMessage start body chunks ∧ body <+: front ++ back ∧ front.length < body.length

variable {back : Bytes}

theorem LateEnd.accepted (late : LateEnd start front back)
    : ∃ total, scanChunks start (front ++ back) = .ok (some total) := by
  obtain ⟨-, body, chunks, message, ⟨behind, split⟩, -⟩ := late
  rw [← split]
  exact ⟨_, message.scan behind⟩

/-- The two ends of a message agree, so a part that lacks the end is refused for its
length.
-/
theorem LateEnd.refused (late : LateEnd start front back)
    : ∃ error, scanChunks start front = .error error := by
  obtain ⟨long, body, chunks, message, ⟨behind, split⟩, longer⟩ := late
  rcases scanned : scanChunks start front with error | ended
  · exact ⟨error, rfl⟩
  cases ended with
  | none =>
    have fits := scanChunks_none_fits scanned
    omega
  | some total =>
    obtain ⟨early, rest, earlyChunks, rfl, -, earlyMessage⟩ := scanChunks_complete scanned
    have whole := message.scan behind
    rw [split, append_assoc, earlyMessage.scan (rest ++ back)] at whole
    simp only [Except.ok.injEq, Option.some.injEq] at whole
    rw [length_append] at longer
    omega

/-- An error that more data repairs is a late end. -/
theorem lateEnd_of_repaired {ended} (refused : scanChunks start front = .error error)
    (accepted : scanChunks start (front ++ back) = .ok ended)
    : LateEnd start front back := by
  have long : maxHttpRequestSize < start + front.length := by
    by_contra within
    obtain ⟨later, stillRefused⟩ := scanChunks_error_kept refused (by omega) back
    rw [accepted] at stillRefused
    cases stillRefused
  refine ⟨long, ?_⟩
  cases ended with
  | none =>
    have fits := scanChunks_none_fits accepted
    rw [length_append] at fits
    omega
  | some total =>
    obtain ⟨body, behind, chunks, split, -, message⟩ := scanChunks_complete accepted
    refine ⟨body, chunks, message, ⟨behind, split.symm⟩, ?_⟩
    by_contra short
    have early : body <+: front :=
      prefix_of_prefix_length_le ⟨behind, split.symm⟩ (prefix_append _ _) (by omega)
    obtain ⟨rest, rfl⟩ := early
    rw [message.scan rest] at refused
    cases refused

/-- The body received so far passes the checks for the framing it has. -/
def BodySoFar (start : Nat) (body : Bytes) : HttpBodyFraming → Prop
  | .headersOnly => True
  | .contentLength length => start + length ≤ maxHttpRequestSize
  | .chunked => ChunkedSoFar start body

theorem scanDecision_reject_iff (scanned : Except HttpFrameError (Option Nat))
    : (∃ rejection, scanDecision scanned = .reject rejection) ↔ ¬ ∃ ended, scanned = .ok ended := by
  rcases scanned with error | ended
  · simp [scanDecision]
  · cases ended <;> simp [scanDecision]

theorem HttpHead.refuses_iff {head framing} (accepted : HttpHead head framing) (body : Bytes)
    : (∃ rejection, httpDecision (head ++ body) = .reject rejection)
      ↔ ¬ BodySoFar head.length body framing := by
  rw [accepted.decision]
  cases framing with
  | headersOnly => simp [httpBodyDecision, BodySoFar]
  | contentLength length =>
    simp only [httpBodyDecision, BodySoFar]
    split
    · rename_i long
      simp [long]
    · rename_i fits
      simp [Nat.not_lt.mp fits]
  | chunked =>
    rw [httpBodyDecision, drop_left, scanDecision_reject_iff, scanChunks_ok_iff]
    rfl

/-- The data behind `front` repairs an error that its length alone caused: the head was
about to end within its limit, or the body had reached the last chunk.
-/
inductive RefusedTooEarly (front back : Bytes) : Prop where
  | head {head body : Bytes} {framing : HttpBodyFraming} (accepted : HttpHead head framing)
      (split : front ++ back = head ++ body) (unfinished : front.length < head.length)
      (long : maxHttpHeaderSize < front.length) (sound : BodySoFar head.length body framing)
      : RefusedTooEarly front back
  | lastChunk {head body : Bytes} (accepted : HttpHead head .chunked)
      (split : front = head ++ body) (late : LateEnd head.length body back)
      : RefusedTooEarly front back

/-- A request that is refused too early would have been accepted. -/
theorem RefusedTooEarly.repaired (early : RefusedTooEarly front back)
    : (∃ rejection, httpDecision front = .reject rejection)
      ∧ ∀ later, httpDecision (front ++ back) ≠ .reject later := by
  cases early with
  | @head head body framing accepted split unfinished long sound =>
    constructor
    · obtain ⟨block, rfl, ends, -, -, -⟩ := accepted.passes
      have missing : findSub blankLine front = none := by
        cases found : findSub blankLine front with
        | none => rfl
        | some index =>
          have fits := findSub_add_le (by decide) found
          have whole := findSub_append_of_some (by decide) ends body
          rw [← split, findSub_append_of_some (by decide) found back] at whole
          cases whole
          rw [length_append] at unfinished
          omega
      rw [httpDecision_unfinished missing, if_pos long]
      exact ⟨_, rfl⟩
    · intro later refused
      rw [split] at refused
      exact (accepted.refuses_iff body).mp ⟨later, refused⟩ sound
  | @lastChunk head body accepted split late =>
    subst split
    constructor
    · rw [accepted.refuses_iff]
      intro sound
      obtain ⟨error, refused⟩ := late.refused
      obtain ⟨ended, waits⟩ := (scanChunks_ok_iff _ _).mpr sound
      rw [refused] at waits
      cases waits
    · intro later refused
      rw [append_assoc] at refused
      refine (accepted.refuses_iff _).mp ⟨later, refused⟩ ?_
      obtain ⟨total, scanned⟩ := late.accepted
      exact (scanChunks_ok_iff _ _).mp ⟨_, scanned⟩

/-- Chunked bodies keep the decision on them, except for late ends. -/
theorem scanDecision_kept_or_lateEnd (start : Nat) (body back : Bytes)
    : (scanDecision (scanChunks start body)).Kept (scanDecision (scanChunks start (body ++ back)))
      ∨ LateEnd start body back := by
  rcases scanned : scanChunks start body with error | ended
  · rcases later : scanChunks start (body ++ back) with error' | ended
    · exact .inl (.rejected _ _)
    · exact .inr (lateEnd_of_repaired scanned later)
  · cases ended with
    | none => exact .inl (.opened _)
    | some total =>
      obtain ⟨message, behind, chunks, rfl, rfl, isMessage⟩ := scanChunks_complete scanned
      rw [append_assoc, isMessage.scan]
      exact .inl (.same _)

/-- More data keeps the decision on a request, except on those refused too early.
Witness: the head decides alone once it is complete, so only its end and the end of a
chunked body are left.
-/
theorem httpDecision_kept_or_refusedTooEarly (front back : Bytes)
    : (httpDecision front).Kept (httpDecision (front ++ back)) ∨ RefusedTooEarly front back := by
  cases headView front with
  | refused body ends bad =>
    obtain ⟨before, refused⟩ := httpDecision_refused ends bad body
    obtain ⟨after, stillRefused⟩ := httpDecision_refused ends bad (body ++ back)
    rw [refused, append_assoc, stillRefused]
    exact .inl (.rejected _ _)
  | @accepted head framing body accepted =>
    rw [append_assoc, accepted.decision, accepted.decision]
    cases framing with
    | headersOnly => exact .inl (.same _)
    | contentLength length => exact .inl (.same _)
    | chunked =>
      simp only [httpBodyDecision, drop_left]
      rcases scanDecision_kept_or_lateEnd head.length body back with kept | late
      · exact .inl kept
      · exact .inr (.lastChunk accepted rfl late)
  | unfinished missing =>
    rw [httpDecision_unfinished missing]
    split
    · rename_i long
      generalize whole : front ++ back = buffer
      cases headView buffer with
      | unfinished stillMissing =>
        have longer : buffer.length > maxHttpHeaderSize := by
          rw [← whole, length_append]
          omega
        rw [httpDecision_unfinished stillMissing, if_pos longer]
        exact .inl (.same _)
      | refused body ends bad =>
        obtain ⟨after, refused⟩ := httpDecision_refused ends bad body
        rw [refused]
        exact .inl (.rejected _ _)
      | @accepted head framing body accepted =>
        by_cases sound : BodySoFar head.length body framing
        · obtain ⟨block, rfl, ends, -, -, -⟩ := accepted.passes
          have found := findSub_append_of_some (by decide) ends body
          rw [← whole] at found
          have unfinished := findSub_append_of_none (by decide) missing found
          refine .inr (.head accepted whole ?_ long sound)
          rwa [length_append]
        · obtain ⟨after, refused⟩ := (accepted.refuses_iff body).mpr sound
          rw [refused]
          exact .inl (.rejected _ _)
    · exact .inl (.opened _)

theorem extractHttpRequest_not_stableAt (early : RefusedTooEarly front back)
    : ¬ StableAt extractHttpRequest front back := by
  obtain ⟨⟨rejection, refused⟩, accepted⟩ := early.repaired
  exact extractHttpRequest_refines.not_stableAt refused accepted

/-- The outcome on a buffer stands when more data arrives, except where the framer
refused a request too early.
-/
theorem extractHttpRequest_stableAt_iff (front back : Bytes)
    : StableAt extractHttpRequest front back ↔ ¬ RefusedTooEarly front back := by
  constructor
  · intro stable early
    exact extractHttpRequest_not_stableAt early stable
  · intro onTime
    rcases httpDecision_kept_or_refusedTooEarly front back with kept | early
    · exact extractHttpRequest_refines.stableAt kept
    · exact absurd early onTime

theorem headerField_filler (length : Nat)
    : headerField (ascii "X:" ++ replicate length 97) = some (ascii "X", replicate length 97) := by
  have colon : (ascii "X:" ++ replicate length 97).findIdx? (· == 58) = some 1 := rfl
  have value : (replicate length (97 : UInt8)).all isHttpFieldValueByte = true := by
    rw [all_eq_true]
    intro byte member
    rw [eq_of_mem_replicate member]
    decide
  have name : (ascii "X:" ++ replicate length 97).take 1 = ascii "X" := rfl
  have behind : (ascii "X:" ++ replicate length 97).drop (1 + 1) = replicate length 97 :=
    rfl
  rw [headerField, colon]
  simp only [name, behind, value]
  rfl

/-- A small request with one long field. -/
def filledHead (length : Nat) : Bytes :=
  encodeHead (ascii "GET / HTTP/1.0") [ascii "X:" ++ List.replicate length 97]

theorem length_filledHead (length : Nat) : (filledHead length).length = length + 22 := by
  have requestLine : (ascii "GET / HTTP/1.0").length = 14 := by decide
  have name : (ascii "X:").length = 2 := by decide
  simp [filledHead, encodeHead, encodeFields, crlf, requestLine, name]
  omega

theorem filledHead_accepted {length} (fits : length + 18 ≤ maxHttpHeaderSize)
    : HttpHead (filledHead length) .headersOnly := by
  have collected
      : (⟨[], none⟩ : BodyFields).addLines [ascii "X:" ++ replicate length 97]
        = some ⟨[], none⟩ := by
    rw [BodyFields.addLines, headerField_filler]
    rfl
  refine .lines ?_ (by decide) collected rfl ?_
  · unfold IsPlain
    decide +kernel
  · have length := length_filledHead length
    rw [filledHead, encodeHead_eq, length_append] at length
    simp [blankLine] at length
    omega

/-- A head that is refused one byte past the limit and accepted when it arrives whole. -/
theorem extractHttpRequest_not_stableAt_filledHead
    : ¬ StableAt extractHttpRequest ((filledHead 65518).take 65537)
          ((filledHead 65518).drop 65537) := by
  have whole := length_filledHead 65518
  have front : ((filledHead 65518).take 65537).length = 65537 := by
    simp
    omega
  have split
      : (filledHead 65518).take 65537 ++ (filledHead 65518).drop 65537
        = filledHead 65518 ++ [] := by
    rw [List.take_append_drop, List.append_nil]
  refine extractHttpRequest_not_stableAt (.head (filledHead_accepted ?_) split ?_ ?_ trivial)
  · decide
  · omega
  · rw [front]
    decide

end NetTrap.TcpFraming
