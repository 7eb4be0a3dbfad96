import NetTrap.Http.LineEndings
import NetTrap.TcpFraming.HttpDecision

/-! The grammar of chunked bodies, and that scanning a body recognises it.
Sizes are limited by where a part ends in the buffer, so the grammar carries the number
of bytes in front of the body.
-/

namespace NetTrap.TcpFraming

open Framing Search Rust Http List

/-- A chunk-size line, without the line break that ends it. -/
structure ChunkLine (line : Bytes) (size : Nat) : Prop where
  ends : findSub crlf (line ++ crlf) = some line.length
  announces : chunkLineSize line = some size

/-- What may follow the last chunk's line: an empty line, or trailer fields and an empty
line that end within the request limit.
-/
inductive TrailerPart (start : Nat) : Bytes → Prop where
  | none : TrailerPart start crlf
  | fields {block : Bytes} (other : ¬ crlf <+: block ++ blankLine)
      (ends : findSub blankLine (block ++ blankLine) = some block.length)
      (wellFormed : trailersWellFormed block = true)
      (fits : start + block.length + 4 ≤ maxHttpRequestSize)
      : TrailerPart start (block ++ blankLine)

/-- The bytes of one data chunk. -/
def encodeChunk (line data : Bytes) : Bytes :=
  line ++ crlf ++ (data ++ crlf)

/-- A complete chunked body and the data of its chunks. -/
inductive ChunkedMessage : (start : Nat) → Bytes → List Bytes → Prop where
  | last {start : Nat} {line trailer : Bytes} (final : ChunkLine line 0)
      (trailers : TrailerPart (start + (line.length + 2)) trailer)
      : ChunkedMessage start (line ++ crlf ++ trailer) []
  | chunk {start : Nat} {line data rest : Bytes} {chunks : List Bytes}
      (header : ChunkLine line data.length) (filled : data ≠ [])
      (fits : start + (encodeChunk line data).length ≤ maxHttpRequestSize)
      (later : ChunkedMessage (start + (encodeChunk line data).length) rest chunks)
      : ChunkedMessage start (encodeChunk line data ++ rest) (data :: chunks)

/-! Reading one line. -/

theorem chunkLineSize_plain {line size} (announces : chunkLineSize line = some size) {byte : UInt8}
    (member : byte ∈ line)
    : byte ≠ 10 ∧ byte ≠ 13 := by
  obtain ⟨text, decoded, parsed⟩ := Option.bind_eq_some_iff.mp announces
  rw [← fromUtf8_eq decoded] at member
  exact (parseHttpChunkSize_sound parsed).isPlain byte member

theorem ChunkLine.findSub_eq {line size} (header : ChunkLine line size) (rest : Bytes)
    : findSub crlf (line ++ crlf ++ rest) = some line.length :=
  findSub_append_of_some (by decide) header.ends rest

/-- The first line break splits off a line that holds none. -/
theorem chunkLine_of_findSub {rest lineLen size} (found : findSub crlf rest = some lineLen)
    (announces : chunkLineSize (rest.take lineLen) = some size)
    : ∃ line tail, rest = line ++ crlf ++ tail ∧ line.length = lineLen ∧ ChunkLine line size := by
  have fits : lineLen + 2 ≤ rest.length := findSub_add_le (by decide) found
  have length : (rest.take lineLen).length = lineLen := by
    simp
    omega
  refine ⟨rest.take lineLen, rest.drop (lineLen + 2), findSub_split found, length, ?_, announces⟩
  rw [length]
  exact findSub_take (by decide) found

/-- How what is left of a body can start, with the data of a chunk once it has arrived. -/
inductive BodyView (start : Nat) : Bytes → Prop where
  | unfinished {rest : Bytes} (missing : findSub crlf rest = none) : BodyView start rest
  | malformed {line : Bytes} (tail : Bytes)
      (ends : findSub crlf (line ++ crlf) = some line.length)
      (unread : chunkLineSize line = none) : BodyView start (line ++ crlf ++ tail)
  | last {line : Bytes} (tail : Bytes) (header : ChunkLine line 0)
      : BodyView start (line ++ crlf ++ tail)
  | oversized {line : Bytes} {size : Nat} (tail : Bytes) (header : ChunkLine line size)
      (filled : 0 < size) (exceeds : maxHttpRequestSize < start + (line.length + 2 + size + 2))
      : BodyView start (line ++ crlf ++ tail)
  | short {line : Bytes} {size : Nat} (tail : Bytes) (header : ChunkLine line size)
      (filled : 0 < size) (fits : start + (line.length + 2 + size + 2) ≤ maxHttpRequestSize)
      (missing : tail.length < size + 2) : BodyView start (line ++ crlf ++ tail)
  | unterminated {line data : Bytes} (tail : Bytes) (header : ChunkLine line data.length)
      (filled : data ≠ []) (fits : start + (encodeChunk line data).length ≤ maxHttpRequestSize)
      (arrived : 2 ≤ tail.length) (other : tail.take 2 ≠ crlf)
      : BodyView start (line ++ crlf ++ (data ++ tail))
  | chunk {line data : Bytes} (rest : Bytes) (header : ChunkLine line data.length)
      (filled : data ≠ []) (fits : start + (encodeChunk line data).length ≤ maxHttpRequestSize)
      : BodyView start (encodeChunk line data ++ rest)

theorem length_encodeChunk (line data : Bytes)
    : (encodeChunk line data).length = line.length + 2 + data.length + 2 := by
  simp [encodeChunk, crlf]
  omega

/-- A chunk header whose data fits in the limit, split by how much of the data is there. -/
theorem bodyView_of_header {start size line} (tail : Bytes) (header : ChunkLine line size)
    (filled : 0 < size)
    : BodyView start (line ++ crlf ++ tail) := by
  rcases Nat.lt_or_ge maxHttpRequestSize (start + (line.length + 2 + size + 2)) with long | fits
  · exact .oversized tail header filled long
  rcases Nat.lt_or_ge tail.length (size + 2) with missing | arrived
  · exact .short tail header filled fits missing
  have length : (tail.take size).length = size := by
    simp
    omega
  have dataHeader : ChunkLine line (tail.take size).length := by rwa [length]
  have dataSome : tail.take size ≠ [] := ne_nil_of_length_pos (by omega)
  have dataFits : start + (encodeChunk line (tail.take size)).length ≤ maxHttpRequestSize := by
    rw [length_encodeChunk, length]
    omega
  by_cases closed : (tail.drop size).take 2 = crlf
  · have split : line ++ crlf ++ tail
        = encodeChunk line (tail.take size) ++ (tail.drop size).drop 2 := by
      have whole : tail = tail.take size ++ (crlf ++ (tail.drop size).drop 2) := by
        rw [← closed, take_append_drop, take_append_drop]
      rw [encodeChunk, append_assoc, append_assoc, append_assoc, append_assoc, ← whole]
    rw [split]
    exact .chunk _ dataHeader dataSome dataFits
  · rw [← take_append_drop size tail]
    refine .unterminated _ dataHeader dataSome dataFits ?_ closed
    simp
    omega

theorem bodyView (start : Nat) (rest : Bytes) : BodyView start rest := by
  cases found : findSub crlf rest with
  | none => exact .unfinished found
  | some lineLen =>
    have fits : lineLen + 2 ≤ rest.length := findSub_add_le (by decide) found
    cases announced : chunkLineSize (rest.take lineLen) with
    | none =>
      have length : (rest.take lineLen).length = lineLen := by
        simp
        omega
      have ends : findSub crlf (rest.take lineLen ++ crlf) = some (rest.take lineLen).length := by
        rw [length]
        exact findSub_take (by decide) found
      rw [findSub_split found]
      exact .malformed _ ends announced
    | some size =>
      obtain ⟨line, tail, rfl, -, header⟩ := chunkLine_of_findSub found announced
      cases size with
      | zero => exact .last tail header
      | succ less => exact bodyView_of_header tail header (Nat.succ_pos less)

/-! The scan of each view. -/

section Scan

variable {start size : Nat} {line data rest : Bytes}

theorem drop_line (line tail : Bytes) : (line ++ crlf ++ tail).drop (line.length + 2) = tail := by
  rw [drop_left' (by simp [crlf])]

theorem scanChunks_unfinished (missing : findSub crlf rest = none)
    : scanChunks start rest = unfinishedScan (start + rest.length) rest := by
  rw [scanChunks, missing]

theorem scanChunks_malformed (tail : Bytes)
    (ends : findSub crlf (line ++ crlf) = some line.length) (unread : chunkLineSize line = none)
    : scanChunks start (line ++ crlf ++ tail) = .error .invalid := by
  rw [scanChunks, findSub_append_of_some (by decide) ends tail]
  simp only
  rw [append_assoc, take_left, unread]

theorem scanChunks_last (header : ChunkLine line 0) (tail : Bytes)
    : scanChunks start (line ++ crlf ++ tail) = scanTrailers (start + (line.length + 2)) tail := by
  rw [scanChunks, header.findSub_eq tail]
  simp only
  rw [append_assoc, take_left, header.announces, ← append_assoc, drop_line]

section

variable (header : ChunkLine line size) (filled : 0 < size)
include header filled

theorem scanChunks_data (tail : Bytes)
    : scanChunks start (line ++ crlf ++ tail) = let frameLen := line.length + 2 + size + 2
        if start + frameLen > maxHttpRequestSize then .error .tooLarge
        else if tail.length < size + 2 then .ok none
        else if (tail.take (size + 2)).drop size != crlf then .error .invalid
        else scanChunks (start + frameLen) (tail.drop (size + 2)) := by
  obtain ⟨less, rfl⟩ := Nat.exists_eq_succ_of_ne_zero (Nat.pos_iff_ne_zero.mp filled)
  rw [scanChunks, header.findSub_eq tail]
  simp only
  rw [append_assoc, take_left, header.announces, ← append_assoc]
  have length : (line ++ crlf ++ tail).length = line.length + 2 + tail.length := by
    simp [crlf]
    omega
  have cut : (((line ++ crlf ++ tail).take (line.length + 2 + (less + 1) + 2)).drop
      (line.length + 2 + (less + 1))) = (tail.take (less + 1 + 2)).drop (less + 1) := by
    rw [drop_take, drop_take, ← drop_drop, drop_line]
    congr 1
    omega
  have behind : (line ++ crlf ++ tail).drop (line.length + 2 + (less + 1) + 2)
      = tail.drop (less + 1 + 2) := by
    rw [Nat.add_assoc, ← drop_drop, drop_line]
  have short : (line ++ crlf ++ tail).length < line.length + 2 + (less + 1) + 2
      ↔ tail.length < less + 1 + 2 := by
    rw [length]
    omega
  simp only [cut, behind, short]

theorem scanChunks_oversized (exceeds : maxHttpRequestSize < start + (line.length + 2 + size + 2))
    (tail : Bytes)
    : scanChunks start (line ++ crlf ++ tail) = .error .tooLarge := by
  rw [scanChunks_data header filled]
  exact if_pos exceeds

theorem scanChunks_short (fits : start + (line.length + 2 + size + 2) ≤ maxHttpRequestSize)
    {tail : Bytes} (missing : tail.length < size + 2)
    : scanChunks start (line ++ crlf ++ tail) = .ok none := by
  rw [scanChunks_data header filled]
  simp only
  rw [if_neg (by omega), if_pos missing]

end

section

variable (header : ChunkLine line data.length) (filled : data ≠ [])
  (fits : start + (encodeChunk line data).length ≤ maxHttpRequestSize)
include header filled fits

theorem scanChunks_unterminated {tail : Bytes} (arrived : 2 ≤ tail.length)
    (other : tail.take 2 ≠ crlf)
    : scanChunks start (line ++ crlf ++ (data ++ tail)) = .error .invalid := by
  rw [length_encodeChunk] at fits
  have cut : ((data ++ tail).take (data.length + 2)).drop data.length = tail.take 2 := by
    rw [drop_take, drop_left, Nat.add_sub_cancel_left]
  rw [scanChunks_data header (length_pos_iff.mpr filled)]
  simp only [cut]
  rw [if_neg (by omega), if_neg (by rw [length_append]; omega), if_pos (by simpa using other)]

theorem scanChunks_chunk (rest : Bytes)
    : scanChunks start (encodeChunk line data ++ rest)
      = scanChunks (start + (encodeChunk line data).length) rest := by
  rw [length_encodeChunk] at fits ⊢
  have regroup : encodeChunk line data ++ rest = line ++ crlf ++ (data ++ crlf ++ rest) := by
    simp [encodeChunk, append_assoc]
  have cut : ((data ++ crlf ++ rest).take (data.length + 2)).drop data.length = crlf := by
    rw [take_left' (by simp [crlf]), drop_left]
  rw [regroup, scanChunks_data header (length_pos_iff.mpr filled)]
  simp only [cut, drop_line]
  rw [if_neg (by omega), if_neg (by simp [crlf])]
  simp

end

end Scan

/-! Recognition. -/

theorem TrailerPart.scan {start trailer} (part : TrailerPart start trailer) (behind : Bytes)
    : scanTrailers start (trailer ++ behind) = .ok (some (start + trailer.length)) := by
  cases part with
  | none =>
    have starts : crlf.isPrefixOf (crlf ++ behind) = true :=
      isPrefixOf_iff_prefix.mpr (prefix_append _ _)
    rw [scanTrailers, if_pos starts]
    rfl
  | @fields block other ends wellFormed fits =>
    have notEmpty : ¬ crlf.isPrefixOf (block ++ blankLine ++ behind) = true := by
      rw [isPrefixOf_append_eq behind (by simp [crlf, blankLine])]
      rwa [List.isPrefixOf_iff_prefix]
    rw [scanTrailers, if_neg notEmpty, findSub_append_of_some (by decide) ends behind]
    simp only
    rw [append_assoc, take_left, wellFormed]
    simp only [Bool.not_true, Bool.false_eq_true, if_false]
    rw [if_neg (by omega), length_append, Nat.add_assoc]
    rfl

/-- A complete body is scanned to its end, whatever follows, by induction on its chunks. -/
theorem ChunkedMessage.scan {start body chunks} (message : ChunkedMessage start body chunks)
    (behind : Bytes)
    : scanChunks start (body ++ behind) = .ok (some (start + body.length)) := by
  induction message with
  | last final trailers =>
    rw [append_assoc, scanChunks_last final, trailers.scan behind]
    simp [crlf]
    omega
  | chunk header filled fits later ih =>
    rw [append_assoc, scanChunks_chunk header filled fits, ih, length_append, Nat.add_assoc]

theorem scanTrailers_complete {start total trailers}
    (ended : scanTrailers start trailers = .ok (some total))
    : ∃ trailer behind, trailers = trailer ++ behind ∧ total = start + trailer.length
        ∧ TrailerPart start trailer := by
  simp only [scanTrailers] at ended
  split at ended
  · rename_i starts
    obtain ⟨behind, rfl⟩ := isPrefixOf_iff_prefix.mp starts
    cases ended
    exact ⟨crlf, behind, rfl, rfl, .none⟩
  rename_i other
  split at ended
  · simp only [unfinishedScan] at ended
    split at ended
    · cases ended
    split at ended <;> cases ended
  rename_i trailerEnd found
  split at ended
  · cases ended
  rename_i wellFormed
  split at ended
  · cases ended
  rename_i fits
  have inside : trailerEnd + 4 ≤ trailers.length := findSub_add_le (by decide) found
  have length : (trailers.take trailerEnd).length = trailerEnd := by
    simp
    omega
  have split := findSub_split found
  have ends : findSub blankLine (trailers.take trailerEnd ++ blankLine)
      = some (trailers.take trailerEnd).length := by
    rw [length]
    exact findSub_take (by decide) found
  cases ended
  refine ⟨trailers.take trailerEnd ++ blankLine, trailers.drop (trailerEnd + 4), split, ?_, ?_⟩
  · rw [length_append, length, Nat.add_assoc]
    rfl
  · refine .fields ?_ ends (by simpa using wellFormed) (by rw [length]; omega)
    rw [← isPrefixOf_iff_prefix]
    have enough : crlf.length ≤ (trailers.take trailerEnd ++ blankLine).length := by
      simp [crlf, blankLine]
    rw [← isPrefixOf_append_eq (trailers.drop (trailerEnd + 4)) enough]
    exact fun starts => other (by rw [split]; exact starts)

theorem unfinishedScan_ne_some (bufferLen total : Nat) (pending : Bytes)
    : unfinishedScan bufferLen pending ≠ .ok (some total) := by
  intro ended
  simp only [unfinishedScan] at ended
  split at ended
  · cases ended
  split at ended <;> cases ended

/-- A scan to the end has read a complete body, by induction on what is left to read. -/
theorem scanChunks_complete {start total rest} (ended : scanChunks start rest = .ok (some total))
    : ∃ body behind chunks, rest = body ++ behind ∧ total = start + body.length
        ∧ ChunkedMessage start body chunks := by
  induction length : rest.length using Nat.strongRecOn generalizing start rest with
  | _ remaining ih =>
    cases bodyView start rest with
    | unfinished missing =>
      rw [scanChunks_unfinished missing] at ended
      exact absurd ended (unfinishedScan_ne_some _ _ _)
    | malformed tail ends unread =>
      rw [scanChunks_malformed tail ends unread] at ended
      cases ended
    | @last line tail header =>
      rw [scanChunks_last header] at ended
      obtain ⟨trailer, behind, rfl, rfl, part⟩ := scanTrailers_complete ended
      refine ⟨line ++ crlf ++ trailer, behind, [], by simp, ?_, .last header part⟩
      simp [crlf]
      omega
    | oversized tail header filled exceeds =>
      rw [scanChunks_oversized header filled exceeds] at ended
      cases ended
    | short tail header filled fits missing =>
      rw [scanChunks_short header filled fits missing] at ended
      cases ended
    | unterminated tail header filled fits arrived other =>
      rw [scanChunks_unterminated header filled fits arrived other] at ended
      cases ended
    | @chunk line data rest header filled fits =>
      rw [scanChunks_chunk header filled fits] at ended
      have shorter : rest.length < remaining := by
        rw [← length, length_append, length_encodeChunk]
        omega
      obtain ⟨body, behind, chunks, rfl, rfl, message⟩ := ih _ shorter ended rfl
      refine ⟨encodeChunk line data ++ body, behind, data :: chunks, by simp, ?_,
        .chunk header filled fits message⟩
      rw [length_append, Nat.add_assoc]

end NetTrap.TcpFraming
