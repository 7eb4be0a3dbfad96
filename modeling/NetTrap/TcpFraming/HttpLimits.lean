import NetTrap.TcpFraming.HttpParsing

/-! How long a request frame can be.
Bodies with a length, data chunks and trailer fields are held to the limit; the end of a
chunked body without trailer fields is not.
-/

namespace NetTrap.TcpFraming

open Access Framing Search Rust Http List

theorem chunkLine_of_announces {line size} (announces : chunkLineSize line = some size)
    : ChunkLine line size := by
  have plain : 13 ∉ line := fun member => (chunkLineSize_plain announces member).2 rfl
  refine ⟨?_, announces⟩
  have found : findSub crlf (line ++ crlf) = _ := findSub_skip plain crlf
  rw [found, show findSub [13, 10] crlf = some 0 from rfl]
  simp

/-- A chunked request whose data chunks end within the limit and whose last chunk, which no
trailer fields follow, ends beyond it.
-/
inductive EndsBeyondLimit : Bytes → Prop where
  | lastChunk {head front line : Bytes} {chunks : List Bytes} (accepted : HttpHead head .chunked)
      (message : ChunkedMessage head.length (front ++ (line ++ crlf ++ crlf)) chunks)
      (final : ChunkLine line 0) (within : head.length + front.length ≤ maxHttpRequestSize)
      (beyond : maxHttpRequestSize < head.length + (front ++ (line ++ crlf ++ crlf)).length)
      (behind : Bytes)
      : EndsBeyondLimit (head ++ (front ++ (line ++ crlf ++ crlf) ++ behind))

/-- Only an end without trailer fields takes a message beyond the limit, by induction on
its chunks.
-/
theorem ChunkedMessage.last_beyond {start body chunks} (message : ChunkedMessage start body chunks)
    (inside : start ≤ maxHttpRequestSize) (beyond : maxHttpRequestSize < start + body.length)
    : ∃ front line, body = front ++ (line ++ crlf ++ crlf) ∧ ChunkLine line 0
        ∧ start + front.length ≤ maxHttpRequestSize := by
  induction message with
  | @last start line trailer final trailers =>
    cases trailers with
    | none => exact ⟨[], line, rfl, final, inside⟩
    | @fields block other ends wellFormed fits =>
      simp [crlf, blankLine] at beyond
      omega
  | @chunk start line data rest chunks header some fits later ih =>
    rw [length_append] at beyond
    obtain ⟨front, last, rfl, final, within⟩ := ih fits (by omega)
    refine ⟨encodeChunk line data ++ front, last, by simp, final, ?_⟩
    rw [length_append]
    omega

theorem HttpHead.length_le {head framing} (accepted : HttpHead head framing)
    : head.length ≤ maxHttpRequestSize := by
  obtain ⟨block, rfl, -, fits, -⟩ := accepted.passes
  simp only [maxHttpHeaderSize] at fits
  simp [blankLine, maxHttpRequestSize]
  omega

/-- A complete chunked request is the frame, however long it is. -/
theorem extractHttpRequest_chunked {head body chunks} (accepted : HttpHead head .chunked)
    (message : ChunkedMessage head.length body chunks) (behind : Bytes)
    : extractHttpRequest (head ++ (body ++ behind)) = .done (.complete (head ++ body), behind) := by
  rw [extractHttpRequest_refines, follow, accepted.decision, httpBodyDecision, drop_left,
    message.scan, scanDecision, ← append_assoc, ← length_append,
    outcome_take_of_le (by simp), take_left, drop_left]

/-- Request frames are held to the limit, except where the last chunk ends beyond it. -/
theorem http_frame_within_limit_iff (buffer : Bytes)
    : (∀ frame rest, extractHttpRequest buffer = .done (.complete frame, rest)
        → frame.length ≤ maxHttpRequestSize)
      ↔ ¬ EndsBeyondLimit buffer := by
  constructor
  · rintro bounded ⟨accepted, message, -, -, beyond, behind⟩
    have fits := bounded _ _ (extractHttpRequest_chunked accepted message behind)
    rw [List.length_append] at fits
    omega
  · intro ends frame rest finished
    obtain ⟨answer, again, sound⟩ :=
      extractHttpRequest_refines.finishes httpDecision_positive buffer
    rw [finished] at again
    cases again
    obtain ⟨head, framing, payload, rfl, accepted, framed⟩ := extractHttpRequest_complete finished
    have headFits := accepted.length_le
    obtain ⟨-, rfl⟩ := sound
    rw [List.length_append]
    cases framing with
    | headersOnly =>
      rw [framed]
      exact headFits
    | contentLength length =>
      have split := extractHttpRequest_refines.complete finished
      rw [List.append_assoc, follow, accepted.decision, httpBodyDecision] at split
      split at split
      · cases split
      · rename_i fits
        rw [framed]
        omega
    | chunked =>
      obtain ⟨chunks, message⟩ := framed
      by_contra beyond
      obtain ⟨front, line, rfl, final, within⟩ := message.last_beyond headFits (by omega)
      rw [List.append_assoc] at ends
      exact ends (.lastChunk accepted message final within (by omega) rest)

/-- The size of a last chunk, behind which blanks are allowed. -/
theorem chunkLine_blanks (count : Nat) : ChunkLine (48 :: replicate count 32) 0 := by
  have small : ∀ byte ∈ (48 :: replicate count 32 : Bytes), byte < 0x80 := by
    intro byte member
    rcases mem_cons.mp member with rfl | blank
    · decide
    · rw [eq_of_mem_replicate blank]
      decide
  have digits : (48 :: replicate count 32 : Bytes).takeWhile isAsciiHexdigit = [48] := by
    cases count <;> rfl
  have blanks : skipHttpBws ((48 :: replicate count 32 : Bytes).dropWhile isAsciiHexdigit)
      = [] := by
    have dropped
        : (48 :: replicate count 32 : Bytes).dropWhile isAsciiHexdigit = replicate count 32 := by
      cases count <;> rfl
    rw [dropped, skipHttpBws, dropWhile_eq_nil_iff]
    intro byte blank
    rw [eq_of_mem_replicate blank]
    rfl
  apply chunkLine_of_announces
  rw [chunkLineSize, fromUtf8_ascii small, Option.bind_some, parseHttpChunkSize,
    Http.parseHttpChunkSize, digits, blanks, chunkExtensionsEnd]
  rfl

/-- The head of a chunked request. -/
def chunkedHead : Bytes :=
  encodeHead (ascii "POST / HTTP/1.1") [ascii "Host: a", ascii "Transfer-Encoding: chunked"]

theorem chunkedHead_accepted : HttpHead chunkedHead .chunked := by
  have collected
      : (⟨[], none⟩ : BodyFields).addLines [ascii "Host: a", ascii "Transfer-Encoding: chunked"]
        = some ⟨[ascii "chunked"], none⟩ := by
    decide +kernel
  refine .lines ?_ (by decide +kernel) collected (by decide +kernel) (by decide +kernel)
  unfold IsPlain
  decide +kernel

/-- A request without data, whose last chunk line is filled up with blanks. -/
def blankRequest (count : Nat) : Bytes :=
  chunkedHead ++ (48 :: List.replicate count 32 ++ crlf ++ crlf)

theorem extractHttpRequest_blankRequest (count : Nat) (behind : Bytes)
    : extractHttpRequest (blankRequest count ++ behind)
      = .done (.complete (blankRequest count), behind) := by
  rw [blankRequest, append_assoc]
  exact extractHttpRequest_chunked chunkedHead_accepted (.last (chunkLine_blanks _) .none) behind

theorem length_blankRequest (count : Nat) : count < (blankRequest count).length := by
  simp [blankRequest]
  omega

/-- A request that is delivered although its last chunk line alone is as long as the
limit.
-/
theorem http_frame_beyond_limit
    : extractHttpRequest (blankRequest maxHttpRequestSize ++ ascii "GET")
        = .done (.complete (blankRequest maxHttpRequestSize), ascii "GET")
      ∧ maxHttpRequestSize < (blankRequest maxHttpRequestSize).length :=
  ⟨extractHttpRequest_blankRequest _ _, length_blankRequest _⟩

end NetTrap.TcpFraming
