import NetTrap.Http.ChunkLines
import NetTrap.Library.Ber
import NetTrap.TcpFraming.HttpLimits

/-! Chunked requests from the wire to the parsed body.
A body is written chunk by chunk with arbitrary extensions and trailer fields; the framer
cuts out exactly the message and the parser gives back the data of its chunks.
-/

namespace NetTrap.TcpFraming

open Access Framing Search Rust Http List

/-- A chunk-size line of UTF-8 text. -/
structure SizeLine (line : Bytes) (size : Nat) : Prop where
  text : fromUtf8 line = some line
  sized : ChunkSizeLine isQuotedText line size

theorem SizeLine.chunkLine {line size} (sizeLine : SizeLine line size) : ChunkLine line size := by
  apply chunkLine_of_announces
  rw [chunkLineSize, sizeLine.text]
  exact parseHttpChunkSize_complete sizeLine.sized

/-- Data and the line that announces it. -/
structure Chunk where
  (line data : Bytes)
  nonempty : data ≠ []
  sized : SizeLine line data.length

def encodeBody (chunks : List Chunk) (lastLine : Bytes) (trailers : List Bytes) : Bytes :=
  chunks.flatMap (fun chunk => encodeChunk chunk.line chunk.data)
    ++ (lastLine ++ crlf ++ encodeFields trailers)

/-- A valid head of an HTTP/1.1 request with a chunked body: the framer and the parser both
accept it, and its fields name a host and the one coding.
-/
inductive ChunkedHead : Bytes → Prop where
  | parsed {block : Bytes} {method target : Str} {headers : List (Str × Str)}
      (accepted : HttpHead (block ++ blankLine) .chunked)
      (request : parseHeaderBlock block = .ok ((method, target, ascii "HTTP/1.1"), headers))
      (host : hasValidHostHeader headers = true)
      (coding : transferEncodingIsSupported headers = true)
      : ChunkedHead (block ++ blankLine)

section Trailers

variable {lines : List Bytes} (fields : ∀ line ∈ lines, ∃ field, headerField line = some field)
include fields

theorem hasInvalidHttpLineEnding_encodeFields
    : hasInvalidHttpLineEnding (encodeFields lines) = false := by
  induction lines with
  | nil => decide
  | cons line lines ih =>
    rw [forall_mem_cons] at fields
    obtain ⟨⟨field, isField⟩, later⟩ := fields
    exact hasInvalidHttpLineEnding_line (headerField_plain isField) (ih later)

theorem crlfLines_headBlock {line} (plain : IsPlain line)
    : crlfLines (headBlock line lines)
      = ((line :: lines).dropLast, (line :: lines).getLast (cons_ne_nil _ _)) := by
  induction lines generalizing line with
  | nil =>
    have missing : findSub crlf (line ++ []) = none := findSub_skip plain.no_carriageReturn []
    rw [append_nil] at missing
    rw [headBlock, flatMap_nil, append_nil, crlfLines_none missing]
    rfl
  | cons next lines ih =>
    rw [forall_mem_cons] at fields
    obtain ⟨⟨field, isField⟩, later⟩ := fields
    have regroup : headBlock line (next :: lines) = line ++ crlf ++ headBlock next lines := by
      simp [headBlock]
    rw [regroup, crlfLines_line plain.no_carriageReturn, ih later (headerField_plain isField)]
    rfl

end Trailers

theorem isHttpTokenByte_char (byte : UInt8) (token : isHttpTokenByte byte = true)
    : byte < 0x80 ∧ isControl byte.toNat = false ∧ isWhitespace byte.toNat = false := by
  revert byte
  exact Ber.forall_byte (by decide +kernel)

/-- The parser takes every field line as a trailer line, with its carriage return and
without.
-/
theorem isChunkTrailerLine_field {line field} (isField : headerField line = some field)
    : isChunkTrailerLine line = true ∧ isChunkTrailerLine (line ++ [13]) = true := by
  have plain := headerField_plain isField
  have bare := stripSuffix_plain plain
  have ended := stripSuffix_snoc line
  have absent := plain.no_carriageReturn
  simp only [headerField] at isField
  split at isField
  · cases isField
  rename_i colon found
  split at isField
  · cases isField
  rename_i valid
  simp only [Bool.or_eq_true, not_or, Bool.not_eq_true', Bool.not_eq_false, all_eq_true,
    Bool.not_eq_true] at valid
  obtain ⟨⟨⟨filled, trimmed⟩, tokens⟩, values⟩ := valid
  have text := fromUtf8_ascii fun byte member => (isHttpTokenByte_char byte (tokens byte member)).1
  have value : (trimSpaceTab (line.drop (colon + 1))).all isHttpFieldValueByte = true := by
    rw [all_eq_true]
    intro byte member
    rw [trimSpaceTab, mem_reverse] at member
    have inner := mem_reverse.mp ((dropWhile_sublist _).subset member)
    exact values byte ((dropWhile_sublist _).subset inner)
  have key : (chars (line.take colon)).any (fun char => isControl char || isWhitespace char)
      = false := by
    rw [chars_ascii fun byte member => (isHttpTokenByte_char byte (tokens byte member)).1,
      any_eq_false]
    intro char member
    obtain ⟨byte, inside, rfl⟩ := mem_map.mp member
    simp [isHttpTokenByte_char byte (tokens byte inside)]
  have token : isHttpToken (line.take colon) = true := by
    simp [isHttpToken, filled, all_eq_true.mpr tokens]
  constructor
  · simp [isChunkTrailerLine, bare, absent, found, text, filled, trimmed, value, key, token]
  · simp [isChunkTrailerLine, ended, found, text, filled, trimmed, value, key, token]

section Fields

variable {lines : List Bytes} (fields : ∀ line ∈ lines, ∃ field, headerField line = some field)
include fields

/-- Fields start with no line break, and the empty line behind them is their first one. -/
theorem headBlock_ends {line field} (isField : headerField line = some field)
    : ¬ crlf <+: headBlock line lines ++ blankLine
      ∧ findSub blankLine (headBlock line lines ++ blankLine)
        = some (headBlock line lines).length := by
  have plain := headerField_plain isField
  constructor
  · obtain ⟨first, rest, rfl⟩ := exists_cons_of_ne_nil (headerField_nonempty isField)
    rintro ⟨behind, same⟩
    exact plain.no_carriageReturn (by rw [← (cons.inj same).1]; exact mem_cons_self)
  · rw [← encodeHead_eq]
    exact findSub_blankLine_head plain.no_carriageReturn fields

/-- The framer takes trailer fields up to the empty line behind them. -/
theorem trailerPart_encodeFields {start}
    (fits : start + (encodeFields lines).length ≤ maxHttpRequestSize)
    : TrailerPart start (encodeFields lines) := by
  cases lines with
  | nil => exact .none
  | cons line lines =>
    have all := fields
    rw [forall_mem_cons] at fields
    obtain ⟨⟨field, isField⟩, later⟩ := fields
    have plain := headerField_plain isField
    have trailers (other : Bytes) (member : other ∈ line :: lines)
        : isTrailerLine other = true := by
      obtain ⟨field, isField⟩ := all other member
      rw [isTrailerLine, isField, Option.isSome_some, Bool.or_true]
    have shape : encodeFields (line :: lines) = headBlock line lines ++ blankLine :=
      encodeHead_eq line lines
    rw [shape] at fits ⊢
    obtain ⟨other, ends⟩ := headBlock_ends later isField
    refine .fields other ends ?_ ?_
    · rw [trailersWellFormed, hasBareLineFeed_headBlock plain later,
        crlfLines_headBlock later plain]
      simp only [Bool.not_false, Bool.true_and, Bool.and_eq_true, all_eq_true]
      exact ⟨fun other member => trailers other (mem_of_mem_dropLast member),
        trailers _ (getLast_mem _)⟩
    · rw [length_append] at fits
      exact fits

/-- The parser splits trailer fields at line feeds and accepts each of them. -/
theorem chunkTrailersAreWellFormed_headBlock {line field} (isField : headerField line = some field)
    : Http.chunkTrailersAreWellFormed (headBlock line lines) = .ok () := by
  have plain := headerField_plain isField
  have clean := hasBareLineFeed_headBlock plain fields
  rw [Http.chunkTrailersAreWellFormed, clean, if_neg Bool.false_ne_true, if_pos]
  clear clean
  induction lines generalizing line field with
  | nil =>
    rw [headBlock, flatMap_nil, append_nil, splitOn_plain plain]
    simp [isChunkTrailerLine_field isField]
  | cons next lines ih =>
    rw [forall_mem_cons] at fields
    obtain ⟨⟨nextField, isNext⟩, later⟩ := fields
    have regroup : headBlock line (next :: lines) = line ++ crlf ++ headBlock next lines := by
      simp [headBlock]
    rw [regroup, splitOn_line plain, all_cons, (isChunkTrailerLine_field isField).2,
      Bool.or_true, Bool.true_and]
    exact ih later isNext (headerField_plain isNext)

theorem lastChunkStep_encodeFields (front : Bytes)
    : lastChunkStep (front ++ encodeFields lines) front.length
      = .ok (some (.last (front.length + (encodeFields lines).length))) := by
  have clean := hasInvalidHttpLineEnding_encodeFields fields
  rw [lastChunkStep, getFrom_front]
  cases lines with
  | nil => rfl
  | cons line lines =>
    rw [forall_mem_cons] at fields
    obtain ⟨⟨field, isField⟩, later⟩ := fields
    have shape : encodeFields (line :: lines) = headBlock line lines ++ blankLine :=
      encodeHead_eq line lines
    obtain ⟨other, ends⟩ := headBlock_ends later isField
    rw [shape] at clean ⊢
    have notEmpty : crlf.isPrefixOf (headBlock line lines ++ blankLine) = false := by
      rwa [← Bool.not_eq_true, isPrefixOf_iff_prefix]
    simp only [notEmpty, clean, ends, take_left,
      chunkTrailersAreWellFormed_headBlock later isField, Bool.false_eq_true, if_false]
    rw [length_append, Nat.add_assoc]
    rfl

end Fields

/-! The body. -/

theorem encodeBody_cons (chunk : Chunk) (chunks : List Chunk) (lastLine : Bytes)
    (trailers : List Bytes)
    : encodeBody (chunk :: chunks) lastLine trailers
      = encodeChunk chunk.line chunk.data ++ encodeBody chunks lastLine trailers := by
  simp [encodeBody]

section Body

variable {chunks : List Chunk} {lastLine : Bytes} {trailers : List Bytes}
  (final : SizeLine lastLine 0)
  (fields : ∀ line ∈ trailers, ∃ field, headerField line = some field)
include final fields

/-- A written body is a chunked message, by induction on its chunks. -/
theorem chunkedMessage_encodeBody {start}
    (fits : start + (encodeBody chunks lastLine trailers).length ≤ maxHttpRequestSize)
    : ChunkedMessage start (encodeBody chunks lastLine trailers) (chunks.map Chunk.data) := by
  induction chunks generalizing start with
  | nil =>
    refine .last final.chunkLine (trailerPart_encodeFields fields ?_)
    simp only [encodeBody, flatMap_nil, nil_append, length_append, crlf,
      length_cons, length_nil] at fits
    omega
  | cons chunk chunks ih =>
    rw [encodeBody_cons, length_append] at fits
    rw [encodeBody_cons]
    exact .chunk chunk.sized.chunkLine chunk.nonempty (by omega) (ih (by omega))

/-- The parser decodes a written body to the data of its chunks. -/
theorem decodeChunks_encodeBody {front} (body : Bytes)
    (fits : (front ++ encodeBody chunks lastLine trailers).length ≤ maxHttpRequestSize)
    : decodeChunks (front ++ encodeBody chunks lastLine trailers) front.length body
      = .ok (some ((front ++ encodeBody chunks lastLine trailers).length,
          body ++ (chunks.map Chunk.data).flatten)) := by
  induction chunks generalizing front body with
  | nil =>
    have ended := lastChunkStep_encodeFields fields (front ++ lastLine ++ crlf)
    have split
        : front ++ encodeBody [] lastLine trailers
          = front ++ (lastLine ++ crlf ++ encodeFields trailers) := rfl
    have grouped
        : front ++ (lastLine ++ crlf ++ encodeFields trailers)
          = (front ++ lastLine ++ crlf) ++ encodeFields trailers := by
      simp
    rw [decodeChunks_eq, split, chunkStep_line final.chunkLine, if_pos rfl, grouped,
      ← length_chunkHead, ended, ← length_append]
    simp
  | cons chunk chunks ih =>
    rw [encodeBody_cons] at fits ⊢
    rw [decodeChunks_chunk chunk.sized.chunkLine chunk.nonempty (by
      simp only [length_append] at fits ⊢
      omega)]
    rw [← append_assoc] at fits
    rw [ih (body ++ chunk.data) fits]
    simp

end Body

/-! Whole requests. -/

theorem hasConflictingContentLength_none {headers}
    (unsized : hasHeader headers (ascii "Content-Length") = false)
    : hasConflictingContentLength headers = false := by
  have absent : headerValues headers (ascii "Content-Length") = [] := by
    rw [headerValues, map_eq_nil_iff, filter_eq_nil_iff]
    exact any_eq_false.mp unsized
  rw [hasConflictingContentLength, absent]
  rfl

theorem ChunkedHead.accepted {head} (valid : ChunkedHead head) : HttpHead head .chunked := by
  cases valid with
  | parsed accepted => exact accepted

/-- The parser reads a request behind a valid head from what its body decodes to.
Witness: the framer's view of the head gives the lines of the block.
-/
theorem ChunkedHead.parse {head payload body} (valid : ChunkedHead head)
    (fits : (head ++ payload).length ≤ maxTotalSize)
    (decoded : decodeChunkedBody payload = .ok (some (payload.length, body)))
    (within : body.length ≤ payload.length)
    : ∃ request, parseHttpRequestBytes (head ++ payload) = .ok (some request)
        ∧ request.body = body := by
  cases valid with
  | @parsed block method target headers accepted request host coding =>
    generalize isHead : block ++ blankLine = head at accepted fits ⊢
    cases accepted with
    | @lines requestLine lines collectedFields _ plain valid collected asks small =>
      rw [encodeHead_eq] at isHead
      obtain rfl := append_cancel_right isHead
      have fields := BodyFields.addLines_fields collected
      have announced := announces_of_framing collected asks
      rw [← parseHeaderBlock_headers plain fields request] at announced
      obtain ⟨coded, unsized⟩ := announced
      obtain ⟨ends, found, bodyStart⟩ := headBlock_found plain fields payload
      have consistent := hasConflictingContentLength_none unsized
      have behind : getFrom (encodeHead requestLine lines ++ payload)
          (encodeHead requestLine lines).length = some payload := getFrom_front _ _
      have notTooLong := Nat.not_lt.mpr fits
      have notTooWide : ¬ (headBlock requestLine lines).length > maxHeaderSize :=
        Nat.not_lt.mpr small
      rw [length_append] at fits
      have room : ¬ payload.length > maxTotalSize - (encodeHead requestLine lines).length := by
        omega
      have bodyRoom : ¬ body.length > maxTotalSize - (encodeHead requestLine lines).length := by
        omega
      refine ⟨⟨method, target, normalizeRequestTarget target, ascii "HTTP/1.1", headers, body⟩,
        ?_, rfl⟩
      rw [parseHttpRequestBytes, if_neg notTooLong]
      simp [ends, notTooWide, found, request, host, consistent, bodyStart, requestBody, coded,
        unsized, coding, behind, decoded, room, bodyRoom]

/-- A chunked request is framed with its own length, whatever follows, and its parsed body
is the data of its chunks.
-/
theorem chunked_request_round_trip {head : Bytes} (valid : ChunkedHead head) (chunks : List Chunk)
    {lastLine : Bytes} (final : SizeLine lastLine 0) {trailers : List Bytes}
    (fields : ∀ line ∈ trailers, ∃ field, headerField line = some field)
    (fits : (head ++ encodeBody chunks lastLine trailers).length ≤ maxHttpRequestSize)
    (behind : Bytes)
    : extractHttpRequest (head ++ (encodeBody chunks lastLine trailers ++ behind))
        = .done (.complete (head ++ encodeBody chunks lastLine trailers), behind)
      ∧ ∃ request,
          parseHttpRequestBytes (head ++ encodeBody chunks lastLine trailers) = .ok (some request)
          ∧ request.body = (chunks.map Chunk.data).flatten := by
  have room := fits
  rw [List.length_append] at room
  have message := chunkedMessage_encodeBody final fields room
  have decoded := decodeChunks_encodeBody final fields []
    (show ([] ++ encodeBody chunks lastLine trailers).length ≤ maxHttpRequestSize by
      rw [List.nil_append]
      omega)
  rw [List.nil_append, List.nil_append] at decoded
  exact ⟨extractHttpRequest_chunked valid.accepted message behind,
    valid.parse fits decoded message.length_flatten_le⟩

theorem chunkedHead_valid : ChunkedHead chunkedHead := by
  have request
      : parseHeaderBlock (ascii "POST / HTTP/1.1\r\nHost: a\r\nTransfer-Encoding: chunked")
        = .ok ((ascii "POST", ascii "/", ascii "HTTP/1.1"),
            [(ascii "Host", ascii "a"), (ascii "Transfer-Encoding", ascii "chunked")]) := by
    decide +kernel
  have accepted := chunkedHead_accepted
  rw [chunkedHead, encodeHead_eq] at accepted ⊢
  exact .parsed accepted request (by decide +kernel) (by decide +kernel)

/-- Three bytes behind a line with an extension, and a trailer field. -/
theorem chunked_request_round_trip_extended
    : extractHttpRequest
          (chunkedHead ++ (ascii "3;a=\"b\"\r\n0\r\n\r\n0\r\nX: y\r\n\r\n" ++ ascii "GET"))
        = .done (.complete (chunkedHead ++ ascii "3;a=\"b\"\r\n0\r\n\r\n0\r\nX: y\r\n\r\n"),
              ascii "GET")
      ∧ ∃ request, parseHttpRequestBytes
              (chunkedHead ++ ascii "3;a=\"b\"\r\n0\r\n\r\n0\r\nX: y\r\n\r\n")
            = .ok (some request)
          ∧ request.body = ascii "0\r\n" := by
  have first : SizeLine (ascii "3;a=\"b\"") 3 :=
    ⟨by decide +kernel, parseHttpChunkSize_sound (by decide +kernel)⟩
  have last : SizeLine (ascii "0") 0 :=
    ⟨by decide +kernel, parseHttpChunkSize_sound (by decide +kernel)⟩
  have field : ∀ line ∈ [ascii "X: y"], ∃ field, headerField line = some field := by
    intro line member
    rw [List.mem_singleton.mp member]
    exact ⟨(ascii "X", ascii " y"), by decide +kernel⟩
  have written
      : encodeBody [⟨ascii "3;a=\"b\"", ascii "0\r\n", by decide, first⟩] (ascii "0") [ascii "X: y"]
        = ascii "3;a=\"b\"\r\n0\r\n\r\n0\r\nX: y\r\n\r\n" := by
    rfl
  have small
      : (chunkedHead ++ ascii "3;a=\"b\"\r\n0\r\n\r\n0\r\nX: y\r\n\r\n").length
        ≤ maxHttpRequestSize := by
    decide +kernel
  rw [← written] at small
  obtain ⟨framed, request, parsed, body⟩ :=
    chunked_request_round_trip chunkedHead_valid _ last field small (ascii "GET")
  rw [written] at framed parsed
  exact ⟨framed, request, parsed, body⟩

/-- A head that names a loopback address as its host. -/
def loopbackHead : Bytes :=
  encodeHead (ascii "POST / HTTP/1.1") [ascii "Host: 127.0.0.1", ascii "Transfer-Encoding: chunked"]

theorem loopbackHead_accepted : HttpHead loopbackHead .chunked := by
  have collected
      : (⟨[], none⟩ : BodyFields).addLines
          [ascii "Host: 127.0.0.1", ascii "Transfer-Encoding: chunked"]
        = some ⟨[ascii "chunked"], none⟩ := by
    decide +kernel
  refine .lines ?_ (by decide +kernel) collected (by decide +kernel) (by decide +kernel)
  unfold IsPlain
  decide +kernel

/-- Requests that HTTP's grammar allows and that are refused: the framer takes no tab in a quoted
string, and the parser no loopback address as a host. -/
theorem chunked_request_refused
    : (ChunkSizeLine isQdtext (ascii "0;a=\"\t\"") 0
        ∧ extractHttpRequest (chunkedHead ++ ascii "0;a=\"\t\"\r\n\r\n")
          = .done (.invalid (some badRequest), []))
      ∧ extractHttpRequest (loopbackHead ++ ascii "0\r\n\r\n")
          = .done (.complete (loopbackHead ++ ascii "0\r\n\r\n"), [])
      ∧ parseHttpRequestBytes (loopbackHead ++ ascii "0\r\n\r\n")
          = .error (.message "Invalid or missing HTTP Host header") := by
  have ends : findSub crlf (ascii "0;a=\"\t\"\r\n\r\n") = some 7 := by decide +kernel
  have unsized : chunkLineSize ((ascii "0;a=\"\t\"\r\n\r\n").take 7) = none := by decide +kernel
  have scanned
      : scanChunks chunkedHead.length (ascii "0;a=\"\t\"\r\n\r\n") = .error .invalid := by
    rw [scanChunks, ends]
    dsimp only
    rw [unsized]
  refine ⟨⟨chunkSizeLine_tab, ?_⟩, ?_, ?_⟩
  · rw [extractHttpRequest_refines, follow, chunkedHead_accepted.decision, httpBodyDecision,
      List.drop_left, scanned]
    rfl
  · exact extractHttpRequest_chunked loopbackHead_accepted (.last (chunkLine_blanks 0) .none) []
  · decide +kernel

end NetTrap.TcpFraming
