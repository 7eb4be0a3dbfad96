import NetTrap.Http.Parser
import NetTrap.TcpFraming.ChunkedBodies
import NetTrap.TcpFraming.HttpHeads

/-! The HTTP framer and the HTTP parser agree on where a message ends.
Both read one grammar: the framer cuts out a head and the body that the head asks for,
and the parser, run on that frame, has no byte too few or too many.
-/

namespace NetTrap.TcpFraming

open Access Framing Search Rust Http BodyFields List

/-- The header that the parser makes of a field line. -/
def parsedField (line : Bytes) : Option (Str × Str) :=
  (headerField line).map fun (name, value) => (name, latin1ToString (trimSpaceTab value))

variable {value : Bytes}

variable {name : Bytes}

/-- Inversion of the framer's field check. -/
theorem headerField_eq {line} (isField : headerField line = some (name, value))
    : ∃ colon, line.findIdx? (· == 58) = some colon ∧ name = line.take colon
        ∧ value = line.drop (colon + 1) := by
  simp only [headerField] at isField
  split at isField
  · cases isField
  rename_i colon found
  split at isField
  · cases isField
  simp only [Option.some.injEq, Prod.mk.injEq] at isField
  exact ⟨colon, found, isField.1.symm, isField.2.symm⟩

theorem parseHeaderLine_ok {line field header} (isField : headerField line = some field)
    (parsed : parseHeaderLine line = .ok header)
    : parsedField line = some header := by
  rcases field with ⟨name, value⟩
  obtain ⟨colon, found, rfl, rfl⟩ := headerField_eq isField
  rw [parsedField, isField]
  revert parsed
  fun_cases parseHeaderLine line with
  | case6 _ at' value key decoded =>
    rintro ⟨⟩
    cases found.symm.trans at'
    rw [Option.map_some, fromUtf8_eq decoded]
  | _ => nofun

theorem splitOn_line {line} (plain : IsPlain line) (rest : Bytes)
    : (line ++ crlf ++ rest).splitOn 10 = (line ++ [13]) :: rest.splitOn 10 := by
  have regroup : line ++ crlf ++ rest = (line ++ [13]) ++ 10 :: rest := by simp [crlf]
  rw [regroup, splitOn, splitOnP_append_cons_of_forall_mem]
  · rfl
  · intro byte member
    rcases mem_append.mp member with inside | last
    · simpa using (plain byte inside).1
    · rw [mem_singleton.mp last]
      decide
  · rfl

theorem splitOn_plain {line} (plain : IsPlain line) : line.splitOn 10 = [line] := by
  rw [splitOn, splitOnP_eq_singleton]
  intro byte member
  simpa using (plain byte member).1

theorem stripSuffix_snoc (line : Bytes) : stripSuffix 13 (line ++ [13]) = some line := by
  simp [stripSuffix]

theorem stripSuffix_plain {line} (plain : IsPlain line) : stripSuffix 13 line = none := by
  rw [stripSuffix, if_neg]
  intro last
  exact plain.no_carriageReturn (mem_of_getLast? last)

variable {lines : List Bytes} {headers : List (Str × Str)}

/-- The lines that the parser splits at line feeds are the field lines. -/
theorem parseHeaderLines_headBlock {line}
    (fields : ∀ field ∈ line :: lines, ∃ parts, headerField field = some parts)
    (parsed : parseHeaderLines ((headBlock line lines).splitOn 10) = .ok headers)
    : headers = (line :: lines).filterMap parsedField := by
  induction lines generalizing line headers with
  | nil =>
    obtain ⟨parts, isField⟩ := fields line mem_cons_self
    have plain := headerField_plain isField
    have nonempty : line.isEmpty = false := by simpa using headerField_nonempty isField
    simp only [headBlock, flatMap_nil, append_nil, splitOn_plain plain,
      parseHeaderLines, nonempty, stripSuffix_plain plain, Option.getD_none,
      Bool.false_eq_true, if_false] at parsed
    split at parsed
    · cases parsed
    rename_i header accepted
    cases parsed
    rw [filterMap_cons_some (parseHeaderLine_ok isField accepted), filterMap_nil]
  | cons next lines ih =>
    obtain ⟨parts, isField⟩ := fields line mem_cons_self
    have plain := headerField_plain isField
    have nonempty : (line ++ [13]).isEmpty = false := by simp
    have regroup : headBlock line (next :: lines) = line ++ crlf ++ headBlock next lines := by
      simp [headBlock]
    rw [regroup, splitOn_line plain] at parsed
    simp only [parseHeaderLines, nonempty, stripSuffix_snoc, Option.getD_some,
      Bool.false_eq_true, if_false] at parsed
    split at parsed
    · cases parsed
    rename_i header accepted
    cases later : parseHeaderLines ((headBlock next lines).splitOn 10) with
    | error error =>
      rw [later] at parsed
      cases parsed
    | ok others =>
      rw [later] at parsed
      cases parsed
      rw [filterMap_cons_some (parseHeaderLine_ok isField accepted)]
      congr 1
      exact ih (fun field member => fields field (mem_cons_of_mem _ member)) later

theorem transferCodings_nonempty {codings} (listed : transferCodings value = some codings)
    : codings ≠ [] := by
  rintro rfl
  rw [transferCodings, splitOn] at listed
  cases pieces : value.splitOnP (· == 44) with
  | nil => exact splitOnP_ne_nil _ _ pieces
  | cons first others =>
    rw [pieces] at listed
    simp [mapM_cons, Option.bind_eq_some_iff] at listed

theorem not_isContentLength (coding : isTransferEncoding name = true)
    : isContentLength name = false := by
  simp only [isTransferEncoding, isContentLength, eqIgnoreAsciiCase, beq_iff_eq] at coding ⊢
  rw [coding]
  decide

variable {fields : BodyFields}

/-- What one field line adds: codings, a length, or nothing. -/
theorem BodyFields.add_cases {next} (added : fields.add name value = some next)
    : (isTransferEncoding name = true
        ∧ ∃ codings ≠ [], next = { fields with codings := fields.codings ++ codings })
      ∨ (isTransferEncoding name = false ∧ isContentLength name = true ∧ ∃ length,
              parseHttpContentLength (trimSpaceTab value) = some length
              ∧ next = { fields with contentLength := some length }
              ∧ (fields.contentLength = none ∨ fields.contentLength = some length))
      ∨ (isTransferEncoding name = false ∧ isContentLength name = false ∧ next = fields) := by
  simp only [add] at added
  split at added
  · rename_i coding
    obtain ⟨codings, listed, rfl⟩ := Option.map_eq_some_iff.mp added
    exact .inl ⟨coding, codings, transferCodings_nonempty listed, rfl⟩
  rename_i other
  rw [Bool.not_eq_true] at other
  split at added
  · rename_i sized
    split at added
    · cases added
    rename_i length parsed
    obtain ⟨text, decoded, parsed⟩ := Option.bind_eq_some_iff.mp parsed
    rw [fromUtf8_eq decoded] at parsed
    rcases fields with ⟨codings, _ | previous⟩
    · cases added
      exact .inr (.inl ⟨other, sized, length, parsed, rfl, .inl rfl⟩)
    · simp only at added
      split at added
      · cases added
      rename_i agrees
      simp only [bne_iff_ne, not_not] at agrees
      cases added
      subst agrees
      exact .inr (.inl ⟨other, sized, previous, parsed, rfl, .inr rfl⟩)
  · rename_i unsized
    cases added
    exact .inr (.inr ⟨other, Bool.not_eq_true _ ▸ unsized, rfl⟩)

theorem parsedField_eq {line} (isField : headerField line = some (name, value))
    : parsedField line = some (name, latin1ToString (trimSpaceTab value)) := by
  rw [parsedField, isField, Option.map_some]

theorem hasHeader_cons (name value : Str) (headers : List (Str × Str)) (wanted : Str)
    : hasHeader ((name, value) :: headers) wanted
      = (eqIgnoreAsciiCase name wanted || hasHeader headers wanted) :=
  rfl

variable {out : BodyFields}

/-- Codings come from `Transfer-Encoding` lines, and every such line has some. -/
theorem addLines_codings (collected : fields.addLines lines = some out)
    : out.codings = [] ↔ fields.codings = []
        ∧ hasHeader (lines.filterMap parsedField) (ascii "Transfer-Encoding") = false := by
  induction lines generalizing fields with
  | nil =>
    cases collected
    simp [hasHeader]
  | cons line lines ih =>
    obtain ⟨name, value, next, isField, added, later⟩ := addLines_cons collected
    rw [ih later, filterMap_cons_some (parsedField_eq isField), hasHeader_cons,
      ← isTransferEncoding]
    rcases add_cases added with
      ⟨coding, codings, filled, rfl⟩ | ⟨other, -, length, -, rfl, -⟩ | ⟨other, -, rfl⟩
    · simp [coding, filled]
    · simp [other]
    · simp [other]

/-- No length was collected exactly if no `Content-Length` line was read. -/
theorem addLines_contentLength_none (collected : fields.addLines lines = some out)
    : out.contentLength = none ↔ fields.contentLength = none
        ∧ hasHeader (lines.filterMap parsedField) (ascii "Content-Length") = false := by
  induction lines generalizing fields with
  | nil =>
    cases collected
    simp [hasHeader]
  | cons line lines ih =>
    obtain ⟨name, value, next, isField, added, later⟩ := addLines_cons collected
    rw [ih later, filterMap_cons_some (parsedField_eq isField), hasHeader_cons, ← isContentLength]
    rcases add_cases added with
      ⟨coding, codings, -, rfl⟩ | ⟨-, sized, length, -, rfl, -⟩ | ⟨-, unsized, rfl⟩
    · simp [not_isContentLength coding]
    · simp [sized]
    · simp [unsized]

theorem mem_or_blank_of_trim {text byte} (member : byte ∈ text)
    : isSpaceTab byte = true ∨ byte ∈ trimSpaceTab text := by
  rw [← takeWhile_append_dropWhile (p := isSpaceTab) (l := text)] at member
  rcases mem_append.mp member with blank | inside
  · exact .inl (mem_takeWhile_imp blank)
  rw [← mem_reverse, ← takeWhile_append_dropWhile (p := isSpaceTab)
    (l := (text.dropWhile isSpaceTab).reverse)] at inside
  rcases mem_append.mp inside with blank | inner
  · exact .inl (mem_takeWhile_imp blank)
  · exact .inr (by rwa [trimSpaceTab, mem_reverse])

theorem latin1ToString_ascii {text} (small : ∀ byte ∈ text, byte < 0x80)
    : latin1ToString text = text := by
  induction text with
  | nil => rfl
  | cons byte text ih =>
    rw [latin1ToString, flatMap_cons, if_pos (small byte mem_cons_self),
      ← latin1ToString, ih fun other member => small other (mem_cons_of_mem _ member)]
    rfl

/-- A length reads the same before and after the parser has turned it into text. -/
theorem parseHttpContentLength_latin1 {length} (parsed : parseHttpContentLength value = some length)
    : parseHttpContentLength (latin1ToString value) = some length := by
  rw [latin1ToString_ascii, parsed]
  intro byte member
  simp only [parseHttpContentLength, Http.parseHttpContentLength] at parsed
  split at parsed
  · cases parsed
  rename_i digits
  simp only [Bool.or_eq_true, Bool.not_eq_true', not_or, Bool.not_eq_false, all_eq_true] at digits
  rcases mem_or_blank_of_trim member with blank | inner
  · simp only [isSpaceTab, Bool.or_eq_true, beq_iff_eq] at blank
    rcases blank with rfl | rfl <;> decide
  · have digit := digits.2 byte inner
    simp only [isAsciiDigit, Bool.and_eq_true, decide_eq_true_eq] at digit
    exact UInt8.lt_of_le_of_lt digit.2 (by decide)

/-- A collected length is the one that every `Content-Length` line gives. -/
theorem addLines_contentLength_some {length} (collected : fields.addLines lines = some out)
    (asked : out.contentLength = some length)
    : (fields.contentLength = none ∨ fields.contentLength = some length)
      ∧ ∀ value ∈ headerValues (lines.filterMap parsedField) (ascii "Content-Length"),
          parseHttpContentLength value = some length := by
  induction lines generalizing fields with
  | nil =>
    cases collected
    exact ⟨.inr asked, by simp [headerValues]⟩
  | cons line lines ih =>
    obtain ⟨name, value, next, isField, added, later⟩ := addLines_cons collected
    obtain ⟨before, values⟩ := ih later
    rw [filterMap_cons_some (parsedField_eq isField)]
    rcases add_cases added with
      ⟨coding, codings, -, rfl⟩ | ⟨-, sized, own, parsed, rfl, known⟩ | ⟨-, unsized, rfl⟩
    · have unsized := not_isContentLength coding
      rw [isContentLength] at unsized
      exact ⟨before, by simpa [headerValues, unsized] using values⟩
    · rw [isContentLength] at sized
      have same : own = length := by simpa using before
      subst same
      refine ⟨known, ?_⟩
      simp only [headerValues, filter_cons, sized, if_true, map_cons, mem_cons]
      rintro found (rfl | member)
      · exact parseHttpContentLength_latin1 parsed
      · exact values found member
    · rw [isContentLength] at unsized
      exact ⟨before, by simpa [headerValues, unsized] using values⟩

section Decoding

variable {front line rest : Bytes}

theorem getFrom_front (front rest : Bytes) : getFrom (front ++ rest) front.length = some rest := by
  rw [getFrom, if_pos (by rw [length_append]; omega), drop_left]

theorem getRange_front (front middle rest : Bytes)
    : getRange (front ++ (middle ++ rest)) front.length (front.length + middle.length)
      = some middle := by
  rw [getRange, if_pos (by simp only [length_append]; omega), drop_take,
    drop_left, Nat.add_sub_cancel_left, take_left]

/-- The parser reads a chunk line as the framer does. -/
theorem chunkStep_line {size} (header : ChunkLine line size)
    : chunkStep (front ++ (line ++ crlf ++ rest)) front.length = if size = 0 then
          lastChunkStep (front ++ (line ++ crlf ++ rest)) (front.length + line.length + 2)
        else
          dataChunkStep (front ++ (line ++ crlf ++ rest)) (front.length + line.length + 2)
            size := by
  have announces := header.announces
  rw [chunkLineSize] at announces
  have text := getRange_front front line (crlf ++ rest)
  rw [← append_assoc line] at text
  rw [chunkStep, getFrom_front]
  simp only [header.findSub_eq rest, text, announces]

/-- Behind the last chunk the parser refuses the trailers or reaches the end. -/
theorem TrailerPart.lastStep {start trailer} (part : TrailerPart start trailer) (front : Bytes)
    : (∃ error, lastChunkStep (front ++ trailer) front.length = .error error)
      ∨ lastChunkStep (front ++ trailer) front.length
          = .ok (some (.last (front.length + trailer.length))) := by
  rw [lastChunkStep, getFrom_front]
  cases part with
  | none => exact .inr rfl
  | @fields block other ends wellFormed fits =>
    have notEmpty : crlf.isPrefixOf (block ++ blankLine) = false := by
      rw [← Bool.not_eq_true, isPrefixOf_iff_prefix]
      exact other
    simp only [notEmpty, Bool.false_eq_true, if_false, ends]
    split
    · exact .inl ⟨_, rfl⟩
    split
    · exact .inl ⟨_, rfl⟩
    · refine .inr ?_
      rw [length_append, ← Nat.add_assoc]
      rfl

theorem dataChunkStep_data {data} (fits : front.length + data.length + 2 ≤ usizeMax)
    : dataChunkStep (front ++ (data ++ crlf ++ rest)) front.length data.length
      = .ok (some (.chunk data (front.length + data.length + 2))) := by
  have chunk := getRange_front front data (crlf ++ rest)
  rw [← append_assoc data] at chunk
  have terminator := getRange_front (front ++ data) crlf rest
  rw [append_assoc front, ← append_assoc data, length_append] at terminator
  rw [dataChunkStep, checkedAdd_of_le (by omega)]
  simp only
  rw [checkedAdd_of_le fits]
  simp only [chunk]
  rw [show crlf.length = 2 from rfl] at terminator
  rw [terminator]
  rfl

theorem decodeChunks_eq (data : Bytes) (pos : Nat) (body : Bytes)
    : decodeChunks data pos body = match chunkStep data pos with
        | .error error => .error error
        | .ok none => .ok none
        | .ok (some (.last consumed)) => .ok (some (consumed, body))
        | .ok (some (.chunk chunk next)) => decodeChunks data next (body ++ chunk) := by
  rw [decodeChunks]
  split <;> simp_all

theorem length_chunkHead (front line : Bytes)
    : (front ++ line ++ crlf).length = front.length + line.length + 2 := by
  simp only [length_append, crlf, length_cons, length_nil]

/-- One turn of the decoder reads a chunk. -/
theorem decodeChunks_chunk {data} (header : ChunkLine line data.length) (nonempty : data ≠ [])
    (fits : front.length + (encodeChunk line data).length ≤ maxHttpRequestSize) (body : Bytes)
    : decodeChunks (front ++ (encodeChunk line data ++ rest)) front.length body
      = decodeChunks ((front ++ encodeChunk line data) ++ rest)
          (front ++ encodeChunk line data).length (body ++ data) := by
  have nonzero : data.length ≠ 0 := by simpa using nonempty
  have size := length_encodeChunk line data
  have split
      : front ++ (encodeChunk line data ++ rest)
        = (front ++ line ++ crlf) ++ (data ++ crlf ++ rest) := by
    simp [encodeChunk]
  have grouped
      : front ++ (encodeChunk line data ++ rest)
        = front ++ (line ++ crlf ++ (data ++ crlf ++ rest)) := by
    simp [encodeChunk]
  have length := length_chunkHead front line
  have room : (front ++ line ++ crlf).length + data.length + 2 ≤ usizeMax := by
    simp only [maxHttpRequestSize] at fits
    simp only [usizeMax]
    omega
  have stepped
      : chunkStep (front ++ (encodeChunk line data ++ rest)) front.length
        = .ok (some (.chunk data (front ++ encodeChunk line data).length)) := by
    rw [grouped, chunkStep_line header, if_neg nonzero, ← grouped, split, ← length,
      dataChunkStep_data room, length, length_append, size]
    congr 3
    omega
  rw [decodeChunks_eq, stepped, append_assoc]

/-- Decoding a message gives the data of its chunks and ends where it ends.
Witness: induction along the chunks, with the decoded ones in front.
-/
theorem ChunkedMessage.decode {start message chunks}
    (isMessage : ChunkedMessage start message chunks) {front} (within : front.length ≤ start)
    (body : Bytes)
    : (∃ error, decodeChunks (front ++ message) front.length body = .error error)
      ∨ decodeChunks (front ++ message) front.length body
          = .ok (some (front.length + message.length, body ++ chunks.flatten)) := by
  induction isMessage generalizing front body with
  | @last start line trailer final trailers =>
    have split : front ++ (line ++ crlf ++ trailer) = (front ++ line ++ crlf) ++ trailer := by
      simp
    have length := length_chunkHead front line
    rw [decodeChunks_eq, chunkStep_line final, if_pos rfl, split, ← length]
    rcases trailers.lastStep (front ++ line ++ crlf) with ⟨error, refused⟩ | ended
    · rw [refused]
      exact .inl ⟨error, rfl⟩
    · have total
          : (front ++ line ++ crlf).length + trailer.length
            = front.length + (line ++ crlf ++ trailer).length := by
        simp
        omega
      rw [ended, total]
      exact .inr (by simp)
  | @chunk start line data rest chunks header nonempty fits later ih =>
    have shifted : (front ++ encodeChunk line data).length
        ≤ start + (encodeChunk line data).length := by
      simp
      omega
    rw [decodeChunks_chunk header nonempty (by omega)]
    rcases ih shifted (body ++ data) with refused | decoded
    · exact .inl refused
    · refine .inr ?_
      rw [decoded]
      simp only [length_append, flatten_cons, append_assoc, Nat.add_assoc]

theorem ChunkedMessage.length_flatten_le {start message chunks}
    (isMessage : ChunkedMessage start message chunks)
    : chunks.flatten.length ≤ message.length := by
  induction isMessage with
  | last final trailers => simp
  | @chunk start line data rest chunks header nonempty fits later ih =>
    have size := length_encodeChunk line data
    rw [flatten_cons, length_append, length_append]
    omega

end Decoding

variable {requestLine : Bytes}

/-- The lines behind the request line of a block are its field lines. -/
theorem parseHeaderLines_block (plain : IsPlain requestLine)
    (fields : ∀ line ∈ lines, ∃ field, headerField line = some field)
    (parsed : parseHeaderLines (headerLines (headBlock requestLine lines)) = .ok headers)
    : headers = lines.filterMap parsedField := by
  cases lines with
  | nil =>
    have missing : findSub crlf requestLine = none := by
      rw [← append_nil requestLine, crlf, findSub_skip plain.no_carriageReturn]
      rfl
    simp only [headerLines, requestLineEnd, headBlock, flatMap_nil, append_nil,
      missing, Option.getD_none, if_true] at parsed
    cases parsed
    rfl
  | cons line lines =>
    have regroup
        : headBlock requestLine (line :: lines)
          = requestLine ++ ([13, 10] ++ headBlock line lines) := by
      simp [headBlock, crlf]
    have found
        : findSub crlf (requestLine ++ ([13, 10] ++ headBlock line lines))
          = some requestLine.length := by
      rw [crlf, findSub_skip plain.no_carriageReturn, findSub_self]
      simp
    have behind
        : (requestLine ++ ([13, 10] ++ headBlock line lines)).drop (requestLine.length + 2)
          = headBlock line lines := by
      rw [← drop_drop, drop_left]
      rfl
    have notAll
        : requestLine.length ≠ (requestLine ++ ([13, 10] ++ headBlock line lines)).length := by
      simp only [length_append, length_cons]
      omega
    rw [regroup, headerLines, requestLineEnd, found, Option.getD_some, if_neg notAll,
      behind] at parsed
    exact parseHeaderLines_headBlock fields parsed

/-- The headers of a parsed block are its field lines. -/
theorem parseHeaderBlock_headers {request} (plain : IsPlain requestLine)
    (fields : ∀ line ∈ lines, ∃ field, headerField line = some field)
    (parsed : parseHeaderBlock (headBlock requestLine lines) = .ok (request, headers))
    : headers = lines.filterMap parsedField := by
  simp only [parseHeaderBlock] at parsed
  split at parsed
  · cases parsed
  split at parsed
  · cases parsed
  split at parsed
  · cases parsed
  cases behind : parseHeaderLines (headerLines (headBlock requestLine lines)) with
  | error error =>
    rw [behind] at parsed
    cases parsed
  | ok others =>
    rw [behind] at parsed
    cases parsed
    exact parseHeaderLines_block plain fields behind

/-- The payload behind a head is what its framing asks for. -/
def FramedBody (start : Nat) (payload : Bytes) : HttpBodyFraming → Prop
  | .headersOnly => payload = []
  | .contentLength length => payload.length = length
  | .chunked => ∃ chunks, ChunkedMessage start payload chunks

/-- A frame is a head and the body that it asks for. -/
theorem extractHttpRequest_complete {buffer frame rest}
    (finished : extractHttpRequest buffer = .done (.complete frame, rest))
    : ∃ head framing payload, frame = head ++ payload ∧ HttpHead head framing
        ∧ FramedBody head.length payload framing := by
  have split := extractHttpRequest_refines.complete finished
  obtain ⟨length, asked, arrived, rfl, -⟩ := Decision.cut_frame split
  cases headView buffer with
  | unfinished missing =>
    rw [httpDecision_unfinished missing] at asked
    split at asked <;> cases asked
  | refused body ends bad =>
    obtain ⟨rejection, refused⟩ := httpDecision_refused ends bad body
    rw [refused] at asked
    cases asked
  | @accepted head framing body accepted =>
    rw [accepted.decision] at asked
    cases framing with
    | headersOnly =>
      cases asked
      exact ⟨head, _, [], by simp, accepted, rfl⟩
    | contentLength size =>
      have exactly := take_of_guard asked
      cases exactly
      refine ⟨head, _, body.take size, take_length_add_append size, accepted, ?_⟩
      rw [length_append] at arrived
      simp [FramedBody]
      omega
    | chunked =>
      rw [httpBodyDecision, drop_left] at asked
      cases scanned : scanChunks head.length body with
      | error error =>
        rw [scanned] at asked
        cases asked
      | ok ended =>
        rw [scanned] at asked
        cases ended with
        | none => cases asked
        | some total =>
          cases asked
          obtain ⟨message, behind, chunks, rfl, rfl, isMessage⟩ := scanChunks_complete scanned
          refine ⟨head, _, message, ?_, accepted, chunks, isMessage⟩
          rw [← append_assoc]
          exact take_left' (by rw [length_append])

/-- The body of a request is what its headers announce: as many bytes as `Content-Length`
says, the data of the chunks, or nothing.
-/
inductive BodyExplained (start : Nat) (headers : List (Str × Str)) (payload : Bytes)
    : Bytes → Prop where
  | sized {raw : Str} (uncoded : hasHeader headers (ascii "Transfer-Encoding") = false)
      (found : findHeaderValue headers (ascii "Content-Length") = some raw)
      (exactly : parseHttpContentLength raw = some payload.length)
      : BodyExplained start headers payload payload
  | chunked {chunks : List Bytes}
      (coded : hasHeader headers (ascii "Transfer-Encoding") = true)
      (unsized : hasHeader headers (ascii "Content-Length") = false)
      (message : ChunkedMessage start payload chunks)
      : BodyExplained start headers payload chunks.flatten
  | empty (uncoded : hasHeader headers (ascii "Transfer-Encoding") = false)
      (unsized : hasHeader headers (ascii "Content-Length") = false) (nothing : payload = [])
      : BodyExplained start headers payload []

/-- A request accounts for every byte of its frame: a request line, the lines of its
headers, an empty line, and its body as it was sent.
-/
inductive FrameExplained : Bytes → ParsedHttpRequest → Prop where
  | message {requestLine payload : Bytes} {lines : List Bytes} {request : ParsedHttpRequest}
      (plain : IsPlain requestLine)
      (fields : ∀ line ∈ lines, ∃ field, headerField line = some field)
      (headers : request.headers = lines.filterMap parsedField)
      (body
        : BodyExplained (encodeHead requestLine lines).length request.headers payload
            request.body)
      : FrameExplained (encodeHead requestLine lines ++ payload) request

theorem findHeaderValue_none_iff (headers : List (Str × Str)) (name : Str)
    : findHeaderValue headers name = none ↔ hasHeader headers name = false := by
  simp [findHeaderValue, hasHeader]

theorem mem_headerValues_of_find {name value} (found : findHeaderValue headers name = some value)
    : value ∈ headerValues headers name := by
  obtain ⟨header, first, rfl⟩ := Option.map_eq_some_iff.mp found
  have matching := find?_some first
  exact mem_map.mpr ⟨header, mem_filter.mpr ⟨mem_of_find?_eq_some first, matching⟩, rfl⟩

/-- The headers ask for a body with the given framing. -/
def Announces (headers : List (Str × Str)) : HttpBodyFraming → Prop
  | .headersOnly =>
    hasHeader headers (ascii "Transfer-Encoding") = false
    ∧ hasHeader headers (ascii "Content-Length") = false
  | .contentLength length =>
    hasHeader headers (ascii "Transfer-Encoding") = false
    ∧ hasHeader headers (ascii "Content-Length") = true
    ∧ ∀ value ∈ headerValues headers (ascii "Content-Length"),
        parseHttpContentLength value = some length
  | .chunked =>
    hasHeader headers (ascii "Transfer-Encoding") = true
    ∧ hasHeader headers (ascii "Content-Length") = false

/-- The framing that the framer collected is the one that the parsed headers ask for. -/
theorem announces_of_framing {framing}
    (collected : (⟨[], none⟩ : BodyFields).addLines lines = some fields)
    (asks : fields.framing = .ok framing)
    : Announces (lines.filterMap parsedField) framing := by
  have codings := addLines_codings collected
  have lengths := addLines_contentLength_none collected
  simp only [true_and] at codings lengths
  simp only [BodyFields.framing] at asks
  split at asks
  · rename_i coded
    have coded : fields.codings ≠ [] := by simpa using coded
    split at asks
    · cases asks
    rename_i unsized
    rw [Option.not_isSome_iff_eq_none] at unsized
    split at asks
    · cases asks
      exact ⟨by simpa using mt codings.mpr coded, lengths.mp unsized⟩
    · cases asks
  · rename_i uncoded
    have uncoded : fields.codings = [] := by simpa using uncoded
    cases known : fields.contentLength with
    | none =>
      rw [known] at asks
      cases asks
      exact ⟨codings.mp uncoded, lengths.mp known⟩
    | some length =>
      rw [known] at asks
      simp only at asks
      split at asks
      · cases asks
      · cases asks
        refine ⟨codings.mp uncoded, ?_, (addLines_contentLength_some collected known).2⟩
        rw [← Bool.not_eq_false, ← lengths, known]
        exact fun impossible => nomatch impossible

/-- On a frame of the framer the parser does not ask for more data, and a body it returns
is the one announced.
-/
theorem requestBody_framed {head payload framing} (framed : FramedBody head.length payload framing)
    (announced : Announces headers framing) (fits : (head ++ payload).length ≤ maxTotalSize)
    : (∃ error, requestBody (head ++ payload) head.length headers = .error error) ∨ ∃ body,
          requestBody (head ++ payload) head.length headers = .ok (some body)
          ∧ BodyExplained head.length headers payload body := by
  rw [length_append] at fits
  cases framing with
  | headersOnly =>
    obtain ⟨uncoded, unsized⟩ := announced
    have missing := (findHeaderValue_none_iff headers (ascii "Content-Length")).mpr unsized
    cases framed
    refine .inr ⟨[], ?_, .empty uncoded unsized rfl⟩
    simp [requestBody, uncoded, missing]
  | contentLength length =>
    obtain ⟨uncoded, sized, values⟩ := announced
    cases framed
    cases found : findHeaderValue headers (ascii "Content-Length") with
    | none =>
      rw [findHeaderValue_none_iff, sized] at found
      cases found
    | some raw =>
      have parsed := values raw (mem_headerValues_of_find found)
      have taken := getRange_front head payload []
      rw [append_nil] at taken
      refine .inr ⟨payload, ?_, .sized uncoded found parsed⟩
      have within : ¬ payload.length > maxTotalSize - head.length := by omega
      simp [requestBody, uncoded, found, parsed, taken, within]
  | chunked =>
    obtain ⟨coded, unsized⟩ := announced
    obtain ⟨chunks, message⟩ := framed
    simp only [requestBody, coded, unsized, if_true, Bool.false_eq_true, if_false, getFrom_front]
    split
    · exact .inl ⟨_, rfl⟩
    have short : chunks.flatten.length ≤ payload.length := message.length_flatten_le
    have nothing : ([] : Bytes).length ≤ head.length := Nat.zero_le _
    rcases message.decode nothing [] with ⟨error, refused⟩ | decoded
    · rw [nil_append, length_nil, ← decodeChunkedBody] at refused
      rw [refused]
      exact .inl ⟨error, rfl⟩
    · rw [nil_append, length_nil, Nat.zero_add, nil_append, ← decodeChunkedBody] at decoded
      rw [decoded]
      refine .inr ⟨chunks.flatten, ?_, .chunked coded unsized message⟩
      have consumed : payload.length ≤ maxTotalSize - head.length := by omega
      have within : chunks.flatten.length ≤ maxTotalSize - head.length := by omega
      simp [-length_flatten, consumed, within]

/-- The parser finds the block of an encoded head and the body behind it. -/
theorem headBlock_found (plain : IsPlain requestLine)
    (fields : ∀ line ∈ lines, ∃ field, headerField line = some field) (payload : Bytes)
    : findSub blankLine (encodeHead requestLine lines ++ payload)
        = some (headBlock requestLine lines).length
      ∧ getRange (encodeHead requestLine lines ++ payload) 0 (headBlock requestLine lines).length
          = some (headBlock requestLine lines)
      ∧ (headBlock requestLine lines).length + 4 = (encodeHead requestLine lines).length := by
  have ends :=
    findSub_append_of_some (by decide) (findSub_blankLine_head plain.no_carriageReturn fields)
      payload
  have taken := getRange_front [] (headBlock requestLine lines) (blankLine ++ payload)
  refine ⟨ends, ?_, ?_⟩
  · rw [encodeHead_eq]
    simpa using taken
  · rw [encodeHead_eq, length_append]
    rfl

/-- The parser, run on a frame that the framer cut out, never asks for more data, and a
request it returns accounts for the whole frame.
Witness: the frame is a head and the body it asks for; the parser finds the same head and
collects the same fields.
-/
theorem parseHttpRequestBytes_frame {buffer frame rest : Bytes}
    (finished : extractHttpRequest buffer = .done (.complete frame, rest))
    : parseHttpRequestBytes frame ≠ .ok none
      ∧ ∀ request, parseHttpRequestBytes frame = .ok (some request)
          → FrameExplained frame request := by
  obtain ⟨head, framing, payload, rfl, accepted, framed⟩ := extractHttpRequest_complete finished
  cases accepted with
  | @lines requestLine lines collectedFields _ plain request collected asks small =>
    have fields := BodyFields.addLines_fields collected
    obtain ⟨ends, block, bodyStart⟩ := headBlock_found plain fields payload
    rw [parseHttpRequestBytes]
    split
    · exact ⟨nofun, nofun⟩
    rename_i fits
    rw [ends]
    simp only
    split
    · exact ⟨nofun, nofun⟩
    rw [block]
    simp only
    split
    · exact ⟨nofun, nofun⟩
    rename_i method target version headers parsed
    have isHeaders := parseHeaderBlock_headers plain fields parsed
    split
    · exact ⟨nofun, nofun⟩
    split
    · exact ⟨nofun, nofun⟩
    have announced := announces_of_framing collected asks
    rw [← isHeaders] at announced
    rw [bodyStart]
    rcases requestBody_framed framed announced (by omega) with
      ⟨error, refused⟩ | ⟨body, returned, explained⟩
    · rw [refused]
      exact ⟨nofun, nofun⟩
    · rw [returned]
      refine ⟨nofun, fun request built => ?_⟩
      cases built
      exact .message plain fields isHeaders explained

/-- A request with two bytes of body, and the start of the next one behind it. -/
theorem parseHttpRequestBytes_frame_sized
    : extractHttpRequest (ascii "POST /a HTTP/1.0\r\nContent-Length: 2\r\n\r\nhiGET")
        = .done (.complete (ascii "POST /a HTTP/1.0\r\nContent-Length: 2\r\n\r\nhi"), ascii "GET")
      ∧ ∃ request, parseHttpRequestBytes (ascii "POST /a HTTP/1.0\r\nContent-Length: 2\r\n\r\nhi")
            = .ok (some request)
          ∧ request.body = ascii "hi"
          ∧ FrameExplained (ascii "POST /a HTTP/1.0\r\nContent-Length: 2\r\n\r\nhi") request := by
  have finished
      : extractHttpRequest (ascii "POST /a HTTP/1.0\r\nContent-Length: 2\r\n\r\nhiGET") = .done
            (.complete (ascii "POST /a HTTP/1.0\r\nContent-Length: 2\r\n\r\nhi"), ascii "GET") := by
    decide +kernel
  have parsed
      : parseHttpRequestBytes (ascii "POST /a HTTP/1.0\r\nContent-Length: 2\r\n\r\nhi")
        = .ok (some ⟨ascii "POST", ascii "/a", ascii "/a", ascii "HTTP/1.0",
            [(ascii "Content-Length", ascii "2")], ascii "hi"⟩) := by
    decide +kernel
  exact ⟨finished, _, parsed, rfl, (parseHttpRequestBytes_frame finished).2 _ parsed⟩

end NetTrap.TcpFraming
