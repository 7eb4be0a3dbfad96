import NetTrap.Http.Syntax
import NetTrap.TcpFraming.Delimited

/-! The HTTP request framer: header block, body framing and chunked bodies.
The scanning loops carry a budget of one turn for each byte; running out of it is a fault.
-/

namespace NetTrap.TcpFraming

open Access Framing Search Rust Http

inductive HttpBodyFraming where
  | headersOnly
  | contentLength (length : Nat)
  | chunked
  deriving DecidableEq, Repr

inductive HttpFrameError where
  | invalid
  | tooLarge
  deriving DecidableEq, Repr

def httpErrorResponse (statusCode : Nat) (reason : String) : Bytes :=
  let body := toString statusCode ++ " " ++ reason ++ "\r\n"
  ascii ("HTTP/1.1 " ++ toString statusCode ++ " " ++ reason
    ++ "\r\nConnection: close\r\nContent-Type: text/plain; charset=utf-8\r\nContent-Length: "
    ++ toString body.length ++ "\r\n\r\n" ++ body)

def headerFieldsTooLarge : Bytes := httpErrorResponse 431 "Request Header Fields Too Large"

def badRequest : Bytes := httpErrorResponse 400 "Bad Request"

def payloadTooLarge : Bytes := httpErrorResponse 413 "Payload Too Large"

/-! The header block. -/

def validHttpRequestLine (headersWithoutTerminator : Bytes) : Bool :=
  if hasBareLineFeed headersWithoutTerminator then false
  else
    let lineEnd :=
      (findSubslice headersWithoutTerminator crlf).getD headersWithoutTerminator.length
    let requestLine := headersWithoutTerminator.take lineEnd
    if requestLine.contains 13 then false
    else
      match requestLine.splitOn 32 with
      | [method, target, version] =>
        !method.isEmpty && method.all isHttpTokenByte && !target.isEmpty
          && target.all (fun byte => isAsciiGraphic byte && byte != 32)
          && (version == ascii "HTTP/1.0" || version == ascii "HTTP/1.1")
      | _ => false

def nextCrlfLine (bytes : Bytes) (start : Nat) : Exec (Option (Bytes × Nat)) := do
  let some relativeEnd := findSubslice (← sliceFrom bytes start) crlf | return none
  let lineEnd := start + relativeEnd
  return some (← slice bytes start lineEnd, lineEnd + 2)

/-- A field line splits at its colon into a token and a value of allowed bytes. -/
def headerField (line : Bytes) : Option (Bytes × Bytes) :=
  match line.findIdx? (· == 58) with
  | none => none
  | some colon =>
    let name := line.take colon
    let value := line.drop (colon + 1)
    if name.isEmpty || name != trimSpaceTab name || !name.all isHttpTokenByte
        || !value.all isHttpFieldValueByte then
      none
    else some (name, value)

def isTransferEncoding (name : Bytes) : Bool :=
  eqIgnoreAsciiCase name (ascii "Transfer-Encoding")

def isContentLength (name : Bytes) : Bool :=
  eqIgnoreAsciiCase name (ascii "Content-Length")

/-- The codings of one `Transfer-Encoding` value; none may be empty or ill-formed text. -/
def transferCodings (value : Bytes) : Option (List Str) :=
  (value.splitOn 44).mapM fun coding =>
    let coding := trimSpaceTab coding
    if coding.isEmpty then none else fromUtf8 coding

/-! The framer has its own copies of two functions of the parser. -/

abbrev parseHttpContentLength := Http.parseHttpContentLength
abbrev parseHttpChunkSize := Http.parseHttpChunkSize

/-- What the field lines have said about the body so far. -/
structure BodyFields where
  codings : List Str
  contentLength : Option Nat
  deriving DecidableEq, Repr

/-- The effect of one field line on what is known about the body. -/
def BodyFields.add (fields : BodyFields) (name value : Bytes) : Option BodyFields :=
  if isTransferEncoding name then
    (transferCodings value).map fun codings =>
      { fields with codings := fields.codings ++ codings }
  else if isContentLength name then
    match (fromUtf8 (trimSpaceTab value)).bind parseHttpContentLength with
    | none => none
    | some length =>
      match fields.contentLength with
      | some previous => if previous != length then none else some fields
      | none => some { fields with contentLength := some length }
  else some fields

/-- The field-line loop of `httpBodyFraming`. -/
def fieldLoop (headers : Bytes) : (budget pos : Nat) → BodyFields → Exec (Option BodyFields)
  | 0, _, _ => .fault
  | budget + 1, pos, fields => do
      let some (line, nextPos) ← nextCrlfLine headers pos | return none
      if line.isEmpty then
        return some fields
      let some (name, value) := headerField line | return none
      let some fields := fields.add name value | return none
      fieldLoop headers budget nextPos fields

/-- The framing that the collected fields ask for. -/
def BodyFields.framing (fields : BodyFields) : Except HttpFrameError HttpBodyFraming :=
  if !fields.codings.isEmpty then
    if fields.contentLength.isSome then .error .invalid
    else
      let chunkedCount :=
        (fields.codings.filter (eqIgnoreAsciiCase · (ascii "chunked"))).length
      if chunkedCount == 1 && fields.codings.length == 1 then .ok .chunked else .error .invalid
  else
    match fields.contentLength with
    | some length =>
      if length > maxHttpRequestSize then .error .tooLarge else .ok (.contentLength length)
    | none => .ok .headersOnly

def httpBodyFraming (headers : Bytes) : Exec (Except HttpFrameError HttpBodyFraming) := do
  if hasBareLineFeed headers then
    return .error .invalid
  let some (requestLine, pos) ← nextCrlfLine headers 0 | return .error .invalid
  if requestLine.isEmpty then
    return .error .invalid
  let some fields ← fieldLoop headers (headers.length + 1) pos ⟨[], none⟩
    | return .error .invalid
  return fields.framing

/-! Chunked bodies. -/

/-- The line loop of `chunkTrailersAreWellFormed`. -/
def trailerLoop (trailers : Bytes) : (budget pos : Nat) → Exec Bool
  | 0, _ => .fault
  | budget + 1, pos => do
      let rest ← sliceFrom trailers pos
      let some lineOffset := findSubslice rest crlf
        | return rest.isEmpty || (headerField rest).isSome
      let line ← slice trailers pos (pos + lineOffset)
      let pos := pos + (lineOffset + 2)
      if line.isEmpty then
        if pos == trailers.length then
          return true
        trailerLoop trailers budget pos
      else
        if (headerField line).isNone then
          return false
        if pos == trailers.length then
          return true
        trailerLoop trailers budget pos

def chunkTrailersAreWellFormed (trailers : Bytes) : Exec Bool :=
  if hasBareLineFeed trailers then return false
  else trailerLoop trailers (trailers.length + 1) 0

/-- The outcome of a scan that ran out of data inside a line. -/
def unfinishedScan (bufferLen : Nat) (pending : Bytes) : Except HttpFrameError (Option Nat) :=
  if hasInvalidHttpLineEnding pending then .error .invalid
  else if bufferLen > maxHttpRequestSize then .error .tooLarge
  else .ok none

/-- The `chunk_size == 0` branch of the chunk loop: the end of the message behind the
last chunk's line.
-/
def lastChunkEnd (buffer : Bytes) (pos : Nat)
    : Exec (Except HttpFrameError (Option Nat)) := do
  let trailers ← sliceFrom buffer pos
  if crlf.isPrefixOf trailers then
    return .ok (some (pos + 2))
  let some trailerEnd := findSubslice trailers blankLine
    | return unfinishedScan buffer.length trailers
  if !(← chunkTrailersAreWellFormed (← slice trailers 0 trailerEnd)) then
    return .error .invalid
  let totalLen := pos + trailerEnd + 4
  if totalLen > maxHttpRequestSize then
    return .error .tooLarge
  return .ok (some totalLen)

/-- The chunk loop of `extractChunkedHttpBodyLen`. -/
def chunkLoop (buffer : Bytes)
    : (budget pos : Nat) → Exec (Except HttpFrameError (Option Nat))
  | 0, _ => .fault
  | budget + 1, pos => do
      let pending ← sliceFrom buffer pos
      let some lineOffset := findSubslice pending crlf
        | return unfinishedScan buffer.length pending
      let lineEnd := pos + lineOffset
      let some chunkHeader := fromUtf8 (← slice buffer pos lineEnd) | return .error .invalid
      let some chunkSize := parseHttpChunkSize chunkHeader | return .error .invalid
      let pos := lineEnd + 2
      if chunkSize == 0 then
        lastChunkEnd buffer pos
      else
        let some dataEnd := checkedAdd pos chunkSize | return .error .tooLarge
        let some frameEnd := checkedAdd dataEnd 2 | return .error .tooLarge
        if frameEnd > maxHttpRequestSize then
          return .error .tooLarge
        if buffer.length < frameEnd then
          return .ok none
        if (← slice buffer dataEnd (dataEnd + 2)) != crlf then
          return .error .invalid
        chunkLoop buffer budget frameEnd

def extractChunkedHttpBodyLen (buffer : Bytes) (pos : Nat)
    : Exec (Except HttpFrameError (Option Nat)) :=
  chunkLoop buffer (buffer.length + 1) pos

/-! The framer. -/

/-- `buffer.clear()` and the answer to a framing error. -/
def httpFrameError (error : HttpFrameError) : TcpFrameResult :=
  match error with
  | .invalid => .invalid (some badRequest)
  | .tooLarge => .tooLarge (some payloadTooLarge)

def extractHttpRequestWithFraming (buffer : Bytes) (headersEnd : Nat)
    (framing : HttpBodyFraming) : Exec (TcpFrameResult × Bytes) := do
  match framing with
  | .chunked =>
    match ← extractChunkedHttpBodyLen buffer headersEnd with
    | .ok (some totalLen) => completeFrame buffer totalLen
    | .ok none => return (.incomplete, buffer)
    | .error error => return (httpFrameError error, [])
  | .contentLength contentLength =>
    let some totalLen := checkedAdd headersEnd contentLength
      | return (.tooLarge (some payloadTooLarge), [])
    if totalLen > maxHttpRequestSize then
      return (.tooLarge (some payloadTooLarge), [])
    if buffer.length < totalLen then
      return (.incomplete, buffer)
    completeFrame buffer totalLen
  | .headersOnly => completeFrame buffer headersEnd

def extractHttpRequest (buffer : Bytes) : Exec (TcpFrameResult × Bytes) := do
  let some headerEnd := findSubslice buffer blankLine
    | if buffer.length > maxHttpHeaderSize then
        return (.tooLarge (some headerFieldsTooLarge), [])
      else return (.incomplete, buffer)
  let headersEnd := headerEnd + 4
  let headers ← slice buffer 0 headersEnd
  if headerEnd > maxHttpHeaderSize then
    return (.tooLarge (some headerFieldsTooLarge), [])
  if !validHttpRequestLine (← slice headers 0 headerEnd) then
    return (.invalid (some badRequest), [])
  match ← httpBodyFraming headers with
  | .ok framing => extractHttpRequestWithFraming buffer headersEnd framing
  | .error error => return (httpFrameError error, [])

end NetTrap.TcpFraming
