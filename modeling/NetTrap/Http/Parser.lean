import NetTrap.Http.Targets
import NetTrap.Library.Exec

/-! The HTTP request parser, which runs on the frames that the TCP framer cuts out. -/

namespace NetTrap.Http

open Access Search Rust

def maxHeaderSize : Nat := 64 * 1024

def maxTotalSize : Nat := 10 * 1024 * 1024

/-- `Error::Parse`. Text that is not UTF-8 is reported in the words of the decoder. -/
inductive ParseError where
  | message (text : String)
  | utf8 (text : Bytes)
  deriving DecidableEq, Repr

structure ParsedHttpRequest where
  (method target path version : Str)
  headers : List (Str × Str)
  body : Bytes
  deriving DecidableEq, Repr

def isHttpToken (value : Str) : Bool :=
  !value.isEmpty && value.all isHttpTokenByte

def parseRequestLine (line : Str) : Except ParseError (Str × Str × Str) :=
  match line.splitOn 32 with
  | [method, target, version] =>
    if !isHttpToken method || !isValidHttpTargetForMethod method target
        || !(version == ascii "HTTP/1.0" || version == ascii "HTTP/1.1") then
      .error (.message "Invalid request line")
    else .ok (method, target, version)
  | _ => .error (.message "Invalid request line")

def invalidHttpHeader : ParseError := .message "Invalid HTTP header"

/-- One line of the header block, without its carriage return. -/
def parseHeaderLine (line : Bytes) : Except ParseError (Str × Str) :=
  match line.findIdx? (· == 58) with
  | none => .error invalidHttpHeader
  | some colonPos =>
    let value := trimSpaceTab (line.drop (colonPos + 1))
    match fromUtf8 (line.take colonPos) with
    | none => .error invalidHttpHeader
    | some key =>
      if key.isEmpty || key != trimSpaceTab key then .error invalidHttpHeader
      else if !isHttpToken key then .error invalidHttpHeader
      else if key.contains 13 || key.contains 10 || key.contains 0
          || !value.all isHttpFieldValueByte then
        .error invalidHttpHeader
      else .ok (key, latin1ToString value)

/-- The header lines in order; empty ones are skipped. -/
def parseHeaderLines : List Bytes → Except ParseError (List (Str × Str))
  | [] => .ok []
  | line :: lines =>
    if line.isEmpty then parseHeaderLines lines
    else
      match parseHeaderLine ((stripSuffix 13 line).getD line) with
      | .error error => .error error
      | .ok header => (parseHeaderLines lines).map (header :: ·)

variable (headers : List (Str × Str))

def findHeaderValue (name : Str) : Option Str :=
  (headers.find? fun (key, _) => eqIgnoreAsciiCase key name).map Prod.snd

def hasHeader (name : Str) : Bool :=
  headers.any fun (key, _) => eqIgnoreAsciiCase key name

/-- The values of every header with the given name. -/
def headerValues (name : Str) : List Str :=
  (headers.filter fun (key, _) => eqIgnoreAsciiCase key name).map Prod.snd

/-- The host of a `Host` field, with its port. -/
def isValidHost (host : Str) : Bool :=
  match host with
  | 91 :: rest =>
    match splitOnce 93 rest with
    | none => false
    | some (inner, suffix) =>
      if !isUsableIpv6Text inner then false
      else
        match suffix with
        | [] => true
        | 58 :: port => (nonzeroPort port).isSome
        | _ => false
  | _ =>
    match rsplitOnce 58 host with
    | some (name, port) =>
      (isUsableIpv4Text name
          || isValidHttpHostName name && !isNumericDomainName name
            && !isTrailingDotIpv4Literal name)
        && (nonzeroPort port).isSome
    | none =>
      isUsableIpv4Text host
        || isValidHttpHostName host && !hasNumericDomainLabels host
          && !isTrailingDotIpv4Literal host

def hasValidHostHeader : Bool :=
  match headerValues headers (ascii "Host") with
  | [value] =>
    let host := trimSpaceTab value
    !host.isEmpty && !(chars host).any (fun char => isControl char || isWhitespace char)
      && isValidHost host
  | _ => false

/-- The loop over the `Content-Length` values: a conflict ends it, and an invalid value
counts once there are several.
-/
def conflictingLengths (seen : Option Nat) (sawInvalid : Bool) (count : Nat) : List Str → Bool
  | [] => sawInvalid && count > 1
  | value :: values =>
    match parseHttpContentLength value with
    | none => conflictingLengths seen true (count + 1) values
    | some parsed =>
      match seen with
      | some previous =>
        if previous != parsed then true
        else conflictingLengths seen sawInvalid (count + 1) values
      | none => conflictingLengths (some parsed) sawInvalid (count + 1) values

def hasConflictingContentLength : Bool :=
  conflictingLengths none false 0 (headerValues headers (ascii "Content-Length"))

def transferEncodingIsSupported : Bool :=
  let codings :=
    (headerValues headers (ascii "Transfer-Encoding")).flatMap fun value =>
      (value.splitOn 44).map trimSpaceTab
  if codings.any List.isEmpty then false
  else
    (codings.filter (eqIgnoreAsciiCase · (ascii "chunked"))).length == 1
      && codings.length == 1

def invalidHttpChunkTrailer : ParseError := .message "Invalid HTTP chunk trailer"

/-- One line of a chunk trailer, with the carriage return that ended it. -/
def isChunkTrailerLine (line : Bytes) : Bool :=
  if (stripSuffix 13 line).isNone && line.contains 13 then false
  else
    let line := (stripSuffix 13 line).getD line
    match line.findIdx? (· == 58) with
    | none => false
    | some colonPos =>
      let value := trimSpaceTab (line.drop (colonPos + 1))
      match fromUtf8 (line.take colonPos) with
      | none => false
      | some key =>
        !(key.isEmpty || key != trimSpaceTab key || !isHttpToken key
          || (chars key).any (fun char => isControl char || isWhitespace char)
          || !value.all isHttpFieldValueByte)

def chunkTrailersAreWellFormed (trailers : Bytes) : Except ParseError Unit :=
  if hasBareLineFeed trailers then .error invalidHttpChunkTrailer
  else if (trailers.splitOn 10).all fun line => line.isEmpty || isChunkTrailerLine line then
    .ok ()
  else .error invalidHttpChunkTrailer

def invalidHttpChunkedBody : ParseError := .message "Invalid HTTP chunked body"

/-- One turn of the decoding loop: the end of the body, or a chunk and where the next
one starts.
-/
inductive ChunkStep where
  | last (consumed : Nat)
  | chunk (data : Bytes) (next : Nat)
  deriving DecidableEq, Repr

/-- What follows the line of the last chunk. -/
def lastChunkStep (data : Bytes) (pos : Nat) : Except ParseError (Option ChunkStep) :=
  match getFrom data pos with
  | none => .ok none
  | some trailers =>
    if crlf.isPrefixOf trailers then .ok (some (.last (pos + 2)))
    else if hasInvalidHttpLineEnding trailers then .error invalidHttpChunkTrailer
    else
      match findSub blankLine trailers with
      | none => .ok none
      | some trailerEnd =>
        match chunkTrailersAreWellFormed (trailers.take trailerEnd) with
        | .error error => .error error
        | .ok () => .ok (some (.last (pos + trailerEnd + 4)))

/-- A chunk of `chunkSize` bytes from `pos` on, and the line break behind it. -/
def dataChunkStep (data : Bytes) (pos chunkSize : Nat) : Except ParseError (Option ChunkStep) :=
  match checkedAdd pos chunkSize with
  | none => .ok none
  | some dataEnd =>
    match checkedAdd dataEnd 2 with
    | none => .ok none
    | some chunkEnd =>
      match getRange data dataEnd chunkEnd with
      | none => .ok none
      | some terminator =>
        if terminator != crlf then .error invalidHttpChunkedBody
        else .ok ((getRange data pos dataEnd).map fun chunk => .chunk chunk chunkEnd)

def chunkStep (data : Bytes) (pos : Nat) : Except ParseError (Option ChunkStep) :=
  match getFrom data pos with
  | none => .ok none
  | some remaining =>
    match findSub crlf remaining with
    | none =>
      if hasInvalidHttpLineEnding remaining then .error invalidHttpChunkedBody else .ok none
    | some relEnd =>
      match getRange data pos (pos + relEnd) with
      | none => .ok none
      | some header =>
        match (fromUtf8 header).bind parseHttpChunkSize with
        | none => .error invalidHttpChunkedBody
        | some chunkSize =>
          if chunkSize = 0 then lastChunkStep data (pos + relEnd + 2)
          else dataChunkStep data (pos + relEnd + 2) chunkSize

theorem getRange_bounds {data range : Bytes} {start stop : Nat}
    (found : getRange data start stop = some range)
    : start ≤ stop ∧ stop ≤ data.length := by
  simp only [getRange] at found
  split at found
  · assumption
  · cases found

/-- A chunk lies behind its line and inside the data. -/
theorem dataChunkStep_next {data chunk pos chunkSize next}
    (stepped : dataChunkStep data pos chunkSize = .ok (some (.chunk chunk next)))
    : pos < next ∧ next ≤ data.length := by
  revert stepped
  fun_cases dataChunkStep data pos chunkSize with
  | case5 dataEnd first chunkEnd second terminator found =>
    intro stepped
    simp only [Except.ok.injEq, Option.map_eq_some_iff, ChunkStep.chunk.injEq] at stepped
    obtain ⟨_, -, -, rfl⟩ := stepped
    have bounds := getRange_bounds found
    have firstSum := checkedAdd_eq first
    have secondSum := checkedAdd_eq second
    omega
  | _ => nofun

/-- The loop moves on, which bounds the number of its turns. -/
theorem chunkStep_next {data chunk pos next}
    (stepped : chunkStep data pos = .ok (some (.chunk chunk next)))
    : pos < next ∧ next ≤ data.length := by
  revert stepped
  fun_cases chunkStep data pos with
  | case6 remaining _ relEnd => fun_cases lastChunkStep data (pos + relEnd + 2) <;> nofun
  | case7 =>
    intro stepped
    have moved := dataChunkStep_next stepped
    omega
  | _ => nofun

def decodeChunks (data : Bytes) (pos : Nat) (body : Bytes)
    : Except ParseError (Option (Nat × Bytes)) :=
  match _ : chunkStep data pos with
  | .error error => .error error
  | .ok none => .ok none
  | .ok (some (.last consumed)) => .ok (some (consumed, body))
  | .ok (some (.chunk chunk next)) => decodeChunks data next (body ++ chunk)
termination_by data.length - pos
decreasing_by
  have moved := chunkStep_next ‹_›
  omega

def decodeChunkedBody (data : Bytes) : Except ParseError (Option (Nat × Bytes)) :=
  decodeChunks data 0 []

/-- The body behind a header block that ends at `bodyStart`; `none` asks for more data. -/
def requestBody (data : Bytes) (bodyStart : Nat) (headers : List (Str × Str))
    : Except ParseError (Option Bytes) :=
  let maxBodyLen := maxTotalSize - bodyStart
  if hasHeader headers (ascii "Transfer-Encoding") then
    if hasHeader headers (ascii "Content-Length") then
      .error (.message "Conflicting HTTP Transfer-Encoding and Content-Length")
    else if !transferEncodingIsSupported headers then
      .error (.message "Unsupported HTTP Transfer-Encoding")
    else
      match getFrom data bodyStart with
      | none => .ok none
      | some bodyPayload =>
        match decodeChunkedBody bodyPayload with
        | .error error => .error error
        | .ok none => .ok none
        | .ok (some (consumed, body)) =>
          if consumed != bodyPayload.length || consumed > maxBodyLen
              || body.length > maxBodyLen then
            .ok none
          else .ok (some body)
  else
    match findHeaderValue headers (ascii "Content-Length") with
    | some contentLengthRaw =>
      match parseHttpContentLength contentLengthRaw with
      | none => .error (.message "Invalid HTTP Content-Length")
      | some contentLength =>
        let available := data.length - bodyStart
        if contentLength > maxBodyLen then
          .error (.message "HTTP Content-Length exceeds maximum")
        else if available < contentLength then .ok none
        else if available != contentLength then .ok none
        else
          match getRange data bodyStart (bodyStart + contentLength) with
          | none => .error (.message "Content-Length exceeds available body")
          | some body => .ok (some body)
    | none => if data.length != bodyStart then .ok none else .ok (some [])

/-- Where the request line of a header block ends. -/
def requestLineEnd (headerBlock : Bytes) : Nat :=
  (findSub crlf headerBlock).getD headerBlock.length

/-- The lines behind the request line. -/
def headerLines (headerBlock : Bytes) : List Bytes :=
  if requestLineEnd headerBlock = headerBlock.length then List.splitOn 10 []
  else (headerBlock.drop (requestLineEnd headerBlock + 2)).splitOn 10

/-- The request line and the headers of a header block. -/
def parseHeaderBlock (headerBlock : Bytes)
    : Except ParseError ((Str × Str × Str) × List (Str × Str)) :=
  if hasBareLineFeed headerBlock then .error (.message "Invalid HTTP line endings")
  else
    let requestLine := headerBlock.take (requestLineEnd headerBlock)
    match fromUtf8 requestLine with
    | none => .error (.utf8 requestLine)
    | some requestLine =>
      match parseRequestLine requestLine with
      | .error error => .error error
      | .ok request => (parseHeaderLines (headerLines headerBlock)).map (request, ·)

def parseHttpRequestBytes (data : Bytes) : Except ParseError (Option ParsedHttpRequest) :=
  if data.length > maxTotalSize then .error (.message "HTTP request exceeds maximum size")
  else
    match findSub blankLine data with
    | none =>
      if hasBareLineFeed data then .error (.message "Invalid HTTP line endings")
      else if hasBareCarriageReturn data then .error (.message "Invalid HTTP line endings")
      else if data.length > maxHeaderSize then
        .error (.message "HTTP headers exceed maximum size")
      else .ok none
    | some headerEnd =>
      if headerEnd > maxHeaderSize then .error (.message "HTTP headers exceed maximum size")
      else
        match getRange data 0 headerEnd with
        | none => .error (.message ("Invalid HTTP header boundary at " ++ toString headerEnd))
        | some headerBlock =>
          match parseHeaderBlock headerBlock with
          | .error error => .error error
          | .ok ((method, target, version), headers) =>
            if version == ascii "HTTP/1.1" && !hasValidHostHeader headers then
              .error (.message "Invalid or missing HTTP Host header")
            else if hasConflictingContentLength headers then
              .error (.message "Conflicting HTTP Content-Length")
            else
              match requestBody data (headerEnd + 4) headers with
              | .error error => .error error
              | .ok none => .ok none
              | .ok (some body) =>
                .ok (some
                  { method, target, path := normalizeRequestTarget target, version,
                    headers, body })

end NetTrap.Http
