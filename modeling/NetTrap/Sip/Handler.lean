import NetTrap.Core.Sanitize
import NetTrap.Http.Targets

/-! The SIP handler, and the detector of SIP requests in the proxy. -/

namespace NetTrap.Sip

open Rust NetTrap.Core Search
open Http (unsignedDecimal blankLine)

def maxSipHeaderBytes : Nat := 64 * 1024
def maxSipBodyBytes : Nat := 1024 * 1024

/-! Loops and checks that the handler and the detector of the proxy both write out. -/

section Shared

/-- A line feed in the head without a carriage return before it, or a carriage return with something
else behind it. -/
def hasStrayLineEnding (head data : Bytes) : Bool :=
  (head.zipIdx.any fun (byte, idx) => byte == 10 && (idx == 0 || data[idx - 1]? != some 13))
    || head.zipIdx.any fun (byte, idx) =>
      byte == 13 && idx + 1 < data.length && data[idx + 1]? != some 10

/-- Letters, digits and hyphens before a colon. -/
def isHeaderLine (line : Str) : Bool :=
  match splitOnce 58 line with
  | none => false
  | some (key, _) =>
    let key := trimSpaceTab key
    !(key.isEmpty || startsWithWhitespace line
      || !key.all fun byte => isAsciiAlphanumeric byte || byte == 45)

def headerLinesLoop : List Str → Bool
  | [] => false
  | line :: lines =>
    let line := trimEndMatches 13 line
    if line.isEmpty then true
    else if !isHeaderLine line then false
    else headerLinesLoop lines

/-- The length that the headers give, after checking that they do not give two; no result is the
early return. -/
def contentLengthLoop (nameMatches : Str → Bool) (parse : Str → Option Nat)
    : (contentLength : Option Nat) → List Str → Option (Option Nat)
  | contentLength, [] => some contentLength
  | contentLength, line :: lines =>
    let line := trimEndMatches 13 line
    if line.isEmpty then some contentLength
    else
      match splitOnce 58 line with
      | none => contentLengthLoop nameMatches parse contentLength lines
      | some (key, value) =>
        if !nameMatches (trimSpaceTab key) then
          contentLengthLoop nameMatches parse contentLength lines
        else
          match parse value, contentLength with
          | none, _ => none
          | some parsed, some current =>
            if current ≠ parsed then none
            else contentLengthLoop nameMatches parse (some current) lines
          | some parsed, none => contentLengthLoop nameMatches parse (some parsed) lines

end Shared

def sipHeaderNameMatches (candidate canonicalLower : Str) : Bool :=
  eqIgnoreAsciiCase candidate canonicalLower
    || [("via", "v"), ("from", "f"), ("to", "t"), ("call-id", "i"), ("content-length", "l")].any
      fun (canonical, compact) =>
        canonicalLower == ascii canonical && candidate.map toAsciiLowercase == ascii compact

/-- A line for a header, wherever it stands. -/
def isHeader (lowerName line : Str) : Bool :=
  match splitOnce 58 line with
  | none => false
  | some (key, _) =>
    !key.isEmpty && !startsWithWhitespace key && sipHeaderNameMatches (trimSpaceTab key) lowerName

def containsLineBreak (value : Str) : Bool :=
  (chars value).any fun char => char == 13 || char == 10 || isUnicodeLineSeparator char

def extractHeader (text : Str) (name : String) : Option Str := do
  let lowerName := (ascii name).map toAsciiLowercase
  let line ← (lines text).find? (isHeader lowerName)
  let (_, value) ← splitOnce 58 line
  let value := trimSpaceTab value
  if containsLineBreak value then none else some value

def uniqueHeaderLoop (lowerName : Str) : (value : Option Str) → List Str → Except Unit (Option Str)
  | value, [] => .ok value
  | value, line :: lines =>
    match splitOnce 58 line with
    | none => uniqueHeaderLoop lowerName value lines
    | some (key, candidate) =>
      if key.isEmpty || startsWithWhitespace key
          || !sipHeaderNameMatches (trimSpaceTab key) lowerName then
        uniqueHeaderLoop lowerName value lines
      else
        let candidate := trimSpaceTab candidate
        if containsLineBreak candidate then .error ()
        else if value.isSome then .error ()
        else uniqueHeaderLoop lowerName (some candidate) lines

def extractUniqueHeader (text : Str) (name : String) : Except Unit (Option Str) :=
  uniqueHeaderLoop ((ascii name).map toAsciiLowercase) none (lines text)

def sanitizeHeaderValue (value : Str) : Str :=
  (chars value).flatMap fun char =>
      encodeUtf8 (if isControl char || isWhitespace char then 32 else char)

def requestMethod (firstLine : Str) : Option Str :=
  if containsUnicodeLineSeparator firstLine then none
  else
    match firstLine.splitOn 32 with
    | [method, target, version] =>
      if method.isEmpty || target.isEmpty
          || ((chars target).any fun char => isControl char || isWhitespace char)
          || (ascii "SIP/").isPrefixOf method || !method.all isAsciiUppercase
          || version != ascii "SIP/2.0" then none
      else some method
    | _ => none

def cseqMatchesMethod (cseq method : Str) : Bool :=
  if cseq.contains 9 then false
  else
    let parts := cseq.splitOn 32
    if (parts.drop 1).any List.isEmpty then false
    else
      match parts with
      | [sequence, cseqMethod] =>
        ((unsignedDecimal (2 ^ 32 - 1) (trimSpaceTab sequence)).any fun sequence => sequence > 0)
          && eqIgnoreAsciiCase cseqMethod method
      | _ => false

def messageSections (data : Bytes) : Option (Str × Nat) := do
  let position ← findSub blankLine data
  let headerEnd := position + 4
  if headerEnd > maxSipHeaderBytes then none
  else if hasStrayLineEnding (data.take headerEnd) data then none
  else
    let bodyLen := data.length - headerEnd
    if bodyLen > maxSipBodyBytes then none
    else
      let headers ← fromUtf8 (data.take headerEnd)
      if containsUnicodeLineSeparator headers then none else some (headers, bodyLen)

def contentLengthMatchesBody (headers : Str) (bodyLen : Nat) : Bool :=
  match contentLengthLoop (sipHeaderNameMatches · (ascii "content-length"))
      (fun value => unsignedDecimal usizeMax (trimSpaceTab value)) none
          ((lines headers).drop 1) with
  | none => false
  | some (some contentLength) => bodyLen = contentLength
  | some none => bodyLen = 0

def headersAreWellFormed (headers : Str) : Bool :=
  headerLinesLoop ((lines headers).drop 1)

/-- What an answer repeats. -/
structure Echo where
  (via sender receiver callId cseq : Str)
  deriving DecidableEq, Repr

def Echo.lines (echo : Echo) : List Str :=
  [ascii "Via: " ++ echo.via, ascii "From: " ++ echo.sender, ascii "To: " ++ echo.receiver,
    ascii "Call-ID: " ++ echo.callId, ascii "CSeq: " ++ echo.cseq]

def allow : Str :=
  ascii "Allow: INVITE, ACK, CANCEL, OPTIONS, BYE, REGISTER"

/-- The lines of an answer before and behind those that repeat the request. -/
def replyFrame (method : Str) : Str × List Str :=
  if method = ascii "REGISTER" ∨ method = ascii "INVITE" then
    (ascii "SIP/2.0 401 Unauthorized",
      [ascii "WWW-Authenticate: Digest realm=\"nettrap.local\", nonce=\"nettrap\""])
  else if method = ascii "OPTIONS" then (ascii "SIP/2.0 200 OK", [allow])
  else if method = ascii "BYE" ∨ method = ascii "ACK" ∨ method = ascii "CANCEL" then
    (ascii "SIP/2.0 200 OK", [])
  else (ascii "SIP/2.0 405 Method Not Allowed", [allow])

/-- Each line with its end. -/
def encodeLines (lines : List Str) : Bytes :=
  lines.flatMap (· ++ crlf)

def reply (method : Str) (echo : Echo) : Bytes :=
  let (status, others) := replyFrame method
  encodeLines (status :: echo.lines ++ others ++ [ascii "Content-Length: 0", []])

def respond (data : Bytes) : Option Bytes := do
  let (headers, bodyLen) ← messageSections data
  guard (contentLengthMatchesBody headers bodyLen)
  guard (headersAreWellFormed headers)
  let firstLine := (lines headers).head?.getD []
  guard (!containsUnicodeLineSeparator firstLine)
  let method ← requestMethod firstLine
  let viaRaw ← extractHeader headers "Via"
  let unique (name : String) : Option Str := ((extractUniqueHeader headers name).toOption).join
  let sender ← unique "From"
  let receiver ← unique "To"
  let callId ← unique "Call-ID"
  let cseqRaw ← unique "CSeq"
  guard (cseqMatchesMethod cseqRaw method)
  some (reply method {
    via := sanitizeHeaderValue viaRaw,
    sender := sanitizeHeaderValue sender,
    receiver := sanitizeHeaderValue receiver,
    callId := sanitizeHeaderValue callId,
    cseq := sanitizeHeaderValue cseqRaw
  })

/-- The empty answer is none. -/
def handle (data : Bytes) : Bytes :=
  (respond data).getD []

/-! The detector. -/

def firstTextLine (data : Bytes) : Option Str := do
  let line := data.takeWhile (· != 10)
  let text ← fromUtf8 ((stripSuffix 13 line).getD line)
  if containsUnicodeLineSeparator text then none else some text

def crlfLineEndingsArePlausible (data : Bytes) : Bool :=
  !hasStrayLineEnding data data

def sipHeadersAreWellFormed (headers : Str) : Bool :=
  if containsUnicodeLineSeparator headers then false
  else headerLinesLoop ((lines headers).drop 1)

/-- The table has the names as the callers give them. -/
def tasteHeaderNameMatches (candidate canonical : Str) : Bool :=
  eqIgnoreAsciiCase candidate canonical
    || [("Via", "v"), ("From", "f"), ("To", "t"), ("Call-ID", "i"), ("Content-Length", "l"),
        ("content-length", "l")].any fun (name, compact) =>
      canonical == ascii name && candidate.map toAsciiLowercase == ascii compact

def isTastedHeader (name : String) (line : Str) : Bool :=
  let line := trimEndMatches 13 line
  if line.isEmpty then false
  else
    match splitOnce 58 line with
    | none => false
    | some (key, _) => tasteHeaderNameMatches (trimSpaceTab key) (ascii name)

def sipHeaderPresent (headers : Str) (name : String) : Bool :=
  ((lines headers).drop 1).any (isTastedHeader name)

def sipUniqueHeaderPresent (headers : Str) (name : String) : Bool :=
  ((((lines headers).drop 1).filter (isTastedHeader name)).take 2).length = 1

def parseSipUnsignedDecimal (limit : Nat) (value : Str) : Option Nat :=
  let value := trimSpaceTab value
  if value.isEmpty || !value.all isAsciiDigit then none
  else if decimalValue value ≤ limit then some (decimalValue value)
  else none

/-- No result is the early return for a second one. -/
def cseqLoop : (cseq : Option Str) → List Str → Option (Option Str)
  | cseq, [] => some cseq
  | cseq, line :: lines =>
    let line := trimEndMatches 13 line
    if line.isEmpty then some cseq
    else
      match splitOnce 58 line with
      | none => cseqLoop cseq lines
      | some (key, value) =>
        if !eqIgnoreAsciiCase (trimSpaceTab key) (ascii "CSeq") then cseqLoop cseq lines
        else if cseq.isSome then none
        else cseqLoop (some (trimSpaceTab value)) lines

/-- A positive number and the method, with one space between them. -/
def cseqIsPlausible (cseq method : Str) : Bool :=
  if cseq.contains 9 then false
  else
    match cseq.splitOn 32 with
    | [sequence, cseqMethod] =>
      if cseqMethod.isEmpty then false
      else
        ((parseSipUnsignedDecimal (2 ^ 32 - 1) sequence).any fun sequence => sequence > 0)
          && eqIgnoreAsciiCase cseqMethod method
    | _ => false

def sipCseqMatchesMethod (headers method : Str) : Bool :=
  match cseqLoop none ((lines headers).drop 1) with
  | some (some cseq) => cseqIsPlausible cseq method
  | _ => false

/-- The body is as long as the headers say. -/
def bodyIsPlausible (contentLength : Option Nat) (bodyLen : Nat) : Bool :=
  if bodyLen = 0 then !contentLength.any (· != 0) else contentLength == some bodyLen

/-- The method of a request line. -/
def tastedMethod (line : Str) : Option Str :=
  match line.splitOn 32 with
  | [method, target, version] =>
    if method.isEmpty || (ascii "SIP/").isPrefixOf method || !method.all isAsciiUppercase
        || target.isEmpty
        || ((chars target).any fun char => isControl char || isWhitespace char)
        || version != ascii "SIP/2.0" then none
    else some method
  | _ => none

def looksLikeSipRequestLine (data : Bytes) : Bool :=
  match firstTextLine data, findSub blankLine data with
  | some line, some headersEnd =>
    if !crlfLineEndingsArePlausible (data.take (headersEnd + 4)) then false
    else
      let bodyLen := data.length - (headersEnd + 4)
      match fromUtf8 (data.take (headersEnd + 4)) with
      | none => false
      | some headers =>
        if !sipHeadersAreWellFormed headers then false
        else
          match contentLengthLoop (tasteHeaderNameMatches · (ascii "content-length"))
              (parseSipUnsignedDecimal usizeMax) none ((lines headers).drop 1) with
          | none => false
          | some contentLength =>
            if !bodyIsPlausible contentLength bodyLen then false
            else
              match tastedMethod line with
              | none => false
              | some method =>
                sipHeaderPresent headers "Via" && sipUniqueHeaderPresent headers "From"
                  && sipUniqueHeaderPresent headers "To"
                  && sipUniqueHeaderPresent headers "Call-ID"
                  && sipCseqMatchesMethod headers method
  | _, _ => false

end NetTrap.Sip
