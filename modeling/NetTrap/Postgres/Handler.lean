import NetTrap.Library.Exec
import NetTrap.Library.Octets
import NetTrap.Rust.Text

/-! The PostgreSQL handler: typed messages, and the messages that open a connection.
A position in a body is given by the bytes behind it.
-/

namespace NetTrap.Postgres

open Rust Octets

def postgresSslRequest : Nat := 80877103
def postgresGssencRequest : Nat := 80877104
def postgresCancelRequest : Nat := 80877102
def postgresStartupVersion3 : Nat := 196608

/-- `u32::from_be_bytes` of the four bytes at a position. -/
def u32At (data : Bytes) (index : Nat) : Nat :=
  u32FromBeBytes (byteAt data index) (byteAt data (index + 1)) (byteAt data (index + 2))
    (byteAt data (index + 3))

/-- `u32::to_be_bytes`. -/
def u32Bytes (value : Nat) : Bytes :=
  [UInt8.ofNat (value / 16777216), UInt8.ofNat (value / 65536), UInt8.ofNat (value / 256),
    UInt8.ofNat value]

/-- The types of messages that begin with a byte for their type. -/
inductive TypedTag where
  | query
  | terminate
  | parse
  | bind
  | describe
  | execute
  | close
  | flush
  | sync
  | functionCall
  deriving DecidableEq, Repr

/-- The letters `Q`, `X`, `P`, `B`, `D`, `E`, `C`, `H`, `S` and `F`. -/
def TypedTag.ofByte : UInt8 → Option TypedTag
  | 0x51 => some .query
  | 0x58 => some .terminate
  | 0x50 => some .parse
  | 0x42 => some .bind
  | 0x44 => some .describe
  | 0x45 => some .execute
  | 0x43 => some .close
  | 0x48 => some .flush
  | 0x53 => some .sync
  | 0x46 => some .functionCall
  | _ => none

/-! The checks that the handler and the detector of the proxy both make, in the same steps. -/

section Bodies

/-- What is behind the first zero. -/
def consumeNulTerminatedField : Bytes → Option Bytes
  | [] => none
  | byte :: rest => if byte = 0 then some rest else consumeNulTerminatedField rest

def nulTerminatedFieldIsValid (value : Bytes) : Bool :=
  value.getLast? = some 0 && !value.dropLast.contains 0

def consumeU16 : Bytes → Option (Nat × Bytes)
  | high :: low :: rest => some (u16FromBeBytes high low, rest)
  | _ => none

def consumeBytes (count : Nat) (data : Bytes) : Option Bytes :=
  if count ≤ data.length then some (data.drop count) else none

def consumeFormatCodes (data : Bytes) : Option Bytes := do
  let (count, rest) ← consumeU16 data
  consumeBytes (count * 2) rest

/-- The loop over the values. A length is a signed number: minus one has no value behind it, and
what is less is refused. -/
def parameterValuesLoop : (parameterCount : Nat) → Bytes → Option Bytes
  | 0, data => some data
  | parameterCount + 1, b0 :: b1 :: b2 :: b3 :: rest =>
    let valueLen := u32FromBeBytes b0 b1 b2 b3
    if valueLen = 2 ^ 32 - 1 then parameterValuesLoop parameterCount rest
    else if valueLen ≥ 2 ^ 31 then none
    else (consumeBytes valueLen rest).bind (parameterValuesLoop parameterCount)
  | _ + 1, _ => none

def consumeParameterValues (data : Bytes) : Option Bytes := do
  let (parameterCount, rest) ← consumeU16 data
  parameterValuesLoop parameterCount rest

/-- The formats of arguments, the arguments and the formats of results, with nothing behind. -/
def formatsAndValues (data : Bytes) : Option Bytes := do
  let rest ← consumeFormatCodes data
  let rest ← consumeParameterValues rest
  consumeFormatCodes rest

def parseMessageBodyIsValid (body : Bytes) : Bool :=
  match do
    let rest ← consumeNulTerminatedField body
    let rest ← consumeNulTerminatedField rest
    consumeU16 rest with
  | some (parameterCount, rest) => parameterCount * 4 = rest.length
  | none => false

def bindMessageBodyIsValid (body : Bytes) : Bool :=
  (do
    let rest ← consumeNulTerminatedField body
    let rest ← consumeNulTerminatedField rest
    formatsAndValues rest) = some []

def functionCallBodyIsValid (body : Bytes) : Bool :=
  (consumeBytes 4 body).bind formatsAndValues = some []

def namedBodyIsValid : Bytes → Bool
  | kind :: name => (kind = 0x53 || kind = 0x50) && nulTerminatedFieldIsValid name
  | [] => false

def executeBodyIsValid (body : Bytes) : Bool :=
  (consumeNulTerminatedField body).any fun rest => rest.length = 4

/-- The loop over the parameters of a startup message, whose last byte is the final zero. -/
def startupParametersLoop : (budget : Nat) → Bytes → Bool
  | _, [] => true
  | 0, _ :: _ => false
  | budget + 1, byte :: params =>
    if byte = 0 then false
    else
      match (consumeNulTerminatedField params).bind consumeNulTerminatedField with
      | none => false
      | some rest => startupParametersLoop budget rest

def startupParametersAreComplete (params : Bytes) : Bool :=
  if params.getLast? ≠ some 0 then false
  else startupParametersLoop params.length params.dropLast

end Bodies

/-! What follows is the handler's own. -/

def readyForQueryIdle : Bytes :=
  ascii "Z" ++ [0, 0, 0, 5] ++ ascii "I"

def postgresErrorResponse (message : String) : Bytes :=
  let body := ascii "SFATAL" ++ [0] ++ ascii "C08P01" ++ [0] ++ ascii "M" ++ ascii message ++ [0, 0]
  ascii "E" ++ u32Bytes (body.length + 4) ++ body ++ readyForQueryIdle

def getHandshakeResponse : Bytes :=
  ascii "R" ++ u32Bytes 8 ++ u32Bytes 0 ++ readyForQueryIdle

def typedMessageBodyIsValid (tag : TypedTag) (body : Bytes) : Bool :=
  match tag with
  | .parse => parseMessageBodyIsValid body
  | .bind => bindMessageBodyIsValid body
  | .describe | .close => namedBodyIsValid body
  | .execute => executeBodyIsValid body
  | .functionCall => functionCallBodyIsValid body
  | .query | .terminate | .flush | .sync => true

/-- The least length that a message may declare; queries are not asked for here. -/
def typedMessageMinLen : TypedTag → Option Nat
  | .flush | .sync | .terminate => some 4
  | .describe | .close => some 6
  | .execute => some 9
  | .parse | .bind => some 8
  | .functionCall => some 14
  | .query => none

def typedMessageIsComplete (tag : TypedTag) (data : Bytes) : Bool :=
  if data.length < 5 then false
  else
    let msgLen := u32At data 1
    match typedMessageMinLen tag with
    | none => false
    | some minLen =>
      if msgLen < minLen || data.length != msgLen + 1 then false
      else typedMessageBodyIsValid tag (data.drop 5)

def handleQuery (data : Bytes) : Bytes :=
  if data.length < 5 then postgresErrorResponse "Malformed simple query frame"
  else
    let msgLen := u32At data 1
    if msgLen < 4 || data.length < msgLen + 1 then
      postgresErrorResponse "Malformed simple query frame"
    else if data.length != msgLen + 1 then postgresErrorResponse "Malformed simple query frame"
    else
      match stripSuffix 0 (data.drop 5) with
      | none => postgresErrorResponse "Malformed simple query frame"
      | some query =>
        if query.contains 0 then postgresErrorResponse "Malformed simple query frame"
        else
          match fromUtf8 query with
          | none => postgresErrorResponse "Malformed simple query frame"
          | some _ =>
            ascii "C" ++ u32Bytes 13 ++ ascii "SELECT 0" ++ [0] ++ readyForQueryIdle

/-- A message without a type, of at least eight bytes. -/
def handleStartup (data : Bytes) : Bytes :=
  let len := u32At data 0
  if len < 8 then postgresErrorResponse "Malformed startup packet"
  else
    let pgVersion := u32At data 4
    if pgVersion = postgresCancelRequest then
      if len != 16 || data.length != 16 then postgresErrorResponse "Malformed cancel request"
      else []
    else if data.length < len then postgresErrorResponse "Malformed startup packet"
    else if data.length != len then postgresErrorResponse "Malformed startup packet"
    else if pgVersion = postgresSslRequest then
      if len != 8 then postgresErrorResponse "Malformed SSL request" else ascii "N"
    else if pgVersion = postgresGssencRequest then
      if len != 8 then postgresErrorResponse "Malformed GSSENC request" else ascii "N"
    else if pgVersion = postgresStartupVersion3 then
      if !startupParametersAreComplete (data.drop 8) then
        postgresErrorResponse "Malformed startup packet"
      else getHandshakeResponse
    else []

def handle (data : Bytes) : Bytes :=
  match data.head? with
  | none => []
  | some first =>
    match TypedTag.ofByte first with
    | some .query => handleQuery data
    | some .terminate =>
      if !typedMessageIsComplete .terminate data then
        postgresErrorResponse "Malformed terminate message"
      else []
    | some tag =>
      if !typedMessageIsComplete tag data then postgresErrorResponse "Malformed typed message"
      else readyForQueryIdle
    | none => if data.length ≥ 8 then handleStartup data else []

/-! The detector of PostgreSQL messages in the proxy. -/

open Access

/-! The detector has its own copies of the checks. -/

abbrev postgresParseMessageBodyIsValid := parseMessageBodyIsValid
abbrev postgresBindMessageBodyIsValid := bindMessageBodyIsValid
abbrev postgresFunctionCallBodyIsValid := functionCallBodyIsValid
abbrev postgresStartupParametersAreComplete := startupParametersAreComplete

/-- Positions are counted from the beginning of the record. -/
def tlsClientHelloPrefixIsWellFormed (data : Bytes) : Bool :=
  (do
    let sessionIdLen ← data[43]?
    let pos := 43 + (1 + sessionIdLen.toNat)
    let cipherLenBytes ← getRange data pos (pos + 2)
    let cipherSuitesLen := be16At cipherLenBytes 0
    guard (cipherSuitesLen % 2 = 0)
    let pos := pos + (2 + cipherSuitesLen)
    let compressionMethodsLen ← data[pos]?
    let pos := pos + (1 + compressionMethodsLen.toNat)
    let extensionLenBytes ← getRange data pos (pos + 2)
    let extensionsLen := be16At extensionLenBytes 0
    guard (pos + 2 + extensionsLen = data.length)) = some ()

def looksLikeCompleteTlsClientHello (data : Bytes) : Bool :=
  if data.length < 9 || byteAt data 0 != 0x16 || byteAt data 1 != 0x03
      || !(0x01 ≤ byteAt data 2 && byteAt data 2 ≤ 0x04) then false
  else
    let recordLen := be16At data 3
    let recordEnd := 5 + recordLen
    if recordLen < 4 || recordEnd != data.length || byteAt data 5 != 0x01 then false
    else
      let handshakeLen :=
        (byteAt data 6).toNat * 65536 + (byteAt data 7).toNat * 256 + (byteAt data 8).toNat
      let handshakeEnd := 9 + handshakeLen
      handshakeLen > 0 && handshakeEnd ≥ 44 && handshakeEnd = recordEnd
        && tlsClientHelloPrefixIsWellFormed (data.take handshakeEnd)

def looksLikePostgresStartupMessage (data : Bytes) : Bool :=
  if data.length < 8 then false
  else
    let len := u32At data 0
    if len > data.length || len < 8 then false
    else
      let version := u32At data 4
      if version = postgresSslRequest then
        len = 8 && (len = data.length || looksLikeCompleteTlsClientHello (data.drop len))
      else if version = postgresGssencRequest then len = 8 && len = data.length
      else if version ≠ postgresStartupVersion3 then false
      else if len ≠ data.length then false
      else postgresStartupParametersAreComplete (data.drop 8)

def postgresTypedMessageBodyIsValid (tag : TypedTag) (body : Bytes) : Bool :=
  match tag with
  | .parse => postgresParseMessageBodyIsValid body
  | .bind => postgresBindMessageBodyIsValid body
  | .describe | .close => namedBodyIsValid body
  | .execute => executeBodyIsValid body
  | .functionCall => postgresFunctionCallBodyIsValid body
  | .query =>
    body.getLast? = some 0 && (fromUtf8 body.dropLast).any fun query => !query.contains 0
  | .terminate | .flush | .sync => true

def postgresTypedMessageMinLen : TypedTag → Nat
  | .flush | .sync | .terminate => 4
  | .describe | .close => 6
  | .execute => 9
  | .parse | .bind => 8
  | .functionCall => 14
  | .query => 5

def postgresTypedMessageEnd (data : Bytes) : Option Nat := do
  guard (5 ≤ data.length)
  let msgLen := u32At data 1
  let first ← data.head?
  let tag ← TypedTag.ofByte first
  let frameEnd := msgLen + 1
  guard (postgresTypedMessageMinLen tag ≤ msgLen ∧ frameEnd ≤ data.length)
  guard (postgresTypedMessageBodyIsValid tag ((data.take frameEnd).drop 5))
  some frameEnd

def looksLikePostgresTypedMessage (data : Bytes) : Bool :=
  postgresTypedMessageEnd data = some data.length

end NetTrap.Postgres
