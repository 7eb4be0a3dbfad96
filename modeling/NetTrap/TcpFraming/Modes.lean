import NetTrap.TcpFraming.EncodedLength
import NetTrap.TcpFraming.Greetings
import NetTrap.TcpFraming.HttpDecision
import NetTrap.TcpFraming.Redis

/-! Frame modes: how the listener name, the first bytes and the port select one, and the
framer that each mode runs.
-/

namespace NetTrap.TcpFraming

open Access Framing Rust

/-- What framing takes from elsewhere: lower-casing of text outside ASCII, the protocol
name that the router detects, and the JSON stream decoder.
-/
structure FramingEnv where
  unicodeLowercase : Str → Str
  routeTcp : Bytes → Nat → Option Str
  nextJson : Bytes → JsonItem

/-- A router that detects nothing and a decoder that finds no value. -/
def FramingEnv.inert : FramingEnv where
  unicodeLowercase text := text
  routeTcp _ _ := none
  nextJson _ := .none

variable (env : FramingEnv)

/-- `str::to_lowercase`. -/
def FramingEnv.toLowercase (text : Str) : Str :=
  if text.all (· < 0x80) then text.map toAsciiLowercase else env.unicodeLowercase text

def canonicalProtocolAlias (listenerName : Str) : Str :=
  let lower := env.toLowercase listenerName
  if lower == ascii "qotd" then ascii "quotd"
  else if (ascii "qotd-").isPrefixOf lower || (ascii "qotd_").isPrefixOf lower then
    ascii "quotd" ++ lower.drop 4
  else lower

def listenerNameMatchesProtocol (listenerName protocol : Str) : Bool :=
  if trimSpaceTab listenerName != listenerName || listenerName.isEmpty
      || (chars listenerName).any (fun ch => isControl ch || (isWhitespace ch && ch != 32)) then
    false
  else
    let listener := canonicalProtocolAlias env listenerName
    listener == protocol
      || (protocol.isPrefixOf listener
        && ((listener.drop protocol.length).head?.any fun byte => byte == 45 || byte == 95))

def lineProtocols : List Str :=
  ["smtp", "smtps", "ftp", "ftps", "pop3", "pop3s", "imap", "imaps", "irc", "ircs", "telnet",
    "telnets", "finger", "ident", "syslogrecv"].map ascii

def immediateProtocols : List Str :=
  ["daytime", "time", "chargen", "quotd", "dummy", "raw", "echo"].map ascii

def protocolFrameMode (protocol : Str) (sshFirstPacket : Bool) : Option TcpFrameMode :=
  let named (candidate : String) := listenerNameMatchesProtocol env protocol (ascii candidate)
  if named "dns" then some .dnsTcp
  else if named "tls" || named "ssl" then some .tls
  else if named "http" || named "https" then some .http
  else if named "upnp" then some .http
  else if lineProtocols.any (listenerNameMatchesProtocol env protocol) then some .line
  else if immediateProtocols.any (listenerNameMatchesProtocol env protocol) then
    some .immediate
  else if named "ssh" then some (if sshFirstPacket then .sshBanner else .sshPayload)
  else if named "mysql" then some .mysql
  else if named "postgres" then some .postgres
  else if named "socks" then some .socks
  else if named "smb" then some .smb
  else if named "rdp" then some .rdp
  else if named "ldap" then some .ldap
  else if named "ldaps" then some .ldap
  else if named "redis" then some .redis
  else if named "memcached" then some .memcached
  else if named "mqtt" then some .mqtt
  else if named "nkn" then some .nkn
  else none

def listenerFrameMode (listenerName : Str) (sshFirstPacket : Bool) : Option TcpFrameMode :=
  let listener := env.toLowercase listenerName
  if listener == ascii "tcp" || listener == ascii "auto" || listener == ascii "autodetect" then
    none
  else protocolFrameMode env listener sshFirstPacket

/-! Ports and sniffing. -/

def splitLengthPrefixedPayload (buffer : Bytes) : Exec (Option (Bytes × Bool)) := do
  if buffer.length < 2 then
    return none
  let declaredLen := u16FromBeBytes (← item buffer 0) (← item buffer 1)
  let some totalLen := checkedAdd 2 declaredLen | return none
  let complete : Bool := buffer.length ≥ totalLen
  let payloadEnd := if complete then totalLen else buffer.length
  return some (← slice buffer 2 payloadEnd, complete)

def looksLikeDnsHeader (data : Bytes) : Exec Bool := do
  if data.length < 13 then
    return false
  let flags := u16FromBeBytes (← item data 2) (← item data 3)
  let isQuery := flags &&& 0x8000 == 0
  let opcode := (flags >>> 11) &&& 0x0f
  let qdcount := u16FromBeBytes (← item data 4) (← item data 5)
  let ancount := u16FromBeBytes (← item data 6) (← item data 7)
  let nscount := u16FromBeBytes (← item data 8) (← item data 9)
  let firstLabelLen ← item data 12
  return isQuery && opcode ≤ 2 && qdcount == 1 && ancount == 0 && nscount == 0
    && (1 ≤ firstLabelLen && firstLabelLen ≤ 63)

def isDnsOverTcpFrame (buffer : Bytes) (destinationPort : Nat) : Exec Bool := do
  let some (payload, complete) ← splitLengthPrefixedPayload buffer | return false
  if complete then
    return env.routeTcp payload destinationPort == some (ascii "dns")
  looksLikeDnsHeader payload

/-- The port table behind the DNS test. -/
def fixedPortMode (destinationPort : Nat) (buffer : Bytes) (sshFirstPacket : Bool)
    : Option TcpFrameMode :=
  let isOneOf (ports : List Nat) := ports.contains destinationPort
  if isOneOf [853, 636, 990, 992, 993, 994, 6697] then some .tls
  else if isOneOf [443, 8443, 8883, 9443] && hasTlsRecordPrefix buffer then some .tls
  else if isOneOf [80, 443, 8000, 8080, 8443, 8888] then some .http
  else if isOneOf [25, 465, 587, 2525] then some .line
  else if isOneOf [21] then some .line
  else if isOneOf [110, 995] then some .line
  else if isOneOf [143] then some .line
  else if isOneOf [194, 6667] then some .line
  else if isOneOf [23, 79, 113, 514, 601] then some .line
  else if isOneOf [13, 17, 19, 37] then some .immediate
  else if isOneOf [22] then some (if sshFirstPacket then .sshBanner else .sshPayload)
  else if isOneOf [3306] then some .mysql
  else if isOneOf [5432] then some .postgres
  else if isOneOf [1080] then some .socks
  else if isOneOf [139, 445] then some .smb
  else if isOneOf [3389] then some .rdp
  else if isOneOf [389] then some .ldap
  else if isOneOf [6379] then some .redis
  else if isOneOf [11211] then some .memcached
  else if isOneOf [1883] then some .mqtt
  else none

def portFrameMode (destinationPort : Nat) (buffer : Bytes) (sshFirstPacket : Bool)
    : Exec (Option TcpFrameMode) := do
  if destinationPort == 53 then
    return some .dnsTcp
  if ← isDnsOverTcpFrame env buffer destinationPort then
    return some .dnsTcp
  return fixedPortMode destinationPort buffer sshFirstPacket

def tcpFrameMode (listenerName : Str) (buffer : Bytes) (destinationPort : Nat)
    (smtpDataMode sshFirstPacket : Bool) : Exec TcpFrameMode := do
  if smtpDataMode then
    return .smtpData
  if hasTlsRecordPrefix buffer || isTlsClientHello buffer then
    return .tls
  if let some mode := listenerFrameMode env listenerName sshFirstPacket then
    return mode
  if let some mode ← portFrameMode env destinationPort buffer sshFirstPacket then
    return mode
  if let some detected := env.routeTcp buffer destinationPort then
    return (protocolFrameMode env detected sshFirstPacket).getD .immediate
  return .immediate

/-! Framers by mode. -/

def nextTcpFrameForMode (mode : TcpFrameMode) : Framer := fun buffer =>
  match mode with
  | .dnsTcp => optionalFramer extractLengthPrefixedFrame buffer
  | .http => extractHttpRequest buffer
  | .line | .sshBanner => extractLineFrame buffer
  | .smtpData => extractSmtpDataFrame buffer
  | .sshPayload => extractSshPayloadFrame buffer
  | .mysql => extractMysqlFrame buffer
  | .postgres => extractPostgresFrame buffer
  | .socks => extractSocksFrame buffer
  | .smb => optionalFramer extractSmbFrame buffer
  | .rdp => extractRdpFrame buffer
  | .ldap => extractLdapFrame buffer
  | .mqtt => extractMqttFrame buffer
  | .tls => extractTlsFrame buffer
  | .redis => extractRedisFrame buffer
  | .memcached => extractMemcachedFrame buffer
  | .nkn => extractNknFrame env.nextJson buffer
  | .immediate => optionalFramer extractImmediateFrame buffer

def nextTcpFrameWithMode (listenerName : Str) (destinationPort : Nat)
    (smtpDataMode sshFirstPacket : Bool) (buffer : Bytes)
    : Exec (TcpFrameMode × TcpFrameResult × Bytes) := do
  let mode ← tcpFrameMode env listenerName buffer destinationPort smtpDataMode sshFirstPacket
  let (frame, rest) ← nextTcpFrameForMode env mode buffer
  return (mode, frame, rest)

end NetTrap.TcpFraming
