import NetTrap.Core.Sanitize
import NetTrap.Http.Targets
import NetTrap.Session.Tracker

/-! The command lines of the FTP handler. -/

namespace NetTrap.Ftp

open Rust NetTrap.Core
open Http (unsignedDecimal)
open Session (SocketAddr)

def ftpMaxCommandLineBytes : Nat := 512

structure FtpResponse where
  code : Nat
  message : Str
  raw : Option Bytes
  deriving DecidableEq

def FtpResponse.new (code : Nat) (message : Str) : FtpResponse where
  code := code
  message := message
  raw := none

def boundedFtpCommandLine (line : Str) : Option Str :=
  if line.length ≤ ftpMaxCommandLineBytes then some line else none

def ftpCommandLine (command : Str) : Option Str :=
  if containsUnicodeLineSeparator command then none
  else (soleLine command).bind boundedFtpCommandLine

/-- What `split_ftp_command` and `ftp_command_has_args` check before they look for the verb. -/
def checkedCommandLine (command : Str) : Option Str := do
  let line ← ftpCommandLine command
  if startsWithWhitespace line then none
  else if line.any fun byte => byte == 13 || byte == 10 || byte == 0 then none
  else some line

def verbEnd (line : Str) : Nat :=
  (line.findIdx? (· == 32)).getD line.length

def splitFtpCommand (command : Str) : Option (Str × Str) := do
  let line ← checkedCommandLine command
  let verb := line.take (verbEnd line)
  match line.drop (verbEnd line) with
  | 32 :: arg =>
    if arg.head? = some 32 || arg.head? = some 9 then none
    else some (verb, arg)
  | _ => if verbEnd line = line.length then some (verb, []) else none

def commandVerb (command : Str) : Str :=
  match splitFtpCommand command with
  | none => []
  | some (verb, _) => toAsciiUppercase verb

def commandArg (command : Str) : Str :=
  match splitFtpCommand command with
  | none => []
  | some (_, arg) => arg

/-- An FTP command line contains an argument separator after the verb. -/
def ftpCommandHasArgs (command : Str) : Bool :=
  match checkedCommandLine command with
  | none => false
  | some line => (line.drop (verbEnd line)).head? == some 32

def isUsableFtpActiveIpv4 (ip : Ipv4Addr) : Bool :=
  !ip.isUnspecified && !ip.isLoopback && !ip.isMulticast && !ip.isBroadcast

def isUsableFtpActiveIpv6 (ip : Ipv6Addr) : Bool :=
  match ip.toIpv4Mapped with
  | some mapped => isUsableFtpActiveIpv4 mapped
  | none => !ip.isUnspecified && !ip.isLoopback && !ip.isMulticast

def normalizeFtpActiveIp : IpAddr → IpAddr
  | .v4 ip => .v4 ip
  | .v6 ip => ip.toIpv4Mapped.elim (.v6 ip) .v4

def isValidEprtDelimiter (delim : UInt8) : Bool :=
  isAsciiGraphic delim && !isAsciiAlphanumeric delim

/-- `parse_ftp_decimal` at an integer type with the given largest value. -/
def parseFtpDecimal (limit : Nat) (value : Str) : Option Nat :=
  unsignedDecimal limit value

def syntaxErr : FtpResponse :=
  .new 501 (ascii "Syntax error in parameters")

/-- One number of a `PORT` argument, before it is read. -/
def isPortField (part : Str) : Bool :=
  !(part.isEmpty || startsWithWhitespace part || endsWithWhitespace part)

def parsePortOctet (part : Str) : Except FtpResponse UInt8 :=
  if isPortField part then
    match parseFtpDecimal 255 part with
    | some octet => .ok (.ofNat octet)
    | none => .error syntaxErr
  else .error syntaxErr

/-- The port that the last two numbers of a `PORT` argument give. -/
def parsePortPort (high low : Str) : Except FtpResponse UInt16 :=
  if !isPortField high || !isPortField low then .error syntaxErr
  else
    match parseFtpDecimal 65535 high, parseFtpDecimal 65535 low with
    | some high, some low =>
      if high > 255 || low > 255 then .error syntaxErr
      else
        let port := (UInt16.ofNat high <<< 8) ||| UInt16.ofNat low
        if port = 0 then .error syntaxErr else .ok port
    | _, _ => .error syntaxErr

def parsePort (arg : Str) : Except FtpResponse SocketAddr :=
  match arg.splitOn 44 with
  | [p0, p1, p2, p3, p4, p5] => do
      let a ← parsePortOctet p0
      let b ← parsePortOctet p1
      let c ← parsePortOctet p2
      let d ← parsePortOctet p3
      let ip := Ipv4Addr.new a b c d
      if !isUsableFtpActiveIpv4 ip then .error syntaxErr
      else do
        let port ← parsePortPort p4 p5
        .ok ⟨.v4 ip, port⟩
  | _ => .error syntaxErr

/-- The fields of an `EPRT` argument: nothing before the first delimiter and nothing behind the last
one, which may be missing. -/
def eprtFields (fields : List Str) : Except FtpResponse (Str × Str × Str) :=
  match fields with
  | first :: proto :: addr :: port :: behind =>
    if !first.isEmpty || !(behind.head?.getD []).isEmpty || 2 ≤ behind.length then .error syntaxErr
    else .ok (proto, addr, port)
  | _ => .error syntaxErr

def parseEprtIp (proto addr : Str) : Except FtpResponse IpAddr :=
  if proto = ascii "1" then
    match parseIpv4Addr addr with
    | some ip => if isUsableFtpActiveIpv4 ip then .ok (.v4 ip) else .error syntaxErr
    | none => .error syntaxErr
  else if proto = ascii "2" then
    match parseIpv6Addr addr with
    | some ip =>
      if isUsableFtpActiveIpv6 ip then .ok (normalizeFtpActiveIp (.v6 ip)) else .error syntaxErr
    | none => .error syntaxErr
  else .error (.new 522 (ascii "Network protocol not supported, use (1,2)"))

def parseEprt (arg : Str) : Except FtpResponse SocketAddr :=
  match arg.head?.filter isValidEprtDelimiter with
  | none => .error syntaxErr
  | some delim => do
      let (proto, addr, port) ← eprtFields (arg.splitOn delim)
      match parseFtpDecimal 65535 port with
      | none => .error syntaxErr
      | some port =>
        if port = 0 then .error syntaxErr
        else do
          let ip ← parseEprtIp proto addr
          .ok ⟨ip, .ofNat port⟩

/-- The client's data address in a `PORT` or `EPRT` command. -/
def parseFtpDataAddr (command : Str) : Except FtpResponse SocketAddr :=
  if commandVerb command = ascii "PORT" then parsePort (commandArg command)
  else if commandVerb command = ascii "EPRT" then parseEprt (commandArg command)
  else .error syntaxErr

/-! The data connections of one FTP control connection. -/

structure FtpDataTransfer where
  startResponse : FtpResponse
  data : Bytes
  completeResponse : FtpResponse
  receive : Bool

/-- What the handler answers while one command is processed: it reads files, a clock and a port
counter. -/
structure FtpHandler where
  handle : Str → FtpResponse
  prepareDataTransfer : Str → Except FtpResponse FtpDataTransfer

namespace Control

variable {Listener Permit : Type}

/-- How an outgoing data connection ends. -/
inductive Connection where
  | failed
  | timedOut
  | transferred (complete : Bool)

/-- What one command finds outside of its session: the handler, a transfer permit that is left, the
passive listener that can be bound with its port, the host in a passive reply and the end of an
outgoing connection. -/
structure Surroundings (Listener Permit : Type) where
  handler : FtpHandler
  tryAcquireOwned : Option Permit
  bindFtpPassiveListener : Option (Listener × UInt16)
  ftpPassiveResponseHost : Str
  connection : Connection

structure FtpPassiveState (Listener Permit : Type) where
  listener : Option Listener
  permit : Option Permit
  activeAddr : Option SocketAddr

/-- `FtpPassiveState::default`, and what `clear` leaves. -/
def FtpPassiveState.cleared : FtpPassiveState Listener Permit where
  listener := none
  permit := none
  activeAddr := none

/-- The replies of a response stand in the order in which their bytes are sent. -/
inductive FtpCommandAction (Listener Permit : Type) where
  | response (replies : List FtpResponse)
  | transfer (listener : Listener) (permit : Permit) (transfer : FtpDataTransfer)

/-- A processed command: the session behind it, its action, and the address of the data connection
that it made. -/
structure Processed (Listener Permit : Type) where
  state : FtpPassiveState Listener Permit
  action : FtpCommandAction Listener Permit
  connected : Option SocketAddr

def normalizeFtpPeerIp : IpAddr → IpAddr
  | .v4 ip => .v4 ip
  | .v6 ip => ip.toIpv4Mapped.elim (.v6 ip) .v4

def isUnacceptableDataIp : IpAddr → Bool
  | .v4 ip => ip.isLoopback || ip.isUnspecified || ip.isMulticast || ip.isBroadcast
  | .v6 ip =>
    ip.isLoopback || ip.isUnspecified || ip.isMulticast
      || ip.toIpv4Mapped.any fun mapped =>
        mapped.isLoopback || mapped.isUnspecified || mapped.isMulticast || mapped.isBroadcast

def validateActiveTarget (addr peer : SocketAddr) : Except FtpResponse Unit :=
  if normalizeFtpPeerIp addr.ip ≠ normalizeFtpPeerIp peer.ip then
    .error (.new 501 (ascii "Data address must match the control connection"))
  else if isUnacceptableDataIp addr.ip then .error (.new 501 (ascii "Unacceptable data address"))
  else if addr.port = 0 then .error (.new 501 (ascii "Unacceptable data port"))
  else .ok ()

/-- `split(' ').next()`, in capital letters. -/
def ftpCommandVerb (command : Str) : Str :=
  toAsciiUppercase ((command.splitOn 32).headD [])

/-- Unlike the handler's function of this name, this one counts the line ending and refuses a zero
byte. -/
def ftpCommandLine (command : Str) : Option Str :=
  if command.length > ftpMaxCommandLineBytes then none
  else if command.contains 0 then none
  else if containsUnicodeLineSeparator command then none
  else soleLine command

def openFtpPassiveDataSocket (around : Surroundings Listener Permit) (extended : Bool)
    : Processed Listener Permit :=
  match around.tryAcquireOwned with
  | none => ⟨.cleared, .response [.new 425 (ascii "Too many passive transfers")], none⟩
  | some permit =>
    match around.bindFtpPassiveListener with
    | none => ⟨.cleared, .response [.new 425 (ascii "Can't open passive connection")], none⟩
    | some (listener, port) =>
      let reply :=
        if extended then
          FtpResponse.new 229
            (ascii "Entering Extended Passive Mode (|||" ++ numeral 10 port.toNat ++ ascii "|)")
        else
          FtpResponse.new 227
            (ascii "Entering Passive Mode (" ++ around.ftpPassiveResponseHost ++ ascii ","
              ++ numeral 10 (port.toNat / 256) ++ ascii "," ++ numeral 10 (port.toNat % 256)
              ++ ascii ")")
      ⟨⟨some listener, some permit, none⟩, .response [reply], none⟩

def successMessage (verb : Str) : Str :=
  if verb = ascii "EPRT" then ascii "EPRT command successful" else ascii "PORT command successful"

def setActiveAddr (peer : SocketAddr) (state : FtpPassiveState Listener Permit) (command : Str)
    (message : Str) : Processed Listener Permit :=
  match parseFtpDataAddr command with
  | .error response => ⟨{ state with activeAddr := none }, .response [response], none⟩
  | .ok addr =>
    match validateActiveTarget addr peer with
    | .error response => ⟨{ state with activeAddr := none }, .response [response], none⟩
    | .ok () => ⟨⟨none, none, some addr⟩, .response [.new 200 message], none⟩

/-- The replies of `finish_ftp_active_transfer`. -/
def activeTransferReplies (transfer : FtpDataTransfer) : Connection → List FtpResponse
  | .failed => [transfer.startResponse, .new 425 (ascii "Can't open data connection")]
  | .timedOut => [transfer.startResponse, .new 425 (ascii "Data connection timed out")]
  | .transferred false =>
    [transfer.startResponse, .new 426 (ascii "Connection closed; transfer aborted")]
  | .transferred true => [transfer.startResponse, transfer.completeResponse]

/-- The listener, the permit and the active address are taken out of the session first. -/
def startDataTransfer (around : Surroundings Listener Permit)
    (state : FtpPassiveState Listener Permit) (command : Str) : Processed Listener Permit :=
  match around.handler.prepareDataTransfer command with
  | .error response => ⟨.cleared, .response [response], none⟩
  | .ok transfer =>
    match state.listener, state.permit with
    | some listener, some permit => ⟨.cleared, .transfer listener permit transfer, none⟩
    | _, _ =>
      match state.activeAddr with
      | none => ⟨.cleared, .response [.new 425 (ascii "Use PASV, EPSV or PORT first")], none⟩
      | some target =>
        match around.tryAcquireOwned with
        | none => ⟨.cleared, .response [.new 425 (ascii "Too many data transfers")], none⟩
        | some _ =>
          ⟨.cleared, .response (activeTransferReplies transfer around.connection),
            some target⟩

def passiveVerbs : List Str := [ascii "PASV", ascii "EPSV"]
def activeVerbs : List Str := [ascii "PORT", ascii "EPRT"]
def closingVerbs : List Str := [ascii "ABOR", ascii "QUIT"]
def transferVerbs : List Str :=
  [ascii "LIST", ascii "NLST", ascii "RETR", ascii "STOR", ascii "APPE"]

def prepareFtpCommand (peer : SocketAddr) (around : Surroundings Listener Permit)
    (state : FtpPassiveState Listener Permit) (command : Str) : Processed Listener Permit :=
  match ftpCommandLine command with
  | none => ⟨state, .response [around.handler.handle command], none⟩
  | some command =>
    let verb := ftpCommandVerb command
    if verb ∈ passiveVerbs then
      if ftpCommandHasArgs command then ⟨state, .response [syntaxErr], none⟩
      else openFtpPassiveDataSocket around (verb == ascii "EPSV")
    else if verb ∈ activeVerbs then
      setActiveAddr peer state command (successMessage verb)
    else if verb ∈ transferVerbs then startDataTransfer around state command
    else
      -- `ABOR` and `QUIT` drop what is pending and are then answered like every other command.
      ⟨if verb ∈ closingVerbs then .cleared else state,
        .response [around.handler.handle command], none⟩

/-- One command line and what it finds outside of its session. -/
structure Command (Listener Permit : Type) where
  line : Str
  around : Surroundings Listener Permit

/-- A control connection: each command is processed in the session that the one before it left. -/
def processAll (peer : SocketAddr)
    : FtpPassiveState Listener Permit → List (Command Listener Permit)
      → List (Processed Listener Permit)
  | _, [] => []
  | state, command :: rest =>
    let processed := prepareFtpCommand peer command.around state command.line
    processed :: processAll peer processed.state rest

def controlConnection (peer : SocketAddr) (commands : List (Command Listener Permit))
    : List (Processed Listener Permit) :=
  processAll peer .cleared commands

end Control

end NetTrap.Ftp
