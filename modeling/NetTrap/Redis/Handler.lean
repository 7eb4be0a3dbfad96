import NetTrap.Redis.Client
import NetTrap.Redis.Parser

/-! The Redis handler: authentication, the commands that change the connection, and the loop
over the commands of one call.
-/

namespace NetTrap.Redis

open Access Rust

def isEffectivelyBlankRedisValueBytes (value : Bytes) : Bool :=
  match fromUtf8 value with
  | some text =>
    (chars text).all isWhitespace
      || (chars text).all fun char => isControl char || isWhitespace char
  | none => value.all fun byte => byte == 32 || byte == 9 || byte == 13 || byte == 10

def authArgsAreValidBytes (args : List Bytes) : Bool :=
  (args.length == 1 || args.length == 2)
    && args.all fun arg => !isEffectivelyBlankRedisValueBytes arg

/-- The authentication flag after `AUTH`, with the reply; any credentials are accepted. -/
def handleAuthCommand (args : List Bytes) (authenticated : Bool) : Bool × Bytes :=
  if !authArgsAreValidBytes args then (authenticated, wrongNumberOfArguments "auth")
  else (true, okReply)

variable (handler : RedisHandler) (self : Connection)

def handleResetCommand (args : List Bytes) : Connection × Bytes :=
  if !args.isEmpty then (self, wrongNumberOfArguments "reset")
  else
    ({ self with
        clientName := none
        clientLibName := none
        clientLibVer := none
        replyMode := .on
        noEvict := false
        noTouch := false
        tracking := .disabled
        respVersion := 2
        authenticated := !handler.requireAuth },
      ascii "+RESET\r\n")

def helloPayload (version : Str) (respVersion : Nat) : Bytes :=
  ascii (if respVersion = 3 then "%7\r\n" else "*14\r\n")
    ++ ascii "$6\r\nserver\r\n$5\r\nredis\r\n"
    ++ ascii "$7\r\nversion\r\n" ++ respBulkString version
    ++ ascii (if respVersion = 3 then "$5\r\nproto\r\n:3\r\n" else "$5\r\nproto\r\n:2\r\n")
    ++ ascii "$2\r\nid\r\n:1\r\n" ++ ascii "$4\r\nmode\r\n$10\r\nstandalone\r\n"
    ++ ascii "$4\r\nrole\r\n$6\r\nmaster\r\n" ++ ascii "$7\r\nmodules\r\n*0\r\n"

/-- The options of `HELLO`, as far as they have been read. -/
structure HelloOptions where
  (sawAuth sawSetname : Bool)
  pendingClientName : Option (Option Str)
  pendingAuthenticated : Bool

/-- The loop over the options; `AUTH` takes two more arguments and `SETNAME` one. -/
def readHelloOptions (read : HelloOptions) : List Bytes → Except Bytes HelloOptions
  | [] => .ok read
  | option :: rest =>
    match textCommand option with
    | none => .error protocolError
    | some option =>
      if toAsciiUppercase option = ascii "AUTH" then
        if read.sawAuth then .error syntaxError
        else
          match rest with
          | username :: password :: rest =>
            let (authenticated, reply) :=
              handleAuthCommand [username, password] read.pendingAuthenticated
            if reply ≠ okReply then .error reply
            else
              readHelloOptions
                { read with sawAuth := true, pendingAuthenticated := authenticated } rest
          | _ => .error (wrongNumberOfArguments "hello")
      else if toAsciiUppercase option = ascii "SETNAME" then
        if read.sawSetname then .error syntaxError
        else
          match rest with
          | name :: rest =>
            match parseRedisClientName name with
            | some clientName =>
              readHelloOptions
                { read with sawSetname := true, pendingClientName := some clientName } rest
            | none => .error (ascii "-ERR invalid client name\r\n")
          | [] => .error (wrongNumberOfArguments "hello")
      else .error syntaxError

/-- The RESP version that a client asks for; `several` if options follow. -/
def helloVersion (protover : Str) (several : Bool) : Except Bytes Nat :=
  if protover = ascii "2" then .ok 2
  else if protover = ascii "3" then .ok 3
  else if several && !protover.all isAsciiDigit then .error (wrongNumberOfArguments "hello")
  else .error (ascii "-NOPROTO unsupported protocol version\r\n")

def helloResponse (args : List Bytes) (version : Str) : Connection × Bytes :=
  match args with
  | [] => (self, helloPayload version (if self.respVersion ≥ 3 then 3 else 2))
  | protover :: options =>
    match textCommand protover with
    | none => (self, protocolError)
    | some protover =>
      match helloVersion protover !options.isEmpty with
      | .error reply => (self, reply)
      | .ok respVersion =>
        match readHelloOptions ⟨false, false, none, self.authenticated⟩ options with
        | .error reply => (self, reply)
        | .ok read =>
          ({ self with
              authenticated :=
                if read.sawAuth then read.pendingAuthenticated else self.authenticated
              clientName := read.pendingClientName.getD self.clientName
              respVersion := respVersion },
            helloPayload version respVersion)

def helloHasAuth (args : List Bytes) : Bool :=
  (args.drop 1).any fun arg =>
    (textCommand arg).any fun value => eqIgnoreAsciiCase value (ascii "AUTH")

/-- The commands that concern the connection, and the others. -/
inductive CommandKind where
  | hello
  | auth
  | reset
  | quit
  | client
  | other
  deriving DecidableEq, Repr

def CommandKind.ofText (cmd : Str) : CommandKind :=
  if cmd = ascii "HELLO" then .hello
  else if cmd = ascii "AUTH" then .auth
  else if cmd = ascii "RESET" then .reset
  else if cmd = ascii "QUIT" then .quit
  else if cmd = ascii "CLIENT" then .client
  else .other

/-- The `match` over the command's name. -/
def execute (cmd : Str) (args : List Bytes) : Connection × Bytes :=
  match CommandKind.ofText cmd with
  | .hello => helloResponse self args handler.version
  | .auth =>
    let (authenticated, reply) := handleAuthCommand args self.authenticated
    ({ self with authenticated := authenticated }, reply)
  | .reset => handleResetCommand handler self args
  | .quit =>
    if args.isEmpty then ({ self with state := .disconnected }, okReply)
    else (self, wrongNumberOfArguments "quit")
  | .client => clientResponse self args
  | .other => (self, handler.respond cmd args)

/-- `CLIENT` with the given subcommand. -/
def isClientCommand (kind : CommandKind) (args : List Bytes) (subcommand : String) : Bool :=
  kind == .client && (args.head?.bind textCommand).any fun value =>
    eqIgnoreAsciiCase value (ascii subcommand)

/-- The command has to wait until the client has authenticated. -/
def refused (kind : CommandKind) (args : List Bytes) : Bool :=
  handler.requireAuth && !self.authenticated && kind != .auth && kind != .reset
    && !(kind == .hello && helloHasAuth args)

/-- What follows a command: a pending caching flag and a skipped reply are used up. -/
def epilogue (before after : Connection) (kind : CommandKind) (args : List Bytes) : Connection :=
  let after :=
    if before.tracking.caching.isSome && !isClientCommand kind args "CACHING" then
      setCaching after none
    else after
  if before.replyMode = .skip ∧ !isClientCommand kind args "REPLY" then
    { after with replyMode := .on }
  else after

@[simp]
theorem epilogue_authenticated (before after : Connection) (kind : CommandKind) (args : List Bytes)
    : (epilogue before after kind args).authenticated = after.authenticated := by
  simp only [epilogue, setCaching]
  split <;> split <;> rfl

@[simp]
theorem epilogue_state (before after : Connection) (kind : CommandKind) (args : List Bytes)
    : (epilogue before after kind args).state = after.state := by
  simp only [epilogue, setCaching]
  split <;> split <;> rfl

/-- One command: the connection after it, and the reply if there is one. -/
def handleParts (name : Bytes) (args : List Bytes) : Connection × Option Bytes :=
  match textCommand name with
  | none => (self, some protocolError)
  | some cmd =>
    let cmd := handler.toUppercase cmd
    let kind := CommandKind.ofText cmd
    if refused handler self kind args then (self, some noAuthReply)
    else
      let (after, resp) := execute handler self cmd args
      (epilogue self after kind args,
        if self.replyMode = .on ∧ resp ≠ [] then some resp else none)

/-- What the loop over the commands of a call collects. -/
structure Batch where
  response : Bytes
  (sawCommand sawReply : Bool)

def Batch.empty : Batch :=
  ⟨[], false, false⟩

def Batch.add (batch : Batch) : Option Bytes → Batch
  | some resp => ⟨batch.response ++ resp, true, true⟩
  | none => ⟨batch.response, true, batch.sawReply⟩

/-- The reply of a call on `data`. -/
def Batch.reply (batch : Batch) (data : Bytes) : Bytes :=
  if !batch.sawCommand && !data.isEmpty then protocolError
  else if !batch.sawReply then []
  else batch.response

def commandLoop (handler : RedisHandler)
    : Connection → Batch → List (List Bytes) → Connection × Batch
  | self, batch, [] => (self, batch)
  | self, batch, [] :: commands =>
    if self.state = .disconnected then (self, batch) else commandLoop handler self batch commands
  | self, batch, (name :: args) :: commands =>
    if self.state = .disconnected then (self, batch)
    else
      let (after, reply) := handleParts handler self name args
      commandLoop handler after (batch.add reply) commands

def handleCommandWithAuthState (data : Bytes)
    : Exec (Connection × Bytes) := do
  if self.state = .disconnected then
    return (self, [])
  let some commands ← parseResp data
    | return (self, if data.isEmpty then [] else protocolError)
  let (after, batch) := commandLoop handler self .empty commands
  return (after, batch.reply data)

/-- The calls of one connection, one after the other, with their replies. -/
def handleCalls (handler : RedisHandler)
    : Connection → List Bytes → Exec (Connection × List Bytes)
  | self, [] => return (self, [])
  | self, data :: calls => do
      let (after, reply) ← handleCommandWithAuthState handler self data
      let (last, replies) ← handleCalls handler after calls
      return (last, reply :: replies)

end NetTrap.Redis
