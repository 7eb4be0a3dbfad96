import NetTrap.Rust.Text

/-! What a Redis connection keeps between commands, and the texts of the replies that more
than one command gives.
-/

namespace NetTrap.Redis

open Rust

inductive ClientReplyMode where
  | on
  | off
  | skip
  deriving DecidableEq, Repr

inductive RedisState where
  | connected
  | authenticated
  | disconnected
  deriving DecidableEq, Repr

/-- The `client_tracking_*` fields of a connection. -/
structure Tracking where
  (enabled bcast optin optout noloop : Bool)
  redirect : Int
  prefixes : List Str
  caching : Option Bool
  brokenRedir : Bool
  deriving DecidableEq, Repr

/-- Client tracking that is switched off. -/
def Tracking.disabled : Tracking :=
  { enabled := false
    bcast := false
    optin := false
    optout := false
    noloop := false
    redirect := -1
    prefixes := []
    caching := none
    brokenRedir := false }

/-- The mutable fields of a handler, with the authentication flag that its caller keeps. -/
structure Connection where
  (clientName clientLibName clientLibVer : Option Str)
  replyMode : ClientReplyMode
  (noEvict noTouch : Bool)
  tracking : Tracking
  respVersion : Nat
  state : RedisState
  authenticated : Bool
  deriving DecidableEq, Repr

/-- A handler's configuration. The commands that neither read nor change the connection are
given by their reply `respond`, at one reading of the clock. -/
structure RedisHandler where
  version : Str
  requireAuth : Bool
  /-- `str::to_uppercase`, which goes by the tables of Unicode. -/
  toUppercase : Str → Str
  respond : Str → List Bytes → Bytes

def RedisHandler.new (handler : RedisHandler) : Connection :=
  { clientName := none
    clientLibName := none
    clientLibVer := none
    replyMode := .on
    noEvict := false
    noTouch := false
    tracking := .disabled
    respVersion := 2
    state := .connected
    authenticated := !handler.requireAuth }

def toAsciiUppercase (text : Str) : Str :=
  text.map fun byte => if isAsciiLowercase byte then byte - 32 else byte

/-- A handler that knows no other commands and only ASCII letters. -/
def RedisHandler.bare (requireAuth : Bool) : RedisHandler :=
  { version := ascii "7.0.15"
    requireAuth := requireAuth
    toUppercase := toAsciiUppercase
    respond := fun _ _ => ascii "-ERR unknown command\r\n" }

def textCommand (value : Bytes) : Option Str :=
  fromUtf8 value

def okReply : Bytes :=
  ascii "+OK\r\n"

def noAuthReply : Bytes :=
  ascii "-NOAUTH Authentication required.\r\n"

def protocolError : Bytes :=
  ascii "-ERR Protocol error\r\n"

def syntaxError : Bytes :=
  ascii "-ERR syntax error\r\n"

def wrongNumberOfArguments (command : String) : Bytes :=
  ascii "-ERR wrong number of arguments for '" ++ ascii command ++ ascii "' command\r\n"

/-- A number as `format!` writes it. -/
def formatInt (value : Int) : Bytes :=
  if value < 0 then ascii "-" ++ numeral 10 value.natAbs else numeral 10 value.natAbs

/-- `${}\r\n{}\r\n`. -/
def respBulkString (value : Bytes) : Bytes :=
  ascii "$" ++ numeral 10 value.length ++ crlf ++ value ++ crlf

def respBulkArray (values : List Bytes) : Bytes :=
  ascii "*" ++ numeral 10 values.length ++ crlf ++ values.flatMap respBulkString

/-! The `CLIENT` command.
Every subcommand takes the connection and gives it back with the reply.
-/

def maxClientTrackingPrefixes : Nat := 128
def maxClientTrackingPrefixBytes : Nat := 1024

def parseUnsignedDecimal (value : Bytes) (largest : Nat) : Option Nat :=
  match fromUtf8 value with
  | none => none
  | some text =>
    if text.isEmpty || !text.all isAsciiDigit then none
    else if decimalValue text ≤ largest then some (decimalValue text) else none

def i64Max : Nat := 2 ^ 63 - 1

inductive TrackingOption where
  | redirect
  | keyed
  | bcast
  | optin
  | optout
  | noloop
  deriving DecidableEq, Repr

def TrackingOption.ofText (option : Str) : Option TrackingOption :=
  let option := toAsciiUppercase option
  if option = ascii "REDIRECT" then some .redirect
  else if option = ascii "PREFIX" then some .keyed
  else if option = ascii "BCAST" then some .bcast
  else if option = ascii "OPTIN" then some .optin
  else if option = ascii "OPTOUT" then some .optout
  else if option = ascii "NOLOOP" then some .noloop
  else none

/-- The options of `CLIENT TRACKING ON`, as far as they have been read. -/
structure TrackingOptions where
  (bcast optin optout noloop : Bool := false)
  redirect : Int := 0
  prefixes : List Str := []
  deriving DecidableEq, Repr

def invalidRedirect : Bytes :=
  ascii "-ERR invalid redirect id\r\n"

def tooManyPrefixes : Bytes :=
  ascii "-ERR too many client tracking prefixes\r\n"

def overlappingPrefixes : Bytes :=
  ascii "-ERR Prefixes for a single client must not overlap.\r\n"

def readRedirect (value : Str) : Except Bytes Int :=
  match parseUnsignedDecimal value i64Max with
  | none => .error invalidRedirect
  | some redirect =>
    if redirect ≤ 0 ∨ redirect > 1 then .error invalidRedirect
    else .ok (if redirect = 1 then 0 else redirect)

def addPrefix (read : TrackingOptions) (value : Str) : Except Bytes TrackingOptions :=
  if value.length > maxClientTrackingPrefixBytes then
    .error (ascii "-ERR client tracking prefix too large\r\n")
  else if read.prefixes.length ≥ maxClientTrackingPrefixes then .error tooManyPrefixes
  else .ok { read with prefixes := read.prefixes ++ [value] }

/-- The loop over the options; an option with a value takes two arguments. -/
def readTrackingOptions (read : TrackingOptions) : List Bytes → Except Bytes TrackingOptions
  | [] => .ok read
  | option :: rest =>
    match textCommand option with
    | none => .error protocolError
    | some option =>
      match TrackingOption.ofText option with
      | some .redirect =>
        match rest with
        | [] => .error (wrongNumberOfArguments "client|tracking")
        | value :: rest =>
          match textCommand value with
          | none => .error protocolError
          | some value => do
              let redirect ← readRedirect value
              readTrackingOptions { read with redirect := redirect } rest
      | some .keyed =>
        match rest with
        | [] => .error (wrongNumberOfArguments "client|tracking")
        | value :: rest =>
          match textCommand value with
          | none => .error protocolError
          | some value => do
              let read ← addPrefix read value
              readTrackingOptions read rest
      | some .bcast => readTrackingOptions { read with bcast := true } rest
      | some .optin => readTrackingOptions { read with optin := true, optout := false } rest
      | some .optout => readTrackingOptions { read with optout := true, optin := false } rest
      | some .noloop => readTrackingOptions { read with noloop := true } rest
      | none => .error syntaxError

def prefixesOverlap (left right : Str) : Bool :=
  right.isPrefixOf left || left.isPrefixOf right

def prefixesHaveOverlap : List Str → Bool
  | [] => false
  | first :: rest => rest.any (prefixesOverlap first) || prefixesHaveOverlap rest

/-- The loop that adds the new prefixes to those of the connection. -/
def mergePrefixes (merged : List Str) : List Str → Except Bytes (List Str)
  | [] => .ok merged
  | added :: rest =>
    if merged.any fun existing => prefixesOverlap existing added then .error overlappingPrefixes
    else if merged.length ≥ maxClientTrackingPrefixes then .error tooManyPrefixes
    else mergePrefixes (merged ++ [added]) rest

/-- Without a prefix, broadcasting goes by the empty one. -/
def orEmptyPrefix (prefixes : List Str) : List Str :=
  if prefixes.isEmpty then [[]] else prefixes

/-- The prefixes that broadcasting goes by. -/
def broadcastPrefixes (existing added : List Str) : Except Bytes (List Str) :=
  if prefixesHaveOverlap added then .error overlappingPrefixes
  else do
    let merged ← mergePrefixes existing added
    if added.isEmpty && !(orEmptyPrefix merged).any (·.isEmpty) then .error overlappingPrefixes
    else .ok (orEmptyPrefix merged)

/-- The prefixes of a connection after `CLIENT TRACKING ON`; only broadcasting changes them. -/
def chosenPrefixes (tracking : Tracking) (read : TrackingOptions) : Except Bytes (List Str) :=
  if read.bcast then broadcastPrefixes tracking.prefixes read.prefixes else .ok tracking.prefixes

/-- `CLIENT TRACKING ON` on the tracking fields. -/
def trackingOn (tracking : Tracking) (options : List Bytes) : Except Bytes Tracking := do
  let read ← readTrackingOptions {} options
  let prefixes ← chosenPrefixes tracking read
  .ok
    { enabled := true
      bcast := read.bcast
      optin := read.optin
      optout := read.optout
      noloop := read.noloop
      redirect := read.redirect
      prefixes := prefixes
      caching := none
      brokenRedir := false }

/-- The new tracking fields with the reply, or an error that leaves them as they are. -/
def trackingChange (tracking : Tracking) : List Bytes → Except Bytes Tracking
  | [] => .error (wrongNumberOfArguments "client|tracking")
  | mode :: options =>
    match textCommand mode with
    | none => .error protocolError
    | some mode =>
      if toAsciiUppercase mode = ascii "ON" then trackingOn tracking options
      else if toAsciiUppercase mode = ascii "OFF" then
        if options.isEmpty then .ok .disabled
        else .error (wrongNumberOfArguments "client|tracking")
      else .error syntaxError

variable (self : Connection)

def clientTrackingResponse (rest : List Bytes) : Connection × Bytes :=
  match trackingChange self.tracking rest with
  | .ok tracking => ({ self with tracking := tracking }, okReply)
  | .error reply => (self, reply)

def clientTrackingFlags (tracking : Tracking) : List Str :=
  [ascii (if tracking.enabled then "on" else "off")]
    ++ (if tracking.bcast then [ascii "bcast"] else [])
    ++ (if tracking.optin then [ascii "optin"] else [])
    ++ (if tracking.optout then [ascii "optout"] else [])
    ++ (match tracking.caching with
        | some caching =>
          if tracking.optin && caching then [ascii "caching-yes"]
          else if tracking.optout && !caching then [ascii "caching-no"] else []
        | none => [])
    ++ (if tracking.noloop then [ascii "noloop"] else [])
    ++ (if tracking.brokenRedir then [ascii "broken_redirect"] else [])

def clientTrackingInfoPayload : Bytes :=
  ascii (if self.respVersion ≥ 3 then "%3\r\n" else "*6\r\n")
    ++ respBulkString (ascii "flags") ++ respBulkArray (clientTrackingFlags self.tracking)
    ++ respBulkString (ascii "redirect")
    ++ (ascii ":" ++ formatInt self.tracking.redirect ++ crlf)
    ++ respBulkString (ascii "prefixes") ++ respBulkArray self.tracking.prefixes

def clientFlags : Str :=
  let flags := ascii (if self.noEvict then "e" else "")
    ++ ascii (if self.tracking.enabled then "t" else "")
    ++ ascii (if self.noTouch then "T" else "")
    ++ ascii (if self.tracking.brokenRedir then "R" else "")
    ++ ascii (if self.tracking.bcast then "B" else "")
  if flags.isEmpty then ascii "N" else flags

def redisClientPayload (command : String) : Str :=
  ascii "id=1 addr=127.0.0.1:0 laddr=127.0.0.1:0 fd=1 name=" ++ self.clientName.getD []
    ++ ascii " age=0 idle=0 flags=" ++ clientFlags self
    ++ ascii (" db=0 sub=0 psub=0 ssub=0 multi=-1 watch=0 qbuf=0 qbuf-free=0"
      ++ " argv-mem=0 multi-mem=0 rbs=0 rbp=0 obl=0 oll=0 omem=0 tot-mem=0 events=r cmd=")
    ++ ascii command ++ ascii " user=default redir=" ++ formatInt self.tracking.redirect
    ++ ascii " resp=" ++ numeral 10 self.respVersion
    ++ ascii " lib-name=" ++ self.clientLibName.getD []
    ++ ascii " lib-ver=" ++ self.clientLibVer.getD []
    ++ ascii " io-thread=0 tot-net-in=0 tot-net-out=0 tot-cmds=0"

def hasBlank (value : Str) : Bool :=
  (chars value).any fun char => isWhitespace char || isControl char

/-- A text without blanks; what stands for an empty one differs. -/
def parseUnblankText (whenEmpty : Option Str) (value : Bytes) : Option (Option Str) :=
  if value.isEmpty then some whenEmpty
  else
    match fromUtf8 value with
    | none => none
    | some value => if hasBlank value then none else some (some value)

def parseRedisClientName (value : Bytes) : Option (Option Str) :=
  parseUnblankText none value

def parseRedisClientInfoValue (value : Bytes) : Option (Option Str) :=
  parseUnblankText (some []) value

inductive ClientSubcommand where
  | setname
  | setinfo
  | reply
  | caching
  | tracking
  | trackinginfo
  | noEvict
  | noTouch
  | id
  | info
  | getname
  | getredir
  | list
  | help
  | unknown
  deriving DecidableEq, Repr

/-- The subcommands by their names. -/
def ClientSubcommand.names : List (Str × ClientSubcommand) :=
  [(ascii "SETNAME", .setname), (ascii "SETINFO", .setinfo), (ascii "REPLY", .reply),
    (ascii "CACHING", .caching), (ascii "TRACKING", .tracking),
    (ascii "TRACKINGINFO", .trackinginfo), (ascii "NO-EVICT", .noEvict),
    (ascii "NO-TOUCH", .noTouch), (ascii "ID", .id), (ascii "INFO", .info),
    (ascii "GETNAME", .getname), (ascii "GETREDIR", .getredir), (ascii "LIST", .list),
    (ascii "HELP", .help)]

def ClientSubcommand.ofText (text : Str) : ClientSubcommand :=
  ((names.find? fun entry => entry.1 = toAsciiUppercase text).map Prod.snd).getD .unknown

def clientSetname : List Bytes → Connection × Bytes
  | [name] =>
    match parseRedisClientName name with
    | some clientName => ({ self with clientName := clientName }, okReply)
    | none => (self, ascii "-ERR invalid client name\r\n")
  | _ => (self, wrongNumberOfArguments "client|setname")

def clientSetinfo : List Bytes → Connection × Bytes
  | [attr, value] =>
    match textCommand attr with
    | none => (self, protocolError)
    | some attr =>
      match parseRedisClientInfoValue value with
      | none => (self, ascii "-ERR invalid client info value\r\n")
      | some value =>
        if toAsciiUppercase attr = ascii "LIB-NAME" then
          ({ self with clientLibName := value }, okReply)
        else if toAsciiUppercase attr = ascii "LIB-VER" then
          ({ self with clientLibVer := value }, okReply)
        else (self, ascii "-ERR invalid client info attribute\r\n")
  | _ => (self, wrongNumberOfArguments "client|setinfo")

def clientReply : List Bytes → Connection × Bytes
  | [mode] =>
    match textCommand mode with
    | none => (self, protocolError)
    | some mode =>
      if toAsciiUppercase mode = ascii "ON" then ({ self with replyMode := .on }, okReply)
      else if toAsciiUppercase mode = ascii "OFF" then ({ self with replyMode := .off }, [])
      else if toAsciiUppercase mode = ascii "SKIP" then ({ self with replyMode := .skip }, [])
      else (self, ascii "-ERR invalid CLIENT REPLY mode\r\n")
  | _ => (self, wrongNumberOfArguments "client|reply")

def setCaching (caching : Option Bool) : Connection :=
  { self with tracking := { self.tracking with caching := caching } }

def clientCaching : List Bytes → Connection × Bytes
  | [mode] =>
    match textCommand mode with
    | none => (self, protocolError)
    | some mode =>
      let yes := eqIgnoreAsciiCase mode (ascii "YES")
      let no := eqIgnoreAsciiCase mode (ascii "NO")
      if yes || no then
        if !self.tracking.enabled || !(self.tracking.optin || self.tracking.optout) then
          (self, ascii ("-ERR CLIENT CACHING can only be called when tracking is enabled in"
            ++ " OPTIN or OPTOUT mode\r\n"))
        else if yes && !self.tracking.optin then
          (self, ascii ("-ERR CLIENT CACHING YES can only be called when tracking is"
            ++ " enabled in OPTIN mode\r\n"))
        else if no && !self.tracking.optout then
          (self, ascii ("-ERR CLIENT CACHING NO can only be called when tracking is"
            ++ " enabled in OPTOUT mode\r\n"))
        else (setCaching self (some yes), okReply)
      else (self, ascii "-ERR argument must be yes or no\r\n")
  | _ => (self, wrongNumberOfArguments "client|caching")

/-- `CLIENT NO-EVICT` and `CLIENT NO-TOUCH`. -/
def clientSwitch (set : Bool → Connection) (command : String) (invalidMode : Bytes)
    : List Bytes → Connection × Bytes
  | [mode] =>
    match textCommand mode with
    | none => (self, protocolError)
    | some mode =>
      if toAsciiUppercase mode = ascii "ON" then (set true, okReply)
      else if toAsciiUppercase mode = ascii "OFF" then (set false, okReply)
      else (self, invalidMode)
  | _ => (self, wrongNumberOfArguments command)

def clientNoEvict : List Bytes → Connection × Bytes :=
  clientSwitch self (fun value => { self with noEvict := value }) "client|no-evict"
    (ascii "-ERR invalid CLIENT NO-EVICT mode\r\n")

def clientNoTouch : List Bytes → Connection × Bytes :=
  clientSwitch self (fun value => { self with noTouch := value }) "client|no-touch"
    (ascii "-ERR invalid CLIENT NO-TOUCH mode\r\n")

/-- A subcommand without arguments that only reports. -/
def clientReport (rest : List Bytes) (command : String) (report : Bytes) : Bytes :=
  if rest.isEmpty then report else wrongNumberOfArguments command

def clientHelp : Bytes :=
  ascii ("*14\r\n$7\r\nGETNAME\r\n$2\r\nID\r\n$4\r\nINFO\r\n$4\r\nLIST\r\n$7\r\nSETINFO\r\n"
    ++ "$7\r\nSETNAME\r\n$8\r\nGETREDIR\r\n$7\r\nCACHING\r\n$6\r\nREPLY\r\n"
    ++ "$8\r\nNO-TOUCH\r\n$8\r\nNO-EVICT\r\n$8\r\nTRACKING\r\n$12\r\nTRACKINGINFO\r\n"
    ++ "$4\r\nHELP\r\n")

def clientResponse : List Bytes → Connection × Bytes
  | [] => (self, wrongNumberOfArguments "client")
  | subcommand :: rest =>
    match textCommand subcommand with
    | none => (self, protocolError)
    | some subcommand =>
      match ClientSubcommand.ofText subcommand with
      | .setname => clientSetname self rest
      | .setinfo => clientSetinfo self rest
      | .reply => clientReply self rest
      | .caching => clientCaching self rest
      | .tracking => clientTrackingResponse self rest
      | .trackinginfo =>
        (self, clientReport rest "client|trackinginfo" (clientTrackingInfoPayload self))
      | .noEvict => clientNoEvict self rest
      | .noTouch => clientNoTouch self rest
      | .id => (self, clientReport rest "client|id" (ascii ":1\r\n"))
      | .info =>
        (self, clientReport rest "client|info"
          (respBulkString (redisClientPayload self "client|info")))
      | .getname =>
        (self, clientReport rest "client|getname"
          (match self.clientName with
            | some name => respBulkString name
            | none => ascii "$-1\r\n"))
      | .getredir =>
        (self, clientReport rest "client|getredir"
          (ascii ":" ++ formatInt self.tracking.redirect ++ crlf))
      | .list =>
        (self, clientReport rest "client|list"
          (respBulkString (redisClientPayload self "client|list")))
      | .help => (self, clientReport rest "client|help" clientHelp)
      | .unknown => (self, ascii "-ERR unknown CLIENT subcommand\r\n")

end NetTrap.Redis
