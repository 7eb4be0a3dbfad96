import NetTrap.Nbi.Json

/-! The database copy of an event: the row that `insert_event` writes and the event that is
made of a row. The columns are taken to come back as they were written.
-/

namespace NetTrap.Storage

open Rust Net Nbi

/-- Decimal text of an `i64`. -/
def integer : Int → Text
  | .ofNat number => .decimal number
  | .negSucc number => '-' :: Text.decimal (number + 1)

/-- `serde_json` on the indicators: what it writes, it reads back. -/
structure IndicatorsJson (ι : Type) where
  toJson : Indicators → ι
  fromStr : ι → Except Text Indicators
  fromStr_toJson : ∀ indicators, fromStr (toJson indicators) = .ok indicators

/-- A row, without the run it belongs to. -/
structure StoredEvent (ι : Type) where
  id : Int
  (eventId timestamp nodeId listener protocol srcIp : Text)
  srcPort : Int
  dstIp : Text
  dstPort : Int
  processName : Option Text
  processPid : Option Int
  indicators : ι

/-- The database behind a storage, with the node that it stores events for. -/
inductive DatabaseBackend where
  | sqlite (nodeId : Text)
  | postgres (nodeId : Text)

variable {ι : Type} (json : IndicatorsJson ι) (timestampError : Text → Option Text)

/-! Insertion. -/

def normalizeLegacyNbiEventForValidation (event : NetworkBehaviorIndicator)
    : NetworkBehaviorIndicator :=
  { event with eventId := event.normalizedEventId }

def validateForInsertion (event : NetworkBehaviorIndicator) : Except Text Unit :=
  (event.validateResourceBounds timestampError).mapError fun error =>
    .lit "NBI validation failed: " ++ parseError error

variable (id : Int) (nodeId : Text) (field : String)

/-- The columns of an event, in the row that the database gives number `id`. -/
def row (event : NetworkBehaviorIndicator) (processPid : Option Int)
    : StoredEvent ι where
  id
  eventId := event.eventId
  timestamp := event.timestamp
  nodeId
  listener := event.listener
  protocol := event.protocol
  srcIp := event.srcIp
  srcPort := event.srcPort.toNat
  dstIp := event.dstIp
  dstPort := event.dstPort.toNat
  processName := event.processName
  processPid
  indicators := json.toJson event.indicators

def postgresProcessPidParam : Option UInt32 → Except Text (Option Int)
  | none => .ok none
  | some pid =>
    if pid.toNat < 2 ^ 31 then .ok (some pid.toNat)
    else
      .error (.lit "process_pid " ++ .decimal pid.toNat
        ++ .lit " exceeds PostgreSQL INTEGER range")

/-- `PostgresStorage::insert_event`. -/
def postgresInsertEvent (event : NetworkBehaviorIndicator)
    : Except Text (StoredEvent ι) := do
  let event := normalizeLegacyNbiEventForValidation event
  validateForInsertion timestampError event
  let processPid ← postgresProcessPidParam event.processPid
  return row json id nodeId event processPid

def DatabaseBackend.insertEvent (self : DatabaseBackend) (id : Int)
    (event : NetworkBehaviorIndicator)
    : Except Text (StoredEvent ι) := do
  let event := normalizeLegacyNbiEventForValidation event
  validateForInsertion timestampError event
  match self with
  | .sqlite nodeId =>
    return row json id nodeId event (event.processPid.map fun pid => (pid.toNat : Int))
  | .postgres nodeId => postgresInsertEvent json timestampError id nodeId event

/-! Reload. -/

def trimAsciiEdges (value : Text) : Text :=
  value.trimMatches fun char =>
    char == ' ' || char == '\t' || char == '\r' || char == '\n' || char == '\x0C'

/-- The message about one stored event. -/
def storedEventError (nodeId message : Text) : Text :=
  .lit "stored event " ++ integer id ++ .lit " for node '" ++ nodeId ++ .lit "' " ++ message

def validatePort (value : Int) : Except Text UInt16 :=
  if 0 ≤ value ∧ value < 2 ^ 16 then .ok (UInt16.ofNat value.toNat)
  else
    .error (storedEventError id nodeId
      (.lit "has invalid " ++ .lit field ++ .lit ": " ++ integer value))

def validateProcessPid (value : Int) : Except Text UInt32 :=
  if 0 ≤ value ∧ value < 2 ^ 32 then .ok (UInt32.ofNat value.toNat)
  else
    .error (storedEventError id nodeId (.lit "has invalid process_pid: " ++ integer value))

def invalidStoredIp (ip : Text) : Text :=
  storedEventError id nodeId
    (.lit "has invalid " ++ .lit field ++ .lit " '" ++ ip
      ++ .lit "': invalid IP address syntax")

def canonicalizeStoredEventIp (ip : Text) : Except Text Text :=
  match parseIp ip with
  | none => .error (invalidStoredIp id nodeId field ip)
  | some (.v4 ip) => .ok (formatIp (.v4 ip))
  | some (.v6 ip) =>
    match ip.toIpv4Mapped with
    | some mapped => .ok (formatIp (.v4 mapped))
    | none => .ok (formatIp (.v6 ip))

/-- `Ipv6Addr::UNSPECIFIED`. -/
def ipv6Unspecified : Ipv6Addr :=
  .ofGroups []

def canonicalizeStoredEventDestinationIp (nodeId srcIp dstIp : Text)
    : Except Text Text := do
  let dstIp ← canonicalizeStoredEventIp id nodeId "dst_ip" dstIp
  if dstIp ≠ .lit "0.0.0.0" then return dstIp
  else
    match parseIp srcIp with
    | none => throw (invalidStoredIp id nodeId "src_ip" srcIp)
    | some (.v4 _) => return dstIp
    | some (.v6 _) => return formatIp (.v6 ipv6Unspecified)

def StoredEvent.tryIntoNetworkBehaviorIndicator (self : StoredEvent ι)
    : Except Text NetworkBehaviorIndicator := do
  let srcPort ← validatePort self.id self.nodeId "src_port" self.srcPort
  let dstPort ← validatePort self.id self.nodeId "dst_port" self.dstPort
  let processPid ← self.processPid.mapM (validateProcessPid self.id self.nodeId)
  let indicators ← (json.fromStr self.indicators).mapError fun error =>
    storedEventError self.id self.nodeId (.lit "has invalid indicators JSON: " ++ error)
  let srcIp ← canonicalizeStoredEventIp self.id self.nodeId "src_ip" self.srcIp
  let dstIp ← canonicalizeStoredEventDestinationIp self.id self.nodeId srcIp self.dstIp
  let event : NetworkBehaviorIndicator :=
    { eventId := self.eventId
      timestamp := self.timestamp
      listener := trimAsciiEdges self.listener
      protocol := (trimAsciiEdges self.protocol).toAsciiUppercase
      srcIp, srcPort, dstIp, dstPort
      processName := normalizeOptionalProcessName self.processName
      processPid, indicators }
  let event := { event with eventId := event.normalizedEventId }
  (event.validateResourceBounds timestampError).mapError fun error =>
    storedEventError self.id self.nodeId (.lit "failed NBI validation: " ++ parseError error)
  return event

end NetTrap.Storage
