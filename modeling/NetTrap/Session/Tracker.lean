import Mathlib.Data.List.MinMax
import NetTrap.Rust.Collections
import NetTrap.Rust.NetFormat

/-! The tracker of network sessions.
Instants are counted in nanoseconds. Every reading of the clock is an argument of the
operation that makes it, since an operation may read the clock several times.
-/

namespace NetTrap.Session

open Rust

def u64Max : Nat := 2 ^ 64 - 1

/-- `u64::saturating_add`. -/
def saturatingAdd (left right : Nat) : Nat :=
  min (left + right) u64Max

/-- `Instant::duration_since`, which is zero for a later instant. -/
def durationSince (now earlier : Nat) : Nat :=
  now - earlier

def fromSecs (secs : Nat) : Nat :=
  1000000000 * secs

structure SocketAddr where
  ip : IpAddr
  port : UInt16
  deriving DecidableEq

structure SessionDestination where
  ip : Str
  port : UInt16
  deriving DecidableEq, Repr

structure SessionKey where
  srcIp : Str
  srcPort : UInt16
  dstIp : Str
  dstPort : UInt16
  protocol : Str
  deriving DecidableEq, Repr

def normalizeSessionIp : IpAddr → IpAddr
  | .v4 ip => .v4 ip
  | .v6 ip => ip.toIpv4Mapped.elim (.v6 ip) .v4

def normalizeSessionProtocol (protocol : Str) : Str :=
  let protocol := trimSpaceTab protocol
  if eqIgnoreAsciiCase protocol (ascii "TCP") then ascii "TCP"
  else if eqIgnoreAsciiCase protocol (ascii "UDP") then ascii "UDP"
  else protocol

def parseNormalizedSessionIp (ip : Str) : Option IpAddr :=
  (parseIpAddr ip).map normalizeSessionIp

def unknownSessionDestinationIpForPeer (peer : SocketAddr) : Str :=
  match normalizeSessionIp peer.ip with
  | .v4 _ => ascii "0.0.0.0"
  | .v6 _ => ascii "::"

def normalizeSessionDestinationIpForPeer (peer : SocketAddr) (ip : Str) : Str :=
  ((parseNormalizedSessionIp ip).map IpAddr.format).getD (unknownSessionDestinationIpForPeer peer)

def sessionKey (src : SocketAddr) (destination : SessionDestination) (protocol : Str)
    : SessionKey :=
  { srcIp := (normalizeSessionIp src.ip).format
    srcPort := src.port
    dstIp := normalizeSessionDestinationIpForPeer src destination.ip
    dstPort := destination.port
    protocol := normalizeSessionProtocol protocol }

structure SessionInfo where
  dstIp : Str
  dstPort : UInt16
  listener : Str
  processName : Option Str
  processPid : Option UInt32
  startedAt : Str
  (lastActivity bytesSent bytesReceived packets : Nat)
  deriving DecidableEq, Repr

abbrev Sessions := HashMap SessionKey SessionInfo

structure SessionTracker where
  sessions : Sessions
  (sessionTtlSecs lastCleanup cleanupIntervalSecs maxSessions : Nat)

def SessionTracker.new (now : Nat) : SessionTracker :=
  { sessions := .empty
    sessionTtlSecs := 3600
    lastCleanup := now
    cleanupIntervalSecs := 300
    maxSessions := 100000 }

/-- The readings of the clock that `register` makes, in its order. -/
structure RegisterClock where
  (now checked checkedAgain cleanup cleaned : Nat)
  deriving Repr

def enforceSessionCapacity (order : IterOrder (SessionKey × SessionInfo)) (sessions : Sessions)
    (maxSessions : Nat) : Sessions :=
  if maxSessions = 0 ∨ sessions.len < maxSessions then sessions
  else
    match (order.run sessions.toPairs).argmin fun entry => entry.2.lastActivity with
    | some oldest => sessions.remove oldest.1
    | none => sessions

namespace SessionTracker

variable (self : SessionTracker) (now : Nat)

def ttl : Nat :=
  fromSecs self.sessionTtlSecs

/-- The session has not been active for as long as its time to live. -/
def isExpired (info : SessionInfo) : Bool :=
  durationSince now info.lastActivity ≥ self.ttl

/-- The sessions that `cleanup_expired_keys` leaves. -/
def cleanupExpired : SessionTracker :=
  { self with sessions := self.sessions.retain fun _ info => !self.isExpired now info }

/-- The cleaned tracker, and the keys of the sessions that were removed. -/
def cleanupExpiredSessions (order : IterOrder (SessionKey × SessionInfo))
    : SessionTracker × List SessionKey :=
  (self.cleanupExpired now,
    ((order.run self.sessions.toPairs).filter fun entry => self.isExpired now entry.2).map Prod.fst)

def cleanupPeriodically (clock : RegisterClock) : SessionTracker :=
  if durationSince clock.checked self.lastCleanup > fromSecs self.cleanupIntervalSecs then
    if durationSince clock.checkedAgain self.lastCleanup > fromSecs self.cleanupIntervalSecs then
      { self.cleanupExpired clock.cleanup with lastCleanup := clock.cleaned }
    else self
  else self

/-- The first half of an operation on a key: its session is removed if it has expired. -/
def dropExpired (key : SessionKey) : SessionTracker :=
  if (self.sessions.get key).any (self.isExpired now) then
    { self with sessions := self.sessions.remove key }
  else self

def register (clock : RegisterClock) (order : IterOrder (SessionKey × SessionInfo))
    (startedAt : Str) (src : SocketAddr) (destination : SessionDestination)
    (listener protocol : Str) : SessionTracker × Bool :=
  let key := sessionKey src destination protocol
  let self := (self.cleanupPeriodically clock).dropExpired clock.now key
  match self.sessions.get key with
  | some session =>
    ({ self with sessions :=
        self.sessions.insert key { session with listener := listener, lastActivity := clock.now } },
      false)
  | none =>
    let info : SessionInfo :=
      { dstIp := normalizeSessionDestinationIpForPeer src destination.ip
        dstPort := destination.port
        listener := listener
        processName := none
        processPid := none
        startedAt := startedAt
        lastActivity := clock.now
        bytesSent := 0
        bytesReceived := 0
        packets := 0 }
    ({ self with sessions :=
        (enforceSessionCapacity order self.sessions self.maxSessions).insert key info }, true)

/-- Changes the live session of a key. -/
def modifyLive (key : SessionKey) (change : SessionInfo → SessionInfo) : SessionTracker :=
  let self := self.dropExpired now key
  match self.sessions.get key with
  | some session => { self with sessions := self.sessions.insert key (change session) }
  | none => self

variable (src : SocketAddr) (protocol : Str) (destination : SessionDestination)

def updateBytes (received sent : Nat) : SessionTracker :=
  self.modifyLive now (sessionKey src destination protocol) fun session =>
    { session with
      bytesReceived := saturatingAdd session.bytesReceived received
      bytesSent := saturatingAdd session.bytesSent sent
      packets := saturatingAdd session.packets 1
      lastActivity := now }

/-- `name` as `normalize_optional_process_name` leaves it. -/
def setProcess (name : Option Str) (pid : Option UInt32) : SessionTracker :=
  self.modifyLive now (sessionKey src destination protocol) fun session =>
    { session with processName := name, processPid := pid }

def getProcess : SessionTracker × Option (Option Str × Option UInt32) :=
  let self := self.cleanupExpired now
  (self, (self.sessions.get (sessionKey src destination protocol)).map fun session =>
    (session.processName, session.processPid))

def getOriginalDest : SessionTracker × Option (Str × UInt16) :=
  let self := self.cleanupExpired now
  (self, (self.sessions.get (sessionKey src destination protocol)).map fun session =>
    (session.dstIp, session.dstPort))

def getDestinationForPort (order : IterOrder (SessionKey × SessionInfo)) (src : SocketAddr)
    (protocol : Str) (dstPort : UInt16) : SessionTracker × Option SessionDestination :=
  let self := self.cleanupExpired now
  let protocol := normalizeSessionProtocol protocol
  let found := (order.run self.sessions.toPairs).filter fun entry =>
    entry.1.srcIp == (normalizeSessionIp src.ip).format && entry.1.srcPort == src.port
      && entry.1.protocol == protocol && entry.1.dstPort == dstPort
  (self,
    match found with
    | [(_, session)] => some ⟨session.dstIp, session.dstPort⟩
    | _ => none)

def remove : SessionTracker :=
  { self with sessions := self.sessions.remove (sessionKey src destination protocol) }

def activeCount : SessionTracker × Nat :=
  let self := self.cleanupExpired now
  (self, self.sessions.len)

end SessionTracker

inductive Operation where
  | register (clock : RegisterClock) (order : IterOrder (SessionKey × SessionInfo))
      (startedAt : Str) (src : SocketAddr) (destination : SessionDestination)
      (listener protocol : Str)
  | updateBytes (now : Nat) (src : SocketAddr) (protocol : Str) (destination : SessionDestination)
      (received sent : Nat)
  | cleanup (now : Nat) (order : IterOrder (SessionKey × SessionInfo))
  | setProcess (now : Nat) (src : SocketAddr) (protocol : Str) (destination : SessionDestination)
      (name : Option Str) (pid : Option UInt32)
  | remove (src : SocketAddr) (protocol : Str) (destination : SessionDestination)
  | getProcess (now : Nat) (src : SocketAddr) (protocol : Str) (destination : SessionDestination)
  | getOriginalDest (now : Nat) (src : SocketAddr) (protocol : Str)
      (destination : SessionDestination)
  | getDestinationForPort (now : Nat) (order : IterOrder (SessionKey × SessionInfo))
      (src : SocketAddr) (protocol : Str) (dstPort : UInt16)
  | activeCount (now : Nat)

def perform (tracker : SessionTracker) : Operation → SessionTracker
  | .register clock order startedAt src destination listener protocol =>
    (tracker.register clock order startedAt src destination listener protocol).1
  | .updateBytes now src protocol destination received sent =>
    tracker.updateBytes now src protocol destination received sent
  | .cleanup now order => (tracker.cleanupExpiredSessions now order).1
  | .setProcess now src protocol destination name pid =>
    tracker.setProcess now src protocol destination name pid
  | .remove src protocol destination => tracker.remove src protocol destination
  | .getProcess now src protocol destination => (tracker.getProcess now src protocol destination).1
  | .getOriginalDest now src protocol destination =>
    (tracker.getOriginalDest now src protocol destination).1
  | .getDestinationForPort now order src protocol dstPort =>
    (tracker.getDestinationForPort now order src protocol dstPort).1
  | .activeCount now => (tracker.activeCount now).1

def run (tracker : SessionTracker) (history : List Operation) : SessionTracker :=
  history.foldl perform tracker

end NetTrap.Session
