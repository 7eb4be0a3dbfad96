import NetTrap.Core.Sanitize
import NetTrap.Library.Exec
import NetTrap.Library.Octets

/-! How the live handler takes the question from a query. The messages themselves are decoded by a
library, whose operations are a parameter.
-/

namespace NetTrap.Dns

open Rust NetTrap.Core Access Octets

/-- A domain name of the library; a full name ends with the root. -/
structure Name where
  labels : List Bytes
  isFqdn : Bool
  deriving DecidableEq, Repr

structure Query where
  name : Name
  queryType : Nat
  deriving DecidableEq, Repr

structure Record where
  name : Name
  recordType : Nat
  deriving DecidableEq, Repr

inductive MessageType where
  | query
  | response
  deriving DecidableEq, Repr

/-- A decoded message. The library keeps the extension record away from the additional ones. -/
structure Message where
  messageType : MessageType
  opCode : Nat
  queries : List Query
  (answers authorities additionals : List Record)
  deriving DecidableEq, Repr

/-- The operations of the library; a panic while decoding is caught, and is a failure too. -/
structure Hickory where
  messageFromVec : Bytes → Option Message
  nameFromUtf8 : Str → Option Name
  nameToUtf8 : Name → Str
  recordTypeToString : Nat → Str

def maxDnsQueryAdditionals : Nat := 1
def dnsRecordTypeOpt : Nat := 41

def dnsSectionCounts (data : Bytes) : Option (List Nat) := do
  let counts ← getRange data 4 12
  some [be16At counts 0, be16At counts 2, be16At counts 4, be16At counts 6]

/-- Positions are given by the bytes behind them. -/
def dnsNameEnd : (budget : Nat) → Bytes → Option Bytes
  | 0, _ => none
  | _ + 1, [] => none
  | budget + 1, label :: rest =>
    if label = 0 then some rest
    else if label &&& 0xC0 = 0xC0 then getFrom rest 1
    else if label &&& 0xC0 ≠ 0 then none
    else if rest.length < label.toNat then none
    else dnsNameEnd budget (rest.drop label.toNat)

def hasOnlyEdnsAdditional (data : Bytes) (additionals : Nat) : Bool :=
  if additionals = 0 then true
  else
    match dnsNameEnd data.length (data.drop 12) with
    | none => false
    | some behindQuestionName =>
      match dnsNameEnd data.length (behindQuestionName.drop 4) with
      | none => false
      | some behindAdditionalName =>
        (getRange behindAdditionalName 0 2).any fun recordType =>
          be16At recordType 0 = dnsRecordTypeOpt

def safeMessageFromVec (hickory : Hickory) (data : Bytes) : Option Message :=
  match dnsSectionCounts data with
  | some [questions, answers, authorities, additionals] =>
    if !(questions = 1 && answers = 0 && authorities = 0 && additionals ≤ maxDnsQueryAdditionals)
        || !hasOnlyEdnsAdditional data additionals then none
    else hickory.messageFromVec data
  | _ => none

def normalizeDnsQueryDomain (hickory : Hickory) (value : Str) : Option Str :=
  let named (candidate : Str) : Option Str :=
    if containsUnicodeLineSeparator candidate then none
    else
      (hickory.nameFromUtf8 candidate).map fun name =>
        (trimEndMatches 46 (hickory.nameToUtf8 name)).map toAsciiLowercase
  match stripSuffix 46 value with
  | some candidate =>
    if candidate.isEmpty then some (ascii ".")
    else if candidate.getLast? = some 46 then none
    else named candidate
  | none => named value

def parseQuerySummary (hickory : Hickory) (query : Bytes) : Option (Str × Str) := do
  let message ← safeMessageFromVec hickory query
  guard (message.messageType = .query ∧ message.opCode = 0 ∧ message.queries.length = 1
    ∧ message.answers = [] ∧ message.authorities = [] ∧ message.additionals = [])
  let question ← message.queries.head?
  let domain ← normalizeDnsQueryDomain hickory (hickory.nameToUtf8 question.name)
  let queryType := hickory.recordTypeToString question.queryType
  some (domain, queryType)

end NetTrap.Dns
