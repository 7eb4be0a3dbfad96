import NetTrap.Http.Syntax
import NetTrap.Rust.Net

/-! Request targets, authorities and host names as the HTTP parser checks them. -/

namespace NetTrap.Http

open Search Rust

/-- `core::parse::unsigned_decimal` at a type with the greatest value `limit`. -/
def unsignedDecimal (limit : Nat) (value : Str) : Option Nat :=
  if value.isEmpty || !value.all isAsciiDigit then none
  else if decimalValue value ≤ limit then some (decimalValue value)
  else none

def nonzeroPort (value : Str) : Option Nat :=
  (unsignedDecimal 65535 value).filter (· != 0)

def hasValidDomainLabels (value : Str) : Bool :=
  !value.isEmpty
    && (value.splitOn 46).all fun label =>
        !label.isEmpty && label.head? != some 45 && label.getLast? != some 45
          && label.length ≤ 63
          && label.all fun byte => isAsciiAlphanumeric byte || byte == 45

def hasNumericDomainLabels (value : Str) : Bool :=
  !value.isEmpty
    && (value.splitOn 46).all fun label => !label.isEmpty && label.all isAsciiDigit

def hasValidDomainLabelLengths (value : Str) : Bool :=
  (value.splitOn 46).all fun label => !label.isEmpty && label.length ≤ 63

def contains (text pattern : Str) : Bool :=
  (findSub pattern text).isSome

/-- The bytes in front of the first delimiter of an authority. -/
def beforeDelimiter (text : Str) : Str :=
  text.takeWhile fun byte => !(byte == 47 || byte == 92 || byte == 63 || byte == 35)

def absoluteHttpAuthority (value : Str) : Option Str :=
  match findSub (ascii "://") value with
  | none => none
  | some schemePos =>
    let scheme := value.take schemePos
    if !(eqIgnoreAsciiCase scheme (ascii "http") || eqIgnoreAsciiCase scheme (ascii "https")) then
      none
    else
      let authority := beforeDelimiter (value.drop (schemePos + 3))
      if authority.isEmpty then none else some authority

def isUsableIpv4Literal (ip : Ipv4Addr) : Bool :=
  !ip.isUnspecified && !ip.isLoopback && !ip.isMulticast && !ip.isBroadcast

def isUsableIpLiteral : IpAddr → Bool
  | .v4 ip => isUsableIpv4Literal ip
  | .v6 ip =>
    match ip.toIpv4Mapped with
    | some mapped => isUsableIpv4Literal mapped
    | none => !ip.isUnspecified && !ip.isLoopback && !ip.isMulticast

/-- The text is an IPv4 address that a server may be reached at. -/
def isUsableIpv4Text (text : Str) : Bool :=
  (parseIpv4Addr text).any isUsableIpv4Literal

/-- The text is an IPv6 address that a server may be reached at. -/
def isUsableIpv6Text (text : Str) : Bool :=
  (parseIpv6Addr text).any fun ip => isUsableIpLiteral (.v6 ip)

/-- A name without its final dot; a second dot in front of it is an error. -/
def withoutFinalDot (host : Str) : Option Str :=
  match stripSuffix 46 host with
  | some host => if host.isEmpty || host.getLast? == some 46 then none else some host
  | none => some host

/-- The checks that both kinds of host names share. -/
def isDomainName (forbidden host : Str) : Bool :=
  !host.any (forbidden.contains ·) && host.length ≤ 253 && hasValidDomainLabels host
    && hasValidDomainLabelLengths host && !hasNumericDomainLabels host

def hostIsValidAuthorityHost (host : Str) : Bool :=
  match withoutFinalDot host with
  | none => false
  | some host => isDomainName (ascii ":/\\?#") host

def isValidHttpHostName (host : Str) : Bool :=
  match withoutFinalDot host with
  | none => false
  | some host => !host.isEmpty && isDomainName (ascii ":@/\\?#") host

def isAuthorityFormTarget (value : Str) : Bool :=
  match rsplitOnce 58 value with
  | none => false
  | some (host, port) =>
    if host.isEmpty || (nonzeroPort port).isNone then false
    else
      match host with
      | 91 :: rest =>
        match splitOnce 93 rest with
        | none => false
        | some (inner, suffix) =>
          !inner.isEmpty && isUsableIpv6Text inner && suffix.isEmpty
      | _ =>
        !host.any ((ascii ":@/\\?#").contains ·)
          && (isUsableIpv4Text host || hostIsValidAuthorityHost host)

def isValidAuthorityPort (authority : Str) : Bool :=
  if authority.contains 64 then false
  else
    match authority with
    | 91 :: rest =>
      match splitOnce 93 rest with
      | none => false
      | some (inner, suffix) =>
        if inner.isEmpty || (!suffix.isEmpty && suffix.head? != some 58) then false
        else if suffix.isEmpty then isUsableIpv6Text inner
        else if suffix.tail.contains 58 then false
        else isUsableIpv6Text inner && (nonzeroPort suffix.tail).isSome
    | _ =>
      match rsplitOnce 58 authority with
      | some (host, port) =>
        if host.isEmpty then false
        else
          (isUsableIpv4Text host || hostIsValidAuthorityHost host)
            && (nonzeroPort port).isSome
      | none => isUsableIpv4Text authority || hostIsValidAuthorityHost authority

def isValidHttpTargetSyntax (value : Str) : Bool :=
  !value.isEmpty
    && value.all (fun byte => !isAsciiControl byte && !isAsciiWhitespace byte)
    && !(chars value).any (fun char => isControl char || isWhitespace char)
    && (value == ascii "*" || value.head? == some 47 || contains value (ascii "://")
      || isAuthorityFormTarget value)

def isValidHttpTargetForMethod (method value : Str) : Bool :=
  if !isValidHttpTargetSyntax value then false
  else if value == ascii "*" then eqIgnoreAsciiCase method (ascii "OPTIONS")
  else if eqIgnoreAsciiCase method (ascii "CONNECT") then isAuthorityFormTarget value
  else if isAuthorityFormTarget value then false
  else
    match absoluteHttpAuthority value with
    | some authority => isValidAuthorityPort authority
    | none => !contains value (ascii "://")

/-- The path components that remain once `.` and `..` have been followed. -/
def normalizedComponents (components : List Str) : List Str :=
  components.foldl (fun kept component =>
    if component == [] || component == ascii "." then kept
    else if component == ascii ".." then kept.dropLast
    else kept ++ [component]) []

def normalizeRequestTarget (target : Str) : Str :=
  if target == ascii "*" then target
  else if !target.contains 47 && !target.contains 92 && !target.contains 63
      && !target.contains 35 && !contains target (ascii "://") && target.contains 58 then
    target
  else
    let target := target.map fun byte => if byte == 92 then 47 else byte
    let path :=
      match findSub (ascii "://") target with
      | none => target
      | some schemePos =>
        let scheme := target.take schemePos
        if eqIgnoreAsciiCase scheme (ascii "http") || eqIgnoreAsciiCase scheme (ascii "https") then
          let rest := target.drop (schemePos + 3)
          match rest.findIdx? (· == 47) with
          | some pos => rest.drop pos
          | none => ascii "/"
        else target
    let path := path.takeWhile (· != 35)
    let path := path.takeWhile (· != 63)
    match normalizedComponents (path.splitOn 47) with
    | [] => ascii "/"
    | components => components.flatMap (47 :: ·)

def isTrailingDotIpv4Literal (host : Str) : Bool :=
  (stripSuffix 46 host).any fun host => (parseIpv4Addr host).isSome

def isNumericDomainName (host : Str) : Bool :=
  hasNumericDomainLabels ((stripSuffix 46 host).getD host)

end NetTrap.Http
