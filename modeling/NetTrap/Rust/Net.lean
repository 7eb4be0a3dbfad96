import NetTrap.Rust.Text

/-! Internet addresses: the octets behind the types of `std::net`, and the texts that
its parser reads.
-/

namespace NetTrap.Rust

structure Ipv4Addr where
  octets : Bytes
  size : octets.length = 4
  deriving DecidableEq, Repr

structure Ipv6Addr where
  octets : Bytes
  size : octets.length = 16
  deriving DecidableEq, Repr

inductive IpAddr where
  | v4 (addr : Ipv4Addr)
  | v6 (addr : Ipv6Addr)
  deriving DecidableEq, Repr

namespace Ipv4Addr

/-- `Ipv4Addr::new`. -/
def new (a b c d : UInt8) : Ipv4Addr :=
  ⟨[a, b, c, d], rfl⟩

variable (addr : Ipv4Addr)

def isUnspecified : Bool :=
  addr.octets.all (· == 0)

def isLoopback : Bool :=
  addr.octets.headD 0 == 127

def isMulticast : Bool :=
  224 ≤ addr.octets.headD 0 && addr.octets.headD 0 ≤ 239

def isBroadcast : Bool :=
  addr.octets.all (· == 255)

/-- `10.0.0.0/8`, `172.16.0.0/12` and `192.168.0.0/16`. -/
def isPrivate : Bool :=
  match addr.octets with
  | a :: b :: _ => a == 10 || (a == 172 && 16 ≤ b && b ≤ 31) || (a == 192 && b == 168)
  | _ => false

def isLinkLocal : Bool :=
  addr.octets.take 2 == [169, 254]

end Ipv4Addr

namespace Ipv6Addr

/-- The address with the given 16-bit groups; missing ones are zero. -/
def ofGroups (groups : List Nat) : Ipv6Addr where
  octets :=
    (groups.flatMap (fun group => [UInt8.ofNat (group / 256), UInt8.ofNat (group % 256)])
      ++ List.replicate 16 0).take 16
  size := by simp

def isUnspecified (addr : Ipv6Addr) : Bool :=
  addr.octets.all (· == 0)

def isLoopback (addr : Ipv6Addr) : Bool :=
  addr.octets == List.replicate 15 0 ++ [1]

def isMulticast (addr : Ipv6Addr) : Bool :=
  addr.octets.headD 0 == 255

/-- `Ipv6Addr::to_ipv4_mapped`: the last four octets of `::ffff:a.b.c.d`. -/
def toIpv4Mapped (addr : Ipv6Addr) : Option Ipv4Addr :=
  if addr.octets.take 12 = List.replicate 10 0 ++ [255, 255] then
    some ⟨addr.octets.drop 12, by rw [List.length_drop, addr.size]⟩
  else none

end Ipv6Addr

def IpAddr.isLoopback : IpAddr → Bool
  | .v4 addr => addr.isLoopback
  | .v6 addr => addr.isLoopback

/-- Reads a number of at most `maxDigits` digits and at most `limit`. -/
def readNumber (isDigit : UInt8 → Bool) (value : Bytes → Nat) (maxDigits : Nat)
    (allowZeroPrefix : Bool) (limit : Nat) (text : Bytes) : Option (Nat × Bytes) :=
  let digits := text.takeWhile isDigit
  if digits.length > maxDigits || digits.isEmpty then none
  else if !allowZeroPrefix && digits.headD 0 == 48 && digits.length > 1 then none
  else if value digits > limit then none
  else some (value digits, text.dropWhile isDigit)

/-- Reads a separator in front of every part but the first one. -/
def readSeparator {α : Type} (separator : UInt8) (index : Nat)
    (inner : Bytes → Option (α × Bytes)) (text : Bytes) : Option (α × Bytes) :=
  if index = 0 then inner text
  else
    match text with
    | [] => none
    | byte :: rest => if byte == separator then inner rest else none

def readIpv4Octet (index : Nat) (text : Bytes) : Option (Nat × Bytes) :=
  readSeparator 46 index (readNumber isAsciiDigit decimalValue 3 false 255) text

def readIpv4Addr (text : Bytes) : Option (Ipv4Addr × Bytes) := do
  let (a, text) ← readIpv4Octet 0 text
  let (b, text) ← readIpv4Octet 1 text
  let (c, text) ← readIpv4Octet 2 text
  let (d, text) ← readIpv4Octet 3 text
  return (.new (.ofNat a) (.ofNat b) (.ofNat c) (.ofNat d), text)

/-- An embedded IPv4 address as the two groups it stands for. -/
def readEmbeddedIpv4 (text : Bytes) : Option (List Nat × Bytes) :=
  (readIpv4Addr text).map fun (addr, rest) =>
    match addr.octets with
    | [a, b, c, d] => ([u16FromBeBytes a b, u16FromBeBytes c d], rest)
    | _ => ([], rest)

/-- Reads up to `left` groups from number `index` on. The result says whether an
embedded IPv4 address, which needs the room of two groups, ended them.
-/
def readGroups : (left index : Nat) → Bytes → List Nat × Bool × Bytes
  | 0, _, text => ([], false, text)
  | left + 1, index, text =>
    let embedded := if 0 < left then readSeparator 58 index readEmbeddedIpv4 text else none
    match embedded with
    | some (groups, rest) => (groups, true, rest)
    | none =>
      match readSeparator 58 index (readNumber isAsciiHexdigit hexValue 4 true 65535) text with
      | none => ([], false, text)
      | some (group, rest) =>
        let (groups, ipv4, rest) := readGroups left (index + 1) rest
        (group :: groups, ipv4, rest)

def readIpv6Addr (text : Bytes) : Option (Ipv6Addr × Bytes) :=
  let (head, headIpv4, rest) := readGroups 8 0 text
  if head.length = 8 then some (.ofGroups head, rest)
  else if headIpv4 then none
  else
    match rest with
    | 58 :: 58 :: rest =>
      let (tail, _, rest) := readGroups (8 - (head.length + 1)) 0 rest
      let zeros := List.replicate (8 - head.length - tail.length) 0
      some (.ofGroups (head ++ zeros ++ tail), rest)
    | _ => none

/-- `str::parse::<Ipv4Addr>`. -/
def parseIpv4Addr (text : Str) : Option Ipv4Addr :=
  if text.length > 15 then none
  else
    match readIpv4Addr text with
    | some (addr, []) => some addr
    | _ => none

/-- `str::parse::<Ipv6Addr>`. -/
def parseIpv6Addr (text : Str) : Option Ipv6Addr :=
  match readIpv6Addr text with
  | some (addr, []) => some addr
  | _ => none

/-- `str::parse::<IpAddr>`. -/
def parseIpAddr (text : Str) : Option IpAddr :=
  match readIpv4Addr text with
  | some (addr, rest) => if rest.isEmpty then some (.v4 addr) else none
  | none => (parseIpv6Addr text).map .v6

example : parseIpv4Addr (ascii "192.0.2.10") = some (.new 192 0 2 10) := by decide

example : parseIpv4Addr (ascii "192.0.02.10") = none := by decide

example
    : (parseIpv6Addr (ascii "::ffff:1.2.3.4")).bind Ipv6Addr.toIpv4Mapped
      = some (.new 1 2 3 4) := by
  decide

end NetTrap.Rust
