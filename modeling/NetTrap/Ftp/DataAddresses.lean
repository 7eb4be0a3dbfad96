import NetTrap.Ftp.DataConnections
import NetTrap.Library.Ber

/-! The addresses that the texts of `PORT` and `EPRT` give, and what the handler makes of them. -/

namespace NetTrap.Ftp

open Rust Option List
open Session (SocketAddr)

/-! The texts. -/

/-- The number of a text of decimal digits, leading zeros among them. -/
def decimal (text : Str) : Option Nat :=
  if text ≠ [] ∧ ∀ byte ∈ text, isAsciiDigit byte then some (decimalValue text) else none

/-- A decimal number that fits into a byte. -/
def octet (text : Str) : Option UInt8 := do
  let number ← decimal text
  if number < 256 then some (.ofNat number) else none

/-- The argument `h1,h2,h3,h4,p1,p2` of `PORT`. -/
def portArg (arg : Str) : Option SocketAddr :=
  match arg.splitOn 44 with
  | [h1, h2, h3, h4, p1, p2] => do
      let ip := Ipv4Addr.new (← octet h1) (← octet h2) (← octet h3) (← octet h4)
      let high ← octet p1
      let low ← octet p2
      some ⟨.v4 ip, .ofNat (high.toNat * 256 + low.toNat)⟩
  | _ => none

/-- An address of the family, as the standard library reads it. -/
def eprtIp (family address : Str) : Option IpAddr :=
  if family = ascii "1" then (parseIpv4Addr address).map .v4
  else if family = ascii "2" then (parseIpv6Addr address).map .v6
  else none

def eprtAddr (family address port : Str) : Option SocketAddr := do
  let ip ← eprtIp family address
  let number ← decimal port
  if number < 65536 then some ⟨ip, .ofNat number⟩ else none

/-- The argument `|family|address|port|` of `EPRT`, whose last delimiter may be missing. The
delimiter is a sign of punctuation. -/
def eprtArg : (arg : Str) → Option SocketAddr
  | [] => none
  | delim :: fields =>
    if !isAsciiGraphic delim || isAsciiAlphanumeric delim then none
    else
      match fields.splitOn delim with
      | [family, address, port] | [family, address, port, []] => eprtAddr family address port
      | _ => none

/-- The address in the line of a command, which has one blank. -/
def givenAddr (line : Str) : Option SocketAddr := do
  let (verb, arg) ← splitOnce 32 line
  if arg.head? = some 32 ∨ arg.head? = some 9 then none
  else if toAsciiUppercase verb = ascii "PORT" then portArg arg
  else if toAsciiUppercase verb = ascii "EPRT" then eprtArg arg
  else none

def UsableIp : IpAddr → Prop
  | .v4 ip => isUsableFtpActiveIpv4 ip
  | .v6 ip => isUsableFtpActiveIpv6 ip

/-- Addresses that the handler takes, with a port. -/
def Usable (addr : SocketAddr) : Prop :=
  UsableIp addr.ip ∧ addr.port ≠ 0

/-- What the handler makes of an address: a mapped one becomes the IPv4 address. -/
def normalized (addr : SocketAddr) : SocketAddr :=
  ⟨normalizeFtpActiveIp addr.ip, addr.port⟩

/-! Numbers. -/

section Numbers

variable {text : Str} {number : Nat}

theorem isAsciiDigit_facts (byte : UInt8)
    : isAsciiDigit byte → byte < 0x80 ∧ isWhitespace byte.toNat = false := by
  revert byte
  exact Ber.forall_byte (by decide +kernel)

theorem parseFtpDecimal_eq_some {limit : Nat}
    : parseFtpDecimal limit text = some number ↔ decimal text = some number ∧ number ≤ limit := by
  have plain : (text.isEmpty || !text.all isAsciiDigit) = false
      ↔ text ≠ [] ∧ ∀ byte ∈ text, isAsciiDigit byte := by
    simp
  rw [parseFtpDecimal, Http.unsignedDecimal, decimal]
  grind

theorem isPortField_of_decimal (read : decimal text = some number) : isPortField text := by
  rw [decimal] at read
  split_ifs at read with digits
  have dark : ∀ char ∈ chars text, isWhitespace char = false := by
    rw [chars_ascii fun byte member => (isAsciiDigit_facts byte (digits.2 byte member)).1]
    intro char member
    obtain ⟨byte, inside, rfl⟩ := mem_map.mp member
    exact (isAsciiDigit_facts byte (digits.2 byte inside)).2
  have never {found : Option Nat} (among : ∀ char, found = some char → char ∈ chars text)
      : found.any isWhitespace = false := by
    cases found with
    | none => rfl
    | some char => exact dark char (among char rfl)
  have first : startsWithWhitespace text = false := never fun _ => mem_of_mem_head?
  have last : endsWithWhitespace text = false := never fun _ => mem_of_mem_getLast?
  simp [isPortField, first, last, digits.1]

theorem octet_eq_some {byte : UInt8} : octet text = some byte ↔ decimal text = some byte.toNat := by
  have small := byte.toNat_lt
  rw [octet, bind_eq_bind, bind_eq_some_iff]
  constructor
  · rintro ⟨number, read, fits⟩
    split_ifs at fits with bound
    cases fits
    rwa [UInt8.toNat_ofNat_of_lt' bound]
  · intro read
    exact ⟨byte.toNat, read, by rw [if_pos small, UInt8.ofNat_toNat]⟩

theorem parsePortOctet_eq_ok {byte : UInt8}
    : parsePortOctet text = .ok byte ↔ octet text = some byte := by
  rw [octet_eq_some, parsePortOctet]
  have small := byte.toNat_lt
  constructor
  · intro parsed
    split_ifs at parsed
    split at parsed
    · next number read =>
      cases parsed
      obtain ⟨decimal, fits⟩ := parseFtpDecimal_eq_some.mp read
      rwa [UInt8.toNat_ofNat_of_lt' (Nat.lt_succ_of_le fits)]
    · cases parsed
  · intro read
    rw [if_pos (isPortField_of_decimal read),
      parseFtpDecimal_eq_some.mpr ⟨read, Nat.le_of_lt_succ small⟩]
    exact congrArg _ UInt8.ofNat_toNat

theorem shiftLeft_or_eq (high low : UInt8)
    : (UInt16.ofNat high.toNat <<< 8) ||| UInt16.ofNat low.toNat
      = .ofNat (high.toNat * 256 + low.toNat) := by
  have highSmall := high.toNat_lt
  have lowSmall := low.toNat_lt
  rw [← UInt16.toNat_inj, UInt16.toNat_or, UInt16.toNat_shiftLeft,
    UInt16.toNat_ofNat_of_lt' (by simp only [UInt16.size]; omega),
    UInt16.toNat_ofNat_of_lt' (by simp only [UInt16.size]; omega),
    UInt16.toNat_ofNat_of_lt' (by simp only [UInt16.size]; omega)]
  have shifted : high.toNat <<< ((8 : UInt16).toNat % 16) % 2 ^ 16 = high.toNat <<< 8 := by
    rw [show (8 : UInt16).toNat % 16 = 8 from rfl, Nat.shiftLeft_eq]
    omega
  rw [shifted, ← Nat.shiftLeft_add_eq_or_of_lt lowSmall, Nat.shiftLeft_eq]

theorem parsePortPort_eq_ok {first second : Str} {port : UInt16}
    : parsePortPort first second = .ok port
      ↔ ∃ high low, octet first = some high ∧ octet second = some low
        ∧ port = .ofNat (high.toNat * 256 + low.toNat) ∧ port ≠ 0 := by
  simp only [octet_eq_some]
  constructor
  · intro parsed
    rw [parsePortPort] at parsed
    split_ifs at parsed
    split at parsed
    · next high low readHigh readLow =>
      dsimp only at parsed
      split_ifs at parsed with large unset
      cases parsed
      simp only [Bool.or_eq_true, decide_eq_true_eq, not_or, Nat.not_lt] at large
      have high_eq : (UInt8.ofNat high).toNat = high :=
        UInt8.toNat_ofNat_of_lt' (Nat.lt_succ_of_le large.1)
      have low_eq : (UInt8.ofNat low).toNat = low :=
        UInt8.toNat_ofNat_of_lt' (Nat.lt_succ_of_le large.2)
      refine ⟨.ofNat high, .ofNat low, ?_, ?_, ?_, unset⟩
      · rw [high_eq, (parseFtpDecimal_eq_some.mp readHigh).1]
      · rw [low_eq, (parseFtpDecimal_eq_some.mp readLow).1]
      · rw [← shiftLeft_or_eq, high_eq, low_eq]
    · cases parsed
  · rintro ⟨high, low, readHigh, readLow, rfl, unset⟩
    have highSmall := high.toNat_lt
    have lowSmall := low.toNat_lt
    have wideHigh := parseFtpDecimal_eq_some.mpr ⟨readHigh, (by omega : high.toNat ≤ 65535)⟩
    have wideLow := parseFtpDecimal_eq_some.mpr ⟨readLow, (by omega : low.toNat ≤ 65535)⟩
    rw [← shiftLeft_or_eq] at unset ⊢
    have fit : ¬ 255 < high.toNat ∧ ¬ 255 < low.toNat := by omega
    simp only [parsePortPort, isPortField_of_decimal readHigh, isPortField_of_decimal readLow,
      wideHigh, wideLow, fit, if_neg unset]
    rfl

end Numbers

/-! Arguments. -/

section Arguments

variable {arg : Str} {addr : SocketAddr}

theorem parsePort_eq_ok
    : parsePort arg = .ok addr
      ↔ ∃ given, portArg arg = some given ∧ Usable given ∧ addr = normalized given := by
  rw [parsePort]
  split
  · next same =>
    simp only [portArg, same, bind_eq_ok_iff, parsePortOctet_eq_ok, bind_eq_bind,
      bind_eq_some_iff]
    constructor
    · rintro ⟨a, readA, b, readB, c, readC, d, readD, finished⟩
      split_ifs at finished with unusable
      obtain ⟨port, readPort, finished⟩ := bind_eq_ok_iff.mp finished
      cases finished
      obtain ⟨high, low, readHigh, readLow, rfl, unset⟩ := parsePortPort_eq_ok.mp readPort
      rw [Bool.not_eq_true, Bool.not_eq_false'] at unusable
      exact ⟨⟨.v4 _, _⟩,
        ⟨a, readA, b, readB, c, readC, d, readD, high, readHigh, low, readLow, rfl⟩,
        ⟨unusable, unset⟩, rfl⟩
    · rintro ⟨_, ⟨a, readA, b, readB, c, readC, d, readD, high, readHigh, low, readLow, ⟨⟩⟩,
        ⟨usable, unset⟩, rfl⟩
      refine ⟨a, readA, b, readB, c, readC, d, readD, ?_⟩
      have taken : isUsableFtpActiveIpv4 (.new a b c d) = true := usable
      rw [taken, Bool.not_true, if_neg Bool.false_ne_true]
      exact bind_eq_ok_iff.mpr ⟨_, parsePortPort_eq_ok.mpr
        ⟨high, low, readHigh, readLow, rfl, unset⟩, rfl⟩
  · next other =>
    have missing : portArg arg = none := by
      rw [portArg]
      split
      · next same => exact absurd same (other _ _ _ _ _ _)
      · rfl
    simp [missing]

theorem parseEprtIp_eq_ok {family address : Str} {ip : IpAddr}
    : parseEprtIp family address = .ok ip
      ↔ ∃ given, eprtIp family address = some given ∧ UsableIp given
        ∧ ip = normalizeFtpActiveIp given := by
  rw [parseEprtIp, eprtIp]
  split_ifs with isV4 isV6
  · cases parseIpv4Addr address with
    | none => simp
    | some given =>
      simp only [Option.map_some, Option.some.injEq, exists_eq_left']
      grind [UsableIp, normalizeFtpActiveIp]
  · cases parseIpv6Addr address with
    | none => simp
    | some given =>
      simp only [Option.map_some, Option.some.injEq, exists_eq_left']
      grind [UsableIp]
  · simp

/-- The fields of `EPRT` once they are told apart. -/
theorem parseEprtFields_eq_ok {family address port : Str}
    : (match parseFtpDecimal 65535 port with
        | none => .error syntaxErr
        | some port =>
          if port = 0 then .error syntaxErr
          else do
            let ip ← parseEprtIp family address
            .ok ⟨ip, .ofNat port⟩ : Except FtpResponse SocketAddr) = .ok addr
      ↔ ∃ given, eprtAddr family address port = some given ∧ Usable given
        ∧ addr = normalized given := by
  simp only [eprtAddr, bind_eq_bind, bind_eq_some_iff]
  constructor
  · intro parsed
    split at parsed
    · cases parsed
    next number read =>
    split_ifs at parsed with unset
    obtain ⟨ip, host, parsed⟩ := bind_eq_ok_iff.mp parsed
    cases parsed
    obtain ⟨given, gives, usable, rfl⟩ := parseEprtIp_eq_ok.mp host
    obtain ⟨decimal, small⟩ := parseFtpDecimal_eq_some.mp read
    refine ⟨_, ⟨given, gives, number, decimal, if_pos (by omega)⟩,
      ⟨usable, fun zero => unset ?_⟩, rfl⟩
    have same := congrArg UInt16.toNat zero
    rwa [UInt16.toNat_ofNat_of_lt' (by simp only [UInt16.size]; omega)] at same
  · rintro ⟨_, ⟨given, gives, number, decimal, fits⟩, ⟨usable, unset⟩, rfl⟩
    split_ifs at fits with small
    cases fits
    rw [parseFtpDecimal_eq_some.mpr ⟨decimal, Nat.le_of_lt_succ small⟩]
    have nonzero : number ≠ 0 := by
      rintro rfl
      exact unset rfl
    dsimp only
    rw [if_neg nonzero]
    exact bind_eq_ok_iff.mpr ⟨_, parseEprtIp_eq_ok.mpr ⟨given, gives, usable, rfl⟩, rfl⟩

theorem parseEprt_eq_ok
    : parseEprt arg = .ok addr
      ↔ ∃ given, eprtArg arg = some given ∧ Usable given ∧ addr = normalized given := by
  cases arg with
  | nil => simp [parseEprt, eprtArg]
  | cons delim fields =>
    have parted : (delim :: fields).splitOn delim = [] :: fields.splitOn delim := by
      rw [splitOn_cons_eq_if_modifyHead, if_pos (beq_self_eq_true delim)]
    rw [parseEprt, eprtArg, head?_cons, Option.filter_some]
    by_cases valid : isValidEprtDelimiter delim
    · have sign : (!isAsciiGraphic delim || isAsciiAlphanumeric delim) = false := by
        simpa [isValidEprtDelimiter] using valid
      rw [if_pos valid, sign, if_neg Bool.false_ne_true]
      dsimp only
      rw [parted]
      rcases fields.splitOn delim with _ | ⟨family, _ | ⟨address, _ | ⟨port, _ | ⟨last, more⟩⟩⟩⟩
      · simp [eprtFields, bind, Except.bind]
      · simp [eprtFields, bind, Except.bind]
      · simp [eprtFields, bind, Except.bind]
      · exact parseEprtFields_eq_ok
      · cases last with
        | cons byte last => simp [eprtFields, bind, Except.bind]
        | nil =>
          cases more with
          | nil => exact parseEprtFields_eq_ok
          | cons piece more => simp [eprtFields, bind, Except.bind]
    · have sign : (!isAsciiGraphic delim || isAsciiAlphanumeric delim) = true := by
        simpa [isValidEprtDelimiter, imp_iff_not_or] using valid
      simp [valid, sign]

/-- The verb of a line that passes the checks ends at its first space. -/
theorem splitFtpCommand_eq {command line : Str} (checked : checkedCommandLine command = some line)
    : splitFtpCommand command
      = match splitOnce 32 line with
        | none => some (line, [])
        | some (verb, arg) =>
          if arg.head? = some 32 ∨ arg.head? = some 9 then none else some (verb, arg) := by
  rw [splitFtpCommand, checked, splitOnce]
  cases found : line.findIdx? (· == 32) with
  | none => simp [verbEnd, found]
  | some index =>
    obtain ⟨inside, here, -⟩ := findIdx?_eq_some_iff_getElem.mp found
    have behind : line.drop index = 32 :: line.drop (index + 1) := by
      rw [drop_eq_getElem_cons inside, eq_of_beq here]
    simp [verbEnd, found, behind]

/-- The address of a checked line, in the handler's terms. -/
theorem givenAddr_of_checked {command line : Str}
    (checked : checkedCommandLine command = some line)
    : givenAddr line
      = if commandVerb command = ascii "PORT" then portArg (commandArg command)
        else if commandVerb command = ascii "EPRT" then eprtArg (commandArg command) else none := by
  rw [commandVerb, commandArg, splitFtpCommand_eq checked, givenAddr]
  cases splitOnce 32 line with
  | none =>
    dsimp only
    split_ifs <;> rfl
  | some parts =>
    by_cases blank : parts.2.head? = some 32 ∨ parts.2.head? = some 9
    · simp +decide [blank]
    · simp [blank]

/-- The handler reads the given address just when its line passes the checks and the address can be
used, and makes the IPv4 address of a mapped one. -/
theorem parseFtpDataAddr_eq_ok {command : Str}
    : parseFtpDataAddr command = .ok addr
      ↔ ∃ line given, checkedCommandLine command = some line ∧ givenAddr line = some given
        ∧ Usable given ∧ addr = normalized given := by
  rw [parseFtpDataAddr]
  cases checked : checkedCommandLine command with
  | none =>
    have unsplit : splitFtpCommand command = none := by
      rw [splitFtpCommand, checked]
      rfl
    rw [commandVerb, unsplit]
    simp +decide
  | some line =>
    simp only [Option.some.injEq, ↓existsAndEq, true_and, givenAddr_of_checked checked]
    split_ifs
    · exact parsePort_eq_ok
    · exact parseEprt_eq_ok
    · simp

end Arguments

end NetTrap.Ftp
