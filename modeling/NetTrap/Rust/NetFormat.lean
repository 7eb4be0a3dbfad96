import Mathlib
import NetTrap.Rust.Net

/-! Addresses as texts: `Display` for the types of `std::net`, and that its texts are parsed
as the addresses they were written for.
-/

namespace NetTrap.Rust

open List Option

/-! Display. -/

/-- `Display` for `Ipv4Addr`. -/
def Ipv4Addr.format (addr : Ipv4Addr) : Bytes :=
  match addr.octets with
  | [a, b, c, d] =>
    numeral 10 a.toNat ++ (46 :: numeral 10 b.toNat ++ (46 :: numeral 10 c.toNat
      ++ (46 :: numeral 10 d.toNat)))
  | _ => []

namespace Ipv6Addr

/-- `Ipv6Addr::segments`. -/
def segments (addr : Ipv6Addr) : List Nat :=
  (List.range 8).map fun index =>
    u16FromBeBytes (addr.octets.getD (2 * index) 0) (addr.octets.getD (2 * index + 1) 0)

/-- A run of zero segments. -/
structure Span where
  (start len : Nat)

/-- The loop that finds the longest run of zero segments. -/
def zeroSpanLoop : (index : Nat) → (longest current : Span) → List Nat → Span
  | _, longest, _, [] => longest
  | index, longest, current, segment :: rest =>
    if segment = 0 then
      let current : Span :=
        ⟨if current.len = 0 then index else current.start, current.len + 1⟩
      let longest := if current.len > longest.len then current else longest
      zeroSpanLoop (index + 1) longest current rest
    else zeroSpanLoop (index + 1) longest ⟨0, 0⟩ rest

def zeroSpan (segments : List Nat) : Span :=
  zeroSpanLoop 0 ⟨0, 0⟩ ⟨0, 0⟩ segments

/-- `fmt_subslice`. -/
def formatGroups : List Nat → Bytes
  | [] => []
  | first :: rest => numeral 16 first ++ rest.flatMap fun group => 58 :: numeral 16 group

/-- `Display` for `Ipv6Addr`. -/
def format (addr : Ipv6Addr) : Bytes :=
  match addr.toIpv4Mapped with
  | some ipv4 => ascii "::ffff:" ++ ipv4.format
  | none =>
    let zeroes := zeroSpan addr.segments
    if 1 < zeroes.len then
      formatGroups (addr.segments.take zeroes.start)
        ++ 58 :: 58 :: formatGroups (addr.segments.drop (zeroes.start + zeroes.len))
    else formatGroups addr.segments

end Ipv6Addr

/-- `Display` for `IpAddr`. -/
def IpAddr.format : IpAddr → Bytes
  | .v4 addr => addr.format
  | .v6 addr => addr.format

/-! Numbers. -/

/-- What follows a number does not begin with a digit of it. -/
def StopsAt (isDigit : UInt8 → Bool) (rest : Bytes) : Prop :=
  ∀ byte ∈ rest.head?, isDigit byte = false

variable {rest : Bytes}

theorem takeWhile_of_stopsAt {isDigit digits} (allDigits : ∀ byte ∈ digits, isDigit byte = true)
    (stops : StopsAt isDigit rest)
    : (digits ++ rest).takeWhile isDigit = digits ∧ (digits ++ rest).dropWhile isDigit = rest := by
  rw [takeWhile_append_of_pos allDigits, dropWhile_append_of_pos allDigits]
  cases rest with
  | nil => simp
  | cons byte rest =>
    have stop : ¬ isDigit byte = true := by simp [stops byte rfl]
    simp [takeWhile_cons_of_neg stop, dropWhile_cons_of_neg stop]

theorem readNumber_decimal {number} (small : number ≤ 255) (stops : StopsAt isAsciiDigit rest)
    : readNumber isAsciiDigit decimalValue 3 false 255 (numeral 10 number ++ rest)
      = some (number, rest) := by
  obtain ⟨front, back⟩ := takeWhile_of_stopsAt (fun _ => isAsciiDigit_of_mem_numeral) stops
  have short : (numeral 10 number).length ≤ 3 :=
    length_numeral_le (by decide) (by decide) (by omega)
  have noLeadingZero : (numeral 10 number).headD 0 = 48 → (numeral 10 number).length = 1 := by
    intro leading
    rw [headD_numeral (by decide) (by decide) leading]
    rfl
  have nonempty : (numeral 10 number).isEmpty = false := by
    simp [numeral_ne_nil]
  rw [readNumber, front, back, decimalValue_numeral]
  simp only [nonempty, Bool.or_false, Bool.not_false, Bool.true_and, Bool.and_eq_true,
    beq_iff_eq, decide_eq_true_eq]
  rw [if_neg (by omega), if_neg (by rintro ⟨leading, long⟩; have := noLeadingZero leading; omega),
    if_neg (by omega)]

theorem readNumber_hexadecimal {number} (small : number ≤ 65535)
    (stops : StopsAt isAsciiHexdigit rest)
    : readNumber isAsciiHexdigit hexValue 4 true 65535 (numeral 16 number ++ rest)
      = some (number, rest) := by
  obtain ⟨front, back⟩ := takeWhile_of_stopsAt (fun _ => isAsciiHexdigit_of_mem_numeral) stops
  have short : (numeral 16 number).length ≤ 4 :=
    length_numeral_le (by decide) (by decide) (by omega)
  have nonempty : (numeral 16 number).isEmpty = false := by
    simp [numeral_ne_nil]
  rw [readNumber, front, back, hexValue, foldl_numeral (by decide) (by decide)]
  simp only [nonempty, Bool.or_false, Bool.not_true, Bool.false_and, decide_eq_true_eq]
  rw [if_neg (by omega), if_neg (by simp), if_neg (by omega)]

theorem readNumber_eq_none {isDigit value maxDigits limit allowZeroes}
    (stops : StopsAt isDigit rest)
    : readNumber isDigit value maxDigits allowZeroes limit rest = none := by
  have noDigits : ([] ++ rest).takeWhile isDigit = [] :=
    (takeWhile_of_stopsAt (by simp) stops).1
  rw [nil_append] at noDigits
  simp [readNumber, noDigits]

/-! IPv4. -/

variable {index : Nat}

theorem readIpv4Octet_next (later : index ≠ 0) {octet : UInt8} (stops : StopsAt isAsciiDigit rest)
    : readIpv4Octet index (46 :: (numeral 10 octet.toNat ++ rest)) = some (octet.toNat, rest) := by
  have small : octet.toNat ≤ 255 := Nat.le_of_lt_succ octet.toNat_lt
  simp only [readIpv4Octet, readSeparator, if_neg later, BEq.rfl, if_true]
  exact readNumber_decimal small stops

/-- The text of an address is read as the address. Witness: octet by octet, each of them
stopped by the dot of the next one.
-/
theorem readIpv4Addr_format (addr : Ipv4Addr) : readIpv4Addr addr.format = some (addr, []) := by
  obtain ⟨octets, size⟩ := addr
  match octets, size with
  | [a, b, c, d], size =>
    have dot (rest : Bytes) : StopsAt isAsciiDigit (46 :: rest) := by
      rintro byte ⟨⟩
      rfl
    have first {rest : Bytes} (stops : StopsAt isAsciiDigit rest)
        : readIpv4Octet 0 (numeral 10 a.toNat ++ rest) = some (a.toNat, rest) :=
      readNumber_decimal (Nat.le_of_lt_succ a.toNat_lt) stops
    have last : readIpv4Octet 3 (46 :: numeral 10 d.toNat) = some (d.toNat, []) := by
      have read : readIpv4Octet 3 (46 :: (numeral 10 d.toNat ++ [])) = some (d.toNat, []) :=
        readIpv4Octet_next (by decide) (by rintro byte ⟨⟩)
      rwa [append_nil] at read
    simp only [readIpv4Addr, Ipv4Addr.format, cons_append]
    rw [first (dot _)]
    simp only [bind_eq_bind, bind_some]
    rw [readIpv4Octet_next (by decide) (dot _)]
    simp only [bind_some]
    rw [readIpv4Octet_next (by decide) (dot _)]
    simp only [bind_some]
    rw [last]
    simp [Ipv4Addr.new]

/-- An IPv4 address needs a dot. -/
theorem readIpv4Addr_eq_none {text} (noDot : 46 ∉ text) : readIpv4Addr text = none := by
  rw [readIpv4Addr]
  cases read : readIpv4Octet 0 text with
  | none => rfl
  | some found =>
    obtain ⟨octet, rest⟩ := found
    have suffix : rest <:+ text := by
      simp only [readIpv4Octet, readSeparator, if_true, readNumber] at read
      split at read
      · cases read
      · split at read
        · cases read
        · split at read
          · cases read
          · cases read
            exact dropWhile_suffix _
    have second : readIpv4Octet 1 rest = none := by
      cases rest with
      | nil => rfl
      | cons byte rest =>
        have other : byte ≠ 46 := fun dot => noDot (suffix.subset (dot ▸ mem_cons_self))
        simp [readIpv4Octet, readSeparator, other]
    simp [second]

/-! IPv6 groups. -/

/-- Groups from number `index` on, with a colon in front of all but the first one. -/
def groupsText (index : Nat) (groups : List Nat) : Bytes :=
  if index = 0 then Ipv6Addr.formatGroups groups
  else groups.flatMap fun group => 58 :: numeral 16 group

/-- What may follow the groups: nothing, or the colons that stand for zeroes. -/
def EndsGroups (rest : Bytes) : Prop :=
  46 ∉ rest ∧ (rest = [] ∨ ∃ more, rest = 58 :: 58 :: more)

theorem dot_notMem_numeral (number : Nat) : 46 ∉ numeral 16 number := by
  intro member
  exact absurd (isAsciiHexdigit_of_mem_numeral member) (by decide)

theorem dot_notMem_groupsText (index : Nat) (groups : List Nat) : 46 ∉ groupsText index groups := by
  have later (groups : List Nat) : 46 ∉ groups.flatMap fun group => 58 :: numeral 16 group := by
    simp [mem_flatMap, dot_notMem_numeral]
  rw [groupsText]
  split
  · cases groups with
    | nil => exact not_mem_nil
    | cons first rest =>
      rw [Ipv6Addr.formatGroups, mem_append]
      exact not_or.mpr ⟨dot_notMem_numeral first, later rest⟩
  · exact later groups

theorem dot_notMem_formatGroups (groups : List Nat) : 46 ∉ Ipv6Addr.formatGroups groups :=
  dot_notMem_groupsText 0 groups

theorem readEmbeddedIpv4_eq_none {text} (noDot : 46 ∉ text)
    : readSeparator 58 index readEmbeddedIpv4 text = none := by
  have none {rest : Bytes} (noDot : 46 ∉ rest) : readEmbeddedIpv4 rest = none := by
    rw [readEmbeddedIpv4, readIpv4Addr_eq_none noDot]
    rfl
  unfold readSeparator
  split
  · exact none noDot
  · cases text with
    | nil => rfl
    | cons byte rest =>
      simp only
      split
      · exact none (fun member => noDot (.tail _ member))
      · rfl

/-- No group is read from what follows the groups. -/
theorem readGroups_end {left} (ends : EndsGroups rest)
    : readGroups left index rest = ([], false, rest) := by
  cases left with
  | zero => rfl
  | succ left =>
    have number : readSeparator 58 index
        (readNumber isAsciiHexdigit hexValue 4 true 65535) rest = none := by
      have colon (more : Bytes) : StopsAt isAsciiHexdigit (58 :: more) := by
        rintro byte ⟨⟩
        rfl
      unfold readSeparator
      rcases ends.2 with rfl | ⟨more, rfl⟩
      · split <;> rfl
      · simp only [BEq.rfl, if_true]
        split <;> exact readNumber_eq_none (colon _)
    simp [readGroups, readEmbeddedIpv4_eq_none ends.1, number]

theorem stopsAt_groups {groups : List Nat} (ends : EndsGroups rest)
    : StopsAt isAsciiHexdigit (groups.flatMap (fun group => 58 :: numeral 16 group) ++ rest) := by
  cases groups with
  | nil =>
    rcases ends.2 with rfl | ⟨more, rfl⟩
    · rintro byte ⟨⟩
    · rintro byte ⟨⟩
      rfl
  | cons first groups =>
    rintro byte ⟨⟩
    rfl

/-- Groups are read as they were written. Witness: induction on the groups; none of them is
mistaken for an IPv4 address, as there is no dot.
-/
theorem readGroups_groupsText {groups left} (fits : groups.length ≤ left)
    (small : ∀ group ∈ groups, group ≤ 65535) (ends : EndsGroups rest)
    : readGroups left index (groupsText index groups ++ rest) = (groups, false, rest) := by
  induction groups generalizing left index with
  | nil =>
    have empty : groupsText index [] = [] := by
      rw [groupsText]
      split <;> rfl
    rw [empty, nil_append, readGroups_end ends]
  | cons first groups ih =>
    cases left with
    | zero => cases fits
    | succ left =>
      have later : readGroups left (index + 1) (groupsText (index + 1) groups ++ rest)
          = (groups, false, rest) :=
        ih (Nat.le_of_succ_le_succ fits) (fun group member => small group (.tail _ member))
      have tail : groupsText (index + 1) groups
          = groups.flatMap fun group => 58 :: numeral 16 group := rfl
      have noDot : 46 ∉ groupsText index (first :: groups) ++ rest := by
        rw [mem_append]
        exact not_or.mpr ⟨dot_notMem_groupsText index _, ends.1⟩
      have number : readSeparator 58 index (readNumber isAsciiHexdigit hexValue 4 true 65535)
          (groupsText index (first :: groups) ++ rest)
          = some (first, groupsText (index + 1) groups ++ rest) := by
        have stops : StopsAt isAsciiHexdigit (groupsText (index + 1) groups ++ rest) :=
          stopsAt_groups ends
        have read := readNumber_hexadecimal (small first mem_cons_self) stops
        rw [tail] at read ⊢
        rw [groupsText]
        unfold readSeparator
        split
        · rw [Ipv6Addr.formatGroups, append_assoc]
          exact read
        · rw [flatMap_cons, append_assoc, cons_append]
          simp only [BEq.rfl, if_true]
          exact read
      simp [readGroups, readEmbeddedIpv4_eq_none noDot, number, later]

/-! IPv6 addresses. -/

namespace Ipv6Addr

/-- A span of segments that are all zero. -/
def Zeroes (segments : List Nat) (span : Span) : Prop :=
  ∀ index, span.start ≤ index → index < span.start + span.len → segments[index]? = some 0

variable {segments : List Nat}

theorem Zeroes.ite {longer longest condition} [Decidable condition]
    (longerZero : Zeroes segments longer) (longestZero : Zeroes segments longest)
    : Zeroes segments (if condition then longer else longest) := by
  split
  · exact longerZero
  · exact longestZero

theorem zeroes_zeroSpanLoop {rest index longest current} (position : segments.drop index = rest)
    (longestZero : Zeroes segments longest) (currentZero : Zeroes segments current)
    (adjacent : current.len = 0 ∨ current.start + current.len = index)
    : Zeroes segments (zeroSpanLoop index longest current rest) := by
  induction rest generalizing index longest current with
  | nil => exact longestZero
  | cons segment rest ih =>
    have here : segments[index]? = some segment := by
      rw [← Nat.add_zero index, ← List.getElem?_drop, position]
      rfl
    have next : segments.drop (index + 1) = rest := by
      rw [← drop_drop, position]
      rfl
    rw [zeroSpanLoop]
    split
    · next isZero =>
      have longer : Zeroes segments
          ⟨if current.len = 0 then index else current.start, current.len + 1⟩ := by
        intro place lower upper
        simp only at lower upper
        rcases Nat.lt_or_eq_of_le (show place ≤ index by split at upper <;> omega)
          with before | atIndex
        · split at lower
          · omega
          · exact currentZero place lower (by omega)
        · rw [atIndex, here, isZero]
      have ends : (if current.len = 0 then index else current.start) + (current.len + 1)
          = index + 1 := by
        split <;> omega
      exact ih next (Zeroes.ite longer longestZero) longer (.inr ends)
    · exact ih next longestZero (fun place lower upper => by simp at upper) (.inl rfl)

/-- The segments around a span of zeroes. -/
theorem eq_of_zeroes {span} (zeroes : Zeroes segments span) (nonempty : 0 < span.len)
    : span.start + span.len ≤ segments.length ∧ segments.take span.start ++ replicate span.len 0
          ++ segments.drop (span.start + span.len) = segments := by
  have bound : span.start + span.len ≤ segments.length := by
    have last := zeroes (span.start + span.len - 1) (by omega) (by omega)
    have inside := (List.getElem?_eq_some_iff.mp last).1
    omega
  have middle : (segments.drop span.start).take span.len = replicate span.len 0 := by
    apply ext_getElem?
    intro index
    rw [List.getElem?_take, List.getElem?_replicate, List.getElem?_drop]
    split
    · exact zeroes _ (by omega) (by omega)
    · rfl
  refine ⟨bound, ?_⟩
  rw [← middle, append_assoc, ← drop_drop, take_append_drop, take_append_drop]

theorem length_segments (addr : Ipv6Addr) : addr.segments.length = 8 := by
  simp [segments]

theorem le_of_mem_segments {addr : Ipv6Addr} {segment : Nat} (member : segment ∈ addr.segments)
    : segment ≤ 65535 := by
  obtain ⟨index, -, rfl⟩ := mem_map.mp member
  exact Nat.le_of_lt_succ (u16FromBeBytes_lt _ _)

theorem ofGroups_segments (addr : Ipv6Addr) : ofGroups addr.segments = addr := by
  have pair (high low : UInt8) : UInt8.ofNat (u16FromBeBytes high low / 256) = high
      ∧ UInt8.ofNat (u16FromBeBytes high low % 256) = low := by
    have highSmall := high.toNat_lt
    have lowSmall := low.toNat_lt
    constructor <;> rw [← UInt8.toNat_inj] <;> simp only [u16FromBeBytes, UInt8.toNat_ofNat'] <;>
      omega
  have whole : addr.octets = (range 16).map (addr.octets.getD · 0) := by
    apply ext_getElem
    · rw [addr.size, length_map, length_range]
    · intro index inside _
      rw [getElem_map, getElem_range, getD_eq_getElem _ _ inside]
  rw [Ipv6Addr.mk.injEq, whole]
  simp [segments, ofGroups, range_succ, pair]

/-- A compressed text, too, is read as the groups it was written for. -/
theorem readIpv6Addr_format {addr} (unmapped : addr.toIpv4Mapped = none)
    : readIpv6Addr addr.format = some (addr, []) := by
  have length := addr.length_segments
  have noRest : EndsGroups [] := ⟨not_mem_nil, .inl rfl⟩
  have zeroes : Zeroes addr.segments (zeroSpan addr.segments) :=
    zeroes_zeroSpanLoop rfl (fun place _ upper => by simp at upper)
      (fun place _ upper => by simp at upper) (.inl rfl)
  rw [format, unmapped]
  simp only
  generalize zeroSpan addr.segments = span at zeroes
  split
  · next long =>
    obtain ⟨inside, whole⟩ := eq_of_zeroes zeroes (by omega)
    have headLength : (addr.segments.take span.start).length = span.start := by
      rw [length_take]
      omega
    have head : readGroups 8 0 (formatGroups (addr.segments.take span.start)
          ++ 58 :: 58 :: formatGroups (addr.segments.drop (span.start + span.len)))
        = (addr.segments.take span.start, false,
            58 :: 58 :: formatGroups (addr.segments.drop (span.start + span.len))) := by
      refine readGroups_groupsText (by omega)
        (fun group member => le_of_mem_segments (mem_of_mem_take member)) ⟨?_, .inr ⟨_, rfl⟩⟩
      simp [dot_notMem_formatGroups]
    have tail : readGroups (8 - (span.start + 1)) 0
          (formatGroups (addr.segments.drop (span.start + span.len)))
        = (addr.segments.drop (span.start + span.len), false, []) := by
      rw [← append_nil (formatGroups _)]
      exact readGroups_groupsText (by rw [length_drop]; omega)
        (fun group member => le_of_mem_segments (mem_of_mem_drop member)) noRest
    have gap : 8 - span.start - (addr.segments.length - (span.start + span.len)) = span.len := by
      omega
    simp only [readIpv6Addr, head, headLength]
    rw [if_neg (by omega)]
    simp only [tail, length_drop, gap, Bool.false_eq_true, if_false]
    rw [whole, ofGroups_segments]
  · have read : readGroups 8 0 (formatGroups addr.segments ++ []) = (addr.segments, false, []) :=
      readGroups_groupsText (by omega) (fun group => le_of_mem_segments) noRest
    rw [append_nil] at read
    simp [readIpv6Addr, read, length, ofGroups_segments]

end Ipv6Addr

/-! Texts and addresses. -/

/-- An address that no IPv4 address could be written for. -/
def IpAddr.Canonical : IpAddr → Prop
  | .v4 _ => True
  | .v6 addr => addr.toIpv4Mapped = none

theorem Ipv6Addr.dot_notMem_format {addr : Ipv6Addr} (unmapped : addr.toIpv4Mapped = none)
    : 46 ∉ addr.format := by
  rw [format, unmapped]
  simp only
  split
  · simp [dot_notMem_formatGroups]
  · exact dot_notMem_formatGroups _

theorem parseIpAddr_format {ip} (canonical : ip.Canonical) : parseIpAddr ip.format = some ip := by
  cases ip with
  | v4 addr =>
    rw [parseIpAddr, IpAddr.format, readIpv4Addr_format]
    rfl
  | v6 addr =>
    rw [parseIpAddr, IpAddr.format, readIpv4Addr_eq_none (Ipv6Addr.dot_notMem_format canonical),
      parseIpv6Addr, Ipv6Addr.readIpv6Addr_format canonical]
    rfl

/-- The bytes that addresses are written with. -/
def isAddressByte (byte : UInt8) : Bool :=
  isAsciiHexdigit byte || byte == 46 || byte == 58

theorem isAddressByte_of_mem_numeral {number byte}
    (member : byte ∈ numeral 10 number ∨ byte ∈ numeral 16 number)
    : isAddressByte byte = true := by
  rcases member with decimal | hexadecimal
  · simp [isAddressByte, isAsciiHexdigit, isAsciiDigit_of_mem_numeral decimal]
  · simp [isAddressByte, isAsciiHexdigit_of_mem_numeral hexadecimal]

theorem Ipv4Addr.isAddressByte_of_mem_format {addr : Ipv4Addr} {byte : UInt8}
    (member : byte ∈ addr.format)
    : isAddressByte byte = true := by
  rw [format] at member
  split at member
  · simp only [cons_append, mem_append, mem_cons] at member
    rcases member with a | rfl | b | rfl | c | rfl | d
    · exact isAddressByte_of_mem_numeral (.inl a)
    · rfl
    · exact isAddressByte_of_mem_numeral (.inl b)
    · rfl
    · exact isAddressByte_of_mem_numeral (.inl c)
    · rfl
    · exact isAddressByte_of_mem_numeral (.inl d)
  · cases member

theorem Ipv4Addr.length_format_le (addr : Ipv4Addr) : addr.format.length ≤ 15 := by
  have octet (byte : UInt8) : (numeral 10 byte.toNat).length ≤ 3 := by
    have small := byte.toNat_lt
    exact length_numeral_le (by decide) (by decide) (by omega)
  rw [format]
  split
  · next a b c d _ =>
    have := octet a
    have := octet b
    have := octet c
    have := octet d
    simp
    omega
  · exact Nat.zero_le _

namespace Ipv6Addr

theorem isAddressByte_of_mem_formatGroups {groups byte} (member : byte ∈ formatGroups groups)
    : isAddressByte byte = true := by
  cases groups with
  | nil => cases member
  | cons first rest =>
    simp only [formatGroups, mem_append, mem_flatMap, mem_cons] at member
    rcases member with digit | ⟨group, _, rfl | digit⟩
    · exact isAddressByte_of_mem_numeral (.inr digit)
    · rfl
    · exact isAddressByte_of_mem_numeral (.inr digit)

theorem length_formatGroups_le {groups} (small : ∀ group ∈ groups, group ≤ 65535)
    : (formatGroups groups).length ≤ 5 * groups.length := by
  have digits {group : Nat} (small : group ≤ 65535) : (numeral 16 group).length ≤ 4 :=
    length_numeral_le (by decide) (by decide) (by omega)
  have later {groups : List Nat} (small : ∀ group ∈ groups, group ≤ 65535)
      : (groups.flatMap fun group => 58 :: numeral 16 group).length ≤ 5 * groups.length := by
    induction groups with
    | nil => exact Nat.le_refl _
    | cons first rest ih =>
      have front := digits (small first mem_cons_self)
      have back := ih fun group member => small group (.tail _ member)
      simp only [flatMap_cons, length_append, length_cons]
      omega
  cases groups with
  | nil => exact Nat.le_refl _
  | cons first rest =>
    have front := digits (small first mem_cons_self)
    have back := later fun group member => small group (.tail _ member)
    simp only [formatGroups, length_append, length_cons]
    omega

theorem isAddressByte_of_mem_format {addr : Ipv6Addr} (unmapped : addr.toIpv4Mapped = none)
    {byte : UInt8} (member : byte ∈ addr.format)
    : isAddressByte byte = true := by
  rw [format, unmapped] at member
  simp only at member
  split at member
  · simp only [mem_append, mem_cons] at member
    rcases member with front | rfl | rfl | back
    · exact isAddressByte_of_mem_formatGroups front
    · rfl
    · rfl
    · exact isAddressByte_of_mem_formatGroups back
  · exact isAddressByte_of_mem_formatGroups member

theorem length_format_le {addr : Ipv6Addr} (unmapped : addr.toIpv4Mapped = none)
    : addr.format.length ≤ 82 := by
  have length := addr.length_segments
  rw [format, unmapped]
  simp only
  generalize zeroSpan addr.segments = span
  split
  · have front : (formatGroups (addr.segments.take span.start)).length ≤ 40 := by
      have bound := length_formatGroups_le fun group member =>
        addr.le_of_mem_segments (mem_of_mem_take (i := span.start) member)
      rw [length_take] at bound
      omega
    have back : (formatGroups (addr.segments.drop (span.start + span.len))).length ≤ 40 := by
      have bound := length_formatGroups_le fun group member =>
        addr.le_of_mem_segments (mem_of_mem_drop (i := span.start + span.len) member)
      rw [length_drop] at bound
      omega
    simp
    omega
  · have whole : (formatGroups addr.segments).length ≤ 5 * addr.segments.length :=
      length_formatGroups_le fun _ => le_of_mem_segments
    omega

end Ipv6Addr

/-- The text of an address is short, and ASCII. -/
theorem IpAddr.format_plain {ip : IpAddr} (canonical : ip.Canonical)
    : ip.format.length ≤ 82 ∧ ∀ byte ∈ ip.format, isAddressByte byte = true := by
  cases ip with
  | v4 addr =>
    exact ⟨Nat.le_trans addr.length_format_le (by decide),
      fun _ => Ipv4Addr.isAddressByte_of_mem_format⟩
  | v6 addr =>
    exact ⟨Ipv6Addr.length_format_le canonical,
      fun _ => Ipv6Addr.isAddressByte_of_mem_format canonical⟩

example : (IpAddr.v6 (.ofGroups [0x2001, 0xdb8, 0, 0, 1, 0, 0, 1])).format
    = ascii "2001:db8::1:0:0:1" := by
  decide +kernel

end NetTrap.Rust
