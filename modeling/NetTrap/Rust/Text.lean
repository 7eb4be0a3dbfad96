import NetTrap.Rust.Integers

/-! Text as the source handles it: a `str` is its UTF-8 bytes.
Patterns in the modelled code are ASCII, so splitting, trimming and comparing act on the
bytes; only character classes decode them.
-/

namespace NetTrap.Rust

/-- A `&str`, given by its UTF-8 bytes. -/
abbrev Str := Bytes

instance : LawfulBEq Str := inferInstance

/-- The bytes of an ASCII literal. -/
def ascii (text : String) : Bytes :=
  text.toList.map fun char => UInt8.ofNat char.toNat

/-- `b"\r\n"`. -/
def crlf : Bytes := [13, 10]

variable (byte : UInt8)

def isAsciiDigit : Bool :=
  48 ≤ byte && byte ≤ 57

def isAsciiUppercase : Bool :=
  65 ≤ byte && byte ≤ 90

def isAsciiLowercase : Bool :=
  97 ≤ byte && byte ≤ 122

def isAsciiAlphanumeric : Bool :=
  isAsciiDigit byte || isAsciiUppercase byte || isAsciiLowercase byte

def isAsciiHexdigit : Bool :=
  isAsciiDigit byte || (65 ≤ byte && byte ≤ 70) || (97 ≤ byte && byte ≤ 102)

def isAsciiGraphic : Bool :=
  33 ≤ byte && byte ≤ 126

/-- Space, tab, line feed, form feed and carriage return. -/
def isAsciiWhitespace : Bool :=
  byte == 32 || byte == 9 || byte == 10 || byte == 12 || byte == 13

def isAsciiControl : Bool :=
  byte < 32 || byte == 127

def toAsciiLowercase : UInt8 :=
  if isAsciiUppercase byte then byte + 32 else byte

def eqIgnoreAsciiCase (left right : Bytes) : Bool :=
  left.map toAsciiLowercase == right.map toAsciiLowercase

/-! UTF-8. -/

def isContinuation : Bool :=
  0x80 ≤ byte && byte ≤ 0xBF

/-- The low six bits of a continuation byte. -/
def continuationBits : Nat :=
  byte.toNat % 64

/-- The code points of well-formed UTF-8: shortest forms only, no surrogates, nothing
above U+10FFFF.
-/
def decodeUtf8 : Bytes → Option (List Nat)
  | [] => some []
  | b0 :: rest =>
    if b0 < 0x80 then (decodeUtf8 rest).map (b0.toNat :: ·)
    else if 0xC2 ≤ b0 && b0 ≤ 0xDF then
      match rest with
      | b1 :: rest =>
        if isContinuation b1 then
          (decodeUtf8 rest).map ((b0.toNat % 32 * 64 + continuationBits b1) :: ·)
        else none
      | _ => none
    else if 0xE0 ≤ b0 && b0 ≤ 0xEF then
      match rest with
      | b1 :: b2 :: rest =>
        let shortest := if b0 == 0xE0 then 0xA0 ≤ b1 else true
        let scalar := if b0 == 0xED then b1 ≤ 0x9F else true
        if isContinuation b1 && shortest && scalar && isContinuation b2 then
          (decodeUtf8 rest).map
            ((b0.toNat % 16 * 4096 + continuationBits b1 * 64 + continuationBits b2) :: ·)
        else none
      | _ => none
    else if 0xF0 ≤ b0 && b0 ≤ 0xF4 then
      match rest with
      | b1 :: b2 :: b3 :: rest =>
        let shortest := if b0 == 0xF0 then 0x90 ≤ b1 else true
        let scalar := if b0 == 0xF4 then b1 ≤ 0x8F else true
        if isContinuation b1 && shortest && scalar && isContinuation b2
            && isContinuation b3 then
          (decodeUtf8 rest).map
            ((b0.toNat % 8 * 262144 + continuationBits b1 * 4096
              + continuationBits b2 * 64 + continuationBits b3) :: ·)
        else none
      | _ => none
    else none

/-- `std::str::from_utf8`. -/
def fromUtf8 (bytes : Bytes) : Option Str :=
  if (decodeUtf8 bytes).isSome then some bytes else none

variable {text : Bytes}

theorem fromUtf8_eq {bytes : Bytes} (decoded : fromUtf8 bytes = some text) : text = bytes := by
  simp only [fromUtf8] at decoded
  split at decoded
  · exact (Option.some.inj decoded).symm
  · cases decoded

/-- `str::chars`, as code points. -/
def chars (text : Str) : List Nat :=
  (decodeUtf8 text).getD []

section

variable (plain : ∀ byte ∈ text, byte < 0x80)
include plain

/-- ASCII text decodes byte by byte. -/
theorem decodeUtf8_ascii : decodeUtf8 text = some (text.map UInt8.toNat) := by
  induction text with
  | nil => rfl
  | cons first rest ih =>
    have decoded := ih fun byte member => plain byte (.tail _ member)
    rw [decodeUtf8.eq_def]
    simp [plain first List.mem_cons_self, decoded]

theorem fromUtf8_ascii : fromUtf8 text = some text := by
  rw [fromUtf8, decodeUtf8_ascii plain]
  rfl

theorem chars_ascii : chars text = text.map UInt8.toNat := by
  rw [chars, decodeUtf8_ascii plain]
  rfl

end

/-- The bytes of a code point. -/
def encodeUtf8 (char : Nat) : Bytes :=
  if char < 0x80 then [UInt8.ofNat char]
  else if char < 0x800 then [UInt8.ofNat (0xC0 + char / 64), UInt8.ofNat (0x80 + char % 64)]
  else if char < 0x10000 then
    [UInt8.ofNat (0xE0 + char / 4096), UInt8.ofNat (0x80 + char / 64 % 64),
      UInt8.ofNat (0x80 + char % 64)]
  else
    [UInt8.ofNat (0xF0 + char / 262144), UInt8.ofNat (0x80 + char / 4096 % 64),
      UInt8.ofNat (0x80 + char / 64 % 64), UInt8.ofNat (0x80 + char % 64)]

/-- `char::is_whitespace`: the Unicode `White_Space` property. -/
def isWhitespace (char : Nat) : Bool :=
  (9 ≤ char && char ≤ 13) || char == 0x20 || char == 0x85 || char == 0xA0 || char == 0x1680
    || (0x2000 ≤ char && char ≤ 0x200A) || char == 0x2028 || char == 0x2029
    || char == 0x202F || char == 0x205F || char == 0x3000

/-- `char::is_control`: the Unicode category `Cc`. -/
def isControl (char : Nat) : Bool :=
  char < 0x20 || (0x7F ≤ char && char ≤ 0x9F)

/-! Numbers and fields. -/

/-- The value of a run of decimal digits. -/
def decimalValue (digits : Bytes) : Nat :=
  digits.foldl (fun value digit => value * 10 + (digit.toNat - 48)) 0

/-- `str::parse::<usize>` on a text of decimal digits. -/
def parseDecimalUsize (digits : Str) : Option Nat :=
  if decimalValue digits ≤ usizeMax then some (decimalValue digits) else none

/-- `char::to_digit(16)` on a hexadecimal digit. -/
def hexDigitValue (digit : UInt8) : Nat :=
  if isAsciiDigit digit then digit.toNat - 48
  else if isAsciiUppercase digit then digit.toNat - 55
  else digit.toNat - 87

/-- The value of a run of hexadecimal digits. -/
def hexValue (digits : Bytes) : Nat :=
  digits.foldl (fun value digit => value * 16 + hexDigitValue digit) 0

/-- `usize::from_str_radix(_, 16)` on a text of hexadecimal digits. -/
def parseHexUsize (digits : Str) : Option Nat :=
  if hexValue digits ≤ usizeMax then some (hexValue digits) else none

/-- Space or tab. -/
def isSpaceTab : Bool :=
  byte == 32 || byte == 9

/-- `trim_matches([' ', '\t'])`. -/
def trimSpaceTab (text : Bytes) : Bytes :=
  ((text.dropWhile isSpaceTab).reverse.dropWhile isSpaceTab).reverse

/-- `str::split_once` at a character. -/
def splitOnce (separator : UInt8) (text : Str) : Option (Str × Str) :=
  (text.findIdx? (· == separator)).map fun index => (text.take index, text.drop (index + 1))

/-- `str::rsplit_once` at a character. -/
def rsplitOnce (separator : UInt8) (text : Str) : Option (Str × Str) :=
  (splitOnce separator text.reverse).map fun (behind, front) => (front.reverse, behind.reverse)

/-- `str::strip_suffix` of a character. -/
def stripSuffix (last : UInt8) (text : Bytes) : Option Bytes :=
  if text.getLast? = some last then some text.dropLast else none

/-- `latin1_to_string`: every byte is the code point of one character. -/
def latin1ToString (value : Bytes) : Str :=
  value.flatMap fun byte =>
    if byte < 0x80 then [byte] else [0xC0 + byte / 64, 0x80 + byte % 64]

/-! Texts by lines. -/

open List

/-- `str::trim_end_matches` of a character. -/
def trimEndMatches (last : UInt8) (text : Str) : Str :=
  (text.reverse.dropWhile (· == last)).reverse

theorem trimEndMatches_of_getLast? {text dropped} (other : text.getLast? ≠ some dropped)
    : trimEndMatches dropped text = text := by
  rw [← head?_reverse] at other
  rw [trimEndMatches]
  cases backwards : text.reverse with
  | nil => exact (reverse_eq_nil_iff.mp backwards).symm
  | cons last front =>
    rw [backwards, head?_cons] at other
    rw [dropWhile_cons_of_neg (by simpa using other), ← backwards, reverse_reverse]

theorem splitOnce_eq {separator text key value}
    (found : splitOnce separator text = some (key, value))
    : text = key ++ separator :: value := by
  rw [splitOnce, Option.map_eq_some_iff] at found
  obtain ⟨index, located, same⟩ := found
  cases same
  obtain ⟨inside, here, _⟩ := findIdx?_eq_some_iff_getElem.mp located
  rw [← beq_iff_eq.mp here, getElem_cons_drop, take_append_drop]

/-- `str::lines`: a carriage return goes with its line feed, and the end of the text is no line. -/
def lines (text : Str) : List Str :=
  let pieces := text.splitOn 10
  pieces.dropLast.map (fun line => (stripSuffix 13 line).getD line)
    ++ (pieces.getLast?.filter fun line => !line.isEmpty).toList

/-- `chars().next().is_some_and(char::is_whitespace)`. -/
def startsWithWhitespace (text : Str) : Bool :=
  (chars text).head?.any isWhitespace

/-- `chars().last().is_some_and(char::is_whitespace)`. -/
def endsWithWhitespace (text : Str) : Bool :=
  (chars text).getLast?.any isWhitespace

/-- `strip_suffix("\r\n")`. -/
def stripCrlf (text : Str) : Option Str :=
  if crlf.isSuffixOf text then some (text.take (text.length - 2)) else none

def hasLineEnding (text : Str) : Bool :=
  text.any fun byte => byte == 13 || byte == 10

/-- The text of a command that may end in a line ending and has no other one. -/
def soleLine (command : Str) : Option Str :=
  match stripCrlf command with
  | some line => if hasLineEnding line then none else some line
  | none =>
    if command.getLast? = some 13 || command.getLast? = some 10 then none
    else if hasLineEnding command then none
    else some command

/-- `str::to_ascii_uppercase`. -/
def toAsciiUppercase (text : Str) : Str :=
  text.map fun byte => if isAsciiLowercase byte then byte - 32 else byte

/-- The operator `?` on a `Result` that goes on. -/
theorem bind_eq_ok_iff {ε α β : Type} {first : Except ε α} {next : α → Except ε β} {result : β}
    : (first >>= next) = .ok result ↔ ∃ value, first = .ok value ∧ next value = .ok result := by
  constructor
  · intro finished
    cases first with
    | error error => cases finished
    | ok value => exact ⟨value, rfl, finished⟩
  · rintro ⟨value, rfl, finished⟩
    exact finished

/-! Numbers as texts: what formatting writes and parsing reads back. -/

def digitByte (digit : Nat) : UInt8 :=
  UInt8.ofNat (Nat.digitChar digit).toNat

/-- The bytes of a number, in decimal (`{}`) or in another base (`{:x}`). -/
def numeral (base number : Nat) : Bytes :=
  (Nat.toDigits base number).map fun char => UInt8.ofNat char.toNat

variable {base number : Nat}

theorem numeral_of_lt (small : number < base) : numeral base number = [digitByte number] := by
  rw [numeral, Nat.toDigits_of_lt_base small]
  rfl

theorem numeral_of_le (proper : 1 < base) (large : base ≤ number)
    : numeral base number = numeral base (number / base) ++ [digitByte (number % base)] := by
  rw [numeral, Nat.toDigits_of_base_le proper large, map_append]
  rfl

theorem numeral_ne_nil (base number : Nat) : numeral base number ≠ [] := by
  rw [numeral, Ne, map_eq_nil_iff]
  exact Nat.toDigits_ne_nil

theorem length_numeral_le {places} (proper : 1 < base) (positive : 0 < places)
    (small : number < base ^ places)
    : (numeral base number).length ≤ places := by
  rw [numeral, length_map]
  exact (Nat.length_toDigits_le_iff proper positive).mpr small

/-- The digits of a numeral. Witness: induction on the number, one digit at a time. -/
theorem mem_numeral (proper : 1 < base) {byte} (member : byte ∈ numeral base number)
    : ∃ digit, digit < base ∧ byte = digitByte digit := by
  induction number using Nat.strong_induction_on with
  | _ number ih =>
    rcases Nat.lt_or_ge number base with small | large
    · rw [numeral_of_lt small, mem_singleton] at member
      exact ⟨number, small, member⟩
    · rw [numeral_of_le proper large, mem_append, mem_singleton] at member
      rcases member with front | last
      · exact ih _ (Nat.div_lt_self (by omega) proper) front
      · exact ⟨number % base, Nat.mod_lt _ (by omega), last⟩

/-- Reading digit by digit gives the number back. -/
theorem foldl_numeral (proper : 1 < base) {value : UInt8 → Nat}
    (reads : ∀ digit < base, value (digitByte digit) = digit) (number : Nat)
    : (numeral base number).foldl (fun total digit => total * base + value digit) 0 = number := by
  induction number using Nat.strong_induction_on with
  | _ number ih =>
    rcases Nat.lt_or_ge number base with small | large
    · rw [numeral_of_lt small]
      simp [reads number small]
    · rw [numeral_of_le proper large, foldl_append,
        ih _ (Nat.div_lt_self (by omega) proper), foldl_cons, foldl_nil,
        reads _ (Nat.mod_lt _ (by omega))]
      exact Nat.div_add_mod' number base

/-- Only zero is written with a leading zero. -/
theorem headD_numeral (proper : 1 < base)
    (nonzero : ∀ digit < base, digitByte digit = 48 → digit = 0)
    (leading : (numeral base number).headD 0 = 48)
    : number = 0 := by
  induction number using Nat.strong_induction_on with
  | _ number ih =>
    rcases Nat.lt_or_ge number base with small | large
    · rw [numeral_of_lt small] at leading
      exact nonzero number small leading
    · have positive : 0 < number / base := Nat.div_pos large (by omega)
      have front : (numeral base number).headD 0 = (numeral base (number / base)).headD 0 := by
        rw [numeral_of_le proper large]
        obtain ⟨first, rest, split⟩ := exists_cons_of_ne_nil (numeral_ne_nil base (number / base))
        rw [split]
        rfl
      rw [front] at leading
      have zero := ih _ (Nat.div_lt_self (by omega) proper) leading
      omega

theorem decimalValue_numeral (number : Nat) : decimalValue (numeral 10 number) = number :=
  foldl_numeral (by decide) (by decide) number

theorem isAsciiDigit_of_mem_numeral {byte} (member : byte ∈ numeral 10 number)
    : isAsciiDigit byte = true := by
  have digits : ∀ digit < 10, isAsciiDigit (digitByte digit) = true := by decide
  obtain ⟨digit, small, rfl⟩ := mem_numeral (by decide) member
  exact digits digit small

theorem isAsciiHexdigit_of_mem_numeral {byte} (member : byte ∈ numeral 16 number)
    : isAsciiHexdigit byte = true := by
  have digits : ∀ digit < 16, isAsciiHexdigit (digitByte digit) = true := by decide
  obtain ⟨digit, small, rfl⟩ := mem_numeral (by decide) member
  exact digits digit small

end NetTrap.Rust
