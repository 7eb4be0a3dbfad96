import Mathlib.Data.List.TakeWhile
import NetTrap.Library.Search
import NetTrap.Rust.Text

/-! Lexical rules of HTTP/1 that the request framer and the request parser both spell out.
The two crates hold the same text for these functions.
-/

namespace NetTrap.Http

open Search Rust List

/-- The line break and empty line that end a header block. -/
def blankLine : Bytes := [13, 10, 13, 10]

def isHttpTokenByte (byte : UInt8) : Bool :=
  isAsciiAlphanumeric byte || (ascii "!#$%&'*+-.^_`|~").contains byte

def isHttpFieldValueByte (byte : UInt8) : Bool :=
  byte == 9 || (32 ≤ byte && byte ≤ 126) || 0x80 ≤ byte

def isHttpQuotedPairByte (byte : UInt8) : Bool :=
  byte == 9 || byte == 32 || (0x21 ≤ byte && byte ≤ 0x7E) || 0x80 ≤ byte

/-- Some line feed does not follow a carriage return. -/
def hasBareLineFeed (data : Bytes) : Bool :=
  data.zipIdx.any fun (byte, idx) => byte == 10 && (idx == 0 || data[idx - 1]? != some 13)

/-- Some carriage return is followed by anything but a line feed. -/
def hasBareCarriageReturn (data : Bytes) : Bool :=
  data.zipIdx.any fun (byte, idx) =>
    byte == 13 && idx + 1 < data.length && data[idx + 1]? != some 10

def hasInvalidHttpLineEnding (data : Bytes) : Bool :=
  data.zipIdx.any fun (byte, idx) =>
    byte == 10 && (idx == 0 || data[idx - 1]? != some 13)
      || byte == 13 && idx + 1 < data.length && data[idx + 1]? != some 10

def parseHttpContentLength (value : Str) : Option Nat :=
  let value := trimSpaceTab value
  if value.isEmpty || !value.all isAsciiDigit then none else parseDecimalUsize value

/-! Chunk-size lines. -/

/-- What remains from the first byte that is not optional white space on. -/
def skipHttpBws (rest : Bytes) : Bytes :=
  rest.dropWhile isSpaceTab

/-- Reads a quoted extension value up to its closing quote. -/
def quotedValueEnd : (escaped : Bool) → Bytes → Option Bytes
  | _, [] => none
  | true, byte :: rest => if !isHttpQuotedPairByte byte then none else quotedValueEnd false rest
  | false, byte :: rest =>
    if byte == 92 then quotedValueEnd true rest
    else if byte == 34 then some rest
    else if (0x20 ≤ byte && byte ≤ 0x7E) || 0x80 ≤ byte then quotedValueEnd false rest
    else none

/-- Reads the value of an extension, quoted or a token. -/
def extensionValueEnd (rest : Bytes) : Option Bytes :=
  match skipHttpBws rest with
  | [] => none
  | byte :: rest =>
    if byte == 34 then quotedValueEnd false rest
    else if !isHttpTokenByte byte then none
    else some (rest.dropWhile isHttpTokenByte)

/-- One turn of the extension loop: `;`, a name and an optional value. -/
def chunkExtension : Bytes → Option Bytes
  | [] => none
  | byte :: rest =>
    if byte != 59 then none
    else
      match skipHttpBws rest with
      | [] => none
      | byte :: rest =>
        if !isHttpTokenByte byte then none
        else
          match skipHttpBws (rest.dropWhile isHttpTokenByte) with
          | [] => some []
          | byte :: rest =>
            if byte == 61 then (extensionValueEnd rest).map skipHttpBws
            else some (byte :: rest)

/-! The grammar of chunk-size lines. -/

/-- One or more token characters. -/
def IsToken (text : Bytes) : Prop :=
  text ≠ [] ∧ ∀ byte ∈ text, isHttpTokenByte byte = true

def IsBlank (text : Bytes) : Prop :=
  ∀ byte ∈ text, isSpaceTab byte = true

/-- A character that stands for itself in a quoted string. -/
def isQuotedText (byte : UInt8) : Bool :=
  byte != 34 && byte != 92 && ((0x20 ≤ byte && byte ≤ 0x7E) || 0x80 ≤ byte)

section Grammar

variable (isText : UInt8 → Bool)

/-- A quoted string behind its opening quote, over the characters of `isText`. -/
inductive QuotedRest : Bytes → Prop where
  | close : QuotedRest [34]
  | text {byte : UInt8} {rest : Bytes} (plain : isText byte = true) (later : QuotedRest rest)
      : QuotedRest (byte :: rest)
  | pair {byte : UInt8} {rest : Bytes} (quoted : isHttpQuotedPairByte byte = true)
      (later : QuotedRest rest) : QuotedRest (92 :: byte :: rest)

inductive ExtensionValue : Bytes → Prop where
  | token {value : Bytes} (token : IsToken value) : ExtensionValue value
  | quoted {rest : Bytes} (closed : QuotedRest isText rest) : ExtensionValue (34 :: rest)

/-- A semicolon, a name and an optional value, with blanks behind each of them. -/
inductive ChunkExtension : Bytes → Prop where
  | name {before name after : Bytes} (blanks : IsBlank before) (token : IsToken name)
      (trailing : IsBlank after) : ChunkExtension (59 :: (before ++ (name ++ after)))
  | assigned {before name between behind value after : Bytes} (blanks : IsBlank before)
      (token : IsToken name) (spaced : IsBlank between) (leading : IsBlank behind)
      (isValue : ExtensionValue isText value) (trailing : IsBlank after)
      : ChunkExtension
          (59 :: (before ++ (name ++ (between ++ 61 :: (behind ++ (value ++ after))))))

inductive ChunkExtensions : Bytes → Prop where
  | nil : ChunkExtensions []
  | cons {extension rest : Bytes} (first : ChunkExtension isText extension)
      (later : ChunkExtensions rest) : ChunkExtensions (extension ++ rest)

/-- A size in hexadecimal digits, blanks and extensions. -/
inductive ChunkSizeLine : Bytes → Nat → Prop where
  | sized {digits blanks extensions : Bytes} (filled : digits ≠ [])
      (hex : ∀ byte ∈ digits, isAsciiHexdigit byte = true)
      (fits : hexValue digits ≤ usizeMax) (blank : IsBlank blanks)
      (extended : ChunkExtensions isText extensions)
      : ChunkSizeLine (digits ++ (blanks ++ extensions)) (hexValue digits)

end Grammar

/-! Chunk-size lines hold no line break. -/

/-- Text that holds no part of a line break. -/
def IsPlain (line : Bytes) : Prop :=
  ∀ byte ∈ line, byte ≠ 10 ∧ byte ≠ 13

/-- What passes a test that the parts of a line break fail. -/
theorem plain_of_test {test : UInt8 → Bool} (ends : test 10 = false ∧ test 13 = false) {byte}
    (passes : test byte = true)
    : byte ≠ 10 ∧ byte ≠ 13 := by
  constructor <;> rintro rfl <;> simp_all

theorem IsBlank.isPlain {text} (blank : IsBlank text) : IsPlain text :=
  fun byte member => plain_of_test (by decide) (blank byte member)

theorem IsToken.isPlain {text} (token : IsToken text) : IsPlain text :=
  fun byte member => plain_of_test (by decide) (token.2 byte member)

theorem isPlain_append {front back} (left : IsPlain front) (right : IsPlain back)
    : IsPlain (front ++ back) :=
  forall_mem_append.mpr ⟨left, right⟩

variable {rest : Bytes}

theorem isPlain_cons {byte} (first : byte ≠ 10 ∧ byte ≠ 13) (later : IsPlain rest)
    : IsPlain (byte :: rest) :=
  forall_mem_cons.mpr ⟨first, later⟩

theorem QuotedRest.isPlain (closed : QuotedRest isQuotedText rest) : IsPlain rest := by
  induction closed with
  | close => exact isPlain_cons (by decide) (forall_mem_nil _)
  | @text byte rest plain later ih =>
    exact isPlain_cons (plain_of_test (by decide) plain) ih
  | pair quoted later ih =>
    exact isPlain_cons (by decide) (isPlain_cons (plain_of_test (by decide) quoted) ih)

theorem ChunkExtension.isPlain {extension} (isExtension : ChunkExtension isQuotedText extension)
    : IsPlain extension := by
  cases isExtension with
  | name blanks token trailing =>
    exact isPlain_cons (by decide)
      (isPlain_append blanks.isPlain (isPlain_append token.isPlain trailing.isPlain))
  | @assigned before name between behind value after blanks token spaced leading isValue trailing =>
    have plainValue : IsPlain value := by
      cases isValue with
      | token token => exact token.isPlain
      | quoted closed => exact isPlain_cons (by decide) closed.isPlain
    refine isPlain_cons (by decide) (isPlain_append blanks.isPlain ?_)
    refine isPlain_append token.isPlain (isPlain_append spaced.isPlain ?_)
    refine isPlain_cons (by decide) (isPlain_append leading.isPlain ?_)
    exact isPlain_append plainValue trailing.isPlain

theorem ChunkSizeLine.isPlain {line size} (isLine : ChunkSizeLine isQuotedText line size)
    : IsPlain line := by
  obtain ⟨-, hex, -, blank, extended⟩ := isLine
  refine isPlain_append (fun byte member => plain_of_test (by decide) (hex byte member)) ?_
  refine isPlain_append blank.isPlain ?_
  induction extended with
  | nil => exact forall_mem_nil _
  | cons first later ih => exact isPlain_append first.isPlain ih

/-! What the scanners accept is in the grammar. -/

theorem exists_run (test : UInt8 → Bool) (data : Bytes)
    : ∃ run, data = run ++ data.dropWhile test ∧ ∀ byte ∈ run, test byte = true :=
  ⟨data.takeWhile test, (takeWhile_append_dropWhile).symm, fun _ member => mem_takeWhile_imp member⟩

/-- A token is read from its first character on. -/
theorem exists_token {byte} (first : isHttpTokenByte byte = true) (data : Bytes)
    : ∃ token, byte :: data = token ++ data.dropWhile isHttpTokenByte ∧ IsToken token := by
  obtain ⟨run, split, all⟩ := exists_run isHttpTokenByte data
  refine ⟨byte :: run, by rw [cons_append, ← split], cons_ne_nil _ _, ?_⟩
  rw [forall_mem_cons]
  exact ⟨first, all⟩

variable {data : Bytes}

/-- A quoted value is read to its closing quote, by induction on its bytes. -/
theorem quotedValueEnd_sound {escaped} (ended : quotedValueEnd escaped data = some rest)
    : ∃ read, data = read ++ rest
        ∧ QuotedRest isQuotedText (if escaped then 92 :: read else read) := by
  fun_induction quotedValueEnd escaped data with
  | case3 byte tail quoted ih =>
    obtain ⟨read, rfl, later⟩ := ih ended
    exact ⟨byte :: read, rfl, .pair (by simpa using quoted) later⟩
  | case4 byte tail escape ih =>
    obtain ⟨read, rfl, later⟩ := ih ended
    exact ⟨byte :: read, rfl, by rw [eq_of_beq escape]; exact later⟩
  | case5 byte tail plain quote =>
    cases ended
    exact ⟨[byte], rfl, by rw [eq_of_beq quote]; exact .close⟩
  | case6 byte tail plain open' visible ih =>
    obtain ⟨read, rfl, later⟩ := ih ended
    refine ⟨byte :: read, rfl, .text ?_ later⟩
    simp [isQuotedText, bne, open', plain, visible]
  | case1 | case2 | case7 => cases ended

theorem extensionValueEnd_sound (ended : extensionValueEnd data = some rest)
    : ∃ blanks value, data = blanks ++ (value ++ rest) ∧ IsBlank blanks
        ∧ ExtensionValue isQuotedText value := by
  obtain ⟨blanks, split, blank⟩ := exists_run isSpaceTab data
  simp only [extensionValueEnd, skipHttpBws] at ended
  split at ended
  · cases ended
  rename_i byte tail found
  rw [found] at split
  split at ended
  · rename_i quote
    obtain ⟨read, rfl, closed⟩ := quotedValueEnd_sound ended
    exact ⟨blanks, 34 :: read, by rw [split, eq_of_beq quote]; rfl, blank, .quoted closed⟩
  split at ended
  · cases ended
  rename_i token
  obtain ⟨value, read, isToken⟩ := exists_token (by simpa using token) tail
  cases ended
  exact ⟨blanks, value, by rw [split, read], blank, .token isToken⟩

/-- Every turn of the extension loop reads an extension. -/
theorem chunkExtension_sound (read : chunkExtension data = some rest)
    : ∃ extension, data = extension ++ rest ∧ ChunkExtension isQuotedText extension := by
  rcases data with _ | ⟨semicolon, data⟩
  · cases read
  obtain ⟨before, split, blank⟩ := exists_run isSpaceTab data
  simp only [chunkExtension, skipHttpBws] at read
  split at read
  · cases read
  rename_i marked
  have semicolon : semicolon = 59 := by simpa using marked
  subst semicolon
  split at read
  · cases read
  rename_i byte named found
  rw [found] at split
  split at read
  · cases read
  rename_i token
  obtain ⟨name, nameRead, isToken⟩ := exists_token (by simpa using token) named
  obtain ⟨after, afterRead, trailing⟩ := exists_run isSpaceTab (named.dropWhile isHttpTokenByte)
  split at read
  · rename_i ended
    cases read
    refine ⟨_, ?_, .name blank isToken trailing⟩
    rw [ended, append_nil] at afterRead
    rw [split, nameRead, afterRead, append_nil]
  rename_i next valued behind
  rw [behind] at afterRead
  split at read
  · rename_i assigned
    obtain ⟨valueEnd, valueRead, rfl⟩ := Option.map_eq_some_iff.mp read
    obtain ⟨leading, value, rfl, isBlank, isValue⟩ := extensionValueEnd_sound valueRead
    obtain ⟨last, lastRead, isLast⟩ := exists_run isSpaceTab valueEnd
    refine ⟨_, ?_, .assigned blank isToken trailing isBlank isValue isLast⟩
    rw [split, nameRead, afterRead, eq_of_beq assigned]
    nth_rewrite 1 [lastRead]
    simp [skipHttpBws]
  · cases read
    exact ⟨_, by rw [split, nameRead, afterRead]; simp, .name blank isToken trailing⟩

theorem chunkExtension_shorter (read : chunkExtension data = some rest)
    : rest.length < data.length := by
  obtain ⟨extension, rfl, isExtension⟩ := chunkExtension_sound read
  cases isExtension <;> simp <;> omega

/-- The extension loop accepts everything behind the size. -/
def chunkExtensionsEnd (rest : Bytes) : Bool :=
  if rest.isEmpty then true
  else
    match _ : chunkExtension rest with
    | none => false
    | some next => chunkExtensionsEnd next
termination_by rest.length
decreasing_by exact chunkExtension_shorter ‹_›

def parseHttpChunkSize (value : Str) : Option Nat :=
  let digits := value.takeWhile isAsciiHexdigit
  if digits.isEmpty then none
  else
    match parseHexUsize digits with
    | none => none
    | some size =>
      if chunkExtensionsEnd (skipHttpBws (value.dropWhile isAsciiHexdigit)) then some size
      else none

theorem chunkExtensionsEnd_sound (accepted : chunkExtensionsEnd data = true)
    : ChunkExtensions isQuotedText data := by
  fun_induction chunkExtensionsEnd data with
  | case1 data empty =>
    rw [isEmpty_iff.mp empty]
    exact .nil
  | case2 data filled missing => cases accepted
  | case3 data filled rest found ih =>
    obtain ⟨extension, rfl, first⟩ := chunkExtension_sound found
    exact .cons first (ih accepted)

theorem parseHttpChunkSize_sound {value size} (parsed : parseHttpChunkSize value = some size)
    : ChunkSizeLine isQuotedText value size := by
  simp only [parseHttpChunkSize] at parsed
  split at parsed
  · cases parsed
  rename_i filled
  split at parsed
  · cases parsed
  rename_i read
  simp only [parseHexUsize] at read
  split at read
  · rename_i fits
    cases read
    split at parsed
    · rename_i accepted
      cases parsed
      obtain ⟨blanks, split, blank⟩ := exists_run isSpaceTab (value.dropWhile isAsciiHexdigit)
      have line := ChunkSizeLine.sized (by simpa using filled)
        (fun byte member => mem_takeWhile_imp member) fits blank
        (chunkExtensionsEnd_sound accepted)
      rw [skipHttpBws, ← split, takeWhile_append_dropWhile] at line
      exact line
    · cases parsed
  · cases read

end NetTrap.Http
