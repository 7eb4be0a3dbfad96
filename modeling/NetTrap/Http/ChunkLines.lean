import NetTrap.Http.Syntax

/-! Chunk-size lines: the scanner accepts its grammar and nothing else.
The framer and the parser hold the same text for the scanner, so one statement covers both.
-/

namespace NetTrap.Http

open Rust List Bool

variable {rest : Bytes}

variable {test : UInt8 → Bool}

theorem dropWhile_run {run} (all : ∀ byte ∈ run, test byte = true)
    (stops : ∀ byte ∈ rest.head?, test byte = false)
    : (run ++ rest).dropWhile test = rest := by
  rw [dropWhile_append_of_pos all]
  cases rest with
  | nil => rfl
  | cons byte rest => exact dropWhile_cons_of_neg (by simp [stops byte rfl])

theorem takeWhile_run {run} (all : ∀ byte ∈ run, test byte = true)
    (stops : ∀ byte ∈ rest.head?, test byte = false)
    : (run ++ rest).takeWhile test = run := by
  rw [takeWhile_append_of_pos all]
  cases rest with
  | nil => simp
  | cons byte rest => simp [stops byte rfl]

/-- Nothing is left, or another extension. -/
def AtExtension (rest : Bytes) : Prop :=
  ∀ byte ∈ rest.head?, byte = 59

theorem AtExtension.stops (atExtension : AtExtension rest) (semicolon : test 59 = false)
    : ∀ byte ∈ rest.head?, test byte = false := by
  intro byte first
  rw [atExtension byte first, semicolon]

variable {blanks : Bytes}

/-- A run of other characters ends at blanks and at what ends the blanks. -/
theorem stops_blank (blank : IsBlank blanks) (space : test 32 = false) (tab : test 9 = false)
    (stops : ∀ byte ∈ rest.head?, test byte = false)
    : ∀ byte ∈ (blanks ++ rest).head?, test byte = false := by
  rcases blanks with _ | ⟨first, blanks⟩
  · exact stops
  · rintro byte ⟨⟩
    have isBlank := blank first (mem_cons_self ..)
    simp only [isSpaceTab, or_eq_true, beq_iff_eq] at isBlank
    rcases isBlank with rfl | rfl
    · exact space
    · exact tab

/-- Blanks end at text that starts with no blank. -/
theorem skipHttpBws_blank (blank : IsBlank blanks)
    (stops : ∀ byte ∈ rest.head?, isSpaceTab byte = false)
    : skipHttpBws (blanks ++ rest) = rest :=
  dropWhile_run blank stops

theorem IsToken.not_blank {name} (token : IsToken name)
    : ∀ byte ∈ (name ++ rest).head?, isSpaceTab byte = false := by
  obtain ⟨filled, all⟩ := token
  rcases name with _ | ⟨first, name⟩
  · exact absurd rfl filled
  · rintro byte ⟨⟩
    have isToken := all first (mem_cons_self ..)
    by_contra blank
    simp only [isSpaceTab, not_eq_false, or_eq_true, beq_iff_eq] at blank
    rcases blank with rfl | rfl <;> revert isToken <;> decide

theorem quotedValueEnd_complete {read} (closed : QuotedRest isQuotedText read)
    : quotedValueEnd false (read ++ rest) = some rest := by
  induction closed with
  | close => rfl
  | @text byte read plain later ih =>
    simp only [isQuotedText, and_eq_true, bne_iff_ne, ne_eq] at plain
    simp [quotedValueEnd, plain, ih]
  | @pair byte read quoted later ih => simp [quotedValueEnd, quoted, ih]

theorem extensionValueEnd_complete {value} (blank : IsBlank blanks)
    (isValue : ExtensionValue isQuotedText value)
    (stops : ∀ byte ∈ rest.head?, isHttpTokenByte byte = false)
    : extensionValueEnd (blanks ++ (value ++ rest)) = some rest := by
  cases isValue with
  | token token =>
    rw [extensionValueEnd, skipHttpBws_blank blank token.not_blank]
    obtain ⟨filled, all⟩ := token
    rcases value with _ | ⟨first, value⟩
    · exact absurd rfl filled
    rw [forall_mem_cons] at all
    have unquoted : ¬ first = 34 := by
      rintro rfl
      exact absurd all.1 (by decide)
    simp [unquoted, all.1, dropWhile_run all.2 stops]
  | quoted closed =>
    rw [extensionValueEnd, skipHttpBws_blank blank (by rintro byte ⟨⟩; rfl)]
    exact quotedValueEnd_complete closed

/-- The name of an extension is read to the blanks behind it. -/
theorem chunkExtension_name {before name tail skipped result}
    (blanks : IsBlank before) (token : IsToken name)
    (stops : ∀ byte ∈ tail.head?, isHttpTokenByte byte = false)
    (skips : skipHttpBws tail = skipped)
    (behind : (∃ valued, skipped = 61 :: valued
        ∧ result = (extensionValueEnd valued).map skipHttpBws)
      ∨ AtExtension skipped ∧ result = some skipped)
    : chunkExtension (59 :: (before ++ (name ++ tail))) = result := by
  rw [chunkExtension, skipHttpBws_blank blanks token.not_blank]
  obtain ⟨filled, all⟩ := token
  rcases name with _ | ⟨first, name⟩
  · exact absurd rfl filled
  rw [forall_mem_cons] at all
  simp only [cons_append, all.1, dropWhile_run all.2 stops, skips, bne_self_eq_false,
    Bool.not_true, Bool.false_eq_true, if_false]
  rcases behind with ⟨valued, rfl, rfl⟩ | ⟨atExtension, rfl⟩
  · rfl
  · rcases skipped with _ | ⟨byte, skipped⟩
    · rfl
    · cases atExtension byte rfl
      rfl

theorem chunkExtension_complete {extension} (isExtension : ChunkExtension isQuotedText extension)
    (atExtension : AtExtension rest)
    : chunkExtension (extension ++ rest) = some rest := by
  have behindBlanks {blanks : Bytes} (blank : IsBlank blanks)
      : skipHttpBws (blanks ++ rest) = rest :=
    skipHttpBws_blank blank (atExtension.stops rfl)
  have endsToken {blanks : Bytes} (blank : IsBlank blanks)
      : ∀ byte ∈ (blanks ++ rest).head?, isHttpTokenByte byte = false :=
    stops_blank blank rfl rfl (atExtension.stops (by decide))
  cases isExtension with
  | @name before name after blanks token trailing =>
    simp only [cons_append, append_assoc]
    exact chunkExtension_name blanks token (endsToken trailing) (behindBlanks trailing)
      (.inr ⟨atExtension, rfl⟩)
  | @assigned before name between behind value after blanks token spaced leading isValue trailing =>
    simp only [cons_append, append_assoc]
    refine chunkExtension_name blanks token (stops_blank spaced rfl rfl ?_)
      (skipHttpBws_blank spaced ?_) (.inl ⟨_, rfl, ?_⟩)
    · rintro byte ⟨⟩
      decide
    · rintro byte ⟨⟩
      rfl
    · rw [extensionValueEnd_complete leading isValue (endsToken trailing), Option.map_some,
        behindBlanks trailing]

section

variable {extensions} (extended : ChunkExtensions isQuotedText extensions)
include extended

theorem ChunkExtensions.atExtension : AtExtension extensions := by
  cases extended with
  | nil => simp [AtExtension]
  | cons first later => cases first <;> simp [AtExtension]

theorem chunkExtensionsEnd_complete : chunkExtensionsEnd extensions = true := by
  induction extended with
  | nil =>
    rw [chunkExtensionsEnd]
    rfl
  | @cons extension rest first later ih =>
    have read := chunkExtension_complete first later.atExtension
    rw [chunkExtensionsEnd]
    split
    · rfl
    split
    · rename_i missing
      rw [read] at missing
      cases missing
    · rename_i next found
      rw [read] at found
      cases found
      exact ih

end

theorem parseHttpChunkSize_complete {line size} (isLine : ChunkSizeLine isQuotedText line size)
    : parseHttpChunkSize line = some size := by
  cases isLine with
  | @sized digits blanks extensions filled hex fits blank extended =>
    have stops : ∀ byte ∈ (blanks ++ extensions).head?, isAsciiHexdigit byte = false :=
      stops_blank blank rfl rfl (extended.atExtension.stops rfl)
    have nonempty : digits.isEmpty = false := isEmpty_eq_false_iff.mpr filled
    have skipped := skipHttpBws_blank blank (extended.atExtension.stops rfl)
    simp [parseHttpChunkSize, takeWhile_run hex stops, dropWhile_run hex stops, nonempty,
      parseHexUsize, fits, skipped, chunkExtensionsEnd_complete extended]

/-- A line is read as a chunk size exactly if it is one by the grammar. -/
theorem parse_http_chunk_size_iff (line : Str) (size : Nat)
    : parseHttpChunkSize line = some size ↔ ChunkSizeLine isQuotedText line size :=
  ⟨parseHttpChunkSize_sound, parseHttpChunkSize_complete⟩

/-- The characters that HTTP allows in a quoted string, tabs included. -/
def isQdtext (byte : UInt8) : Bool :=
  byte == 9 || isQuotedText byte

/-- A last chunk whose extension has a tab for its value. -/
theorem chunkSizeLine_tab : ChunkSizeLine isQdtext (ascii "0;a=\"\t\"") 0 := by
  have none : IsBlank [] := by simp [IsBlank]
  have name : IsToken (ascii "a") := by
    unfold IsToken
    decide +kernel
  have value : ExtensionValue isQdtext (ascii "\"\t\"") := .quoted (.text rfl .close)
  have extension : ChunkExtension isQdtext (ascii ";a=\"\t\"") :=
    .assigned none name none none value none
  have digit : ascii "0" ≠ [] ∧ ∀ byte ∈ ascii "0", isAsciiHexdigit byte = true := by
    decide +kernel
  exact .sized digit.1 digit.2 (by decide) none (.cons extension .nil)

/-- A quoted value with a tab, which is not read. -/
theorem parse_http_chunk_size_tab
    : ChunkSizeLine isQdtext (ascii "0;a=\"\t\"") 0
      ∧ parseHttpChunkSize (ascii "0;a=\"\t\"") = none :=
  ⟨chunkSizeLine_tab, by decide +kernel⟩

end NetTrap.Http
