import NetTrap.Sip.Messages

/-! The header fields that an answer repeats, as the handler and the detector find them. -/

namespace NetTrap.Sip

open Rust NetTrap.Core Search List Bool
open Http (IsPlain)

inductive Field where
  | via
  | sender
  | receiver
  | callId
  | cseq
  deriving DecidableEq, Repr

/-- The name in the source. -/
def Field.label : Field → String
  | via => "Via"
  | sender => "From"
  | receiver => "To"
  | callId => "Call-ID"
  | cseq => "CSeq"

/-- The full and the compact name, in small letters. -/
def Field.names : Field → List Str
  | via => [ascii "via", ascii "v"]
  | sender => [ascii "from", ascii "f"]
  | receiver => [ascii "to", ascii "t"]
  | callId => [ascii "call-id", ascii "i"]
  | cseq => [ascii "cseq"]

/-- The value of a line for a field. -/
def fieldValue (field : Field) (line : Str) : Option Str :=
  (splitOnce 58 line).bind fun (key, value) =>
    if (trimSpaceTab key).map toAsciiLowercase ∈ field.names then some (trimSpaceTab value)
    else none

def values (field : Field) (lines : List Str) : List Str :=
  lines.filterMap (fieldValue field)

section Names

theorem sipHeaderNameMatches_iff (field : Field) (key : Str)
    : sipHeaderNameMatches key ((ascii field.label).map toAsciiLowercase) = true
      ↔ key.map toAsciiLowercase ∈ field.names := by
  have lowered : ((ascii field.label).map toAsciiLowercase).map toAsciiLowercase
      = (ascii field.label).map toAsciiLowercase := by
    cases field <;> decide
  rw [sipHeaderNameMatches, eqIgnoreAsciiCase, lowered]
  generalize key.map toAsciiLowercase = lower
  cases field <;> simp +decide [Field.names, Field.label] <;> exact Iff.rfl

theorem tasteHeaderNameMatches_iff (field : Field) (key : Str)
    : tasteHeaderNameMatches key (ascii field.label) = true
      ↔ key.map toAsciiLowercase ∈ field.names := by
  rw [tasteHeaderNameMatches, eqIgnoreAsciiCase]
  generalize key.map toAsciiLowercase = lower
  cases field <;> simp +decide [Field.names, Field.label] <;> exact Iff.rfl

theorem isCseq_iff (key : Str)
    : eqIgnoreAsciiCase key (ascii "CSeq") = true
      ↔ key.map toAsciiLowercase ∈ Field.cseq.names := by
  rw [eqIgnoreAsciiCase, beq_iff_eq, Field.names, mem_singleton]
  exact Iff.rfl

/-- Both tables have the name for the length of the body. -/
theorem tasteHeaderNameMatches_contentLength (key : Str)
    : tasteHeaderNameMatches key (ascii "content-length")
      = sipHeaderNameMatches key (ascii "content-length") := by
  rw [tasteHeaderNameMatches, sipHeaderNameMatches, Bool.eq_iff_iff]
  simp +decide

end Names

section Texts

/-- A text that decodes to characters among which are no separators of lines. -/
def Decodes (text : Str) : Prop :=
  ∃ out, decodeUtf8 text = some out ∧ ∀ char ∈ out, isUnicodeLineSeparator char = false

variable {text : Str}

theorem decodes_iff
    : Decodes text ↔ fromUtf8 text = some text ∧ containsUnicodeLineSeparator text = false := by
  rw [Decodes, fromUtf8, containsUnicodeLineSeparator, chars]
  cases decodeUtf8 text with
  | none => simp
  | some out => simp

/-- Both sides of an ASCII character. -/
theorem Decodes.split {front back byte} (decodes : Decodes (front ++ byte :: back))
    (small : byte < 0x80)
    : Decodes front ∧ Decodes back := by
  obtain ⟨out, decoded, clean⟩ := decodes
  obtain ⟨before, behind, front', back', rfl⟩ := decodeUtf8_split small decoded
  exact ⟨⟨before, front', fun char member => clean char (mem_append_left _ member)⟩,
    ⟨behind, back', fun char member => clean char (mem_append_right _ (.tail _ member))⟩⟩

theorem isSpaceTab_lt {byte} (blank : isSpaceTab byte = true) : byte < 0x80 := by
  simp only [isSpaceTab, or_eq_true, beq_iff_eq] at blank
  rcases blank with rfl | rfl <;> decide

theorem Decodes.dropWhile (decodes : Decodes text) : Decodes (text.dropWhile isSpaceTab) := by
  induction text with
  | nil => exact decodes
  | cons byte text ih =>
    by_cases blank : isSpaceTab byte = true
    · rw [dropWhile_cons_of_pos blank]
      have whole : Decodes ([] ++ byte :: text) := decodes
      exact ih (whole.split (isSpaceTab_lt blank)).2
    · rwa [dropWhile_cons_of_neg blank]

theorem Decodes.dropWhile_reverse (decodes : Decodes text)
    : Decodes (text.reverse.dropWhile isSpaceTab).reverse := by
  induction text using reverseRecOn with
  | nil => exact decodes
  | append_singleton text byte ih =>
    rw [reverse_concat]
    by_cases blank : isSpaceTab byte = true
    · rw [dropWhile_cons_of_pos blank]
      exact ih (Decodes.split decodes (isSpaceTab_lt blank)).1
    · rw [dropWhile_cons_of_neg blank, reverse_cons, reverse_reverse]
      exact decodes

theorem Decodes.trimSpaceTab (decodes : Decodes text) : Decodes (trimSpaceTab text) :=
  decodes.dropWhile.dropWhile_reverse

theorem mem_of_mem_trimSpaceTab {byte} (member : byte ∈ trimSpaceTab text) : byte ∈ text := by
  rw [NetTrap.Rust.trimSpaceTab, mem_reverse] at member
  have kept := (dropWhile_sublist _).subset member
  exact (dropWhile_sublist _).subset (mem_reverse.mp kept)

theorem containsLineBreak_eq {value} (decodes : Decodes value) (plain : IsPlain value)
    : containsLineBreak value = false := by
  obtain ⟨out, decoded, clean⟩ := decodes
  rw [containsLineBreak, chars, decoded, Option.getD_some, any_eq_false]
  intro char member
  have carriage : char ≠ 13 := by
    rintro rfl
    have small : (13 : UInt8) < 0x80 := by decide
    exact plain.no_carriageReturn (mem_of_mem_decodeUtf8 decoded small member)
  have feed : char ≠ 10 := by
    rintro rfl
    have small : (10 : UInt8) < 0x80 := by decide
    exact (plain 10 (mem_of_mem_decodeUtf8 decoded small member)).1 rfl
  simp [carriage, feed, clean char member]

end Texts

section Extraction

/-- The only value of a list, if there is no second one. -/
def single {α : Type} : List α → Option (Option α)
  | [] => some none
  | [value] => some (some value)
  | _ => none

/-- A line that is a header wherever it stands. -/
structure Regular (line : Str) : Prop where
  plain : IsPlain line
  decodes : Decodes line
  keyed (key value : Str)
    : splitOnce 58 line = some (key, value) → key ≠ [] ∧ startsWithWhitespace key = false

variable {field : Field} {line : Str} {ls : List Str}

theorem fieldValue_eq_none_of_unsplit (unsplit : splitOnce 58 line = none)
    : fieldValue field line = none := by
  rw [fieldValue, unsplit]
  rfl

theorem fieldValue_of_split {key value} (split : splitOnce 58 line = some (key, value))
    : fieldValue field line
      = if (trimSpaceTab key).map toAsciiLowercase ∈ field.names then some (trimSpaceTab value)
        else none := by
  rw [fieldValue, split]
  rfl

theorem values_cons (field : Field) (line : Str) (ls : List Str)
    : values field (line :: ls) = (fieldValue field line).toList ++ values field ls := by
  rw [values, filterMap_cons]
  cases fieldValue field line <;> rfl

/-- The blank line has no value. -/
theorem values_blank (field : Field) (ls : List Str)
    : values field (ls ++ [[]]) = values field ls := by
  rw [values, filterMap_append]
  exact append_nil _

/-- The detector sees a header where there is a value. -/
theorem isTastedHeader_eq (plain : IsPlain line)
    : isTastedHeader field.label line = (fieldValue field line).isSome := by
  rw [isTastedHeader, trimEndMatches_plain plain]
  cases line with
  | nil => rfl
  | cons first rest =>
    rw [if_neg (by simp)]
    cases split : splitOnce 58 (first :: rest) with
    | none => rw [fieldValue_eq_none_of_unsplit split, Option.isSome_none]
    | some pair =>
      rw [fieldValue_of_split split, Bool.eq_iff_iff, tasteHeaderNameMatches_iff]
      split <;> simp_all

theorem sipHeaderPresent_iff {headers} (found : (lines headers).drop 1 = ls) (field : Field)
    (plain : ∀ line ∈ ls, IsPlain line)
    : sipHeaderPresent headers field.label = true ↔ values field ls ≠ [] := by
  rw [sipHeaderPresent, found, any_eq_true, values, ne_eq, filterMap_eq_nil_iff]
  push Not
  refine exists_congr fun line => and_congr_right fun member => ?_
  rw [isTastedHeader_eq (plain line member), Option.isSome_iff_ne_none]

theorem sipUniqueHeaderPresent_iff {headers} (found : (lines headers).drop 1 = ls) (field : Field)
    (plain : ∀ line ∈ ls, IsPlain line)
    : sipUniqueHeaderPresent headers field.label = true ↔ (values field ls).length = 1 := by
  have counted : (ls.filter (isTastedHeader field.label)).length = (values field ls).length := by
    rw [values, length_filterMap_eq_countP, ← countP_eq_length_filter]
    exact countP_congr fun line member => by rw [isTastedHeader_eq (plain line member)]
  simp [sipUniqueHeaderPresent, found, counted]
  omega

/-- Witness: induction on the lines; the empty one ends the loop. -/
theorem cseqLoop_eq (plain : ∀ line ∈ ls, IsPlain line) (nonempty : ∀ line ∈ ls, line ≠ [])
    (cseq : Option Str)
    : cseqLoop cseq (ls ++ [[]]) = single (cseq.toList ++ values .cseq ls) := by
  induction ls generalizing cseq with
  | nil => cases cseq <;> rfl
  | cons line ls ih =>
    obtain ⟨plainLine, plains⟩ := forall_mem_cons.mp plain
    obtain ⟨filled, others⟩ := forall_mem_cons.mp nonempty
    rw [cons_append, cseqLoop, trimEndMatches_plain plainLine, if_neg (by simpa using filled),
      values_cons]
    cases split : splitOnce 58 line with
    | none =>
      rw [fieldValue_eq_none_of_unsplit split]
      exact ih plains others cseq
    | some pair =>
      rw [fieldValue_of_split split]
      dsimp only
      by_cases named : (trimSpaceTab pair.1).map toAsciiLowercase ∈ Field.cseq.names
      · rw [(isCseq_iff _).mpr named, if_pos named]
        cases cseq with
        | none => exact ih plains others _
        | some cseq => rfl
      · rw [eq_false_iff.mpr (mt (isCseq_iff _).mp named), if_neg named]
        exact ih plains others cseq

/-- The handler sees a header where there is a value. -/
theorem isHeader_eq (regular : Regular line)
    : isHeader ((ascii field.label).map toAsciiLowercase) line
      = (fieldValue field line).isSome := by
  rw [isHeader]
  cases split : splitOnce 58 line with
  | none => rw [fieldValue_eq_none_of_unsplit split, Option.isSome_none]
  | some pair =>
    obtain ⟨nonempty, dark⟩ := regular.keyed pair.1 pair.2 split
    have named := sipHeaderNameMatches_iff field (trimSpaceTab pair.1)
    rw [fieldValue_of_split split, Bool.eq_iff_iff]
    simp only [dark, Bool.and_eq_true, named]
    split <;> simp_all

/-- The value of a header has no line break. -/
theorem Regular.containsLineBreak {key value} (regular : Regular line)
    (split : splitOnce 58 line = some (key, value))
    : containsLineBreak (trimSpaceTab value) = false := by
  have joined := splitOnce_eq split
  have decodes : Decodes (key ++ 58 :: value) := joined ▸ regular.decodes
  apply containsLineBreak_eq (decodes.split (by decide)).2.trimSpaceTab
  intro byte member
  apply regular.plain byte
  rw [joined]
  exact mem_append_right _ (.tail _ (mem_of_mem_trimSpaceTab member))

theorem extractHeader_eq {text} (found : lines text = ls ++ [[]])
    (regular : ∀ line ∈ ls, Regular line)
    : extractHeader text field.label = (values field ls).head? := by
  rw [extractHeader, found]
  clear found
  induction ls with
  | nil => rfl
  | cons line ls ih =>
    obtain ⟨first, others⟩ := forall_mem_cons.mp regular
    rw [cons_append, find?_cons, isHeader_eq first, values_cons]
    cases split : splitOnce 58 line with
    | none =>
      rw [fieldValue_eq_none_of_unsplit split]
      exact ih others
    | some pair =>
      rw [fieldValue_of_split split]
      by_cases named : (trimSpaceTab pair.1).map toAsciiLowercase ∈ field.names
      · rw [if_pos named]
        simp only [Option.isSome_some, Option.bind_eq_bind, Option.bind_some, split,
          first.containsLineBreak split]
        rfl
      · rw [if_neg named]
        exact ih others

theorem uniqueHeaderLoop_eq (regular : ∀ line ∈ ls, Regular line) (value : Option Str)
    : (uniqueHeaderLoop ((ascii field.label).map toAsciiLowercase) value (ls ++ [[]])).toOption
      = single (value.toList ++ values field ls) := by
  induction ls generalizing value with
  | nil => cases value <;> rfl
  | cons line ls ih =>
    obtain ⟨first, others⟩ := forall_mem_cons.mp regular
    rw [cons_append, uniqueHeaderLoop, values_cons]
    cases split : splitOnce 58 line with
    | none =>
      rw [fieldValue_eq_none_of_unsplit split]
      exact ih others value
    | some pair =>
      obtain ⟨nonempty, dark⟩ := first.keyed pair.1 pair.2 split
      have filled : pair.1.isEmpty = false := by simpa using nonempty
      have unbroken := first.containsLineBreak split
      rw [fieldValue_of_split split]
      dsimp only
      rw [filled, dark, unbroken, Bool.false_or, Bool.false_or]
      by_cases named : (trimSpaceTab pair.1).map toAsciiLowercase ∈ field.names
      · rw [(sipHeaderNameMatches_iff field _).mpr named, if_pos named]
        cases value with
        | none => exact ih others _
        | some value => rfl
      · rw [eq_false_iff.mpr (mt (sipHeaderNameMatches_iff field _).mp named), if_neg named]
        exact ih others value

theorem extractUniqueHeader_eq (field : Field) {text} (found : lines text = ls ++ [[]])
    (regular : ∀ line ∈ ls, Regular line)
    : (extractUniqueHeader text field.label).toOption = single (values field ls) := by
  rw [extractUniqueHeader, found]
  exact uniqueHeaderLoop_eq regular none

end Extraction

end NetTrap.Sip
