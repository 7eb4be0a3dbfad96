import NetTrap.Library.Ber
import NetTrap.Sip.Fields

/-! The detector of the proxy takes the requests that the handler answers, and answers repeat what
the request says. -/

namespace NetTrap.Sip

open Rust NetTrap.Core Search Access List
open Http (IsPlain blankLine unsignedDecimal)

section Heads

variable {data : Bytes} {position : Nat} {request : Str} {fields : List Str}

theorem IsHead.take_eq (isHead : IsHead data position request fields)
    : data.take (position + 4) = encodeLines (request :: fields ++ [[]]) := by
  rw [(take_of_first isHead.first).2, isHead.lines, encodeLines_append]
  rfl

theorem lines_of_isHead (isHead : IsHead data position request fields)
    : lines (data.take (position + 4)) = request :: fields ++ [[]] := by
  rw [isHead.take_eq]
  apply lines_encodeLines
  intro line member
  rcases mem_append.mp member with inside | last
  · exact isHead.plain line inside
  · rw [mem_singleton.mp last]
    exact fun byte inside => absurd inside not_mem_nil

/-- Lines that stand in a text that decodes do so as well. -/
theorem Decodes.line {ls} (decodes : Decodes (encodeLines ls)) : ∀ line ∈ ls, Decodes line := by
  induction ls with
  | nil => simp
  | cons line ls ih =>
    have opened : Decodes (line ++ 13 :: 10 :: encodeLines ls) := by
      simpa [encodeLines_cons, crlf] using decodes
    obtain ⟨here, behind⟩ := opened.split (by decide)
    have feed : Decodes ([] ++ 10 :: encodeLines ls) := behind
    exact forall_mem_cons.mpr ⟨here, ih (feed.split (by decide)).2⟩

theorem firstTextLine_eq (isHead : IsHead data position request fields) (decodes : Decodes request)
    : firstTextLine data = some request := by
  have plain := isHead.plain request mem_cons_self
  have split : data = request ++ 13 :: 10 :: (encodeLines fields ++ data.drop (position + 2)) := by
    conv_lhs => rw [← take_append_drop (position + 2) data, isHead.lines, encodeLines_cons]
    simp [crlf]
  have start : data.takeWhile (· != 10) = request ++ [13] := by
    have before : ∀ byte ∈ request ++ [13], (byte != 10) = true := by
      intro byte member
      rcases mem_append.mp member with inside | last
      · simpa using (plain byte inside).1
      · rw [mem_singleton.mp last]
        decide
    have regroup : data
        = (request ++ [13]) ++ 10 :: (encodeLines fields ++ data.drop (position + 2)) := by
      conv_lhs => rw [split]
      simp
    rw [regroup, takeWhile_append_of_pos before, takeWhile_cons_of_neg (by decide), append_nil]
  obtain ⟨decoded, clean⟩ := decodes_iff.mp decodes
  rw [firstTextLine, start]
  simp [stripSuffix, decoded, clean]

theorem headerLinesLoop_iff {ls} (plain : ∀ line ∈ ls, IsPlain line)
    (nonempty : ∀ line ∈ ls, line ≠ [])
    : headerLinesLoop (ls ++ [[]]) = true ↔ ∀ line ∈ ls, isHeaderLine line = true := by
  induction ls with
  | nil => simp [headerLinesLoop, trimEndMatches]
  | cons line ls ih =>
    obtain ⟨plainLine, plains⟩ := forall_mem_cons.mp plain
    obtain ⟨filled, others⟩ := forall_mem_cons.mp nonempty
    rw [cons_append, headerLinesLoop, trimEndMatches_plain plainLine,
      if_neg (by simpa using filled), forall_mem_cons, ← ih plains others]
    cases isHeaderLine line <;> simp

/-- The first character of a text is that of a front that ends before an ASCII character. -/
theorem startsWithWhitespace_append {front back byte} (nonempty : front ≠ [])
    (decodes : Decodes (front ++ byte :: back)) (small : byte < 0x80)
    : startsWithWhitespace (front ++ byte :: back) = startsWithWhitespace front := by
  obtain ⟨out, decoded, _⟩ := decodes
  obtain ⟨before, behind, front', _, rfl⟩ := decodeUtf8_split small decoded
  rw [startsWithWhitespace, startsWithWhitespace, chars, chars, decoded, front']
  cases before with
  | nil =>
    cases front with
    | nil => exact absurd rfl nonempty
    | cons first front =>
      rcases decodeUtf8_cons_cases front' with ⟨_, _, same, _⟩ | ⟨_, _, _, _, _, _, same, _⟩ <;>
        cases same
  | cons char before => rfl

theorem regular_of_isHeaderLine {line} (plain : IsPlain line) (decodes : Decodes line)
    (isLine : isHeaderLine line = true)
    : Regular line where
  plain := plain
  decodes := decodes
  keyed key value split := by
    rw [isHeaderLine, split] at isLine
    simp only [Bool.not_eq_true', Bool.or_eq_false_iff] at isLine
    obtain ⟨⟨named, dark⟩, _⟩ := isLine
    have nonempty : key ≠ [] := by
      rintro rfl
      cases named
    have joined := splitOnce_eq split
    subst joined
    rw [startsWithWhitespace_append nonempty decodes (by decide)] at dark
    exact ⟨nonempty, dark⟩

theorem requestMethod_eq_some {line method} (isRequest : requestMethod line = some method)
    : ∃ target, line = method ++ 32 :: (target ++ 32 :: ascii "SIP/2.0") ∧ method ≠ [] ∧ target ≠ []
        ∧ method.all isAsciiUppercase = true
        ∧ (chars target).any (fun char => isControl char || isWhitespace char) = false := by
  revert isRequest
  fun_cases requestMethod line with
  | case3 _ method' target version parted fine =>
    rintro ⟨⟩
    simp only [Bool.or_eq_true, not_or, Bool.not_eq_true, bne_eq_false_iff_eq,
      Bool.not_eq_false'] at fine
    obtain ⟨⟨⟨⟨⟨named, aimed⟩, calm⟩, _⟩, upper⟩, rfl⟩ := fine
    refine ⟨target, ?_, by simpa using named, by simpa using aimed, upper, calm⟩
    have joined : [32].intercalate (line.splitOn 32) = line := intercalate_splitOn 32
    rw [← joined, parted]
    simp [intercalate]
  | _ => nofun

theorem isAsciiUppercase_facts (byte : UInt8)
    : isAsciiUppercase byte = true → byte < 0x80 ∧ isWhitespace byte.toNat = false := by
  revert byte
  exact Ber.forall_byte (by decide +kernel)

theorem startsWithWhitespace_upper {text} (upper : text.all isAsciiUppercase = true)
    : startsWithWhitespace text = false := by
  rw [all_eq_true] at upper
  rw [startsWithWhitespace, chars_ascii fun byte member =>
    (isAsciiUppercase_facts byte (upper byte member)).1]
  cases text with
  | nil => rfl
  | cons first rest => exact (isAsciiUppercase_facts first (upper first mem_cons_self)).2

theorem regular_of_requestMethod {line method} (plain : IsPlain line) (decodes : Decodes line)
    (isRequest : requestMethod line = some method)
    : Regular line where
  plain := plain
  decodes := decodes
  keyed key value split := by
    obtain ⟨target, rfl, named, _, upper, _⟩ := requestMethod_eq_some isRequest
    have joined := splitOnce_eq split
    have nonempty : key ≠ [] := by
      rintro rfl
      cases method with
      | nil => exact absurd rfl named
      | cons first method =>
        cases joined
        exact absurd (all_eq_true.mp upper 58 mem_cons_self) (by decide)
    refine ⟨nonempty, ?_⟩
    have sameKey :=
        startsWithWhitespace_append nonempty (joined ▸ decodes) (by decide : (58 : UInt8) < 0x80)
    rw [← sameKey, ← joined, startsWithWhitespace_append named decodes (by decide)]
    exact startsWithWhitespace_upper upper

end Heads

section Requests

def Echo.sanitize (raw : Echo) : Echo where
  via := sanitizeHeaderValue raw.via
  sender := sanitizeHeaderValue raw.sender
  receiver := sanitizeHeaderValue raw.receiver
  callId := sanitizeHeaderValue raw.callId
  cseq := sanitizeHeaderValue raw.cseq

/-- The lines have the fields that a request needs: the first `Via`, and each of the others once. -/
structure Carries (method : Str) (ls : List Str) (raw : Echo) : Prop where
  via : (values .via ls).head? = some raw.via
  sender : values .sender ls = [raw.sender]
  receiver : values .receiver ls = [raw.receiver]
  callId : values .callId ls = [raw.callId]
  cseq : values .cseq ls = [raw.cseq]
  sequence : cseqMatchesMethod raw.cseq method = true

theorem join_single {α : Type} {found : List α} {value : α}
    : (single found).join = some value ↔ found = [value] := by
  rcases found with _ | ⟨first, _ | ⟨second, rest⟩⟩ <;> simp [single]

/-- The detector reads a sequence number and a method as the handler does. -/
theorem cseqIsPlausible_eq (cseq method : Str)
    : cseqIsPlausible cseq method = cseqMatchesMethod cseq method := by
  rw [cseqIsPlausible, cseqMatchesMethod]
  split
  · rfl
  · rcases cseq.splitOn 32 with _ | ⟨sequence, _ | ⟨cseqMethod, _ | ⟨third, rest⟩⟩⟩
    · rfl
    · rfl
    · cases cseqMethod <;> rfl
    · exact (ite_self _).symm

variable {headers : Str}

theorem sipCseqMatchesMethod_iff {method ls} (found : (lines headers).drop 1 = ls ++ [[]])
    (plain : ∀ line ∈ ls, IsPlain line) (nonempty : ∀ line ∈ ls, line ≠ [])
    : sipCseqMatchesMethod headers method = true
      ↔ ∃ cseq, values .cseq ls = [cseq] ∧ cseqMatchesMethod cseq method = true := by
  rw [sipCseqMatchesMethod, found, cseqLoop_eq plain nonempty, Option.toList_none, nil_append]
  rcases values .cseq ls with _ | ⟨cseq, _ | ⟨second, rest⟩⟩
  · simp [single]
  · simp [single, cseqIsPlausible_eq, cons.injEq]
  · simp [single]

theorem bodyIsPlausible_some (contentLength bodyLen : Nat)
    : bodyIsPlausible (some contentLength) bodyLen = decide (bodyLen = contentLength) := by
  rw [bodyIsPlausible, Bool.eq_iff_iff, decide_eq_true_eq]
  split
  · simp
    omega
  · simp
    omega

theorem sipHeadersAreWellFormed_eq (clean : containsUnicodeLineSeparator headers = false)
    : sipHeadersAreWellFormed headers = headersAreWellFormed headers := by
  rw [sipHeadersAreWellFormed, clean]
  rfl

/-- The loops over the lines for the length of the body are one. -/
theorem contentLengthMatchesBody_iff (headers : Str) (bodyLen : Nat)
    : contentLengthMatchesBody headers bodyLen = true ↔ ∃ contentLength,
          contentLengthLoop (tasteHeaderNameMatches · (ascii "content-length"))
              (parseSipUnsignedDecimal usizeMax) none ((lines headers).drop 1) = some contentLength
          ∧ bodyIsPlausible contentLength bodyLen = true := by
  have names : (tasteHeaderNameMatches · (ascii "content-length"))
      = (sipHeaderNameMatches · (ascii "content-length")) :=
    funext tasteHeaderNameMatches_contentLength
  have parses : (fun value => unsignedDecimal usizeMax (trimSpaceTab value))
      = parseSipUnsignedDecimal usizeMax := rfl
  rw [contentLengthMatchesBody, names, parses]
  generalize contentLengthLoop _ _ none ((lines headers).drop 1) = length
  rcases length with _ | _ | contentLength
  · simp
  · by_cases empty : bodyLen = 0 <;> simp [bodyIsPlausible, empty]
  · simp [bodyIsPlausible_some]

/-- The detector takes the request line apart as the handler does. -/
theorem tastedMethod_eq {request} (clean : containsUnicodeLineSeparator request = false)
    : tastedMethod request = requestMethod request := by
  rw [tastedMethod, requestMethod, clean, if_neg Bool.false_ne_true]
  rcases request.splitOn 32 with _ | ⟨method, _ | ⟨target, _ | ⟨version, _ | ⟨fourth, rest⟩⟩⟩⟩
  · rfl
  · rfl
  · rfl
  · refine if_congr ?_ rfl rfl
    simp only [Bool.or_eq_true]
    tauto
  · rfl

theorem exists_carries_iff (method : Str) {ls} (found : (lines headers).drop 1 = ls ++ [[]])
    (plain : ∀ line ∈ ls, IsPlain line) (nonempty : ∀ line ∈ ls, line ≠ [])
    : (sipHeaderPresent headers "Via" && sipUniqueHeaderPresent headers "From"
        && sipUniqueHeaderPresent headers "To" && sipUniqueHeaderPresent headers "Call-ID"
        && sipCseqMatchesMethod headers method) = true
      ↔ ∃ raw, Carries method ls raw := by
  have plains : ∀ line ∈ ls ++ [[]], IsPlain line := by
    intro line member
    rcases mem_append.mp member with inside | last
    · exact plain line inside
    · rw [mem_singleton.mp last]
      exact fun byte inside => absurd inside not_mem_nil
  have present (field : Field) := sipHeaderPresent_iff found field plains
  have unique (field : Field) := sipUniqueHeaderPresent_iff found field plains
  simp only [values_blank] at present unique
  simp only [Bool.and_eq_true]
  rw [show "Via" = Field.via.label from rfl, show "From" = Field.sender.label from rfl,
    show "To" = Field.receiver.label from rfl, show "Call-ID" = Field.callId.label from rfl,
    present, unique, unique, unique, sipCseqMatchesMethod_iff found plain nonempty]
  constructor
  · rintro ⟨⟨⟨⟨via, sender⟩, receiver⟩, callId⟩, cseq, only, sequence⟩
    obtain ⟨sender, senders⟩ := length_eq_one_iff.mp sender
    obtain ⟨receiver, receivers⟩ := length_eq_one_iff.mp receiver
    obtain ⟨callId, callIds⟩ := length_eq_one_iff.mp callId
    obtain ⟨via, rest, vias⟩ := exists_cons_of_ne_nil via
    exact ⟨⟨via, sender, receiver, callId, cseq⟩,
      ⟨by rw [vias, head?_cons], senders, receivers, callIds, only, sequence⟩⟩
  · rintro ⟨raw, carries⟩
    refine ⟨⟨⟨⟨?_, ?_⟩, ?_⟩, ?_⟩, raw.cseq, carries.cseq, carries.sequence⟩
    · intro none
      have via := carries.via
      rw [none] at via
      cases via
    · rw [carries.sender, length_singleton]
    · rw [carries.receiver, length_singleton]
    · rw [carries.callId, length_singleton]

/-- What the handler takes of a header that must be there once. -/
theorem unique_iff (field : Field) {name text value ls} (label : field.label = name)
    (found : lines text = ls ++ [[]]) (regular : ∀ line ∈ ls, Regular line)
    : (extractUniqueHeader text name).toOption.join = some value ↔ values field ls = [value] := by
  rw [← label, extractUniqueHeader_eq field found regular, join_single]

section Reading

variable {data : Bytes} {position : Nat} {request : Str} {fields : List Str}
  (isHead : IsHead data position request fields) (decodes : Decodes (data.take (position + 4)))
include isHead decodes

theorem looksLikeSipRequestLine_iff
    (whole : hasStrayLineEnding (data.take (position + 4)) data = false)
    : looksLikeSipRequestLine data = true
      ↔ contentLengthMatchesBody (data.take (position + 4)) (data.length - (position + 4)) = true
        ∧ headersAreWellFormed (data.take (position + 4)) = true
        ∧ ∃ method raw, requestMethod request = some method ∧ Carries method fields raw := by
  have decodesRequest : Decodes request :=
    Decodes.line (isHead.take_eq ▸ decodes) request mem_cons_self
  have tail : (lines (data.take (position + 4))).drop 1 = fields ++ [[]] := by
    rw [lines_of_isHead isHead]
    rfl
  have plains := (forall_mem_cons.mp isHead.plain).2
  have wholeHead : hasStrayLineEnding (data.take (position + 4)) (data.take (position + 4))
      = false :=
    (hasStrayLineEnding_of_first isHead.first).trans whole
  obtain ⟨decoded, clean⟩ := decodes_iff.mp decodes
  obtain ⟨_, cleanRequest⟩ := decodes_iff.mp decodesRequest
  rw [looksLikeSipRequestLine, firstTextLine_eq isHead decodesRequest, isHead.first]
  dsimp only
  rw [crlfLineEndingsArePlausible, wholeHead, decoded, tastedMethod_eq cleanRequest,
    contentLengthMatchesBody_iff]
  dsimp only
  rw [sipHeadersAreWellFormed_eq clean]
  cases formed : headersAreWellFormed (data.take (position + 4)) with
  | false => simp
  | true =>
    cases length : contentLengthLoop (tasteHeaderNameMatches · (ascii "content-length"))
        (parseSipUnsignedDecimal usizeMax) none ((lines (data.take (position + 4))).drop 1) with
    | none => simp
    | some contentLength =>
      cases fits : bodyIsPlausible contentLength (data.length - (position + 4)) with
      | false => simp [fits]
      | true =>
        cases found : requestMethod request with
        | none => simp
        | some method =>
          have carried := exists_carries_iff method tail plains isHead.nonempty
          simp only [fits, Bool.not_true, Bool.not_false, Bool.false_eq_true, if_false]
          rw [carried]
          simp [fits]

theorem messageSections_eq (whole : hasStrayLineEnding (data.take (position + 4)) data = false)
    (headFits : position + 4 ≤ maxSipHeaderBytes)
    (bodyFits : data.length - (position + 4) ≤ maxSipBodyBytes)
    : messageSections data = some (data.take (position + 4), data.length - (position + 4)) := by
  obtain ⟨decoded, clean⟩ := decodes_iff.mp decodes
  rw [messageSections, isHead.first]
  simp only [Option.bind_eq_bind, Option.bind_some, whole, decoded, clean]
  rw [if_neg (Nat.not_lt.mpr headFits), if_neg Bool.false_ne_true, if_neg (Nat.not_lt.mpr bodyFits),
    if_neg Bool.false_ne_true]

theorem regular_lines {method} (formed : headersAreWellFormed (data.take (position + 4)) = true)
    (isRequest : requestMethod request = some method)
    : ∀ line ∈ request :: fields, Regular line := by
  have decodesLines := Decodes.line (isHead.take_eq ▸ decodes)
  obtain ⟨plain, plains⟩ := forall_mem_cons.mp isHead.plain
  rw [headersAreWellFormed, lines_of_isHead isHead] at formed
  have formed := (headerLinesLoop_iff plains isHead.nonempty).mp formed
  refine forall_mem_cons.mpr ⟨?_, fun field member => ?_⟩
  · exact regular_of_requestMethod plain (decodesLines request mem_cons_self) isRequest
  · exact regular_of_isHeaderLine (plains field member)
      (decodesLines field (.tail _ (mem_append_left _ member))) (formed field member)

theorem respond_eq_some_iff {answer}
    (whole : hasStrayLineEnding (data.take (position + 4)) data = false)
    (headFits : position + 4 ≤ maxSipHeaderBytes)
    (bodyFits : data.length - (position + 4) ≤ maxSipBodyBytes)
    : respond data = some answer
      ↔ contentLengthMatchesBody (data.take (position + 4)) (data.length - (position + 4)) = true
        ∧ headersAreWellFormed (data.take (position + 4)) = true
        ∧ ∃ method raw, requestMethod request = some method ∧ Carries method (request :: fields) raw
          ∧ answer = reply method raw.sanitize := by
  have found := lines_of_isHead isHead
  have decodesLines := Decodes.line (isHead.take_eq ▸ decodes)
  have decodesRequest := decodesLines request mem_cons_self
  have cleanRequest := (decodes_iff.mp decodesRequest).2
  rw [respond, messageSections_eq isHead decodes whole headFits bodyFits]
  simp only [Option.bind_eq_bind, Option.bind_some, Option.bind_eq_some_iff, guard_eq_some, found,
    cons_append, head?_cons, Option.getD_some, cleanRequest, Bool.not_false]
  constructor
  · rintro ⟨_, sized, _, formed, _, _, method, isRequest, via, viaFound, sender,
      senderFound, receiver, receiverFound, callId, callIdFound, cseq, cseqFound, _, sequence, same⟩
    have regular := regular_lines isHead decodes formed isRequest
    refine ⟨sized, formed, method, ⟨via, sender, receiver, callId, cseq⟩, isRequest, ?_,
      (Option.some.inj same).symm⟩
    constructor
    · exact (extractHeader_eq found regular).symm.trans viaFound
    · exact (unique_iff .sender rfl found regular).mp senderFound
    · exact (unique_iff .receiver rfl found regular).mp receiverFound
    · exact (unique_iff .callId rfl found regular).mp callIdFound
    · exact (unique_iff .cseq rfl found regular).mp cseqFound
    · exact sequence
  · rintro ⟨sized, formed, method, raw, isRequest, carries, rfl⟩
    have regular := regular_lines isHead decodes formed isRequest
    have via := (extractHeader_eq found regular).trans carries.via
    refine ⟨(), sized, (), formed, (), trivial, method, isRequest, raw.via, via, raw.sender, ?_,
      raw.receiver, ?_, raw.callId, ?_, raw.cseq, ?_, (), carries.sequence, rfl⟩
    · exact (unique_iff .sender rfl found regular).mpr carries.sender
    · exact (unique_iff .receiver rfl found regular).mpr carries.receiver
    · exact (unique_iff .callId rfl found regular).mpr carries.callId
    · exact (unique_iff .cseq rfl found regular).mpr carries.cseq

end Reading

end Requests

section Replies

theorem ofNat_plain {number : Nat} (high : 0x80 ≤ number) (small : number < 0x100)
    : UInt8.ofNat number ≠ 10 ∧ UInt8.ofNat number ≠ 13 := by
  have value : (UInt8.ofNat number).toNat = number := by
    simp
    omega
  constructor
  · intro same
    rw [same] at value
    change 10 = number at value
    omega
  · intro same
    rw [same] at value
    change 13 = number at value
    omega

theorem isPlain_ofNat {number} (small : number < 0x80) (visible : isControl number = false)
    : UInt8.ofNat number ≠ 10 ∧ UInt8.ofNat number ≠ 13 := by
  have all : ∀ number < 0x80, isControl number = false
      → UInt8.ofNat number ≠ 10 ∧ UInt8.ofNat number ≠ 13 := by
    decide +kernel
  exact all number small visible

/-- Only control characters have bytes of line breaks. -/
theorem encodeUtf8_plain {char} (bound : char < 0x200000) (visible : isControl char = false)
    : IsPlain (encodeUtf8 char) := by
  have last : ∀ byte ∈ ([] : Bytes), byte ≠ 10 ∧ byte ≠ 13 := fun byte member =>
    absurd member not_mem_nil
  rw [encodeUtf8, IsPlain]
  split_ifs with one two three
  · exact forall_mem_cons.mpr ⟨isPlain_ofNat one visible, last⟩
  · simp only [forall_mem_cons]
    exact ⟨ofNat_plain (by omega) (by omega), ofNat_plain (by omega) (by omega), last⟩
  · simp only [forall_mem_cons]
    exact ⟨ofNat_plain (by omega) (by omega), ofNat_plain (by omega) (by omega),
      ofNat_plain (by omega) (by omega), last⟩
  · simp only [forall_mem_cons]
    exact ⟨ofNat_plain (by omega) (by omega), ofNat_plain (by omega) (by omega),
      ofNat_plain (by omega) (by omega), ofNat_plain (by omega) (by omega), last⟩

theorem isPlain_sanitizeHeaderValue (value : Str) : IsPlain (sanitizeHeaderValue value) := by
  intro byte member
  rw [sanitizeHeaderValue, mem_flatMap] at member
  obtain ⟨char, inside, member⟩ := member
  have bound : char < 0x200000 := by
    cases decoded : decodeUtf8 value with
    | none =>
      rw [chars, decoded] at inside
      cases inside
    | some out =>
      rw [chars, decoded] at inside
      exact decodeUtf8_lt decoded char inside
  split at member
  case isTrue => exact encodeUtf8_plain (by decide) (by decide) byte member
  case isFalse visible =>
    refine encodeUtf8_plain bound ?_ byte member
    simp only [Bool.or_eq_true, not_or, Bool.not_eq_true] at visible
    exact visible.1

end Replies

end NetTrap.Sip
