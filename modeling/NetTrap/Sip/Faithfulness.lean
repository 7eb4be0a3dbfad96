import NetTrap.Sip.Agreement

/-! Which requests are answered faithfully: the handler takes a request line for a header if it
looks like one, the detector does not. -/

namespace NetTrap.Sip

open Rust NetTrap.Core Search List Option
open Http (IsPlain blankLine)

/-- The head and the body are not too large. -/
def InLimits (data : Bytes) : Prop :=
  ∀ position, findSub blankLine data = some position
    → position + 4 ≤ maxSipHeaderBytes ∧ data.length - (position + 4) ≤ maxSipBodyBytes

/-- The lines behind the request line. -/
def headerLines (data : Bytes) : List Str :=
  match findSub blankLine data with
  | none => []
  | some position => (lines (data.take (position + 2))).drop 1

def requestLine (data : Bytes) : Str :=
  match findSub blankLine data with
  | none => []
  | some position => (lines (data.take (position + 2))).headD []

/-- The answer has a status, the cleaned values of the first `Via` line and of the only other lines,
and more lines. Line breaks are between lines only. -/
def Repeats (data answer : Bytes) : Prop :=
  ∃ (raw : Echo) (status : Str) (others : List Str),
    (values .via (headerLines data)).head? = some raw.via
    ∧ values .sender (headerLines data) = [raw.sender]
    ∧ values .receiver (headerLines data) = [raw.receiver]
    ∧ values .callId (headerLines data) = [raw.callId]
    ∧ values .cseq (headerLines data) = [raw.cseq]
    ∧ answer = encodeLines (status :: raw.sanitize.lines ++ others)
    ∧ ∀ line ∈ status :: raw.sanitize.lines ++ others, IsPlain line

/-- The handler answers what the detector takes, and its answers repeat the request. -/
def Faithful (data : Bytes) : Prop :=
  (handle data ≠ [] ↔ looksLikeSipRequestLine data = true)
    ∧ (handle data ≠ [] → Repeats data (handle data))

/-- The lines have what a request needs of a field: a `Via`, one of each other field, and a sequence
number with the method. -/
def Filled (method : Str) (ls : List Str) : Field → Prop
  | .via => values .via ls ≠ []
  | .cseq => ∃ value, values .cseq ls = [value] ∧ cseqMatchesMethod value method = true
  | field => ∃ value, values field ls = [value]

/-- The handler reads the request line as a header line, which the detector does not, and it
matters. The line comes before or in place of the `Via` lines, it makes a field occur twice, or it
stands for one that is missing. -/
inductive Misread (method request : Str) (fields : List Str) : Prop where
  | via {value} (given : fieldValue .via request = some value)
      (others : ∀ other ≠ .via, Filled method fields other)
      (differs : (values .via fields).head?.map sanitizeHeaderValue
        ≠ some (sanitizeHeaderValue value))
  | twice {field value} (given : fieldValue field request = some value) (once : field ≠ .via)
      (filled : ∀ other, Filled method fields other)
  | instead {field value} (given : fieldValue field request = some value) (once : field ≠ .via)
      (others : ∀ other ≠ field, Filled method fields other) (missing : values field fields = [])
      (sequence : field = .cseq → cseqMatchesMethod value method = true)

section Replies

theorem isPlain_append {front back} (plainFront : IsPlain front) (plainBack : IsPlain back)
    : IsPlain (front ++ back) := by
  intro byte member
  rcases mem_append.mp member with inside | inside
  · exact plainFront byte inside
  · exact plainBack byte inside

instance : DecidablePred IsPlain := fun line =>
  inferInstanceAs (Decidable (∀ byte ∈ line, byte ≠ 10 ∧ byte ≠ 13))

theorem isPlain_replyFrame (method : Str)
    : IsPlain (replyFrame method).1 ∧ ∀ line ∈ (replyFrame method).2, IsPlain line := by
  rw [replyFrame]
  split_ifs <;> decide +kernel

theorem isPlain_echoLines (raw : Echo) : ∀ line ∈ raw.sanitize.lines, IsPlain line := by
  have labelled {label : Str} (plain : IsPlain label) (value : Str)
      : IsPlain (label ++ sanitizeHeaderValue value) :=
    isPlain_append plain (isPlain_sanitizeHeaderValue value)
  simp only [Echo.lines, Echo.sanitize, forall_mem_cons]
  refine ⟨labelled ?_ _, labelled ?_ _, labelled ?_ _, labelled ?_ _, labelled ?_ _, by simp⟩
  all_goals decide +kernel

theorem handle_ne_nil_iff {data}
    : handle data ≠ [] ↔ ∃ answer ≠ [], respond data = some answer := by
  rw [handle]
  cases respond data <;> simp

end Replies

section Requests

variable {data : Bytes} {position : Nat} {request method : Str} {fields : List Str}

theorem headerLines_of_isHead (isHead : IsHead data position request fields)
    : headerLines data = fields := by
  rw [headerLines, isHead.first]
  dsimp only
  rw [isHead.lines, lines_encodeLines isHead.plain]
  rfl

theorem requestLine_of_isHead (isHead : IsHead data position request fields)
    : requestLine data = request := by
  rw [requestLine, isHead.first]
  dsimp only
  rw [isHead.lines, lines_encodeLines isHead.plain]
  rfl

theorem exists_carries_iff_filled {ls : List Str}
    : (∃ raw, Carries method ls raw) ↔ ∀ field, Filled method ls field := by
  constructor
  · rintro ⟨raw, via, sender, receiver, callId, cseq, sequence⟩ field
    cases field with
    | via =>
      intro none
      rw [none] at via
      cases via
    | sender => exact ⟨_, sender⟩
    | receiver => exact ⟨_, receiver⟩
    | callId => exact ⟨_, callId⟩
    | cseq => exact ⟨_, cseq, sequence⟩
  · intro filled
    obtain ⟨via, others, found⟩ := exists_cons_of_ne_nil (filled .via)
    obtain ⟨sender, hasSender⟩ := filled .sender
    obtain ⟨receiver, hasReceiver⟩ := filled .receiver
    obtain ⟨callId, hasCallId⟩ := filled .callId
    obtain ⟨cseq, hasCseq, sequence⟩ := filled .cseq
    exact ⟨⟨via, sender, receiver, callId, cseq⟩, by rw [found]; rfl, hasSender, hasReceiver,
      hasCallId, hasCseq, sequence⟩

/-- A line has a value for one field at most. -/
theorem fieldValue_other {field other : Field} {value : Str}
    (given : fieldValue field request = some value) (distinct : other ≠ field)
    : fieldValue other request = none := by
  have apart : ∀ name ∈ field.names, name ∉ other.names := by
    revert distinct
    cases field <;> cases other <;> decide
  rw [fieldValue, Option.bind_eq_some_iff] at given
  obtain ⟨⟨key, rest⟩, split, given⟩ := given
  rw [fieldValue_of_split split, if_neg (apart _ (Option.ite_none_right_eq_some.mp given).1)]

theorem filled_cons_of_none {field : Field} (none : fieldValue field request = none)
    : Filled method (request :: fields) field ↔ Filled method fields field := by
  have same : values field (request :: fields) = values field fields := by
    rw [values_cons, none]
    rfl
  cases field <;> simp only [Filled, same]

theorem filled_cons_of_given {field : Field} {value : Str}
    (given : fieldValue field request = some value) (once : field ≠ .via)
    : Filled method (request :: fields) field
      ↔ values field fields = [] ∧ (field = .cseq → cseqMatchesMethod value method = true) := by
  have more : values field (request :: fields) = value :: values field fields := by
    rw [values_cons, given]
    rfl
  cases field with
  | via => exact absurd rfl once
  | _ => grind [Filled]

theorem not_filled_of_nil {field : Field} (missing : values field fields = [])
    : ¬ Filled method fields field := by
  cases field <;> simp [Filled, missing]

theorem filled_cons_via {value : Str} (given : fieldValue .via request = some value)
    : Filled method (request :: fields) .via := by
  rw [Filled, values_cons, given]
  exact cons_ne_nil _ _

section Reading

variable (fair : ¬ Misread method request fields)
include fair

/-- Where the request line does not matter, what is complete with it is complete without it. -/
theorem filled_of_filled_cons (filled : ∀ field, Filled method (request :: fields) field)
    : ∀ field, Filled method fields field := by
  intro field
  cases given : fieldValue field request with
  | none => exact (filled_cons_of_none given).mp (filled field)
  | some value =>
    have others : ∀ other ≠ field, Filled method fields other := fun other distinct =>
      (filled_cons_of_none (fieldValue_other given distinct)).mp (filled other)
    by_cases once : field = .via
    · subst once
      intro missing
      refine fair (.via given others ?_)
      rw [missing]
      simp
    · obtain ⟨missing, sequence⟩ := (filled_cons_of_given given once).mp (filled field)
      exact absurd (.instead given once others missing sequence) fair

theorem filled_cons_of_filled (filled : ∀ field, Filled method fields field)
    : ∀ field, Filled method (request :: fields) field := by
  intro field
  cases given : fieldValue field request with
  | none => exact (filled_cons_of_none given).mpr (filled field)
  | some value =>
    by_cases once : field = .via
    · subst once
      exact filled_cons_via given
    · exact absurd (.twice given once filled) fair

/-- And an answer repeats the lines behind it. -/
theorem exists_carries_of_carries_cons {raw} (carries : Carries method (request :: fields) raw)
    : ∃ other, Carries method fields other ∧ other.sanitize = raw.sanitize := by
  have filled := exists_carries_iff_filled.mp ⟨raw, carries⟩
  obtain ⟨other, inner⟩ := exists_carries_iff_filled.mpr (filled_of_filled_cons fair filled)
  refine ⟨other, inner, ?_⟩
  have plain (field : Field) (once : field ≠ .via)
      : values field (request :: fields) = values field fields := by
    cases given : fieldValue field request with
    | none =>
      rw [values_cons, given]
      rfl
    | some value =>
      exact absurd (.twice given once (exists_carries_iff_filled.mp ⟨other, inner⟩)) fair
  have sender := carries.sender.symm.trans ((plain .sender nofun).trans inner.sender)
  have receiver := carries.receiver.symm.trans ((plain .receiver nofun).trans inner.receiver)
  have callId := carries.callId.symm.trans ((plain .callId nofun).trans inner.callId)
  have cseq := carries.cseq.symm.trans ((plain .cseq nofun).trans inner.cseq)
  have via : sanitizeHeaderValue other.via = sanitizeHeaderValue raw.via := by
    have outer := carries.via
    rw [values_cons] at outer
    cases given : fieldValue .via request with
    | none =>
      rw [given] at outer
      rw [Option.some.inj (inner.via.symm.trans outer)]
    | some value =>
      rw [given] at outer
      cases outer
      by_contra differs
      refine fair (.via given (fun field _ => exists_carries_iff_filled.mp ⟨other, inner⟩ field) ?_)
      rw [inner.via]
      exact fun same => differs (Option.some.inj same)
  rw [Echo.sanitize, Echo.sanitize, via, singleton_injective sender, singleton_injective receiver,
    singleton_injective callId, singleton_injective cseq]

end Reading

/-- What both ask of the head of a message. -/
def HasHead (data : Bytes) : Prop :=
  ∃ position, findSub blankLine data = some position
    ∧ hasStrayLineEnding (data.take (position + 4)) data = false
    ∧ Decodes (data.take (position + 4))

theorem hasHead_of_messageSections {sections} (found : messageSections data = some sections)
    : HasHead data := by
  rw [messageSections, bind_eq_bind, bind_eq_some_iff] at found
  obtain ⟨position, first, found⟩ := found
  dsimp only at found
  split at found
  · cases found
  split at found
  · cases found
  rename_i whole
  split at found
  · cases found
  rw [bind_eq_bind, bind_eq_some_iff] at found
  obtain ⟨headers, decoded, found⟩ := found
  split at found
  · cases found
  rename_i clean
  cases fromUtf8_eq decoded
  exact ⟨position, first, by simpa using whole, decodes_iff.mpr ⟨decoded, by simpa using clean⟩⟩

theorem hasHead_of_looksLike (looks : looksLikeSipRequestLine data = true) : HasHead data := by
  rw [looksLikeSipRequestLine] at looks
  split at looks
  case h_2 => cases looks
  case h_1 line position _ first =>
    split at looks
    · cases looks
    rename_i crlfEndings
    dsimp only at looks
    split at looks
    · cases looks
    rename_i headers decoded
    split at looks
    · cases looks
    rename_i formed
    cases fromUtf8_eq decoded
    refine ⟨position, first, ?_, decodes_iff.mpr ⟨decoded, ?_⟩⟩
    · rw [← hasStrayLineEnding_of_first first]
      simpa [crlfLineEndingsArePlausible] using crlfEndings
    · by_contra separated
      rw [sipHeadersAreWellFormed, if_pos (by simpa using separated)] at formed
      exact formed rfl

theorem hasHead_of_handle (answers : handle data ≠ []) : HasHead data := by
  obtain ⟨answer, _, responded⟩ := handle_ne_nil_iff.mp answers
  rw [respond, bind_eq_bind, bind_eq_some_iff] at responded
  obtain ⟨sections, found, _⟩ := responded
  exact hasHead_of_messageSections found

/-- An answer is a list of lines, the repeated ones behind the first. -/
theorem exists_lines_reply (method : Str) (raw : Echo)
    : ∃ status others,
        reply method raw.sanitize = encodeLines (status :: raw.sanitize.lines ++ others)
        ∧ ∀ line ∈ status :: raw.sanitize.lines ++ others, IsPlain line := by
  obtain ⟨plainStatus, plainOthers⟩ := isPlain_replyFrame method
  refine ⟨(replyFrame method).1, (replyFrame method).2 ++ [ascii "Content-Length: 0", []], ?_, ?_⟩
  · simp [reply]
  · have ending : ∀ line ∈ [ascii "Content-Length: 0", []], IsPlain line := by
      decide +kernel
    rw [cons_append, forall_mem_cons, forall_mem_append, forall_mem_append]
    exact ⟨plainStatus, isPlain_echoLines raw, plainOthers, ending⟩

theorem repeats_reply {raw} (found : headerLines data = fields)
    (carries : Carries method fields raw)
    : Repeats data (reply method raw.sanitize) := by
  obtain ⟨status, others, written, plain⟩ := exists_lines_reply method raw
  subst found
  exact ⟨raw, status, others, carries.via, carries.sender, carries.receiver, carries.callId,
    carries.cseq, written, plain⟩

section Head

variable (isHead : IsHead data position request fields)
  (decodes : Decodes (data.take (position + 4)))
  (whole : hasStrayLineEnding (data.take (position + 4)) data = false) (limits : InLimits data)
include isHead decodes whole limits

theorem handle_ne_nil_iff_carries
    : handle data ≠ []
      ↔ contentLengthMatchesBody (data.take (position + 4)) (data.length - (position + 4)) = true
        ∧ headersAreWellFormed (data.take (position + 4)) = true
        ∧ ∃ method raw, requestMethod request = some method
          ∧ Carries method (request :: fields) raw := by
  obtain ⟨headFits, bodyFits⟩ := limits position isHead.first
  have responds (answer : Bytes) : respond data = some answer ↔ _ :=
    respond_eq_some_iff isHead decodes whole headFits bodyFits
  rw [handle_ne_nil_iff]
  constructor
  · rintro ⟨answer, -, responded⟩
    obtain ⟨sized, formed, method, raw, isRequest, carries, -⟩ := (responds answer).mp responded
    exact ⟨sized, formed, method, raw, isRequest, carries⟩
  · rintro ⟨sized, formed, method, raw, isRequest, carries⟩
    exact ⟨reply method raw.sanitize, by simp [reply, encodeLines, crlf],
      (responds _).mpr ⟨sized, formed, method, raw, isRequest, carries, rfl⟩⟩

variable
  (sized : contentLengthMatchesBody (data.take (position + 4)) (data.length - (position + 4))
      = true)
  (formed : headersAreWellFormed (data.take (position + 4)) = true)
  (isRequest : requestMethod request = some method)
include sized formed isRequest

theorem handle_of_carries {raw} (carries : Carries method (request :: fields) raw)
    : handle data = reply method raw.sanitize := by
  obtain ⟨headFits, bodyFits⟩ := limits position isHead.first
  rw [handle, (respond_eq_some_iff isHead decodes whole headFits bodyFits).mpr
    ⟨sized, formed, method, raw, isRequest, carries, rfl⟩, getD_some]

/-- Witness: the three ways in which the request line matters are three ways in which the two sides
part. -/
theorem faithful_iff_of_request : Faithful data ↔ ¬ Misread method request fields := by
  have answers : handle data ≠ [] ↔ ∀ field, Filled method (request :: fields) field := by
    rw [handle_ne_nil_iff_carries isHead decodes whole limits, ← exists_carries_iff_filled]
    simp [sized, formed, isRequest]
  have looks : looksLikeSipRequestLine data = true ↔ ∀ field, Filled method fields field := by
    rw [looksLikeSipRequestLine_iff isHead decodes whole, ← exists_carries_iff_filled]
    simp [sized, formed, isRequest]
  have behind := headerLines_of_isHead isHead
  rw [Faithful, answers, looks]
  constructor
  · rintro ⟨agree, repeats⟩ misread
    cases misread with
    | @via value given others differs =>
      have filled : ∀ field, Filled method (request :: fields) field := by
        intro field
        by_cases here : field = .via
        · exact here ▸ filled_cons_via given
        · exact (filled_cons_of_none (fieldValue_other given here)).mpr (others field here)
      obtain ⟨raw, carries⟩ := exists_carries_iff_filled.mpr filled
      obtain ⟨other, status, rest, via, -, -, -, -, same, plain⟩ := repeats filled
      obtain ⟨status', rest', written, plain'⟩ := exists_lines_reply method raw
      rw [handle_of_carries isHead decodes whole limits sized formed isRequest carries, written]
        at same
      have lines := congrArg lines same
      rw [lines_encodeLines plain', lines_encodeLines plain] at lines
      have second := Option.some.inj (congrArg (fun ls : List Str => ls[1]?) lines)
      have outer := carries.via
      rw [values_cons, given] at outer
      cases outer
      rw [behind] at via
      refine differs ?_
      rw [via, Option.map_some]
      exact congrArg some (append_cancel_left second).symm
    | @twice field value given once filled =>
      have missing := ((filled_cons_of_given given once).mp (agree.mpr filled field)).1
      exact not_filled_of_nil missing (filled field)
    | @instead field value given once others missing sequence =>
      refine not_filled_of_nil missing (agree.mp (fun other => ?_) field)
      by_cases here : other = field
      · exact here ▸ (filled_cons_of_given given once).mpr ⟨missing, sequence⟩
      · exact (filled_cons_of_none (fieldValue_other given here)).mpr (others other here)
  · intro fair
    refine ⟨⟨filled_of_filled_cons fair, filled_cons_of_filled fair⟩, fun filled => ?_⟩
    obtain ⟨raw, carries⟩ := exists_carries_iff_filled.mpr filled
    obtain ⟨other, inner, same⟩ := exists_carries_of_carries_cons fair carries
    rw [handle_of_carries isHead decodes whole limits sized formed isRequest carries, ← same]
    exact repeats_reply behind inner

end Head

end Requests

/-- Everything is in order but, perhaps, the request line and the fields that an answer repeats. -/
def Framed (data : Bytes) : Prop :=
  ∃ position, findSub blankLine data = some position
    ∧ hasStrayLineEnding (data.take (position + 4)) data = false
    ∧ Decodes (data.take (position + 4))
    ∧ contentLengthMatchesBody (data.take (position + 4)) (data.length - (position + 4)) = true
    ∧ headersAreWellFormed (data.take (position + 4)) = true

/-- A datagram within the limits is answered faithfully, or left alone by both sides, unless its
request line is read as a header line where that matters. -/
theorem sip_faithful_iff (data : Bytes) (limits : InLimits data)
    : Faithful data
      ↔ (Framed data → ∀ method, requestMethod (requestLine data) = some method
        → ¬ Misread method (requestLine data) (headerLines data)) := by
  by_cases head : HasHead data
  · obtain ⟨position, found, whole, decodes⟩ := head
    obtain ⟨request, fields, isHead⟩ := exists_head found whole
    have answers := handle_ne_nil_iff_carries isHead decodes whole limits
    have looks := looksLikeSipRequestLine_iff isHead decodes whole
    rw [requestLine_of_isHead isHead, headerLines_of_isHead isHead]
    have framed : Framed data
        ↔ contentLengthMatchesBody (data.take (position + 4)) (data.length - (position + 4)) = true
          ∧ headersAreWellFormed (data.take (position + 4)) = true := by
      simp [Framed, found, whole, decodes]
    cases isRequest : requestMethod request with
    | none =>
      rw [isRequest] at answers looks
      simp [Faithful, answers, looks]
    | some method =>
      by_cases ready : Framed data
      · obtain ⟨sized, formed⟩ := framed.mp ready
        rw [faithful_iff_of_request isHead decodes whole limits sized formed isRequest]
        simp [ready]
      · have refuses : handle data = [] ∧ looksLikeSipRequestLine data = false := by
          grind
        simp [Faithful, refuses, ready]
  · have unframed : ¬ Framed data := fun ⟨position, found, whole, decodes, _⟩ =>
      head ⟨position, found, whole, decodes⟩
    exact iff_of_true ⟨iff_of_false (mt hasHead_of_handle head) (mt hasHead_of_looksLike head),
      fun answers => absurd (hasHead_of_handle answers) head⟩ fun ready => absurd ready unframed

theorem inLimits_of_length {data} (small : data.length ≤ maxSipHeaderBytes) : InLimits data := by
  intro position found
  have inside := findSub_add_le (by decide) found
  simp only [blankLine, length_cons, length_nil] at inside
  simp only [maxSipHeaderBytes, maxSipBodyBytes] at small ⊢
  omega

/-- A request line that reads as a `From` line, with the given lines behind it. -/
def senderRequest (fields : List String) : Bytes :=
  encodeLines (ascii "F :x SIP/2.0" :: fields.map ascii ++ [[]])

theorem sip_faithful_without_headers : Faithful (senderRequest []) := by
  have bare : headerLines (senderRequest []) = [] := by decide +kernel
  have nothing {field : Field} : values field [] = [] := rfl
  refine (sip_faithful_iff _ (inLimits_of_length (by decide +kernel))).mpr fun _ method _ => ?_
  rw [bare]
  intro misread
  cases misread with
  | via _ others => exact not_filled_of_nil nothing (others .sender nofun)
  | twice _ _ filled => exact not_filled_of_nil nothing (filled .via)
  | instead _ once others => exact not_filled_of_nil nothing (others .via once.symm)

/-- All headers are there, and `From` is found twice by the handler. -/
theorem sip_request_line_read_as_header
    : let data := senderRequest ["Via: a", "From: b", "To: c", "Call-ID: d", "CSeq: 1 F"]
      InLimits data ∧ handle data = [] ∧ looksLikeSipRequestLine data = true :=
  ⟨inLimits_of_length (by decide +kernel), by decide +kernel, by decide +kernel⟩

end NetTrap.Sip
