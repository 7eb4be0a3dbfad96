import NetTrap.Ldap.Controls

/-! Where the LDAP handler leaves the bytes it was given. -/

namespace NetTrap.Ldap

open Access Rust Ber Exec List Option

/-! The message. -/

/-- The identifier of a message, what follows it in the message, and what follows the message. -/
def readHead (data : Bytes) : Option (Nat × Bytes × Bytes) :=
  (Ber.readTlv maxBerLength 0x30 data).bind fun (message, more) =>
  (Ber.readTlv maxBerLength 0x02 message).bind fun (id, rest) =>
  (parseMessageIdValue id).map fun msgId => (msgId, rest, more)

theorem parseMessageIdValue_length {id msgId} (parsed : parseMessageIdValue id = some msgId)
    : id.length ≠ 0 ∧ id.length ≤ 4 := by
  rw [parseMessageIdValue] at parsed
  split at parsed
  · cases parsed
  next canonical =>
  cases id with
  | nil => exact absurd rfl canonical
  | cons first rest =>
    simp only [isCanonicalNonNegativeInteger, Bool.not_eq_true', Bool.not_eq_false,
      Bool.and_eq_true, Bool.or_eq_false_iff, decide_eq_false_iff_not] at canonical
    exact ⟨by simp, by omega⟩

theorem length_of_readHead {data rest more msgId} (read : readHead data = some (msgId, rest, more))
    : rest.length ≤ maxBerLength := by
  simp only [readHead, bind_eq_some_iff, map_eq_some_iff, Prod.exists,
    readTlv_eq_some maxBerLength_lt, Prod.mk.injEq] at read
  obtain ⟨_, _, ⟨-, short⟩, _, _, ⟨rfl, -⟩, _, -, -, rfl, -⟩ := read
  rw [length_append] at short
  omega

theorem parseMessageId_finds (data : Bytes)
    : (parseMessageId data).Finds (readHead data) fun found read =>
        ∃ pos seqEnd, found = (read.1, pos, seqEnd) ∧ Within data seqEnd
          ∧ Cursor (data.take seqEnd) pos read.2.1 ∧ (seqEnd = data.length ↔ read.2.2 = []) := by
  cases data with
  | nil => exact .nothing
  | cons first tail =>
    rw [parseMessageId, readHead, head?_cons, readTlv]
    by_cases tagged : first = 0x30
    swap
    · simpa [tagged] using .nothing
    simp only [if_neg (show ¬ (first != 0x30) = true by simpa using tagged), if_pos tagged]
    have start : Cursor ((first :: tail).take (first :: tail).length) 1 tail := by
      rw [take_length]
      exact (Cursor.start (first :: tail)).next
    generalize first :: tail = data at start ⊢
    refine (valueBounds_finds parseBerLength_reads maxBerLength_lt (Nat.le_refl _) start
      (by omega)).bind rfl ?_
    rintro _ ⟨message, more⟩ read ⟨pos, rfl, behind⟩
    have within : Within data (pos + message.length) := by
      have before := start.length_below (Nat.le_refl _)
      have after := behind.length_below (Nat.le_refl _)
      obtain ⟨rfl, short⟩ := (readValue_eq_some maxBerLength_lt).mp read
      have field := length_lengthField_le (short.trans_lt maxBerLength_lt)
      simp only [length_append] at before after
      have bound : maxBerLength = 16777216 := rfl
      exact ⟨by omega, by omega⟩
    have last := behind.advance.eq_limit_iff (Nat.le_refl _)
    refine element_finds within (behind.cut (Nat.le_refl _)) fun after => ?_
    refine (bounds_finds within after).bind rfl ?_
    rintro _ ⟨id, rest⟩ - ⟨start, rfl, behind⟩
    simp only [Nat.add_sub_cancel_left, behind.slice_below within.inside, done_bind]
    cases parsed : parseMessageIdValue id with
    | none =>
      split
      · exact .nothing
      · exact .nothing
    | some msgId =>
      rw [if_neg (by simpa using parseMessageIdValue_length parsed)]
      exact .something ⟨_, _, rfl, within, behind.advance, last⟩

section Element

variable {data tail : Bytes} {op : UInt8} {opOffset seqEnd : Nat} (within : Within data seqEnd)
  (cursor : Cursor (data.take seqEnd) opOffset (op :: tail))
include within cursor

theorem checkedAdd_next : checkedAdd opOffset 1 = some (opOffset + 1) ∧ opOffset + 1 ≤ seqEnd := by
  have low := within.low
  have length := cursor.length_below within.inside
  rw [length_cons] at length
  refine ⟨checkedAdd_of_le ?_, by omega⟩
  simp only [usizeMax]
  omega

theorem operationEnd_finds
    : (operationEnd data opOffset seqEnd).Finds (readValue maxBerLength tail) fun opEnd read =>
        ∃ start, opEnd = start + read.1.length
            ∧ Cursor (data.take seqEnd) start (read.1 ++ read.2) := by
  obtain ⟨next, inside⟩ := checkedAdd_next within cursor
  simp only [operationEnd, next]
  rw [if_neg (by omega), ← bind_fun_some (readValue _ _)]
  refine (bounds_finds within cursor.next).bind rfl ?_
  rintro _ ⟨body, rest⟩ - ⟨start, rfl, behind⟩
  exact .something ⟨start, rfl, behind⟩

end Element

/-- What may follow the operation of a message. -/
def TailValid (tail : Bytes) : Prop :=
  tail = [] ∨ ∃ controls : List Control, tail = Ber.tlv 0xa0 (encodeControls controls)

theorem messageTailIsValid_decides {data tail tailStart seqEnd} (within : Within data seqEnd)
    (cursor : Cursor (data.take seqEnd) tailStart tail) (small : tail.length ≤ maxBerLength)
    : (messageTailIsValid data tailStart seqEnd).Decides (TailValid tail) := by
  have atEnd := cursor.eq_limit_iff within.inside
  rw [messageTailIsValid]
  by_cases empty : tail = []
  · rw [if_pos (by simpa using atEnd.mpr empty)]
    exact .yes (.inl empty)
  rw [if_neg (by simpa using atEnd.not.mpr empty),
    if_neg ((cursor.limit_le_iff within.inside).not.mpr empty)]
  have only : TailValid tail ↔ ∃ read, readTlv maxBerLength 0xa0 tail = some read ∧ read.2 = []
      ∧ ∃ controls : List Control, read.1 = encodeControls controls := by
    rw [readTlv_iff small]
    constructor
    · rintro (rfl | ⟨controls, rfl⟩)
      · exact absurd rfl empty
      · exact ⟨_, [], (append_nil _).symm, rfl, controls, rfl⟩
    · rintro ⟨_, _, rfl, rfl, controls, rfl⟩
      exact .inr ⟨controls, append_nil _⟩
  obtain ⟨first, rest, rfl⟩ := exists_cons_of_ne_nil empty
  rw [only, (checkedAdd_next within cursor).1]
  refine element_decides within cursor empty fun after => ?_
  refine .step (bounds_finds within after) rfl ?_
  rintro _ ⟨controls, rest⟩ read ⟨start, rfl, behind⟩
  have short := ((readValue_eq_some maxBerLength_lt).mp read).2
  refine .guard (by simp [behind.advance.eq_limit_iff within.inside]) fun _ => ?_
  rw [behind.slice_below within.inside, done_bind]
  exact controlsAreWellFormed_decides short

/-! The operation. -/

/-- The identifier, operation and controls of a message. -/
def readMessage (data : Bytes) : Option (Nat × UInt8 × Bytes × Bytes) :=
  (readHead data).bind fun (msgId, rest, more) =>
  if ¬ more = [] then none else
  rest.head?.bind fun op =>
  (Ber.readTlv maxBerLength op rest).map fun (body, tail) => (msgId, op, body, tail)

/-- An operation in its message, with what follows it. -/
structure Operation (data : Bytes) (opOffset opEnd : Nat) (op : UInt8) (body tail : Bytes)
    : Prop where
  within : Within data data.length
  cursor : Cursor data opOffset (Ber.tlv op body ++ tail)
  stop : opEnd = opOffset + (Ber.tlv op body).length
  short : body.length ≤ maxBerLength

namespace Operation

variable {data body tail : Bytes} {opOffset opEnd : Nat} {op : UInt8}
  (operation : Operation data opOffset opEnd op body tail)
include operation

theorem behind : Cursor data opEnd tail := by
  rw [operation.stop]
  exact operation.cursor.advance

theorem below : Within data opEnd :=
  ⟨operation.behind.inside, operation.behind.inside.trans operation.within.low⟩

theorem element : Cursor (data.take opEnd) opOffset (tlv op body) := by
  have cursor : Cursor (data.take data.length) opOffset (tlv op body ++ tail) := by
    rw [take_length]
    exact operation.cursor
  rw [operation.stop]
  exact cursor.cut (Nat.le_refl _)

theorem item : Access.item data opOffset = .done op :=
  operation.cursor.item

/-- Behind the tag and the length stands the body. -/
theorem operationBody
    : ∃ pos, operationBody data opOffset opEnd = .done (some pos)
      ∧ Cursor (data.take opEnd) pos body := by
  have length := operation.element.length_below operation.below.inside
  have size := length_add_two_le_tlv op body
  have next := (checkedAdd_next operation.below operation.element).1
  have fields : Cursor (data.take opEnd) (opOffset + 1) (lengthField body.length ++ body) :=
    operation.element.next
  have read := readLength_lengthField (operation.short.trans_lt maxBerLength_lt) body
  refine ⟨_, ?_, fields.advance⟩
  simp only [Ldap.operationBody, next]
  rw [if_neg (by omega), fields.slice_limit operation.below.inside, done_bind,
    parseBerLength_reads, read, bind_some, if_pos operation.short]
  rfl

end Operation

theorem handle_cases (baseDn data : Bytes)
    : (handle baseDn data = .done [] ∧ (data.length < 7 ∨ ∀ {msgId op body tail},
            readMessage data = some (msgId, op, body, tail) → ¬ TailValid tail))
      ∨ ∃ msgId op body tail opOffset opEnd,
          handle baseDn data = handleOperation baseDn data msgId opOffset opEnd
          ∧ readMessage data = some (msgId, op, body, tail)
          ∧ TailValid tail
          ∧ Operation data opOffset opEnd op body tail := by
  rw [handle]
  by_cases size : data.length < 7
  · exact .inl ⟨if_pos size, .inl size⟩
  rw [if_neg size]
  obtain ⟨first, rest, shape⟩ := exists_cons_of_length_pos (show 0 < data.length by omega)
  have start : item data 0 = .done first := by
    rw [shape]
    rfl
  rw [start, done_bind]
  by_cases sequence : first = 0x30
  swap
  · refine .inl ⟨if_pos (by simpa using sequence), .inr ?_⟩
    intro msgId op body tail read
    rw [shape] at read
    simp [readMessage, readHead, readTlv, sequence] at read
  rw [if_neg (by simpa using sequence)]
  rcases parseMessageId_finds data with
    ⟨none, head⟩ | ⟨_, ⟨msgId, rest, more⟩, found, head, opOffset, seqEnd, rfl,
        within, cursor, last⟩
  · rw [none]
    exact .inl ⟨rfl, .inr fun read => by simp [readMessage, head] at read⟩
  simp only [found, done_bind]
  by_cases whole : more = []
  swap
  · exact .inl ⟨if_pos (by simpa using last.not.mpr whole),
      .inr fun read => by simp [readMessage, head, whole] at read⟩
  rw [if_neg (by simpa using last.mpr whole)]
  obtain rfl := last.mpr whole
  cases rest with
  | nil =>
    exact .inl ⟨if_pos ((cursor.limit_le_iff within.inside).mpr rfl),
      .inr fun read => by simp [readMessage, head] at read⟩
  | cons op rest =>
    rw [if_neg ((cursor.limit_le_iff within.inside).not.mpr (cons_ne_nil _ _))]
    rcases operationEnd_finds within cursor with
      ⟨none, same⟩ | ⟨_, ⟨body, tail⟩, found, same, start, rfl, behind⟩
    · rw [none]
      exact .inl ⟨rfl, .inr fun read => by simp [readMessage, head, readTlv, same] at read⟩
    have message : readMessage data = some (msgId, op, body, tail) := by
      simp [readMessage, head, whole, readTlv, same]
    obtain ⟨field, short⟩ := (readValue_eq_some maxBerLength_lt).mp same
    have tailShort : tail.length ≤ maxBerLength := by
      have sizes := congrArg length field
      simp only [length_append] at sizes
      have shorter := length_of_readHead head
      rw [length_cons] at shorter
      omega
    obtain ⟨verdict, checked, meaning⟩ :=
      messageTailIsValid_decides within behind.advance tailShort
    simp only [found, checked, done_bind]
    by_cases valid : verdict = true
    swap
    · refine .inl ⟨if_pos (by simpa using valid), .inr ?_⟩
      intro _ _ _ _ read tailValid
      rw [message] at read
      cases read
      exact valid (meaning.mpr tailValid)
    rw [if_neg (by simpa using valid)]
    refine .inr ⟨msgId, op, body, tail, opOffset, _, rfl, message, meaning.mp valid, ?_⟩
    rw [take_length] at cursor behind
    refine ⟨within, ?_, ?_, short⟩
    · rw [field] at cursor
      rw [tlv, cons_append, cons_append, append_assoc]
      exact cursor
    · have before := cursor.length
      have after := behind.length
      have sizes := congrArg length field
      simp only [length_append, length_cons] at before after sizes
      simp [tlv]
      omega

theorem saslAuthChoice_finishes {value} (small : value.length ≤ maxBerLength)
    : (saslAuthChoiceIsWellFormed value).Finishes := by
  refine (consumeExpectedTlvValue_finds (.whole small) (wholeCursor value) 0x04).finishes
    (.done _) ?_
  rintro _ ⟨mechanism, rest⟩ - ⟨pos, rfl, behind⟩
  refine .guard fun _ => ?_
  refine .guard fun _ => ?_
  exact (consumeExpectedTlv_finds (.whole small) behind 0x04).finishes (.done _)
    fun _ _ _ _ => .done _

section Operation

variable {data body tail : Bytes} {opOffset opEnd : Nat} {op : UInt8}
  (operation : Operation data opOffset opEnd op body tail)
include operation

/-- The tag behind the name of a bind request may be that of the controls, which no form of
authentication has.
-/
theorem Operation.bind_finishes (valid : TailValid tail)
    : (bindRequestIsWellFormed data opOffset opEnd).Finishes := by
  have below := operation.below
  obtain ⟨pos, start, cursor⟩ := operation.operationBody
  rw [bindRequestIsWellFormed, start, done_bind]
  refine (consumeExpectedTlvValue_finds below cursor 0x02).finishes (.done _) ?_
  rintro _ ⟨version, rest⟩ - ⟨pos, rfl, cursor⟩
  refine .guard fun _ => ?_
  refine (consumeExpectedTlv_finds below cursor 0x04).finishes (.done _) ?_
  rintro ⟨_, pos⟩ ⟨_, rest⟩ - cursor
  dsimp only at cursor ⊢
  cases rest with
  | nil =>
    obtain rfl := (cursor.eq_limit_iff below.inside).mpr rfl
    rw [operation.behind.getElem?]
    rcases valid with rfl | ⟨controls, rfl⟩
    · exact .done _
    · exact .done _
  | cons tag rest =>
    have length := cursor.length_below below.inside
    rw [length_cons] at length
    have here := cursor.getElem?
    rw [getElem?_take_of_lt (by omega), head?_cons] at here
    rw [here]
    refine .guard fun _ => ?_
    refine (bounds_finds below cursor.next).finishes (.done _) ?_
    rintro _ ⟨value, rest⟩ read ⟨start, rfl, behind⟩
    refine .guard fun _ => ?_
    refine .ite (fun _ => ?_) fun _ => .done _
    rw [behind.slice_below below.inside]
    exact saslAuthChoice_finishes ((readValue_eq_some maxBerLength_lt).mp read).2

/-- A field is skipped, whatever its tag. -/
theorem Operation.field_finishes {β : Type} {pos : Nat} {rest : Bytes} {tag : UInt8}
    {next : Option (Nat × Nat) → Exec (Option β)} (cursor : Cursor (data.take opEnd) pos rest)
    (missing : (next none).Finishes)
    (present : ∀ start value rest, Cursor (data.take opEnd) start (value ++ rest)
      → (next (some (start, start + value.length))).Finishes)
    : (if pos ≥ opEnd then pure none
        else Access.item data pos >>= fun first => if first != tag then pure none
        else valueBounds parseBerLength data (pos + 1) opEnd >>= next).Finishes := by
  have below := operation.below
  refine .ite (fun _ => .done _) fun inside => ?_
  obtain ⟨first, rest, rfl⟩ :=
    exists_cons_of_ne_nil ((cursor.limit_le_iff below.inside).not.mp inside)
  rw [cursor.item_below below.inside, done_bind]
  refine .guard fun _ => ?_
  refine (bounds_finds below cursor.next).finishes missing ?_
  rintro _ ⟨value, rest⟩ - ⟨start, rfl, behind⟩
  exact present start value rest behind

theorem Operation.extractBindDn_finishes : (extractBindDn data opOffset opEnd).Finishes := by
  obtain ⟨pos, start, cursor⟩ := operation.operationBody
  rw [extractBindDn, start, done_bind]
  refine operation.field_finishes cursor (.done _) fun _ _ _ behind => ?_
  refine operation.field_finishes behind.advance (.done _) fun _ _ _ behind => ?_
  dsimp only
  rw [behind.slice_below operation.below.inside]
  exact .done _

end Operation

/-! Searches. -/

/-- One field of a search, if its value passes a check, and what follows it. -/
def readField (tag : UInt8) (check : Bytes → Bool) (tail : Bytes) : Option Bytes :=
  (Ber.readTlv maxBerLength tag tail).bind fun (value, rest) =>
  if check value then some rest else none

def enumeratedInRange (last : Nat) (value : Bytes) : Bool :=
  (parseCanonicalNonNegativeInteger value).any (· ≤ last)

/-- What follows the six parameters of a search. -/
def readParameters (body : Bytes) : Option Bytes :=
  (readField 0x04 (fun _ => true) body).bind fun rest =>
  (readField 0x0a (enumeratedInRange 2) rest).bind fun rest =>
  (readField 0x0a (enumeratedInRange 3) rest).bind fun rest =>
  (readField 0x02 isCanonicalNonNegativeInteger rest).bind fun rest =>
  (readField 0x02 isCanonicalNonNegativeInteger rest).bind fun rest =>
  readField 0x01 (fun value => value.length == 1) rest

section Parameters

variable {data tail : Bytes} {pos limit : Nat} (within : Within data limit)
  (cursor : Cursor (data.take limit) pos tail)
include within cursor

/-- A parser of one field moves the cursor as the reader does. -/
theorem readField_finds {tag check next} (missing : next none = .done none)
    (checks : ∀ value pos,
        next (some (value, pos)) = .done (if check value then some pos else none))
    : (consumeExpectedTlvValue data pos limit tag >>= next).Finds (readField tag check tail)
        (Cursor (data.take limit)) := by
  refine (consumeExpectedTlvValue_finds within cursor tag).bind missing ?_
  rintro _ ⟨value, rest⟩ - ⟨pos, rfl, behind⟩
  rw [checks]
  dsimp only
  split
  · exact .something behind
  · exact .nothing

theorem consumeEnumeratedInRange_finds (last : Nat)
    : (consumeEnumeratedInRange data pos limit last).Finds
        (readField 0x0a (enumeratedInRange last) tail) (Cursor (data.take limit)) := by
  refine readField_finds within cursor rfl fun value pos => ?_
  cases parsed : parseCanonicalNonNegativeInteger value with
  | none | some number => simp [enumeratedInRange, parsed]

theorem consumeCanonicalInteger_finds
    : (consumeCanonicalInteger data pos limit).Finds
        (readField 0x02 isCanonicalNonNegativeInteger tail) (Cursor (data.take limit)) :=
  readField_finds within cursor rfl fun _ _ => rfl

theorem searchParameters_finds
    : (searchParameters data pos limit).Finds (readParameters tail) (Cursor (data.take limit)) := by
  have base {behind : Bytes → Option Bytes} : (readField 0x04 (fun _ => true) tail).bind behind
      = (readTlv maxBerLength 0x04 tail).bind fun read => behind read.2 := by
    rw [readField, bind_assoc]
    rfl
  rw [readParameters, base]
  refine (consumeExpectedTlv_finds within cursor 0x04).bind rfl fun _ _ _ cursor => ?_
  refine (consumeEnumeratedInRange_finds within cursor 2).bind rfl fun _ _ _ cursor => ?_
  refine (consumeEnumeratedInRange_finds within cursor 3).bind rfl fun _ _ _ cursor => ?_
  refine (consumeCanonicalInteger_finds within cursor).bind rfl fun _ _ _ cursor => ?_
  refine (consumeCanonicalInteger_finds within cursor).bind rfl fun _ _ _ cursor => ?_
  exact readField_finds within cursor rfl fun _ _ => rfl

end Parameters

/-- A search leaves its bytes if it ends after its parameters and controls follow it. The tag
of a filter is then taken from the controls, and the bounds of its length are in the wrong
order.
-/
theorem Operation.search_finishes_iff {data body tail opOffset opEnd op}
    (operation : Operation data opOffset opEnd op body tail)
    : (searchRequestIsWellFormed data opOffset opEnd).Finishes
      ↔ ¬ (readParameters body = some [] ∧ tail ≠ []) := by
  have below := operation.below
  obtain ⟨pos, start, cursor⟩ := operation.operationBody
  simp only [searchRequestIsWellFormed, start, done_bind]
  rcases searchParameters_finds below cursor with
    ⟨none, same⟩ | ⟨pos, rest, found, same, cursor⟩
  · rw [none, same]
    exact ⟨fun _ => by simp, fun _ => .done _⟩
  simp only [found, same, done_bind]
  cases rest with
  | nil =>
    obtain rfl := (cursor.eq_limit_iff below.inside).mpr rfl
    cases tail with
    | nil =>
      simp only [consumeAnyTlv, operation.behind.getElem?, head?_nil]
      exact ⟨fun _ => by simp, fun _ => .done _⟩
    | cons tag tail =>
      have backwards : slice data (pos + 1) pos = .fault := by
        rw [slice, if_neg (by omega)]
      simp only [consumeAnyTlv, operation.behind.getElem?, head?_cons, valueBounds,
        backwards, fault_bind]
      refine ⟨?_, fun never => absurd ⟨trivial, cons_ne_nil _ _⟩ never⟩
      rintro ⟨_, impossible⟩
      cases impossible
  | cons tag rest =>
    refine ⟨fun _ => by simp, fun _ => ?_⟩
    refine (consumeAnyTlv_finds below cursor fun none => by cases none).finishes (.done _) ?_
    rintro _ ⟨tag, value, rest⟩ read ⟨next, rfl, behind⟩
    refine .bind (filterIsWellFormed_finishes _ _ (any_eq_some read).2) fun _ _ => ?_
    refine .guard fun _ => ?_
    exact (consumeExpectedTlv_finds below behind 0x30).finishes (.done _) fun _ _ _ _ => .done _

theorem Operation.handleOperation_finishes_iff (baseDn : Bytes) (msgId : Nat)
    {data body tail opOffset opEnd op} (operation : Operation data opOffset opEnd op body tail)
    (valid : TailValid tail)
    : (handleOperation baseDn data msgId opOffset opEnd).Finishes
      ↔ ¬ (op = 0x63 ∧ readParameters body = some [] ∧ tail ≠ []) := by
  rw [handleOperation, operation.item, done_bind]
  by_cases bind : op = 0x60
  · rw [if_pos (by simpa using bind)]
    refine ⟨fun _ => by simp [bind], fun _ => ?_⟩
    refine .bind (operation.bind_finishes valid) fun _ _ => ?_
    refine .guard fun _ => ?_
    exact .bind operation.extractBindDn_finishes fun _ _ => .done _
  rw [if_neg (by simpa using bind)]
  by_cases search : op = 0x63
  swap
  · rw [if_neg (by simpa using search)]
    exact ⟨fun _ => by simp [search], fun _ => .done _⟩
  rw [if_pos (by simpa using search)]
  have iff := operation.search_finishes_iff
  constructor
  · rintro ⟨reply, finished⟩ ⟨-, faulty⟩
    obtain ⟨verdict, checked, -⟩ := bind_eq_done finished
    exact iff.mp ⟨verdict, checked⟩ faulty
  · intro fine
    refine .bind (iff.mpr fun faulty => fine ⟨search, faulty⟩) fun _ _ => ?_
    exact .ite (fun _ => .done _) fun _ => .done _

/-! The messages that are not survived. -/

theorem bigEndian_cons (first : UInt8) (rest : Bytes)
    : bigEndian (first :: rest) = first.toNat * 256 ^ rest.length + bigEndian rest := by
  induction rest using reverseRecOn with
  | nil => simp [bigEndian]
  | append_singleton rest last ih =>
    rw [← cons_append, bigEndian_concat, ih, bigEndian_concat, length_append,
      length_singleton, Nat.pow_succ, Nat.add_mul, Nat.mul_assoc, Nat.add_assoc]

/-- A canonical integer has one octet, or is too large for one. -/
theorem canonical_cases {value} (canonical : isCanonicalNonNegativeInteger value = true)
    : (∃ byte : UInt8, value = [byte] ∧ byte.toNat < 128)
      ∨ (128 ≤ bigEndian value ∧ bigEndian value ≤ i32Max) := by
  cases value with
  | nil => cases canonical
  | cons first rest =>
    have low := highBit_eq_zero first
    simp only [isCanonicalNonNegativeInteger, Bool.not_eq_true', Bool.and_eq_true,
      Bool.or_eq_false_iff, bne, Bool.not_eq_false', low, decide_eq_true_eq,
      decide_eq_false_iff_not, length_cons] at canonical
    obtain ⟨⟨few, positive⟩, unpadded⟩ := canonical
    cases rest with
    | nil => exact .inl ⟨first, rfl, positive⟩
    | cons second rest =>
      have value := bigEndian_cons first (second :: rest)
      have lower : 128 ≤ bigEndian (first :: second :: rest) := by
        by_cases zero : first = 0
        · have high := highBit_eq_zero second
          have large : ¬ second.toNat < 128 := by
            intro small
            simp [zero, high, small] at unpadded
          have tail := bigEndian_cons second rest
          have scale : 1 ≤ 256 ^ rest.length := Nat.one_le_pow _ _ (by decide)
          have product : second.toNat * 1 ≤ second.toNat * 256 ^ rest.length :=
            Nat.mul_le_mul_left _ scale
          omega
        · have several : 2 ≤ (first :: second :: rest).length := Nat.le_add_left 2 rest.length
          have large := le_bigEndian (head?_cons) zero several
          omega
      have upper : bigEndian (first :: second :: rest) ≤ i32Max := by
        have tail := bigEndian_lt (second :: rest)
        have scale : 256 ^ (second :: rest).length ≤ 256 ^ 3 :=
          Nat.pow_le_pow_right (by decide) (by rw [length_cons] at *; omega)
        have product : first.toNat * 256 ^ (second :: rest).length
            ≤ 127 * 256 ^ (second :: rest).length :=
          Nat.mul_le_mul_right _ (by omega)
        simp only [i32Max]
        omega
      exact .inr ⟨lower, upper⟩

/-- A message identifier is any canonical integer but zero. -/
theorem parseMessageIdValue_isSome {id}
    : (∃ msgId, parseMessageIdValue id = some msgId)
      ↔ isCanonicalNonNegativeInteger id = true ∧ id ≠ [0] := by
  by_cases canonical : isCanonicalNonNegativeInteger id = true
  swap
  · simp [parseMessageIdValue, canonical]
  have value : id.foldl (fun msgId byte => (msgId <<< 8) ||| byte.toNat) 0 = bigEndian id := rfl
  simp only [parseMessageIdValue, canonical, value, Bool.not_true, Bool.false_eq_true, if_false]
  rcases canonical_cases canonical with ⟨byte, rfl, small⟩ | ⟨lower, upper⟩
  · rw [bigEndian_singleton]
    have zero : byte.toNat = 0 ↔ byte = 0 := UInt8.toNat_inj (b := 0)
    by_cases positive : byte = 0
    · simp [positive]
    · have inside : ¬ byte.toNat > i32Max := by
        simp only [i32Max]
        omega
      simp [zero, positive, inside]
  · have nonzero : id ≠ [0] := by
      rintro rfl
      exact absurd lower (by decide)
    have inside : ¬ (bigEndian id = 0 ∨ bigEndian id > i32Max) := by omega
    simp [nonzero, inside]

theorem enumeratedInRange_iff {last} (small : last < 128) {value}
    : enumeratedInRange last value = true ↔ ∃ byte : UInt8, value = [byte] ∧ byte.toNat ≤ last := by
  have number : value.foldl (fun parsed byte => (parsed <<< 8) ||| byte.toNat) 0
      = bigEndian value := rfl
  constructor
  · intro inRange
    by_cases canonical : isCanonicalNonNegativeInteger value = true
    swap
    · simp [enumeratedInRange, parseCanonicalNonNegativeInteger, canonical] at inRange
    simp only [enumeratedInRange, parseCanonicalNonNegativeInteger, canonical, Bool.not_true,
      Bool.false_eq_true, if_false, number, any_some, decide_eq_true_eq] at inRange
    rcases canonical_cases canonical with ⟨byte, rfl, -⟩ | ⟨lower, -⟩
    · rw [bigEndian_singleton] at inRange
      exact ⟨byte, rfl, inRange⟩
    · omega
  · rintro ⟨byte, rfl, inRange⟩
    have low : byte.toNat < 128 := by omega
    have canonical : isCanonicalNonNegativeInteger [byte] = true := by
      simp [isCanonicalNonNegativeInteger, bne, highBit_eq_zero, low]
    simp only [enumeratedInRange, parseCanonicalNonNegativeInteger, canonical, Bool.not_true,
      Bool.false_eq_true, if_false, number, any_some, bigEndian_singleton,
      decide_eq_true_eq]
    exact inRange

/-- A search that ends after its parameters, without a filter, in a message with controls. -/
structure TruncatedSearch where
  (id base : Bytes)
  (scope deref : UInt8)
  (sizeLimit timeLimit : Bytes)
  typesOnly : UInt8
  controls : List Control
  idValid : isCanonicalNonNegativeInteger id = true ∧ id ≠ [0]
  scopeValid : scope.toNat ≤ 2
  derefValid : deref.toNat ≤ 3
  sizeValid : isCanonicalNonNegativeInteger sizeLimit = true
  timeValid : isCanonicalNonNegativeInteger timeLimit = true

namespace TruncatedSearch

def body (search : TruncatedSearch) : Bytes :=
  Ber.tlv 0x04 search.base ++ (Ber.tlv 0x0a [search.scope] ++ (Ber.tlv 0x0a [search.deref]
    ++ (Ber.tlv 0x02 search.sizeLimit ++ (Ber.tlv 0x02 search.timeLimit
    ++ Ber.tlv 0x01 [search.typesOnly]))))

def tail (search : TruncatedSearch) : Bytes :=
  Ber.tlv 0xa0 (encodeControls search.controls)

def message (search : TruncatedSearch) : Bytes :=
  Ber.tlv 0x02 search.id ++ (Ber.tlv 0x63 search.body ++ search.tail)

def encode (search : TruncatedSearch) : Bytes :=
  Ber.tlv 0x30 search.message

end TruncatedSearch

theorem readField_eq_some {tag check tail rest}
    : readField tag check tail = some rest
      ↔ ∃ value, tail = tlv tag value ++ rest ∧ value.length ≤ maxBerLength
        ∧ check value = true := by
  simp only [readField, bind_eq_some_iff, Prod.exists,
    readTlv_eq_some maxBerLength_lt, ite_none_right_eq_some, some.injEq]
  constructor
  · rintro ⟨value, _, ⟨shape, short⟩, checked, rfl⟩
    exact ⟨value, shape, short, checked⟩
  · rintro ⟨value, shape, short, checked⟩
    exact ⟨value, rest, ⟨shape, short⟩, checked, rfl⟩

theorem readMessage_eq_some {data body tail msgId op}
    : readMessage data = some (msgId, op, body, tail) ↔ ∃ id, parseMessageIdValue id = some msgId
        ∧ data = tlv 0x30 (tlv 0x02 id ++ (tlv op body ++ tail))
        ∧ (tlv 0x02 id ++ (tlv op body ++ tail)).length ≤ maxBerLength := by
  simp only [readMessage, readHead, bind_eq_some_iff, map_eq_some_iff, Prod.exists,
    readTlv_eq_some maxBerLength_lt, ite_none_left_eq_some, not_not, Prod.mk.injEq]
  constructor
  · rintro ⟨_, _, _, ⟨_, _, ⟨rfl, short⟩, id, _, ⟨rfl, -⟩, _, parsed, rfl, rfl, rfl⟩,
      rfl, _, -, _, _, ⟨rfl, -⟩, rfl, rfl, rfl, rfl⟩
    rw [append_nil]
    exact ⟨id, parsed, rfl, short⟩
  · rintro ⟨id, parsed, rfl, short⟩
    have sizes := short
    simp only [length_append] at sizes
    have idSize := length_add_two_le_tlv 0x02 id
    have bodySize := length_add_two_le_tlv op body
    exact ⟨msgId, _, [], ⟨_, [], ⟨(append_nil _).symm, short⟩, id, _, ⟨rfl, by omega⟩, msgId,
      parsed, rfl, rfl, rfl⟩, rfl, op, rfl, body, tail, ⟨rfl, by omega⟩, rfl, rfl, rfl, rfl⟩

/-- The parameters that leave nothing of the body. -/
theorem readParameters_eq_nil {body} (short : body.length ≤ maxBerLength)
    : readParameters body = some []
      ↔ ∃ (base : Bytes) (scope deref : UInt8) (sizeLimit timeLimit : Bytes) (typesOnly : UInt8),
          scope.toNat ≤ 2 ∧ deref.toNat ≤ 3
          ∧ isCanonicalNonNegativeInteger sizeLimit = true
          ∧ isCanonicalNonNegativeInteger timeLimit = true
          ∧ body = tlv 0x04 base ++ (tlv 0x0a [scope] ++ (tlv 0x0a [deref]
            ++ (tlv 0x02 sizeLimit ++ (tlv 0x02 timeLimit ++ tlv 0x01 [typesOnly])))) := by
  simp only [readParameters, bind_eq_some_iff, readField_eq_some,
    enumeratedInRange_iff (show 2 < 128 by decide), enumeratedInRange_iff (show 3 < 128 by decide),
    beq_iff_eq]
  constructor
  · rintro ⟨_, ⟨base, rfl, -⟩, _, ⟨_, rfl, -, scope, rfl, scopeValid⟩, _,
      ⟨_, rfl, -, deref, rfl, derefValid⟩, _, ⟨sizeLimit, rfl, -, sizeValid⟩, _,
      ⟨timeLimit, rfl, -, timeValid⟩, _, rfl, -, single⟩
    obtain ⟨typesOnly, rfl⟩ := length_eq_one_iff.mp single
    exact ⟨base, scope, deref, sizeLimit, timeLimit, typesOnly, scopeValid, derefValid, sizeValid,
      timeValid, by rw [append_nil]⟩
  · rintro ⟨base, scope, deref, sizeLimit, timeLimit, typesOnly, scopeValid, derefValid, sizeValid,
      timeValid, rfl⟩
    simp only [length_append] at short
    have baseSize := length_add_two_le_tlv 0x04 base
    have sizeSize := length_add_two_le_tlv 0x02 sizeLimit
    have timeSize := length_add_two_le_tlv 0x02 timeLimit
    have one : ∀ byte : UInt8, [byte].length ≤ maxBerLength := fun _ => by
      rw [length_singleton]
      decide
    exact ⟨_, ⟨base, rfl, by omega, trivial⟩, _, ⟨_, rfl, one scope, scope, rfl, scopeValid⟩, _,
      ⟨_, rfl, one deref, deref, rfl, derefValid⟩, _, ⟨sizeLimit, rfl, by omega, sizeValid⟩, _,
      ⟨timeLimit, rfl, by omega, timeValid⟩, _, (append_nil _).symm, one typesOnly, rfl⟩

/-- The messages whose search ends early are the truncated searches. -/
theorem truncated_iff (data : Bytes)
    : (∃ msgId body tail, readMessage data = some (msgId, 0x63, body, tail)
        ∧ readParameters body = some [] ∧ TailValid tail ∧ tail ≠ [])
      ↔ ∃ search : TruncatedSearch, data = search.encode
        ∧ search.message.length ≤ maxBerLength := by
  constructor
  · rintro ⟨msgId, body, tail, read, parameters, valid, nonempty⟩
    obtain ⟨id, parsed, rfl, short⟩ := readMessage_eq_some.mp read
    have bodyShort : body.length ≤ maxBerLength := by
      have bodySize := length_add_two_le_tlv 0x63 body
      simp only [length_append] at short
      omega
    obtain ⟨base, scope, deref, sizeLimit, timeLimit, typesOnly, scopeValid, derefValid, sizeValid,
      timeValid, rfl⟩ := (readParameters_eq_nil bodyShort).mp parameters
    rcases valid with rfl | ⟨controls, rfl⟩
    · exact absurd rfl nonempty
    · exact ⟨⟨id, base, scope, deref, sizeLimit, timeLimit, typesOnly, controls,
        parseMessageIdValue_isSome.mp ⟨msgId, parsed⟩, scopeValid, derefValid, sizeValid,
        timeValid⟩, rfl, short⟩
  · rintro ⟨search, rfl, short⟩
    obtain ⟨msgId, parsed⟩ := parseMessageIdValue_isSome.mpr search.idValid
    have bodyShort : search.body.length ≤ maxBerLength := by
      have bodySize := length_add_two_le_tlv 0x63 search.body
      simp only [TruncatedSearch.message, length_append] at short
      omega
    refine ⟨msgId, search.body, search.tail,
      readMessage_eq_some.mpr ⟨search.id, parsed, rfl, short⟩,
      (readParameters_eq_nil bodyShort).mpr ?_, .inr ⟨search.controls, rfl⟩, cons_ne_nil _ _⟩
    exact ⟨search.base, search.scope, search.deref, search.sizeLimit, search.timeLimit,
      search.typesOnly, search.scopeValid, search.derefValid, search.sizeValid,
      search.timeValid, rfl⟩

/-- The handler stays within the bytes of a message exactly if the message is no search that
ends after its parameters and is followed by controls. Witness: every parser but the one for
elements of any tag compares its position with its limit first, and that one is given a
position at its limit only there.
-/
theorem ldap_handle_within_bounds_iff (baseDn data : Bytes)
    : (∃ reply, handle baseDn data = .done reply)
      ↔ ¬ ∃ search : TruncatedSearch, data = search.encode
          ∧ search.message.length ≤ maxBerLength := by
  rw [← truncated_iff]
  rcases handle_cases baseDn data with
    ⟨empty, why⟩ | ⟨msgId, op, body, tail, opOffset, opEnd, handled, read, valid, operation⟩
  · refine ⟨fun _ => ?_, fun _ => ⟨[], empty⟩⟩
    rintro ⟨msgId, body, tail, read, parameters, valid, -⟩
    rcases why with tiny | invalid
    · obtain ⟨id, -, rfl, -⟩ := readMessage_eq_some.mp read
      have outer := Ber.length_add_two_le_tlv 0x30 (Ber.tlv 0x02 id ++ (Ber.tlv 0x63 body ++ tail))
      have idSize := Ber.length_add_two_le_tlv 0x02 id
      have bodySize := Ber.length_add_two_le_tlv 0x63 body
      have nonempty : body.length ≠ 0 := by
        intro zero
        rw [List.length_eq_zero_iff.mp zero] at parameters
        cases parameters
      simp only [List.length_append] at outer
      omega
    · exact invalid read valid
  · rw [handled]
    have iff := operation.handleOperation_finishes_iff baseDn msgId valid
    refine iff.trans (not_congr ?_)
    constructor
    · rintro ⟨rfl, parameters, nonempty⟩
      exact ⟨msgId, body, tail, read, parameters, valid, nonempty⟩
    · rintro ⟨_, _, _, same, parameters, -, nonempty⟩
      rw [read] at same
      cases same
      exact ⟨rfl, parameters, nonempty⟩

/-- A search for everything under the root, without a filter, with an empty list of controls. -/
theorem ldap_truncated_search_faults
    : handle defaultBaseDn [0x30, 0x18, 0x02, 0x01, 0x01, 0x63, 0x11, 0x04, 0x00, 0x0a, 0x01,
        0x02, 0x0a, 0x01, 0x00, 0x02, 0x01, 0x00, 0x02, 0x01, 0x00, 0x01, 0x01, 0x00, 0xa0, 0x00]
      = .fault := by
  decide

end NetTrap.Ldap
