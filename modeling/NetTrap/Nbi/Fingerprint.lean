import NetTrap.Nbi.Event

/-! What a content fingerprint says about an event.
Each field is written with the length of its value, so that values cannot run into what
follows them. The keys of the indicators are written without their length, and one that
looks like a field can take the place of a field.
-/

namespace NetTrap.Nbi

open Rust List

/-! Fields. -/

/-- Behind a key that is known, a field gives away its value. -/
theorem fingerprintField_inj {key left right leftRest rightRest}
    (same : fingerprintField key left ++ leftRest = fingerprintField key right ++ rightRest)
    : left = right ∧ leftRest = rightRest := by
  simp only [fingerprintField, append_assoc, cons_append, append_cancel_left_eq,
    cons.injEq, true_and] at same
  obtain ⟨lengths, rest⟩ := append_cons_inj Char.isDigit (by decide)
    (fun _ => Text.isDigit_of_mem_decimal) (fun _ => Text.isDigit_of_mem_decimal) same
  obtain ⟨-, values⟩ := cons.inj rest
  obtain ⟨equal, rest⟩ := Text.append_inj_of_len (Text.decimal_inj lengths) values
  exact ⟨equal, (cons.inj rest).2⟩

theorem fingerprintOptionField_inj {key leftRest rightRest left right}
    (leftNonempty : ∀ value ∈ left, value ≠ []) (rightNonempty : ∀ value ∈ right, value ≠ [])
    (same : fingerprintOptionField key left ++ leftRest
      = fingerprintOptionField key right ++ rightRest)
    : left = right ∧ leftRest = rightRest := by
  cases left with
  | none =>
    cases right with
    | none => exact ⟨rfl, (fingerprintField_inj same).2⟩
    | some right =>
      exact absurd (fingerprintField_inj same).1.symm (rightNonempty right rfl)
  | some left =>
    cases right with
    | none => exact absurd (fingerprintField_inj same).1 (leftNonempty left rfl)
    | some right =>
      obtain ⟨rfl, rest⟩ := fingerprintField_inj same
      exact ⟨rfl, rest⟩

/-! Indicators. -/

theorem indicatorFields_cons (entry : Text × Text) (entries : List (Text × Text))
    : indicatorFields (entry :: entries)
      = fingerprintField entry.1 entry.2 ++ indicatorFields entries :=
  flatMap_cons

/-- Two rows of fields that end together, laid against each other like dominoes: one row has still
to write `behind`, and the other, which is `ahead` of it by a text, has still to write `others`. -/
inductive Dovetails : (ahead : Text) → (behind others : List (Text × Text)) → Prop where
  | even : Dovetails [] [] []
  /-- The next field of the shorter row ends within the text. -/
  | within {key value ahead : Text} {behind others : List (Text × Text)}
      (rest : Dovetails ahead behind others)
      : Dovetails (fingerprintField key value ++ ahead) ((key, value) :: behind) others
  /-- It reaches beyond the text, and the other row is the shorter one from there on. -/
  | beyond {key value ahead beyond : Text} {behind others : List (Text × Text)}
      (reaches : fingerprintField key value = ahead ++ beyond)
      (rest : Dovetails beyond others behind)
      : Dovetails ahead ((key, value) :: behind) others

theorem Dovetails.written {ahead behind others} (dovetails : Dovetails ahead behind others)
    : ahead ++ indicatorFields others = indicatorFields behind := by
  induction dovetails with
  | even => rfl
  | within _ ih => rw [indicatorFields_cons, append_assoc, ih]
  | beyond reaches _ ih => rw [indicatorFields_cons, ← ih, ← append_assoc, ← reaches]

/-- Rows that are written alike dovetail.
Witness: of two texts that begin one text, one is continued by the other. -/
theorem Dovetails.of_written {ahead : Text} {behind others : List (Text × Text)}
    (written : ahead ++ indicatorFields others = indicatorFields behind)
    : Dovetails ahead behind others := by
  cases behind with
  | nil =>
    obtain ⟨rfl, nothing⟩ := append_eq_nil_iff.mp written
    cases others with
    | nil => exact .even
    | cons entry others =>
      rw [indicatorFields_cons] at nothing
      simp [fingerprintField] at nothing
  | cons entry behind =>
    rw [indicatorFields_cons] at written
    rcases append_eq_append_iff.mp written with ⟨more, reaches, rest⟩ | ⟨more, rfl, rest⟩
    · exact .beyond reaches (of_written rest.symm)
    · exact .within (of_written rest.symm)
termination_by behind.length + others.length

/-- What stands between a key and its value. -/
def fieldHead (value : Text) : Text :=
  '[' :: Text.decimal value.len ++ [']', '=']

theorem fingerprintField_eq (key value : Text)
    : fingerprintField key value = key ++ (fieldHead value ++ (value ++ ['|'])) := by
  simp [fingerprintField, fieldHead]

/-- The first indicators in which two maps of one size differ: the key of `right` goes on, where the
key of `left` ends, like the field of `left`, and from there on the two rows of fields dovetail. -/
def TakenFor (left right : List (Text × Text)) : Prop :=
  ∃ shared key value others inside later rest,
    left = shared ++ (key, value) :: others
    ∧ right = shared ++ (key ++ (fieldHead value ++ inside), later) :: rest
    ∧ others.length = rest.length ∧ Dovetails (value ++ ['|']) ((inside, later) :: rest) others

theorem TakenFor.written {left right} (taken : TakenFor left right)
    : left.length = right.length ∧ indicatorFields left = indicatorFields right ∧ left ≠ right := by
  obtain ⟨shared, key, value, others, inside, later, rest, rfl, rfl, lengths, dovetails⟩ := taken
  refine ⟨by simp [lengths], ?_, fun same => ?_⟩
  · have written := dovetails.written
    rw [indicatorFields_cons, fingerprintField_eq] at written
    have tail : ∀ entry (entries : List (Text × Text)), indicatorFields (shared ++ entry :: entries)
        = indicatorFields shared ++ (fingerprintField entry.1 entry.2 ++ indicatorFields entries) :=
      fun entry entries => by simp [indicatorFields]
    rw [tail, tail, fingerprintField_eq, fingerprintField_eq]
    simp only [append_assoc] at written ⊢
    rw [written]
  · obtain ⟨first, -⟩ := cons.inj (append_cancel_left same)
    have length := congrArg (fun entry : Text × Text => entry.1.length) first
    simp [fieldHead] at length

theorem TakenFor.keys {left right} (taken : TakenFor left right)
    : ∃ entry ∈ left, ∃ other ∈ right, entry.1 ++ fieldHead entry.2 <+: other.1 := by
  obtain ⟨shared, key, value, others, inside, later, rest, rfl, rfl, -⟩ := taken
  refine ⟨(key, value), by simp, (key ++ (fieldHead value ++ inside), later), by simp, inside, ?_⟩
  exact append_assoc ..

theorem TakenFor.cons {left right} (entry : Text × Text) (taken : TakenFor left right)
    : TakenFor (entry :: left) (entry :: right) := by
  obtain ⟨shared, key, value, others, inside, later, rest, rfl, rfl, dovetails⟩ := taken
  exact ⟨entry :: shared, key, value, others, inside, later, rest, rfl, rfl, dovetails⟩

/-- A longer key in front of a head contains the head of the field that it is compared with.
Witness: neither the digits of a length nor what follows them is a bracket. -/
theorem fieldHead_of_longer {value left beyond later right : Text} (longer : beyond ≠ [])
    (written : fieldHead value ++ left = beyond ++ (fieldHead later ++ right))
    : ∃ inside, beyond = fieldHead value ++ inside
        ∧ left = inside ++ (fieldHead later ++ right) := by
  rcases append_eq_append_iff.mp written with ⟨inside, split, rest⟩ | ⟨rest, split, bracket⟩
  · exact ⟨inside, split, rest⟩
  · cases rest with
    | nil => exact ⟨[], by simpa using split.symm, by simpa using bracket.symm⟩
    | cons char rest =>
      obtain ⟨rfl, -⟩ := cons.inj bracket
      obtain ⟨first, beyond, rfl⟩ := exists_cons_of_ne_nil longer
      have member : '[' ∈ Text.decimal value.len ++ [']', '='] := by
        have digits : Text.decimal value.len ++ [']', '='] = beyond ++ '[' :: rest :=
          (cons.inj split).2
        rw [digits]
        exact mem_append_right _ mem_cons_self
      rcases mem_append.mp member with digit | close
      · exact absurd (Text.isDigit_of_mem_decimal digit) (by decide)
      · exact absurd close (by decide)

/-- A key that continues another one is taken for the other's field. -/
theorem takenFor_of_longer {first other : Text × Text} {left right : List (Text × Text)}
    {beyond : Text} (longer : beyond ≠ []) (key : other.1 = first.1 ++ beyond)
    (lengths : left.length = right.length)
    (written : indicatorFields (first :: left) = indicatorFields (other :: right))
    : TakenFor (first :: left) (other :: right) := by
  rw [indicatorFields_cons, indicatorFields_cons, fingerprintField_eq, fingerprintField_eq, key]
    at written
  simp only [append_assoc, append_cancel_left_eq] at written
  obtain ⟨inside, rfl, rest⟩ := fieldHead_of_longer longer written
  refine ⟨[], first.1, first.2, left, inside, other.2, right, rfl, ?_, lengths, .of_written ?_⟩
  · rw [nil_append, ← key]
  · rw [indicatorFields_cons, fingerprintField_eq]
    simpa only [append_assoc] using rest

/-- Rows of one length that are written alike differ only where a key is taken for a field. -/
theorem takenFor_of_written {left right : List (Text × Text)} (lengths : left.length = right.length)
    (written : indicatorFields left = indicatorFields right) (differ : left ≠ right)
    : TakenFor left right ∨ TakenFor right left := by
  induction left generalizing right with
  | nil => exact absurd (length_eq_zero_iff.mp lengths.symm).symm differ
  | cons first left ih =>
    cases right with
    | nil => cases lengths
    | cons other right =>
      have tails := Nat.succ.inj lengths
      by_cases key : first.1 = other.1
      · -- so are the values, and the difference comes later
        rw [indicatorFields_cons, indicatorFields_cons, key] at written
        obtain ⟨value, rest⟩ := fingerprintField_inj written
        obtain rfl : first = other := Prod.ext key value
        have later := ih tails rest fun same => differ (congrArg _ same)
        exact later.imp (.cons first) (.cons first)
      · have keys := written
        rw [indicatorFields_cons, indicatorFields_cons, fingerprintField_eq, fingerprintField_eq]
          at keys
        simp only [append_assoc _ _ (indicatorFields _)] at keys
        rcases append_eq_append_iff.mp keys with ⟨beyond, longer, -⟩ | ⟨beyond, longer, -⟩
        · refine .inl (takenFor_of_longer ?_ longer tails written)
          rintro rfl
          exact key (by rw [longer, append_nil])
        · refine .inr (takenFor_of_longer ?_ longer tails.symm written.symm)
          rintro rfl
          exact key (by rw [longer, append_nil])

/-- The entries of a map are sorted already. -/
theorem Indicators.mergeSort_entries (indicators : Indicators)
    : indicators.entries.mergeSort entryLe = indicators.entries := by
  apply mergeSort_of_pairwise
  refine indicators.sorted.imp fun ascending => ?_
  simp [entryLe, ascending]

/-- The maps differ, and at the first difference one key is taken for a field of the other. -/
def Ambiguous (left right : Indicators) : Prop :=
  TakenFor left.entries right.entries ∨ TakenFor right.entries left.entries

/-- The ambiguous maps are those of one size that are written alike and differ. -/
theorem ambiguous_iff {left right : Indicators}
    : Ambiguous left right ↔ left.entries.length = right.entries.length
        ∧ indicatorFields left.entries = indicatorFields right.entries ∧ left ≠ right := by
  constructor
  · rintro (taken | taken)
    · obtain ⟨lengths, written, differ⟩ := taken.written
      exact ⟨lengths, written, fun same => differ (congrArg _ same)⟩
    · obtain ⟨lengths, written, differ⟩ := taken.written
      exact ⟨lengths.symm, written.symm, fun same => differ (congrArg _ same.symm)⟩
  · rintro ⟨lengths, written, differ⟩
    exact takenFor_of_written lengths written fun same => differ (Indicators.ext same)

/-! Events. -/

/-- The events agree in all that is fingerprinted but the indicators. -/
structure SameFields (left right : NetworkBehaviorIndicator) : Prop where
  timestamp : left.timestamp = right.timestamp
  listener : left.listener = right.listener
  protocol : left.protocol = right.protocol
  srcIp : left.srcIp = right.srcIp
  srcPort : left.srcPort = right.srcPort
  dstIp : left.dstIp = right.dstIp
  dstPort : left.dstPort = right.dstPort
  processName : left.processName = right.processName
  processPid : left.processPid = right.processPid

/-- A process name of a valid event is not empty, as one that is absent is written. -/
theorem Valid.processName_ne_nil {timestampError event} (valid : Valid timestampError event)
    : ∀ name ∈ event.processName, name ≠ [] := by
  rintro name member rfl
  exact (valid.processName [] member).2 rfl

/-- Equal fingerprints are those of events that differ at most in ambiguous indicators. -/
theorem contentFingerprint_eq_iff {left right} (leftName : ∀ name ∈ left.processName, name ≠ [])
    (rightName : ∀ name ∈ right.processName, name ≠ [])
    : left.contentFingerprint = right.contentFingerprint ↔ SameFields left right
        ∧ left.indicators.entries.length = right.indicators.entries.length
        ∧ indicatorFields left.indicators.entries = indicatorFields right.indicators.entries := by
  have pid {event : NetworkBehaviorIndicator}
      : ∀ text ∈ event.processPid.map (fun pid => Text.decimal pid.toNat), text ≠ [] := by
    simp only [Option.mem_map]
    rintro text ⟨pid, -, rfl⟩
    exact Nat.toDigits_ne_nil
  simp only [NetworkBehaviorIndicator.contentFingerprint, Indicators.mergeSort_entries]
  constructor
  · intro same
    obtain ⟨timestamp, same⟩ := fingerprintField_inj same
    obtain ⟨listener, same⟩ := fingerprintField_inj same
    obtain ⟨protocol, same⟩ := fingerprintField_inj same
    obtain ⟨srcIp, same⟩ := fingerprintField_inj same
    obtain ⟨srcPort, same⟩ := fingerprintField_inj same
    obtain ⟨dstIp, same⟩ := fingerprintField_inj same
    obtain ⟨dstPort, same⟩ := fingerprintField_inj same
    obtain ⟨processName, same⟩ := fingerprintOptionField_inj leftName rightName same
    obtain ⟨processPid, same⟩ := fingerprintOptionField_inj pid pid same
    have counted := append_cancel_left same
    obtain ⟨count, written⟩ := append_cons_inj Char.isDigit (by decide)
      (fun _ => Text.isDigit_of_mem_decimal) (fun _ => Text.isDigit_of_mem_decimal) counted
    refine ⟨⟨timestamp, listener, protocol, srcIp, ?_, dstIp, ?_, processName, ?_⟩,
      Text.decimal_inj count, (cons.inj written).2⟩
    · exact UInt16.toNat_inj.mp (Text.decimal_inj srcPort)
    · exact UInt16.toNat_inj.mp (Text.decimal_inj dstPort)
    · exact Option.map_injective (fun _ _ equal => UInt32.toNat_inj.mp (Text.decimal_inj equal))
        processPid
  · rintro ⟨fields, lengths, written⟩
    rw [fields.timestamp, fields.listener, fields.protocol, fields.srcIp, fields.srcPort,
      fields.dstIp, fields.dstPort, fields.processName, fields.processPid, lengths, written]

/-- The events agree in all that is fingerprinted. -/
def SameContent (left right : NetworkBehaviorIndicator) : Prop :=
  SameFields left right ∧ left.indicators = right.indicators

/-- Separation: a fingerprint tells two events apart unless they differ only in indicators and, at
the first indicator that differs, one key is taken for a field of the other. No key is, unless it
begins with a key of the other event and the bracketed length of that key's value. -/
theorem contentFingerprint_separates_iff {timestampError : Text → Option Text}
    {left right : NetworkBehaviorIndicator}
    (leftValid : left.validateResourceBounds timestampError = .ok ())
    (rightValid : right.validateResourceBounds timestampError = .ok ())
    : ((left.contentFingerprint = right.contentFingerprint → SameContent left right)
        ↔ ¬ (SameFields left right ∧ Ambiguous left.indicators right.indicators))
      ∧ ((∀ entry ∈ left.indicators.entries, ∀ other ∈ right.indicators.entries,
            ¬ (entry.1 ++ fieldHead entry.2 <+: other.1)
              ∧ ¬ (other.1 ++ fieldHead other.2 <+: entry.1)) →
          ¬ Ambiguous left.indicators right.indicators) := by
  have leftName := (validateResourceBounds_eq_ok.mp leftValid).processName_ne_nil
  have rightName := (validateResourceBounds_eq_ok.mp rightValid).processName_ne_nil
  rw [contentFingerprint_eq_iff leftName rightName]
  refine ⟨⟨?_, ?_⟩, ?_⟩
  · rintro separates ⟨fields, ambiguous⟩
    obtain ⟨lengths, written, differ⟩ := ambiguous_iff.mp ambiguous
    exact differ (separates ⟨fields, lengths, written⟩).2
  · rintro unambiguous ⟨fields, lengths, written⟩
    refine ⟨fields, not_not.mp fun differ => unambiguous ⟨fields, ?_⟩⟩
    exact ambiguous_iff.mpr ⟨lengths, written, differ⟩
  · rintro apart (taken | taken)
    · obtain ⟨entry, member, other, otherMember, inside⟩ := taken.keys
      exact (apart entry member other otherMember).1 inside
    · obtain ⟨other, otherMember, entry, member, inside⟩ := taken.keys
      exact (apart entry member other otherMember).2 inside

section Samples

/-- An event with one indicator. -/
def sampleEvent (key value : String) : NetworkBehaviorIndicator :=
  ⟨.lit "event-1", .lit "2026-01-01T00:00:00Z", .lit "dns", .lit "UDP", .lit "10.0.0.2", 40000,
    .lit "10.0.0.1", 53, none, none, ⟨[(.lit key, .lit value)], List.pairwise_singleton ..⟩⟩

theorem contentFingerprint_separates_iff_sample
    : (sampleEvent "query" "a").validateResourceBounds (fun _ => none) = .ok ()
      ∧ (sampleEvent "query" "b").validateResourceBounds (fun _ => none) = .ok ()
      ∧ (sampleEvent "query" "a").contentFingerprint
        ≠ (sampleEvent "query" "b").contentFingerprint := by
  have first : (sampleEvent "query" "a").validateResourceBounds (fun _ => none) = .ok () := by
    decide +kernel
  have second : (sampleEvent "query" "b").validateResourceBounds (fun _ => none) = .ok () := by
    decide +kernel
  obtain ⟨separates, apart⟩ := contentFingerprint_separates_iff first second
  have alike := separates.mpr fun both => apart (by decide +kernel) both.2
  exact ⟨first, second, fun same => absurd (alike same).2 (by decide +kernel)⟩

example : Ambiguous (sampleEvent "a" "x[1]=y").indicators (sampleEvent "a[6]=x" "y").indicators :=
  ambiguous_iff.mpr (by decide +kernel)

/-- The value of one event and the key of the other contain what looks like a field. -/
theorem contentFingerprint_collision
    : (sampleEvent "a" "x[1]=y").validateResourceBounds (fun _ => none) = .ok ()
      ∧ (sampleEvent "a[6]=x" "y").validateResourceBounds (fun _ => none) = .ok ()
      ∧ (sampleEvent "a" "x[1]=y").contentFingerprint
        = (sampleEvent "a[6]=x" "y").contentFingerprint
      ∧ (sampleEvent "a" "x[1]=y").indicators ≠ (sampleEvent "a[6]=x" "y").indicators := by
  decide +kernel

end Samples

end NetTrap.Nbi
