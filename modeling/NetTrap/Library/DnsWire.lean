import NetTrap.Library.Octets

/-! Queries of the domain name system as they are written: a header, one question, and at most the
record that announces the extensions of the client. -/

namespace DnsWire

open Octets List

abbrev Label := List UInt8

/-- Each label behind its length; the empty label is the end. -/
def encodeName (labels : List Label) : List UInt8 :=
  labels.flatMap (fun label => UInt8.ofNat label.length :: label) ++ [0]

/-- The labels of a name that is written out, and what is behind it. -/
def readName : (budget : Nat) → List UInt8 → Option (List Label × List UInt8)
  | 0, _ => none
  | _ + 1, [] => none
  | budget + 1, length :: rest =>
    if length = 0 then some ([], rest)
    else if 63 < length.toNat ∨ rest.length < length.toNat then none
    else
      (readName budget (rest.drop length.toNat)).map fun (labels, behind) =>
        (rest.take length.toNat :: labels, behind)

def LabelSize (label : Label) : Prop :=
  0 < label.length ∧ label.length ≤ 63

instance (label : Label) : Decidable (LabelSize label) :=
  inferInstanceAs (Decidable (_ ∧ _))

section Names

variable {labels : List Label}

theorem encodeName_cons (label : Label) (labels : List Label)
    : encodeName (label :: labels) = UInt8.ofNat label.length :: (label ++ encodeName labels) := by
  simp [encodeName]

theorem toNat_length {label : Label} (size : LabelSize label)
    : (UInt8.ofNat label.length).toNat = label.length := by
  have small := size.2
  simp
  omega

/-- The length of a label is not the end. -/
theorem length_ne_zero {label : Label} (size : LabelSize label) : UInt8.ofNat label.length ≠ 0 := by
  intro same
  have none := toNat_length size
  rw [same] at none
  exact absurd none (Nat.ne_of_lt size.1)

/-- Witness: induction on the labels; a budget over their number is left with the end. -/
theorem readName_encodeName (sizes : ∀ label ∈ labels, LabelSize label) {budget : Nat}
    (enough : labels.length < budget) (behind : List UInt8)
    : readName budget (encodeName labels ++ behind) = some (labels, behind) := by
  induction labels generalizing budget with
  | nil =>
    obtain ⟨budget, rfl⟩ := Nat.exists_eq_add_of_lt enough
    rfl
  | cons label labels ih =>
    obtain ⟨size, sizes⟩ := forall_mem_cons.mp sizes
    have positive : 0 < budget := Nat.zero_lt_of_lt enough
    obtain ⟨budget, rfl⟩ := Nat.exists_eq_succ_of_ne_zero (Nat.ne_of_gt positive)
    have rest := ih sizes (Nat.lt_of_succ_lt_succ enough)
    have fits : ¬ (63 < label.length
        ∨ (label ++ (encodeName labels ++ behind)).length < label.length) := by
      have small := size.2
      simp
      omega
    rw [encodeName_cons, cons_append, append_assoc, readName, if_neg (length_ne_zero size),
      toNat_length size, if_neg fits, drop_left, take_left, rest]
    rfl

/-- Each label takes two bytes at least. -/
theorem two_mul_length_lt (sizes : ∀ label ∈ labels, LabelSize label)
    : 2 * labels.length < (encodeName labels).length := by
  induction labels with
  | nil => decide
  | cons label labels ih =>
    obtain ⟨size, sizes⟩ := forall_mem_cons.mp sizes
    have rest := ih sizes
    have filled := size.1
    simp [encodeName_cons]
    omega

end Names

/-- An option of the extension record. -/
structure EdnsOption where
  code : UInt16
  value : List UInt8
  deriving DecidableEq, Repr

def EdnsOption.encode (option : EdnsOption) : List UInt8 :=
  be16Bytes option.code.toNat ++ be16Bytes option.value.length ++ option.value

/-- The extension record: its class is the size of answers the client takes, its time to live holds
more flags. -/
structure Edns where
  payload : UInt16
  (rcodeHigh version : UInt8)
  flags : UInt16
  options : List EdnsOption
  optionSize : ∀ option ∈ options, option.value.length < 65536
  size : (options.flatMap EdnsOption.encode).length < 65536

def Edns.fixed (record : Edns) : List UInt8 :=
  be16Bytes record.payload.toNat ++ [record.rcodeHigh, record.version]
    ++ be16Bytes record.flags.toNat

def Edns.data (record : Edns) : List UInt8 :=
  record.options.flatMap EdnsOption.encode

/-- The record belongs to the root and has type 41. -/
def Edns.encode (record : Edns) : List UInt8 :=
  [0, 0, 41] ++ (record.fixed ++ (be16Bytes record.data.length ++ record.data))

/-- A query with one question. -/
structure Query where
  id : UInt16
  (flagsHigh flagsLow : UInt8)
  labels : List Label
  (queryType queryClass : UInt16)
  edns : Option Edns
  isQuery : flagsHigh.toNat < 128
  labelSizes : ∀ label ∈ labels, LabelSize label
  nameSize : (encodeName labels).length ≤ 255

namespace Query

/-- The kind of query; zero is the standard one. -/
def opCode (query : Query) : Nat :=
  query.flagsHigh.toNat / 8

def header (query : Query) : List UInt8 :=
  be16Bytes query.id.toNat ++ [query.flagsHigh, query.flagsLow]
    ++ [0, 1, 0, 0, 0, 0, 0, if query.edns.isSome then 1 else 0]

def question (query : Query) : List UInt8 :=
  encodeName query.labels ++ (be16Bytes query.queryType.toNat ++ be16Bytes query.queryClass.toNat)

def additional (query : Query) : List UInt8 :=
  (query.edns.map Edns.encode).getD []

def encode (query : Query) : List UInt8 :=
  query.header ++ (query.question ++ query.additional)

variable (query : Query)

theorem length_header : query.header.length = 12 :=
  rfl

/-- A name has no more than 127 labels. -/
theorem length_labels_le : query.labels.length ≤ 127 := by
  have size := query.nameSize
  have counted := two_mul_length_lt query.labelSizes
  omega

theorem length_labels_lt : query.labels.length < query.encode.length := by
  have counted := two_mul_length_lt query.labelSizes
  simp [encode, question]
  omega

theorem readName_question {budget : Nat} (enough : query.labels.length < budget)
    : readName budget (query.question ++ query.additional)
      = some (query.labels, be16Bytes query.queryType.toNat
          ++ (be16Bytes query.queryClass.toNat ++ query.additional)) := by
  rw [question, append_assoc, append_assoc]
  exact readName_encodeName query.labelSizes enough _

end Query

end DnsWire
