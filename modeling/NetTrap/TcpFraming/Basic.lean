import NetTrap.Library.Exec
import NetTrap.Library.Framing
import NetTrap.Rust.Integers

/-! Frame modes, framer results, and what it means for a framer to follow decisions.
A framer owns the connection buffer: it reads by position, drains a frame off the front,
or clears the buffer on an error.
-/

namespace NetTrap.TcpFraming

open Access Framing Rust

def maxHttpHeaderSize : Nat := 64 * 1024
def maxHttpRequestSize : Nat := 10 * 1024 * 1024
def maxLineFrameSize : Nat := 64 * 1024
def maxSshPacketSize : Nat := 64 * 1024
def maxSocks4FrameSize : Nat := 8 * 1024
def maxSmtpDataSize : Nat := 50 * 1024 * 1024
def maxMysqlFrameSize : Nat := 16 * 1024 * 1024
def maxPostgresFrameSize : Nat := 16 * 1024 * 1024
def maxMqttFrameSize : Nat := 1024 * 1024
def maxRedisFrameSize : Nat := 1024 * 1024
def maxRedisArrayCount : Nat := 1024
def maxRedisBulkSize : Nat := 64 * 1024
def maxMemcachedLineSize : Nat := 64 * 1024
def maxMemcachedFrameSize : Nat := 1024 * 1024
def maxNknFrameSize : Nat := 4096
def maxTlsRecordSize : Nat := 64 * 1024
def maxLdapBerPayloadSize : Nat := 16 * 1024 * 1024
def maxLdapFrameSize : Nat := maxLdapBerPayloadSize + 6

inductive TcpFrameMode where
  | dnsTcp
  | http
  | line
  | smtpData
  | sshBanner
  | sshPayload
  | mysql
  | postgres
  | socks
  | smb
  | rdp
  | ldap
  | mqtt
  | tls
  | redis
  | memcached
  | nkn
  | immediate
  deriving DecidableEq, Repr

inductive TcpFrameResult where
  | complete (frame : Bytes)
  | incomplete
  | invalid (response : Option Bytes)
  | tooLarge (response : Option Bytes)
  deriving DecidableEq, Repr

/-- The two error outcomes of a framer call. -/
def TcpFrameResult.IsError : TcpFrameResult → Prop
  | .invalid _ => True
  | .tooLarge _ => True
  | _ => False

/-- One framer call on the connection buffer: the result and the buffer it leaves. -/
abbrev Framer := Bytes → Exec (TcpFrameResult × Bytes)

/-- `return result` with the buffer as it is. -/
def unchanged (buffer : Bytes) (result : TcpFrameResult) : Exec (TcpFrameResult × Bytes) :=
  .done (result, buffer)

/-- `TcpFrameResult::Complete(buffer.drain(..len).collect())`. -/
def completeFrame (buffer : Bytes) (len : Nat) : Exec (TcpFrameResult × Bytes) := do
  let (frame, rest) ← drain buffer len
  return (.complete frame, rest)

def optionalFrame (frame : Option Bytes) : TcpFrameResult :=
  match frame with
  | some frame => .complete frame
  | none => .incomplete

/-- An optional extractor seen as a framer. -/
def optionalFramer (extract : Bytes → Exec (Option Bytes × Bytes)) : Framer := fun buffer => do
  let (frame, rest) ← extract buffer
  return (optionalFrame frame, rest)

/-- `Some(buffer.drain(..len).collect())`. -/
def someFrame (buffer : Bytes) (len : Nat) : Exec (Option Bytes × Bytes) := do
  let (frame, rest) ← drain buffer len
  return (some frame, rest)

/-- `std::mem::take(buffer)` as a frame, unless the buffer is empty. -/
def extractImmediateFrame (buffer : Bytes) : Exec (Option Bytes × Bytes) :=
  if buffer.isEmpty then return (none, buffer) else return (some buffer, [])

/-! Framers that follow decisions. -/

inductive RejectionKind where
  | invalid
  | tooLarge
  deriving DecidableEq, Repr

/-- An error outcome: its kind, the bytes to answer with, and whether the buffer is
dropped.
-/
structure Rejection where
  kind : RejectionKind
  response : Option Bytes
  clears : Bool
  deriving DecidableEq, Repr

def Rejection.result (rejection : Rejection) : TcpFrameResult :=
  match rejection.kind with
  | .invalid => .invalid rejection.response
  | .tooLarge => .tooLarge rejection.response

theorem Rejection.result_isError (rejection : Rejection) : rejection.result.IsError := by
  rcases rejection with ⟨kind, response, clears⟩
  cases kind <;> trivial

/-- Dropping the buffer with an `Invalid` answer. -/
def dropInvalid (response : Option Bytes) : Rejection :=
  ⟨.invalid, response, true⟩

/-- Dropping the buffer with a `TooLarge` answer. -/
def dropTooLarge (response : Option Bytes) : Rejection :=
  ⟨.tooLarge, response, true⟩

/-- An `Invalid` answer that leaves the buffer alone. -/
def keepInvalid (response : Option Bytes) : Rejection :=
  ⟨.invalid, response, false⟩

/-- The framer outcome that a decision step stands for. -/
def outcome (buffer : Bytes) : Step UInt8 Rejection → TcpFrameResult × Bytes
  | .wait => (.incomplete, buffer)
  | .fail rejection => (rejection.result, if rejection.clears then [] else buffer)
  | .frame front rest => (.complete front, rest)

/-- A framer refines `judge` when it never leaves its buffer and always has the outcome
that the decision asks for.
-/
def Refines (extract : Framer) (judge : Bytes → Decision Rejection) : Prop :=
  ∀ buffer, extract buffer = .done (outcome buffer (follow judge buffer))

section Refinement

variable {extract : Framer} {judge : Bytes → Decision Rejection} {buffer : Bytes}

theorem outcome_take_of_le {length} (arrived : length ≤ buffer.length)
    : outcome buffer ((Decision.take length).cut buffer)
      = (.complete (buffer.take length), buffer.drop length) := by
  simp [Decision.cut, outcome, arrived]

theorem outcome_take_of_lt {length} (missing : buffer.length < length)
    : outcome buffer ((Decision.take length).cut buffer) = (.incomplete, buffer) := by
  simp [Decision.cut, outcome, Nat.not_le.mpr missing]

theorem completeFrame_of_le {len} (arrived : len ≤ buffer.length)
    : completeFrame buffer len = .done (.complete (buffer.take len), buffer.drop len) := by
  simp [completeFrame, drain_of_le arrived]

/-- The common tail of the length-driven framers: wait for `len` bytes, then drain them. -/
theorem wait_or_complete (len : Nat)
    : (if buffer.length < len then unchanged buffer .incomplete else completeFrame buffer len)
      = .done (outcome buffer ((Decision.take len : Decision Rejection).cut buffer)) := by
  split
  · rename_i missing
    rw [outcome_take_of_lt missing, unchanged]
  · rename_i arrived
    rw [outcome_take_of_le (by omega), completeFrame_of_le (by omega)]

/-- A framer's guard clause is a rejecting branch of its decision. -/
theorem guard_reject {failing : Prop} {_ : Decidable failing} {rejection : Rejection}
    {answer code : Exec (TcpFrameResult × Bytes)} {decision : Decision Rejection}
    (rejected : answer = .done (rejection.result, if rejection.clears then [] else buffer))
    (onward : ¬ failing → code = .done (outcome buffer (decision.cut buffer)))
    : (if failing then answer else code) = .done
          (outcome buffer ((if failing then .reject rejection else decision).cut buffer)) := by
  split
  · exact rejected
  · rename_i passed
    exact onward passed

/-- A framer's wait clause is a branch that asks for more. -/
theorem guard_more {waiting : Prop} {_ : Decidable waiting}
    {code : Exec (TcpFrameResult × Bytes)} {decision : Decision Rejection}
    (onward : ¬ waiting → code = .done (outcome buffer (decision.cut buffer)))
    : (if waiting then unchanged buffer .incomplete else code)
      = .done (outcome buffer ((if waiting then .more else decision).cut buffer)) := by
  split
  · rfl
  · rename_i passed
    exact onward passed

/-- Everything received so far is one frame. -/
def immediateDecision (buffer : Bytes) : Decision Rejection :=
  if buffer.isEmpty then .more else .take buffer.length

theorem extractImmediateFrame_refines
    : Refines (optionalFramer extractImmediateFrame) immediateDecision := by
  intro buffer
  cases buffer with
  | nil => rfl
  | cons first rest =>
    simp only [follow, immediateDecision, List.isEmpty_cons, Bool.false_eq_true, if_false]
    rw [outcome_take_of_le (Nat.le_refl _), List.take_length, List.drop_length]
    rfl

/-- A completed call splits the buffer as decided. -/
theorem Refines.complete (refines : Refines extract judge) {frame rest}
    (finished : extract buffer = .done (.complete frame, rest))
    : follow judge buffer = .frame frame rest := by
  rw [refines buffer, Exec.done.injEq] at finished
  cases step : follow judge buffer with
  | wait => rw [step] at finished; cases finished
  | fail rejection =>
    rw [step] at finished
    have isError := rejection.result_isError
    rw [show rejection.result = .complete frame from congrArg Prod.fst finished] at isError
    exact isError.elim
  | frame front rest =>
    rw [step] at finished
    cases finished
    rfl

/-- An error outcome is a rejection. -/
theorem Refines.error (refines : Refines extract judge) {result rest}
    (finished : extract buffer = .done (result, rest)) (isError : result.IsError)
    : ∃ rejection, follow judge buffer = .fail rejection := by
  rw [refines buffer, Exec.done.injEq] at finished
  cases step : follow judge buffer with
  | wait => rw [step] at finished; cases finished; exact isError.elim
  | fail rejection => exact ⟨rejection, rfl⟩
  | frame front rest => rw [step] at finished; cases finished; exact isError.elim

end Refinement

/-! What a framer call may do to the connection buffer.
A frame is taken off the front, an unfinished frame leaves the buffer alone, and an error
keeps the buffer or empties it.
-/

open List

/-- The result of a framer call accounts for the buffer it was given. -/
def Sound (buffer : Bytes) : TcpFrameResult × Bytes → Prop
  | (.complete frame, rest) => frame ≠ [] ∧ buffer = frame ++ rest
  | (.incomplete, rest) => rest = buffer
  | (.invalid _, rest) => rest = buffer ∨ rest = []
  | (.tooLarge _, rest) => rest = buffer ∨ rest = []

/-- The call stays inside its buffer and its result is sound. -/
def Finishes (buffer : Bytes) (call : Exec (TcpFrameResult × Bytes)) : Prop :=
  ∃ answer, call = .done answer ∧ Sound buffer answer

section Calls

variable {buffer : Bytes}

theorem Finishes.incomplete : Finishes buffer (.done (.incomplete, buffer)) :=
  ⟨_, rfl, rfl⟩

theorem Finishes.invalid (response : Option Bytes)
    : Finishes buffer (.done (.invalid response, [])) :=
  ⟨_, rfl, .inr rfl⟩

theorem Finishes.tooLarge (response : Option Bytes)
    : Finishes buffer (.done (.tooLarge response, [])) :=
  ⟨_, rfl, .inr rfl⟩

variable {len : Nat}

theorem Finishes.complete (positive : 0 < len) (arrived : len ≤ buffer.length)
    : Finishes buffer (completeFrame buffer len) := by
  refine ⟨_, completeFrame_of_le arrived, ?_, (take_append_drop len buffer).symm⟩
  rw [← length_pos_iff, length_take]
  omega

theorem Finishes.guard {condition : Prop} {_ : Decidable condition}
    {yes no : Exec (TcpFrameResult × Bytes)} (onTrue : Finishes buffer yes)
    (onFalse : ¬ condition → Finishes buffer no)
    : Finishes buffer (if condition then yes else no) := by
  split
  · exact onTrue
  · rename_i fails
    exact onFalse fails

theorem Finishes.read {index next} (inside : index < buffer.length)
    (onward : ∀ byte, Finishes buffer (next byte))
    : Finishes buffer (item buffer index >>= next) := by
  rw [item_of_lt inside]
  exact onward _

/-- Waiting for `len` bytes and draining them is sound for any positive `len`. -/
theorem Finishes.waitOrComplete (positive : 0 < len)
    : Finishes buffer (if buffer.length < len then .done (.incomplete, buffer)
        else completeFrame buffer len) :=
  .guard .incomplete fun arrived => .complete positive (by omega)

/-- An optional extractor is sound when the framer built from it is. -/
def OptionFinishes (buffer : Bytes) (call : Exec (Option Bytes × Bytes)) : Prop :=
  ∃ frame rest, call = .done (frame, rest) ∧ Sound buffer (optionalFrame frame, rest)

theorem OptionFinishes.finishes {extract} (finishes : OptionFinishes buffer (extract buffer))
    : Finishes buffer (optionalFramer extract buffer) := by
  obtain ⟨frame, rest, finished, sound⟩ := finishes
  exact ⟨_, by rw [optionalFramer, finished]; rfl, sound⟩

theorem OptionFinishes.none : OptionFinishes buffer (.done (none, buffer)) :=
  ⟨_, _, rfl, rfl⟩

theorem OptionFinishes.immediate : OptionFinishes buffer (extractImmediateFrame buffer) := by
  cases buffer with
  | nil => exact .none
  | cons first rest => exact ⟨_, _, rfl, by simp [Sound, optionalFrame]⟩

theorem OptionFinishes.drained (positive : 0 < len) (arrived : len ≤ buffer.length)
    : OptionFinishes buffer (someFrame buffer len) := by
  refine ⟨some (buffer.take len), buffer.drop len, ?_, ?_, (take_append_drop len buffer).symm⟩
  · rw [someFrame, drain_of_le arrived]
    rfl
  · rw [← length_pos_iff, length_take]
    omega

theorem OptionFinishes.guard {condition : Prop} {_ : Decidable condition}
    {yes no : Exec (Option Bytes × Bytes)} (onTrue : condition → OptionFinishes buffer yes)
    (onFalse : ¬ condition → OptionFinishes buffer no)
    : OptionFinishes buffer (if condition then yes else no) := by
  split
  · rename_i holds
    exact onTrue holds
  · rename_i fails
    exact onFalse fails

theorem OptionFinishes.read {index next} (inside : index < buffer.length)
    (onward : ∀ byte, OptionFinishes buffer (next byte))
    : OptionFinishes buffer (item buffer index >>= next) := by
  rw [item_of_lt inside]
  exact onward _

/-- Waiting for `len` bytes and taking them as an optional frame. -/
theorem OptionFinishes.waitOrTake (positive : 0 < len)
    : OptionFinishes buffer
        (if buffer.length < len then .done (Option.none, buffer) else someFrame buffer len) :=
  .guard (fun _ => .none) fun arrived => .drained positive (by omega)

/-- A framer that follows decisions is sound once no decision asks for an empty frame. -/
theorem Refines.finishes {extract judge} (refines : Refines extract judge)
    (positive : Positive judge) (buffer : Bytes)
    : Finishes buffer (extract buffer) := by
  refine ⟨_, refines buffer, ?_⟩
  cases step : follow judge buffer with
  | wait => rfl
  | fail rejection =>
    rcases rejection with ⟨kind, response, clears⟩
    cases kind <;> cases clears <;> simp [outcome, Rejection.result, Sound]
  | frame front rest =>
    obtain ⟨length, asked, arrived, rfl, rfl⟩ := Decision.cut_frame step
    have asksSome := positive buffer length asked
    refine ⟨?_, (take_append_drop length buffer).symm⟩
    rw [← length_pos_iff, length_take]
    omega

end Calls

end NetTrap.TcpFraming
