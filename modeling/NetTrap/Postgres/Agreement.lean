import NetTrap.Postgres.Handler

/-! The detector of the proxy takes what the handler answers. -/

namespace NetTrap.Postgres

open Rust Access Octets List Option Bool

/-- The message begins with a byte for its type. -/
def IsTyped (data : Bytes) : Prop :=
  ∃ first tag, data.head? = some first ∧ TypedTag.ofByte first = some tag

def IsErrorResponse (answer : Bytes) : Prop :=
  answer.head? = some 0x45

/-- The first message, as long as it says, is followed by a TLS `ClientHello`. -/
def TlsFollows (data : Bytes) : Prop :=
  8 ≤ data.length ∧ looksLikeCompleteTlsClientHello (data.drop (u32At data 0)) = true

section Typed

variable {data : Bytes} {first : UInt8} {tag : TypedTag}

theorem isErrorResponse_postgresErrorResponse (message : String)
    : IsErrorResponse (postgresErrorResponse message) :=
  rfl

/-- The answer to a query. -/
theorem not_isErrorResponse_select
    : ¬ IsErrorResponse
        (ascii "C" ++ u32Bytes 13 ++ ascii "SELECT 0" ++ [0] ++ readyForQueryIdle) := by
  rw [IsErrorResponse]
  decide

theorem looksLikePostgresTypedMessage_iff (head : data.head? = some first)
    (typed : TypedTag.ofByte first = some tag)
    : looksLikePostgresTypedMessage data = true
      ↔ 5 ≤ data.length ∧ postgresTypedMessageMinLen tag ≤ u32At data 1
        ∧ data.length = u32At data 1 + 1
        ∧ postgresTypedMessageBodyIsValid tag (data.drop 5) = true := by
  rw [looksLikePostgresTypedMessage, decide_eq_true_eq, postgresTypedMessageEnd, head]
  simp only [bind_eq_bind, bind_some, typed]
  constructor
  · intro found
    simp only [bind_eq_some_iff, guard_eq_some] at found
    obtain ⟨_, long, _, ⟨least, inside⟩, _, valid, ends⟩ := found
    have ends : u32At data 1 + 1 = data.length := some.inj ends
    rw [ends, take_length] at valid
    exact ⟨long, least, ends.symm, valid⟩
  · rintro ⟨long, least, ends, valid⟩
    simp only [bind_eq_some_iff, guard_eq_some]
    refine ⟨(), long, (), ⟨least, ends.ge⟩, (), ?_, congrArg some ends.symm⟩
    rwa [← ends, take_length]

/-- Without a type, the detector takes nothing. -/
theorem isTyped_of_looksLike (looks : looksLikePostgresTypedMessage data = true)
    : IsTyped data := by
  rw [looksLikePostgresTypedMessage, decide_eq_true_eq, postgresTypedMessageEnd] at looks
  simp only [bind_eq_bind, bind_eq_some_iff] at looks
  obtain ⟨_, _, first, head, tag, typed, _⟩ := looks
  exact ⟨first, tag, head, typed⟩

/-- All messages but queries. -/
theorem typedMessageIsComplete_iff (head : data.head? = some first)
    (typed : TypedTag.ofByte first = some tag) (other : tag ≠ .query)
    : typedMessageIsComplete tag data = true ↔ looksLikePostgresTypedMessage data = true := by
  have sameMin : typedMessageMinLen tag = some (postgresTypedMessageMinLen tag) := by
    cases tag <;> first | rfl | exact absurd rfl other
  have sameBody (body : Bytes)
      : typedMessageBodyIsValid tag body = postgresTypedMessageBodyIsValid tag body := by
    cases tag <;> first | rfl | exact absurd rfl other
  rw [looksLikePostgresTypedMessage_iff head typed, typedMessageIsComplete, sameMin]
  simp only [sameBody]
  split
  case isTrue short =>
    exact iff_of_false (by simp) fun found => absurd found.1 (Nat.not_le.mpr short)
  case isFalse long =>
    by_cases fits : postgresTypedMessageMinLen tag ≤ u32At data 1 ∧ data.length = u32At data 1 + 1
    · rw [if_neg (by simp [fits])]
      exact ⟨fun valid => ⟨Nat.le_of_not_lt long, fits.1, fits.2, valid⟩, fun found => found.2.2.2⟩
    · rw [if_pos (by simp; omega)]
      exact iff_of_false (by simp) fun found => fits ⟨found.2.1, found.2.2.1⟩

theorem handleQuery_iff (head : data.head? = some first)
    (typed : TypedTag.ofByte first = some .query)
    : ¬ IsErrorResponse (handleQuery data) ↔ looksLikePostgresTypedMessage data = true := by
  have refused (message : String) : ¬ ¬ IsErrorResponse (postgresErrorResponse message) :=
    not_not_intro (isErrorResponse_postgresErrorResponse message)
  rw [looksLikePostgresTypedMessage_iff head typed, handleQuery]
  simp only [postgresTypedMessageMinLen, postgresTypedMessageBodyIsValid]
  split
  case isTrue short =>
    exact iff_of_false (refused _) fun found => absurd found.1 (Nat.not_le.mpr short)
  case isFalse long =>
  split
  case isTrue bad =>
    simp only [or_eq_true, decide_eq_true_eq] at bad
    exact iff_of_false (refused _) fun found => by omega
  split
  case isTrue trailing =>
    exact iff_of_false (refused _) fun found => absurd found.2.2.1 (by simpa using trailing)
  case isFalse behind =>
  have ends : data.length = u32At data 1 + 1 := by
    simpa using behind
  rw [stripSuffix]
  by_cases terminated : (data.drop 5).getLast? = some 0
  case neg =>
    rw [if_neg terminated]
    exact iff_of_false (refused _) fun found =>
      terminated (by simpa using (and_eq_true_iff.mp found.2.2.2).1)
  have least : 5 ≤ u32At data 1 := by
    have inside : (data.drop 5).length ≠ 0 := by
      intro nothing
      rw [length_eq_zero_iff.mp nothing] at terminated
      cases terminated
    rw [length_drop] at inside
    omega
  rw [if_pos terminated]
  dsimp only
  by_cases zeros : (data.drop 5).dropLast.contains 0 = true
  · rw [if_pos zeros]
    refine iff_of_false (refused _) fun found => ?_
    obtain ⟨query, decoded, clean⟩ := (any_eq_true _ _).mp (and_eq_true_iff.mp found.2.2.2).2
    rw [fromUtf8_eq decoded, zeros] at clean
    cases clean
  · rw [if_neg zeros]
    cases decoded : fromUtf8 (data.drop 5).dropLast with
    | none => exact iff_of_false (refused _) fun found => by simp [terminated] at found
    | some query =>
      refine iff_of_true not_isErrorResponse_select ⟨Nat.le_of_not_lt long, least, ends, ?_⟩
      rw [decide_eq_true terminated, any_some, fromUtf8_eq decoded, Bool.true_and,
        Bool.not_eq_true', Bool.eq_false_iff]
      exact zeros

/-- An answer that is an error exactly where something is missing. -/
theorem not_isErrorResponse_ite_iff {complete message answer} (fine : ¬ IsErrorResponse answer)
    : ¬ IsErrorResponse (if !complete then postgresErrorResponse message else answer)
      ↔ complete = true := by
  cases complete with
  | false =>
    exact iff_of_false (not_not_intro (isErrorResponse_postgresErrorResponse message)) (by simp)
  | true => exact iff_of_true fine rfl

theorem handle_typed_iff (head : data.head? = some first)
    (typed : TypedTag.ofByte first = some tag)
    : ¬ IsErrorResponse (handle data) ↔ looksLikePostgresTypedMessage data = true := by
  rw [handle, head]
  simp only [typed]
  cases tag with
  | query => exact handleQuery_iff head typed
  | terminate =>
    refine (not_isErrorResponse_ite_iff (by rw [IsErrorResponse]; decide)).trans ?_
    exact typedMessageIsComplete_iff head typed (by simp)
  | _ =>
    refine (not_isErrorResponse_ite_iff (by rw [IsErrorResponse]; decide)).trans ?_
    exact typedMessageIsComplete_iff head typed (by simp)

theorem looksLikePostgresTypedMessage_handled (data : Bytes)
    : looksLikePostgresTypedMessage data = true
      ↔ IsTyped data ∧ ¬ IsErrorResponse (handle data) := by
  constructor
  · intro looks
    obtain ⟨first, tag, head, typed⟩ := isTyped_of_looksLike looks
    exact ⟨⟨first, tag, head, typed⟩, (handle_typed_iff head typed).mpr looks⟩
  · rintro ⟨⟨first, tag, head, typed⟩, answered⟩
    exact (handle_typed_iff head typed).mp answered

end Typed

section Startup

/-- The handler declines, or lets the client in. -/
def Greets (answer : Bytes) : Prop :=
  answer = ascii "N" ∨ answer = getHandshakeResponse

theorem not_greets_error (message : String) : ¬ Greets (postgresErrorResponse message) := by
  rintro (same | same)
  · exact absurd (congrArg head? same) (by rw [isErrorResponse_postgresErrorResponse]; decide)
  · exact absurd (congrArg head? same) (by rw [isErrorResponse_postgresErrorResponse]; decide)

theorem not_greets_nil : ¬ Greets [] := by
  rw [Greets]
  decide

/-- A request that is declined has nothing but its length and its code. -/
theorem greets_ite_iff {len message}
    : Greets (if len != 8 then postgresErrorResponse message else ascii "N") ↔ len = 8 := by
  by_cases bare : len = 8
  · rw [if_neg (by simpa using bare)]
    exact iff_of_true (.inl rfl) bare
  · rw [if_pos (by simpa using bare)]
    exact iff_of_false (not_greets_error _) bare

/-- The cancel request is neither greeted nor detected. -/
theorem looksLikePostgresStartupMessage_cancel {data}
    (cancel : u32At data 4 = postgresCancelRequest)
    : looksLikePostgresStartupMessage data = false := by
  have ssl : postgresCancelRequest ≠ postgresSslRequest := by decide
  have gssenc : postgresCancelRequest ≠ postgresGssencRequest := by decide
  have startup : postgresCancelRequest ≠ postgresStartupVersion3 := by decide
  simp [looksLikePostgresStartupMessage, cancel, if_neg ssl, if_neg gssenc, if_pos startup]

/-- Witness: both take the same decisions in the same order, save that the detector lets a TLS
record stand behind an encryption request. -/
theorem handleStartup_iff {data} (long : 8 ≤ data.length) (alone : ¬ TlsFollows data)
    : looksLikePostgresStartupMessage data = true ↔ Greets (handleStartup data) := by
  have silent : looksLikeCompleteTlsClientHello (data.drop (u32At data 0)) = false := by
    rw [Bool.eq_false_iff]
    exact fun follows => alone ⟨long, follows⟩
  rw [handleStartup]
  by_cases cancel : u32At data 4 = postgresCancelRequest
  · rw [looksLikePostgresStartupMessage_cancel cancel, if_pos cancel]
    refine iff_of_false (by simp) ?_
    split
    · exact not_greets_error _
    · split
      · exact not_greets_error _
      · exact not_greets_nil
  rw [looksLikePostgresStartupMessage, if_neg (Nat.not_lt.mpr long), if_neg cancel]
  dsimp only
  rw [silent]
  by_cases short : u32At data 0 < 8
  · rw [if_pos (by simp [short]), if_pos short]
    exact iff_of_false (by simp) (not_greets_error _)
  by_cases cut : data.length < u32At data 0
  · rw [if_pos (by simp [cut]), if_neg short, if_pos cut]
    exact iff_of_false (by simp) (not_greets_error _)
  rw [if_neg (by simp; omega), if_neg short, if_neg cut]
  by_cases whole : data.length = u32At data 0
  · have closed : ¬ (data.length != u32At data 0) = true := by simp [whole]
    rw [if_neg closed]
    by_cases ssl : u32At data 4 = postgresSslRequest
    · rw [if_pos ssl, if_pos ssl, greets_ite_iff]
      simp [whole]
    by_cases gssenc : u32At data 4 = postgresGssencRequest
    · rw [if_neg ssl, if_neg ssl, if_pos gssenc, if_pos gssenc, greets_ite_iff]
      simp [whole]
    rw [if_neg ssl, if_neg ssl, if_neg gssenc, if_neg gssenc]
    by_cases third : u32At data 4 = postgresStartupVersion3
    · rw [if_neg (not_not_intro third), if_neg (not_not_intro whole.symm), if_pos third]
      rw [postgresStartupParametersAreComplete]
      cases startupParametersAreComplete (data.drop 8) with
      | false => exact iff_of_false (by simp) (not_greets_error _)
      | true => exact iff_of_true rfl (.inr rfl)
    · rw [if_pos third, if_neg third]
      exact iff_of_false (by simp) not_greets_nil
  · have trailing : (data.length != u32At data 0) = true := by simpa using whole
    rw [if_pos trailing]
    refine iff_of_false ?_ (not_greets_error _)
    simp [Ne.symm whole]

/-- Witness: the answers to typed messages begin with other letters, or are empty. -/
theorem not_greets_of_isTyped {data} (isTyped : IsTyped data) : ¬ Greets (handle data) := by
  have ready : ¬ Greets readyForQueryIdle := by
    rw [Greets]
    decide
  obtain ⟨first, tag, head, typed⟩ := isTyped
  rw [handle, head]
  simp only [typed]
  cases tag with
  | query =>
    simp only [handleQuery]
    split_ifs
    any_goals exact not_greets_error _
    split
    · exact not_greets_error _
    · split_ifs
      · exact not_greets_error _
      · split
        · exact not_greets_error _
        · rw [Greets]
          decide
  | terminate =>
    dsimp only
    split
    · exact not_greets_error _
    · exact not_greets_nil
  | _ =>
    dsimp only
    split
    · exact not_greets_error _
    · exact ready

theorem handle_of_not_isTyped {data} (other : ¬ IsTyped data)
    : handle data = if 8 ≤ data.length then handleStartup data else [] := by
  cases data with
  | nil => rfl
  | cons first rest =>
    have untyped : TypedTag.ofByte first = none := by
      by_contra found
      obtain ⟨tag, typed⟩ := ne_none_iff_exists'.mp found
      exact other ⟨first, tag, rfl, typed⟩
    rw [handle, head?_cons]
    simp [untyped]

/-- The letters that begin typed messages stand high in a length. -/
theorem typedLetter_le {first} {tag : TypedTag} (typed : TypedTag.ofByte first = some tag)
    : 0x42 ≤ first.toNat := by
  unfold TypedTag.ofByte at typed
  split at typed
  any_goals decide
  cases typed

/-- A startup message with a letter before it is too long for any but the largest inputs. -/
theorem length_of_isTyped_startup {data} (isTyped : IsTyped data)
    (looks : looksLikePostgresStartupMessage data = true)
    : 0x42000000 ≤ data.length := by
  obtain ⟨first, tag, head, typed⟩ := isTyped
  have high := typedLetter_le typed
  have fits : u32At data 0 ≤ data.length := by
    by_contra cut
    have refused : (u32At data 0 > data.length || u32At data 0 < 8) = true := by
      rw [decide_eq_true (Nat.lt_of_not_le cut), Bool.true_or]
    simp only [looksLikePostgresStartupMessage, refused, if_true, ite_self] at looks
    cases looks
  have length : 0x42000000 ≤ u32At data 0 := by
    cases data with
    | nil => cases head
    | cons byte rest =>
      cases head
      rw [u32At, byteAt_cons_zero, u32FromBeBytes]
      omega
  exact length.trans fits

/-- The detector takes the typed messages that the handler answers without an error, and the
startup messages that it greets. Only a message that begins with a letter and has the size that
the letter gives it as the top byte of a length is a startup message to the detector alone. -/
theorem postgres_detector_agrees (data : Bytes)
    : (looksLikePostgresTypedMessage data = true ↔ IsTyped data ∧ ¬ IsErrorResponse (handle data))
      ∧ ((IsTyped data → data.length < 0x42000000) → ¬ TlsFollows data
        → (looksLikePostgresStartupMessage data = true ↔ Greets (handle data))) := by
  refine ⟨looksLikePostgresTypedMessage_handled data, fun small alone => ?_⟩
  by_cases isTyped : IsTyped data
  · refine iff_of_false (fun looks => ?_) (not_greets_of_isTyped isTyped)
    exact absurd (length_of_isTyped_startup isTyped looks) (Nat.not_le.mpr (small isTyped))
  · by_cases long : 8 ≤ data.length
    · rw [handle_of_not_isTyped isTyped, if_pos long]
      exact handleStartup_iff long alone
    · rw [handle_of_not_isTyped isTyped, if_neg long, looksLikePostgresStartupMessage,
        if_pos (Nat.lt_of_not_le long)]
      exact iff_of_false (by simp) not_greets_nil

/-- The startup message of the user `a`. -/
def startupOfUser : Bytes :=
  u32Bytes 16 ++ u32Bytes postgresStartupVersion3 ++ ascii "user" ++ [0, 0x61, 0, 0]

theorem postgres_detector_agrees_user : Greets (handle startupOfUser) := by
  refine ((postgres_detector_agrees startupOfUser).2 (fun _ => by decide) ?_).mp (by decide +kernel)
  exact fun follows => absurd follows.2 (by decide +kernel)

/-- A startup message whose only parameter has a long name and no value, and whose length begins
with the letter `B`. -/
def startupFor (nameLen : Nat) : Bytes :=
  [0x42, 0, 0, 0] ++ ([0, 3, 0, 0] ++ (0x61 :: List.replicate nameLen 0x61 ++ [0, 0, 0]))

theorem consumeNulTerminatedField_replicate (count : Nat) (rest : Bytes)
    : consumeNulTerminatedField (replicate count 0x61 ++ 0 :: rest) = some rest := by
  induction count with
  | zero => rfl
  | succ count ih =>
    rw [replicate_succ, cons_append, consumeNulTerminatedField, if_neg (by decide)]
    exact ih

/-- Every length of the name is good. -/
theorem startupParametersAreComplete_name (nameLen : Nat)
    : startupParametersAreComplete (0x61 :: replicate nameLen 0x61 ++ [0, 0, 0]) = true := by
  have ends : (0x61 :: replicate nameLen 0x61 ++ [0, 0, 0] : Bytes)
      = (0x61 :: (replicate nameLen 0x61 ++ [0, 0])) ++ [0] := by
    simp
  rw [startupParametersAreComplete, ends, getLast?_concat, dropLast_concat,
    if_neg (by simp), length_append, length_singleton, startupParametersLoop,
    if_neg (by decide), consumeNulTerminatedField_replicate]
  exact startupParametersLoop.eq_1 _

/-- Witness: the detector reads the letter as a part of the length, the handler as the type. -/
theorem startupFor_diverges {nameLen} (size : nameLen + 12 = 0x42000000)
    : ¬ TlsFollows (startupFor nameLen)
      ∧ looksLikePostgresStartupMessage (startupFor nameLen) = true
      ∧ ¬ Greets (handle (startupFor nameLen)) := by
  have length : (startupFor nameLen).length = 0x42000000 := by
    simp [startupFor]
    omega
  have said : u32At (startupFor nameLen) 0 = 0x42000000 := by
    have bytes : u32At (startupFor nameLen) 0 = u32FromBeBytes 0x42 0 0 0 := rfl
    rw [bytes]
    decide +kernel
  have version : u32At (startupFor nameLen) 4 = postgresStartupVersion3 := by
    have bytes : u32At (startupFor nameLen) 4 = u32FromBeBytes 0 3 0 0 := rfl
    rw [bytes]
    decide +kernel
  have nothing : (startupFor nameLen).drop 0x42000000 = [] :=
    drop_eq_nil_of_le length.le
  refine ⟨?_, ?_, not_greets_of_isTyped ⟨0x42, .bind, rfl, rfl⟩⟩
  · rw [TlsFollows, said, nothing]
    exact fun follows => absurd follows.2 (by decide)
  · have ssl : postgresStartupVersion3 ≠ postgresSslRequest := by decide
    have gssenc : postgresStartupVersion3 ≠ postgresGssencRequest := by decide
    simp only [looksLikePostgresStartupMessage, length, said, version, if_neg ssl, if_neg gssenc]
    exact startupParametersAreComplete_name nameLen

theorem postgres_huge_startup_diverges
    : ¬ TlsFollows (startupFor 1107296244)
      ∧ looksLikePostgresStartupMessage (startupFor 1107296244) = true
      ∧ ¬ Greets (handle (startupFor 1107296244)) :=
  startupFor_diverges (by decide)

end Startup

end NetTrap.Postgres
