import NetTrap.Redis.Batches

/-! The authentication gate of the Redis handler.
The gate takes any argument `AUTH` of a `HELLO` for the option, while the command itself reads
its options by position. A `HELLO` in which the two differ passes the gate without
credentials.
-/

namespace NetTrap.Redis

open Access Rust List Bool

/-- Among options read by position, `AUTH` comes with its two credentials. -/
def carriesAuth : List Bytes → Bool
  | [] => false
  | option :: rest =>
    if toAsciiUppercase option = ascii "AUTH" then 2 ≤ rest.length
    else if toAsciiUppercase option = ascii "SETNAME" then
      match rest with
      | [] => false
      | _ :: rest => carriesAuth rest
    else false

section Commands

variable (handler : RedisHandler)

/-- A command other than `AUTH`, `RESET` and a `HELLO` with credentials. -/
def needsAuth : List Bytes → Bool
  | [] => false
  | name :: args =>
    match textCommand name with
    | none => true
    | some cmd =>
      let kind := CommandKind.ofText (handler.toUppercase cmd)
      kind != .auth && kind != .reset && !(kind == .hello && carriesAuth (args.drop 1))

/-- The name of the command is text, and a `HELLO` has no argument `AUTH` behind the first. -/
def Unambiguous : List Bytes → Prop
  | [] => False
  | name :: args =>
    ∃ cmd, textCommand name = some cmd
      ∧ (CommandKind.ofText (handler.toUppercase cmd) = .hello →
          ∀ arg ∈ args.drop 1, eqIgnoreAsciiCase arg (ascii "AUTH") = false)

end Commands

section Replies

variable {α : Type} {word : List α}

/-- No text that starts with `reply` starts with `word`. -/
def Apart (word reply : List α) : Prop :=
  ∀ more others, reply ++ more ≠ word ++ others

theorem Apart.of_take {reply} (length : Nat) (wordLong : length ≤ word.length)
    (replyLong : length ≤ reply.length) (differ : reply.take length ≠ word.take length)
    : Apart word reply := by
  intro more others same
  have front := congrArg (take length) same
  rw [take_append_of_le_length replyLong, take_append_of_le_length wordLong] at front
  exact differ front

theorem Apart.append {reply} (apart : Apart word reply) (more : List α)
    : Apart word (reply ++ more) := by
  intro further others same
  exact apart (more ++ further) others (by rw [← same, append_assoc])

/-- Replies that together read as `count` times the word are at least as many, and all of them
the word if they are no more.
Witness: induction on the replies; one that is missing leaves the others too short, and one
apart from the word cannot stand in the text.
-/
theorem flatten_eq_replicate (nonempty : word ≠ []) {replies : List (List α)} {count : Nat}
    (known : ∀ reply ∈ replies, reply = word ∨ reply = [] ∨ Apart word reply)
    (reads : replies.flatten = (replicate count word).flatten)
    : count ≤ replies.length ∧ (count = replies.length → ∀ reply ∈ replies, reply = word) := by
  induction replies generalizing count with
  | nil =>
    cases count with
    | zero => exact ⟨Nat.le_refl 0, fun _ _ member => absurd member not_mem_nil⟩
    | succ count =>
      rw [replicate_succ, flatten_cons, flatten_nil] at reads
      exact absurd (append_eq_nil_iff.mp reads.symm).1 nonempty
  | cons reply replies ih =>
    have later : ∀ other ∈ replies, other = word ∨ other = [] ∨ Apart word other :=
      fun other member => known other (.tail _ member)
    rw [flatten_cons] at reads
    rcases known reply mem_cons_self with rfl | rfl | apart
    · cases count with
      | zero => exact absurd (append_eq_nil_iff.mp reads).1 nonempty
      | succ count =>
        rw [replicate_succ, flatten_cons] at reads
        obtain ⟨fewer, all⟩ := ih later (append_cancel_left reads)
        refine ⟨by simpa using fewer, ?_⟩
        intro same other member
        rcases mem_cons.mp member with rfl | member
        · rfl
        · exact all (by simpa using same) other member
    · obtain ⟨fewer, _⟩ := ih later reads
      rw [length_cons]
      exact ⟨by omega, by omega⟩
    · cases count with
      | zero =>
        obtain ⟨empty, _⟩ := append_eq_nil_iff.mp reads
        subst empty
        exact absurd (append_nil word).symm (apart word [])
      | succ count =>
        rw [replicate_succ, flatten_cons] at reads
        exact absurd reads (apart _ _)

end Replies

theorem apart_protocolError : Apart noAuthReply protocolError :=
  .of_take 4 (by decide) (by decide) (by decide)

theorem apart_wrongNumberOfArguments (command : String)
    : Apart noAuthReply (wrongNumberOfArguments command) := by
  refine Apart.append (.append (.of_take 4 ?_ ?_ ?_) _) _
  all_goals decide

theorem apart_helloPayload (version : Str) (respVersion : Nat)
    : Apart noAuthReply (helloPayload version respVersion) := by
  unfold helloPayload
  refine .append (.append (.append (.append (.append (.append (.append (.append ?_
    _) _) _) _) _) _) _) _
  split
  · exact .of_take 4 (by decide) (by decide) (by decide)
  · exact .of_take 4 (by decide) (by decide) (by decide)

theorem apart_of_handleAuthCommand {args before after reply}
    (answered : handleAuthCommand args before = (after, reply)) (refused : reply ≠ okReply)
    : Apart noAuthReply reply := by
  rw [handleAuthCommand] at answered
  split at answered
  · cases answered
    exact apart_wrongNumberOfArguments "auth"
  · cases answered
    exact absurd rfl refused

/-- The options of `HELLO` are refused with a reply of their own. -/
theorem apart_of_readHelloOptions {read options reply}
    (failed : readHelloOptions read options = .error reply)
    : Apart noAuthReply reply := by
  fun_induction readHelloOptions read options with
  | case1 => cases failed
  | case2 =>
    cases failed
    exact apart_protocolError
  | case3 | case7 | case11 =>
    cases failed
    exact .of_take 4 (by decide) (by decide) (by decide)
  | case4 _ _ _ _ _ _ _ _ _ _ _ answered refused =>
    cases failed
    exact apart_of_handleAuthCommand answered refused
  | case5 _ _ _ _ _ _ _ _ _ _ _ _ _ ih => exact ih failed
  | case8 _ _ _ _ _ _ _ _ _ _ _ ih => exact ih failed
  | case6 | case10 =>
    cases failed
    exact apart_wrongNumberOfArguments "hello"
  | case9 =>
    cases failed
    exact .of_take 4 (by decide) (by decide) (by decide)

/-- Credentials are only taken from an option `AUTH` that comes with them. -/
theorem carriesAuth_of_sawAuth {read result options}
    (finished : readHelloOptions read options = .ok result) (saw : result.sawAuth = true)
    : read.sawAuth = true ∨ carriesAuth options = true := by
  fun_induction readHelloOptions read options with
  | case1 =>
    cases finished
    exact .inl saw
  | case5 _ _ _ isText named =>
    obtain rfl := fromUtf8_eq isText
    rw [carriesAuth, if_pos named]
    exact .inr (decide_eq_true (by simp))
  | case8 _ _ _ isText notAuth named _ _ _ _ _ ih =>
    obtain rfl := fromUtf8_eq isText
    rw [carriesAuth, if_neg notAuth, if_pos named]
    exact ih finished
  | case2 | case3 | case4 | case6 | case7 | case9 | case10 | case11 => cases finished

/-- A `HELLO` without credentials authenticates nobody, and is not answered like a command
that was stopped at the gate. -/
theorem helloResponse_uncarried (self : Connection) {args} (version : Str)
    (uncarried : carriesAuth (args.drop 1) = false)
    : (helloResponse self args version).1.authenticated = self.authenticated
      ∧ (helloResponse self args version).1.state = self.state
      ∧ Apart noAuthReply (helloResponse self args version).2 := by
  cases args with
  | nil => exact ⟨rfl, rfl, apart_helloPayload _ _⟩
  | cons protover options =>
    rw [drop_succ_cons, drop_zero] at uncarried
    rw [helloResponse]
    split
    · exact ⟨rfl, rfl, apart_protocolError⟩
    split
    next reply failed =>
      refine ⟨rfl, rfl, ?_⟩
      simp only [helloVersion] at failed
      split_ifs at failed
      · cases failed
        exact apart_wrongNumberOfArguments "hello"
      · cases failed
        change Apart noAuthReply (ascii "-NOPROTO unsupported protocol version\r\n")
        exact .of_take 4 (by decide) (by decide) (by decide)
    next respVersion _ =>
    split
    next reply failed => exact ⟨rfl, rfl, apart_of_readHelloOptions failed⟩
    next read finished =>
      refine ⟨?_, rfl, apart_helloPayload _ _⟩
      have unseen : read.sawAuth = false := by
        rw [eq_false_iff]
        intro saw
        rcases carriesAuth_of_sawAuth finished saw with start | carried
        · cases start
        · rw [uncarried] at carried
          cases carried
      simp [unseen]

/-- A byte that is ASCII in lower case is ASCII. -/
theorem lt_of_toAsciiLowercase_lt {byte} (small : toAsciiLowercase byte < 0x80) : byte < 0x80 := by
  rw [toAsciiLowercase] at small
  split at small
  case isTrue upper =>
    simp only [isAsciiUppercase, and_eq_true, decide_eq_true_eq, UInt8.le_iff_toNat_le] at upper
    rw [UInt8.lt_iff_toNat_lt]
    exact Nat.lt_of_le_of_lt upper.2 (by decide)
  case isFalse => exact small

/-- What equals an ASCII word up to case is text. -/
theorem textCommand_any_eqIgnoreAsciiCase (value : Bytes) {word}
    (plain : ∀ byte ∈ word.map toAsciiLowercase, byte < 0x80)
    : ((textCommand value).any fun text => eqIgnoreAsciiCase text word)
      = eqIgnoreAsciiCase value word := by
  cases same : eqIgnoreAsciiCase value word with
  | true =>
    have letters : ∀ byte ∈ value, byte < 0x80 := by
      intro byte member
      apply lt_of_toAsciiLowercase_lt
      apply plain
      rw [← beq_iff_eq.mp same]
      exact mem_map_of_mem member
    rw [textCommand, fromUtf8_ascii letters, Option.any_some, same]
  | false =>
    cases decoded : textCommand value with
    | none => rfl
    | some text => rw [Option.any_some, fromUtf8_eq decoded, same]

section Gate

variable {handler : RedisHandler} {self : Connection} {name : Bytes} {args : List Bytes}

/-- The gate's scan over the arguments of `HELLO`; what spells `AUTH` is text. -/
theorem helloHasAuth_eq_false_iff
    : helloHasAuth args = false
      ↔ ∀ arg ∈ args.drop 1, eqIgnoreAsciiCase arg (ascii "AUTH") = false := by
  rw [helloHasAuth, any_eq_false]
  refine forall₂_congr fun arg _ => ?_
  rw [← textCommand_any_eqIgnoreAsciiCase arg (by decide +kernel), not_eq_true]

/-- A command that needs authentication is stopped at the gate if it is unambiguous. -/
theorem handleParts_unambiguous (required : handler.requireAuth = true)
    (unauthenticated : self.authenticated = false)
    (needs : needsAuth handler (name :: args) = true)
    (plain : Unambiguous handler (name :: args))
    : handleParts handler self name args = (self, some noAuthReply) := by
  obtain ⟨cmd, isText, options⟩ := plain
  simp only [needsAuth, isText, and_eq_true, not_eq_true', bne_iff_ne] at needs
  have stopped : refused handler self (.ofText (handler.toUppercase cmd)) args = true := by
    have scan : (CommandKind.ofText (handler.toUppercase cmd) == .hello && helloHasAuth args)
        = false := by
      by_cases hello : CommandKind.ofText (handler.toUppercase cmd) = .hello
      · rw [helloHasAuth_eq_false_iff.mpr (options hello), Bool.and_false]
      · rw [beq_eq_false_iff_ne.mpr hello, Bool.false_and]
    simp [refused, required, unauthenticated, needs.1.1, needs.1.2, scan]
  rw [handleParts, isText]
  simp [stopped]

/-- Otherwise it changes no authentication either, but is not answered with the error. -/
theorem handleParts_ambiguous
    (unauthenticated : self.authenticated = false)
    (needs : needsAuth handler (name :: args) = true)
    (ambiguous : ¬ Unambiguous handler (name :: args))
    : (handleParts handler self name args).1.authenticated = false
      ∧ (handleParts handler self name args).1.state = self.state
      ∧ ((handleParts handler self name args).2.getD [] = []
          ∨ Apart noAuthReply ((handleParts handler self name args).2.getD [])) := by
  rw [handleParts]
  cases isText : textCommand name with
  | none => exact ⟨unauthenticated, rfl, .inr apart_protocolError⟩
  | some cmd =>
    simp only [needsAuth, isText, and_eq_true, not_eq_true', bne_iff_ne] at needs
    have mixed : CommandKind.ofText (handler.toUppercase cmd) = .hello
        ∧ helloHasAuth args = true := by
      by_contra plain
      refine ambiguous ⟨cmd, isText, fun hello => helloHasAuth_eq_false_iff.mp ?_⟩
      rw [eq_false_iff]
      exact fun scanned => plain ⟨hello, scanned⟩
    have passes : refused handler self .hello args = false := by
      simp [refused, mixed.2]
    have uncarried : carriesAuth (args.drop 1) = false := by
      simpa [mixed.1] using needs.2
    obtain ⟨authenticated, state, apart⟩ :=
      helloResponse_uncarried self handler.version uncarried
    simp only [execute, mixed.1, passes, false_eq_true, if_false, epilogue_authenticated,
      epilogue_state]
    refine ⟨authenticated.trans unauthenticated, state, ?_⟩
    split
    · exact .inr apart
    · exact .inl rfl

theorem noAuthReply_ne_nil : noAuthReply ≠ [] := by
  decide

/-- Commands that need authentication, on an open connection without it: their replies, and
what the replies tell about them. -/
structure Stopped (handler : RedisHandler) (commands : List (List Bytes)) (last : Connection)
    (replies : List Bytes) : Prop where
  unauthenticated : last.authenticated = false
  opened : last.state ≠ .disconnected
  count : replies.length = commands.length
  known : ∀ reply ∈ replies, reply = noAuthReply ∨ reply = [] ∨ Apart noAuthReply reply
  plain : (∀ reply ∈ replies, reply = noAuthReply) →
    ∀ parts ∈ commands, Unambiguous handler parts

section

variable (required : handler.requireAuth = true) {commands}
  (unauthenticated : self.authenticated = false) (opened : self.state ≠ .disconnected)
include required unauthenticated opened

theorem runCommands_stopped (needs : ∀ parts ∈ commands, needsAuth handler parts = true)
    : Stopped handler commands (runCommands handler self commands).1
        (runCommands handler self commands).2 := by
  induction commands generalizing self with
  | nil =>
    exact ⟨unauthenticated, opened, rfl, fun _ member => absurd member not_mem_nil,
      fun _ _ member => absurd member not_mem_nil⟩
  | cons parts commands ih =>
    have first := needs parts mem_cons_self
    have later := fun other member => needs other (mem_cons_of_mem parts member)
    cases parts with
    | nil => cases first
    | cons name args =>
      rw [runCommands_cons handler opened]
      by_cases plain : Unambiguous handler (name :: args)
      · rw [handleParts_unambiguous required unauthenticated first plain]
        have rest := ih unauthenticated opened later
        refine ⟨rest.unauthenticated, rest.opened, by simp [rest.count], ?_, ?_⟩
        · intro reply member
          rcases mem_cons.mp member with rfl | member
          · exact .inl rfl
          · exact rest.known reply member
        · intro all other member
          rcases mem_cons.mp member with rfl | member
          · exact plain
          · exact rest.plain (fun reply inside => all reply (.tail _ inside)) other member
      · obtain ⟨authenticated, state, reply⟩ :=
          handleParts_ambiguous unauthenticated first plain
        have rest := ih authenticated (by rw [state]; exact opened) later
        refine ⟨rest.unauthenticated, rest.opened, by simp [rest.count], ?_, ?_⟩
        · intro other member
          rcases mem_cons.mp member with rfl | member
          · exact .inr reply
          · exact rest.known other member
        · intro all
          have error := all _ mem_cons_self
          rcases reply with silent | apart
          · rw [silent] at error
            exact absurd error.symm noAuthReply_ne_nil
          · rw [error] at apart
            exact absurd rfl (apart [] [])

theorem runCommands_unambiguous (needs : ∀ parts ∈ commands, needsAuth handler parts = true)
    (plain : ∀ parts ∈ commands, Unambiguous handler parts)
    : runCommands handler self commands = (self, replicate commands.length noAuthReply) := by
  induction commands with
  | nil => rfl
  | cons parts commands ih =>
    cases parts with
    | nil => exact (plain [] mem_cons_self).elim
    | cons name args =>
      rw [runCommands_cons handler opened, handleParts_unambiguous required unauthenticated
        (needs _ mem_cons_self) (plain _ mem_cons_self)]
      rw [ih (fun other member => needs other (.tail _ member))
        (fun other member => plain other (.tail _ member))]
      rfl

end

theorem ne_nil_of_needsAuth {parts} (needs : needsAuth handler parts = true) : parts ≠ [] := by
  rintro rfl
  cases needs

end Gate

/-- The settings of a connection that a command at the gate must not touch. -/
structure SettingsKept (before after : Connection) : Prop where
  authenticated : after.authenticated = before.authenticated
  clientName : after.clientName = before.clientName
  respVersion : after.respVersion = before.respVersion
  replyMode : after.replyMode = before.replyMode
  tracking : after.tracking = before.tracking

theorem SettingsKept.refl (self : Connection) : SettingsKept self self :=
  ⟨rfl, rfl, rfl, rfl, rfl⟩

/-- A call, with the commands that the parser reads from it. -/
structure Call where
  data : Bytes
  commands : List (List Bytes)
  read : parseResp data = .done (some commands)
  some : commands ≠ []

/-- One error for each command of a call. -/
def Call.noAuth (call : Call) : Bytes :=
  (List.replicate call.commands.length noAuthReply).flatten

/-- Calls without authentication are answered with the error alone, and touch no setting,
exactly when the connection is open and every command unambiguous.
Witness: induction on the calls. Replies that read as one error for each command are that
error, command by command, so that a call answered in this way left the connection as it was.
-/
theorem redis_auth_gate_iff (handler : RedisHandler) (required : handler.requireAuth = true)
    (self : Connection) (unauthenticated : self.authenticated = false) (calls : List Call)
    (needs : ∀ call ∈ calls, ∀ parts ∈ call.commands, needsAuth handler parts = true)
    : (∃ last, handleCalls handler self (calls.map Call.data) = .done (last, calls.map Call.noAuth)
        ∧ SettingsKept self last)
      ↔ (calls = [] ∨ self.state ≠ .disconnected)
        ∧ ∀ call ∈ calls, ∀ parts ∈ call.commands, Unambiguous handler parts := by
  induction calls with
  | nil =>
    refine ⟨fun _ => ⟨.inl rfl, fun _ member => absurd member List.not_mem_nil⟩, fun _ => ?_⟩
    exact ⟨self, rfl, .refl self⟩
  | cons call calls ih =>
    have first := needs call List.mem_cons_self
    have ih := ih fun other member => needs other (.tail _ member)
    have answered : ∀ reply, reply = call.noAuth → reply ≠ [] := by
      rintro _ rfl
      obtain ⟨parts, commands, shape⟩ := List.exists_cons_of_ne_nil call.some
      rw [Call.noAuth, shape, List.length_cons, List.replicate_succ, List.flatten_cons]
      exact List.append_ne_nil_of_left_ne_nil noAuthReply_ne_nil _
    rw [List.map_cons, List.map_cons, List.forall_mem_cons]
    by_cases closed : self.state = .disconnected
    · have handled := handleCommandWithAuthState_of_disconnected handler closed call.data
      simp only [handleCalls_cons_eq_done handler handled]
      constructor
      · rintro ⟨last, ⟨empty, _⟩, _⟩
        exact absurd rfl (answered [] empty)
      · rintro ⟨impossible | opened, _⟩
        · cases impossible
        · exact absurd closed opened
    · have stopped := runCommands_stopped required unauthenticated closed first
      have handled := handleCommandWithAuthState_eq handler closed call.read call.some
        fun parts member => ne_nil_of_needsAuth (first parts member)
      have unchanged : (∀ parts ∈ call.commands, Unambiguous handler parts) →
          runCommands handler self call.commands
            = (self, List.replicate call.commands.length noAuthReply) :=
        runCommands_unambiguous required unauthenticated closed first
      simp only [handleCalls_cons_eq_done handler handled]
      constructor
      · rintro ⟨last, ⟨errors, later⟩, kept⟩
        have plain : ∀ parts ∈ call.commands, Unambiguous handler parts := by
          apply stopped.plain
          exact (flatten_eq_replicate noAuthReply_ne_nil stopped.known errors).2 stopped.count.symm
        rw [unchanged plain] at later
        exact ⟨.inr closed, plain, (ih.mp ⟨last, later, kept⟩).2⟩
      · rintro ⟨_, plain, others⟩
        obtain ⟨last, later, kept⟩ := ih.mpr ⟨.inr closed, others⟩
        rw [unchanged plain]
        exact ⟨last, ⟨rfl, later⟩, kept⟩

section Samples

/-- A handler that requires authentication. -/
def guardedHandler : RedisHandler :=
  .bare true

/-- A command stopped at the gate. -/
def getCall : Call where
  data := ascii "*2\r\n$3\r\nGET\r\n$1\r\nk\r\n"
  commands := [[ascii "GET", ascii "k"]]
  read := by decide +kernel
  some := by decide

theorem getCall_unambiguous : Unambiguous guardedHandler [ascii "GET", ascii "k"] :=
  ⟨ascii "GET", by decide +kernel, by decide +kernel⟩

theorem redis_auth_gate_get
    : ∃ last, handleCalls guardedHandler guardedHandler.new [getCall.data]
        = .done (last, [noAuthReply]) ∧ SettingsKept guardedHandler.new last :=
  (redis_auth_gate_iff guardedHandler rfl guardedHandler.new rfl [getCall] (by decide +kernel)).mpr
    ⟨.inr (by decide), by simpa [getCall] using getCall_unambiguous⟩

/-- `HELLO 3 SETNAME AUTH` has no credentials, passes the gate, and sets the client's name and
the protocol version. -/
theorem redis_auth_gate_bypassed
    : needsAuth guardedHandler [ascii "HELLO", ascii "3", ascii "SETNAME", ascii "AUTH"] = true
      ∧ handleCommandWithAuthState guardedHandler guardedHandler.new
          (ascii "*4\r\n$5\r\nHELLO\r\n$1\r\n3\r\n$7\r\nSETNAME\r\n$4\r\nAUTH\r\n")
        = .done ({ guardedHandler.new with clientName := some (ascii "AUTH"), respVersion := 3 },
            helloPayload (ascii "7.0.15") 3) := by
  decide +kernel

end Samples

end NetTrap.Redis
