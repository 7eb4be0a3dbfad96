import NetTrap.Ftp.DataAddresses

/-! What the replies to `PORT` and `EPRT` say about the session. -/

namespace NetTrap.Ftp.Control

open Rust Option List
open Session (SocketAddr)

variable {Listener Permit : Type} {command : Str} {response : FtpResponse}

/-- `FtpHandler::handle` at `PORT`, at `EPRT` and at a command without a readable verb. The other
verbs are left to a parameter. -/
def handle (other : Str → FtpResponse) (command : Str) : FtpResponse :=
  let verb := commandVerb command
  if verb ∈ activeVerbs then
    match parseFtpDataAddr command with
    | .ok _ => .new 200 (successMessage verb)
    | .error response => response
  else if verb = [] then .new 502 (ascii "Command not recognized")
  else other command

/-- The line of a command stands in front of its line ending, if it has one. -/
def GivenIn (command : Str) (addr : SocketAddr) : Prop :=
  givenAddr ((soleLine command).getD command) = some addr

/-- The command is answered 200. -/
def AnswersOk (processed : Processed Listener Permit) : Prop :=
  ∃ reply, processed.action = .response [reply] ∧ reply.code = 200

/-- The answer is a success just when the session behind it waits for the given address. -/
def TruthfulReply (command : Str) (processed : Processed Listener Permit) : Prop :=
  AnswersOk processed
    ↔ ∃ addr, GivenIn command addr ∧ processed.state.activeAddr = some addr

/-- The handler confirms the address in a text: its own checks of the line pass, and the address can
be used. -/
def Confirms (text : Str) (addr : SocketAddr) : Prop :=
  (checkedCommandLine text).isSome ∧ Usable addr

theorem parsePortOctet_error {part} (refused : parsePortOctet part = .error response)
    : response = syntaxErr := by
  grind [parsePortOctet]

theorem parsePortPort_error {high low} (refused : parsePortPort high low = .error response)
    : response = syntaxErr := by
  grind [parsePortPort]

theorem parsePort_error {arg} (refused : parsePort arg = .error response)
    : response = syntaxErr := by
  simp only [parsePort, bind, Except.bind] at refused
  repeat' split at refused
  all_goals grind [parsePortOctet_error, parsePortPort_error]

theorem parseEprt_error {arg} (refused : parseEprt arg = .error response)
    : response.code ≠ 200 := by
  simp only [parseEprt, eprtFields, parseEprtIp, bind, Except.bind] at refused
  grind [syntaxErr, FtpResponse.new]

/-- An address that cannot be read is not confirmed. -/
theorem parseFtpDataAddr_error (refused : parseFtpDataAddr command = .error response)
    : response.code ≠ 200 := by
  unfold parseFtpDataAddr at refused
  split_ifs at refused
  · rw [parsePort_error refused]
    decide
  · exact parseEprt_error refused
  · cases refused
    decide

theorem validateActiveTarget_error {addr peer}
    (refused : validateActiveTarget addr peer = .error response)
    : response.code ≠ 200 := by
  grind [validateActiveTarget, FtpResponse.new]

theorem answersOk_response {state : FtpPassiveState Listener Permit} {reply connected}
    : AnswersOk ⟨state, .response [reply], connected⟩ ↔ reply.code = 200 := by
  constructor
  · rintro ⟨_, same, ok⟩
    cases same
    exact ok
  · intro ok
    exact ⟨reply, rfl, ok⟩

/-- The guard against bounces asks for the peer's host only where the address can be used. -/
theorem validateActiveTarget_normalized {addr peer : SocketAddr} (usable : Usable addr)
    : validateActiveTarget (normalized addr) peer = .ok ()
      ↔ normalizeFtpPeerIp addr.ip = normalizeFtpPeerIp peer.ip := by
  obtain ⟨ip, port⟩ := addr
  obtain ⟨taken, unset⟩ := usable
  dsimp only at taken unset
  have same : normalizeFtpPeerIp (normalizeFtpActiveIp ip) = normalizeFtpPeerIp ip := by
    cases ip with
    | v4 ip => rfl
    | v6 ip =>
      cases mapped : ip.toIpv4Mapped <;> simp [normalizeFtpActiveIp, normalizeFtpPeerIp, mapped]
  have acceptable : isUnacceptableDataIp (normalizeFtpActiveIp ip) = false := by
    cases ip with
    | v4 ip =>
      simp_all [normalizeFtpActiveIp, isUnacceptableDataIp, UsableIp, isUsableFtpActiveIpv4]
    | v6 ip =>
      cases mapped : ip.toIpv4Mapped <;>
        simp_all [normalizeFtpActiveIp, isUnacceptableDataIp, UsableIp, isUsableFtpActiveIpv4,
          isUsableFtpActiveIpv6]
  simp [validateActiveTarget, normalized, same, acceptable, unset]

theorem head_splitOn_space (line : Str)
    : (line.splitOn 32).headD [] = line.take (verbEnd line) := by
  induction line with
  | nil => rfl
  | cons first rest ih =>
    rw [splitOn, splitOnP_cons_eq_if_modifyHead, verbEnd, findIdx?_cons]
    rw [splitOn, verbEnd] at ih
    by_cases space : first = 32
    · simp [space]
    · have some_piece := splitOnP_ne_nil (· == (32 : UInt8)) rest
      obtain ⟨piece, pieces, split⟩ := exists_cons_of_ne_nil some_piece
      rw [split] at ih ⊢
      cases found : rest.findIdx? (· == 32) <;> simp_all

theorem soleLine_of_checked {line : Str} (checked : checkedCommandLine command = some line)
    : soleLine command = some line := by
  rw [checkedCommandLine, bind_eq_bind, bind_eq_some_iff] at checked
  obtain ⟨read, bounded, checks⟩ := checked
  split_ifs at checks
  cases checks
  rw [Ftp.ftpCommandLine] at bounded
  split_ifs at bounded
  obtain ⟨_, sole, fits⟩ := bind_eq_some_iff.mp bounded
  rw [boundedFtpCommandLine] at fits
  split_ifs at fits
  cases fits
  exact sole

theorem splitFtpCommand_line {verb arg : Str} (split : splitFtpCommand command = some (verb, arg))
    : ∃ line, soleLine command = some line ∧ verb = line.take (verbEnd line) := by
  rw [splitFtpCommand, bind_eq_bind, bind_eq_some_iff] at split
  obtain ⟨line, checked, parts⟩ := split
  refine ⟨line, soleLine_of_checked checked, ?_⟩
  dsimp only at parts
  repeat' split at parts
  all_goals grind

/-- A line has itself as its only line. -/
theorem soleLine_soleLine {line : Str} (sole : soleLine command = some line)
    : soleLine line = some line := by
  have plain : hasLineEnding line = false := by
    unfold soleLine at sole
    repeat' split at sole
    all_goals simp_all
  have inner : ∀ byte ∈ line, byte ≠ 13 ∧ byte ≠ 10 := by
    simpa [hasLineEnding] using plain
  have unstripped : stripCrlf line = none := by
    rw [stripCrlf, if_neg]
    intro isSuffix
    exact (inner 13 ((isSuffixOf_iff_suffix.mp isSuffix).subset (by decide))).1 rfl
  have last : ∀ byte, line.getLast? = some byte → byte ≠ 13 ∧ byte ≠ 10 :=
    fun byte found => inner byte (mem_of_mem_getLast? found)
  rw [soleLine, unstripped]
  simp only [plain]
  grind

/-- The handler reads the given address of a command that it confirms. -/
theorem parseFtpDataAddr_given {addr : SocketAddr}
    : parseFtpDataAddr command = .ok addr
      ↔ ∃ given, GivenIn command given ∧ Confirms command given ∧ addr = normalized given := by
  rw [parseFtpDataAddr_eq_ok]
  constructor
  · rintro ⟨line, given, checked, gives, usable, rfl⟩
    refine ⟨given, ?_, ⟨isSome_of_eq_some checked, usable⟩, rfl⟩
    rwa [GivenIn, soleLine_of_checked checked]
  · rintro ⟨given, gives, ⟨passes, usable⟩, rfl⟩
    obtain ⟨line, checked⟩ := isSome_iff_exists.mp passes
    rw [GivenIn, soleLine_of_checked checked] at gives
    exact ⟨line, given, checked, gives, usable, rfl⟩

/-- The session's own branch stores what the handler makes of the address that it confirms. -/
theorem setActiveAddr_truthful {line : Str} (sole : soleLine command = some line)
    (peer : SocketAddr) (state : FtpPassiveState Listener Permit) (message : Str)
    : TruthfulReply command (setActiveAddr peer state line message)
      ↔ ∀ addr, GivenIn command addr → Confirms line addr
        → normalizeFtpPeerIp addr.ip = normalizeFtpPeerIp peer.ip → normalized addr = addr := by
  have same : GivenIn line = GivenIn command := by
    funext addr
    rw [GivenIn, GivenIn, sole, soleLine_soleLine sole]
    rfl
  rw [TruthfulReply, ← same, setActiveAddr]
  cases parsed : parseFtpDataAddr line with
  | error response =>
    have unread : ∀ addr, GivenIn line addr → ¬ Confirms line addr := by
      intro addr given confirms
      cases parsed.symm.trans (parseFtpDataAddr_given.mpr ⟨addr, given, confirms, rfl⟩)
    simp only [answersOk_response, parseFtpDataAddr_error parsed]
    grind
  | ok addr =>
    obtain ⟨given, gives, confirms, rfl⟩ := parseFtpDataAddr_given.mp parsed
    have host : validateActiveTarget (normalized given) peer = .ok () ↔ _ :=
      validateActiveTarget_normalized confirms.2
    have only : ∀ addr, GivenIn line addr → addr = given := fun _ other =>
        Option.some.inj (other.symm.trans gives)
    dsimp only
    cases valid : validateActiveTarget (normalized given) peer with
    | error response =>
      rw [valid] at host
      simp only [answersOk_response, validateActiveTarget_error valid]
      grind
    | ok =>
      rw [valid] at host
      simp only [answersOk_response, FtpResponse.new]
      grind

/-- A command that is named `PORT` or `EPRT` has that verb for the handler too, or none. -/
theorem commandVerb_of_named
    (named : ftpCommandVerb ((soleLine command).getD command) ∈ activeVerbs)
    : commandVerb command ∈ activeVerbs ∨ commandVerb command = [] := by
  rw [commandVerb]
  cases split : splitFtpCommand command with
  | none => exact .inr rfl
  | some parts =>
    obtain ⟨line, sole, verb⟩ := splitFtpCommand_line split
    rw [sole, getD_some, ftpCommandVerb, head_splitOn_space, ← verb] at named
    exact .inl named

theorem prepareFtpCommand_of_refused {peer : SocketAddr} {around : Surroundings Listener Permit}
    {state : FtpPassiveState Listener Permit} (refused : ftpCommandLine command = none)
    : prepareFtpCommand peer around state command
      = ⟨state, .response [around.handler.handle command], none⟩ := by
  rw [prepareFtpCommand, refused]

/-- The handler's branch confirms every address that it can read. -/
theorem handle_code {other : Str → FtpResponse}
    (named : ftpCommandVerb ((soleLine command).getD command) ∈ activeVerbs)
    : (handle other command).code = 200 ↔ ∃ addr, GivenIn command addr ∧ Confirms command addr := by
  have read : (∃ addr, GivenIn command addr ∧ Confirms command addr)
      ↔ ∃ addr, parseFtpDataAddr command = .ok addr := by
    simp only [parseFtpDataAddr_given]
    grind
  rw [read]
  rw [handle]
  rcases commandVerb_of_named named with verb | verb
  · cases parsed : parseFtpDataAddr command with
    | ok addr => simp [verb, FtpResponse.new]
    | error response => simp [verb, parseFtpDataAddr_error parsed]
  · have unread : parseFtpDataAddr command = .error syntaxErr := by
      rw [parseFtpDataAddr, verb]
      rfl
    have inactive : ([] : Str) ∉ activeVerbs := by decide
    simp [verb, unread, inactive, FtpResponse.new]

/-- The reply to `PORT` and `EPRT` is truthful with two exceptions. The session's stricter reading
of the line leaves an address to the handler, which confirms it without telling the session, and an
address that is mapped from that of the peer is stored as the IPv4 address. -/
theorem prepareFtpCommand_truthful_iff (other : Str → FtpResponse) (peer : SocketAddr)
    (around : Surroundings Listener Permit) (state : FtpPassiveState Listener Permit)
    (handler : around.handler.handle = handle other)
    (named : ftpCommandVerb ((soleLine command).getD command) ∈ activeVerbs)
    : TruthfulReply command (prepareFtpCommand peer around state command)
      ↔ ∀ addr, GivenIn command addr →
        match ftpCommandLine command with
        | none => (Confirms command addr ↔ state.activeAddr = some addr)
        | some line => Confirms line addr
          → normalizeFtpPeerIp addr.ip = normalizeFtpPeerIp peer.ip → normalized addr = addr := by
  cases read : ftpCommandLine command with
  | none =>
    have only : ∀ one other, GivenIn command one → GivenIn command other → one = other :=
      fun _ _ one other => Option.some.inj (one.symm.trans other)
    rw [prepareFtpCommand_of_refused read, TruthfulReply, answersOk_response, handler,
      handle_code named]
    grind
  | some line =>
    have sole : soleLine command = some line := by
      unfold ftpCommandLine at read
      split_ifs at read
      exact read
    rw [sole, Option.getD_some] at named
    have active : prepareFtpCommand peer around state command
        = setActiveAddr peer state line (successMessage (ftpCommandVerb line)) := by
      have apart : ∀ verb ∈ activeVerbs, verb ∉ passiveVerbs := by decide
      rw [prepareFtpCommand, read]
      simp [apart _ named, named]
    rw [active]
    exact setActiveAddr_truthful sole peer state _

/-- A `PORT` line with so many leading zeros; its line ending is counted by the session only. -/
def paddedPort (zeros : Nat) : Str :=
  ascii "PORT " ++ List.replicate zeros 48 ++ ascii "10,0,0,2,4,1\r\n"

def quiet : Surroundings Unit Unit where
  handler := ⟨handle fun _ => syntaxErr, fun _ => .error syntaxErr⟩
  tryAcquireOwned := none
  bindFtpPassiveListener := none
  ftpPassiveResponseHost := []
  connection := .failed

theorem prepareFtpCommand_truthful_unpadded
    : TruthfulReply (paddedPort 0)
        (prepareFtpCommand ⟨.v4 (.new 10 0 0 2), 4000⟩ quiet .cleared (paddedPort 0)) := by
  refine (prepareFtpCommand_truthful_iff _ _ quiet .cleared rfl (by decide +kernel)).mpr ?_
  intro addr given
  have read : ftpCommandLine (paddedPort 0) = some (ascii "PORT 10,0,0,2,4,1") := by decide +kernel
  have sample : GivenIn (paddedPort 0) ⟨.v4 (.new 10 0 0 2), 1025⟩ := by
    unfold GivenIn
    decide +kernel
  rw [read, Option.some.inj (given.symm.trans sample)]
  exact fun _ _ => rfl

/-- The command has 513 bytes: the session waits for nothing although the reply is a success. -/
theorem prepareFtpCommand_untruthful
    : ftpCommandVerb ((soleLine (paddedPort 494)).getD (paddedPort 494)) = ascii "PORT"
      ∧ ¬ TruthfulReply (paddedPort 494)
        (prepareFtpCommand ⟨.v4 (.new 10 0 0 2), 4000⟩ quiet .cleared (paddedPort 494)) := by
  have refused : ftpCommandLine (paddedPort 494) = none := by decide +kernel
  have confirmed : (handle (fun _ => syntaxErr) (paddedPort 494)).code = 200 := by decide +kernel
  refine ⟨by decide +kernel, ?_⟩
  rw [prepareFtpCommand_of_refused refused, TruthfulReply, answersOk_response]
  intro truthful
  obtain ⟨_, _, waiting⟩ := truthful.mp confirmed
  cases waiting

end NetTrap.Ftp.Control
