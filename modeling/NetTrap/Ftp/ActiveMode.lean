import NetTrap.Ftp.DataConnections

/-! Active mode does not make the server a proxy: its data connections go back to the peer. -/

namespace NetTrap.Ftp.Control

open Rust Option List
open Session (SocketAddr)

variable {Listener Permit : Type}

/-- The command line is a `PORT` or `EPRT` with this address that the session accepts. -/
def Accepts (peer : SocketAddr) (line : Str) (addr : SocketAddr) : Prop :=
  ∃ command, ftpCommandLine line = some command ∧ ftpCommandVerb command ∈ activeVerbs
    ∧ parseFtpDataAddr command = .ok addr ∧ validateActiveTarget addr peer = .ok ()

/-- The command line is a data transfer. -/
def Transfers (line : Str) : Prop :=
  ∃ command, ftpCommandLine line = some command ∧ ftpCommandVerb command ∈ transferVerbs

/-- The command line is one of those that drop, replace or use up a pending data address. -/
def Resets (line : Str) : Prop :=
  ∃ command, ftpCommandLine line = some command
    ∧ (ftpCommandVerb command ∈ passiveVerbs ∧ ftpCommandHasArgs command = false
      ∨ ftpCommandVerb command ∈ activeVerbs ++ closingVerbs ++ transferVerbs)

/-- Loopback, unspecified, multicast and broadcast addresses. -/
def IsSpecial : IpAddr → Prop
  | .v4 ip => ip.isLoopback ∨ ip.isUnspecified ∨ ip.isMulticast ∨ ip.isBroadcast
  | .v6 ip => ip.isLoopback ∨ ip.isUnspecified ∨ ip.isMulticast

/-- The address belongs to the peer's host, is no special address, as it stands or as the IPv4
address it is mapped from, and has a port. -/
structure ReturnsTo (peer target : SocketAddr) : Prop where
  sameHost : normalizeFtpPeerIp target.ip = normalizeFtpPeerIp peer.ip
  ordinary : ¬ IsSpecial target.ip ∧ ¬ IsSpecial (normalizeFtpPeerIp target.ip)
  port : target.port ≠ 0

/-- At most one of the two kinds of pending data connection, and a permit for a listener only. -/
structure FtpPassiveState.Coherent (state : FtpPassiveState Listener Permit) : Prop where
  exclusive : ¬ (state.listener.isSome ∧ state.activeAddr.isSome)
  permitted : state.permit.isSome ↔ state.listener.isSome

theorem Transfers.resets {line} (transfers : Transfers line) : Resets line := by
  obtain ⟨command, read, transfer⟩ := transfers
  exact ⟨command, read, .inr (mem_append_right _ transfer)⟩

/-- What the session calls acceptable is not special. Witness: the cases of a mapped address. -/
theorem ordinary_of_acceptable {ip} (acceptable : isUnacceptableDataIp ip = false)
    : ¬ IsSpecial ip ∧ ¬ IsSpecial (normalizeFtpPeerIp ip) := by
  cases ip with
  | v4 ip =>
    have ordinary : ¬ IsSpecial (.v4 ip) := by
      simpa [IsSpecial, isUnacceptableDataIp, and_assoc] using acceptable
    exact ⟨ordinary, ordinary⟩
  | v6 ip =>
    have ordinary : ¬ IsSpecial (.v6 ip) := by
      simp [isUnacceptableDataIp] at acceptable
      simp [IsSpecial, acceptable]
    refine ⟨ordinary, ?_⟩
    cases mapped : ip.toIpv4Mapped with
    | none =>
      rw [normalizeFtpPeerIp, mapped]
      exact ordinary
    | some plain =>
      simp [isUnacceptableDataIp, mapped] at acceptable
      rw [normalizeFtpPeerIp, mapped]
      simp [IsSpecial, acceptable]

/-- The guard against bounces lets only the peer's own address pass. Witness: its three checks. -/
theorem returnsTo_of_validateActiveTarget {addr peer}
    (valid : validateActiveTarget addr peer = .ok ())
    : ReturnsTo peer addr := by
  unfold validateActiveTarget at valid
  split_ifs at valid with otherHost unacceptable noPort
  exact ⟨not_not.mp otherHost, ordinary_of_acceptable (Bool.eq_false_iff.mpr unacceptable), noPort⟩

/-- All that processing one command line can do to the session. -/
inductive Effect (peer : SocketAddr) (state : FtpPassiveState Listener Permit) (line : Str)
    : FtpPassiveState Listener Permit → Option SocketAddr → Prop where
  | kept (keeps : ¬ Resets line) : Effect peer state line state none
  | cleared (resets : Resets line) : Effect peer state line .cleared none
  | listening (resets : Resets line) (listener : Listener) (permit : Permit)
      : Effect peer state line ⟨some listener, some permit, none⟩ none
  | refused (resets : Resets line) : Effect peer state line { state with activeAddr := none } none
  | authorised (addr : SocketAddr) (accepts : Accepts peer line addr)
      : Effect peer state line ⟨none, none, some addr⟩ none
  | connected (target : SocketAddr) (transfers : Transfers line)
      (pending : state.activeAddr = some target)
      : Effect peer state line .cleared (some target)

section Steps

variable {peer : SocketAddr} {around : Surroundings Listener Permit}
  {state : FtpPassiveState Listener Permit} {line command : Str}

theorem openFtpPassiveDataSocket_effect (resets : Resets line) (extended : Bool)
    : Effect peer state line (openFtpPassiveDataSocket around extended).state
        (openFtpPassiveDataSocket around extended).connected := by
  unfold openFtpPassiveDataSocket
  cases around.tryAcquireOwned with
  | none => exact .cleared resets
  | some permit =>
    cases around.bindFtpPassiveListener with
    | none => exact .cleared resets
    | some bound => exact .listening resets bound.1 permit

theorem setActiveAddr_effect (read : ftpCommandLine line = some command)
    (active : ftpCommandVerb command ∈ activeVerbs) (message : Str)
    : Effect peer state line (setActiveAddr peer state command message).state
        (setActiveAddr peer state command message).connected := by
  have resets : Resets line :=
    ⟨command, read, .inr (mem_append_left _ (mem_append_left _ active))⟩
  unfold setActiveAddr
  cases parsed : parseFtpDataAddr command with
  | error response => exact .refused resets
  | ok addr =>
    dsimp only
    cases valid : validateActiveTarget addr peer with
    | error response => exact .refused resets
    | ok _ => exact .authorised addr ⟨command, read, active, parsed, valid⟩

theorem startDataTransfer_effect (transfers : Transfers line)
    : Effect peer state line (startDataTransfer around state command).state
        (startDataTransfer around state command).connected := by
  unfold startDataTransfer
  cases around.handler.prepareDataTransfer command with
  | error response => exact .cleared transfers.resets
  | ok transfer =>
    dsimp only
    split
    · exact .cleared transfers.resets
    · cases pending : state.activeAddr with
      | none => exact .cleared transfers.resets
      | some target =>
        cases around.tryAcquireOwned with
        | none => exact .cleared transfers.resets
        | some permit => exact .connected target transfers pending

/-- A verb of none of the four groups leaves the session alone. -/
theorem not_resets (read : ftpCommandLine line = some command)
    (passive : ftpCommandVerb command ∈ passiveVerbs → ftpCommandHasArgs command = true)
    (others : ftpCommandVerb command ∉ activeVerbs ++ closingVerbs ++ transferVerbs)
    : ¬ Resets line := by
  rintro ⟨again, readAgain, resets⟩
  obtain rfl : command = again := some.inj (read.symm.trans readAgain)
  rcases resets with ⟨isPassive, noArgs⟩ | isOther
  · exact Bool.false_ne_true (noArgs.symm.trans (passive isPassive))
  · exact others isOther

/-- The passive verbs are in no other group. -/
theorem not_mem_of_mem_passiveVerbs {verb} (passive : verb ∈ passiveVerbs)
    : verb ∉ activeVerbs ++ closingVerbs ++ transferVerbs := by
  revert verb
  decide

/-- Every command has one of the effects. Witness: the branches of the dispatcher, each with the
lemma about its function. -/
theorem prepareFtpCommand_effect
    : Effect peer state line (prepareFtpCommand peer around state line).state
        (prepareFtpCommand peer around state line).connected := by
  unfold prepareFtpCommand
  cases read : ftpCommandLine line with
  | none =>
    refine .kept ?_
    rintro ⟨command, readAgain, -⟩
    exact some_ne_none _ (readAgain.symm.trans read)
  | some command =>
    dsimp only
    split_ifs with passive args active transfer closing
    · exact .kept (not_resets read (fun _ => args) (not_mem_of_mem_passiveVerbs passive))
    · exact openFtpPassiveDataSocket_effect
        ⟨command, read, .inl ⟨passive, Bool.eq_false_iff.mpr args⟩⟩ _
    · exact setActiveAddr_effect read active _
    · exact startDataTransfer_effect ⟨command, read, transfer⟩
    · exact .cleared ⟨command, read, .inr (mem_append_left _ (mem_append_right _ closing))⟩
    · refine .kept (not_resets read (fun isPassive => absurd isPassive passive) ?_)
      simp only [mem_append, not_or]
      exact ⟨⟨active, closing⟩, transfer⟩

end Steps

theorem coherent_cleared : (FtpPassiveState.cleared : FtpPassiveState Listener Permit).Coherent :=
  ⟨fun both => Bool.false_ne_true both.1, Iff.rfl⟩

/-- Every effect keeps the session coherent. -/
theorem Effect.coherent {peer : SocketAddr} {state next : FtpPassiveState Listener Permit}
    {line : Str} {connected : Option SocketAddr} (effect : Effect peer state line next connected)
    (before : state.Coherent)
    : next.Coherent := by
  cases effect with
  | kept keeps => exact before
  | cleared resets => exact coherent_cleared
  | listening resets listener permit => exact ⟨fun both => Bool.false_ne_true both.2, Iff.rfl⟩
  | refused resets => exact ⟨fun both => Bool.false_ne_true both.2, before.permitted⟩
  | authorised addr accepts => exact ⟨fun both => Bool.false_ne_true both.1, Iff.rfl⟩
  | connected target transfers pending => exact coherent_cleared

/-- Only a data transfer connects, and only to the pending address. -/
theorem Effect.of_connected {peer target : SocketAddr}
    {state next : FtpPassiveState Listener Permit}
    {line : Str} {connected : Option SocketAddr} (effect : Effect peer state line next connected)
    (made : connected = some target)
    : Transfers line ∧ state.activeAddr = some target := by
  cases effect with
  | connected address transfers pending =>
    obtain rfl : address = target := some.inj made
    exact ⟨transfers, pending⟩
  | kept | cleared | listening | refused | authorised =>
    exact absurd made (some_ne_none target).symm

section Runs

variable {peer : SocketAddr} {commands : List (Command Listener Permit)}

/-- The session behind the commands. -/
def stateAfter (peer : SocketAddr) (state : FtpPassiveState Listener Permit)
    (commands : List (Command Listener Permit)) : FtpPassiveState Listener Permit :=
  commands.foldl
    (fun state command => (prepareFtpCommand peer command.around state command.line).state) state

/-- Each command meets the session that the commands before it left. Witness: induction on the
commands. -/
theorem processAll_getElem? (state : FtpPassiveState Listener Permit)
    (commands : List (Command Listener Permit)) (number : Nat)
    : (processAll peer state commands)[number]? = commands[number]?.map fun command =>
          prepareFtpCommand peer command.around (stateAfter peer state (commands.take number))
            command.line := by
  induction commands generalizing state number with
  | nil => rfl
  | cons command rest ih =>
    cases number with
    | zero => rfl
    | succ number => exact ih _ number

variable {number : Nat}

theorem stateAfter_take_succ {state command} (there : commands[number]? = some command)
    : stateAfter peer state (commands.take (number + 1))
      = (prepareFtpCommand peer command.around (stateAfter peer state (commands.take number))
          command.line).state := by
  rw [take_add_one, there, stateAfter, foldl_append]
  rfl

/-- A property of the session that every effect keeps holds before each command. Witness: induction
on the number of commands, of which the list may have fewer. -/
theorem stateAfter_take_induction {motive : Nat → FtpPassiveState Listener Permit → Prop}
    (start : motive 0 .cleared)
    (step : ∀ number command state next connected, commands[number]? = some command
      → Effect peer state command.line next connected → motive number state
      → motive (number + 1) next)
    (number : Nat) (within : number ≤ commands.length)
    : motive number (stateAfter peer .cleared (commands.take number)) := by
  induction number with
  | zero => exact start
  | succ number ih =>
    have there : commands[number]? = some commands[number] := List.getElem?_eq_getElem within
    rw [stateAfter_take_succ there]
    exact step number _ _ _ _ there prepareFtpCommand_effect (ih (Nat.le_of_succ_le within))

/-- The data connection that the command with this number made. -/
def connectedAt (peer : SocketAddr) (commands : List (Command Listener Permit)) (number : Nat)
    : Option SocketAddr :=
  (controlConnection peer commands)[number]?.bind (·.connected)

/-- The earlier command is a `PORT` or `EPRT` with the target as its address, was accepted, and no
command between it and the later one drops, replaces or uses up the address. -/
structure Authorises (peer : SocketAddr) (commands : List (Command Listener Permit))
    (earlier later : Nat) (target : SocketAddr) : Prop where
  before : earlier < later
  accepted : ∃ command, commands[earlier]? = some command ∧ Accepts peer command.line target
  untouched : ∀ between command, earlier < between → between < later
    → commands[between]? = some command → ¬ Resets command.line

variable {earlier : Nat}

theorem Authorises.target {later target}
    (authorises : Authorises peer commands earlier later target)
    : ReturnsTo peer target := by
  obtain ⟨_, -, _, -, -, -, valid⟩ := authorises.accepted
  exact returnsTo_of_validateActiveTarget valid

/-- A command that resets nothing leaves the authorisation in force. -/
theorem Authorises.succ {later target command}
    (authorises : Authorises peer commands earlier later target)
    (there : commands[later]? = some command) (keeps : ¬ Resets command.line)
    : Authorises peer commands earlier (later + 1) target where
  before := Nat.lt_succ_of_lt authorises.before
  accepted := authorises.accepted
  untouched := by
    intro between other after upTo otherThere
    rcases Nat.lt_succ_iff_lt_or_eq.mp upTo with within | rfl
    · exact authorises.untouched between other after within otherThere
    · obtain rfl : command = other := some.inj (there.symm.trans otherThere)
      exact keeps

/-- An accepted command authorises the next one. -/
theorem Accepts.authorises {target command} (there : commands[number]? = some command)
    (accepts : Accepts peer command.line target)
    : Authorises peer commands number (number + 1) target where
  before := Nat.lt_succ_self number
  accepted := ⟨command, there, accepts⟩
  untouched := fun _ _ after upTo => absurd (Nat.le_of_lt_succ upTo) (Nat.not_le.mpr after)

/-- A pending active address was authorised. Witness: the effects of the commands before, of which
only an accepted one sets an address. -/
theorem pending_authorised (within : number ≤ commands.length) {target}
    (pending : (stateAfter peer .cleared (commands.take number)).activeAddr = some target)
    : ∃ earlier, Authorises peer commands earlier number target := by
  revert target
  refine stateAfter_take_induction
    (motive := fun number state => ∀ {target}, state.activeAddr = some target
      → ∃ earlier, Authorises peer commands earlier number target) ?_ ?_ number within
  · intro target pending
    exact absurd pending (some_ne_none target).symm
  · intro number command state next connected there effect ih target pending
    cases effect with
    | kept keeps =>
      obtain ⟨earlier, authorises⟩ := ih pending
      exact ⟨earlier, authorises.succ there keeps⟩
    | authorised addr accepts =>
      obtain rfl : addr = target := some.inj pending
      exact ⟨number, accepts.authorises there⟩
    | cleared | listening | refused | connected =>
      exact absurd pending (some_ne_none target).symm

/-- A data connection is made by a data transfer, to the address that was pending before it. -/
theorem connectedAt_inv {target} (connected : connectedAt peer commands number = some target)
    : ∃ command, commands[number]? = some command ∧ Transfers command.line
      ∧ (stateAfter peer .cleared (commands.take number)).activeAddr = some target := by
  rw [connectedAt, controlConnection, processAll_getElem?] at connected
  cases there : commands[number]? with
  | none =>
    rw [there] at connected
    exact absurd connected (some_ne_none target).symm
  | some command =>
    rw [there] at connected
    exact ⟨command, rfl, prepareFtpCommand_effect.of_connected connected⟩

/-- An accepted command authorises one data connection only: the first transfer behind it uses the
address up. -/
theorem Authorises.later_unique {later other target otherTarget}
    (connected : connectedAt peer commands later = some target)
    (authorises : Authorises peer commands earlier later target)
    (otherConnected : connectedAt peer commands other = some otherTarget)
    (otherAuthorises : Authorises peer commands earlier other otherTarget)
    : later = other := by
  obtain ⟨command, there, transfers, -⟩ := connectedAt_inv connected
  obtain ⟨otherCommand, otherThere, otherTransfers, -⟩ := connectedAt_inv otherConnected
  rcases Nat.lt_trichotomy later other with before | same | behind
  · exact absurd transfers.resets
      (otherAuthorises.untouched later command authorises.before before there)
  · exact same
  · exact absurd otherTransfers.resets
      (authorises.untouched other otherCommand otherAuthorises.before behind otherThere)

/-- Every processed command leaves a coherent session. -/
theorem coherent_of_mem_controlConnection {processed}
    (member : processed ∈ controlConnection peer commands)
    : processed.state.Coherent := by
  obtain ⟨number, found⟩ := mem_iff_getElem?.mp member
  rw [controlConnection, processAll_getElem?] at found
  obtain ⟨command, there, rfl⟩ := map_eq_some_iff.mp found
  have within : number ≤ commands.length :=
    (List.getElem?_eq_some_iff.mp there).1.le
  have before : (stateAfter peer .cleared (commands.take number)).Coherent :=
    stateAfter_take_induction (motive := fun _ state => state.Coherent) coherent_cleared
      (fun _ _ _ _ _ _ effect before => effect.coherent before) number within
  exact prepareFtpCommand_effect.coherent before

/-- Over every control connection with a peer, each outgoing data connection goes back to the peer's
own host, at the address of the latest accepted `PORT` or `EPRT` that nothing has dropped, replaced
or used up since; each accepted one authorises at most one connection; and after every command the
session holds at most one kind of pending data connection, with a permit exactly for a listener. -/
theorem ftp_active_mode_returns_to_peer (peer : SocketAddr)
    (commands : List (Command Listener Permit))
    : (∀ number target, connectedAt peer commands number = some target →
        ReturnsTo peer target ∧ ∃ earlier, Authorises peer commands earlier number target)
      ∧ (∀ earlier number other target otherTarget, connectedAt peer commands number = some target →
          Authorises peer commands earlier number target →
          connectedAt peer commands other = some otherTarget →
          Authorises peer commands earlier other otherTarget →
          number = other)
      ∧ ∀ processed ∈ controlConnection peer commands, processed.state.Coherent := by
  refine ⟨?_, ?_, ?_⟩
  · intro number target connected
    obtain ⟨command, there, -, pending⟩ := connectedAt_inv connected
    have within : number ≤ commands.length := (List.getElem?_eq_some_iff.mp there).1.le
    obtain ⟨earlier, authorises⟩ := pending_authorised within pending
    exact ⟨authorises.target, earlier, authorises⟩
  · intro earlier number other target otherTarget connected authorises
    exact authorises.later_unique connected
  · intro processed member
    exact coherent_of_mem_controlConnection member

/-- A handler that lists an empty directory. -/
def emptyDirectory : FtpHandler where
  handle := fun _ => .new 200 []
  prepareDataTransfer := fun _ => .ok ⟨.new 150 [], [], .new 226 [], false⟩

/-- A peer that announces one of its ports and asks for two listings. -/
def listsTwice : List (Command Unit Unit) :=
  ["PORT 10,0,0,5,4,1\r\n", "LIST\r\n", "LIST\r\n"].map fun line =>
    ⟨ascii line, emptyDirectory, some (), none, [], .transferred true⟩

/-- The first listing goes to the announced port, and the second one nowhere. -/
theorem ftp_active_mode_returns_listing
    : connectedAt ⟨.v4 (.new 10 0 0 5), 40000⟩ listsTwice 1 = some ⟨.v4 (.new 10 0 0 5), 1025⟩
      ∧ connectedAt ⟨.v4 (.new 10 0 0 5), 40000⟩ listsTwice 2 = none
      ∧ ReturnsTo ⟨.v4 (.new 10 0 0 5), 40000⟩ ⟨.v4 (.new 10 0 0 5), 1025⟩ := by
  have connected : connectedAt ⟨.v4 (.new 10 0 0 5), 40000⟩ listsTwice 1
      = some ⟨.v4 (.new 10 0 0 5), 1025⟩ := by
    decide +kernel
  refine ⟨connected, by decide +kernel, ?_⟩
  exact ((ftp_active_mode_returns_to_peer _ listsTwice).1 1 _ connected).1

end Runs

end NetTrap.Ftp.Control
