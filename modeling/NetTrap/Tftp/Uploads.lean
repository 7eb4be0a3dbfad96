import NetTrap.Tftp.Reads

/-! Uploads of one client: the file has the data of the accepted blocks, in order and each once. -/

namespace NetTrap.Tftp

open Rust Session HashMap TftpHandler List Option

/-- Blocks of any number and content, and requests to write the file. -/
def Uploading (filename : Str) : TftpPacket → Prop
  | .data _ _ => True
  | .writeRequest requested _ _ => requested = filename
  | _ => False

/-- The accepted blocks, as the client sees them: a block is accepted when it is acknowledged and
is the one behind those accepted before. -/
def acceptBlock (accepted : List Bytes) (packet : TftpPacket) (responses : List TftpPacket)
    : List Bytes :=
  match packet with
  | .data block data =>
    if responses = [.ack block] ∧ block.toNat = accepted.length + 1 then accepted ++ [data]
    else accepted
  | _ => accepted

/-- A server with the blocks that it has accepted from the client. -/
structure Received where
  server : Server
  accepted : List Bytes

section Run

variable (self : TftpHandler) (src : SocketAddr) (destination : SessionDestination)

def receiveStep (received : Received) (arrival : Arrival) : Received :=
  let handled := self.handleTftp received.server src destination arrival
  ⟨handled.1, acceptBlock received.accepted arrival.packet handled.2⟩

def receive (server : Server) (arrivals : List Arrival) : Received :=
  arrivals.foldl (receiveStep self src destination) ⟨server, []⟩

end Run

/-- The last of the blocks is shorter than a full one. -/
def Ended (blocks : List Bytes) : Prop :=
  ∃ last, blocks.getLast? = some last ∧ last.length < tftpBlockSize

instance (blocks : List Bytes) : Decidable (Ended blocks) :=
  decidable_of_iff ((blocks.getLast?.any fun last => last.length < tftpBlockSize) = true)
    (by simp [Ended, Option.any_eq_true])

/-- Blocks that make up an upload within the limit: only the last one may be short. -/
structure Blocks (blocks : List Bytes) : Prop where
  full : ∀ block ∈ blocks.dropLast, block.length = tftpBlockSize
  small : ∀ block ∈ blocks, block.length ≤ tftpBlockSize
  total : blocks.flatten.length ≤ maxTftpUploadBytes

/-- The state of an upload that has accepted the blocks. -/
structure Accepting (filename path : Str) (accepted : List Bytes) (transfer : WriteTransfer)
    : Prop where
  filename : transfer.filename = filename
  expected : transfer.nextBlockExpected.toNat = accepted.length + 1
  received : transfer.bytesReceived = accepted.flatten.length
  acknowledged : ∃ block, transfer.lastAck = .ack block ∧ block.toNat = accepted.length
  complete : transfer.complete = true ↔ Ended accepted
  file : ¬ Ended accepted → transfer.uploadFile = some path

/-- What holds of an upload at any time: it is under way, or it is over or not begun. -/
inductive Stored (filename path : Str) (accepted : List Bytes) (transfer : Option TftpTransferState)
    (file : Option Bytes) : Prop where
  | active {write : WriteTransfer} (state : transfer = some (.write write))
      (accepting : Accepting filename path accepted write) (bytes : file = some accepted.flatten)
  | closed (absent : transfer = none) (bytes : file = some accepted.flatten)
  | unbegun (absent : transfer = none) (missing : file = none) (blank : accepted = [])

section Blocks

variable {accepted : List Bytes} {data : Bytes}

theorem Blocks.nil : Blocks [] where
  full := by simp
  small := by simp
  total := Nat.zero_le _

theorem ended_concat (accepted : List Bytes) (data : Bytes)
    : Ended (accepted ++ [data]) ↔ data.length < tftpBlockSize := by
  simp [Ended]

theorem not_ended_nil : ¬ Ended [] := by
  simp [Ended]

/-- Blocks that have not ended are all full. -/
theorem Blocks.full_of_not_ended (blocks : Blocks accepted) (unended : ¬ Ended accepted)
    : ∀ block ∈ accepted, block.length = tftpBlockSize := by
  rcases eq_nil_or_concat accepted with rfl | ⟨front, last, rfl⟩
  · simp
  · rw [concat_eq_append] at blocks unended ⊢
    rw [ended_concat] at unended
    have bound := blocks.small last (by simp)
    intro block member
    rcases mem_append.mp member with earlier | same
    · refine blocks.full block ?_
      rwa [dropLast_concat]
    · cases mem_singleton.mp same
      omega

theorem length_flatten_full {blocks : List Bytes}
    (full : ∀ block ∈ blocks, block.length = tftpBlockSize)
    : blocks.flatten.length = tftpBlockSize * blocks.length := by
  induction blocks with
  | nil => rfl
  | cons block blocks ih =>
    rw [flatten_cons, length_append, length_cons,
      ih fun other member => full other (mem_cons_of_mem _ member),
      full block (mem_cons_self ..)]
    ring

/-- So few blocks fit into an upload that their numbers do not wrap around. -/
theorem Blocks.few (blocks : Blocks accepted) : accepted.length ≤ 16385 := by
  rcases eq_nil_or_concat accepted with rfl | ⟨front, last, rfl⟩
  · simp
  · rw [concat_eq_append] at blocks ⊢
    have full := blocks.full
    have total := blocks.total
    rw [dropLast_concat] at full
    rw [flatten_concat, length_append, length_flatten_full full] at total
    simp only [tftpBlockSize, maxTftpUploadBytes] at total
    simp
    omega

theorem Blocks.concat (blocks : Blocks accepted) (unended : ¬ Ended accepted)
    (small : data.length ≤ tftpBlockSize)
    (total : accepted.flatten.length + data.length ≤ maxTftpUploadBytes)
    : Blocks (accepted ++ [data]) where
  full := by
    rw [dropLast_concat]
    exact blocks.full_of_not_ended unended
  small := by
    intro block member
    rcases mem_append.mp member with earlier | same
    · exact blocks.small block earlier
    · cases mem_singleton.mp same
      exact small
  total := by
    rw [flatten_concat, length_append]
    exact total

end Blocks

section Data

variable {filename path : Str} {accepted : List Bytes}

variable {block : UInt16}

/-- The acknowledgement of a later block than the last accepted one accepts it. -/
theorem acceptBlock_of_ne {response} (data : Bytes)
    (other : response = .ack block → block.toNat ≠ accepted.length + 1)
    : acceptBlock accepted (.data block data) [response] = accepted := by
  rw [acceptBlock, if_neg]
  rintro ⟨same, number⟩
  exact other (singleton_injective same) number

theorem acceptBlock_of_refused {packet responses} (refused : ∀ block, responses ≠ [.ack block])
    : acceptBlock accepted packet responses = accepted := by
  cases packet with
  | data block data =>
    rw [acceptBlock, if_neg]
    exact fun accepted => refused block accepted.1
  | _ => rfl

variable {transfer : WriteTransfer}

theorem Accepting.touch (accepting : Accepting filename path accepted transfer) (now : Nat)
    : Accepting filename path accepted { transfer with lastActivity := now } :=
  { accepting with }

theorem Accepting.accept {data} (accepting : Accepting filename path accepted transfer)
    (unended : ¬ Ended accepted) (blocks : Blocks accepted)
    (number : block.toNat = accepted.length + 1) (now : Nat)
    : Accepting filename path (accepted ++ [data]) (transfer.accept block data now) where
  filename := accepting.filename
  expected := by
    have few := blocks.few
    rw [WriteTransfer.accept, UInt16.toNat_add, number, length_append]
    simp
    omega
  received := by
    rw [flatten_concat, length_append, ← accepting.received]
    rfl
  acknowledged := ⟨block, rfl, by rw [number, length_append, length_singleton]⟩
  complete := by
    rw [ended_concat]
    exact decide_eq_true_iff
  file := by
    intro unfinished
    rw [ended_concat] at unfinished
    rw [WriteTransfer.accept, if_neg unfinished]
    exact accepting.file unended

variable {key : TftpTransferKey}

variable {active : TftpTransfers} {handled : (TftpTransfers × Disk) × TftpPacket}

/-- The block that the upload expects, where all of it is written. -/
theorem acceptTftpWriteData_stored {disk data now}
    (accepting : Accepting filename path accepted transfer) (unended : ¬ Ended accepted)
    (blocks : Blocks accepted) (bytes : disk.get path = some accepted.flatten)
    (number : block.toNat = accepted.length + 1)
    (accepts : acceptTftpWriteData active disk key transfer block data now .written = handled)
    : Stored filename path (acceptBlock accepted (.data block data) [handled.2])
        (handled.1.1.get key) (handled.1.2.get path)
      ∧ Blocks (acceptBlock accepted (.data block data) [handled.2]) := by
  rw [acceptTftpWriteData, accepting.file unended, accepting.received] at accepts
  split at accepts
  · subst accepts
    rw [acceptBlock_of_ne data (by simp [tftpError])]
    exact ⟨.closed (get_remove_self _ _) bytes, blocks⟩
  next small =>
  split at accepts
  · subst accepts
    next total =>
    have kept : acceptBlock accepted (.data block data) [handleDataBlock block]
        = accepted ++ [data] := by
      rw [acceptBlock, if_pos ⟨rfl, number⟩]
    dsimp only
    rw [kept]
    refine ⟨.active (get_insert_self _ _ _) (accepting.accept unended blocks number now) ?_,
      blocks.concat unended (Nat.le_of_not_lt small) total⟩
    rw [appendFile, get_insert_self, bytes, flatten_concat]
    rfl
  · subst accepts
    rw [acceptBlock_of_ne data (by simp [tftpError])]
    exact ⟨.closed (get_remove_self _ _) bytes, blocks⟩

/-- Any block. -/
theorem handleTftpWriteData_stored {disk data now}
    (stored : Stored filename path accepted (active.get key) (disk.get path))
    (blocks : Blocks accepted)
    (handles : handleTftpWriteData active disk key block data now .written = handled)
    : Stored filename path (acceptBlock accepted (.data block data) [handled.2])
        (handled.1.1.get key) (handled.1.2.get path)
      ∧ Blocks (acceptBlock accepted (.data block data) [handled.2]) := by
  rw [handleTftpWriteData] at handles
  split at handles
  · subst handles
    rw [acceptBlock_of_ne data (by simp [tftpError])]
    exact ⟨stored, blocks⟩
  cases stored with
  | closed absent bytes =>
    rw [absent] at handles
    subst handles
    rw [acceptBlock_of_ne data (by simp [tftpError])]
    exact ⟨.closed absent bytes, blocks⟩
  | unbegun absent missing blank =>
    rw [absent] at handles
    subst handles
    rw [acceptBlock_of_ne data (by simp [tftpError])]
    exact ⟨.unbegun absent missing blank, blocks⟩
  | @active transfer state accepting bytes =>
    rw [state] at handles
    dsimp only at handles
    split at handles
    case isTrue unexpected =>
      split at handles
      case isTrue previous =>
        subst handles
        obtain ⟨last, acknowledged, number⟩ := accepting.acknowledged
        rw [acceptBlock_of_ne data]
        · exact ⟨.active (get_insert_self _ _ _) (accepting.touch now) bytes, blocks⟩
        · intro same
          rw [acknowledged] at same
          cases same
          omega
      case isFalse =>
        subst handles
        rw [acceptBlock_of_ne data (by simp [tftpError])]
        exact ⟨.active state accepting bytes, blocks⟩
    case isFalse expected =>
      rw [not_or, not_not, accepting.complete] at expected
      refine acceptTftpWriteData_stored accepting expected.2 blocks bytes ?_ handles
      rw [expected.1, accepting.expected]

/-- The block is the next one of an upload, and there is no room for it. -/
def Overflows (accepted : List Bytes) (block : UInt16) (data : Bytes) : Prop :=
  (block.toNat = accepted.length + 1 ∧ ¬ Ended accepted)
  ∧ (tftpBlockSize < data.length ∨ maxTftpUploadBytes < accepted.flatten.length + data.length)

/-- What becomes of a block: the next one is acknowledged, or ends the upload with an error where
there is no room for it, and any other one leaves the upload where it is. -/
structure Disposes (accepted : List Bytes) (block : UInt16) (data : Bytes)
    (transfer : Option TftpTransferState) (disk after : Disk) (responses : List TftpPacket)
    : Prop where
  gone : transfer = none ↔ Overflows accepted block data
  refused : Overflows accepted block data →
    (∃ code message, responses = [.error code message]) ∧ after = disk
  acknowledged : block.toNat = accepted.length + 1 → ¬ Ended accepted →
    ¬ Overflows accepted block data → responses = [.ack block]

theorem handleTftpWriteData_disposes {disk data now}
    (accepting : Accepting filename path accepted transfer)
    (state : active.get key = some (.write transfer))
    (handles : handleTftpWriteData active disk key block data now .written = handled)
    : Disposes accepted block data (handled.1.1.get key) disk handled.1.2 [handled.2] := by
  rw [handleTftpWriteData, state] at handles
  dsimp only at handles
  by_cases next : block.toNat = accepted.length + 1 ∧ ¬ Ended accepted
  · have positive : block ≠ 0 := by
      rintro rfl
      cases next.1
    have expected : block = transfer.nextBlockExpected :=
      UInt16.toNat_inj.mp (next.1.trans accepting.expected.symm)
    have incomplete : ¬ transfer.complete = true := next.2 ∘ accepting.complete.mp
    rw [if_neg positive, if_neg (by simp [expected, incomplete]), acceptTftpWriteData,
      accepting.file next.2, accepting.received] at handles
    split at handles
    · next large =>
      subst handles
      have overflows : Overflows accepted block data := ⟨next, .inl large⟩
      exact ⟨iff_of_true (get_remove_self _ _) overflows, fun _ => ⟨⟨_, _, rfl⟩, rfl⟩,
        fun _ _ fits => absurd overflows fits⟩
    split at handles
    · next small total =>
      subst handles
      have fits : ¬ Overflows accepted block data := fun overflows =>
        overflows.2.elim small (Nat.not_lt.mpr total)
      refine ⟨iff_of_false ?_ fits, fun overflows => absurd overflows fits, fun _ _ _ => rfl⟩
      rw [get_insert_self]
      exact Option.some_ne_none _
    · next small total =>
      subst handles
      have overflows : Overflows accepted block data := ⟨next, .inr (Nat.lt_of_not_le total)⟩
      exact ⟨iff_of_true (get_remove_self _ _) overflows, fun _ => ⟨⟨_, _, rfl⟩, rfl⟩,
        fun _ _ fits => absurd overflows fits⟩
  · have other : ¬ Overflows accepted block data := fun overflows => next overflows.1
    have unexpected : block ≠ transfer.nextBlockExpected ∨ transfer.complete = true := by
      rw [accepting.complete]
      refine (not_and_or.mp next).imp (fun number same => number ?_) not_not.mp
      rw [same, accepting.expected]
    refine ⟨iff_of_false ?_ other, fun overflows => absurd overflows other,
      fun number unended => absurd ⟨number, unended⟩ next⟩
    rw [if_pos unexpected] at handles
    split at handles
    · subst handles
      simp [state]
    · split at handles
      · subst handles
        simp [get_insert_self]
      · subst handles
        simp [state]

/-- What the file has does not depend on a transfer that is pruned. -/
theorem Stored.prune {file} (stored : Stored filename path accepted (active.get key) file)
    (now : Nat)
    : Stored filename path accepted ((pruneTftpTransfers active now).get key) file := by
  rw [pruneTftpTransfers, get_retain]
  cases stored with
  | closed absent bytes =>
    rw [absent]
    exact .closed rfl bytes
  | unbegun absent missing blank =>
    rw [absent]
    exact .unbegun rfl missing blank
  | @active transfer state accepting bytes =>
    rw [state, filter_some]
    split
    · exact .active rfl accepting bytes
    · exact .closed rfl bytes

theorem Accepting.start (filename path : Str) (now : Nat)
    : Accepting filename path []
        { filename := filename
          nextBlockExpected := 1
          bytesReceived := 0
          lastAck := handleWriteRequest
          uploadFile := some path
          complete := false
          lastActivity := now } where
  filename := rfl
  expected := rfl
  received := rfl
  acknowledged := ⟨0, rfl, rfl⟩
  complete := by simp [not_ended_nil]
  file := fun _ => rfl

/-- A request opens the file once. -/
theorem handleWrite_stored {self : TftpHandler} {root : RootDir} (rooted : self.rootDir = some root)
    (allowed : root.uploadPath filename = some path) {server : Server} {clock : Clock}
    {handled : Server × List TftpPacket}
    (stored : Stored filename path accepted (server.active.get key) (server.disk.get path))
    (handles : self.handleWrite server key filename clock = handled)
    : Stored filename path accepted (handled.1.active.get key) (handled.1.disk.get path) := by
  have pruned := stored.prune clock.checked
  rw [handleWrite, duplicateTftpWriteRequestResponse] at handles
  cases pruned with
  | @active transfer state accepting bytes =>
    rw [state] at handles
    dsimp only at handles
    rw [if_pos accepting.filename] at handles
    subst handles
    exact .active (get_insert_self _ _ _) (accepting.touch _) bytes
  | closed absent bytes =>
    rw [absent] at handles
    dsimp only at handles
    split at handles
    · subst handles
      exact .closed absent bytes
    · rw [openUploadFile, rooted] at handles
      dsimp only at handles
      rw [allowed] at handles
      dsimp only at handles
      rw [if_pos (by simp [containsKey, bytes])] at handles
      subst handles
      exact .closed absent bytes
  | unbegun absent missing blank =>
    rw [absent] at handles
    dsimp only at handles
    split at handles
    · subst handles
      exact .unbegun absent missing blank
    · rw [openUploadFile, rooted] at handles
      dsimp only at handles
      rw [allowed] at handles
      dsimp only at handles
      rw [if_neg (by simp [containsKey, missing])] at handles
      subst handles
      rw [blank]
      exact .active (get_insert_self _ _ _) (.start filename path _) (get_insert_self _ _ _)

end Data

section Runs

variable {self : TftpHandler} {root : RootDir} {filename path : Str} {src : SocketAddr}
  {destination : SessionDestination}

variable {server : Server}

theorem Stored.enter {accepted}
    (stored : Stored filename path accepted (server.transfer src destination)
      (server.disk.get path)) (clock : Clock)
    : Stored filename path accepted ((TftpHandler.entered server clock).transfer src destination)
        ((TftpHandler.entered server clock).disk.get path) := by
  cases keyed : TftpTransferKey.new src destination with
  | none =>
    rw [Server.transfer, keyed] at stored ⊢
    exact stored
  | some key =>
    rw [Server.transfer_of_key keyed] at stored ⊢
    exact stored.prune clock.entered

/-- What holds of an upload and the blocks accepted for it. -/
structure Exact (filename path : Str) (src : SocketAddr) (destination : SessionDestination)
    (received : Received) : Prop where
  stored : Stored filename path received.accepted (received.server.transfer src destination)
    (received.server.disk.get path)
  blocks : Blocks received.accepted

variable {received : Received} {arrival : Arrival}

section

variable (rooted : self.rootDir = some root) (allowed : root.uploadPath filename = some path)
include rooted allowed

theorem receiveStep_exact (uploading : Uploading filename arrival.packet)
    (written : arrival.write = .written) (exactly : Exact filename path src destination received)
    : Exact filename path src destination (receiveStep self src destination received arrival) := by
  obtain ⟨stored, blocks⟩ := exactly
  have entered := stored.enter arrival.clock
  rcases self.handleTftp_cases received.server src destination arrival with
    ⟨options, handled⟩ | ⟨unkeyed, handled⟩ | ⟨key, keyed, plain, handled⟩
  · refine ⟨?_, ?_⟩ <;>
      rw [receiveStep, handled, acceptBlock_of_refused (by simp [optionNegotiationFailed])]
    · exact entered
    · exact blocks
  · refine ⟨?_, ?_⟩ <;> rw [receiveStep, handled, acceptBlock_of_refused (by simp)]
    · exact entered
    · exact blocks
  · rw [Server.transfer_of_key keyed] at entered
    rw [handleKeyed] at handled
    cases packet : arrival.packet with
    | data block data =>
      rw [packet, written] at handled
      have pruned := entered.prune arrival.clock.checked
      obtain ⟨kept, bounded⟩ := handleTftpWriteData_stored pruned blocks rfl
      refine ⟨?_, ?_⟩ <;> rw [receiveStep, handled, packet]
      · rw [Server.transfer_of_key keyed]
        exact kept
      · exact bounded
    | writeRequest requested mode options =>
      rw [packet] at handled uploading
      obtain rfl : requested = filename := uploading
      refine ⟨?_, ?_⟩ <;> rw [receiveStep, handled, packet]
      · rw [Server.transfer_of_key keyed]
        exact handleWrite_stored rooted allowed entered rfl
      · exact blocks
    | readRequest | ack | error =>
      rw [packet] at uploading
      cases uploading

theorem receive_exact {arrivals : List Arrival}
    (uploading : ∀ arrival ∈ arrivals, Uploading filename arrival.packet)
    (written : ∀ arrival ∈ arrivals, arrival.write = .written)
    (exactly : Exact filename path src destination received)
    : Exact filename path src destination
        (arrivals.foldl (receiveStep self src destination) received) := by
  induction arrivals generalizing received with
  | nil => exact exactly
  | cons arrival arrivals ih =>
    refine ih (fun other member => uploading other (mem_cons_of_mem _ member))
      (fun other member => written other (mem_cons_of_mem _ member)) ?_
    exact receiveStep_exact rooted allowed (uploading arrival (mem_cons_self ..))
      (written arrival (mem_cons_self ..)) exactly

end

/-- A block of a client whose transfer is not pruned. -/
theorem handleTftp_data (self : TftpHandler) {block data key}
    (keyed : TftpTransferKey.new src destination = some key)
    (packet : arrival.packet = .data block data)
    (prompt : Prompt (server.transfer src destination) arrival.clock)
    : ∃ active : TftpTransfers, active.get key = server.transfer src destination
        ∧ self.handleTftp server src destination arrival
          = let result := handleTftpWriteData active server.disk key block data
              arrival.clock.touched arrival.write
            (⟨result.1.1, result.1.2⟩, [result.2]) := by
  rw [Server.transfer_of_key keyed] at prompt ⊢
  have entered := get_pruneTftpTransfers fun state found => (prompt state found).1
  refine ⟨pruneTftpTransfers (TftpHandler.entered server arrival.clock).active
    arrival.clock.checked, ?_, ?_⟩
  · exact (get_pruneTftpTransfers fun state found =>
      (prompt state (entered ▸ found)).2).trans entered
  · rw [handleTftp, keyed, packet]
    dsimp only
    rw [handleKeyed, packet]
    rfl

/-- Any packet of an upload under way. -/
theorem handleTftp_disposes (uploading : Uploading filename arrival.packet)
    (written : arrival.write = .written) (exactly : Exact filename path src destination received)
    (present : received.server.transfer src destination ≠ none)
    (prompt : Prompt (received.server.transfer src destination) arrival.clock)
    : match arrival.packet with
      | .data block data =>
        Disposes received.accepted block data
          ((self.handleTftp received.server src destination arrival).1.transfer src destination)
          received.server.disk (self.handleTftp received.server src destination arrival).1.disk
          (self.handleTftp received.server src destination arrival).2
      | _ =>
        (self.handleTftp received.server src destination arrival).1.transfer src destination
          ≠ none := by
  obtain ⟨key, keyed⟩ := Server.key_of_transfer present
  cases exactly.stored with
  | closed absent | unbegun absent => exact absurd absent present
  | @active transfer state accepting bytes =>
    cases packet : arrival.packet with
    | data block data =>
      obtain ⟨active, kept, handled⟩ := handleTftp_data self keyed packet prompt
      dsimp only
      rw [handled, written, Server.transfer_of_key keyed]
      exact handleTftpWriteData_disposes accepting (kept.trans state) rfl
    | writeRequest requested mode options =>
      rw [packet] at uploading
      obtain rfl : requested = filename := uploading
      rw [Server.transfer_of_key keyed] at state prompt
      rw [state] at prompt
      obtain ⟨first, second⟩ := prompt _ rfl
      have entered : (pruneTftpTransfers received.server.active arrival.clock.entered).get key
          = some (.write transfer) := by
        rw [pruneTftpTransfers, get_retain, state]
        simp [first]
      have checked : (pruneTftpTransfers (pruneTftpTransfers received.server.active
          arrival.clock.entered) arrival.clock.checked).get key = some (.write transfer) := by
        rw [pruneTftpTransfers, get_retain, entered]
        simp [second]
      dsimp only
      rw [Server.transfer_of_key keyed, handleTftp, keyed, packet]
      split
      · simp [entered]
      · simp [handleKeyed, packet, handleWrite, duplicateTftpWriteRequestResponse, checked,
          accepting.filename, get_insert_self]
    | readRequest | ack | error =>
      rw [packet] at uploading
      cases uploading

/-- A request without options opens an upload of a file that does not exist, if there is room. -/
theorem handleTftp_opens (rooted : self.rootDir = some root)
    (allowed : root.uploadPath filename = some path) {mode}
    (packet : arrival.packet = .writeRequest filename mode [])
    (room : Admits server src destination) (idle : server.transfer src destination = none)
    (missing : server.disk.get path = none)
    : (self.handleTftp server src destination arrival).2 = [.ack 0]
      ∧ (self.handleTftp server src destination arrival).1.transfer src destination ≠ none := by
  obtain ⟨key, keyed⟩ := isSome_iff_exists.mp room.1
  rw [Server.transfer_of_key keyed] at idle
  have absent : (pruneTftpTransfers (pruneTftpTransfers server.active arrival.clock.entered)
      arrival.clock.checked).get key = none := by
    simp [pruneTftpTransfers, get_retain, idle]
  have pruned := len_retain_le server.active
    fun _ state => durationSince arrival.clock.entered state.lastActivity ≤ tftpTransferTimeout
  have again := len_retain_le (pruneTftpTransfers server.active arrival.clock.entered)
    fun _ state => durationSince arrival.clock.checked state.lastActivity ≤ tftpTransferTimeout
  have unlimited : tftpTransferLimitReached (pruneTftpTransfers (pruneTftpTransfers server.active
      arrival.clock.entered) arrival.clock.checked) key = false := by
    rw [tftpTransferLimitReached, Bool.and_eq_false_iff, decide_eq_false_iff_not, Nat.not_le]
    exact .inr ((again.trans pruned).trans_lt room.2)
  have opened : self.openUploadFile server.disk filename
      = .ok (server.disk.insert path [], path) := by
    simp [openUploadFile, rooted, allowed, containsKey, missing]
  rw [Server.transfer_of_key keyed]
  simp [handleTftp, keyed, packet, hasOptions, handleKeyed, handleWrite,
    duplicateTftpWriteRequestResponse, absent, unlimited, opened, handleWriteRequest,
    get_insert_self]

/-- A block of a transfer under way that was accepted last is acknowledged again. -/
theorem handleTftp_duplicate {block data} (exactly : Exact filename path src destination received)
    (packet : arrival.packet = .data block data) (number : block.toNat = received.accepted.length)
    (nonempty : 1 ≤ received.accepted.length)
    (present : received.server.transfer src destination ≠ none)
    (prompt : Prompt (received.server.transfer src destination) arrival.clock)
    : (self.handleTftp received.server src destination arrival).2 = [.ack block]
      ∧ (self.handleTftp received.server src destination arrival).1.disk
          = received.server.disk := by
  obtain ⟨key, keyed⟩ := Server.key_of_transfer present
  obtain ⟨active, kept, handled⟩ := handleTftp_data self keyed packet prompt
  obtain ⟨stored, blocks⟩ := exactly
  rw [handled]
  cases stored with
  | closed absent | unbegun absent => exact absurd absent present
  | @active transfer state accepting bytes =>
    obtain ⟨last, acknowledged, lastNumber⟩ := accepting.acknowledged
    obtain rfl : last = block := UInt16.toNat_inj.mp (lastNumber.trans number.symm)
    have expected := accepting.expected
    have few := blocks.few
    have positive : last ≠ 0 := by
      rintro rfl
      exact absurd number (Nat.ne_of_lt nonempty)
    have earlier : last ≠ transfer.nextBlockExpected := by
      intro same
      rw [same] at number
      omega
    have previous : last + 1 = transfer.nextBlockExpected := by
      rw [← UInt16.toNat_inj, UInt16.toNat_add, expected, number]
      simp
      omega
    rw [handleTftpWriteData, if_neg positive, kept, state]
    dsimp only
    rw [if_pos (.inl earlier), if_pos previous, acknowledged]
    exact ⟨rfl, rfl⟩

theorem handleTftpWriteData_ended {accepted active disk key}
    (stored : Stored filename path accepted (active.get key) (disk.get path))
    (ended : Ended accepted) (block : UInt16) (data : Bytes) (now : Nat) (write : WriteOutcome)
    : (handleTftpWriteData active disk key block data now write).1.2 = disk := by
  rw [handleTftpWriteData]
  split
  · rfl
  cases stored with
  | closed absent | unbegun absent =>
    rw [absent]
  | @active transfer state accepting bytes =>
    rw [state]
    dsimp only
    rw [if_pos (.inr (accepting.complete.mpr ended))]
    split <;> rfl

theorem handleWrite_ended {accepted} (rooted : self.rootDir = some root)
    (allowed : root.uploadPath filename = some path) {key}
    (stored : Stored filename path accepted (server.active.get key) (server.disk.get path))
    (ended : Ended accepted) (clock : Clock)
    : (self.handleWrite server key filename clock).1.disk = server.disk := by
  have pruned := stored.prune clock.checked
  rw [handleWrite, duplicateTftpWriteRequestResponse]
  cases pruned with
  | @active transfer state accepting bytes =>
    rw [state]
    dsimp only
    rw [if_pos accepting.filename]
  | closed absent bytes =>
    rw [absent]
    dsimp only
    split
    · rfl
    · simp only [openUploadFile, rooted, allowed]
      rw [if_pos (by simp [containsKey, bytes])]
  | unbegun absent missing blank =>
    rw [blank] at ended
    exact absurd ended not_ended_nil

/-- Behind a short block, nothing is written. -/
theorem handleTftp_ended (rooted : self.rootDir = some root)
    (allowed : root.uploadPath filename = some path) (uploading : Uploading filename arrival.packet)
    (exactly : Exact filename path src destination received) (ended : Ended received.accepted)
    : (self.handleTftp received.server src destination arrival).1.disk = received.server.disk := by
  have entered := exactly.stored.enter arrival.clock
  rcases self.handleTftp_cases received.server src destination arrival with
    ⟨_, handled⟩ | ⟨_, handled⟩ | ⟨key, keyed, _, handled⟩
  · rw [handled]
    rfl
  · rw [handled]
    rfl
  · rw [Server.transfer_of_key keyed] at entered
    rw [handled, handleKeyed]
    cases packet : arrival.packet with
    | data block data =>
      exact handleTftpWriteData_ended (entered.prune arrival.clock.checked) ended _ _ _ _
    | writeRequest requested mode options =>
      rw [packet] at uploading
      obtain rfl : requested = filename := uploading
      exact handleWrite_ended rooted allowed entered ended _
    | readRequest | ack | error =>
      rw [packet] at uploading
      cases uploading

/-- Any run of blocks and repeated requests of one client, for a file that does not exist yet, where
the writes succeed: the file has the accepted blocks, within the limit; while the upload is there,
its last block is acknowledged again without effect; behind a short block, nothing is written. A
request opens the upload, its next block is accepted, and without a timeout it goes only with an
error for a block that there is no room for. -/
theorem tftp_uploads_stored_exactly (self : TftpHandler) (root : RootDir)
    (rooted : self.rootDir = some root) (filename path : Str)
    (allowed : root.uploadPath filename = some path) (src : SocketAddr)
    (destination : SessionDestination) (server : Server)
    (idle : server.transfer src destination = none) (fresh : server.disk.get path = none)
    (arrivals : List Arrival)
    (uploading : ∀ arrival ∈ arrivals, Uploading filename arrival.packet)
    (written : ∀ arrival ∈ arrivals, arrival.write = .written)
    : let received := receive self src destination server arrivals
      (received.server.disk.get path).getD [] = received.accepted.flatten
      ∧ Blocks received.accepted
      ∧ (∀ arrival block data, arrival.packet = .data block data →
        block.toNat = received.accepted.length → 1 ≤ received.accepted.length →
        received.server.transfer src destination ≠ none →
        Prompt (received.server.transfer src destination) arrival.clock →
        (self.handleTftp received.server src destination arrival).2 = [.ack block]
        ∧ (self.handleTftp received.server src destination arrival).1.disk = received.server.disk)
      ∧ (Ended received.accepted → ∀ arrival, Uploading filename arrival.packet →
        (self.handleTftp received.server src destination arrival).1.disk
          = received.server.disk)
      ∧ (∀ arrival mode, arrival.packet = .writeRequest filename mode [] →
        Admits received.server src destination →
        received.server.transfer src destination = none →
        received.server.disk.get path = none →
        (self.handleTftp received.server src destination arrival).2 = [.ack 0]
        ∧ (self.handleTftp received.server src destination arrival).1.transfer src destination
          ≠ none)
      ∧ ∀ arrival : Arrival, Uploading filename arrival.packet → arrival.write = .written →
        received.server.transfer src destination ≠ none →
        Prompt (received.server.transfer src destination) arrival.clock →
        match arrival.packet with
        | .data block data =>
          Disposes received.accepted block data
            ((self.handleTftp received.server src destination arrival).1.transfer src destination)
            received.server.disk (self.handleTftp received.server src destination arrival).1.disk
            (self.handleTftp received.server src destination arrival).2
        | _ =>
          (self.handleTftp received.server src destination arrival).1.transfer src destination
            ≠ none := by
  have start : Exact filename path src destination ⟨server, []⟩ :=
    ⟨.unbegun idle fresh rfl, .nil⟩
  have reached := receive_exact rooted allowed uploading written start
  refine ⟨?_, reached.blocks, ?_, ?_, ?_, ?_⟩
  · cases reached.stored with
    | active _ _ bytes | closed _ bytes => exact congrArg (Option.getD · []) bytes
    | unbegun _ missing blank =>
      refine (congrArg (Option.getD · []) missing).trans ?_
      exact (congrArg List.flatten blank).symm
  · intro arrival block data packet number nonempty present prompt
    exact handleTftp_duplicate reached packet number nonempty present prompt
  · intro ended arrival uploading
    exact handleTftp_ended rooted allowed uploading reached ended
  · intro arrival mode packet room idle missing
    exact handleTftp_opens rooted allowed packet room idle missing
  · intro arrival uploading written present prompt
    exact handleTftp_disposes uploading written reached present prompt

/-- A directory in which every upload is created under its own name. -/
def openRoot : RootDir :=
  ⟨fun _ => .notFound, some⟩

def openHandler : TftpHandler :=
  ⟨some openRoot, []⟩

def uploadRequest : Arrival :=
  arriving (.writeRequest (ascii "a") (ascii "octet") [])

def fullBlock : Bytes :=
  List.replicate 512 0

/-- A full block, the block again, and the last block. -/
def sampleUpload : List Arrival :=
  [uploadRequest, arriving (.data 1 fullBlock),
    arriving (.data 1 fullBlock), arriving (.data 2 [8, 9])]

/-- The file has both blocks once, and the last one is acknowledged again. -/
theorem tftp_uploads_stored_exactly_blocks
    : (openHandler.handleAll localClient localDestination ⟨.empty, .empty⟩ sampleUpload).2
        = [[.ack 0], [.ack 1], [.ack 1], [.ack 2]]
      ∧ ((receive openHandler localClient localDestination ⟨.empty, .empty⟩
          sampleUpload).server.disk.get (ascii "a")).getD [] = fullBlock ++ [8, 9]
      ∧ (openHandler.handleTftp (receive openHandler localClient localDestination ⟨.empty, .empty⟩
          sampleUpload).server localClient localDestination (arriving (.data 2 [8, 9]))).2
        = [.ack 2] := by
  have idle : (⟨.empty, .empty⟩ : Server).transfer localClient localDestination = none := by
    simp [Server.transfer, HashMap.get_empty]
  have uploading : ∀ arrival ∈ sampleUpload, Uploading (ascii "a") arrival.packet := by
    simp [sampleUpload, uploadRequest, arriving, Uploading]
  have written : ∀ arrival ∈ sampleUpload, arrival.write = .written := by
    simp [sampleUpload, uploadRequest, arriving]
  obtain ⟨stored, -, duplicate, -⟩ :=
    tftp_uploads_stored_exactly openHandler openRoot rfl (ascii "a") (ascii "a") rfl localClient
      localDestination ⟨.empty, .empty⟩ idle (HashMap.get_empty _) sampleUpload uploading written
  have accepted : (receive openHandler localClient localDestination ⟨.empty, .empty⟩
      sampleUpload).accepted = [fullBlock, [8, 9]] := by
    decide +kernel
  rw [accepted] at stored duplicate
  refine ⟨by decide +kernel, stored, ?_⟩
  exact (duplicate (arriving (.data 2 [8, 9])) 2 [8, 9] rfl rfl (by decide) (by decide +kernel)
    fun _ _ => by simp [arriving, durationSince]).1

section Overfull

def blockArrival (number : Nat) (data : Bytes) : Arrival :=
  ⟨.data (UInt16.ofNat number) data, ⟨0, 0, 0, 0⟩, .written⟩

/-- An upload of full blocks. -/
def fullUpload (count : Nat) : WriteTransfer :=
  { filename := ascii "a"
    nextBlockExpected := UInt16.ofNat (count + 1)
    bytesReceived := 512 * count
    lastAck := .ack (UInt16.ofNat count)
    uploadFile := some (ascii "a")
    complete := false
    lastActivity := 0 }

def fullArrivals (count : Nat) : List Arrival :=
  uploadRequest :: (List.range count).map fun index => blockArrival (index + 1) fullBlock

theorem prompt_fullUpload (count : Nat)
    : Prompt (some (.write (fullUpload count))) ⟨0, 0, 0, 0⟩ := by
  intro state same
  cases same
  exact ⟨Nat.zero_le _, Nat.zero_le _⟩

theorem length_fullBlock : fullBlock.length = tftpBlockSize :=
  length_replicate

theorem localKey : ∃ key, TftpTransferKey.new localClient localDestination = some key :=
  isSome_iff_exists.mp (by decide +kernel)

/-- A full block is kept as long as it fits. -/
theorem handleTftp_fullBlock {server count} (fits : 512 * (count + 1) ≤ maxTftpUploadBytes)
    (state : server.transfer localClient localDestination = some (.write (fullUpload count)))
    : (openHandler.handleTftp server localClient localDestination
          (blockArrival (count + 1) fullBlock)).1.transfer localClient localDestination
        = some (.write (fullUpload (count + 1)))
      ∧ (openHandler.handleTftp server localClient localDestination
          (blockArrival (count + 1) fullBlock)).2 = [.ack (UInt16.ofNat (count + 1))] := by
  obtain ⟨key, keyed⟩ := localKey
  obtain ⟨active, kept, handled⟩ := handleTftp_data openHandler keyed
    (rfl : (blockArrival (count + 1) fullBlock).packet = _) (state ▸ prompt_fullUpload count)
  have room : (fullUpload count).bytesReceived + tftpBlockSize ≤ maxTftpUploadBytes := fits
  have following : UInt16.ofNat (count + 1) + 1 = UInt16.ofNat (count + 1 + 1) :=
    (UInt16.ofNat_add _ _).symm
  have positive : UInt16.ofNat (count + 1) ≠ 0 := by
    rw [← UInt16.toNat_inj.ne, UInt16.toNat_ofNat']
    simp only [maxTftpUploadBytes] at fits
    simp
    omega
  rw [handled, handleTftpWriteData, if_neg positive, kept, state]
  dsimp only
  rw [if_neg (by simp [fullUpload]), acceptTftpWriteData, length_fullBlock, if_neg (lt_irrefl _),
    if_pos room]
  refine ⟨?_, rfl⟩
  rw [Server.transfer_of_key keyed]
  refine (get_insert_self _ _ _).trans ?_
  rw [WriteTransfer.accept, length_fullBlock, if_neg (lt_irrefl _), decide_eq_false (lt_irrefl _),
    following]
  rfl

/-- One more byte than the limit ends the upload. -/
theorem handleTftp_pastLimit {server}
    (state : server.transfer localClient localDestination = some (.write (fullUpload 16384)))
    : (openHandler.handleTftp server localClient localDestination
          (blockArrival 16385 [0])).1.transfer localClient localDestination = none
      ∧ (openHandler.handleTftp server localClient localDestination (blockArrival 16385 [0])).2
        = [tftpError 3 "Upload too large"] := by
  obtain ⟨key, keyed⟩ := localKey
  obtain ⟨active, kept, handled⟩ := handleTftp_data openHandler keyed
    (rfl : (blockArrival 16385 [0]).packet = _) (state ▸ prompt_fullUpload 16384)
  rw [handled, handleTftpWriteData, if_neg (by decide), kept, state]
  dsimp only
  rw [if_neg (by decide), acceptTftpWriteData, if_neg (by decide), if_neg (by decide)]
  refine ⟨?_, rfl⟩
  rw [Server.transfer_of_key keyed]
  exact get_remove_self _ _

theorem handleTftp_unknown {server} (absent : server.transfer localClient localDestination = none)
    : (openHandler.handleTftp server localClient localDestination
        (blockArrival 16384 fullBlock)).2 = [tftpError 5 "Unknown transfer id"] := by
  obtain ⟨key, keyed⟩ := localKey
  have prompt : Prompt (server.transfer localClient localDestination) ⟨0, 0, 0, 0⟩ := by
    intro state present
    rw [absent] at present
    cases present
  obtain ⟨active, kept, handled⟩ := handleTftp_data openHandler keyed
    (rfl : (blockArrival 16384 fullBlock).packet = _) prompt
  rw [handled, handleTftpWriteData, if_neg (by decide), kept, absent]

theorem receive_fullArrivals {count} (fits : 512 * count ≤ maxTftpUploadBytes)
    : (receive openHandler localClient localDestination ⟨.empty, .empty⟩
          (fullArrivals count)).server.transfer localClient localDestination
        = some (.write (fullUpload count))
      ∧ (receive openHandler localClient localDestination ⟨.empty, .empty⟩
          (fullArrivals count)).accepted.length = count := by
  induction count with
  | zero => exact ⟨by decide +kernel, rfl⟩
  | succ count ih =>
    obtain ⟨state, number⟩ := ih (by omega)
    have step := handleTftp_fullBlock fits state
    have split : fullArrivals (count + 1)
        = fullArrivals count ++ [blockArrival (count + 1) fullBlock] := by
      rw [fullArrivals, range_succ, map_append]
      rfl
    rw [split, receive, foldl_append]
    refine ⟨step.1, ?_⟩
    rw [receive] at number step
    have next : (UInt16.ofNat (count + 1)).toNat = count + 1 := by
      simp only [maxTftpUploadBytes] at fits
      simp
      omega
    simp only [foldl_cons, foldl_nil, receiveStep, acceptBlock, blockArrival]
    rw [if_pos ⟨step.2, by rw [next, number]⟩, length_append, number, length_singleton]

/-- A block that leads past the limit ends the upload, and the block before it is then not
acknowledged again. -/
theorem tftp_overfull_upload_forgets
    : (receive openHandler localClient localDestination ⟨.empty, .empty⟩
          (fullArrivals 16384 ++ [blockArrival 16385 [0]])).accepted.length = 16384
      ∧ (openHandler.handleTftp (receive openHandler localClient localDestination ⟨.empty, .empty⟩
            (fullArrivals 16384 ++ [blockArrival 16385 [0]])).server
          localClient localDestination (blockArrival 16384 fullBlock)).2
        = [tftpError 5 "Unknown transfer id"] := by
  obtain ⟨state, number⟩ := receive_fullArrivals (by decide : 512 * 16384 ≤ maxTftpUploadBytes)
  have step := handleTftp_pastLimit state
  rw [receive, List.foldl_append]
  rw [receive] at number step
  refine ⟨?_, handleTftp_unknown step.1⟩
  simp only [List.foldl_cons, List.foldl_nil, receiveStep]
  rw [step.2, acceptBlock_of_refused (by simp [tftpError]), number]

end Overfull

end Runs

end NetTrap.Tftp
