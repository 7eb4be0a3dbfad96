import NetTrap.Library.StopAndWait
import NetTrap.Tftp.Listener

/-! Read transfers of one client: blocks are sent in order, each behind the acknowledgement of the
one before. A transfer is followed through the events that concern it, from the request that opens
it to the acknowledgement that removes it.
-/

namespace NetTrap.Tftp

open Rust Session StopAndWait HashMap TftpHandler List

/-- Acknowledgements of any blocks, and requests to read the file. -/
def Reading (filename : Str) : TftpPacket → Prop
  | .ack _ => True
  | .readRequest requested _ _ => requested = filename
  | _ => False

/-- The transfer is not pruned while a packet is handled. -/
def Prompt (transfer : Option TftpTransferState) (clock : Clock) : Prop :=
  ∀ state, transfer = some state →
    durationSince clock.entered state.lastActivity ≤ tftpTransferTimeout
    ∧ durationSince clock.checked state.lastActivity ≤ tftpTransferTimeout

def receivedEvents : TftpPacket → List Event
  | .ack block => [.acknowledged block.toNat]
  | _ => []

def sentEvents (responses : List TftpPacket) : List Event :=
  responses.filterMap fun response =>
    match response with
    | .data block _ => some (.sent block.toNat)
    | _ => none

/-- A server with the events of the transfer that is under way. -/
structure Watched where
  server : Server
  events : List Event

section Run

variable (self : TftpHandler) (src : SocketAddr) (destination : SessionDestination)

/-- The events are forgotten with the transfer. -/
def watchStep (watched : Watched) (arrival : Arrival) : Watched :=
  let handled := self.handleTftp watched.server src destination arrival
  { server := handled.1
    events :=
      if (handled.1.transfer src destination).isNone then []
      else watched.events ++ receivedEvents arrival.packet ++ sentEvents handled.2 }

def watch (server : Server) (arrivals : List Arrival) : Watched :=
  arrivals.foldl (watchStep self src destination) ⟨server, []⟩

/-- No transfer of the client times out in the run. -/
def PromptRun (server : Server) : List Arrival → Prop
  | [] => True
  | arrival :: arrivals =>
    Prompt (server.transfer src destination) arrival.clock
    ∧ PromptRun (self.handleTftp server src destination arrival).1 arrivals

end Run

/-- The state of a read transfer whose outstanding block is the given one. -/
def sending (content : Bytes) (filename : Str) (block : UInt16) (lastActivity : Nat)
    : TftpTransferState :=
  .read
    { filename := filename
      lastBlockSent := block
      lastResponse := .data block (blockOf content block.toNat)
      complete := block.toNat = lastBlock content
      lastActivity := lastActivity }

/-- Where a client's transfer stands: there is none, or one block is outstanding. -/
inductive Standing (content : Bytes) (filename : Str) (transfer : Option TftpTransferState)
    : Option UInt16 → Prop where
  | idle (absent : transfer = none) : Standing content filename transfer none
  | outstanding {block : UInt16} (lastActivity : Nat)
      (state : transfer = some (sending content filename block lastActivity))
      (positive : 1 ≤ block.toNat) (inside : block.toNat ≤ lastBlock content)
      : Standing content filename transfer (some block)

/-- A read request without options, which would be refused. -/
def isPlainRequest : TftpPacket → Bool
  | .readRequest _ _ options => options.isEmpty
  | _ => false

/-- There is room for a transfer of the client. -/
def Admits (server : Server) (src : SocketAddr) (destination : SessionDestination) : Prop :=
  (TftpTransferKey.new src destination).isSome ∧ server.active.len < maxTftpActiveTransfers

/-- What a packet does to a transfer, with the responses to it. A request opens one if there is
`room`. -/
inductive Move (content : Bytes) (room : Prop)
    : Option UInt16 → TftpPacket → List TftpPacket → Option UInt16 → Prop where
  | idle {packet : TftpPacket} {responses : List TftpPacket}
      (refused : isPlainRequest packet = true → ¬ room) (silent : sentEvents responses = [])
      : Move content room none packet responses none
  | «open» {packet : TftpPacket} (request : isPlainRequest packet = true)
      : Move content room none packet [.data 1 (blockOf content 1)] (some 1)
  | quiet {block : UInt16} {packet : TftpPacket} {responses : List TftpPacket}
      (other : packet ≠ .ack block) (noRequest : isPlainRequest packet = false)
      (silent : sentEvents responses = [])
      : Move content room (some block) packet responses (some block)
  | again {block : UInt16} {packet : TftpPacket} (other : packet ≠ .ack block)
      : Move content room (some block) packet [.data block (blockOf content block.toNat)]
          (some block)
  | next {block : UInt16} (more : block.toNat < lastBlock content)
      (successor : (block + 1).toNat = block.toNat + 1)
      : Move content room (some block) (.ack block)
          [.data (block + 1) (blockOf content (block.toNat + 1))] (some (block + 1))
  | finish {block : UInt16} (last : block.toNat = lastBlock content)
      : Move content room (some block) (.ack block) [] none

section Steps

variable {self : TftpHandler} {filename : Str} {content : Bytes}

variable {key : TftpTransferKey}

theorem get_pruneTftpTransfers {transfers now}
    (prompt : ∀ state, transfers.get key = some state →
      durationSince now state.lastActivity ≤ tftpTransferTimeout)
    : (pruneTftpTransfers transfers now).get key = transfers.get key := by
  rw [pruneTftpTransfers, get_retain]
  cases found : transfers.get key with
  | none => rfl
  | some state => simpa using prompt state found

theorem lastBlock_le (small : content.length ≤ maxTftpServeBytes) : lastBlock content ≤ 16385 := by
  simp only [maxTftpServeBytes] at small
  simp only [lastBlock, tftpBlockSize]
  omega

/-- Remembering a block of the content leaves it outstanding. -/
theorem rememberTftpReadResponse_standing (transfers : TftpTransfers) (key : TftpTransferKey)
    {block : UInt16} (positive : 1 ≤ block.toNat) (inside : block.toNat ≤ lastBlock content)
    (now : Nat)
    : Standing content filename ((rememberTftpReadResponse transfers key filename block
          (.data block (blockOf content block.toNat)) now).get key)
        (some block) := by
  have state : (rememberTftpReadResponse transfers key filename block
      (.data block (blockOf content block.toNat)) now).get key
      = some (sending content filename block now) := by
    rw [rememberTftpReadResponse, get_insert_self, sending]
    simp only [Option.some.injEq, TftpTransferState.read.injEq, ReadTransfer.mk.injEq, true_and,
      and_true, decide_eq_decide]
    exact short_blockOf_iff positive inside
  exact .outstanding now state positive inside

variable {position : Option UInt16} {room : Prop}

variable {server : Server}

/-- A request opens a transfer, or has the outstanding block sent again. -/
theorem handleRead_moves (served : self.servedContent filename = some content) {clock : Clock}
    (mode : Str)
    (full : tftpTransferLimitReached (pruneTftpTransfers server.active clock.checked) key = true →
      ¬ room)
    (prompt : ∀ state, server.active.get key = some state →
      durationSince clock.checked state.lastActivity ≤ tftpTransferTimeout)
    (standing : Standing content filename (server.active.get key) position)
    : ∃ reached, Move content room position (.readRequest filename mode [])
          (self.handleRead server key filename clock).2 reached
        ∧ Standing content filename
          ((self.handleRead server key filename clock).1.active.get key) reached := by
  have kept := get_pruneTftpTransfers prompt
  simp only [handleRead, duplicateTftpReadRequestResponse]
  rw [kept]
  cases standing with
  | idle absent =>
    rw [absent]
    dsimp only
    split
    case isTrue reachesLimit =>
      refine ⟨none, .idle (fun _ => full reachesLimit) rfl, .idle ?_⟩
      rw [kept, absent]
    case isFalse =>
      rw [handleReadRequestBlock_of_served served (by decide)]
      refine ⟨some 1, .open rfl, ?_⟩
      exact rememberTftpReadResponse_standing _ _ (by decide) (Nat.le_add_left _ _) _
  | outstanding lastActivity state positive inside =>
    rw [state, sending]
    dsimp only
    rw [if_pos rfl]
    refine ⟨some _, .again (by simp), .outstanding clock.touched ?_ positive inside⟩
    exact get_insert_self _ _ _

/-- An acknowledgement moves a transfer on only if it is that of the outstanding block. -/
theorem handleAck_moves (served : self.servedContent filename = some content)
    (small : content.length ≤ maxTftpServeBytes) {clock : Clock} (block : UInt16)
    (prompt : ∀ state, server.active.get key = some state →
      durationSince clock.checked state.lastActivity ≤ tftpTransferTimeout)
    (standing : Standing content filename (server.active.get key) position)
    : ∃ reached, Move content room position (.ack block)
        (self.handleAck server key block clock).2 reached
        ∧ Standing content filename
          ((self.handleAck server key block clock).1.active.get key) reached := by
  have kept := get_pruneTftpTransfers prompt
  simp only [handleAck, nextTftpReadAction]
  rw [kept]
  cases standing with
  | idle absent =>
    rw [absent]
    refine ⟨none, .idle (fun plain => by cases plain) rfl, .idle ?_⟩
    exact kept.trans absent
  | @outstanding last lastActivity state positive inside =>
    rw [state, sending]
    dsimp only
    by_cases acknowledged : block = last
    · rw [if_pos acknowledged]
      by_cases complete : last.toNat = lastBlock content
      · rw [if_pos (by simpa using complete)]
        refine ⟨none, ?_, .idle (get_remove_self _ _)⟩
        rw [acknowledged]
        exact .finish complete
      · have more : last.toNat < lastBlock content := by omega
        have successor : (last + 1).toNat = last.toNat + 1 := by
          have := lastBlock_le small
          rw [UInt16.toNat_add]
          simp
          omega
        rw [if_neg (by simpa using complete), acknowledged]
        dsimp only
        rw [handleReadRequestBlock_of_served served]
        · have bytes : blockOf content (last + 1).toNat = blockOf content (last.toNat + 1) := by
            rw [successor]
          refine ⟨some (last + 1), ?_,
            rememberTftpReadResponse_standing _ _ (by omega) (by omega) _⟩
          rw [bytes]
          exact .next more successor
        · intro zero
          rw [zero] at successor
          cases successor
    · rw [if_neg acknowledged]
      have other : TftpPacket.ack block ≠ .ack last := by
        simpa using acknowledged
      by_cases previous : block + 1 = last
      · rw [if_pos previous]
        refine ⟨some last, .again other, .outstanding clock.touched ?_ positive inside⟩
        exact get_insert_self _ _ _
      · rw [if_neg previous]
        refine ⟨some last, .quiet other rfl rfl, .outstanding lastActivity ?_ positive inside⟩
        exact kept.trans state

/-- A request that is refused leaves the transfer where it stands. -/
theorem refused_moves {transfer packet responses} (request : ∀ block, packet ≠ .ack block)
    (noRequest : isPlainRequest packet = false) (silent : sentEvents responses = [])
    (standing : Standing content filename transfer position)
    : ∃ reached, Move content room position packet responses reached
        ∧ Standing content filename transfer reached := by
  cases standing with
  | idle absent => exact ⟨none, .idle (by simp [noRequest]) silent, .idle absent⟩
  | outstanding lastActivity state positive inside =>
    refine ⟨_, .quiet (request _) noRequest silent, ?_⟩
    exact .outstanding lastActivity state positive inside

/-- Any packet of a reading client makes one of the moves. -/
theorem handleTftp_moves (served : self.servedContent filename = some content)
    (small : content.length ≤ maxTftpServeBytes) {src destination arrival}
    (reading : Reading filename arrival.packet)
    (prompt : Prompt (server.transfer src destination) arrival.clock)
    (standing : Standing content filename (server.transfer src destination) position)
    : ∃ reached, Move content (Admits server src destination) position arrival.packet
          (self.handleTftp server src destination arrival).2 reached
        ∧ Standing content filename
          ((self.handleTftp server src destination arrival).1.transfer src destination)
              reached := by
  cases keyed : TftpTransferKey.new src destination with
  | none =>
    have untracked (server : Server) : server.transfer src destination = none := by
      rw [Server.transfer, keyed]
      rfl
    rw [untracked] at standing
    cases standing with
    | idle =>
      refine ⟨none, .idle ?_ ?_, .idle (untracked _)⟩
      · simp [Admits, keyed]
      · simp only [handleTftp, keyed]
        split <;> rfl
    | outstanding lastActivity state => cases state
  | some key =>
    have tracked := Server.transfer_of_key keyed
    rw [tracked] at prompt standing
    have entered : (pruneTftpTransfers server.active arrival.clock.entered).get key
        = server.active.get key :=
      get_pruneTftpTransfers fun state found => (prompt state found).1
    rw [← entered] at standing
    have prompt : ∀ state,
        (pruneTftpTransfers server.active arrival.clock.entered).get key = some state →
        durationSince arrival.clock.checked state.lastActivity ≤ tftpTransferTimeout := by
      intro state found
      exact (prompt state (entered ▸ found)).2
    simp only [handleTftp, handleKeyed, keyed, tracked]
    cases packet : arrival.packet with
    | readRequest requested mode options =>
      rw [packet] at reading
      obtain rfl : requested = filename := reading
      by_cases plain : options = []
      · subst plain
        rw [if_neg (by simp [hasOptions])]
        refine handleRead_moves served mode (fun reachesLimit room => ?_) prompt standing
        have pruned := len_retain_le server.active
          fun _ state => durationSince arrival.clock.entered state.lastActivity
              ≤ tftpTransferTimeout
        have again := len_retain_le (pruneTftpTransfers server.active arrival.clock.entered)
          fun _ state => durationSince arrival.clock.checked state.lastActivity
              ≤ tftpTransferTimeout
        simp only [tftpTransferLimitReached, Bool.and_eq_true, decide_eq_true_eq] at reachesLimit
        exact absurd (reachesLimit.2.trans (again.trans pruned)) (Nat.not_le.mpr room.2)
      · rw [if_pos (by simp [hasOptions, plain])]
        exact refused_moves (by simp) (by simp [isPlainRequest, plain]) rfl standing
    | ack block =>
      rw [if_neg (by simp [hasOptions])]
      exact handleAck_moves served small block prompt standing
    | writeRequest | data | error =>
      rw [packet] at reading
      cases reading

end Steps

section Runs

variable {self : TftpHandler} {filename : Str} {content : Bytes} {src : SocketAddr}
  {destination : SessionDestination}

/-- The number of the outstanding block; zero where there is no transfer. -/
def outstandingBlock (position : Option UInt16) : Nat :=
  position.elim 0 UInt16.toNat

variable {position : Option UInt16} {responses : List TftpPacket}

variable {packet : TftpPacket} {reached : Option UInt16} {room : Prop}

/-- A move keeps the events of the transfer in order. -/
theorem Move.inOrder {events} (move : Move content room position packet responses reached)
    (order : InOrder (outstandingBlock position) events)
    (positive : ∀ block, position = some block → 1 ≤ block.toNat)
    : InOrder (outstandingBlock reached)
        (if reached.isNone then [] else events ++ receivedEvents packet
            ++ sentEvents responses) := by
  have received : InOrder (outstandingBlock position) (events ++ receivedEvents packet) := by
    cases packet with
    | ack block => exact order.acknowledge block.toNat
    | _ => exact (append_nil events).symm ▸ order
  cases move with
  | idle | finish => exact .nil
  | «open» => exact received.advance (.inl rfl)
  | quiet _ _ silent =>
    rw [silent, append_nil]
    exact received
  | again => exact received.again (positive _ rfl)
  | @next block more successor =>
    have single : sentEvents [.data (block + 1) (blockOf content (block.toNat + 1))]
        = [.sent (block.toNat + 1)] :=
      congrArg (fun number => [Event.sent number]) successor
    have outstanding : outstandingBlock (some (block + 1)) = block.toNat + 1 := successor
    rw [single, outstanding]
    exact received.advance (.inr (mem_append_right _ (mem_singleton_self _)))

theorem not_mem_of_silent (silent : sentEvents responses = []) (block : UInt16) (data : Bytes)
    : .data block data ∉ responses := by
  intro member
  have sent : Event.sent block.toNat ∈ sentEvents responses :=
    mem_filterMap.mpr ⟨_, member, rfl⟩
  rw [silent] at sent
  cases sent

variable {block : UInt16}

/-- Every block that a move sends is the outstanding one then, with its bytes of the content. -/
theorem Move.sends {data : Bytes} (move : Move content room position packet responses reached)
    (member : .data block data ∈ responses)
    : reached = some block ∧ data = blockOf content block.toNat := by
  cases move with
  | idle _ silent | quiet _ _ silent => exact absurd member (not_mem_of_silent silent block data)
  | «open» | again =>
    cases mem_singleton.mp member
    exact ⟨rfl, rfl⟩
  | next more successor =>
    cases mem_singleton.mp member
    exact ⟨rfl, by rw [successor]⟩
  | finish => cases member

/-- A transfer is given up only for the acknowledgement of the last block. -/
theorem Move.finishes_iff (move : Move content room (some block) packet responses reached)
    : reached = none ↔ packet = .ack block ∧ block.toNat = lastBlock content := by
  cases move with
  | quiet other | again other =>
    exact iff_of_false (by simp) fun acknowledged => other acknowledged.1
  | next more => exact iff_of_false (by simp) fun acknowledged => by omega
  | finish last => exact iff_of_true rfl ⟨rfl, last⟩

/-- The responses that a client can count on: the first block to a request, the outstanding one to
a repeated request, and the next one to the acknowledgement of the outstanding one. -/
structure Answers (content : Bytes) (room : Prop) (outstanding : Nat) (packet : TftpPacket)
    (responses : List TftpPacket) : Prop where
  opens : outstanding = 0 → room → isPlainRequest packet = true →
    responses = [.data 1 (blockOf content 1)]
  repeats : 0 < outstanding → isPlainRequest packet = true →
    responses = [.data (UInt16.ofNat outstanding) (blockOf content outstanding)]
  advances : ∀ block, packet = .ack block → block.toNat = outstanding → 0 < outstanding →
    outstanding < lastBlock content →
    responses = [.data (block + 1) (blockOf content (outstanding + 1))]

theorem Move.answers (move : Move content room position packet responses reached)
    (positive : ∀ block, position = some block → 1 ≤ block.toNat)
    : Answers content room (outstandingBlock position) packet responses := by
  have begun {property : Prop} (block : UInt16) (least : 1 ≤ block.toNat) (none : block.toNat = 0)
      : property := by
    omega
  cases move with
  | idle refused silent =>
    exact ⟨fun _ room request => absurd room (refused request), nofun, fun _ _ _ => nofun⟩
  | «open» request => exact ⟨fun _ _ _ => rfl, nofun, fun _ _ _ => nofun⟩
  | @quiet block _ _ other noRequest silent =>
    refine ⟨fun none => ?_, fun _ request => ?_, fun acknowledged packet same => ?_⟩
    · exact begun block (positive block rfl) none
    · rw [noRequest] at request
      cases request
    · exact absurd (UInt16.toNat_inj.mp same ▸ packet) other
  | @again block packet other =>
    refine ⟨fun none => ?_, fun _ _ => ?_, fun acknowledged packet same => ?_⟩
    · exact begun block (positive block rfl) none
    · rw [outstandingBlock, Option.elim_some, UInt16.ofNat_toNat]
    · exact absurd (UInt16.toNat_inj.mp same ▸ packet) other
  | @next block more successor =>
    refine ⟨fun none => ?_, fun _ => nofun, fun acknowledged packet same _ _ => ?_⟩
    · exact begun block (positive block rfl) none
    · cases packet
      rfl
  | @finish block last =>
    refine ⟨fun none => ?_, fun _ => nofun, fun acknowledged packet same _ more => ?_⟩
    · exact begun block (positive block rfl) none
    · exact absurd last (Nat.ne_of_lt more)

theorem Standing.bounds {transfer} (standing : Standing content filename transfer (some block))
    : 1 ≤ block.toNat ∧ block.toNat ≤ lastBlock content := by
  cases standing with
  | outstanding _ _ positive inside => exact ⟨positive, inside⟩

theorem Standing.positive {transfer} (standing : Standing content filename transfer position)
    (block : UInt16) (outstanding : position = some block)
    : 1 ≤ block.toNat := by
  subst outstanding
  exact standing.bounds.1

theorem Standing.isNone_iff {transfer} (standing : Standing content filename transfer position)
    : transfer.isNone = position.isNone := by
  cases standing with
  | idle absent =>
    rw [absent]
    rfl
  | outstanding _ state =>
    rw [state]
    rfl

/-- What holds of a watched transfer at any time. -/
structure Sound (content : Bytes) (filename : Str) (src : SocketAddr)
    (destination : SessionDestination) (position : Option UInt16) (watched : Watched) : Prop where
  standing : Standing content filename (watched.server.transfer src destination) position
  order : InOrder (outstandingBlock position) watched.events

section Served

variable (served : self.servedContent filename = some content)
  (small : content.length ≤ maxTftpServeBytes)
include served small

theorem watchStep_sound {position watched arrival} (reading : Reading filename arrival.packet)
    (prompt : Prompt (watched.server.transfer src destination) arrival.clock)
    (sound : Sound content filename src destination position watched)
    : ∃ reached, Move content (Admits watched.server src destination) position arrival.packet
          (self.handleTftp watched.server src destination arrival).2 reached
        ∧ Sound content filename src destination reached
          (watchStep self src destination watched arrival) := by
  obtain ⟨reached, move, standing⟩ := handleTftp_moves served small reading prompt sound.standing
  refine ⟨reached, move, standing, ?_⟩
  have order := move.inOrder sound.order sound.standing.positive
  rwa [← standing.isNone_iff] at order

/-- All responses of a run are blocks of the content, and its transfer stays in order. -/
theorem watch_sound {position watched arrivals}
    (reading : ∀ arrival ∈ arrivals, Reading filename arrival.packet)
    (prompt : PromptRun self src destination watched.server arrivals)
    (sound : Sound content filename src destination position watched)
    : (∃ reached, Sound content filename src destination reached
          (arrivals.foldl (watchStep self src destination) watched))
      ∧ ∀ responses ∈ (self.handleAll src destination watched.server arrivals).2,
        ∀ block data, .data block data ∈ responses →
          1 ≤ block.toNat ∧ block.toNat ≤ lastBlock content
          ∧ data = blockOf content block.toNat := by
  induction arrivals generalizing position watched with
  | nil => exact ⟨⟨position, sound⟩, by simp [handleAll]⟩
  | cons arrival arrivals ih =>
    obtain ⟨now, later⟩ := prompt
    obtain ⟨reached, move, next⟩ :=
      watchStep_sound served small (reading arrival (mem_cons_self ..)) now sound
    have rest := ih (fun other member => reading other (mem_cons_of_mem _ member)) later next
    refine ⟨rest.1, ?_⟩
    intro responses member block data sent
    rcases mem_cons.mp member with rfl | member
    · obtain ⟨rfl, bytes⟩ := move.sends sent
      exact ⟨next.standing.bounds.1, next.standing.bounds.2, bytes⟩
    · exact rest.2 responses member block data sent

end Served

section Samples

/-- A run whose clock stands still has no timeouts. -/
theorem promptRun_still {server arrivals}
    (still : ∀ arrival ∈ arrivals, arrival.clock = ⟨0, 0, 0, 0⟩)
    : PromptRun self src destination server arrivals := by
  induction arrivals generalizing server with
  | nil => trivial
  | cons arrival arrivals ih =>
    refine ⟨fun state _ => ?_, ih fun other member => still other (mem_cons_of_mem _ member)⟩
    simp [still arrival mem_cons_self, durationSince]

def localClient : SocketAddr :=
  ⟨.v4 ⟨[127, 0, 0, 1], rfl⟩, 53000⟩

def localDestination : SessionDestination :=
  ⟨ascii "127.0.0.1", 69⟩

/-- A handler without a root directory, which serves 600 bytes under any name. -/
def plainHandler : TftpHandler :=
  ⟨none, List.replicate 600 7⟩

/-- A packet that arrives while the clock stands still. -/
def arriving (packet : TftpPacket) : Arrival :=
  ⟨packet, ⟨0, 0, 0, 0⟩, .written⟩

/-- A request, the acknowledgement of its block, and the request again. -/
def sampleReads : List Arrival :=
  [arriving (.readRequest (ascii "a") (ascii "octet") []), arriving (.ack 1),
    arriving (.readRequest (ascii "a") (ascii "octet") [])]

end Samples

end Runs

end NetTrap.Tftp
