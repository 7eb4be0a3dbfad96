import NetTrap.Session.Tracker

/-! Packets of the trivial file transfer protocol, and the handler that serves blocks of files. -/

namespace NetTrap.Tftp

open Rust List

def tftpBlockSize : Nat := 512

def maxTftpServeBytes : Nat := 8 * 1024 * 1024

inductive TftpPacket where
  | readRequest (filename mode : Str) (options : List (Str × Str))
  | writeRequest (filename mode : Str) (options : List (Str × Str))
  | data (block : UInt16) (data : Bytes)
  | ack (block : UInt16)
  | error (code : UInt16) (message : Str)
  deriving DecidableEq, Repr

/-- What opening a file beneath the root comes to. -/
inductive OpenedFile where
  | notFound
  | blocked
  | regular (content : Bytes)
  deriving DecidableEq, Repr

/-- The root directory: what a name opens, and the path at which an upload of that name is created
if it may be. -/
structure RootDir where
  openBeneath : Str → OpenedFile
  uploadPath : Str → Option Str

structure TftpHandler where
  rootDir : Option RootDir
  defaultContent : Bytes

/-- Files that were created, by their paths. -/
abbrev Disk := HashMap Str Bytes

def accessViolation : TftpPacket :=
  .error 2 (ascii "Access violation")

/-- The offset of a block; blocks are counted from one. -/
def blockOffset (block : UInt16) : Nat :=
  (block.toNat - 1) * tftpBlockSize

namespace TftpHandler

variable (self : TftpHandler)

def defaultContentBlock (block : UInt16) : Bytes :=
  let offset := blockOffset block
  if offset ≥ self.defaultContent.length then []
  else
    let «end» := min (offset + tftpBlockSize) self.defaultContent.length
    (self.defaultContent.drop offset).take («end» - offset)

/-- The bytes of an open file from an offset on, as one read fills a block with them. -/
def readOpenFileBlock (content : Bytes) (block : UInt16) (offset : Nat) : TftpPacket :=
  .data block ((content.drop offset).take tftpBlockSize)

def readFileBlock (root : RootDir) (filename : Str) (block : UInt16) : TftpPacket :=
  match root.openBeneath filename with
  | .notFound => .data block (self.defaultContentBlock block)
  | .blocked => accessViolation
  | .regular content =>
    if content.length > maxTftpServeBytes then accessViolation
    else if blockOffset block > content.length then .data block []
    else readOpenFileBlock content block (blockOffset block)

def handleReadRequestBlock (filename : Str) (block : UInt16) : TftpPacket :=
  if block = 0 then .error 4 (ascii "Invalid block")
  else
    match self.rootDir with
    | some root => self.readFileBlock root filename block
    | none => .data block (self.defaultContentBlock block)

def handleWriteRequest : TftpPacket :=
  .ack 0

def handleDataBlock (block : UInt16) : TftpPacket :=
  .ack block

/-- The disk with the file that an upload writes to, if uploads are kept at all; a file that exists
is not opened again. -/
def openUploadFile (disk : Disk) (filename : Str) : Except Unit (Disk × Option Str) :=
  match self.rootDir with
  | none => .ok (disk, none)
  | some root =>
    match root.uploadPath filename with
    | none => .error ()
    | some path =>
      if disk.containsKey path then .error () else .ok (disk.insert path [], some path)

/-- The content that is served under a name. -/
def servedContent (filename : Str) : Option Bytes :=
  match self.rootDir with
  | none => some self.defaultContent
  | some root =>
    match root.openBeneath filename with
    | .notFound => some self.defaultContent
    | .blocked => none
    | .regular content => if content.length > maxTftpServeBytes then none else some content

end TftpHandler

def optionNegotiationFailed : TftpPacket :=
  .error 8 (ascii "Option negotiation failed")

/-- A block of a content: the bytes from its offset on, at most a block's size of them. -/
def blockOf (content : Bytes) (block : Nat) : Bytes :=
  (content.drop ((block - 1) * tftpBlockSize)).take tftpBlockSize

/-- The block that ends a transfer. -/
def lastBlock (content : Bytes) : Nat :=
  content.length / tftpBlockSize + 1

theorem length_blockOf (content : Bytes) (block : Nat)
    : (blockOf content block).length
      = min tftpBlockSize (content.length - (block - 1) * tftpBlockSize) := by
  rw [blockOf, length_take, length_drop]

variable {content : Bytes}

theorem length_blockOf_of_lt {block} (positive : 1 ≤ block) (inside : block < lastBlock content)
    : (blockOf content block).length = tftpBlockSize := by
  rw [length_blockOf]
  simp only [lastBlock, tftpBlockSize] at inside ⊢
  omega

/-- The last block is shorter than the others, and empty where they make up the content. -/
theorem length_blockOf_last (content : Bytes)
    : (blockOf content (lastBlock content)).length = content.length % tftpBlockSize := by
  rw [length_blockOf]
  simp only [lastBlock, tftpBlockSize]
  omega

theorem short_blockOf_iff {block} (positive : 1 ≤ block) (inside : block ≤ lastBlock content)
    : (blockOf content block).length < tftpBlockSize ↔ block = lastBlock content := by
  constructor
  · intro short
    by_contra other
    rw [length_blockOf_of_lt positive (lt_of_le_of_ne inside other)] at short
    exact absurd short (lt_irrefl _)
  · rintro rfl
    rw [length_blockOf_last]
    exact Nat.mod_lt _ (by decide)

theorem TftpHandler.defaultContentBlock_eq (self : TftpHandler) (block : UInt16)
    : self.defaultContentBlock block = blockOf self.defaultContent block.toNat := by
  rw [defaultContentBlock, blockOf, blockOffset]
  dsimp only
  split
  case isTrue behind => rw [drop_of_length_le behind, take_nil]
  case isFalse inside =>
    simp
    omega

/-- Every block that is served is that block of the content. -/
theorem TftpHandler.handleReadRequestBlock_of_served {self : TftpHandler} {filename : Str}
    (served : self.servedContent filename = some content) {block : UInt16} (positive : block ≠ 0)
    : self.handleReadRequestBlock filename block = .data block (blockOf content block.toNat) := by
  rw [handleReadRequestBlock, if_neg positive]
  rw [servedContent] at served
  cases rooted : self.rootDir with
  | none =>
    rw [rooted] at served
    cases served
    rw [← defaultContentBlock_eq]
  | some root =>
    simp only [rooted] at served ⊢
    rw [readFileBlock]
    cases opened : root.openBeneath filename with
    | notFound =>
      rw [opened] at served
      cases served
      rw [← defaultContentBlock_eq]
    | blocked =>
      rw [opened] at served
      cases served
    | regular found =>
      simp only [opened] at served ⊢
      split at served
      · cases served
      cases served
      next small =>
      rw [if_neg small]
      split
      case isTrue behind =>
        rw [blockOffset] at behind
        rw [blockOf, drop_of_length_le (le_of_lt behind), take_nil]
      case isFalse => rfl

/-! The transfers of the UDP listener: at most one for each pair of client and destination. -/

open Session

def tftpTransferTimeout : Nat :=
  fromSecs 60

def maxTftpActiveTransfers : Nat := 1024

def maxTftpUploadBytes : Nat := 8 * 1024 * 1024

structure TftpTransferKey where
  srcIp : Str
  srcPort : UInt16
  dstIp : Str
  dstPort : UInt16
  deriving DecidableEq, Repr

/-- There is no key where the destination is not an address. -/
def TftpTransferKey.new (src : SocketAddr) (destination : SessionDestination)
    : Option TftpTransferKey :=
  (parseIpAddr destination.ip).map fun dstIp =>
    { srcIp := (normalizeSessionIp src.ip).format
      srcPort := src.port
      dstIp := (normalizeSessionIp dstIp).format
      dstPort := destination.port }

structure ReadTransfer where
  filename : Str
  lastBlockSent : UInt16
  lastResponse : TftpPacket
  complete : Bool
  lastActivity : Nat
  deriving DecidableEq, Repr

/-- An upload; its file, if it has one, is given by its path. -/
structure WriteTransfer where
  filename : Str
  nextBlockExpected : UInt16
  bytesReceived : Nat
  lastAck : TftpPacket
  uploadFile : Option Str
  complete : Bool
  lastActivity : Nat
  deriving DecidableEq, Repr

inductive TftpTransferState where
  | read (transfer : ReadTransfer)
  | write (transfer : WriteTransfer)
  deriving DecidableEq, Repr

def TftpTransferState.lastActivity : TftpTransferState → Nat
  | .read transfer => transfer.lastActivity
  | .write transfer => transfer.lastActivity

abbrev TftpTransfers := HashMap TftpTransferKey TftpTransferState

def tftpError (code : UInt16) (message : String) : TftpPacket :=
  .error code (ascii message)

/-- The readings of the clock while one packet is handled: at the two prunings, when a transfer is
touched, and when a response is remembered. -/
structure Clock where
  (entered checked touched remembered : Nat)
  deriving DecidableEq, Repr

/-- What becomes of a write to a file: everything is written, or it fails behind some bytes. -/
inductive WriteOutcome where
  | written
  | failed (count : Nat)
  deriving DecidableEq, Repr

variable (transfers : TftpTransfers) (key : TftpTransferKey)

def pruneTftpTransfers (now : Nat) : TftpTransfers :=
  transfers.retain fun _ state => durationSince now state.lastActivity ≤ tftpTransferTimeout

def tftpTransferLimitReached : Bool :=
  !transfers.containsKey key && transfers.len ≥ maxTftpActiveTransfers

def rememberTftpReadResponse (filename : Str) (block : UInt16) (response : TftpPacket) (now : Nat)
    : TftpTransfers :=
  match response with
  | .data _ data =>
    transfers.insert key <| .read
      { filename := filename
        lastBlockSent := block
        lastResponse := response
        complete := data.length < tftpBlockSize
        lastActivity := now }
  | _ => transfers.remove key

inductive TftpReadAckAction where
  | sendNext (filename : Str) (nextBlock : UInt16)
  | retransmit (response : TftpPacket)
  | complete
  deriving DecidableEq, Repr

def duplicateTftpReadRequestResponse (requestedFilename : Str) (now : Nat)
    : Option (TftpTransfers × TftpPacket) :=
  match transfers.get key with
  | none => none
  | some (.read transfer) =>
    if transfer.filename = requestedFilename then
      some (transfers.insert key (.read { transfer with lastActivity := now }),
        transfer.lastResponse)
    else some (transfers, tftpError 4 "Transfer already active")
  | some (.write _) => some (transfers, tftpError 4 "Transfer already active")

def duplicateTftpWriteRequestResponse (requestedFilename : Str) (now : Nat)
    : Option (TftpTransfers × TftpPacket) :=
  match transfers.get key with
  | none => none
  | some (.write transfer) =>
    if transfer.filename = requestedFilename then
      some (transfers.insert key (.write { transfer with lastActivity := now }),
        transfer.lastAck)
    else some (transfers, tftpError 4 "Transfer already active")
  | some (.read _) => some (transfers, tftpError 4 "Transfer already active")

def nextTftpReadAction (ackBlock : UInt16) (now : Nat) : TftpTransfers × Option TftpReadAckAction :=
  match transfers.get key with
  | some (.read transfer) =>
    if ackBlock = transfer.lastBlockSent then
      if transfer.complete then (transfers.remove key, some .complete)
      else
        (transfers.insert key (.read { transfer with lastActivity := now }),
          some (.sendNext transfer.filename (ackBlock + 1)))
    else if ackBlock + 1 = transfer.lastBlockSent then
      (transfers.insert key (.read { transfer with lastActivity := now }),
        some (.retransmit transfer.lastResponse))
    else (transfers, none)
  | _ => (transfers, none)

/-- The bytes arrive at the end of the file. -/
def appendFile (disk : Disk) (path : Str) (data : Bytes) : Disk :=
  disk.insert path ((disk.get path).getD [] ++ data)

/-- An upload after a block that was expected and has been kept. -/
def WriteTransfer.accept (transfer : WriteTransfer) (block : UInt16) (data : Bytes) (now : Nat)
    : WriteTransfer :=
  { transfer with
    nextBlockExpected := block + 1
    bytesReceived := transfer.bytesReceived + data.length
    lastAck := TftpHandler.handleDataBlock block
    uploadFile := if data.length < tftpBlockSize then none else transfer.uploadFile
    complete := data.length < tftpBlockSize
    lastActivity := now }

/-- The block that an upload expects. A total that leaves 64 bits is above the limit as well. -/
def acceptTftpWriteData (disk : Disk) (key : TftpTransferKey) (transfer : WriteTransfer)
    (block : UInt16) (data : Bytes) (now : Nat) (write : WriteOutcome)
    : (TftpTransfers × Disk) × TftpPacket :=
  if data.length > tftpBlockSize then
    ((transfers.remove key, disk), tftpError 4 "DATA block too large")
  else if transfer.bytesReceived + data.length ≤ maxTftpUploadBytes then
    match transfer.uploadFile with
    | some path =>
      match write with
      | .failed count =>
        ((transfers.remove key, appendFile disk path (data.take count)),
          tftpError 3 "Disk full or allocation exceeded")
      | .written =>
        ((transfers.insert key (.write (transfer.accept block data now)),
            appendFile disk path data),
          TftpHandler.handleDataBlock block)
    | none =>
      ((transfers.insert key (.write (transfer.accept block data now)), disk),
        TftpHandler.handleDataBlock block)
  else ((transfers.remove key, disk), tftpError 3 "Upload too large")

def handleTftpWriteData (disk : Disk) (key : TftpTransferKey) (block : UInt16) (data : Bytes)
    (now : Nat) (write : WriteOutcome)
    : (TftpTransfers × Disk) × TftpPacket :=
  if block = 0 then ((transfers, disk), tftpError 4 "Invalid block")
  else
    match transfers.get key with
    | none => ((transfers, disk), tftpError 5 "Unknown transfer id")
    | some (.read _) => ((transfers, disk), tftpError 4 "Unexpected DATA for read transfer")
    | some (.write transfer) =>
      -- A completed upload expects no block, and still answers its last one again.
      if block ≠ transfer.nextBlockExpected ∨ transfer.complete then
        if block + 1 = transfer.nextBlockExpected then
          ((transfers.insert key (.write { transfer with lastActivity := now }), disk),
            transfer.lastAck)
        else ((transfers, disk), tftpError 4 "Unexpected DATA block")
      else acceptTftpWriteData transfers disk key transfer block data now write

/-- What the listener keeps between packets. -/
structure Server where
  active : TftpTransfers
  disk : Disk

/-- The transfer of a client, if it has one. -/
def Server.transfer (server : Server) (src : SocketAddr) (destination : SessionDestination)
    : Option TftpTransferState :=
  (TftpTransferKey.new src destination).bind server.active.get

theorem Server.transfer_of_key {src destination key}
    (keyed : TftpTransferKey.new src destination = some key) (server : Server)
    : server.transfer src destination = server.active.get key := by
  rw [transfer, keyed]
  rfl

theorem Server.key_of_transfer {server : Server} {src : SocketAddr}
    {destination : SessionDestination} (present : server.transfer src destination ≠ none)
    : ∃ key, TftpTransferKey.new src destination = some key := by
  cases keyed : TftpTransferKey.new src destination with
  | none =>
    rw [transfer, keyed] at present
    exact absurd rfl present
  | some key => exact ⟨key, rfl⟩

/-- A packet of the client, with the clock and the disk as they are meanwhile. -/
structure Arrival where
  packet : TftpPacket
  clock : Clock
  write : WriteOutcome
  deriving DecidableEq, Repr

namespace TftpHandler

def handleRead (self : TftpHandler) (server : Server) (key : TftpTransferKey) (filename : Str)
    (clock : Clock) : Server × List TftpPacket :=
  let active := pruneTftpTransfers server.active clock.checked
  match duplicateTftpReadRequestResponse active key filename clock.touched with
  | some (active, response) => ({ server with active := active }, [response])
  | none =>
    if tftpTransferLimitReached active key then
      ({ server with active := active }, [tftpError 4 "Too many active transfers"])
    else
      let response := self.handleReadRequestBlock filename 1
      ({ server with
          active := rememberTftpReadResponse active key filename 1 response clock.remembered },
        [response])

def handleWrite (self : TftpHandler) (server : Server) (key : TftpTransferKey) (filename : Str)
    (clock : Clock) : Server × List TftpPacket :=
  let active := pruneTftpTransfers server.active clock.checked
  match duplicateTftpWriteRequestResponse active key filename clock.touched with
  | some (active, response) => ({ server with active := active }, [response])
  | none =>
    if tftpTransferLimitReached active key then
      ({ server with active := active }, [tftpError 4 "Too many active transfers"])
    else
      match self.openUploadFile server.disk filename with
      | .error () => ({ server with active := active }, [accessViolation])
      | .ok (disk, uploadFile) =>
        (⟨active.insert key <| .write
            { filename := filename
              nextBlockExpected := 1
              bytesReceived := 0
              lastAck := handleWriteRequest
              uploadFile := uploadFile
              complete := false
              lastActivity := clock.remembered }, disk⟩,
          [handleWriteRequest])

def handleAck (self : TftpHandler) (server : Server) (key : TftpTransferKey) (block : UInt16)
    (clock : Clock) : Server × List TftpPacket :=
  let active := pruneTftpTransfers server.active clock.checked
  match nextTftpReadAction active key block clock.touched with
  | (active, some (.sendNext filename nextBlock)) =>
    let response := self.handleReadRequestBlock filename nextBlock
    ({ server with
        active :=
          rememberTftpReadResponse active key filename nextBlock response clock.remembered },
      [response])
  | (active, some (.retransmit response)) => ({ server with active := active }, [response])
  | (active, _) => ({ server with active := active }, [])

def handleData (server : Server) (key : TftpTransferKey) (block : UInt16) (data : Bytes)
    (clock : Clock) (write : WriteOutcome) : Server × List TftpPacket :=
  let active := pruneTftpTransfers server.active clock.checked
  let handled := handleTftpWriteData active server.disk key block data clock.touched write
  (⟨handled.1.1, handled.1.2⟩, [handled.2])

/-- A packet of the client with this key. -/
def handleKeyed (self : TftpHandler) (server : Server) (key : TftpTransferKey) (arrival : Arrival)
    : Server × List TftpPacket :=
  match arrival.packet with
  | .readRequest filename _ _ => self.handleRead server key filename arrival.clock
  | .writeRequest filename _ _ => self.handleWrite server key filename arrival.clock
  | .ack block => self.handleAck server key block arrival.clock
  | .data block data => handleData server key block data arrival.clock arrival.write
  | .error _ _ => ({ server with active := server.active.remove key }, [])

/-- Requests with options are refused. -/
def hasOptions : TftpPacket → Bool
  | .readRequest _ _ options | .writeRequest _ _ options => !options.isEmpty
  | _ => false

def handleTftp (self : TftpHandler) (server : Server) (src : SocketAddr)
    (destination : SessionDestination) (arrival : Arrival) : Server × List TftpPacket :=
  let server := { server with active := pruneTftpTransfers server.active arrival.clock.entered }
  if hasOptions arrival.packet then (server, [optionNegotiationFailed])
  else
    match TftpTransferKey.new src destination with
    | none => (server, [])
    | some key => self.handleKeyed server key arrival

/-- The server when a packet has been let in. -/
def entered (server : Server) (clock : Clock) : Server :=
  { server with active := pruneTftpTransfers server.active clock.entered }

theorem handleTftp_cases (self : TftpHandler) (server : Server) (src : SocketAddr)
    (destination : SessionDestination) (arrival : Arrival)
    : (hasOptions arrival.packet = true ∧ self.handleTftp server src destination arrival
          = (entered server arrival.clock, [optionNegotiationFailed]))
      ∨ (TftpTransferKey.new src destination = none
        ∧ self.handleTftp server src destination arrival = (entered server arrival.clock, []))
      ∨ ∃ key, TftpTransferKey.new src destination = some key ∧ hasOptions arrival.packet = false
        ∧ self.handleTftp server src destination arrival
          = self.handleKeyed (entered server arrival.clock) key arrival := by
  rw [handleTftp]
  cases options : hasOptions arrival.packet with
  | true => exact .inl ⟨rfl, rfl⟩
  | false =>
    cases keyed : TftpTransferKey.new src destination with
    | none => exact .inr (.inl ⟨rfl, rfl⟩)
    | some key => exact .inr (.inr ⟨key, rfl, rfl, rfl⟩)

/-- The packets of one client, one after the other, with the answers to each. -/
def handleAll (self : TftpHandler) (src : SocketAddr) (destination : SessionDestination)
    (server : Server) : List Arrival → Server × List (List TftpPacket)
  | [] => (server, [])
  | arrival :: arrivals =>
    let handled := self.handleTftp server src destination arrival
    let later := self.handleAll src destination handled.1 arrivals
    (later.1, handled.2 :: later.2)

end TftpHandler

end NetTrap.Tftp
