import EtClient.Lib.Window
import EtClient.Proto.Wire

/-!
# The backed connection's actor

The state of the actor and the operations on it, as the source computes them. A
socket is a number: the queues of its two tasks belong to the environment, so an
operation that asks a queue for a result takes that result as an argument, and
what it hands to a queue, to the cipher or to the event channel is an effect.
Instants are numbers, and an operation that reads the clock is given the reading.

`backup` holds serialized ciphertext with the newest frame in front; `inbox` holds
received frames, still encrypted, in the order of arrival.
-/

namespace Et

namespace Backed

def maxBackupBytes : Int := 64 * 1024 * 1024
def disconnectBufferBytes : Int := 64 * 1024 * 1024
def writeQueueDepth : Nat := 1024

abbrev SocketId := Nat
abbrev Instant := Nat

inductive WriteError
  | skipped
  | shutdown
  deriving DecidableEq

inductive DeadReason
  | shutdown
  | cryptoMismatch
  deriving DecidableEq

inductive BackedEvent
  | packet (p : Packet)
  | socketDown
  | dead (reason : DeadReason)
  deriving DecidableEq

structure BackedConfig where
  key : Key
  readerMsb : UInt8
  writerMsb : UInt8
  keepalive : Option Nat

/-- The configuration `EtClient` spawns its actor with. -/
def BackedConfig.client (key : Key) (keepalive : Option Nat) : BackedConfig :=
  ⟨key, serverClientNonceMsb, clientServerNonceMsb, keepalive⟩

/-- The mirror of the client's configuration; the server enforces no keepalive. -/
def BackedConfig.server (key : Key) : BackedConfig :=
  ⟨key, clientServerNonceMsb, serverClientNonceMsb, none⟩

/-- What the actor does to its surroundings, in order. -/
inductive Effect
  /-- `write` encrypted a packet; `frame` is its serialization. -/
  | encrypted (nonce : Nonce) (header : UInt8) (payload frame : Bytes)
  /-- The socket's write queue took a framed packet. -/
  | queued (socket : SocketId) (frame : Bytes)
  /-- A call of `write` returned; `none` is `Ok(())`. -/
  | wrote (failure : Option WriteError)
  /-- `deliver_inbox` called the cipher; `none` is a failed authentication. -/
  | decrypted (nonce : Nonce) (ciphertext : Bytes) (plaintext : Option Bytes)
  /-- `deliver_inbox` accepted these bytes and counted them as this packet. -/
  | opened (bytes : Bytes) (p : Packet)
  /-- `die_crypto_mismatch` was entered on these bytes. -/
  | rejected (bytes : Bytes)
  | event (e : BackedEvent)
  | sentSequence (socket : SocketId) (header : SequenceHeader)
  | sentCatchup (socket : SocketId) (catchup : CatchupBuffer)
  /-- A recover exchange ended; `true` is a socket that went live. -/
  | recovered (live : Bool)
  deriving DecidableEq

/-- The counts of packets and of bytes are `i64` in the source and have no bound here: a session
does not come near `2^63` of either. -/
structure Actor where
  cfg : BackedConfig
  writerCrypto : CryptoHandler
  readerCrypto : CryptoHandler
  backup : List Bytes
  backupSize : Int
  writerSeq : Nat
  readerSeq : Nat
  inbox : List Bytes
  live : Option SocketId
  disconnectedBytes : Option Int
  socketDownPending : Bool
  waitingOnKeepalive : Bool
  lastActivity : Instant
  shuttingDown : Bool
  deadSent : Bool

namespace Actor

def new (cfg : BackedConfig) (now : Instant) : Actor where
  cfg := cfg
  writerCrypto := .new cfg.key cfg.writerMsb
  readerCrypto := .new cfg.key cfg.readerMsb
  backup := []
  backupSize := 0
  writerSeq := 0
  readerSeq := 0
  inbox := []
  live := none
  disconnectedBytes := none
  socketDownPending := false
  waitingOnKeepalive := false
  lastActivity := now
  shuttingDown := false
  deadSent := false

/-- Drop the live socket, if there is one, and open the disconnect ledger. -/
def closeCurrentSocket (s : Actor) : Actor :=
  { s with
    live := none
    socketDownPending := s.live.isSome || s.socketDownPending
    waitingOnKeepalive := false
    disconnectedBytes := some (s.disconnectedBytes.getD 0) }

/-- The check of `write` against the disconnect ledger. -/
def disconnectBufferFull (s : Actor) (payload : Bytes) : Bool :=
  match s.disconnectedBytes with
  | some buffered => disconnectBufferBytes < buffered + payload.length
  | none => false

/-- The trim loop of `write`: `pop_back` takes the oldest frame. -/
def trimBackup (s : Actor) : Actor :=
  let trimmed := Window.trim List.length maxBackupBytes s.backup.reverse s.backupSize
  { s with backup := trimmed.1.reverse, backupSize := trimmed.2 }

/-- Push a frame and, on a live socket only, trim. -/
def pushBackup (s : Actor) (crypto : CryptoHandler) (serialized : Bytes) : Actor :=
  let s := { s with
    writerCrypto := crypto
    backup := serialized :: s.backup
    backupSize := s.backupSize + serialized.length
    writerSeq := s.writerSeq + 1 }
  if s.live.isSome then s.trimBackup else s

/-- Charge a frame that no socket took to the disconnect ledger. -/
def chargeLedger (s : Actor) (serialized : Bytes) : Actor :=
  { s with disconnectedBytes := some (s.disconnectedBytes.getD 0 + serialized.length) }

/-- The last part of `write`: `accepts` is the answer of `try_send`. A refusal
closes the socket, and the frame opens the ledger. -/
def handOver (now : Instant) (accepts : Bool) (s : Actor) (serialized : Bytes) :
    Actor × List Effect :=
  match s.live with
  | none => (s.chargeLedger serialized, [])
  | some socket =>
      if accepts then
        ({ s with lastActivity := now }, [.queued socket (framePacket serialized)])
      else
        ({ (s.chargeLedger serialized).closeCurrentSocket with lastActivity := now }, [])

/-- `BackedWriter::write`, with the value it returns. -/
def write (box : SecretBox) (now : Instant) (accepts : Bool) (s : Actor) (header : UInt8)
    (payload : Bytes) : Actor × Option WriteError × List Effect :=
  if s.shuttingDown then (s, some .shutdown, [.wrote (some .shutdown)])
  else if s.disconnectBufferFull payload then (s, some .skipped, [.wrote (some .skipped)])
  else
    let (crypto, packet) := (Packet.new header payload).encrypt box s.writerCrypto rfl
    let serialized := packet.serialize
    let (s, handed) := (s.pushBackup crypto serialized).handOver now accepts serialized
    (s, none, .encrypted crypto.nonce header payload serialized :: handed ++ [.wrote none])

/-- A ping is outstanding from now on. -/
def startPing (now : Instant) (s : Actor) : Actor :=
  { s with waitingOnKeepalive := true, lastActivity := now }

/-- Client-side keepalive: ping after an idle period, close after the next one. -/
def keepaliveTick (box : SecretBox) (now : Instant) (accepts : Bool) (s : Actor) :
    Actor × List Effect :=
  match s.cfg.keepalive with
  | none => (s, [])
  | some period =>
      if s.live.isNone || s.shuttingDown then (s, [])
      else if period ≤ now - s.lastActivity then
        if s.waitingOnKeepalive then (s.closeCurrentSocket, [])
        else
          let (s, _, effects) := (s.startPing now).write box now accepts keepAlive []
          (s, effects)
      else (s, [])

/-- What one round of the loop in `deliver_inbox` comes to. -/
inductive Delivery
  | drained
  | mismatch
  | packet (p : Packet)
  deriving DecidableEq

/-- The call of the cipher inside `Packet::decrypt`, if it gets that far. -/
def cipherCall (box : SecretBox) (crypto : CryptoHandler) (ciphertext : Bytes) : List Effect :=
  if ciphertext.length < macBytes then []
  else
    let crypto := crypto.incrementNonce
    [.decrypted crypto.nonce ciphertext
      (box.decrypt crypto.cipher crypto.nonce ⟨ciphertext, []⟩)]

/-- `die_crypto_mismatch` up to its send. -/
def dieCryptoMismatch (s : Actor) (bytes : Bytes) : Actor × Delivery × List Effect :=
  ({ s with shuttingDown := true, deadSent := true }, .mismatch, [.rejected bytes])

/-- One round of `deliver_inbox`: parse, require the flag, decrypt, count. -/
def deliverOne (box : SecretBox) (now : Instant) (s : Actor) :
    Actor × Delivery × List Effect :=
  match s.inbox with
  | [] => (s, .drained, [])
  | bytes :: rest =>
      let s := { s with inbox := rest }
      match Packet.parse bytes with
      | none => s.dieCryptoMismatch bytes
      | some packet =>
          if flag : packet.encrypted = true then
            let call := cipherCall box s.readerCrypto packet.payload
            match packet.decrypt box s.readerCrypto flag with
            | (crypto, .error _) =>
                let (s, outcome, effects) :=
                  { s with readerCrypto := crypto }.dieCryptoMismatch bytes
                (s, outcome, call ++ effects)
            | (crypto, .ok packet) =>
                ({ s with
                    readerCrypto := crypto
                    lastActivity := now
                    waitingOnKeepalive :=
                      if packet.header = keepAlive then false else s.waitingOnKeepalive
                    readerSeq := s.readerSeq + 1 }, .packet packet, call ++ [.opened bytes packet])
          else s.dieCryptoMismatch bytes

/-- The first message of the exchange: `reader_seq as i32`. -/
def sequenceHeader (s : Actor) : SequenceHeader := .of s.readerSeq

/-- `BackedWriter::recover`: the newest `writer_seq - remote_seq` frames, oldest
first, or the text of the error that ends the exchange. -/
def catchup (s : Actor) (remote : SequenceHeader) : Except String CatchupBuffer :=
  let remoteSeq := remote.sequenceNumber.getD 0
  let toRecover : Int := s.writerSeq - remoteSeq.toInt
  if toRecover < 0 then .error "peer claims more of our packets than we ever sent"
  else if 0 < toRecover then
    if s.backup.length < toRecover.toNat then
      .error s!"peer is too far behind: needs {toRecover}, {s.backup.length} backed up"
    else .ok ⟨(s.backup.take toRecover.toNat).reverse⟩
  else .ok ⟨[]⟩

/-- The success arm of the exchange: both directions revive on the new socket. -/
def revive (now : Instant) (s : Actor) (stream : SocketId) (entries : List Bytes) : Actor :=
  { s with
    inbox := s.inbox ++ entries
    disconnectedBytes := none
    lastActivity := now
    live := some stream }

end Actor

end Backed

end Et
