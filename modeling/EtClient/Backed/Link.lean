import EtClient.Backed.Task
import EtClient.Lib.Lane

/-!
# An actor and an honest peer

The world is the actor's task, its peer, and the sockets between them. A socket has two
wires: one carries the actor's frames to the peer, the other the peer's frames to the
actor. Each holds the sequence number its reader reported, the catch-up that answered
it and the framed packets that followed. What a wire holds stays there until it is
read, also when the actor has closed the socket; what is never read was cut off.

The peer is honest. It accepts frames in order, reports how many it has accepted,
answers a number with exactly its frames behind it, and goes on with the next ones on
the same socket. It may lose a socket, give up an exchange, or finish one that the actor
has given up, at any time. It runs one exchange at a time and accepts nothing else
while it does.

One more condition on the peer is that both ends write packets whose length the prefix of a
frame can hold. A longer one, of `2^32` bytes or more, would be cut at its narrowed length
and read as other packets; here nobody reads it. A packet that is only above the cap of the
reader task is not read either, and there the reader ends, which is the loss of the socket.
-/

namespace Et

namespace Backed

/-- One direction of a socket. -/
structure Wire where
  sequence : Option SequenceHeader
  catchup : Option CatchupBuffer
  /-- The framed packets behind the catch-up, oldest first. -/
  frames : List Bytes
  /-- How many of them have been read. -/
  read : Nat
  deriving DecidableEq

namespace Wire

def unused : Wire := ⟨none, none, [], 0⟩

/-- A socket that starts a session: nothing was sent before. -/
def started : Wire := ⟨some (.of 0), some ⟨[]⟩, [], 0⟩

/-- What the framed reader makes of the next packet on the wire. It has no step on a frame whose
length the prefix cannot hold, which an honest peer does not send and is not sent. -/
def next? (w : Wire) : Option Bytes :=
  match w.frames[w.read]? with
  | none => none
  | some framed =>
      match readFramed maxPacketLength framed with
      | some (body, []) => some body
      | _ => none

/-- The next packet has been read. -/
def advance (w : Wire) : Wire := { w with read := w.read + 1 }

/-- The packets of a wire as a lane of the sender's frames. -/
def lane (w : Wire) : Lane Bytes where
  asked := w.sequence.map SequenceHeader.value
  catchup := w.catchup.map CatchupBuffer.buffer
  sent := w.frames.map (List.drop 4)
  taken := w.read

/-- What is read next is what the lane has next. -/
theorem lane_next {w : Wire} {body : Bytes} (next : w.next? = some body) :
    w.lane.sent[w.lane.taken]? = some body := by
  rw [next?] at next
  split at next
  · cases next
  · rename_i framed found
    split at next
    · rename_i bytes read
      cases next
      rw [eq_drop_of_readFramed read]
      show (w.frames.map (List.drop 4))[w.read]? = _
      rw [List.getElem?_map, found]
      rfl
    · cases next

/-- A framed packet on the wire is a frame on the lane. -/
theorem lane_push (w : Wire) (frame : Bytes) :
    { w with frames := w.frames ++ [framePacket frame] }.lane =
      { w.lane with sent := w.lane.sent ++ [frame] } := by
  simp [lane, drop_framePacket]

/-- Where a reader stands does not depend on the frames ahead of it. -/
theorem standsAt_congr {w w' : Wire} (sequence : w'.sequence = w.sequence)
    (catchup : w'.catchup = w.catchup) (read : w'.read = w.read) {n : Nat}
    (stands : w.lane.StandsAt n) : w'.lane.StandsAt n := by
  obtain ⟨k, entries, asked, answered, rfl⟩ := stands
  refine ⟨k, entries, ?_, ?_, ?_⟩
  · exact (congrArg (Option.map SequenceHeader.value) sequence).trans asked
  · exact (congrArg (Option.map CatchupBuffer.buffer) catchup).trans answered
  · show _ = _ + w'.read
    rw [read]
    rfl

end Wire

/-- A recover exchange of the peer; `old` is the socket it has set aside. -/
structure PeerExchange where
  stream : SocketId
  old : Option SocketId
  deriving DecidableEq

structure Peer where
  /-- Header and payload of every packet the peer wrote. -/
  wrote : List (UInt8 × Bytes)
  accepted : List Bytes
  live : Option SocketId
  exchange : Option PeerExchange

/-- The peer's packets as they go over the wire to an actor with this configuration. -/
def Peer.frames (box : SecretBox) (cfg : BackedConfig) (p : Peer) : List Bytes :=
  Packet.stream box cfg.key cfg.readerMsb p.wrote

structure World where
  task : Task
  peer : Peer
  /-- From the actor to the peer. -/
  up : SocketId → Wire
  /-- From the peer to the actor. -/
  down : SocketId → Wire
  /-- The actor has been given this socket before. -/
  dialed : SocketId → Bool

inductive PeerAct
  | write (header : UInt8) (payload : Bytes)
  /-- Put the next frame on a socket that has been answered. -/
  | send (socket : SocketId)
  /-- Begin an exchange by reporting the accepted count. -/
  | report (socket : SocketId)
  /-- Answer the number the actor has reported. -/
  | answer
  /-- Read the actor's catch-up and go live. -/
  | finish
  | fail
  /-- Accept the next frame of the live socket. -/
  | accept
  /-- The live socket is gone. -/
  | lose

inductive WorldAct
  | actor (act : Act)
  | peer (act : PeerAct)

namespace World

/-- What the actor reads is what the sockets hold, and every socket is new. -/
def offers (w : World) : Act → Bool
  | .recover stream => !w.dialed stream
  | .frame bytes =>
      match w.task.actor.live with
      | some socket => (w.down socket).next? = some bytes
      | none => false
  | .sequenceRead remote =>
      match w.task.exchange with
      | some e => (w.up e.stream).sequence = some remote
      | none => false
  | .catchupRead _ theirs =>
      match w.task.exchange with
      | some e => (w.down e.stream).catchup = some theirs
      | none => false
  | _ => true

/-- What an action takes from the sockets. -/
def taking (w : World) : Act → World
  | .recover stream => { w with dialed := Function.update w.dialed stream true }
  | .frame _ =>
      match w.task.actor.live with
      | some socket => { w with down := Function.update w.down socket (w.down socket).advance }
      | none => w
  | _ => w

/-- What an effect puts on the sockets. -/
def noting (w : World) : Effect → World
  | .queued socket framed =>
      let wire := w.up socket
      { w with up := Function.update w.up socket { wire with frames := wire.frames ++ [framed] } }
  | .sentSequence socket header =>
      { w with
        down := Function.update w.down socket { w.down socket with sequence := some header } }
  | .sentCatchup socket ours =>
      { w with up := Function.update w.up socket { w.up socket with catchup := some ours } }
  | _ => w

/-- A step of the peer. -/
def peerStep (box : SecretBox) (cfg : BackedConfig) (w : World) : PeerAct → Option World
  | .write header payload =>
      some { w with peer := { w.peer with wrote := w.peer.wrote ++ [(header, payload)] } }
  | .send socket =>
      let wire := w.down socket
      match wire.sequence, wire.catchup with
      | some asked, some answered =>
          let number := asked.value.toNat + answered.buffer.length + wire.frames.length
          (w.peer.frames box cfg)[number]?.map fun frame =>
            { w with
              down := Function.update w.down socket
                { wire with frames := wire.frames ++ [framePacket frame] } }
      | _, _ => none
  | .report socket =>
      if w.peer.exchange = none ∧ (w.up socket).sequence = none ∧
          w.peer.accepted.length < 2 ^ 31 then
        some { w with
          peer := { w.peer with live := none, exchange := some ⟨socket, w.peer.live⟩ }
          up := Function.update w.up socket
            { w.up socket with sequence := some (.of w.peer.accepted.length) } }
      else none
  | .answer =>
      w.peer.exchange.bind fun e =>
        let wire := w.down e.stream
        match wire.sequence, wire.catchup with
        | some asked, none =>
            if 0 ≤ asked.value ∧ asked.value ≤ (w.peer.frames box cfg).length then
              some { w with
                down := Function.update w.down e.stream
                  { wire with catchup := some ⟨(w.peer.frames box cfg).drop asked.value.toNat⟩ } }
            else none
        | _, _ => none
  | .finish =>
      w.peer.exchange.bind fun e =>
        if (w.down e.stream).catchup.isSome then
          (w.up e.stream).catchup.map fun theirs =>
            { w with
              peer := { w.peer with
                accepted := w.peer.accepted ++ theirs.buffer
                live := some e.stream
                exchange := none } }
        else none
  | .fail =>
      w.peer.exchange.map fun e =>
        { w with peer := { w.peer with live := e.old, exchange := none } }
  | .accept =>
      if w.peer.exchange = none then
        w.peer.live.bind fun socket =>
          (w.up socket).next?.map fun body =>
            { w with
              peer := { w.peer with accepted := w.peer.accepted ++ [body] }
              up := Function.update w.up socket (w.up socket).advance }
      else none
  | .lose =>
      if w.peer.exchange = none then some { w with peer := { w.peer with live := none } } else none

/-- One step of the actor or of the peer. The history holds the actor's effects. -/
def step (box : SecretBox) (cfg : BackedConfig) (w : World) :
    WorldAct → Option (World × List Effect)
  | .actor act =>
      if w.offers act then
        (w.task.step box act).map fun (task, effects) =>
          ({ effects.foldl noting (w.taking act) with task := task }, effects)
      else none
  | .peer act => (w.peerStep box cfg act).map fun w => (w, [])

/-- Both ends on the first socket of a session. -/
def opening (cfg : BackedConfig) (now : Instant) : World where
  task := .spawn cfg now 0
  peer := ⟨[], [], some 0, none⟩
  up := Function.update (fun _ => .unused) 0 .started
  down := Function.update (fun _ => .unused) 0 .started
  dialed := Function.update (fun _ => false) 0 true

def system (box : SecretBox) (cfg : BackedConfig) (now : Instant) :
    Transition.System World WorldAct Effect where
  start := opening cfg now
  step := step box cfg

end World

end Backed

end Et
