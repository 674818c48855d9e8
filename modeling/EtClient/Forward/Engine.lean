import EtClient.Lib.Transition
import EtClient.Proto.Wire
import Mathlib.Data.List.AList

/-!
# The port-forward engine

An engine has sources, which accept local connections for the peer to connect on, and
destinations, which it connects itself when the peer asks. Every local connection has a
read task that puts what it reads into one event queue, under a connection id. The
engine handles the events of that queue and the packets of the peer one at a time.

Connection ids of sources count up from one. A destination's connection id is its socket
id, which the engine draws at random among those its destinations do not use. A source
connection has the socket id that the peer has assigned. The queued event of the program
holds the connection id alone. Here it also holds the connection that was read from; no
handler looks at it, and it appears in the history only.

A read task is aborted by `teardown`, but not at once: it may still queue what it has
just read. So an abort is a step of its own here. A connection that could not be
duplicated is one whose read task is aborted first and whose writes fail.
-/

namespace Et

namespace Forward

structure SocketEndpoint where
  name : Option String
  port : Option Int32
  deriving DecidableEq

structure PortForwardSourceRequest where
  source : Option SocketEndpoint
  destination : Option SocketEndpoint
  deriving DecidableEq

structure PortForwardDestinationRequest where
  destination : Option SocketEndpoint
  fd : Option Int32
  deriving DecidableEq

structure PortForwardDestinationResponse where
  clientfd : Option Int32 := none
  socketid : Option Int32 := none
  error : Option String := none
  deriving DecidableEq

structure PortForwardData where
  sourcetodestination : Option Bool := none
  socketid : Option Int32 := none
  buffer : Option Bytes := none
  error : Option String := none
  closed : Option Bool := none
  deriving DecidableEq

/-- The messages of the port-forward headers. -/
inductive Message
  | request (r : PortForwardDestinationRequest)
  | response (r : PortForwardDestinationResponse)
  | data (d : PortForwardData)
  deriving DecidableEq

def Message.header : Message → UInt8
  | .request _ => portForwardDestinationRequest
  | .response _ => portForwardDestinationResponse
  | .data _ => portForwardData

/-- How messages travel: the packet of a message, and the message of a packet. A packet
without a message is ignored by the engine. -/
structure Codec (π : Type) where
  packet : Message → π
  read : π → Option Message

/-- A message that was sent is read again. -/
def Codec.Lawful {π : Type} (codec : Codec π) : Prop :=
  ∀ m, codec.read (codec.packet m) = some m

/-- Messages as they are. -/
def Codec.plain : Codec Message := ⟨id, some⟩

theorem Codec.plain_lawful : Codec.plain.Lawful := fun _ => rfl

/-- The protobuf encoding of the messages. -/
structure Protobuf where
  encodeToVec : Message → Bytes
  decodeRequest : Bytes → Option PortForwardDestinationRequest
  decodeResponse : Bytes → Option PortForwardDestinationResponse
  decodeData : Bytes → Option PortForwardData

namespace Protobuf

/-- The packets of a session. -/
def codec (proto : Protobuf) : Codec Packet where
  packet m := .new m.header (proto.encodeToVec m)
  read p :=
    if p.header = portForwardDestinationRequest then (proto.decodeRequest p.payload).map .request
    else if p.header = portForwardDestinationResponse then
      (proto.decodeResponse p.payload).map .response
    else if p.header = portForwardData then (proto.decodeData p.payload).map .data
    else none

end Protobuf

/-- A local TCP connection. -/
abbrev StreamId := Nat

abbrev Table (α : Type) := AList fun _ : UInt32 => α

/-- What one read of a local connection gives: bytes, none of them at the end of the
stream, or an error. -/
abbrev ReadResult := Except String Bytes

/-- The read task ends behind this result. -/
def isEnd : ReadResult → Bool
  | .ok (_ :: _) => false
  | _ => true

inductive Event
  | accepted (sourceIdx : Nat) (stream : StreamId)
  | read (connId : UInt32) (stream : StreamId) (result : ReadResult)
  deriving DecidableEq

inductive EngineEffect
  /-- A read task has read from its connection. -/
  | read (stream : StreamId) (result : ReadResult)
  | received (m : Message)
  /-- A frame for the peer; the origin is the connection whose read it is about. -/
  | sent (origin : Option StreamId) (m : Message)
  /-- A connection got its tasks, its ids and the direction of its frames. -/
  | opened (stream : StreamId) (connId socketId : UInt32) (sourcetodestination : Bool)
  /-- The write queue of a connection took bytes of the peer. -/
  | enqueued (stream : StreamId) (bytes : Bytes)
  | tornDown (stream : StreamId)
  /-- A connection was torn down at the end of `cause`. -/
  | removed (cause stream : StreamId)
  /-- A connection id lost its socket id at the end of `cause`. -/
  | unmapped (cause : StreamId) (connId socketId : UInt32)
  deriving DecidableEq

/-- The read task that a connection starts with. -/
def EngineEffect.reader? : EngineEffect → Option (UInt32 × StreamId)
  | .opened stream connId _ _ => some (connId, stream)
  | _ => none

/-- The frames that were sent. -/
def sentOf (log : List EngineEffect) : List Message :=
  log.filterMap fun
    | .sent _ m => some m
    | _ => none

structure EngineState where
  sources : List PortForwardSourceRequest
  nextConnId : UInt32
  /-- Accepted, request sent, waiting for the response. -/
  pending : Table StreamId
  /-- By socket id, source role. -/
  sourceSockets : Table StreamId
  /-- From connection id to socket id, source role. -/
  sourceConnIds : Table UInt32
  /-- By socket id, destination role. -/
  destinations : Table StreamId

def dataPacket (socketId : UInt32) (sourcetodestination : Bool) (buffer : Bytes) : Message :=
  .data
    { sourcetodestination := some sourcetodestination
      socketid := some socketId.toInt32
      buffer := some buffer }

def closedPacket (socketId : UInt32) (sourcetodestination : Bool) : Message :=
  .data
    { sourcetodestination := some sourcetodestination
      socketid := some socketId.toInt32
      closed := some true }

def errorPacket (socketId : UInt32) (sourcetodestination : Bool) (error : String) : Message :=
  .data
    { sourcetodestination := some sourcetodestination
      socketid := some socketId.toInt32
      error := some error }

/-- The frames about one read of a connection. -/
def readFrames (socketId : UInt32) (sourcetodestination : Bool) : ReadResult → List Message
  | .ok [] => [closedPacket socketId sourcetodestination]
  | .ok bytes => [dataPacket socketId sourcetodestination bytes]
  | .error e =>
      [errorPacket socketId sourcetodestination e, closedPacket socketId sourcetodestination]

def maxDestinationConnections : Nat := 256

/-- What is decided outside the engine while it handles a packet. -/
structure Chance where
  /-- For each frame in turn: it is sent, and not abandoned for a shutdown. -/
  sends : List Bool
  /-- One of the loopback addresses accepts the connection. -/
  connects : Bool
  /-- The random numbers. -/
  draws : List UInt32
  /-- The write queue of the connection takes the bytes. -/
  written : Bool

/-- `create_destination`: the response, and the socket id of a new connection. There is
none as long as every number that was drawn is in use. -/
def createDestination (destinations : Table StreamId) (request : PortForwardDestinationRequest)
    (chance : Chance) : Option (PortForwardDestinationResponse × Option UInt32) :=
  match request.destination.bind SocketEndpoint.port with
  | none => some ({ clientfd := request.fd, error := some "destination has no port" }, none)
  | some port =>
      if port.toInt < 0 ∨ 65535 < port.toInt then
        some ({ clientfd := request.fd
                error := some s!"destination port {port} is out of range (must be 0-65535)" },
          none)
      else
        let count := destinations.entries.length
        if maxDestinationConnections ≤ count then
          some ({ clientfd := request.fd
                  error := some s!"too many open destination connections ({count}); refusing" },
            none)
        else if chance.connects then
          (chance.draws.find? fun drawn => (destinations.lookup drawn).isNone).map fun socketId =>
            ({ clientfd := request.fd, socketid := some socketId.toInt32 }, some socketId)
        else
          some ({ clientfd := request.fd, error := some "could not connect to destination" }, none)

/-- A data frame of the peer, in the table of its direction. -/
def receiveData (table : Table StreamId) (socketId : UInt32) (closed : Bool)
    (buffer : Option Bytes) (written : Bool) : Table StreamId × List EngineEffect :=
  match table.lookup socketId with
  | none => (table, [])
  | some conn =>
      let rest := table.erase socketId
      if closed then (rest, [.tornDown conn])
      else
        match buffer with
        | some bytes =>
            if written then (rest.insert socketId conn, [.enqueued conn bytes])
            else (rest, [.tornDown conn])
        | none => (rest.insert socketId conn, [])

namespace EngineState

def new (sources : List PortForwardSourceRequest) : EngineState :=
  ⟨sources, 1, ∅, ∅, ∅, ∅⟩

/-- The connection id counter is a `u32` that wraps around, as in a release build: the profile
has no overflow checks. -/
def handleAccepted (s : EngineState) (sourceIdx : Nat) (stream : StreamId) :
    EngineState × List EngineEffect :=
  match s.sources[sourceIdx]?.bind PortForwardSourceRequest.destination with
  | none => (s, [])
  | some destination =>
      let connId := s.nextConnId
      ({ s with nextConnId := connId + 1, pending := s.pending.insert connId stream },
        [.sent none (.request ⟨some destination, some connId.toInt32⟩)])

def handleRead (s : EngineState) (connId : UInt32) (stream : StreamId) (result : ReadResult) :
    EngineState × List EngineEffect :=
  match s.sourceConnIds.lookup connId with
  | some socketId =>
      let sends := (readFrames socketId true result).map (.sent (some stream))
      if isEnd result then
        ({ s with
            sourceSockets := s.sourceSockets.erase socketId
            sourceConnIds := s.sourceConnIds.erase connId },
          sends ++ (s.sourceSockets.lookup socketId).toList.map (.removed stream) ++
            [.unmapped stream connId socketId])
      else (s, sends)
  | none =>
      match s.destinations.lookup connId with
      | some conn =>
          let sends := (readFrames connId false result).map (.sent (some stream))
          if isEnd result then
            ({ s with destinations := s.destinations.erase connId },
              sends ++ [.removed stream conn])
          else (s, sends)
      -- A trailing read of a connection that was torn down.
      | none => (s, [])

/-- `handle_peer_packet`, behind the decoding. A new destination is `stream`. -/
def handlePeer (s : EngineState) (answerDestinations : Bool) (stream : StreamId)
    (chance : Chance) : Message → Option (EngineState × List EngineEffect)
  | .request request =>
      if answerDestinations then
        (createDestination s.destinations request chance).map fun
          | (response, some socketId) =>
              ({ s with destinations := s.destinations.insert socketId stream },
                [.opened stream socketId socketId false, .sent none (.response response)])
          | (response, none) => (s, [.sent none (.response response)])
      else
        some (s,
          [.sent none (.response
            { clientfd := request.fd
              error := some "port forwarding destinations are not enabled on this session" })])
  | .response response =>
      match response.clientfd.map Int32.toUInt32 with
      | none => some (s, [])
      | some connId =>
          match s.pending.lookup connId with
          | none => some (s, [])
          | some conn =>
              let pending := s.pending.erase connId
              match response.socketid.map Int32.toUInt32 with
              | some socketId =>
                  some ({ s with
                      pending := pending
                      sourceSockets := s.sourceSockets.insert socketId conn
                      sourceConnIds := s.sourceConnIds.insert connId socketId },
                    .opened conn connId socketId true ::
                      (s.sourceSockets.lookup socketId).toList.map .tornDown)
              -- The peer has refused.
              | none => some ({ s with pending := pending }, [])
  | .data d =>
      match d.socketid.map Int32.toUInt32 with
      | none => some (s, [])
      | some socketId =>
          let closed := d.closed.getD false || d.error.isSome
          if d.sourcetodestination.getD false then
            let (table, effects) :=
              receiveData s.destinations socketId closed d.buffer chance.written
            some ({ s with destinations := table }, effects)
          else
            let (table, effects) :=
              receiveData s.sourceSockets socketId closed d.buffer chance.written
            some ({ s with sourceSockets := table }, effects)

/-- `teardown_all`. -/
def teardownAll (s : EngineState) : EngineState :=
  { s with pending := ∅, sourceSockets := ∅, sourceConnIds := ∅, destinations := ∅ }

end EngineState

/-- The frames that are not abandoned, among the other effects. -/
def sendOrShutdown : List Bool → List EngineEffect → List EngineEffect
  | _, [] => []
  | false :: sends, .sent _ _ :: effects => sendOrShutdown sends effects
  | true :: sends, .sent origin m :: effects => .sent origin m :: sendOrShutdown sends effects
  | sends, effect :: effects => effect :: sendOrShutdown sends effects

structure Engine where
  state : EngineState
  answerDestinations : Bool
  events : List Event
  /-- The read tasks that may still queue an event, by connection id. -/
  readers : List (UInt32 × StreamId)
  /-- How many local connections there have been. -/
  streams : Nat
  /-- The shutdown watch is raised, or the session receives no more frames. -/
  shutdown : Bool
  running : Bool

inductive EngineAct (π : Type)
  /-- An accept task queues a connection. -/
  | accept (sourceIdx : Nat)
  /-- A read task queues what it has read. -/
  | read (connId : UInt32) (stream : StreamId) (result : ReadResult)
  /-- A read task is gone. -/
  | abort (connId : UInt32) (stream : StreamId)
  /-- The engine handles the next event. -/
  | event (sends : List Bool)
  /-- The engine handles a packet. -/
  | peer (p : π) (chance : Chance)
  | addSources (sources : List PortForwardSourceRequest)
  | shutdown
  /-- The loop of `run` ends. -/
  | stop

namespace Engine

variable {π : Type}

/-- Without a shutdown every frame is sent. -/
def ready (e : Engine) (sends : List Bool) : Bool := e.running && (e.shutdown || sends.all id)

def receive (e : Engine) (m : Message) (chance : Chance) : Option (Engine × List EngineEffect) :=
  (e.state.handlePeer e.answerDestinations e.streams chance m).map fun (state, effects) =>
    ({ e with
        state := state
        readers := e.readers ++ effects.filterMap EngineEffect.reader?
        streams := e.streams + 1 },
      .received m :: sendOrShutdown chance.sends effects)

def step (codec : Codec π) (e : Engine) : EngineAct π → Option (Engine × List EngineEffect)
  | .accept sourceIdx =>
      some ({ e with
          events := e.events ++ [.accepted sourceIdx e.streams]
          streams := e.streams + 1 }, [])
  | .read connId stream result =>
      if (connId, stream) ∈ e.readers then
        some ({ e with
            events := e.events ++ [.read connId stream result]
            readers :=
              if isEnd result then e.readers.filter (· ≠ (connId, stream)) else e.readers },
          [.read stream result])
      else none
  | .abort connId stream =>
      some ({ e with readers := e.readers.filter (· ≠ (connId, stream)) }, [])
  | .event sends =>
      if e.ready sends then
        match e.events with
        | [] => none
        | .accepted sourceIdx stream :: events =>
            let (state, effects) := e.state.handleAccepted sourceIdx stream
            some ({ e with state := state, events := events }, sendOrShutdown sends effects)
        | .read connId stream result :: events =>
            let (state, effects) := e.state.handleRead connId stream result
            some ({ e with state := state, events := events }, sendOrShutdown sends effects)
      else none
  | .peer p chance =>
      if e.ready chance.sends then
        match codec.read p with
        | none => some (e, [])
        | some m => e.receive m chance
      else none
  | .addSources sources =>
      if e.running then
        some ({ e with state := { e.state with sources := e.state.sources ++ sources } }, [])
      else none
  | .shutdown => some ({ e with shutdown := true }, [])
  | .stop =>
      some ({ e with
          state := e.state.teardownAll
          shutdown := true
          running := false },
        (e.state.sourceSockets.entries ++ e.state.destinations.entries).map fun entry =>
          .tornDown entry.2)

/-- A running engine without connections. -/
def spawn (sources : List PortForwardSourceRequest) (answerDestinations : Bool) : Engine :=
  ⟨.new sources, answerDestinations, [], [], 0, false, true⟩

def system (codec : Codec π) (sources : List PortForwardSourceRequest)
    (answerDestinations : Bool) : Transition.System Engine (EngineAct π) EngineEffect where
  start := spawn sources answerDestinations
  step := step codec

end Engine

end Forward

end Et
