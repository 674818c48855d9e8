import EtClient.Client.Supervisor

/-!
# The session pump

`next_event` is the only pump of a session: it takes packets from the client and frames
from the port-forward engine, hands the peer's port-forward packets to the engine and
writes the engine's frames to the client. It waits in a `select!`, inside `client.write`,
and inside `deliver_to_engine`, which parks on the engine's queue and writes frames
meanwhile. The pump's state is where its future waits and what the future owns there.

A future may be dropped wherever it waits, and `next_event` called again. A future that
owns a packet or a frame takes it along: it was taken from its queue and is nowhere else.
Two places own nothing, the outer `select!` and the wait for the reply to an outer write.
As long as only these are dropped, nothing is lost and nothing changes its place.
-/

namespace Et

namespace Session

open Client

/-- Session-level events. -/
inductive SessionEvent
  | terminalBuffer (data : Bytes)
  | keepAlive
  | dead (reason : ClientDeadReason)
  | other (p : Packet)
  deriving DecidableEq

/-- `decode` is `TerminalBuffer::decode_from_slice`, reduced to the buffer field. -/
def SessionEvent.fromPacket (decode : Bytes → Option (Option Bytes)) (p : Packet) : SessionEvent :=
  if p.header = Et.terminalBuffer then
    match decode p.payload with
    | some buffer => .terminalBuffer (buffer.getD [])
    | none => .other p
  else if p.header = Et.keepAlive then .keepAlive
  else .other p

def isPortForwardHeader (header : UInt8) : Bool :=
  header = portForwardData || header = portForwardDestinationRequest ||
    header = portForwardDestinationResponse

/-- Where the future of `next_event` waits. The packet is the one that
`deliver_to_engine` holds; without one the place belongs to `next_event` itself. -/
inductive Place
  /-- There is no future. -/
  | idle
  | select
  /-- `client.write` waits for a slot in the command queue. -/
  | submitting (frame : Packet) (packet : Option Packet)
  /-- `client.write` waits for its reply. -/
  | replying (packet : Option Packet)
  /-- The `select!` of `deliver_to_engine`. -/
  | parked (packet : Packet)
  deriving DecidableEq

namespace Place

/-- Behind a write. -/
def resume : Option Packet → Place
  | none => .select
  | some packet => .parked packet

/-- The port-forward packet that the future owns. -/
def packet : Place → List Packet
  | .submitting _ packet | .replying packet => packet.toList
  | .parked packet => [packet]
  | _ => []

/-- The engine's frame that the future owns. -/
def frame : Place → List Packet
  | .submitting frame _ => [frame]
  | _ => []

/-- The future owns nothing. -/
def empty (place : Place) : Bool := place.packet.isEmpty && place.frame.isEmpty

end Place

structure TerminalSession where
  place : Place
  /-- `pf_inbound` is set. -/
  pfInbound : Bool
  /-- `pf_outbound` is set. -/
  pfOutbound : Bool
  /-- The engine still receives. -/
  running : Bool
  /-- `client.session_ended()`. -/
  ended : Bool

inductive PumpAct
  /-- `next_event` is called. -/
  | call
  /-- The future is dropped. -/
  | drop
  /-- `client.next_event()` returns. -/
  | event (e : Option Event)
  /-- `pf_outbound.recv()` returns. -/
  | outbound (frame : Option Packet)
  /-- The command queue takes the write, or is closed. -/
  | submit (ok : Bool)
  | reply
  /-- `engine.reserve()` returns. -/
  | reserve
  /-- The 100 ms of `deliver_to_engine` are over. -/
  | tick
  | startPortForwarding
  | engineStops
  | sessionEnds

/-- What becomes of a packet from the client. -/
inductive Route
  | owner
  | engine
  /-- The session is over, or the engine has stopped. -/
  | nowhere
  deriving DecidableEq

inductive PumpEffect
  | received (p : Packet) (route : Route)
  | returned (e : Option SessionEvent)
  /-- A frame was taken from the engine's queue. -/
  | taken (frame : Packet)
  /-- A frame was submitted to `EtClient::write`. -/
  | submitted (frame : Packet)
  /-- A packet was handed to the engine. -/
  | fed (p : Packet)
  deriving DecidableEq

namespace TerminalSession

/-- An event from the client at the outer `select!`. -/
def received (decode : Bytes → Option (Option Bytes)) (s : TerminalSession) :
    Option Event → TerminalSession × List PumpEffect
  | some (.packet p) =>
      if isPortForwardHeader p.header && s.pfInbound then
        if s.ended then (s, [.received p .nowhere])
        else
          ({ s with place := .parked p }, [.received p (if s.running then .engine else .nowhere)])
      else
        ({ s with place := .idle },
          [.received p .owner, .returned (some (.fromPacket decode p))])
  | some (.dead reason) => ({ s with place := .idle }, [.returned (some (.dead reason))])
  | none => ({ s with place := .idle }, [.returned none])

/-- A frame of the engine, at either `select!`. -/
def outbound (s : TerminalSession) (packet : Option Packet) :
    Option Packet → Option (TerminalSession × List PumpEffect)
  | some frame => some ({ s with place := .submitting frame packet }, [.taken frame])
  | none => if s.running then none else some ({ s with pfOutbound := false }, [])

def step (decode : Bytes → Option (Option Bytes)) (s : TerminalSession) :
    PumpAct → Option (TerminalSession × List PumpEffect)
  | .call => if s.place = .idle then some ({ s with place := .select }, []) else none
  | .drop => if s.place = .idle then none else some ({ s with place := .idle }, [])
  | .event e => if s.place = .select then some (s.received decode e) else none
  | .outbound frame =>
      if s.pfOutbound then
        match s.place with
        | .select => s.outbound none frame
        | .parked packet => s.outbound (some packet) frame
        | _ => none
      else none
  | .submit ok =>
      match s.place with
      | .submitting frame packet =>
          some ({ s with place := if ok then .replying packet else .resume packet },
            [.submitted frame])
      | _ => none
  | .reply =>
      match s.place with
      | .replying packet => some ({ s with place := .resume packet }, [])
      | _ => none
  | .reserve =>
      match s.place with
      | .parked packet =>
          some ({ s with place := .select }, if s.running then [.fed packet] else [])
      | _ => none
  | .tick =>
      match s.place with
      | .parked _ => some (if s.ended then { s with place := .select } else s, [])
      | _ => none
  | .startPortForwarding =>
      if s.place = .idle then
        some (if s.pfInbound then s
          else { s with pfInbound := true, pfOutbound := true, running := true }, [])
      else none
  | .engineStops => some ({ s with running := false }, [])
  | .sessionEnds => some ({ s with ended := true }, [])

/-- A started session without an engine. -/
def started : TerminalSession := ⟨.idle, false, false, false, false⟩

def system (decode : Bytes → Option (Option Bytes)) :
    Transition.System TerminalSession PumpAct PumpEffect where
  start := started
  step := step decode

end TerminalSession

end Session

end Et
