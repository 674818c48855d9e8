import EtClient.Client.Hub
import EtClient.Forward.Engine
import EtClient.Session.Pump

/-!
# A session with its queues

Four tasks work for a session: the pump, which is the future of `next_event`, the
port-forward engine, the reconnect supervisor and the backed actor. Between them stand
five bounded queues: the engine's inbound and outbound queue, the actor's commands, the
actor's events and the client's events.

The pump is the one of `TerminalSession`, the engine that of `Forward.Engine`, and the
supervisor and the actor are those of `Hub`. Here they meet at their queues. A write of
the pump is a call of the client, which waits for a slot and for its reply. The engine
handles one packet or event at a time, and sends the frames of its handler one by one.
Writes to local connections are accepted at once.
-/

namespace Et

namespace Session

open Client Forward

def inboundQueueDepth : Nat := 256
def outboundQueueDepth : Nat := 256

structure Flow where
  hub : Hub
  /-- Where the pump waits. -/
  place : Session.Place
  pfInbound : Bool
  pfOutbound : Bool
  /-- The call whose reply the pump waits for. -/
  awaits : Option Nat
  engine : Engine
  /-- What the pump has handed over and the engine has not taken. -/
  inbound : List Packet
  /-- The frames that the handler of the engine has yet to send. -/
  frames : List Packet
  /-- What the engine has sent and the pump has not taken. -/
  outbound : List Packet

inductive FlowAct
  /-- A step of the actor or the supervisor, or a call of the embedder. -/
  | hub (act : HubAct)
  /-- The embedder calls `next_event`. -/
  | call
  /-- The future is dropped. -/
  | drop
  /-- `client.next_event()` returns. -/
  | event
  /-- `pf_outbound.recv()` returns. -/
  | outbound
  /-- The write of the pump gets its slot, or there is no actor. -/
  | submit
  | reply
  /-- `engine.reserve()` returns. -/
  | reserve
  | tick
  | startPortForwarding (sources : List PortForwardSourceRequest)
  /-- The engine takes a packet of the pump. -/
  | take (chance : Chance)
  /-- The engine takes an event of a local connection. -/
  | handle
  /-- A frame is sent, or abandoned for a shutdown. -/
  | sent (taken : Bool)
  /-- A step of a local connection, or the end of the engine. -/
  | local (act : EngineAct Packet)

namespace Flow

variable (box : SecretBox) (codec : Codec Packet) (decode : Bytes → Option (Option Bytes))

/-- The session as the pump sees it. -/
def session (f : Flow) : TerminalSession :=
  ⟨f.place, f.pfInbound, f.pfOutbound, f.engine.running, f.hub.supervisor = .returned⟩

/-- The pump's part of a step. -/
def pumped (f : Flow) (act : PumpAct) : Option Flow :=
  (f.session.step decode act).map fun (s, _) =>
    { f with place := s.place, pfInbound := s.pfInbound, pfOutbound := s.pfOutbound }

/-- What the pump waits for behind a step of the client. -/
def stillAwaits (f : Flow) (notes : List HubNote) : Option Nat :=
  f.awaits.filter fun call => !notes.any fun
    | .returned call' _ => call = call'
    | _ => false

/-- The events of the client are the pump's, and the embedder holds the session. -/
def leaves : HubAct → Bool
  | .receive | .drop => false
  | _ => true

/-- The connections and the end of the engine; its packets and events are taken by steps of
their own. -/
def isLocal : EngineAct Packet → Bool
  | .event _ | .peer _ _ => false
  | _ => true

def step (f : Flow) : FlowAct → Option Flow
  | .hub act =>
      if leaves act then
        (f.hub.step box act).map fun (hub, notes) =>
          { f with hub := hub, awaits := f.stillAwaits notes }
      else none
  | .call => f.pumped decode .call
  | .drop => (f.pumped decode .drop).map fun f => { f with awaits := none }
  | .event =>
      match f.hub.events with
      | event :: _ =>
          (f.hub.step box .receive).bind fun (hub, _) =>
            { f with hub := hub }.pumped decode (.event (some event))
      | [] => if f.hub.supervisor = .returned then f.pumped decode (.event none) else none
  | .outbound =>
      match f.outbound with
      | frame :: rest => { f with outbound := rest }.pumped decode (.outbound (some frame))
      | [] => f.pumped decode (.outbound none)
  | .submit =>
      match f.place with
      | .submitting frame _ =>
          let call := f.hub.started
          let cmd := Cmd.write call frame.header frame.payload
          (f.hub.step box (.start cmd)).bind fun (hub, _) =>
            if hub.task.pc = .ended then
              (hub.step box (.refuse cmd)).bind fun (hub, _) =>
                { f with hub := hub }.pumped decode (.submit false)
            else
              (hub.step box (.submit cmd)).bind fun (hub, _) =>
                { f with hub := hub, awaits := some call }.pumped decode (.submit true)
      | _ => none
  | .reply => if f.awaits.isNone then f.pumped decode .reply else none
  | .reserve =>
      match f.place with
      | .parked packet =>
          if f.engine.running then
            if f.inbound.length < inboundQueueDepth then
              { f with inbound := f.inbound ++ [packet] }.pumped decode .reserve
            else none
          else f.pumped decode .reserve
      | _ => none
  | .tick => f.pumped decode .tick
  | .startPortForwarding sources =>
      (f.pumped decode .startPortForwarding).map fun f' =>
        if f.pfInbound then
          match f.engine.step codec (.addSources sources) with
          | some (engine, _) => { f' with engine := engine }
          | none => f'
        else
          { f' with
            engine := .spawn sources true
            inbound := []
            frames := []
            outbound := [] }
  | .take chance =>
      match f.frames, f.inbound with
      | [], packet :: rest =>
          (f.engine.step codec (.peer packet chance)).map fun (engine, effects) =>
            { f with
              engine := engine
              inbound := rest
              frames := (sentOf effects).map codec.packet }
      | _, _ => none
  | .handle =>
      match f.frames with
      | [] =>
          (f.engine.step codec (.event [])).map fun (engine, effects) =>
            { f with engine := engine, frames := (sentOf effects).map codec.packet }
      | _ => none
  | .sent taken =>
      match f.frames with
      | frame :: rest =>
          if taken then
            if f.outbound.length < outboundQueueDepth then
              some { f with frames := rest, outbound := f.outbound ++ [frame] }
            else none
          else if f.engine.shutdown then some { f with frames := rest } else none
      | [] => none
  | .local act =>
      if isLocal act then
        match act, f.frames with
        -- The loop of the engine ends at its `select!`, and its queue goes with it.
        | .stop, [] =>
            (f.engine.step codec .stop).map fun (engine, _) =>
              { f with engine := engine, inbound := [] }
        | .stop, _ => none
        | act, _ => (f.engine.step codec act).map fun (engine, _) => { f with engine := engine }
      else none

/-- A connected session without an engine. -/
def started (cfg : Backed.BackedConfig) (now : Backed.Instant) : Flow where
  hub := .connected cfg now
  place := .idle
  pfInbound := false
  pfOutbound := false
  awaits := none
  engine := { Engine.spawn [] true with running := false }
  inbound := []
  frames := []
  outbound := []

def system (cfg : Backed.BackedConfig) (now : Backed.Instant) :
    Transition.System Flow FlowAct Unit where
  start := started cfg now
  step f act := (f.step box codec decode act).map fun f => (f, [])

end Flow

end Session

end Et
