import EtClient.Backed.Actor
import EtClient.Lib.Transition

/-!
# The actor's task

`run` is a loop around a `select!`, and it waits in further places: inside
`send_event`, where commands are served while the event queue is full, inside the
recover exchange, and in the two bounded sends of a `Dead` event. The task's state
is the actor together with the place where it stands. An action is what happens
there: a command, a frame, a tick, the event queue taking an event, one step of an
exchange. Any order in which the actions are possible is a run.

Code between two waits takes a step of its own, so a run may be interrupted where
the source is not; the source's runs are among them.
-/

namespace Et

namespace Backed

/-- Where the task stands. -/
inductive Pc
  /-- The `select!` of `run`. -/
  | select
  /-- An arm of the `select!` has run, the tests behind it have not. -/
  | armDone
  /-- `send_event(SocketDown)`. -/
  | notify
  /-- The head of the loop in `deliver_inbox`. -/
  | deliver
  /-- `send_event(Packet)` inside `deliver_inbox`. -/
  | sending (p : Packet)
  /-- The bounded send of `die_crypto_mismatch`. -/
  | dying
  /-- Behind the loop of `run`. -/
  | closing
  | ended
  deriving DecidableEq

/-- The four steps of `recover_timed_actor`. -/
inductive Phase
  | writeSequence
  | readSequence
  | writeCatchup (ours : CatchupBuffer)
  | readCatchup
  deriving DecidableEq

/-- A recover exchange under way on `stream`; `old` is the socket it took out. -/
structure Exchange where
  stream : SocketId
  old : Option SocketId
  phase : Phase
  deriving DecidableEq

structure Task where
  actor : Actor
  pc : Pc
  exchange : Option Exchange
  /-- The receiver of the event channel still exists. -/
  consumer : Bool

inductive Act
  /-- `Cmd::Write`; `accepts` is the answer of `try_send`. -/
  | write (now : Instant) (accepts : Bool) (header : UInt8) (payload : Bytes)
  | killSocket
  | recover (stream : SocketId)
  /-- `Cmd::Shutdown`, or every handle is dropped. -/
  | shutdown
  /-- The reader task's queue yields a frame. -/
  | frame (bytes : Bytes)
  /-- The reader task's queue yields an error or its end. -/
  | socketLost
  | tick (now : Instant) (accepts : Bool)
  | settle
  /-- The event queue takes the event of `send_event`. -/
  | send
  /-- `send_event` finds the receiver gone. -/
  | sendFails
  | deliver (now : Instant)
  /-- A bounded send of `Dead` ends; `taken` says whether in time. -/
  | sendDead (taken : Bool)
  | finish (taken : Bool)
  | sequenceSent
  | sequenceRead (remote : SequenceHeader)
  | catchupSent
  | catchupRead (now : Instant) (theirs : CatchupBuffer)
  | exchangeFails
  | dropConsumer

/-- Whether the write queue takes the frame that the action may produce. -/
def Act.accepts : Act → Bool
  | .write _ accepts _ _ | .tick _ accepts => accepts
  | _ => false

namespace Task

/-- The current socket, or the one that an exchange has set aside. -/
def socket (t : Task) : Option SocketId :=
  match t.exchange with
  | some e => e.old
  | none => t.actor.live

/-- Commands are taken at the `select!` and inside `send_event`. -/
def serves (t : Task) : Bool :=
  t.exchange.isNone && match t.pc with
    | .select | .notify | .sending _ => true
    | _ => false

/-- Behind `handle_cmd`: the `select!` arm is done; `send_event` goes on, or gives
up when the command ended the session. -/
def served (t : Task) (actor : Actor) : Task :=
  { t with
    actor := actor
    exchange := none
    pc := match t.pc with
      | .select => .armDone
      | pc => if actor.shuttingDown then .closing else pc }

/-- The tests behind the `select!`. -/
def settled (t : Task) : Task :=
  if t.actor.shuttingDown then { t with pc := .closing }
  else if t.actor.socketDownPending then
    { t with actor := { t.actor with socketDownPending := false }, pc := .notify }
  else { t with pc := .deliver }

/-- A failed exchange puts the old socket back. -/
def restored (t : Task) (e : Exchange) : Task :=
  t.served { t.actor with live := e.old }

/-- The event a place inside `send_event` is sending. -/
def outgoing (t : Task) : Option BackedEvent :=
  match t.pc with
  | .notify => some .socketDown
  | .sending p => some (.packet p)
  | _ => none

/-- One round of the delivery loop, and where it leaves the task. -/
def delivered (box : SecretBox) (now : Instant) (t : Task) : Task × List Effect :=
  match t.actor.deliverOne box now with
  | (actor, .drained, effects) =>
      ({ t with actor := actor, pc := if actor.shuttingDown then .closing else .select }, effects)
  | (actor, .mismatch, effects) => ({ t with actor := actor, pc := .dying }, effects)
  | (actor, .packet p, effects) => ({ t with actor := actor, pc := .sending p }, effects)

/-- A step of the exchange that is under way. -/
def exchangeStep (t : Task) (e : Exchange) : Act → Option (Task × List Effect)
  | .sequenceSent =>
      match e.phase with
      | .writeSequence =>
          some ({ t with exchange := some { e with phase := .readSequence } },
            [.sentSequence e.stream t.actor.sequenceHeader])
      | _ => none
  | .sequenceRead remote =>
      match e.phase with
      | .readSequence =>
          match t.actor.catchup remote with
          | .ok ours =>
              some ({ t with exchange := some { e with phase := .writeCatchup ours } }, [])
          | .error _ => some (t.restored e, [.recovered false])
      | _ => none
  | .catchupSent =>
      match e.phase with
      | .writeCatchup ours =>
          some ({ t with exchange := some { e with phase := .readCatchup } },
            [.sentCatchup e.stream ours])
      | _ => none
  | .catchupRead now theirs =>
      match e.phase with
      | .readCatchup =>
          -- `read_frame_idle` refuses a frame above its cap.
          if theirs.encodedLen ≤ defaultMaxProtoLength then
            some (t.served (t.actor.revive now e.stream theirs.buffer), [.recovered true])
          else some (t.restored e, [.recovered false])
      | _ => none
  | .exchangeFails => some (t.restored e, [.recovered false])
  | _ => none

/-- One action of the task, where it is possible. -/
def step (box : SecretBox) (t : Task) : Act → Option (Task × List Effect)
  | .write now accepts header payload =>
      if t.serves then
        let (actor, _, effects) := t.actor.write box now accepts header payload
        some (t.served actor, effects)
      else none
  | .killSocket => if t.serves then some (t.served t.actor.closeCurrentSocket, []) else none
  | .recover stream =>
      if t.serves then
        some ({ t with
          actor := { t.actor with live := none }
          exchange := some ⟨stream, t.actor.live, .writeSequence⟩ }, [])
      else none
  | .shutdown =>
      if t.serves then some (t.served { t.actor with shuttingDown := true }, []) else none
  | .frame bytes =>
      if t.pc = .select ∧ t.exchange = none ∧ t.actor.live.isSome then
        some ({ t with
          actor := { t.actor with inbox := t.actor.inbox ++ [bytes] }
          pc := .armDone }, [])
      else none
  | .socketLost =>
      if t.pc = .select ∧ t.exchange = none ∧ t.actor.live.isSome then
        some ({ t with actor := t.actor.closeCurrentSocket, pc := .armDone }, [])
      else none
  | .tick now accepts =>
      if t.pc = .select ∧ t.exchange = none then
        let (actor, effects) := t.actor.keepaliveTick box now accepts
        some ({ t with actor := actor, pc := .armDone }, effects)
      else none
  | .settle => if t.pc = .armDone then some (t.settled, []) else none
  | .send =>
      if t.exchange = none ∧ t.consumer then
        t.outgoing.map fun e => ({ t with pc := .deliver }, [.event e])
      else none
  | .sendFails =>
      if t.exchange = none ∧ t.consumer = false then
        match t.pc with
        | .notify => some ({ t with pc := .closing }, [])
        | .sending _ => some ({ t with pc := .select }, [])
        | _ => none
      else none
  | .deliver now => if t.pc = .deliver then some (t.delivered box now) else none
  | .sendDead taken =>
      if t.pc = .dying then
        some ({ t with pc := .closing },
          if taken && t.consumer then [.event (.dead .cryptoMismatch)] else [])
      else none
  | .finish taken =>
      if t.pc = .closing then
        some ({ t with actor := { t.actor with live := none }, pc := .ended },
          if !t.actor.deadSent && taken && t.consumer then [.event (.dead .shutdown)] else [])
      else none
  | .dropConsumer => some ({ t with consumer := false }, [])
  | act => t.exchange.bind fun e => t.exchangeStep e act

/-- `BackedHandle::spawn` on an already handshaked socket. -/
def spawn (cfg : BackedConfig) (now : Instant) (stream : SocketId) : Task where
  actor := { Actor.new cfg now with live := some stream }
  pc := .select
  exchange := none
  consumer := true

/-- The runs of one actor, with whatever the environment answers. -/
def system (box : SecretBox) (cfg : BackedConfig) (now : Instant) :
    Transition.System Task Act Effect where
  start := spawn cfg now 0
  step := step box

end Task

end Backed

end Et
