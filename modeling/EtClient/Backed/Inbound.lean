import EtClient.Backed.Sockets
import EtClient.Backed.Stream

/-!
# The actor behind its reader task

The world here is the actor's task together with what the sockets bring to it. The reader
task of the current socket queues the frames it reads, one after the other, also while an
exchange has set that socket aside; it stops at an error. The task takes the oldest frame
first. An exchange goes over the bytes of its stream, and what it reads there decides which
of the task's steps is taken.

The clock of the world never goes back, and every effect is stamped with it.
-/

namespace Et

namespace Backed

structure Inbound where
  task : Task
  /-- What the reader task of a socket has queued; `none` is an error. -/
  ioRx : SocketId → List (Option Bytes)
  /-- The stream of the exchange under way. -/
  io : Stream
  /-- The actor has been given this socket before. -/
  dialed : SocketId → Bool
  clock : Instant

inductive InboundAct
  /-- An action of the task that is no part of an exchange. -/
  | actor (now : Instant) (act : Act)
  /-- `Cmd::Recover`, with what its stream will do. -/
  | recover (now : Instant) (stream : SocketId) (io : Stream)
  /-- The next read or write of the exchange ends. -/
  | exchange (now : Instant)
  /-- The reader task of the current socket queues what it has read. -/
  | arrive (now : Instant) (socket : SocketId) (item : Option Bytes)

inductive InboundEffect
  | did (now : Instant) (effect : Effect)
  | arrived (now : Instant) (socket : SocketId) (item : Option Bytes)
  deriving DecidableEq

def InboundAct.now : InboundAct → Instant
  | .actor now _ | .recover now _ _ | .exchange now | .arrive now _ _ => now

/-- The clock reading of an action that takes one. -/
def Act.now? : Act → Option Instant
  | .write now _ _ _ | .tick now _ | .deliver now | .catchupRead now _ => some now
  | _ => none

namespace Inbound

/-- An action finds what the reader task has queued. The channel also ends when that
task is gone. -/
def offers (w : Inbound) (now : Instant) : Act → Bool
  | .frame bytes =>
      match w.task.actor.live with
      | some socket => (w.ioRx socket).head? = some (some bytes)
      | none => false
  | .socketLost =>
      match w.task.actor.live with
      | some socket => w.ioRx socket = [] || (w.ioRx socket).head? = some none
      | none => false
  | .recover _ | .sequenceSent | .sequenceRead _ | .catchupSent | .catchupRead _ _
  | .exchangeFails => false
  | act => act.now?.all (· = now)

/-- The oldest frame leaves the queue. -/
def taking (w : Inbound) : Act → SocketId → List (Option Bytes)
  | .frame _ =>
      match w.task.actor.live with
      | some socket => Function.update w.ioRx socket (w.ioRx socket).tail
      | none => w.ioRx
  | _ => w.ioRx

/-- What the next read or write of the exchange comes to. -/
def exchangeAct (codec : HandshakeCodec) (w : Inbound) (e : Exchange) (now : Instant) :
    Act × Stream :=
  match e.phase with
  | .writeSequence =>
      match w.io.writeFrameIdle (codec.encodeSequence w.task.actor.sequenceHeader) with
      | .ok io => (.sequenceSent, io)
      | .error _ => (.exchangeFails, w.io)
  | .readSequence =>
      match codec.readSequence w.io with
      | .ok (remote, io) => (.sequenceRead remote, io)
      | .error _ => (.exchangeFails, w.io)
  | .writeCatchup ours =>
      match w.io.writeFrameIdle (codec.encodeCatchup ours) with
      | .ok io => (.catchupSent, io)
      | .error _ => (.exchangeFails, w.io)
  | .readCatchup =>
      match codec.readCatchup w.io with
      | .ok (theirs, io) => (.catchupRead now theirs, io)
      | .error _ => (.exchangeFails, w.io)

def act (box : SecretBox) (codec : HandshakeCodec) (w : Inbound) :
    InboundAct → Option (Inbound × List InboundEffect)
  | .actor now act =>
      if w.offers now act then
        (w.task.step box act).map fun (task, effects) =>
          ({ w with task := task, ioRx := w.taking act }, effects.map (.did now))
      else none
  | .recover now stream io =>
      if w.dialed stream then none
      else
        (w.task.step box (.recover stream)).map fun (task, effects) =>
          ({ w with task := task, io := io, dialed := Function.update w.dialed stream true },
            effects.map (.did now))
  | .exchange now =>
      w.task.exchange.bind fun e =>
        let (act, io) := w.exchangeAct codec e now
        (w.task.step box act).map fun (task, effects) =>
          ({ w with task := task, io := io }, effects.map (.did now))
  | .arrive now socket item =>
      if w.task.socket = some socket ∧ none ∉ w.ioRx socket ∧
          (w.ioRx socket).length < writeQueueDepth then
        some ({ w with ioRx := Function.update w.ioRx socket (w.ioRx socket ++ [item]) },
          [.arrived now socket item])
      else none

/-- One action, at a clock that has not gone back. -/
def step (box : SecretBox) (codec : HandshakeCodec) (w : Inbound) (a : InboundAct) :
    Option (Inbound × List InboundEffect) :=
  if w.clock ≤ a.now then
    (w.act box codec a).map fun (w, notes) => ({ w with clock := a.now }, notes)
  else none

def system (box : SecretBox) (codec : HandshakeCodec) (cfg : BackedConfig) (now : Instant) :
    Transition.System Inbound InboundAct InboundEffect where
  start :=
    { task := Task.spawn cfg now 0
      ioRx := fun _ => []
      io := .stalled
      dialed := fun socket => socket = 0
      clock := now }
  step := step box codec

/-- What each action does. -/
inductive Moves (box : SecretBox) (codec : HandshakeCodec) (w : Inbound) :
    InboundAct → Inbound → List InboundEffect → Prop
  | actor (now : Instant) (act : Act) (task : Task) (effects : List Effect) :
      w.offers now act = true → w.task.step box act = some (task, effects) →
      Moves box codec w (.actor now act)
        { w with task := task, ioRx := w.taking act, clock := now } (effects.map (.did now))
  | recover (now : Instant) (stream : SocketId) (io : Stream) (task : Task)
      (effects : List Effect) : w.dialed stream = false →
      w.task.step box (.recover stream) = some (task, effects) →
      Moves box codec w (.recover now stream io)
        { w with
          task := task
          io := io
          dialed := Function.update w.dialed stream true
          clock := now } (effects.map (.did now))
  | exchange (now : Instant) (e : Exchange) (act : Act) (io : Stream) (task : Task)
      (effects : List Effect) : w.task.exchange = some e →
      w.exchangeAct codec e now = (act, io) → w.task.step box act = some (task, effects) →
      Moves box codec w (.exchange now) { w with task := task, io := io, clock := now }
        (effects.map (.did now))
  | arrive (now : Instant) (socket : SocketId) (item : Option Bytes) :
      w.task.socket = some socket →
      Moves box codec w (.arrive now socket item)
        { w with ioRx := Function.update w.ioRx socket (w.ioRx socket ++ [item]), clock := now }
        [.arrived now socket item]

variable {box : SecretBox} {codec : HandshakeCodec} {w w' : Inbound} {a : InboundAct}
  {notes : List InboundEffect}

theorem step_moves (stepped : w.step box codec a = some (w', notes)) :
    w.clock ≤ a.now ∧ w'.clock = a.now ∧ Moves box codec w a w' notes := by
  rw [step] at stepped
  split at stepped
  · rename_i later
    obtain ⟨⟨w', notes⟩, acted, done⟩ := Option.map_eq_some_iff.mp stepped
    cases done
    refine ⟨later, rfl, ?_⟩
    cases a with
    | actor now act =>
        simp only [Inbound.act] at acted
        split at acted
        · obtain ⟨⟨task, effects⟩, taken, done⟩ := Option.map_eq_some_iff.mp acted
          cases done
          exact .actor now act task effects ‹_› taken
        · cases acted
    | recover now stream io =>
        simp only [Inbound.act] at acted
        split at acted
        · cases acted
        · obtain ⟨⟨task, effects⟩, taken, done⟩ := Option.map_eq_some_iff.mp acted
          cases done
          exact .recover now stream io task effects (Bool.eq_false_of_not_eq_true ‹_›) taken
    | exchange now =>
        obtain ⟨e, under, inner⟩ := Option.bind_eq_some_iff.mp acted
        obtain ⟨⟨task, effects⟩, taken, done⟩ := Option.map_eq_some_iff.mp inner
        cases done
        exact .exchange now e _ _ task effects under rfl taken
    | arrive now socket item =>
        simp only [Inbound.act] at acted
        split at acted <;> cases acted
        obtain ⟨current, _, _⟩ := ‹_ ∧ _ ∧ _›
        exact .arrive now socket item current
  · cases stepped

/-- A step of the world is an arrival or a step of the task. -/
theorem Moves.task (moves : Moves box codec w a w' notes) :
    w'.task = w.task ∨ ∃ act effects, w.task.step box act = some (w'.task, effects) := by
  cases moves with
  | arrive => exact .inl rfl
  | actor _ act task effects _ taken | recover _ _ _ task effects _ taken
  | exchange _ _ act _ task effects _ _ taken => exact .inr ⟨_, effects, taken⟩

/-- The task of a run is the task of a run. -/
theorem task_reachable {cfg : BackedConfig} {start : Instant}
    {allowed : List InboundEffect → Inbound → InboundAct → Prop} {log : List InboundEffect}
    (run : (system box codec cfg start).Reaches allowed log w) :
    ∃ log', (Task.system box cfg start).Reachable log' w.task := by
  induction run with
  | start => exact ⟨[], .start⟩
  | next a _ _ stepped ih =>
      obtain ⟨log', before⟩ := ih
      obtain ⟨-, -, moves⟩ := step_moves stepped
      rcases moves.task with same | ⟨act, effects, taken⟩
      · rw [same]
        exact ⟨log', before⟩
      · exact ⟨_, before.next act trivial taken⟩

end Inbound

end Backed

end Et
