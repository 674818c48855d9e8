import EtClient.Backed.History
import EtClient.Backed.Link

/-!
# The reconnect supervisor

The supervisor owns the actor's event queue. It hands packets on to the owner of the
client, and on `SocketDown` it dials until a recover succeeds or the session is over.
Its state is the place where its task waits; the actor, its peer and the sockets between
them take their steps meanwhile.

Two steps of the actor depend on it. A recover is served only when the supervisor has
sent the command, and the event queue loses its receiver only when the supervisor's task
has returned.
-/

namespace Et

namespace Client

open Backed

inductive ClientDeadReason
  | invalidKey
  | serverStateLost
  | other (reason : DeadReason)
  deriving DecidableEq

/-- What the client sends its owner. -/
inductive Event
  | packet (p : Packet)
  | dead (reason : ClientDeadReason)
  deriving DecidableEq

/-- What `handshake_request` comes back with; `failed` is every error but an
`INVALID_KEY` rejection. -/
inductive Handshake
  | newClient
  | returning (stream : SocketId)
  | invalidKey
  | failed

/-- Where the supervisor's task waits. -/
inductive Supervisor
  /-- The outer `select!`. -/
  | watching
  /-- The send of `Event::Packet`. -/
  | forwarding (p : Packet)
  /-- The handshake of the inner loop. -/
  | dialing
  /-- The recover command is in the actor's queue. -/
  | recovering (stream : SocketId)
  /-- The actor serves it. -/
  | awaiting
  /-- `RECONNECT_DELAY`. -/
  | sleeping
  /-- The send of `Event::Dead`, and whether a shutdown follows it. -/
  | reporting (reason : ClientDeadReason) (shutdown : Bool)
  | shuttingDown
  | returned
  deriving DecidableEq

structure EtClient where
  world : World
  /-- What the actor has sent and the supervisor has not received. -/
  events : List BackedEvent
  supervisor : Supervisor

/-- An effect of the actor, or an event for the owner. -/
inductive Note
  | backed (e : Effect)
  | event (e : Event)

inductive ClientAct
  | world (act : WorldAct)
  /-- `backed_events.recv()` returns. -/
  | recv
  /-- `events_tx.closed()` returns. -/
  | ownerGone
  /-- A send to the owner ends; `taken` says whether the owner is still there. -/
  | sent (taken : Bool)
  | handshake (outcome : Handshake)
  /-- The actor ended with the recover command in its queue. -/
  | recoverLost
  | slept
  | shutdownSent

namespace Supervisor

/-- The steps of the actor that the supervisor has to allow. -/
def permits (supervisor : Supervisor) : WorldAct → Bool
  | .actor (.recover stream) => supervisor = .recovering stream
  | .actor .dropConsumer => supervisor = .returned
  | _ => true

/-- A served recover is awaited; its reply ends the inner loop or goes to sleep. -/
def after (supervisor : Supervisor) (act : WorldAct) (effects : List Effect) : Supervisor :=
  match act with
  | .actor (.recover _) => .awaiting
  | _ =>
      if .recovered true ∈ effects then .watching
      else if .recovered false ∈ effects then .sleeping
      else supervisor

/-- The event that `recv` yields at the outer `select!`. -/
def receive : BackedEvent → Supervisor
  | .packet p => .forwarding p
  | .socketDown => .dialing
  | .dead reason => .reporting (.other reason) false

/-- What the inner loop makes of a handshake. -/
def dialed : Handshake → Supervisor
  | .returning stream => .recovering stream
  | .newClient => .reporting .serverStateLost true
  | .invalidKey => .reporting .invalidKey true
  | .failed => .sleeping

end Supervisor

namespace EtClient

/-- One step of the supervisor, the actor or the peer. -/
def step (box : SecretBox) (cfg : BackedConfig) (s : EtClient) :
    ClientAct → Option (EtClient × List Note)
  | .world act =>
      if s.supervisor.permits act then
        (s.world.step box cfg act).map fun (world, effects) =>
          (⟨world, s.events ++ eventsOf effects, s.supervisor.after act effects⟩,
            effects.map .backed)
      else none
  | .recv =>
      match s.supervisor, s.events with
      | .watching, event :: rest =>
          some ({ s with events := rest, supervisor := .receive event }, [])
      | .watching, [] =>
          -- Every sender is gone.
          if s.world.task.pc = .ended then some ({ s with supervisor := .returned }, []) else none
      | _, _ => none
  | .ownerGone =>
      match s.supervisor with
      | .watching | .dialing => some ({ s with supervisor := .returned }, [])
      | _ => none
  | .sent taken =>
      match s.supervisor with
      | .forwarding p =>
          if taken then some ({ s with supervisor := .watching }, [.event (.packet p)])
          else some ({ s with supervisor := .returned }, [])
      | .reporting reason shutdown =>
          some ({ s with supervisor := if shutdown then .shuttingDown else .returned },
            if taken then [.event (.dead reason)] else [])
      | _ => none
  | .handshake outcome =>
      match s.supervisor with
      | .dialing => some ({ s with supervisor := .dialed outcome }, [])
      | _ => none
  | .recoverLost =>
      match s.supervisor with
      | .recovering _ =>
          if s.world.task.pc = .ended then some ({ s with supervisor := .sleeping }, []) else none
      | _ => none
  | .slept =>
      match s.supervisor with
      | .sleeping => some ({ s with supervisor := .dialing }, [])
      | _ => none
  | .shutdownSent =>
      match s.supervisor with
      | .shuttingDown => some ({ s with supervisor := .returned }, [])
      | _ => none

/-- `EtClient::connect_with` behind a handshake that answered `NEW_CLIENT`. -/
def connected (cfg : BackedConfig) (now : Instant) : EtClient :=
  ⟨World.opening cfg now, [], .watching⟩

def system (box : SecretBox) (cfg : BackedConfig) (now : Instant) :
    Transition.System EtClient ClientAct Note where
  start := connected cfg now
  step := step box cfg

end EtClient

/-- The actor's part of a history. -/
def backedOf (log : List Note) : List Effect :=
  log.filterMap fun
    | .backed e => some e
    | .event _ => none

/-- The packets the owner was sent, in order. -/
def forwardedOf (log : List Note) : List Packet :=
  log.filterMap fun
    | .event (.packet p) => some p
    | _ => none

@[simp] theorem backedOf_append (a b : List Note) : backedOf (a ++ b) = backedOf a ++ backedOf b :=
  List.filterMap_append

@[simp] theorem forwardedOf_append (a b : List Note) :
    forwardedOf (a ++ b) = forwardedOf a ++ forwardedOf b := List.filterMap_append

@[simp] theorem backedOf_backed (effects : List Effect) :
    backedOf (effects.map .backed) = effects := by
  rw [backedOf, List.filterMap_map]
  exact List.filterMap_some

@[simp] theorem forwardedOf_backed (effects : List Effect) :
    forwardedOf (effects.map .backed) = [] := by
  rw [forwardedOf, List.filterMap_map]
  exact List.filterMap_eq_nil_iff.mpr fun _ _ => rfl

namespace EtClient

/-- What each action does. -/
inductive Moves (box : SecretBox) (cfg : BackedConfig) (s : EtClient) :
    ClientAct → EtClient → List Note → Prop
  | world (act : WorldAct) (world : World) (effects : List Effect) :
      s.supervisor.permits act = true → s.world.step box cfg act = some (world, effects) →
      Moves box cfg s (.world act)
        ⟨world, s.events ++ eventsOf effects, s.supervisor.after act effects⟩
        (effects.map .backed)
  | recv (event : BackedEvent) (rest : List BackedEvent) : s.supervisor = .watching →
      s.events = event :: rest →
      Moves box cfg s .recv { s with events := rest, supervisor := .receive event } []
  | closed : s.supervisor = .watching → s.events = [] → s.world.task.pc = .ended →
      Moves box cfg s .recv { s with supervisor := .returned } []
  | ownerGone : s.supervisor = .watching ∨ s.supervisor = .dialing →
      Moves box cfg s .ownerGone { s with supervisor := .returned } []
  | forwarded (p : Packet) : s.supervisor = .forwarding p →
      Moves box cfg s (.sent true) { s with supervisor := .watching } [.event (.packet p)]
  | refused (p : Packet) : s.supervisor = .forwarding p →
      Moves box cfg s (.sent false) { s with supervisor := .returned } []
  | reported (reason : ClientDeadReason) (shutdown taken : Bool) :
      s.supervisor = .reporting reason shutdown →
      Moves box cfg s (.sent taken)
        { s with supervisor := if shutdown then .shuttingDown else .returned }
        (if taken then [.event (.dead reason)] else [])
  | handshake (outcome : Handshake) : s.supervisor = .dialing →
      Moves box cfg s (.handshake outcome) { s with supervisor := .dialed outcome } []
  | recoverLost (stream : SocketId) : s.supervisor = .recovering stream →
      s.world.task.pc = .ended →
      Moves box cfg s .recoverLost { s with supervisor := .sleeping } []
  | slept : s.supervisor = .sleeping → Moves box cfg s .slept { s with supervisor := .dialing } []
  | shutdownSent : s.supervisor = .shuttingDown →
      Moves box cfg s .shutdownSent { s with supervisor := .returned } []

variable {box : SecretBox} {cfg : BackedConfig} {s s' : EtClient} {act : ClientAct}
variable {notes : List Note}

theorem step_moves (stepped : s.step box cfg act = some (s', notes)) :
    Moves box cfg s act s' notes := by
  cases act with
  | world inner =>
      simp only [step] at stepped
      split at stepped
      · obtain ⟨⟨world, effects⟩, taken, done⟩ := Option.map_eq_some_iff.mp stepped
        cases done
        exact .world inner world effects ‹_› taken
      · cases stepped
  | recv =>
      simp only [step] at stepped
      split at stepped
      · cases stepped
        exact .recv _ _ ‹_› ‹_›
      · split at stepped <;> cases stepped
        exact .closed ‹_› ‹_› ‹_›
      · cases stepped
  | ownerGone =>
      simp only [step] at stepped
      split at stepped <;> cases stepped
      · exact .ownerGone (.inl ‹_›)
      · exact .ownerGone (.inr ‹_›)
  | sent taken =>
      simp only [step] at stepped
      split at stepped
      · cases taken with
        | true =>
            cases stepped
            exact .forwarded _ ‹_›
        | false =>
            cases stepped
            exact .refused _ ‹_›
      · cases stepped
        exact .reported _ _ taken ‹_›
      · cases stepped
  | handshake outcome =>
      simp only [step] at stepped
      split at stepped <;> cases stepped
      exact .handshake outcome ‹_›
  | recoverLost =>
      simp only [step] at stepped
      split at stepped
      · split at stepped <;> cases stepped
        exact .recoverLost _ ‹_› ‹_›
      · cases stepped
  | slept =>
      simp only [step] at stepped
      split at stepped <;> cases stepped
      exact .slept ‹_›
  | shutdownSent =>
      simp only [step] at stepped
      split at stepped <;> cases stepped
      exact .shutdownSent ‹_›

/-- A step of the actor or the peer, or one of the supervisor, which touches neither. -/
theorem step_world (stepped : s.step box cfg act = some (s', notes)) :
    (∃ inner effects, s.world.step box cfg inner = some (s'.world, effects) ∧
        notes = effects.map .backed) ∨
      (s'.world = s.world ∧ backedOf notes = []) := by
  cases step_moves stepped with
  | world inner _ effects _ taken => exact .inl ⟨inner, effects, taken, rfl⟩
  | reported _ _ taken => exact .inr ⟨rfl, by cases taken <;> rfl⟩
  | recv | closed | ownerGone | forwarded | refused | handshake | recoverLost | slept
  | shutdownSent => exact .inr ⟨rfl, rfl⟩

end EtClient

end Client

end Et
