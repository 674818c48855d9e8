import EtClient.Backed.Moves
import EtClient.Client.Supervisor

/-!
# The client and its queues

Three tasks make a client: the owner, which writes and takes events, the supervisor, and
the actor. Between them stand three bounded queues. Commands go from the owner and from
the supervisor to the actor, the actor's events to the supervisor, and the client's events
to the owner. A task that finds a queue full waits for a slot.

The supervisor is the one of `EtClient`, now with its queues: `recovering` is its wait for
a slot in the command queue, and `awaiting` the wait for the reply. A write is known by the
number of its call. The network, the clock and the peer answer in any way.
-/

namespace Et

namespace Client

open Backed

def cmdQueueDepth : Nat := 64
def eventQueueDepth : Nat := 1024
def clientQueueDepth : Nat := 1024

inductive Cmd
  | write (call : Nat) (header : UInt8) (payload : Bytes)
  | killSocket
  | recover (stream : SocketId)
  | shutdown
  deriving DecidableEq

/-- The call whose reply the command carries. -/
def Cmd.call? : Cmd → Option Nat
  | .write call _ _ => some call
  | _ => none

structure Hub where
  task : Backed.Task
  /-- The actor's commands, oldest first. -/
  cmds : List Cmd
  /-- What the actor has sent and the supervisor has not received. -/
  backedEvents : List BackedEvent
  supervisor : Supervisor
  /-- What the supervisor has sent and the owner has not received. -/
  events : List Event
  /-- The owner's commands that wait for a slot. -/
  calls : List Cmd
  /-- How many writes the owner has started. -/
  started : Nat
  /-- The owner holds the client. -/
  owner : Bool

inductive HubAct
  | actor (act : Act)
  /-- `backed_events.recv()` returns. -/
  | recv
  /-- `events_tx.closed()` returns. -/
  | ownerGone
  /-- A send to the owner ends. -/
  | sent
  | handshake (outcome : Handshake)
  /-- The recover command gets its slot. -/
  | asked
  /-- The actor ended with the recover command. -/
  | recoverLost
  | slept
  /-- The shutdown command of the supervisor gets its slot, or there is no actor. -/
  | shutdownSent
  /-- The owner calls `write`, `kill_socket` or `shutdown`. -/
  | start (cmd : Cmd)
  /-- A command of the owner gets its slot. -/
  | submit (cmd : Cmd)
  /-- A command of the owner finds no actor. -/
  | refuse (cmd : Cmd)
  /-- A command is dropped with the actor's queue. -/
  | lose
  /-- `next_event` returns an event. -/
  | receive
  /-- The owner drops the client. -/
  | drop

inductive HubNote
  | backed (effect : Effect)
  | started (call : Nat)
  /-- A write returned; `none` is `Ok(())`. -/
  | returned (call : Nat) (failure : Option WriteError)
  | received (event : Event)
  /-- `handshake_request` was called by the inner loop. -/
  | dials
  deriving DecidableEq

namespace Hub

/-- What an action of the actor finds in the queues. The command queue ends when every
handle is dropped. -/
def offers (h : Hub) : Act → Bool
  | .write _ _ header payload =>
      match h.cmds with
      | .write _ header' payload' :: _ => header = header' && payload = payload'
      | _ => false
  | .killSocket => h.cmds.head? = some .killSocket
  | .recover stream => h.cmds.head? = some (.recover stream)
  | .shutdown =>
      h.cmds.head? = some .shutdown || h.cmds.isEmpty && !h.owner && h.supervisor = .returned
  | .send => h.backedEvents.length < eventQueueDepth
  | .sendDead taken | .finish taken => !taken || h.backedEvents.length < eventQueueDepth
  | .dropConsumer => h.supervisor = .returned
  | _ => true

/-- The commands behind an action. -/
def taking (h : Hub) : Act → List Cmd
  | .write _ _ _ _ | .killSocket | .recover _ | .shutdown => h.cmds.tail
  | _ => h.cmds

/-- The reply of a write that was served. -/
def replies (h : Hub) : Act → List Effect → List HubNote
  | .write _ _ _ _, effects =>
      (h.cmds.head?.bind Cmd.call?).toList.flatMap fun call =>
        effects.filterMap fun
          | .wrote failure => some (.returned call failure)
          | _ => none
  | _, _ => []

/-- The supervisor has entered the handshake of its inner loop, or not. -/
def entering (supervisor : Supervisor) : List HubNote :=
  if supervisor = .dialing then [.dials] else []

/-- Every call of the owner has returned. -/
def quiet (h : Hub) : Bool := h.calls.isEmpty && h.cmds.all fun cmd => cmd.call?.isNone

/-- The owner may start this call next. -/
def starts (h : Hub) : Cmd → Bool
  | .write call _ _ => call = h.started
  | .recover _ => false
  | .killSocket | .shutdown => true

def step (box : SecretBox) (h : Hub) : HubAct → Option (Hub × List HubNote)
  | .actor act =>
      if h.offers act then
        (h.task.step box act).map fun (task, effects) =>
          ({ h with
              task := task
              cmds := h.taking act
              backedEvents := h.backedEvents ++ eventsOf effects
              supervisor := h.supervisor.after (.actor act) effects },
            effects.map .backed ++ h.replies act effects)
      else none
  | .recv =>
      match h.supervisor, h.backedEvents with
      | .watching, event :: rest =>
          some ({ h with backedEvents := rest, supervisor := .receive event },
            entering (.receive event))
      | .watching, [] =>
          -- Every sender is gone.
          if h.task.pc = .ended then some ({ h with supervisor := .returned }, []) else none
      | _, _ => none
  | .ownerGone =>
      if h.owner then none
      else
        match h.supervisor with
        | .watching | .dialing => some ({ h with supervisor := .returned }, [])
        | _ => none
  | .sent =>
      match h.supervisor with
      | .forwarding p =>
          if h.owner then
            if h.events.length < clientQueueDepth then
              some ({ h with events := h.events ++ [.packet p], supervisor := .watching }, [])
            else none
          else some ({ h with supervisor := .returned }, [])
      | .reporting reason shutdown =>
          let next := if shutdown then Supervisor.shuttingDown else .returned
          if h.owner then
            if h.events.length < clientQueueDepth then
              some ({ h with events := h.events ++ [.dead reason], supervisor := next }, [])
            else none
          else some ({ h with supervisor := next }, [])
      | _ => none
  | .handshake outcome =>
      match h.supervisor with
      | .dialing => some ({ h with supervisor := .dialed outcome }, [])
      | _ => none
  | .asked =>
      match h.supervisor with
      | .recovering stream =>
          if h.cmds.length < cmdQueueDepth ∧ h.task.pc ≠ .ended then
            some ({ h with cmds := h.cmds ++ [.recover stream], supervisor := .awaiting }, [])
          else none
      | _ => none
  | .recoverLost =>
      match h.supervisor with
      | .recovering _ | .awaiting =>
          if h.task.pc = .ended then some ({ h with supervisor := .sleeping }, []) else none
      | _ => none
  | .slept =>
      match h.supervisor with
      | .sleeping => some ({ h with supervisor := .dialing }, entering .dialing)
      | _ => none
  | .shutdownSent =>
      match h.supervisor with
      | .shuttingDown =>
          if h.task.pc = .ended then some ({ h with supervisor := .returned }, [])
          else if h.cmds.length < cmdQueueDepth then
            some ({ h with cmds := h.cmds ++ [.shutdown], supervisor := .returned }, [])
          else none
      | _ => none
  | .start cmd =>
      if h.owner && h.starts cmd then
        some ({ h with
            calls := h.calls ++ [cmd]
            started := h.started + cmd.call?.toList.length },
          cmd.call?.toList.map .started)
      else none
  | .submit cmd =>
      if cmd ∈ h.calls ∧ h.cmds.length < cmdQueueDepth ∧ h.task.pc ≠ .ended then
        some ({ h with calls := h.calls.erase cmd, cmds := h.cmds ++ [cmd] }, [])
      else none
  | .refuse cmd =>
      if cmd ∈ h.calls ∧ h.task.pc = .ended then
        some ({ h with calls := h.calls.erase cmd },
          cmd.call?.toList.map (.returned · (some .shutdown)))
      else none
  | .lose =>
      match h.cmds with
      | cmd :: rest =>
          if h.task.pc = .ended then
            some ({ h with cmds := rest }, cmd.call?.toList.map (.returned · (some .shutdown)))
          else none
      | [] => none
  | .receive =>
      match h.events with
      | event :: rest =>
          if h.owner then some ({ h with events := rest }, [.received event]) else none
      | [] => none
  | .drop => if h.owner && h.quiet then some ({ h with owner := false }, []) else none

/-- `EtClient::connect_with` behind a handshake that answered `NEW_CLIENT`. -/
def connected (cfg : BackedConfig) (now : Instant) : Hub where
  task := Backed.Task.spawn cfg now 0
  cmds := []
  backedEvents := []
  supervisor := .watching
  events := []
  calls := []
  started := 0
  owner := true

def system (box : SecretBox) (cfg : BackedConfig) (now : Instant) :
    Transition.System Hub HubAct HubNote where
  start := connected cfg now
  step := step box

/-- What each action does. -/
inductive Moves (box : SecretBox) (h : Hub) : HubAct → Hub → List HubNote → Prop
  | actor (act : Act) (task : Backed.Task) (effects : List Effect) : h.offers act = true →
      h.task.step box act = some (task, effects) →
      Moves box h (.actor act)
        { h with
          task := task
          cmds := h.taking act
          backedEvents := h.backedEvents ++ eventsOf effects
          supervisor := h.supervisor.after (.actor act) effects }
        (effects.map .backed ++ h.replies act effects)
  | recv (event : BackedEvent) (rest : List BackedEvent) : h.supervisor = .watching →
      h.backedEvents = event :: rest →
      Moves box h .recv { h with backedEvents := rest, supervisor := .receive event }
        (entering (.receive event))
  | recvEnd : h.supervisor = .watching → h.backedEvents = [] → h.task.pc = .ended →
      Moves box h .recv { h with supervisor := .returned } []
  | ownerGone : h.owner = false → h.supervisor = .watching ∨ h.supervisor = .dialing →
      Moves box h .ownerGone { h with supervisor := .returned } []
  | forwarded (p : Packet) : h.supervisor = .forwarding p → h.owner = true →
      h.events.length < clientQueueDepth →
      Moves box h .sent { h with events := h.events ++ [.packet p], supervisor := .watching } []
  | forwardFails (p : Packet) : h.supervisor = .forwarding p → h.owner = false →
      Moves box h .sent { h with supervisor := .returned } []
  | reported (reason : ClientDeadReason) (shutdown : Bool) :
      h.supervisor = .reporting reason shutdown → h.owner = true →
      h.events.length < clientQueueDepth →
      Moves box h .sent
        { h with
          events := h.events ++ [.dead reason]
          supervisor := if shutdown then .shuttingDown else .returned } []
  | reportFails (reason : ClientDeadReason) (shutdown : Bool) :
      h.supervisor = .reporting reason shutdown → h.owner = false →
      Moves box h .sent
        { h with supervisor := if shutdown then .shuttingDown else .returned } []
  | handshake (outcome : Handshake) : h.supervisor = .dialing →
      Moves box h (.handshake outcome) { h with supervisor := .dialed outcome } []
  | asked (stream : SocketId) : h.supervisor = .recovering stream →
      h.cmds.length < cmdQueueDepth → h.task.pc ≠ .ended →
      Moves box h .asked
        { h with cmds := h.cmds ++ [.recover stream], supervisor := .awaiting } []
  | recoverLost : (∃ stream, h.supervisor = .recovering stream) ∨ h.supervisor = .awaiting →
      h.task.pc = .ended → Moves box h .recoverLost { h with supervisor := .sleeping } []
  | slept : h.supervisor = .sleeping →
      Moves box h .slept { h with supervisor := .dialing } [.dials]
  | shutdownLost : h.supervisor = .shuttingDown → h.task.pc = .ended →
      Moves box h .shutdownSent { h with supervisor := .returned } []
  | shutdownSent : h.supervisor = .shuttingDown → h.task.pc ≠ .ended →
      h.cmds.length < cmdQueueDepth →
      Moves box h .shutdownSent
        { h with cmds := h.cmds ++ [.shutdown], supervisor := .returned } []
  | start (cmd : Cmd) : h.owner = true → h.starts cmd = true →
      Moves box h (.start cmd)
        { h with
          calls := h.calls ++ [cmd]
          started := h.started + cmd.call?.toList.length } (cmd.call?.toList.map .started)
  | submit (cmd : Cmd) : cmd ∈ h.calls → h.cmds.length < cmdQueueDepth → h.task.pc ≠ .ended →
      Moves box h (.submit cmd) { h with calls := h.calls.erase cmd, cmds := h.cmds ++ [cmd] } []
  | refuse (cmd : Cmd) : cmd ∈ h.calls → h.task.pc = .ended →
      Moves box h (.refuse cmd) { h with calls := h.calls.erase cmd }
        (cmd.call?.toList.map (.returned · (some .shutdown)))
  | lose (cmd : Cmd) (rest : List Cmd) : h.cmds = cmd :: rest → h.task.pc = .ended →
      Moves box h .lose { h with cmds := rest }
        (cmd.call?.toList.map (.returned · (some .shutdown)))
  | receive (event : Event) (rest : List Event) : h.events = event :: rest → h.owner = true →
      Moves box h .receive { h with events := rest } [.received event]
  | drop : h.owner = true → h.quiet = true → Moves box h .drop { h with owner := false } []

variable {box : SecretBox} {h h' : Hub} {a : HubAct} {notes : List HubNote}

private theorem sent_moves (stepped : h.step box .sent = some (h', notes)) :
    Moves box h .sent h' notes := by
  simp only [step] at stepped
  split at stepped
  · split at stepped
    · split at stepped <;> cases stepped
      exact .forwarded _ ‹_› ‹_› ‹_›
    · cases stepped
      exact .forwardFails _ ‹_› (Bool.eq_false_of_not_eq_true ‹_›)
  · split at stepped
    · split at stepped <;> cases stepped
      exact .reported _ _ ‹_› ‹_› ‹_›
    · cases stepped
      exact .reportFails _ _ ‹_› (Bool.eq_false_of_not_eq_true ‹_›)
  · cases stepped

theorem step_moves (stepped : h.step box a = some (h', notes)) : Moves box h a h' notes := by
  cases a with
  | actor act =>
      simp only [step] at stepped
      split at stepped
      · obtain ⟨⟨task, effects⟩, taken, done⟩ := Option.map_eq_some_iff.mp stepped
        cases done
        exact .actor act task effects ‹_› taken
      · cases stepped
  | recv =>
      simp only [step] at stepped
      split at stepped
      · cases stepped
        exact .recv _ _ ‹_› ‹_›
      · split at stepped <;> cases stepped
        exact .recvEnd ‹_› ‹_› ‹_›
      · cases stepped
  | ownerGone =>
      simp only [step] at stepped
      split at stepped
      · cases stepped
      · have gone : h.owner = false := Bool.eq_false_of_not_eq_true ‹_›
        split at stepped <;> cases stepped
        · exact .ownerGone gone (.inl ‹_›)
        · exact .ownerGone gone (.inr ‹_›)
  | sent => exact sent_moves stepped
  | handshake outcome =>
      simp only [step] at stepped
      split at stepped <;> cases stepped
      exact .handshake outcome ‹_›
  | asked =>
      simp only [step] at stepped
      split at stepped
      · split at stepped <;> cases stepped
        obtain ⟨room, running⟩ := ‹_ ∧ _›
        exact .asked _ ‹_› room running
      · cases stepped
  | recoverLost =>
      simp only [step] at stepped
      split at stepped
      · split at stepped <;> cases stepped
        exact .recoverLost (.inl ⟨_, ‹_›⟩) ‹_›
      · split at stepped <;> cases stepped
        exact .recoverLost (.inr ‹_›) ‹_›
      · cases stepped
  | slept =>
      simp only [step] at stepped
      split at stepped <;> cases stepped
      exact .slept ‹_›
  | shutdownSent =>
      simp only [step] at stepped
      split at stepped
      · split at stepped
        · cases stepped
          exact .shutdownLost ‹_› ‹_›
        · split at stepped <;> cases stepped
          exact .shutdownSent ‹_› ‹_› ‹_›
      · cases stepped
  | start cmd =>
      simp only [step] at stepped
      split at stepped <;> cases stepped
      obtain ⟨owned, next⟩ := (Bool.and_eq_true _ _).mp ‹_›
      exact .start cmd owned next
  | submit cmd =>
      simp only [step] at stepped
      split at stepped <;> cases stepped
      obtain ⟨waits, room, running⟩ := ‹_ ∧ _›
      exact .submit cmd waits room running
  | refuse cmd =>
      simp only [step] at stepped
      split at stepped <;> cases stepped
      obtain ⟨waits, finished⟩ := ‹_ ∧ _›
      exact .refuse cmd waits finished
  | lose =>
      simp only [step] at stepped
      split at stepped
      · split at stepped <;> cases stepped
        exact .lose _ _ ‹_› ‹_›
      · cases stepped
  | receive =>
      simp only [step] at stepped
      split at stepped
      · split at stepped <;> cases stepped
        exact .receive _ _ ‹_› ‹_›
      · cases stepped
  | drop =>
      simp only [step] at stepped
      split at stepped <;> cases stepped
      obtain ⟨owned, done⟩ := (Bool.and_eq_true _ _).mp ‹_›
      exact .drop owned done

end Hub

end Client

end Et
