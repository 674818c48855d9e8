import EtClient.Client.Serving
import EtClient.Forward.Steps
import EtClient.Session.Flow
import Mathlib.Logic.Relation

/-!
# Who waits for whom

A task of the session is blocked when the queue it sends to is full, or when the reply of
its command is missing. It then waits for one other task, the one that takes from that
queue or serves that command. The pump is not blocked while it can drain the engine, and
the actor is not blocked while there is a command.

Along every run the queues keep their bounds, the write that the pump waits for is one of
the actor's commands, and the frames of the engine have their way to the pump. So the
tasks never wait in a circle. The actor waits for the supervisor, and the supervisor and
the engine for the pump. Whoever waits for the actor has left a command there, and a pump
that waits for the engine has drained it.
-/

namespace Et

namespace Client

namespace Hub

open Backed

variable {box : SecretBox} {h h' : Hub} {a : HubAct} {notes : List HubNote}

/-- The owner holds the client, and the event queues keep their bounds. -/
structure Fits (h : Hub) : Prop where
  sound : h.Sound
  owner : h.owner = true
  events : h.events.length ≤ clientQueueDepth
  backedEvents : h.backedEvents.length ≤ Client.eventQueueDepth

theorem fits_connected (cfg : BackedConfig) (now : Instant) : (connected cfg now).Fits :=
  ⟨sound_connected cfg now, rfl, Nat.zero_le _, Nat.zero_le _⟩

/-- An event of the actor has found room. -/
theorem room_of_sends {act : Act} {t : Backed.Task} {effects : List Effect}
    (offered : h.offers act = true) (moves : Task.Moves box h.task act t effects)
    (within : h.backedEvents.length ≤ Client.eventQueueDepth) :
    (h.backedEvents ++ eventsOf effects).length ≤ Client.eventQueueDepth := by
  rw [List.length_append]
  by_cases silent : eventsOf effects = []
  · rw [silent]
    exact within
  · obtain ⟨single, sends⟩ := moves.sends silent
    have room : h.backedEvents.length < Client.eventQueueDepth := by
      rcases sends with rfl | rfl | rfl
      all_goals exact of_decide_eq_true offered
    omega

theorem Moves.fits (moves : Moves box h a h' notes) (fits : h.Fits) (held : a ≠ .drop) :
    h'.Fits := by
  have sound := moves.sound fits.sound
  obtain ⟨_, owner, events, backedEvents⟩ := fits
  cases moves with
  | actor act task effects offered stepped =>
      exact ⟨sound, owner, events, room_of_sends offered (Task.step_moves stepped) backedEvents⟩
  | recv event rest _ queue =>
      rw [queue] at backedEvents
      exact ⟨sound, owner, events, Nat.le_of_succ_le backedEvents⟩
  | forwarded _ _ _ room | reported _ _ _ _ room =>
      refine ⟨sound, owner, ?_, backedEvents⟩
      rw [List.length_append]
      exact room
  | receive event rest queue =>
      rw [queue] at events
      exact ⟨sound, owner, Nat.le_of_succ_le events, backedEvents⟩
  | drop => exact absurd rfl held
  | _ => exact ⟨sound, owner, events, backedEvents⟩

/-- A write leaves the queue with its reply. -/
theorem Moves.replied (moves : Moves box h a h' notes) {cmd : Cmd} {call : Nat}
    (queued : cmd ∈ h.cmds) (carries : cmd.call? = some call) :
    cmd ∈ h'.cmds ∨ ∃ failure, .returned call failure ∈ notes := by
  cases moves with
  | actor act task effects offered stepped =>
      rcases taking_cases offered with same | ⟨first, queue, _, write⟩
      · left
        exact same ▸ queued
      · rw [queue] at queued
        rcases List.mem_cons.mp queued with rfl | later
        · obtain ⟨now, accepts, header, payload, rfl, rfl⟩ := write call carries
          obtain ⟨failure, told⟩ := replies_write queue (Task.step_moves stepped)
          exact .inr ⟨failure, List.mem_append_right _ told⟩
        · exact .inl later
  | lose first rest queue =>
      rw [queue] at queued
      rcases List.mem_cons.mp queued with rfl | later
      · right
        rw [carries]
        exact ⟨_, List.mem_singleton_self _⟩
      · exact .inl later
  | asked | shutdownSent | submit => exact .inl (List.mem_append_left _ queued)
  | _ => exact .inl queued

end Hub

end Client

namespace Session

open Client Forward

theorem TerminalSession.received_routes (decode : Bytes → Option (Option Bytes))
    (s : TerminalSession) (e : Option Client.Event) :
    (s.received decode e).1.pfInbound = s.pfInbound ∧
      (s.received decode e).1.pfOutbound = s.pfOutbound := by
  unfold received
  split
  · split
    · split <;> exact ⟨rfl, rfl⟩
    · exact ⟨rfl, rfl⟩
  · exact ⟨rfl, rfl⟩
  · exact ⟨rfl, rfl⟩

/-- The pump lets its receiver go only when the engine has stopped. -/
theorem TerminalSession.keeps_routes {decode : Bytes → Option (Option Bytes)}
    {s s' : TerminalSession} {act : PumpAct} {effects : List PumpEffect}
    (stepped : s.step decode act = some (s', effects)) (other : act ≠ .startPortForwarding) :
    s'.pfInbound = s.pfInbound ∧ (s'.pfOutbound = s.pfOutbound ∨ s.running = false) := by
  cases act with
  | startPortForwarding => exact absurd rfl other
  | engineStops | sessionEnds =>
      cases stepped
      exact ⟨rfl, .inl rfl⟩
  | call | drop =>
      simp only [step] at stepped
      split at stepped <;> cases stepped
      exact ⟨rfl, .inl rfl⟩
  | submit | reply | reserve =>
      simp only [step] at stepped
      split at stepped <;> cases stepped
      exact ⟨rfl, .inl rfl⟩
  | tick =>
      simp only [step] at stepped
      split at stepped <;> cases stepped
      split <;> exact ⟨rfl, .inl rfl⟩
  | event e =>
      have same := s.received_routes decode e
      simp only [step] at stepped
      split at stepped
      · rw [Option.some.inj stepped] at same
        exact ⟨same.1, .inl same.2⟩
      · cases stepped
  | outbound frame =>
      have passed {packet : Option Packet}
          (taken : s.outbound packet frame = some (s', effects)) :
          s'.pfInbound = s.pfInbound ∧ (s'.pfOutbound = s.pfOutbound ∨ s.running = false) := by
        cases frame with
        | some frame =>
            cases taken
            exact ⟨rfl, .inl rfl⟩
        | none =>
            simp only [TerminalSession.outbound] at taken
            split at taken <;> cases taken
            exact ⟨rfl, .inr (Bool.eq_false_of_not_eq_true ‹_›)⟩
      simp only [step] at stepped
      split at stepped
      · split at stepped
        · exact passed stepped
        · exact passed stepped
        · cases stepped
      · cases stepped

inductive Party
  | pump
  | engine
  | supervisor
  | actor
  deriving DecidableEq

namespace Flow

/-- The task finds the queue full that it sends to, or has no reply to its command. -/
def blocked (f : Flow) : Party → Bool
  | .pump =>
      match f.place with
      | .submitting _ _ => f.hub.task.pc ≠ .ended && cmdQueueDepth ≤ f.hub.cmds.length
      | .replying _ => f.awaits.isSome
      | .parked _ =>
          f.engine.running && inboundQueueDepth ≤ f.inbound.length &&
            (!f.pfOutbound || f.outbound.isEmpty)
      | _ => false
  | .engine =>
      !f.frames.isEmpty && !f.engine.shutdown && Session.outboundQueueDepth ≤ f.outbound.length
  | .supervisor =>
      match f.hub.supervisor with
      | .forwarding _ | .reporting _ _ => f.hub.owner && clientQueueDepth ≤ f.hub.events.length
      | .recovering _ | .shuttingDown =>
          f.hub.task.pc ≠ .ended && cmdQueueDepth ≤ f.hub.cmds.length
      | .awaiting => f.hub.task.pc ≠ .ended
      | _ => false
  | .actor =>
      f.hub.task.exchange.isNone && f.hub.task.outgoing.isSome && f.hub.task.consumer &&
        Client.eventQueueDepth ≤ f.hub.backedEvents.length && f.hub.cmds.isEmpty

/-- The task that takes from the queue, or serves the command. -/
def server (f : Flow) : Party → Party
  | .pump =>
      match f.place with
      | .parked _ => .engine
      | _ => .actor
  | .engine => .pump
  | .supervisor =>
      match f.hub.supervisor with
      | .forwarding _ | .reporting _ _ => .pump
      | _ => .actor
  | .actor => .supervisor

def waitsFor (f : Flow) (p : Party) : Option Party :=
  if f.blocked p then some (f.server p) else none

/-- Neither the actor nor the supervisor is about to end the session. -/
def alive (f : Flow) : Bool :=
  !f.hub.task.finished && match f.hub.supervisor with
    | .reporting _ _ | .shuttingDown | .returned => false
    | _ => true

structure Sound (f : Flow) : Prop where
  hub : f.hub.Fits
  asked : ∀ call, f.awaits = some call → ∃ cmd ∈ f.hub.cmds, cmd.call? = some call
  routed : f.engine.running = true → f.pfOutbound = true
  stopped : f.engine.running = false → f.frames = []
  inbound : f.inbound.length ≤ inboundQueueDepth
  outbound : f.outbound.length ≤ Session.outboundQueueDepth

variable {box : SecretBox} {codec : Codec Packet} {decode : Bytes → Option (Option Bytes)}
variable {f f' : Flow}

theorem sound_started (cfg : Backed.BackedConfig) (now : Backed.Instant) :
    (started cfg now).Sound :=
  ⟨Hub.fits_connected cfg now, nofun, nofun, fun _ => rfl, Nat.zero_le _, Nat.zero_le _⟩

theorem Sound.of_hub (sound : f.Sound) {a : HubAct} {hub : Hub} {notes : List HubNote}
    (moves : Hub.Moves box f.hub a hub notes) (held : a ≠ .drop) :
    Sound { f with hub := hub, awaits := f.stillAwaits notes } := by
  refine { sound with hub := moves.fits sound.hub held, asked := ?_ }
  intro call waits
  obtain ⟨waited, silent⟩ := Option.filter_eq_some_iff.mp waits
  obtain ⟨cmd, queued, carries⟩ := sound.asked call waited
  rcases moves.replied queued carries with still | ⟨failure, told⟩
  · exact ⟨cmd, still, carries⟩
  · simp only [Bool.not_eq_true', List.any_eq_false] at silent
    exact absurd (decide_eq_true rfl) (silent _ told)

/-- What a step of the pump leaves. -/
theorem pumped_cases {act : PumpAct} (stepped : f.pumped decode act = some f')
    (other : act ≠ .startPortForwarding) :
    ∃ pfOutbound, (pfOutbound = f.pfOutbound ∨ f.engine.running = false) ∧
      f' = { f with place := f'.place, pfOutbound := pfOutbound } := by
  obtain ⟨⟨s, effects⟩, taken, rfl⟩ := Option.map_eq_some_iff.mp stepped
  obtain ⟨inbound, outbound⟩ := TerminalSession.keeps_routes taken other
  refine ⟨s.pfOutbound, outbound, ?_⟩
  simp only [inbound, session]

theorem pumped_start (stepped : f.pumped decode .startPortForwarding = some f') :
    f' = if f.pfInbound then f else { f with pfInbound := true, pfOutbound := true } := by
  obtain ⟨⟨s, effects⟩, taken, rfl⟩ := Option.map_eq_some_iff.mp stepped
  rw [TerminalSession.step] at taken
  by_cases here : f.session.place = .idle
  · rw [if_pos here] at taken
    cases taken
    by_cases set : f.pfInbound = true
    · have same : f.session.pfInbound = true := set
      rw [if_pos set]
      simp only [if_pos same]
      rfl
    · rw [if_neg set]
      simp [session, set]
  · rw [if_neg here] at taken
    cases taken

theorem Sound.of_pump (sound : f.Sound) {act : PumpAct} (stepped : f.pumped decode act = some f')
    (other : act ≠ .startPortForwarding) : f'.Sound := by
  obtain ⟨pfOutbound, kept, eq⟩ := pumped_cases stepped other
  rw [eq]
  refine { sound with routed := ?_ }
  intro running
  rcases kept with same | still
  · exact same.trans (sound.routed running)
  · cases still.symm.trans running

theorem Sound.of_engine (sound : f.Sound) {act : EngineAct Packet} {engine : Engine}
    {effects : List EngineEffect} (stepped : f.engine.step codec act = some (engine, effects))
    (going : act ≠ .stop) {inbound frames : List Packet}
    (fewer : inbound.length ≤ f.inbound.length)
    (stopped : f.engine.running = false → frames = []) :
    Sound { f with engine := engine, inbound := inbound, frames := frames } := by
  have same := (Engine.step_moves stepped).running going
  exact { sound with
    routed := fun running => sound.routed (same ▸ running)
    stopped := fun still => stopped (same ▸ still)
    inbound := Nat.le_trans fewer sound.inbound }

/-- Only a running engine handles packets and events. -/
theorem running_of_handles {e e' : Engine} {act : EngineAct Packet}
    {effects : List EngineEffect} (stepped : e.step codec act = some (e', effects))
    (handles : isLocal act = false) : e.running = true := by
  cases act with
  | event sends | peer p chance =>
      rw [Engine.step] at stepped
      split at stepped
      · exact ((Bool.and_eq_true _ _).mp ‹_›).1
      · cases stepped
  | _ => cases handles

theorem Sound.of_hubAct (sound : f.Sound) {act : HubAct}
    (stepped : f.step box codec decode (.hub act) = some f') : f'.Sound := by
  simp only [step] at stepped
  split at stepped
  · obtain ⟨⟨hub, notes⟩, taken, rfl⟩ := Option.map_eq_some_iff.mp stepped
    apply sound.of_hub (Hub.step_moves taken)
    rintro rfl
    cases ‹leaves _ = true›
  · cases stepped

/-- The pump's half of a step, behind a step of the client that leaves the commands alone. -/
theorem Sound.of_client (sound : f.Sound) {hub : Hub} (fits : hub.Fits)
    (cmds : hub.cmds = f.hub.cmds) {act : PumpAct}
    (pumped : { f with hub := hub }.pumped decode act = some f')
    (other : act ≠ .startPortForwarding) : f'.Sound := by
  apply Sound.of_pump _ pumped other
  exact { sound with hub := fits, asked := by simpa only [cmds] using sound.asked }

theorem Sound.of_event (sound : f.Sound)
    (stepped : f.step box codec decode .event = some f') : f'.Sound := by
  simp only [step] at stepped
  split at stepped
  · obtain ⟨⟨hub, notes⟩, received, pumped⟩ := Option.bind_eq_some_iff.mp stepped
    have cmds : hub.cmds = f.hub.cmds := by
      cases Hub.step_moves received
      rfl
    exact sound.of_client ((Hub.step_moves received).fits sound.hub nofun) cmds pumped nofun
  · split at stepped
    · exact sound.of_pump stepped nofun
    · cases stepped

theorem Sound.of_outbound (sound : f.Sound)
    (stepped : f.step box codec decode .outbound = some f') : f'.Sound := by
  simp only [step] at stepped
  split at stepped
  · rename_i frame rest queue
    apply Sound.of_pump _ stepped nofun
    refine { sound with outbound := ?_ }
    have bound := sound.outbound
    rw [queue] at bound
    exact Nat.le_of_succ_le bound
  · exact sound.of_pump stepped nofun

/-- The write that the pump waits for is the last of the commands. -/
theorem Sound.of_submitted (sound : f.Sound) {hub : Hub} (fits : hub.Fits) {cmd : Cmd}
    {call : Nat} (cmds : hub.cmds = f.hub.cmds ++ [cmd]) (carries : cmd.call? = some call) :
    Sound { f with hub := hub, awaits := some call } := by
  refine { sound with hub := fits, asked := ?_ }
  rintro _ ⟨rfl⟩
  refine ⟨cmd, ?_, carries⟩
  rw [cmds]
  exact List.mem_append_right _ (List.mem_singleton_self _)

theorem Sound.of_submit (sound : f.Sound)
    (stepped : f.step box codec decode .submit = some f') : f'.Sound := by
  simp only [step] at stepped
  split at stepped
  · rename_i frame packet _
    obtain ⟨⟨hub, _⟩, starts, rest⟩ := Option.bind_eq_some_iff.mp stepped
    have began := (Hub.step_moves starts).fits sound.hub nofun
    have queue : hub.cmds = f.hub.cmds := by
      cases Hub.step_moves starts
      rfl
    split at rest
    · obtain ⟨⟨refused, _⟩, refuses, pumped⟩ := Option.bind_eq_some_iff.mp rest
      have same : refused.cmds = f.hub.cmds := by
        cases Hub.step_moves refuses
        exact queue
      exact sound.of_client ((Hub.step_moves refuses).fits began nofun) same pumped nofun
    · obtain ⟨⟨taken, _⟩, submits, pumped⟩ := Option.bind_eq_some_iff.mp rest
      have longer : taken.cmds =
          f.hub.cmds ++ [.write f.hub.started frame.header frame.payload] := by
        cases Hub.step_moves submits
        rw [queue]
      exact (sound.of_submitted ((Hub.step_moves submits).fits began nofun) longer rfl).of_pump
        pumped nofun
  · cases stepped

theorem Sound.of_reserve (sound : f.Sound)
    (stepped : f.step box codec decode .reserve = some f') : f'.Sound := by
  simp only [step] at stepped
  split at stepped
  · split at stepped
    · split at stepped
      · rename_i room
        apply Sound.of_pump _ stepped nofun
        refine { sound with inbound := ?_ }
        rw [List.length_append]
        exact room
      · cases stepped
    · exact sound.of_pump stepped nofun
  · cases stepped

/-- A second call adds sources to the engine, the first one spawns it. -/
theorem Sound.of_start (sound : f.Sound) {sources : List PortForwardSourceRequest}
    (stepped : f.step box codec decode (.startPortForwarding sources) = some f') : f'.Sound := by
  obtain ⟨opened, taken, eq⟩ := Option.map_eq_some_iff.mp stepped
  rw [pumped_start taken] at eq
  split at eq
  · split at eq
    · rename_i engine effects found
      subst eq
      exact sound.of_engine found nofun (Nat.le_refl _) sound.stopped
    · exact eq ▸ sound
  · subst eq
    exact { sound with
      routed := fun _ => rfl
      stopped := fun _ => rfl
      inbound := Nat.zero_le _
      outbound := Nat.zero_le _ }

/-- The frames of a handler are those of a running engine. -/
theorem Sound.of_handled (sound : f.Sound) {act : EngineAct Packet} {engine : Engine}
    {effects : List EngineEffect} (stepped : f.engine.step codec act = some (engine, effects))
    (handles : isLocal act = false) {inbound frames : List Packet}
    (fewer : inbound.length ≤ f.inbound.length) :
    Sound { f with engine := engine, inbound := inbound, frames := frames } := by
  refine sound.of_engine stepped ?_ fewer ?_
  · rintro rfl
    cases handles
  · intro still
    cases still.symm.trans (running_of_handles stepped handles)

theorem Sound.of_take (sound : f.Sound) {chance : Chance}
    (stepped : f.step box codec decode (.take chance) = some f') : f'.Sound := by
  simp only [step] at stepped
  split at stepped
  · rename_i packet rest _ queue
    obtain ⟨⟨engine, effects⟩, taken, rfl⟩ := Option.map_eq_some_iff.mp stepped
    apply sound.of_handled taken rfl
    rw [queue]
    exact Nat.le_succ _
  · cases stepped

theorem Sound.of_handle (sound : f.Sound)
    (stepped : f.step box codec decode .handle = some f') : f'.Sound := by
  simp only [step] at stepped
  split at stepped
  · obtain ⟨⟨engine, effects⟩, taken, rfl⟩ := Option.map_eq_some_iff.mp stepped
    exact sound.of_handled taken rfl (Nat.le_refl _)
  · cases stepped

theorem Sound.of_sent (sound : f.Sound) {taken : Bool}
    (stepped : f.step box codec decode (.sent taken) = some f') : f'.Sound := by
  simp only [step] at stepped
  split at stepped
  · rename_i frame rest queue
    have running : f.engine.running ≠ false := by
      intro still
      cases queue.symm.trans (sound.stopped still)
    split at stepped
    · split at stepped <;> cases stepped
      rename_i room
      refine { sound with stopped := fun still => absurd still running, outbound := ?_ }
      rw [List.length_append]
      exact room
    · split at stepped <;> cases stepped
      exact { sound with stopped := fun still => absurd still running }
  · cases stepped

theorem Sound.of_local (sound : f.Sound) {act : EngineAct Packet}
    (stepped : f.step box codec decode (.local act) = some f') : f'.Sound := by
  simp only [step] at stepped
  split at stepped
  · split at stepped
    · obtain ⟨⟨engine, effects⟩, taken, rfl⟩ := Option.map_eq_some_iff.mp stepped
      cases taken
      exact { sound with
        routed := nofun
        stopped := fun _ => ‹f.frames = []›
        inbound := Nat.zero_le _ }
    · cases stepped
    · rename_i going _ _
      obtain ⟨⟨engine, effects⟩, taken, rfl⟩ := Option.map_eq_some_iff.mp stepped
      exact sound.of_engine taken going (Nat.le_refl _) sound.stopped
  · cases stepped

theorem step_sound {act : FlowAct} (stepped : f.step box codec decode act = some f')
    (sound : f.Sound) : f'.Sound := by
  cases act with
  | hub act => exact sound.of_hubAct stepped
  | call | tick => exact sound.of_pump stepped nofun
  | drop =>
      obtain ⟨dropped, taken, rfl⟩ := Option.map_eq_some_iff.mp stepped
      exact { sound.of_pump taken nofun with asked := nofun }
  | event => exact sound.of_event stepped
  | outbound => exact sound.of_outbound stepped
  | submit => exact sound.of_submit stepped
  | reply =>
      simp only [step] at stepped
      split at stepped
      · exact sound.of_pump stepped nofun
      · cases stepped
  | reserve => exact sound.of_reserve stepped
  | startPortForwarding sources => exact sound.of_start stepped
  | take chance => exact sound.of_take stepped
  | handle => exact sound.of_handle stepped
  | sent taken => exact sound.of_sent stepped
  | «local» act => exact sound.of_local stepped

theorem sound_reachable {cfg : Backed.BackedConfig} {now : Backed.Instant} {log : List Unit}
    (run : (system box codec decode cfg now).Reachable log f) : f.Sound := by
  refine run.invariant (P := fun _ f => f.Sound) (sound_started cfg now) ?_
  intro log s action t effects sound _ stepped
  obtain ⟨_, taken, eq⟩ := Option.map_eq_some_iff.mp stepped
  cases eq
  exact step_sound taken sound

/-- Every wait, with what it waits for. -/
inductive Waits (f : Flow) : Party → Party → Prop
  | slot (frame : Packet) (packet : Option Packet) : f.place = .submitting frame packet →
      f.hub.task.pc ≠ .ended → cmdQueueDepth ≤ f.hub.cmds.length → Waits f .pump .actor
  | reply (packet : Option Packet) (call : Nat) : f.place = .replying packet →
      f.awaits = some call → Waits f .pump .actor
  | permit (packet : Packet) : f.place = .parked packet → f.engine.running = true →
      inboundQueueDepth ≤ f.inbound.length → (f.pfOutbound = true → f.outbound = []) →
      Waits f .pump .engine
  | frame (frame : Packet) (rest : List Packet) : f.frames = frame :: rest →
      f.engine.shutdown = false → Session.outboundQueueDepth ≤ f.outbound.length →
      Waits f .engine .pump
  | event : (∃ p, f.hub.supervisor = .forwarding p) ∨
        (∃ reason shutdown, f.hub.supervisor = .reporting reason shutdown) →
      clientQueueDepth ≤ f.hub.events.length → Waits f .supervisor .pump
  | ask : (∃ stream, f.hub.supervisor = .recovering stream) ∨ f.hub.supervisor = .shuttingDown →
      f.hub.task.pc ≠ .ended → cmdQueueDepth ≤ f.hub.cmds.length → Waits f .supervisor .actor
  | recovery : f.hub.supervisor = .awaiting → f.hub.task.pc ≠ .ended → Waits f .supervisor .actor
  | send (event : Backed.BackedEvent) : f.hub.task.exchange = none →
      f.hub.task.outgoing = some event → f.hub.task.consumer = true →
      Client.eventQueueDepth ≤ f.hub.backedEvents.length → f.hub.cmds = [] →
      Waits f .actor .supervisor

theorem waits_of_blocked {p : Party} (blocked : f.blocked p = true) : f.Waits p (f.server p) := by
  cases p with
  | pump =>
      simp only [Flow.blocked] at blocked
      simp only [server]
      split at blocked
      · rename_i here
        simp only [Bool.and_eq_true, decide_eq_true_eq] at blocked
        simp only [here]
        exact .slot _ _ here blocked.1 blocked.2
      · rename_i here
        obtain ⟨call, waits⟩ := Option.isSome_iff_exists.mp blocked
        simp only [here]
        exact .reply _ call here waits
      · rename_i here
        simp only [Bool.and_eq_true, decide_eq_true_eq] at blocked
        obtain ⟨⟨running, full⟩, drained⟩ := blocked
        simp only [here]
        refine .permit _ here running full ?_
        intro routed
        simpa [routed] using drained
      · cases blocked
  | engine =>
      simp only [Flow.blocked, Bool.and_eq_true, decide_eq_true_eq] at blocked
      obtain ⟨⟨waiting, up⟩, full⟩ := blocked
      cases queue : f.frames with
      | nil =>
          rw [queue] at waiting
          cases waiting
      | cons frame rest => exact .frame frame rest queue ((Bool.not_eq_true' _).mp up) full
  | supervisor =>
      simp only [Flow.blocked] at blocked
      simp only [server]
      split at blocked
      · rename_i here
        simp only [Bool.and_eq_true, decide_eq_true_eq] at blocked
        simp only [here]
        exact .event (.inl ⟨_, here⟩) blocked.2
      · rename_i here
        simp only [Bool.and_eq_true, decide_eq_true_eq] at blocked
        simp only [here]
        exact .event (.inr ⟨_, _, here⟩) blocked.2
      · rename_i here
        simp only [Bool.and_eq_true, decide_eq_true_eq] at blocked
        simp only [here]
        exact .ask (.inl ⟨_, here⟩) blocked.1 blocked.2
      · rename_i here
        simp only [Bool.and_eq_true, decide_eq_true_eq] at blocked
        simp only [here]
        exact .ask (.inr here) blocked.1 blocked.2
      · rename_i here
        simp only [here]
        exact .recovery here (of_decide_eq_true blocked)
      · cases blocked
  | actor =>
      simp only [Flow.blocked, Bool.and_eq_true, decide_eq_true_eq, Option.isNone_iff_eq_none,
        List.isEmpty_iff] at blocked
      obtain ⟨⟨⟨⟨idle, sends⟩, consumer⟩, full⟩, empty⟩ := blocked
      obtain ⟨event, sends⟩ := Option.isSome_iff_exists.mp sends
      exact .send event idle sends consumer full empty

theorem waits_of_waitsFor {p q : Party} (waits : f.waitsFor p = some q) :
    f.blocked p = true ∧ f.Waits p q := by
  rw [waitsFor] at waits
  split at waits
  · cases waits
    exact ⟨‹_›, waits_of_blocked ‹_›⟩
  · cases waits

/-- Whoever waits for the actor has a command there. -/
theorem Waits.actor_free {p : Party} (waits : f.Waits p .actor) (sound : f.Sound) :
    f.blocked .actor = false := by
  by_contra blocked
  have sends : f.Waits .actor .supervisor :=
    waits_of_blocked (Bool.eq_true_of_not_eq_false blocked)
  obtain ⟨_, idle, empty⟩ : ∃ event, f.hub.task.exchange = none ∧ f.hub.cmds = [] := by
    cases sends with
    | send event idle _ _ _ empty => exact ⟨event, idle, empty⟩
  cases waits with
  | slot _ _ _ _ full | ask _ _ full =>
      rw [empty] at full
      cases full
  | reply _ call _ waits =>
      obtain ⟨cmd, queued, _⟩ := sound.asked call waits
      rw [empty] at queued
      cases queued
  | recovery here running => exact sound.hub.sound.asks_none running empty idle here

/-- A pump that waits for the engine has drained it. -/
theorem Waits.engine_free {p : Party} (waits : f.Waits p .engine) (sound : f.Sound) :
    f.blocked .engine = false := by
  by_contra blocked
  have sends : f.Waits .engine .pump :=
    waits_of_blocked (Bool.eq_true_of_not_eq_false blocked)
  cases waits with
  | permit _ _ running _ drained =>
      cases sends with
      | frame _ _ _ _ full =>
          rw [drained (sound.routed running)] at full
          cases full

/-- Along the waits this number falls. -/
def depth (f : Flow) : Party → Nat
  | .pump => 1
  | .engine => if f.blocked .engine then 2 else 0
  | .supervisor => 3
  | .actor => if f.blocked .actor then 4 else 0

theorem Sound.depth_lt (sound : f.Sound) {p q : Party} (waits : f.waitsFor p = some q) :
    f.depth q < f.depth p := by
  obtain ⟨blocked, found⟩ := waits_of_waitsFor waits
  cases q with
  | pump =>
      cases found with
      | frame => simp [depth, blocked]
      | event => simp [depth]
  | engine =>
      have free := found.engine_free sound
      cases found
      simp [depth, free]
  | supervisor =>
      cases found
      simp [depth, blocked]
  | actor =>
      have free := found.actor_free sound
      cases found <;> simp [depth, free]

theorem Sound.acyclic (sound : f.Sound) (p : Party) :
    ¬ Relation.TransGen (fun p q => f.waitsFor p = some q) p p := by
  have falls {q : Party} (path : Relation.TransGen (fun p q => f.waitsFor p = some q) p q) :
      f.depth q < f.depth p := by
    induction path with
    | single waits => exact sound.depth_lt waits
    | tail _ waits ih => exact Nat.lt_trans (sound.depth_lt waits) ih
  exact fun circle => Nat.lt_irrefl _ (falls circle)

end Flow

end Session

end Et
