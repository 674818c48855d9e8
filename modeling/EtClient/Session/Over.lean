import EtClient.Client.Dropped
import EtClient.Session.Freeing

/-!
# When the session is over

The session is over when the supervisor has returned. The pump may be anywhere then: parked on an
engine that is stalled for good, in the middle of a write, or before a queue full of events. The
embedder goes on to call `next_event`, and has to be told.

The tick of `deliver_to_engine` gives up the packet that the pump is parked with. A write returns,
since the actor serves its commands, or it has ended and its queue is dropped. Every event that is
left in the queue is returned, or is a port-forward packet and is dropped. Then `next_event` returns
`None`. The engine does nothing for this.
-/

namespace Et

namespace Session

open Client Forward

/-- How many steps the pump may need back to its `select!`, with room for the work of a write. -/
def Place.left : Place → Nat
  | .select => 0
  | .idle | .parked _ => 1
  | .replying _ => 2
  | .submitting _ _ => 9

theorem Place.left_resume (packet : Option Packet) : (Place.resume packet).left ≤ 1 := by
  cases packet <;> simp [Place.resume, Place.left]

namespace Flow

variable {box : SecretBox} {codec : Codec Packet} {decode : Bytes → Option (Option Bytes)}
variable {f f' : Flow}

/-- The steps of the pump and of the actor, and the end of the actor's queue. -/
def Closes (act : FlowAct) : Prop :=
  act.party = some .pump ∨ act.party = some .actor ∨ act = .hub .lose

def left (f : Flow) : Nat := 2 * f.hub.events.length + f.place.left + f.hub.left

/-- `next_event` waits, and there is nothing to wait for. -/
structure Over (f : Flow) : Prop where
  select : f.place = .select
  events : f.hub.events = []
  supervisor : f.hub.supervisor = .returned

/-- A step that brings the pump closer to the end, with the supervisor gone as before. -/
def Nearer (box : SecretBox) (codec : Codec Packet) (decode : Bytes → Option (Option Bytes))
    (f : Flow) : Prop :=
  ∃ act f', Closes act ∧ f.step box codec decode act = some f' ∧
    f'.hub.supervisor = f.hub.supervisor ∧ f'.left < f.left

/-- A command that waits leaves the queue: it is served, or dropped with the queue. -/
theorem Sound.commands_nearer (sound : f.Sound) (past : f.hub.supervisor = .returned)
    (busy : f.hub.cmds ≠ []) : Nearer box codec decode f := by
  by_cases ended : f.hub.task.pc = .ended
  · cases queue : f.hub.cmds with
    | nil => exact absurd queue busy
    | cons cmd rest =>
        have lost : f.hub.step box .lose = some ({ f.hub with cmds := rest },
            cmd.call?.toList.map (.returned · (some .shutdown))) := by
          simp only [Hub.step, queue, if_pos ended]
        refine ⟨.hub .lose, _, .inr (.inr rfl), hub_step rfl lost, rfl, ?_⟩
        simp only [left, Hub.left, Hub.backlog, Hub.unfinished, queue, List.length_cons]
        omega
  · obtain ⟨act, hub, notes, own, stepped, served, less⟩ :=
      @Hub.Sound.actor_progress box f.hub sound.hub.sound ended (.inr busy)
    refine ⟨.hub (.actor act), _, .inr (.inl (if_pos own)), hub_step rfl stepped, ?_, ?_⟩
    · obtain same | ⟨waits, _⟩ := served.supervisor
      · exact same
      · cases past.symm.trans waits
    · have events : hub.events = f.hub.events := by rw [served.same]
      simp only [left, events]
      omega

/-- The write of the pump finds a slot, or no actor. -/
theorem Sound.submit_nearer (sound : f.Sound) {frame : Packet} {packet : Option Packet}
    (here : f.place = .submitting frame packet) (empty : f.hub.cmds = []) :
    Nearer box codec decode f := by
  have resumed := Place.left_resume packet
  let cmd := Cmd.write f.hub.started frame.header frame.payload
  by_cases ended : f.hub.task.pc = .ended
  · have refused : f.step box codec decode .submit = some
        { f with
          hub := { f.hub with
            calls := (f.hub.calls ++ [cmd]).erase cmd
            started := f.hub.started + 1 }
          place := .resume packet } := by
      simp [step, here, Hub.step, Hub.starts, sound.hub.owner, ended, pumped, session,
        TerminalSession.step, Cmd.call?, cmd]
    refine ⟨.submit, _, .inl rfl, refused, rfl, ?_⟩
    have before : f.place.left = 9 := by rw [here]; rfl
    simp only [left, before, Hub.left, Hub.backlog, Hub.unfinished]
    omega
  · have submitted : f.step box codec decode .submit = some
        { f with
          hub := { f.hub with
            cmds := [cmd]
            calls := (f.hub.calls ++ [cmd]).erase cmd
            started := f.hub.started + 1 }
          awaits := some f.hub.started
          place := .replying packet } := by
      simp [step, here, Hub.step, Hub.starts, sound.hub.owner, ended, empty, cmdQueueDepth, pumped,
        session, TerminalSession.step, Cmd.call?, cmd]
    refine ⟨.submit, _, .inl rfl, submitted, rfl, ?_⟩
    simp only [left, here, Place.left, Hub.left, Hub.backlog, List.length_cons, List.length_nil,
      Hub.unfinished, empty]
    omega

/-- A write of the pump gets on. -/
theorem Sound.write_nearer (sound : f.Sound) (past : f.hub.supervisor = .returned)
    {packet : Option Packet}
    (here : f.place = .replying packet ∨ ∃ frame, f.place = .submitting frame packet) :
    Nearer box codec decode f := by
  by_cases empty : f.hub.cmds = []
  · obtain here | ⟨frame, here⟩ := here
    · have replied : f.awaits = none := by
        rw [Option.eq_none_iff_forall_ne_some]
        intro call waits
        obtain ⟨cmd, queued, _⟩ := sound.asked call waits
        rw [empty] at queued
        cases queued
      refine ⟨.reply, _, .inl rfl, reply_step here replied, rfl, ?_⟩
      have resumed := Place.left_resume packet
      have before : f.place.left = 2 := by rw [here]; rfl
      simp only [left, before]
      omega
    · exact sound.submit_nearer here empty
  · exact sound.commands_nearer past empty

/-- At its `select!` the pump takes an event. Behind the end of the session it does not park. -/
theorem Sound.event_nearer (sound : f.Sound) (past : f.hub.supervisor = .returned)
    (here : f.place = .select) {event : Client.Event} {rest : List Client.Event}
    (queue : f.hub.events = event :: rest) : Nearer box codec decode f := by
  have taken : ∃ place, (place = .select ∨ place = .idle) ∧ f.step box codec decode .event =
      some { f with hub := { f.hub with events := rest }, place := place } := by
    cases event with
    | packet p =>
        by_cases ours : (isPortForwardHeader p.header && f.pfInbound) = true
        · refine ⟨.select, .inl rfl, ?_⟩
          simp only [Bool.and_eq_true] at ours
          simp [step, queue, Hub.step, sound.hub.owner, pumped, session, TerminalSession.step, here,
            TerminalSession.received, past, ours]
        · refine ⟨.idle, .inr rfl, ?_⟩
          simp only [Bool.and_eq_true] at ours
          simp [step, queue, Hub.step, sound.hub.owner, pumped, session, TerminalSession.step, here,
            TerminalSession.received, ours]
    | dead reason =>
        refine ⟨.idle, .inr rfl, ?_⟩
        simp [step, queue, Hub.step, sound.hub.owner, pumped, session, TerminalSession.step, here,
          TerminalSession.received]
  obtain ⟨place, back, taken⟩ := taken
  refine ⟨.event, _, .inl rfl, taken, rfl, ?_⟩
  have near : place.left ≤ 1 := by
    rcases back with rfl | rfl <;> simp [Place.left]
  simp only [left, here, queue, List.length_cons, Hub.left, Hub.backlog, Hub.unfinished]
  omega

theorem Sound.nearer (sound : f.Sound) (past : f.hub.supervisor = .returned)
    (going : ¬ f.Over) : Nearer box codec decode f := by
  cases here : f.place with
  | idle =>
      refine ⟨.call, _, .inl rfl, call_step here, rfl, ?_⟩
      simp [left, here, Place.left]
  | select =>
      cases queue : f.hub.events with
      | nil => exact absurd ⟨here, queue, past⟩ going
      | cons event rest => exact sound.event_nearer past here queue
  | submitting frame packet => exact sound.write_nearer past (.inr ⟨frame, here⟩)
  | replying packet => exact sound.write_nearer past (.inl here)
  | parked packet =>
      have gave : f.step box codec decode .tick = some { f with place := .select } := by
        simp [step, pumped, session, TerminalSession.step, here, past]
      refine ⟨.tick, _, .inl rfl, gave, rfl, ?_⟩
      simp [left, here, Place.left]

/-- When the session is over, `next_event` comes to return `None`, whatever the pump was doing and
without a step of the engine. -/
theorem next_event_returns_none {cfg : Backed.BackedConfig} {now : Backed.Instant} {log : List Unit}
    (run : (system box codec decode cfg now).Reachable log f)
    (past : f.hub.supervisor = .returned) :
    ∃ more f', (system box codec decode cfg now).Leads Closes f more f' ∧ f'.Over ∧
      f'.step box codec decode .event = some { f' with place := .idle } := by
  have led : ∃ more f', (system box codec decode cfg now).Leads Closes f more f' ∧
      (f'.Sound ∧ f'.hub.supervisor = .returned) ∧ f'.Over := by
    apply Transition.System.leads_of_progress left
    · intro _ s kept going
      obtain ⟨act, s', chosen, stepped, still, less⟩ :=
        @Sound.nearer box codec decode s kept.1 kept.2 going
      refine ⟨act, s', [], chosen, ?_, ⟨step_sound stepped kept.1, still.trans kept.2⟩, less⟩
      simp only [system, stepped, Option.map_some]
    · exact ⟨sound_reachable run, past⟩
  obtain ⟨more, f', onward, _, done⟩ := led
  refine ⟨more, f', onward, done, ?_⟩
  simp [step, done.events, done.supervisor, pumped, session, TerminalSession.step, done.select,
    TerminalSession.received]

/-- A frame that does not open ends the session, while the pump has a frame of the engine to write
and `Event::Dead` waits. -/
theorem next_event_returns_none_in_a_write :
    ∃ log f, (system .naming Protobuf.records.codec TerminalCodec.records.decodeBuffer
        (.client testKey none) 0).Reachable log f ∧
      (∃ frame, f.place = .submitting frame none) ∧
      f.hub.events = [.dead (.other .cryptoMismatch)] ∧
      ∃ more f', (system .naming Protobuf.records.codec TerminalCodec.records.decodeBuffer
          (.client testKey none) 0).Leads Closes f more f' ∧ f'.Over := by
  obtain ⟨log, f, run, writes, told, past⟩ :
      ∃ log f, (system .naming Protobuf.records.codec TerminalCodec.records.decodeBuffer
          (.client testKey none) 0).Reachable log f ∧
        (∃ frame, f.place = .submitting frame none) ∧
        f.hub.events = [.dead (.other .cryptoMismatch)] ∧ f.hub.supervisor = .returned :=
    ⟨_, _, .execute .start
      [.startPortForwarding [⟨none, some ⟨none, some 22⟩⟩], .call, .local (.accept 0), .handle,
        .sent true, .outbound, .hub (.actor (.frame [0])), .hub (.actor .settle),
        .hub (.actor (.deliver 0)), .hub (.actor (.sendDead true)), .hub (.actor (.finish false)),
        .hub .recv, .hub .sent] rfl,
      ⟨_, rfl⟩, rfl, rfl⟩
  obtain ⟨more, f', onward, done, _⟩ := next_event_returns_none run past
  exact ⟨log, f, run, writes, told, more, f', onward, done⟩

end Flow

end Session

end Et
