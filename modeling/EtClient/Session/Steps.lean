import EtClient.Session.Waiting

/-!
# The steps of each task

Every step of the session is a step of one of its tasks, or comes from outside: from the
socket, from a local connection or from the embedder. The embedder's poll of `next_event`
is a step of the pump.

A blocked task cannot move by itself. A task of a living session that is not blocked can
move, unless the queues it takes from are empty. So `blocked` is exactly the wait for a
queue that is full or for a reply that is missing.
-/

namespace Et

namespace Session

open Client Forward

/-- Whose step it is. What comes from outside is nobody's step, and neither is an answer to
a handshake that ends the session. -/
def FlowAct.party : FlowAct → Option Party
  | .call | .event | .outbound | .submit | .reply | .reserve | .tick => some .pump
  | .take _ | .handle | .sent _ => some .engine
  | .hub (.actor act) => if act.own then some .actor else none
  | .hub .recv | .hub .sent | .hub (.handshake (.returning _)) | .hub (.handshake .failed)
  | .hub .asked | .hub .recoverLost | .hub .slept | .hub .shutdownSent => some .supervisor
  | _ => none

namespace Flow

variable (box : SecretBox) (codec : Codec Packet) (decode : Bytes → Option (Option Bytes))

/-- A step of one of these tasks. -/
def StepOf (tasks : Party → Prop) (f f' : Flow) : Prop :=
  ∃ act p, act.party = some p ∧ tasks p ∧ f.step box codec decode act = some f'

/-- Steps of these tasks lead from one state to the other. -/
abbrev Passes (tasks : Party → Prop) : Flow → Flow → Prop :=
  Relation.ReflTransGen (StepOf box codec decode tasks)

variable {box codec decode} {f f' : Flow} {tasks : Party → Prop}

theorem passes_step {act : FlowAct} {p : Party} (own : act.party = some p) (may : tasks p)
    (stepped : f.step box codec decode act = some f') : Passes box codec decode tasks f f' :=
  .single ⟨act, p, own, may, stepped⟩

theorem passes_sound (passes : Passes box codec decode tasks f f') (sound : f.Sound) :
    f'.Sound := by
  induction passes with
  | refl => exact sound
  | tail _ stepped ih =>
      obtain ⟨_, _, _, _, stepped⟩ := stepped
      exact step_sound stepped ih

/-- The events of both queues wait as before, and so does the supervisor, apart from a
recover that has failed. -/
structure Held (h h' : Hub) : Prop where
  events : h'.events = h.events
  backedEvents : h'.backedEvents = h.backedEvents
  supervisor : h'.supervisor = h.supervisor ∨
    h.supervisor = .awaiting ∧ h'.supervisor = .sleeping

theorem Held.refl (h : Hub) : Held h h := ⟨rfl, rfl, .inl rfl⟩

theorem Held.trans {h₁ h₂ h₃ : Hub} (first : Held h₁ h₂) (second : Held h₂ h₃) :
    Held h₁ h₃ := by
  refine ⟨second.events.trans first.events, second.backedEvents.trans first.backedEvents, ?_⟩
  rcases second.supervisor with same | ⟨waits, sleeps⟩
  · rw [same]
    exact first.supervisor
  · rcases first.supervisor with same | ⟨_, slept⟩
    · exact .inr ⟨same.symm.trans waits, sleeps⟩
    · cases slept.symm.trans waits

/-- Nor has the engine done anything. -/
structure Paused (f f' : Flow) : Prop extends Held f.hub f'.hub where
  same : f' = { f with hub := f'.hub, place := f'.place, awaits := f'.awaits }

theorem Paused.refl (f : Flow) : f.Paused f := ⟨.refl _, rfl⟩

theorem Paused.trans {f₁ f₂ f₃ : Flow} (first : f₁.Paused f₂) (second : f₂.Paused f₃) :
    f₁.Paused f₃ := by
  refine ⟨first.toHeld.trans second.toHeld, ?_⟩
  have same := second.same
  rw [first.same] at same
  exact same

theorem call_step (here : f.place = .idle) :
    f.step box codec decode .call = some { f with place := .select } := by
  simp [step, pumped, session, TerminalSession.step, here]

theorem reply_step {packet : Option Packet} (here : f.place = .replying packet)
    (replied : f.awaits = none) :
    f.step box codec decode .reply = some { f with place := .resume packet } := by
  simp [step, pumped, session, TerminalSession.step, here, replied]

theorem hub_step {act : HubAct} {hub : Hub} {notes : List HubNote} (ours : leaves act = true)
    (stepped : f.hub.step box act = some (hub, notes)) :
    f.step box codec decode (.hub act) =
      some { f with hub := hub, awaits := f.stillAwaits notes } := by
  rw [step, if_pos ours, stepped]
  rfl

theorem hub_none {act : HubAct} (still : f.hub.step box act = none) :
    f.step box codec decode (.hub act) = none := by
  rw [step, still]
  exact ite_self _

/-- At both `select!`s the pump takes frames of the engine. -/
theorem outbound_step {packet : Option Packet} {frame : Packet} {rest : List Packet}
    (here : f.place = .resume packet) (routed : f.pfOutbound = true)
    (queue : f.outbound = frame :: rest) :
    f.step box codec decode .outbound =
      some { f with outbound := rest, place := .submitting frame packet } := by
  cases packet with
  | none =>
      simp [step, pumped, session, TerminalSession.step, TerminalSession.outbound, here,
        Place.resume, routed, queue]
  | some packet =>
      simp [step, pumped, session, TerminalSession.step, TerminalSession.outbound, here,
        Place.resume, routed, queue]

theorem reserve_step {packet : Packet} (here : f.place = .parked packet)
    (room : f.engine.running = true → f.inbound.length < inboundQueueDepth) :
    ∃ inbound, f.step box codec decode .reserve =
      some { f with inbound := inbound, place := .select } := by
  cases running : f.engine.running with
  | true =>
      refine ⟨f.inbound ++ [packet], ?_⟩
      simp [step, pumped, session, TerminalSession.step, here, running, room running]
  | false =>
      refine ⟨f.inbound, ?_⟩
      simp [step, pumped, session, TerminalSession.step, here, running]

theorem event_step {event : Client.Event} {rest : List Client.Event} (here : f.place = .select)
    (owner : f.hub.owner = true) (queue : f.hub.events = event :: rest) :
    ∃ f', f.step box codec decode .event = some f' ∧
      f'.hub = { f.hub with events := rest } := by
  simp [step, pumped, session, TerminalSession.step, here, queue, Hub.step, owner]

theorem sent_step {frame : Packet} {rest : List Packet} (queue : f.frames = frame :: rest)
    (room : f.outbound.length < Session.outboundQueueDepth) :
    f.step box codec decode (.sent true) =
      some { f with frames := rest, outbound := f.outbound ++ [frame] } := by
  simp [step, queue, room]

/-- The engine can handle every packet; a local connection that it would open may fail. -/
theorem handlePeer_refusing (s : EngineState) (answers : Bool) (stream : StreamId) (m : Message) :
    (s.handlePeer answers stream ⟨[], false, [], true⟩ m).isSome = true := by
  cases m with
  | request request =>
      have answered :
          (createDestination s.destinations request ⟨[], false, [], true⟩).isSome = true := by
        unfold createDestination
        split
        · rfl
        · split
          · rfl
          · dsimp only
            split <;> rfl
      rw [EngineState.handlePeer]
      split
      · rw [Option.isSome_map]
        exact answered
      · rfl
  | response response =>
      rw [EngineState.handlePeer]
      split
      · rfl
      · split
        · rfl
        · dsimp only
          split <;> rfl
  | data d =>
      rw [EngineState.handlePeer]
      split
      · rfl
      · dsimp only
        split <;> rfl

theorem take_step {packet : Packet} {rest : List Packet} (idle : f.frames = [])
    (queue : f.inbound = packet :: rest) (running : f.engine.running = true) :
    ∃ chance engine frames, f.step box codec decode (.take chance) =
      some { f with engine := engine, inbound := rest, frames := frames } := by
  have handled : (f.engine.step codec (.peer packet ⟨[], false, [], true⟩)).isSome = true := by
    have ready : f.engine.ready [] = true := by
      rw [Engine.ready, running]
      exact Bool.or_true _
    rw [Engine.step, if_pos ready]
    split
    · rfl
    · rw [Engine.receive, Option.isSome_map]
      exact handlePeer_refusing _ _ _ _
  obtain ⟨⟨engine, effects⟩, handled⟩ := Option.isSome_iff_exists.mp handled
  refine ⟨⟨[], false, [], true⟩, engine, (sentOf effects).map codec.packet, ?_⟩
  simp [step, idle, queue, handled]

theorem submit_step {frame : Packet} {packet : Option Packet}
    (here : f.place = .submitting frame packet) (owner : f.hub.owner = true)
    (running : f.hub.task.pc ≠ .ended) (room : f.hub.cmds.length < cmdQueueDepth) :
    ∃ f', f.step box codec decode .submit = some f' ∧ f'.place = .replying packet ∧
      f'.hub.cmds ≠ [] ∧ f.Paused f' := by
  let cmd := Cmd.write f.hub.started frame.header frame.payload
  let hub : Hub :=
    { f.hub with
      cmds := f.hub.cmds ++ [cmd]
      calls := (f.hub.calls ++ [cmd]).erase cmd
      started := f.hub.started + 1 }
  have stepped : f.step box codec decode .submit =
      some { f with hub := hub, awaits := some f.hub.started, place := .replying packet } := by
    simp [step, here, Hub.step, Hub.starts, owner, running, room, pumped, session,
      TerminalSession.step, Cmd.call?, cmd, hub]
  refine ⟨_, stepped, rfl, ?_, ⟨rfl, rfl, .inl rfl⟩, rfl⟩
  exact List.append_ne_nil_of_right_ne_nil _ (List.cons_ne_nil _ _)

section Supervisor

variable {h : Hub}

theorem recv_step {event : Backed.BackedEvent} {rest : List Backed.BackedEvent}
    (here : h.supervisor = .watching) (queue : h.backedEvents = event :: rest) :
    h.step box .recv =
      some ({ h with backedEvents := rest, supervisor := .receive event },
        Hub.entering (.receive event)) := by
  simp only [Hub.step, here, queue]

theorem forward_step {p : Packet} (here : h.supervisor = .forwarding p) (owner : h.owner = true)
    (room : h.events.length < clientQueueDepth) :
    h.step box .sent =
      some ({ h with events := h.events ++ [.packet p], supervisor := .watching }, []) := by
  simp only [Hub.step, here, if_pos owner, if_pos room]

theorem handshake_step (here : h.supervisor = .dialing) (outcome : Handshake) :
    h.step box (.handshake outcome) = some ({ h with supervisor := .dialed outcome }, []) := by
  simp only [Hub.step, here]

theorem asked_step {stream : Backed.SocketId} (here : h.supervisor = .recovering stream)
    (room : h.cmds.length < cmdQueueDepth) (running : h.task.pc ≠ .ended) :
    h.step box .asked =
      some ({ h with cmds := h.cmds ++ [.recover stream], supervisor := .awaiting }, []) := by
  simp only [Hub.step, here, if_pos (And.intro room running)]

theorem slept_step (here : h.supervisor = .sleeping) :
    h.step box .slept =
      some ({ h with supervisor := .dialing }, Hub.entering .dialing) := by
  simp only [Hub.step, here]

end Supervisor

theorem alive_of_ended (ended : f.hub.task.pc = .ended) : f.alive = false := by
  rw [alive, Backed.Task.finished, ended]
  simp [Backed.Pc.terminal]

theorem running_of_alive (alive : f.alive = true) : f.hub.task.pc ≠ .ended := by
  intro ended
  cases alive.symm.trans (alive_of_ended ended)

/-- What the task takes from is empty. Local connections aside, the engine takes from the
pump only. -/
def idle (f : Flow) : Party → Bool
  | .pump =>
      f.place = .select && f.hub.events.isEmpty &&
        (!f.pfOutbound || f.outbound.isEmpty && f.engine.running)
  | .engine => f.frames.isEmpty && (!f.engine.running || f.inbound.isEmpty)
  | .supervisor => f.hub.supervisor = .watching && f.hub.backedEvents.isEmpty
  | .actor => f.hub.task.pc = .select && f.hub.cmds.isEmpty

/-- The task can move, or there is a reason why not. -/
def Able (box : SecretBox) (codec : Codec Packet) (decode : Bytes → Option (Option Bytes))
    (f : Flow) (p : Party) : Prop :=
  f.blocked p = true ∨ f.idle p = true ∨ ∃ act f', act.party = some p ∧
    f.step box codec decode act = some f'

theorem Sound.pump_able (sound : f.Sound) (running : f.hub.task.pc ≠ .ended) :
    Able box codec decode f .pump := by
  cases here : f.place with
  | idle => exact .inr (.inr ⟨.call, _, rfl, call_step here⟩)
  | select =>
      cases events : f.hub.events with
      | cons event rest =>
          obtain ⟨f', stepped, _⟩ :=
            @event_step box codec decode f event rest here sound.hub.owner events
          exact .inr (.inr ⟨.event, f', rfl, stepped⟩)
      | nil =>
          cases routed : f.pfOutbound with
          | false =>
              right; left
              simp [idle, here, events, routed]
          | true =>
              right
              cases queue : f.outbound with
              | cons frame rest =>
                  have stepped :=
                    @outbound_step box codec decode f none frame rest here routed queue
                  exact .inr ⟨.outbound, _, rfl, stepped⟩
              | nil =>
                  cases runs : f.engine.running with
                  | true =>
                      left
                      simp [idle, here, events, queue, runs]
                  | false =>
                      right
                      refine ⟨.outbound, { f with pfOutbound := false }, rfl, ?_⟩
                      simp [step, pumped, session, TerminalSession.step, TerminalSession.outbound,
                        here, routed, queue, runs]
  | submitting frame packet =>
      by_cases room : f.hub.cmds.length < cmdQueueDepth
      · obtain ⟨f', stepped, _⟩ :=
          @submit_step box codec decode f frame packet here sound.hub.owner running room
        exact .inr (.inr ⟨.submit, f', rfl, stepped⟩)
      · left
        simp [blocked, here, running, Nat.not_lt.mp room]
  | replying packet =>
      cases waits : f.awaits with
      | none => exact .inr (.inr ⟨.reply, _, rfl, reply_step here waits⟩)
      | some call =>
          left
          simp [blocked, here, waits]
  | parked packet =>
      by_cases room : f.engine.running = true → f.inbound.length < inboundQueueDepth
      · obtain ⟨_, stepped⟩ := @reserve_step box codec decode f packet here room
        exact .inr (.inr ⟨.reserve, _, rfl, stepped⟩)
      · rw [Classical.not_imp, Nat.not_lt] at room
        obtain ⟨runs, full⟩ := room
        have routed := sound.routed runs
        cases queue : f.outbound with
        | nil =>
            left
            simp [blocked, here, runs, full, queue]
        | cons frame rest =>
            have stepped :=
              @outbound_step box codec decode f (some packet) frame rest here routed queue
            exact .inr (.inr ⟨.outbound, _, rfl, stepped⟩)

theorem engine_able : Able box codec decode f .engine := by
  cases queue : f.frames with
  | nil =>
      right
      cases running : f.engine.running with
      | false =>
          left
          simp [idle, queue, running]
      | true =>
          cases first : f.inbound with
          | nil =>
              left
              simp [idle, queue, first]
          | cons packet rest =>
              obtain ⟨chance, engine, frames, stepped⟩ :=
                @take_step box codec decode f packet rest queue first running
              exact .inr ⟨.take chance, _, rfl, stepped⟩
  | cons frame rest =>
      by_cases room : f.outbound.length < Session.outboundQueueDepth
      · exact .inr (.inr ⟨.sent true, _, rfl, sent_step queue room⟩)
      · cases down : f.engine.shutdown with
        | true =>
            refine .inr (.inr ⟨.sent false, { f with frames := rest }, rfl, ?_⟩)
            simp [step, queue, down]
        | false =>
            left
            simp [blocked, queue, down, Nat.not_lt.mp room]

theorem Sound.supervisor_able (sound : f.Sound) (alive : f.alive = true) :
    Able box codec decode f .supervisor := by
  have running := running_of_alive alive
  have moves (act : HubAct) {hub : Hub} {notes : List HubNote} (ours : leaves act = true)
      (own : (FlowAct.hub act).party = some .supervisor)
      (stepped : f.hub.step box act = some (hub, notes)) : Able box codec decode f .supervisor :=
    .inr (.inr ⟨.hub act, _, own, hub_step ours stepped⟩)
  cases here : f.hub.supervisor with
  | watching =>
      cases queue : f.hub.backedEvents with
      | nil =>
          right; left
          simp [idle, here, queue]
      | cons event rest => exact moves .recv rfl rfl (recv_step here queue)
  | forwarding p =>
      by_cases room : f.hub.events.length < clientQueueDepth
      · exact moves .sent rfl rfl (forward_step here sound.hub.owner room)
      · left
        simp [blocked, here, sound.hub.owner, Nat.not_lt.mp room]
  | dialing => exact moves (.handshake .failed) rfl rfl (handshake_step here .failed)
  | recovering stream =>
      by_cases room : f.hub.cmds.length < cmdQueueDepth
      · exact moves .asked rfl rfl (asked_step here room running)
      · left
        simp [blocked, here, running, Nat.not_lt.mp room]
  | awaiting =>
      left
      simp [blocked, here, running]
  | sleeping => exact moves .slept rfl rfl (slept_step here)
  | reporting | shuttingDown | returned =>
      rw [Flow.alive, here] at alive
      simp at alive

theorem Sound.actor_able (sound : f.Sound) (alive : f.alive = true) :
    Able box codec decode f .actor := by
  have running := running_of_alive alive
  have moves (act : Backed.Act) {hub : Hub} {notes : List HubNote} (own : act.own = true)
      (stepped : f.hub.step box (.actor act) = some (hub, notes)) :
      Able box codec decode f .actor :=
    .inr (.inr ⟨.hub (.actor act), _, if_pos own, hub_step rfl stepped⟩)
  cases ready : f.hub.task.serves with
  | false =>
      obtain ⟨_, _, stepped, _⟩ := @Hub.Sound.comes_home box f.hub sound.hub.sound ready running
      exact moves _ f.hub.task.own_homeward stepped
  | true =>
      cases queue : f.hub.cmds with
      | cons cmd rest =>
          obtain ⟨_, _, stepped, _⟩ :=
            @Hub.Sound.serves_next box f.hub sound.hub.sound ready cmd rest queue
          exact moves _ (Hub.own_act cmd) stepped
      | nil =>
          obtain ⟨alone, serving⟩ := Backed.Task.serving_of_serves ready
          cases out : f.hub.task.outgoing with
          | none =>
              right; left
              have here : f.hub.task.pc = .select := by
                unfold Backed.Task.outgoing at out
                cases place : f.hub.task.pc <;> simp_all [Backed.Pc.serving]
              simp [idle, here, queue]
          | some event =>
              have consumer : f.hub.task.consumer = true := by
                rcases sound.hub.sound.consumer with there | finished
                · exact there
                · rw [Flow.alive, finished, Bool.and_false] at alive
                  cases alive
              by_cases room : f.hub.backedEvents.length < Client.eventQueueDepth
              · have sends : f.hub.task.step box .send =
                    some ({ f.hub.task with pc := .deliver }, [.event event]) := by
                  rw [Backed.Task.step, if_pos ⟨alone, consumer⟩, out]
                  rfl
                have offered : f.hub.offers .send = true := decide_eq_true room
                apply moves .send rfl
                rw [Hub.step, if_pos offered, sends]
                rfl
              · left
                simp [blocked, alone, out, consumer, Nat.not_lt.mp room, queue]

/-- A task of a living session that cannot move is blocked, or has nothing to do. -/
theorem Sound.able (sound : f.Sound) (alive : f.alive = true) (p : Party) :
    Able box codec decode f p := by
  cases p with
  | pump => exact sound.pump_able (running_of_alive alive)
  | engine => exact engine_able
  | supervisor => exact sound.supervisor_able alive
  | actor => exact sound.actor_able alive

theorem party_hub {a : HubAct} {p : Party} (own : (FlowAct.hub a).party = some p) :
    (p = .actor ∧ ∃ act, a = .actor act ∧ act.own = true) ∨
      p = .supervisor ∧ ∀ act, a ≠ .actor act := by
  cases a with
  | actor act =>
      simp only [FlowAct.party] at own
      split at own <;> cases own
      exact .inl ⟨rfl, act, rfl, ‹_›⟩
  | handshake outcome =>
      cases outcome <;> cases own <;> exact .inr ⟨rfl, nofun⟩
  | _ =>
      cases own <;> exact .inr ⟨rfl, nofun⟩

/-- Events are taken at the `select!` of `next_event`. -/
theorem place_of_event (stepped : f.step box codec decode .event = some f') :
    f.place = .select := by
  have there {g : Flow} {e : Option Client.Event}
      (pumped : g.pumped decode (.event e) = some f') (same : g.place = f.place) :
      f.place = .select := by
    obtain ⟨_, taken, _⟩ := Option.map_eq_some_iff.mp pumped
    rw [TerminalSession.step] at taken
    split at taken
    · exact same.symm.trans ‹_›
    · cases taken
  simp only [step] at stepped
  split at stepped
  · obtain ⟨_, _, pumped⟩ := Option.bind_eq_some_iff.mp stepped
    exact there pumped rfl
  · split at stepped
    · exact there stepped rfl
    · cases stepped

theorem pump_stuck {q : Party} (waits : f.Waits .pump q) (owner : f.hub.owner = true)
    (alive : f.alive = true) {act : FlowAct} (own : act.party = some .pump)
    (stepped : f.step box codec decode act = some f') : f' = f := by
  have still : f.hub.supervisor ≠ .returned := by
    intro finished
    rw [Flow.alive, finished, Bool.and_false] at alive
    cases alive
  cases act with
  | hub a => rcases party_hub own with ⟨other, _⟩ | ⟨other, _⟩ <;> cases other
  | drop | startPortForwarding | take | handle | sent | «local» => cases own
  | event =>
      have here := place_of_event stepped
      cases waits with
      | slot _ _ there | reply _ _ there | permit _ there => cases here.symm.trans there
  | call =>
      cases waits with
      | slot _ _ here | reply _ _ here | permit _ here =>
          simp [step, pumped, session, TerminalSession.step, here] at stepped
  | outbound =>
      cases waits with
      | slot _ _ here | reply _ _ here =>
          cases queue : f.outbound <;>
            simp [step, pumped, session, TerminalSession.step, here, queue] at stepped
      | permit _ here running _ drained =>
          cases routed : f.pfOutbound with
          | false =>
              cases queue : f.outbound <;>
                simp [step, pumped, session, TerminalSession.step, here, routed, queue] at stepped
          | true =>
              simp [step, pumped, session, TerminalSession.step, TerminalSession.outbound, here,
                routed, drained routed, running] at stepped
  | submit =>
      cases waits with
      | slot _ _ here running full =>
          simp [step, here, Hub.step, Hub.starts, owner, running, Nat.not_lt.mpr full] at stepped
      | reply _ _ here | permit _ here => simp [step, here] at stepped
  | reply =>
      cases waits with
      | slot _ _ here | permit _ here =>
          simp [step, pumped, session, TerminalSession.step, here] at stepped
      | reply _ _ here waits => simp [step, waits] at stepped
  | reserve =>
      cases waits with
      | slot _ _ here | reply _ _ here => simp [step, here] at stepped
      | permit _ here running full => simp [step, here, running, Nat.not_lt.mpr full] at stepped
  | tick =>
      cases waits with
      | slot _ _ here | reply _ _ here =>
          simp [step, pumped, session, TerminalSession.step, here] at stepped
      | permit _ here =>
          simp only [step, pumped, session, TerminalSession.step, here, still, decide_false,
            Option.map_some, Option.some.injEq, Bool.false_eq_true, if_false] at stepped
          rw [← stepped, ← here]

theorem engine_stuck {q : Party} (waits : f.Waits .engine q) {act : FlowAct}
    (own : act.party = some .engine) : f.step box codec decode act = none := by
  cases waits with
  | frame frame rest queue up full =>
      cases act with
      | hub a => rcases party_hub own with ⟨other, _⟩ | ⟨other, _⟩ <;> cases other
      | take | handle => simp [step, queue]
      | sent taken =>
          cases taken with
          | true => simp [step, queue, Nat.not_lt.mpr full]
          | false => simp [step, queue, up]
      | _ => cases own

theorem supervisor_stuck {q : Party} (waits : f.Waits .supervisor q)
    (owner : f.hub.owner = true) {act : FlowAct} (own : act.party = some .supervisor) :
    f.step box codec decode act = none := by
  cases act with
  | hub a =>
      apply hub_none
      obtain ⟨other, _⟩ | ⟨_, other⟩ := party_hub own
      · cases other
      · cases waits with
        | event here full =>
            have crowded := Nat.not_lt.mpr full
            rcases here with ⟨p, here⟩ | ⟨reason, shutdown, here⟩ <;>
              cases a <;> simp_all [Hub.step, FlowAct.party]
        | ask here running full =>
            have crowded := Nat.not_lt.mpr full
            rcases here with ⟨stream, here⟩ | here <;>
              cases a <;> simp_all [Hub.step, FlowAct.party]
        | recovery here running =>
            cases a <;> simp_all [Hub.step, FlowAct.party]
  | _ => cases own

theorem actor_stuck {q : Party} (waits : f.Waits .actor q) (owner : f.hub.owner = true)
    {act : FlowAct} (own : act.party = some .actor) : f.step box codec decode act = none := by
  cases act with
  | hub a =>
      obtain ⟨_, act, rfl, mine⟩ | ⟨other, _⟩ := party_hub own
      · apply hub_none
        cases waits with
        | send event idle out consumer full empty =>
            have crowded := Nat.not_lt.mpr full
            have place : f.hub.task.pc = .notify ∨ ∃ p, f.hub.task.pc = .sending p := by
              unfold Backed.Task.outgoing at out
              split at out
              · exact .inl ‹_›
              · exact .inr ⟨_, ‹_›⟩
              · cases out
            cases act with
            | write | killSocket | recover => simp [Hub.step, Hub.offers, empty]
            | shutdown => simp [Hub.step, Hub.offers, empty, owner]
            | send => simp [Hub.step, Hub.offers, crowded]
            | settle | deliver | sendDead | finish =>
                rcases place with here | ⟨p, here⟩ <;>
                  simp [Hub.step, Backed.Task.step, here]
            | exchangeFails => simp [Hub.step, Backed.Task.step, idle]
            | _ => cases mine
      · cases other
  | _ => cases own

/-- A blocked task does nothing by itself; the 100 ms of a parked pump change nothing. -/
theorem Sound.stuck (sound : f.Sound) (alive : f.alive = true) {p : Party}
    (blocked : f.blocked p = true) (stepped : StepOf box codec decode (· = p) f f') : f' = f := by
  obtain ⟨act, q, own, rfl, stepped⟩ := stepped
  have waits := waits_of_blocked blocked
  cases q with
  | pump => exact pump_stuck waits sound.hub.owner alive own stepped
  | engine => cases (engine_stuck waits own).symm.trans stepped
  | supervisor => cases (supervisor_stuck waits sound.hub.owner own).symm.trans stepped
  | actor => cases (actor_stuck waits sound.hub.owner own).symm.trans stepped

end Flow

end Session

end Et
