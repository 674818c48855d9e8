import EtClient.Forward.Protobuf
import EtClient.Session.Codec
import EtClient.Session.Steps

/-!
# Every wait ends

A blocked task is freed by the others. The actor comes home and serves every command that
was left for it, whatever it was doing. Then the writes of the pump return, so that the
pump gets back to a `select!`: there it takes frames of the engine and, when it is not
parked, events of the supervisor. A parked pump takes frames until the engine has sent all
that its handler had to send and takes a packet. The supervisor takes events of the actor,
or leaves a command for it.

The steps that free a task are those of the other tasks, without news from outside: no
packet of the peer, no local connection and no call of the embedder apart from its poll of
`next_event`. They free it, or they end the session, by a command or a frame that was
already there.
-/

namespace Et

namespace Session

open Client Forward

namespace Flow

variable {box : SecretBox} {codec : Codec Packet} {decode : Bytes → Option (Option Bytes)}
variable {f f' : Flow} {tasks : Party → Prop}

theorem stillAwaits_append (f : Flow) (hub : Hub) (log more : List HubNote) :
    stillAwaits { f with hub := hub, awaits := f.stillAwaits log } more =
      f.stillAwaits (log ++ more) := by
  simp only [stillAwaits, Option.filter_filter, List.any_append]
  congr 1
  funext call
  rw [Bool.not_or, Bool.and_comm]

/-- What the actor does with its commands, it does in the session. -/
theorem passes_of_leads {cfg : Backed.BackedConfig} {now : Backed.Instant}
    {more : List HubNote} {hub : Hub} (may : tasks .actor)
    (onward : (Hub.system box cfg now).Leads Hub.ofActor f.hub more hub) :
    Passes box codec decode tasks f { f with hub := hub, awaits := f.stillAwaits more } := by
  induction onward with
  | start =>
      have same : f.stillAwaits [] = f.awaits := by
        rw [stillAwaits]
        cases f.awaits <;> rfl
      rw [same]
      exact .refl
  | @next log effects hub hub' act _ own stepped ih =>
      cases act with
      | actor act =>
          have party : (FlowAct.hub (.actor act)).party = some .actor := if_pos own
          rw [← stillAwaits_append f hub]
          exact ih.trans (passes_step party may (hub_step rfl stepped))
      | _ => exact absurd own id

/-- The actor has served every command. -/
structure Drained (f f' : Flow) : Prop where
  same : f' = { f with hub := f'.hub, awaits := none }
  hub : f'.hub =
    { f.hub with task := f'.hub.task, cmds := [], supervisor := f'.hub.supervisor }
  supervisor : f'.hub.supervisor = f.hub.supervisor ∨
    f.hub.supervisor = .awaiting ∧ f'.hub.supervisor = .sleeping
  serves : f'.hub.task.serves = true

theorem Sound.drains (cfg : Backed.BackedConfig) (now : Backed.Instant) (sound : f.Sound)
    (may : tasks .actor) :
    ∃ f', Passes box codec decode tasks f f' ∧ (f'.alive = false ∨ f.Drained f') := by
  obtain ⟨more, hub, onward, ⟨_, served⟩, ended | ⟨empty, serves⟩⟩ :=
    @Hub.Sound.drains box f.hub cfg now sound.hub.sound
  · exact ⟨_, passes_of_leads may onward, .inl (alive_of_ended ended)⟩
  · refine ⟨_, passes_of_leads may onward, .inr ⟨?_, ?_, served.supervisor, serves⟩⟩
    · have replied : f.stillAwaits more = none := by
        refine Option.filter_eq_none_iff.mpr ?_
        intro call waits
        obtain ⟨cmd, queued, carries⟩ := sound.asked call waits
        rcases served.answered cmd queued with still | answered
        · rw [empty] at still
          cases still
        · obtain ⟨failure, told⟩ := answered call carries
          simp only [Bool.not_eq_true, Bool.not_eq_false', List.any_eq_true]
          exact ⟨_, told, decide_eq_true rfl⟩
      rw [replied]
    · have same := served.same
      rw [empty] at same
      exact same

theorem Drained.running (drained : f.Drained f') : f'.hub.task.pc ≠ .ended := by
  intro ended
  have serving := (Backed.Task.serving_of_serves drained.serves).2
  rw [ended] at serving
  cases serving

theorem Drained.paused (drained : f.Drained f') : f.Paused f' := by
  refine ⟨⟨?_, ?_, drained.supervisor⟩, ?_⟩
  · rw [drained.hub]
  · rw [drained.hub]
  · rw [drained.same]

/-- A write of the pump returns, unless `done` comes first. -/
def Answers (box : SecretBox) (codec : Codec Packet) (decode : Bytes → Option (Option Bytes))
    (tasks : Party → Prop) (done : Flow → Prop) : Prop :=
  ∀ (f : Flow) (packet : Option Packet), f.Sound → ¬ done f →
    (f.place = .replying packet ∨ ∃ frame, f.place = .submitting frame packet) →
    ∃ f', Passes box codec decode tasks f f' ∧
      (done f' ∨ f'.place = .resume packet ∧ f.Paused f')

/-- The actor serves the write. -/
theorem answers_of_actor (cfg : Backed.BackedConfig) (now : Backed.Instant) (pump : tasks .pump)
    (actor : tasks .actor) :
    Answers box codec decode tasks fun f => f.alive = false := by
  have replies (f : Flow) (packet : Option Packet) (sound : f.Sound)
      (here : f.place = .replying packet) : ∃ f', Passes box codec decode tasks f f' ∧
        (f'.alive = false ∨ f'.place = .resume packet ∧ f.Paused f') := by
    obtain ⟨served, passes, finished | drained⟩ :=
      @Sound.drains box codec decode f tasks cfg now sound actor
    · exact ⟨served, passes, .inl finished⟩
    · have still : served.place = .replying packet := by
        rw [drained.same]
        exact here
      have replied : served.awaits = none := by
        rw [drained.same]
      refine ⟨_, passes.trans (passes_step rfl pump (reply_step still replied)), .inr ⟨rfl, ?_⟩⟩
      exact drained.paused.trans ⟨⟨rfl, rfl, .inl rfl⟩, rfl⟩
  intro f packet sound _ here
  rcases here with here | ⟨frame, here⟩
  · exact replies f packet sound here
  · obtain ⟨served, passes, finished | drained⟩ :=
      @Sound.drains box codec decode f tasks cfg now sound actor
    · exact ⟨served, passes, .inl finished⟩
    · have settled := passes_sound passes sound
      have still : served.place = .submitting frame packet := by
        rw [drained.same]
        exact here
      have room : served.hub.cmds.length < cmdQueueDepth := by
        rw [drained.hub]
        exact Nat.zero_lt_succ _
      obtain ⟨submitted, stepped, waits, _, taken⟩ :=
        @submit_step box codec decode served frame packet still settled.hub.owner drained.running
          room
      obtain ⟨replied, returns, result⟩ :=
        replies submitted packet (step_sound stepped settled) waits
      refine ⟨replied, (passes.trans (passes_step rfl pump stepped)).trans returns,
        result.imp_right ?_⟩
      rintro ⟨back, paused⟩
      exact ⟨back, (drained.paused.trans taken).trans paused⟩

/-- A write waits for nothing but the actor. -/
theorem answers_of_pump (pump : tasks .pump) :
    Answers box codec decode tasks fun f => f.alive = false ∨ f.hub.cmds ≠ [] := by
  intro f packet sound undone here
  rw [not_or, not_not] at undone
  obtain ⟨alive, empty⟩ := undone
  rcases here with here | ⟨frame, here⟩
  · have replied : f.awaits = none := by
      rw [Option.eq_none_iff_forall_ne_some]
      intro call waits
      obtain ⟨cmd, queued, _⟩ := sound.asked call waits
      rw [empty] at queued
      cases queued
    exact ⟨_, passes_step rfl pump (reply_step here replied),
      .inr ⟨rfl, ⟨rfl, rfl, .inl rfl⟩, rfl⟩⟩
  · have running : f.hub.task.pc ≠ .ended := fun ended => alive (alive_of_ended ended)
    have room : f.hub.cmds.length < cmdQueueDepth := by
      rw [empty]
      exact Nat.zero_lt_succ _
    obtain ⟨f', stepped, _, some, _⟩ :=
      @submit_step box codec decode f frame packet here sound.hub.owner running room
    exact ⟨f', passes_step rfl pump stepped, .inl (.inr some)⟩

section Search

variable {done : Flow → Prop}

/-- The pump gets to a `select!`. -/
theorem Sound.resumes (sound : f.Sound) (answers : Answers box codec decode tasks done)
    (pump : tasks .pump) : ∃ f', Passes box codec decode tasks f f' ∧
      (done f' ∨ (∃ packet, f'.place = .resume packet) ∧ f.Paused f') := by
  by_cases finished : done f
  · exact ⟨f, .refl, .inl finished⟩
  · have answered (packet : Option Packet)
        (here : f.place = .replying packet ∨ ∃ frame, f.place = .submitting frame packet) :
        ∃ f', Passes box codec decode tasks f f' ∧
          (done f' ∨ (∃ packet, f'.place = .resume packet) ∧ f.Paused f') := by
      obtain ⟨f', passes, result⟩ := answers f packet sound finished here
      exact ⟨f', passes, result.imp_right fun ⟨back, paused⟩ => ⟨⟨packet, back⟩, paused⟩⟩
    cases here : f.place with
    | idle =>
        exact ⟨_, passes_step rfl pump (call_step here),
          .inr ⟨⟨none, rfl⟩, ⟨rfl, rfl, .inl rfl⟩, rfl⟩⟩
    | select => exact ⟨f, .refl, .inr ⟨⟨none, here⟩, .refl f⟩⟩
    | submitting frame packet => exact answered packet (.inr ⟨frame, here⟩)
    | replying packet => exact answered packet (.inl here)
    | parked packet => exact ⟨f, .refl, .inr ⟨⟨some packet, here⟩, .refl f⟩⟩

/-- A parked pump gets rid of its packet. The engine sends the frames of its handler one by
one, and the pump makes room for each. -/
theorem Sound.unparks (answers : Answers box codec decode tasks done) (pump : tasks .pump)
    (engine : tasks .engine) (count : Nat) {f : Flow} (sound : f.Sound) {packet : Packet}
    (here : f.place = .parked packet) (left : f.frames.length = count) :
    ∃ f', Passes box codec decode tasks f f' ∧
      (done f' ∨ f'.place = .select ∧ Held f.hub f'.hub) := by
  have reserves {g : Flow} (parked : g.place = .parked packet)
      (room : g.engine.running = true → g.inbound.length < inboundQueueDepth) :
      ∃ f', Passes box codec decode tasks g f' ∧ f'.place = .select ∧ Held g.hub f'.hub := by
    obtain ⟨inbound, stepped⟩ := @reserve_step box codec decode g packet parked room
    exact ⟨_, passes_step rfl pump stepped, rfl, rfl, rfl, .inl rfl⟩
  induction count generalizing f with
  | zero =>
      by_cases room : f.engine.running = true → f.inbound.length < inboundQueueDepth
      · obtain ⟨f', passes, free⟩ := reserves here room
        exact ⟨f', passes, .inr free⟩
      · rw [Classical.not_imp] at room
        obtain ⟨running, full⟩ := room
        have bound := sound.inbound
        cases queue : f.inbound with
        | nil =>
            rw [queue] at full
            exact absurd (Nat.zero_lt_succ _) full
        | cons first rest =>
            rw [queue] at bound
            obtain ⟨chance, engine', frames, stepped⟩ :=
              @take_step box codec decode f first rest (List.eq_nil_of_length_eq_zero left) queue
                running
            obtain ⟨f', passes, free, held⟩ := reserves
              (g := { f with engine := engine', inbound := rest, frames := frames }) here
              fun _ => bound
            exact ⟨f', .head ⟨_, _, rfl, engine, stepped⟩ passes, .inr ⟨free, held⟩⟩
  | succ count ih =>
      obtain ⟨frame, rest, queue⟩ := List.exists_cons_of_length_eq_add_one left
      have sends {g : Flow} (passes : Passes box codec decode tasks f g) (held : Held f.hub g.hub)
          (parked : g.place = .parked packet) (waiting : g.frames = frame :: rest)
          (room : g.outbound.length < Session.outboundQueueDepth) :
          ∃ f', Passes box codec decode tasks f f' ∧
            (done f' ∨ f'.place = .select ∧ Held f.hub f'.hub) := by
        have stepped := @sent_step box codec decode g frame rest waiting room
        have sent := passes.tail ⟨_, _, rfl, engine, stepped⟩
        rw [queue] at left
        obtain ⟨f', onward, result⟩ :=
          ih (passes_sound sent sound) parked (Nat.succ.inj left)
        refine ⟨f', sent.trans onward, result.imp_right ?_⟩
        rintro ⟨free, later⟩
        exact ⟨free, held.trans later⟩
      by_cases room : f.outbound.length < Session.outboundQueueDepth
      · exact sends .refl (.refl _) here queue room
      · have running : f.engine.running = true := by
          by_contra stopped
          cases queue.symm.trans (sound.stopped (Bool.eq_false_of_not_eq_true stopped))
        have bound := sound.outbound
        cases full : f.outbound with
        | nil =>
            rw [full] at room
            exact absurd (Nat.zero_lt_succ _) room
        | cons first others =>
            rw [full] at bound
            have taken := @outbound_step box codec decode f (some packet) first others here
              (sound.routed running) full
            have takes := @passes_step box codec decode f _ tasks _ _ rfl pump taken
            by_cases finished : done { f with
                outbound := others, place := .submitting first (some packet) }
            · exact ⟨_, takes, .inl finished⟩
            · obtain ⟨back, returns, finished | ⟨parked, paused⟩⟩ :=
                answers _ (some packet) (passes_sound takes sound) finished (.inr ⟨first, rfl⟩)
              · exact ⟨back, takes.trans returns, .inl finished⟩
              · refine sends (takes.trans returns) paused.toHeld parked ?_ ?_
                · rw [paused.same]
                  exact queue
                · rw [paused.same]
                  exact bound

/-- The pump gets to the `select!` of `next_event`. -/
theorem Sound.selects (sound : f.Sound) (answers : Answers box codec decode tasks done)
    (pump : tasks .pump) (engine : tasks .engine) : ∃ f', Passes box codec decode tasks f f' ∧
      (done f' ∨ f'.place = .select ∧ Held f.hub f'.hub) := by
  obtain ⟨back, passes, finished | ⟨⟨packet, here⟩, paused⟩⟩ := sound.resumes answers pump
  · exact ⟨back, passes, .inl finished⟩
  · cases packet with
    | none => exact ⟨back, passes, .inr ⟨here, paused.toHeld⟩⟩
    | some packet =>
        obtain ⟨f', onward, result⟩ :=
          Sound.unparks answers pump engine _ (passes_sound passes sound) here rfl
        exact ⟨f', passes.trans onward,
          result.imp_right fun ⟨free, held⟩ => ⟨free, paused.toHeld.trans held⟩⟩

end Search

/-- Steps of the other tasks free it, or end the session. -/
def Freed (box : SecretBox) (codec : Codec Packet) (decode : Bytes → Option (Option Bytes))
    (f : Flow) (p : Party) : Prop :=
  ∃ f', Passes box codec decode (· ≠ p) f f' ∧ (f'.blocked p = false ∨ f'.alive = false)

theorem Freed.of_passes {p : Party} (passes : Passes box codec decode (· ≠ p) f f')
    (freed : Freed box codec decode f' p) : Freed box codec decode f p := by
  obtain ⟨last, onward, result⟩ := freed
  exact ⟨last, passes.trans onward, result⟩

theorem Freed.of_step {act : FlowAct} {p q : Party} (own : act.party = some q) (other : q ≠ p)
    (stepped : f.step box codec decode act = some f') (freed : Freed box codec decode f' p) :
    Freed box codec decode f p :=
  .of_passes (passes_step own other stepped) freed

theorem Drained.frees_pump (drained : f.Drained f')
    (here : (∃ frame packet, f.place = .submitting frame packet) ∨
      ∃ packet, f.place = .replying packet) : f'.blocked .pump = false := by
  have place : f'.place = f.place := by
    rw [drained.same]
  have empty : f'.hub.cmds = [] := by
    rw [drained.hub]
  have replied : f'.awaits = none := by
    rw [drained.same]
  rcases here with ⟨frame, packet, here⟩ | ⟨packet, here⟩
  · simp [blocked, place, here, empty, cmdQueueDepth]
  · simp [blocked, place, here, replied]

theorem Sound.pump_freed (cfg : Backed.BackedConfig) (now : Backed.Instant) (sound : f.Sound)
    {q : Party} (waits : f.Waits .pump q) : Freed box codec decode f .pump := by
  have actor (here : (∃ frame packet, f.place = .submitting frame packet) ∨
      ∃ packet, f.place = .replying packet) : Freed box codec decode f .pump := by
    obtain ⟨f', passes, finished | drained⟩ :=
      @Sound.drains box codec decode f (· ≠ .pump) cfg now sound nofun
    · exact ⟨f', passes, .inr finished⟩
    · exact ⟨f', passes, .inl (drained.frees_pump here)⟩
  cases waits with
  | slot frame packet here => exact actor (.inl ⟨frame, packet, here⟩)
  | reply packet call here => exact actor (.inr ⟨packet, here⟩)
  | permit packet here running full drained =>
      have empty := drained (sound.routed running)
      cases queue : f.frames with
      | nil =>
          have bound := sound.inbound
          cases first : f.inbound with
          | nil =>
              rw [first] at full
              cases full
          | cons next rest =>
              rw [first] at bound
              obtain ⟨chance, engine, frames, stepped⟩ :=
                @take_step box codec decode f next rest queue first running
              refine ⟨_, passes_step (p := .engine) rfl nofun stepped, .inl ?_⟩
              have room : ¬ inboundQueueDepth ≤ rest.length := Nat.not_le.mpr bound
              simp [blocked, here, room]
      | cons frame rest =>
          have room : f.outbound.length < Session.outboundQueueDepth := by
            rw [empty]
            exact Nat.zero_lt_succ _
          refine ⟨_, passes_step (p := .engine) rfl nofun (sent_step queue room), .inl ?_⟩
          simp [blocked, here, sound.routed running]

theorem Sound.engine_freed (cfg : Backed.BackedConfig) (now : Backed.Instant) (sound : f.Sound)
    {q : Party} (waits : f.Waits .engine q) : Freed box codec decode f .engine := by
  cases waits with
  | frame frame rest queue up full =>
      have running : f.engine.running = true := by
        by_contra stopped
        cases queue.symm.trans (sound.stopped (Bool.eq_false_of_not_eq_true stopped))
      have answers := @answers_of_actor box codec decode (· ≠ .engine) cfg now nofun nofun
      obtain ⟨back, passes, finished | ⟨⟨packet, here⟩, paused⟩⟩ := sound.resumes answers nofun
      · exact ⟨back, passes, .inr finished⟩
      · have routed : back.pfOutbound = true := by
          rw [paused.same]
          exact sound.routed running
        have waiting : back.outbound = f.outbound := by
          rw [paused.same]
        have bound := sound.outbound
        cases first : f.outbound with
        | nil =>
            rw [first] at full
            cases full
        | cons next others =>
            rw [first] at bound waiting
            have room : ¬ Session.outboundQueueDepth ≤ others.length := Nat.not_le.mpr bound
            refine ⟨_, passes.tail ⟨.outbound, .pump, rfl, nofun,
              outbound_step here routed waiting⟩, .inl ?_⟩
            simp [blocked, room]

theorem Sound.supervisor_freed (cfg : Backed.BackedConfig) (now : Backed.Instant)
    (sound : f.Sound) {q : Party} (waits : f.Waits .supervisor q) :
    Freed box codec decode f .supervisor := by
  cases waits with
  | event here full =>
      have answers := @answers_of_actor box codec decode (· ≠ .supervisor) cfg now nofun nofun
      obtain ⟨back, passes, finished | ⟨free, held⟩⟩ := sound.selects answers nofun nofun
      · exact ⟨back, passes, .inr finished⟩
      · have settled := passes_sound passes sound
        have bound := sound.hub.events
        cases queue : f.hub.events with
        | nil =>
            rw [queue] at full
            cases full
        | cons event rest =>
            rw [queue] at bound
            obtain ⟨f', stepped, hub⟩ := @event_step box codec decode back event rest free
              settled.hub.owner (held.events.trans queue)
            refine ⟨f', passes.tail ⟨.event, .pump, rfl, nofun, stepped⟩, .inl ?_⟩
            have room : ¬ clientQueueDepth ≤ rest.length := Nat.not_le.mpr bound
            have same : f'.hub.supervisor = f.hub.supervisor := by
              rw [hub]
              rcases held.supervisor with same | ⟨waits, _⟩
              · exact same
              · rcases here with ⟨p, here⟩ | ⟨reason, shutdown, here⟩ <;>
                  cases here.symm.trans waits
            have events : f'.hub.events = rest := by
              rw [hub]
            rcases here with ⟨p, here⟩ | ⟨reason, shutdown, here⟩
            · simp [blocked, same, here, events, room]
            · simp [blocked, same, here, events, room]
  | ask here =>
      obtain ⟨f', passes, finished | drained⟩ :=
        @Sound.drains box codec decode f (· ≠ .supervisor) cfg now sound nofun
      · exact ⟨f', passes, .inr finished⟩
      · refine ⟨f', passes, .inl ?_⟩
        have empty : f'.hub.cmds = [] := by
          rw [drained.hub]
        rcases drained.supervisor with same | ⟨waits, _⟩
        · rcases here with ⟨stream, here⟩ | here
          · simp [blocked, same, here, empty, cmdQueueDepth]
          · simp [blocked, same, here, empty, cmdQueueDepth]
        · rcases here with ⟨stream, here⟩ | here <;> cases here.symm.trans waits
  | recovery here =>
      obtain ⟨f', passes, finished | drained⟩ :=
        @Sound.drains box codec decode f (· ≠ .supervisor) cfg now sound nofun
      · exact ⟨f', passes, .inr finished⟩
      · refine ⟨f', passes, .inl ?_⟩
        have empty : f'.hub.cmds = [] := by
          rw [drained.hub]
        have idle := (Backed.Task.serving_of_serves drained.serves).1
        have answered := (passes_sound passes sound).hub.sound.asks_none drained.running empty idle
        rcases drained.supervisor with same | ⟨_, sleeps⟩
        · exact absurd (same.trans here) answered
        · simp [blocked, sleeps]

/-- The supervisor takes an event, which makes room for the next. -/
theorem Sound.recv_frees (sound : f.Sound) (here : f.hub.supervisor = .watching)
    (full : f.hub.backedEvents ≠ []) : Freed box codec decode f .actor := by
  obtain ⟨event, rest, queue⟩ := List.exists_cons_of_ne_nil full
  have bound := sound.hub.backedEvents
  rw [queue] at bound
  have room : ¬ Client.eventQueueDepth ≤ rest.length := Nat.not_le.mpr bound
  refine ⟨_, passes_step (p := .supervisor) rfl nofun (hub_step rfl (recv_step here queue)),
    .inl ?_⟩
  simp [blocked, room]

/-- The supervisor leaves a command. -/
theorem ask_frees (running : f.hub.task.pc ≠ .ended) (empty : f.hub.cmds = [])
    {stream : Backed.SocketId} (here : f.hub.supervisor = .recovering stream) :
    Freed box codec decode f .actor := by
  have room : f.hub.cmds.length < cmdQueueDepth := by
    rw [empty]
    exact Nat.zero_lt_succ _
  refine ⟨_, passes_step (p := .supervisor) rfl nofun
    (hub_step rfl (asked_step here room running)), .inl ?_⟩
  simp [blocked]

theorem dial_frees (running : f.hub.task.pc ≠ .ended) (empty : f.hub.cmds = [])
    (here : f.hub.supervisor = .dialing) : Freed box codec decode f .actor :=
  .of_step (q := .supervisor) rfl nofun (hub_step rfl (handshake_step here (.returning 0)))
    (ask_frees running empty rfl)

theorem Sound.forward_frees (sound : f.Sound) {p : Packet}
    (here : f.hub.supervisor = .forwarding p) (room : f.hub.events.length < clientQueueDepth)
    (full : f.hub.backedEvents ≠ []) : Freed box codec decode f .actor := by
  have forwarded := @hub_step box codec decode f .sent _ _ rfl
    (forward_step here sound.hub.owner room)
  exact .of_step (q := .supervisor) rfl nofun forwarded
    ((step_sound forwarded sound).recv_frees rfl full)

/-- The pump takes an event, so that the supervisor gets on. -/
theorem Sound.delivery_frees (sound : f.Sound) {p : Packet}
    (here : f.hub.supervisor = .forwarding p) (full : clientQueueDepth ≤ f.hub.events.length)
    (some : f.hub.backedEvents ≠ []) : Freed box codec decode f .actor := by
  have answers := @answers_of_pump box codec decode (· ≠ .actor) nofun
  obtain ⟨back, passes, (finished | busy) | ⟨free, held⟩⟩ := sound.selects answers nofun nofun
  · exact ⟨back, passes, .inr finished⟩
  · refine ⟨back, passes, .inl ?_⟩
    simp [blocked, busy]
  · have settled := passes_sound passes sound
    have bound := sound.hub.events
    cases queue : f.hub.events with
    | nil =>
        rw [queue] at full
        cases full
    | cons event rest =>
        rw [queue] at bound
        obtain ⟨f', stepped, hub⟩ := @event_step box codec decode back event rest free
          settled.hub.owner (held.events.trans queue)
        refine .of_passes (passes.tail ⟨.event, .pump, rfl, nofun, stepped⟩)
          ((step_sound stepped settled).forward_frees (p := p) ?_ ?_ ?_)
        · rw [hub]
          rcases held.supervisor with same | ⟨waits, _⟩
          · exact same.trans here
          · cases here.symm.trans waits
        · rw [hub]
          exact bound
        · rw [hub]
          exact held.backedEvents ▸ some

theorem Sound.actor_freed (sound : f.Sound) (alive : f.alive = true) {q : Party}
    (waits : f.Waits .actor q) : Freed box codec decode f .actor := by
  cases waits with
  | send event idle sends consumer full empty =>
      have running := running_of_alive alive
      have some : f.hub.backedEvents ≠ [] := by
        intro none
        rw [none] at full
        cases full
      cases here : f.hub.supervisor with
      | watching => exact sound.recv_frees here some
      | forwarding p =>
          by_cases room : f.hub.events.length < clientQueueDepth
          · exact sound.forward_frees here room some
          · exact sound.delivery_frees here (Nat.not_lt.mp room) some
      | dialing => exact dial_frees running empty here
      | recovering stream => exact ask_frees running empty here
      | awaiting => exact absurd here (sound.hub.sound.asks_none running empty idle)
      | sleeping =>
          exact .of_step (q := .supervisor) rfl nofun (hub_step rfl (slept_step here))
            (dial_frees running empty rfl)
      | reporting | shuttingDown | returned =>
          rw [Flow.alive, here] at alive
          simp at alive

/-- No task of a session waits for itself through the others. As long as the session is alive, a
task that is not blocked can move or has nothing to take, a task that is blocked does not move by
itself, and it is freed by steps of the others. -/
theorem no_deadlock {cfg : Backed.BackedConfig} {now : Backed.Instant} {log : List Unit}
    (run : (system box codec decode cfg now).Reachable log f) (alive : f.alive = true) :
    (∀ p, ¬ Relation.TransGen (fun p q => f.waitsFor p = some q) p p) ∧
      (∀ p, f.blocked p = false → f.idle p = true ∨
        ∃ act f', act.party = some p ∧ f.step box codec decode act = some f') ∧
      (∀ p f', f.blocked p = true → StepOf box codec decode (· = p) f f' → f' = f) ∧
      ∀ p, f.blocked p = true → ∃ f', Relation.ReflTransGen (StepOf box codec decode (· ≠ p)) f f' ∧
        (f'.blocked p = false ∨ f'.alive = false) := by
  have sound := sound_reachable run
  refine ⟨sound.acyclic, ?_, ?_, ?_⟩
  · intro p free
    refine (sound.able alive p).resolve_left ?_
    rw [free]
    exact Bool.false_ne_true
  · intro p f' blocked stepped
    exact sound.stuck alive blocked stepped
  · intro p blocked
    have waits := waits_of_blocked blocked
    cases p with
    | pump => exact sound.pump_freed cfg now waits
    | engine => exact sound.engine_freed cfg now waits
    | supervisor => exact sound.supervisor_freed cfg now waits
    | actor => exact sound.actor_freed alive waits

/-- The socket is lost and the actor recovers, while the pump writes a frame of the engine:
the supervisor and the pump both wait for the actor, which can move. -/
theorem no_deadlock_in_a_recover :
    ∃ log f, (system .naming Protobuf.records.codec TerminalCodec.records.decodeBuffer
        (.client testKey none) 0).Reachable log f ∧
      f.blocked .pump = true ∧ f.blocked .supervisor = true ∧
      (f.idle .actor = true ∨ ∃ act f', act.party = some .actor ∧
        f.step .naming Protobuf.records.codec TerminalCodec.records.decodeBuffer act = some f') ∧
      ∃ f', Relation.ReflTransGen (StepOf .naming Protobuf.records.codec
          TerminalCodec.records.decodeBuffer (· ≠ .pump)) f f' ∧
        (f'.blocked .pump = false ∨ f'.alive = false) := by
  obtain ⟨log, f, run, here⟩ :
      ∃ log f, (system .naming Protobuf.records.codec TerminalCodec.records.decodeBuffer
          (.client testKey none) 0).Reachable log f ∧
        (f.alive && f.blocked .pump && f.blocked .supervisor && !f.blocked .actor) = true :=
    Transition.System.Reaches.exists_of_execute .start
      [.startPortForwarding [⟨none, some ⟨none, some 22⟩⟩], .call, .local (.accept 0), .handle,
        .sent true, .outbound, .hub (.actor .socketLost), .hub (.actor .settle),
        .hub (.actor .send), .hub (.actor (.deliver 0)), .hub .recv,
        .hub (.handshake (.returning 1)), .hub .asked, .hub (.actor (.recover 1)), .submit]
      (by decide +kernel)
  simp only [Bool.and_eq_true, Bool.not_eq_true'] at here
  obtain ⟨⟨⟨alive, pump⟩, supervisor⟩, actor⟩ := here
  obtain ⟨_, able, _, freed⟩ := no_deadlock run alive
  exact ⟨log, f, run, pump, supervisor, able .actor actor, freed .pump pump⟩

end Flow

end Session

end Et
