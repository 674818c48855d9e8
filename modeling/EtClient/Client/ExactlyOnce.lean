import EtClient.Backed.Notice
import EtClient.Backed.Recovery
import EtClient.Client.Supervisor

/-!
# Exactly once, in order

The supervisor calls recover only for a notice it has received. At any time at most one
notice is under way: marked, being sent, queued, or in the supervisor's inner loop. While
one is, no socket is held, so no frame can arrive; and the actor sends the notice from
the `select!`, where the inbox is empty. So every recover succeeds with an empty inbox,
and the session is one of those in which the peer's frames are opened in order.
-/

namespace Et

namespace Client

open Backed

variable {box : SecretBox} {cfg : BackedConfig} {now : Instant}
variable {log notes : List Note} {s s' : EtClient}

namespace Supervisor

/-- In the inner loop. -/
def busy : Supervisor → Bool
  | .dialing | .recovering _ | .awaiting | .sleeping => true
  | _ => false

/-- The session is over for the supervisor: it never recovers again. -/
def finished : Supervisor → Bool
  | .reporting _ _ | .shuttingDown | .returned => true
  | _ => false

/-- The packet on its way to the owner. -/
def inHand : Supervisor → List Packet
  | .forwarding p => [p]
  | _ => []

end Supervisor

/-- Notices that were sent and that the supervisor has not dealt with. -/
def EtClient.told (s : EtClient) : Nat :=
  s.events.count .socketDown + if s.supervisor.busy then 1 else 0

/-- At most one notice is under way, and then there is no socket and no frame. -/
structure Orderly (s : EtClient) : Prop where
  once : s.told + s.world.task.owed ≤ 1
  down : 0 < s.told + s.world.task.owed → s.world.task.socket = none
  drained : 0 < s.told ∨ s.world.task.pc = .notify → s.world.task.actor.inbox = []
  select : s.world.task.pc = .select → s.world.task.actor.inbox = []
  armDone : s.world.task.pc = .armDone →
    s.world.task.actor.inbox = [] ∨ s.world.task.socket ≠ none

namespace Orderly

/-- A step of the supervisor alone deals with no notice but the one it receives. -/
theorem of_told (h : Orderly s) (task : s'.world.task = s.world.task) (told : s'.told = s.told) :
    Orderly s' := by
  refine ⟨?_, ?_, ?_, ?_, ?_⟩ <;> rw [task]
  · rw [told]
    exact h.once
  · rw [told]
    exact h.down
  · rw [told]
    exact h.drained
  · exact h.select
  · exact h.armDone

theorem notify_le_owed {t : Task} (place : t.pc = .notify) : 1 ≤ t.owed := by
  rw [Task.owed, if_pos place]
  exact Nat.le_add_right _ _

theorem marked_le_owed {t : Task} (marked : t.actor.socketDownPending = true) : 1 ≤ t.owed := by
  rw [Task.owed, if_pos marked]
  exact Nat.le_add_left _ _

/-- The inbox behind a step of the actor. -/
theorem select_of_turn {effects : List Effect} (h : Orderly s)
    (turn : Turn s.world.task s'.world.task effects) (here : s'.world.task.pc = .select) :
    s'.world.task.actor.inbox = [] := by
  obtain empty | ⟨before, same⟩ := turn.select here
  · exact empty
  · rw [same]
    exact h.select before

theorem armDone_of_turn {effects : List Effect} (h : Orderly s)
    (turn : Turn s.world.task s'.world.task effects) (here : s'.world.task.pc = .armDone) :
    s'.world.task.actor.inbox = [] ∨ s'.world.task.socket ≠ none := by
  obtain ⟨before, same⟩ | held := turn.armDone here
  · rw [same]
    exact .inl (h.select before)
  · exact .inr held

/-- A recover that succeeds deals with the only notice. -/
theorem of_recovered {effects : List Effect} (h : Orderly s)
    (turn : Turn s.world.task s'.world.task effects) (waits : 0 < s.told)
    (told : s'.told + 1 = s.told + notices effects) : Orderly s' := by
  have once := h.once
  have down := h.down (by omega)
  have quiet : s'.told + s'.world.task.owed = 0 := by
    obtain ⟨_, owed⟩ | ⟨held, _⟩ | ⟨_, owed⟩ := turn.socket
    · omega
    · exact absurd down held
    · omega
  refine ⟨by omega, by omega, ?_, h.select_of_turn turn, h.armDone_of_turn turn⟩
  rintro (some | place)
  · omega
  · have := notify_le_owed place
    omega

/-- Any other step of the actor tells the supervisor what it sends. -/
theorem of_turn {effects : List Effect} (h : Orderly s)
    (turn : Turn s.world.task s'.world.task effects) (going : .recovered true ∉ effects)
    (told : s'.told = s.told + notices effects) : Orderly s' := by
  have once := h.once
  refine ⟨?_, ?_, ?_, h.select_of_turn turn, h.armDone_of_turn turn⟩
  · obtain ⟨_, owed⟩ | ⟨held, _, owed⟩ | ⟨ended, _⟩ := turn.socket
    · omega
    · have silent : ¬ 0 < s.told + s.world.task.owed := fun some => held (h.down some)
      omega
    · exact absurd ended going
  · intro some
    obtain ⟨same, owed⟩ | ⟨_, dropped, _⟩ | ⟨ended, _⟩ := turn.socket
    · rw [same]
      exact h.down (by omega)
    · exact dropped
    · exact absurd ended going
  · intro announced
    by_cases before : 0 < s.told ∨ s.world.task.pc = .notify
    · -- No socket is held, so the inbox cannot grow.
      have down : s.world.task.socket = none := by
        apply h.down
        obtain some | place := before
        · omega
        · have := notify_le_owed place
          omega
      obtain suffix | held | ended := turn.inbox
      · rw [h.drained before] at suffix
        exact List.suffix_nil.mp suffix
      · exact absurd down held
      · exact absurd ended going
    · obtain some | place := announced
      · exact absurd (.inr (turn.noticed (by omega))) before
      · obtain place | ⟨place, marked, same⟩ := turn.notify place
        · exact absurd (.inr place) before
        · have down := h.down (by have := marked_le_owed marked; omega)
          rw [same]
          exact (h.armDone place).resolve_right (fun held => held down)

end Orderly

/-- The supervisor waits for every exchange, and keeps order while it is not over. -/
structure SupervisorOf (s : EtClient) : Prop where
  awaits : s.world.task.exchange ≠ none → s.supervisor = .awaiting
  orderly : s.supervisor.finished = false → s.world.task.pc.terminal = false → Orderly s
  consumer : s.supervisor ≠ .returned → s.world.task.consumer = true

namespace SupervisorOf

/-- A recover succeeds only with an empty inbox. -/
theorem drained {act : WorldAct} {w' : World} {effects : List Effect} (h : SupervisorOf s)
    (placed : s.world.task.Placed) (stepped : s.world.step box cfg act = some (w', effects)) :
    s.world.RecoversDrained act := by
  intro theirs read _
  obtain ⟨inner, rfl, _, taken, _⟩ | ⟨_, rfl, _⟩ := World.step_cases stepped
  · cases inner <;> cases read
    obtain ⟨e, under, _⟩ := Option.bind_eq_some_iff.mp taken
    have some : s.world.task.exchange ≠ none := by simp [under]
    have waits := h.awaits some
    have running := Pc.terminal_of_serving (placed.serving under)
    apply (h.orderly (by rw [waits]; rfl) running).drained
    rw [EtClient.told, waits]
    exact .inl (Nat.succ_pos _)
  · cases read

/-- What a step of the actor means to the supervisor: its recover is served, its recover
is answered, or nothing. -/
theorem reply_cases {act : Act} {t' : Task} {effects : List Effect} (h : SupervisorOf s)
    (permitted : s.supervisor.permits (.actor act) = true)
    (taken : s.world.task.step box act = some (t', effects)) :
    (∃ stream, s.supervisor = .recovering stream ∧ .recovered true ∉ effects ∧
        s.supervisor.after (.actor act) effects = .awaiting) ∨
      (s.supervisor = .awaiting ∧ t'.exchange = none ∧ .recovered true ∈ effects ∧
        s.supervisor.after (.actor act) effects = .watching) ∨
      (s.supervisor = .awaiting ∧ t'.exchange = none ∧ .recovered true ∉ effects ∧
        s.supervisor.after (.actor act) effects = .sleeping) ∨
      ((t'.exchange ≠ none → s.world.task.exchange ≠ none) ∧ .recovered true ∉ effects ∧
        s.supervisor.after (.actor act) effects = s.supervisor) := by
  obtain ⟨stream, rfl, rfl⟩ | ⟨going, ended⟩ := Task.step_exchange taken
  · rw [Supervisor.permits, decide_eq_true_eq] at permitted
    exact .inl ⟨stream, permitted, nofun, rfl⟩
  by_cases recover : ∃ stream, act = .recover stream
  · obtain ⟨stream, rfl⟩ := recover
    rw [Supervisor.permits, decide_eq_true_eq] at permitted
    refine .inl ⟨stream, permitted, ?_, rfl⟩
    intro some
    have waits := h.awaits (ended true some)
    rw [permitted] at waits
    cases waits
  have reply : s.supervisor.after (.actor act) effects = if .recovered true ∈ effects then .watching
      else if .recovered false ∈ effects then .sleeping else s.supervisor := by
    unfold Supervisor.after
    split
    · rename_i stream same
      cases same
      exact absurd ⟨stream, rfl⟩ recover
    · rfl
  have closed : ∀ live, .recovered live ∈ effects → t'.exchange = none := by
    intro live some
    by_contra under
    exact (going under).2 live some
  by_cases success : .recovered true ∈ effects
  · exact .inr (.inl ⟨h.awaits (ended true success), closed true success, success,
      reply.trans (if_pos success)⟩)
  rw [if_neg success] at reply
  by_cases failure : .recovered false ∈ effects
  · exact .inr (.inr (.inl ⟨h.awaits (ended false failure), closed false failure, success,
      reply.trans (if_pos failure)⟩))
  · exact .inr (.inr (.inr ⟨fun under => (going under).1, success,
      reply.trans (if_neg failure)⟩))

theorem told_after (w' : World) (effects : List Effect) (supervisor : Supervisor) :
    EtClient.told ⟨w', s.events ++ eventsOf effects, supervisor⟩ =
      s.events.count .socketDown + notices effects + if supervisor.busy then 1 else 0 := by
  rw [EtClient.told, List.count_append]
  rfl

/-- A step of the actor. -/
theorem of_actor {act : Act} {w' : World} {effects : List Effect} (h : SupervisorOf s)
    (placed : s.world.task.Placed) (permitted : s.supervisor.permits (.actor act) = true)
    (taken : s.world.task.step box act = some (w'.task, effects)) :
    SupervisorOf
      ⟨w', s.events ++ eventsOf effects, s.supervisor.after (.actor act) effects⟩ := by
  have replies := h.reply_cases permitted taken
  have consumer : s.supervisor.after (.actor act) effects ≠ .returned →
      w'.task.consumer = true := by
    intro there
    have stays : act ≠ .dropConsumer := by
      rintro rfl
      obtain rfl : [] = effects := (Prod.mk.inj (Option.some.inj taken)).2
      rw [Supervisor.permits, decide_eq_true_eq] at permitted
      exact there permitted
    rw [Task.step_consumer stays taken]
    apply h.consumer
    intro returned
    obtain ⟨_, other, _⟩ | ⟨other, _⟩ | ⟨other, _⟩ | ⟨_, _, same⟩ := replies
    · rw [returned] at other
      cases other
    · rw [returned] at other
      cases other
    · rw [returned] at other
      cases other
    · exact there (same.trans returned)
  refine ⟨?_, ?_, consumer⟩
  · intro under
    obtain ⟨_, _, _, after⟩ | ⟨_, closed, _⟩ | ⟨_, closed, _⟩ | ⟨going, _, after⟩ := replies
    · exact after
    · exact absurd closed under
    · exact absurd closed under
    · exact after.trans (h.awaits (going under))
  · intro finished running
    have turn := Task.step_turn placed
      (consumer (by intro returned; rw [returned] at finished; cases finished))
      running taken
    have before := Task.step_running placed taken running
    obtain ⟨_, place, ongoing, after⟩ | ⟨place, _, success, after⟩ | ⟨place, _, ongoing, after⟩ |
      ⟨_, ongoing, after⟩ := replies
    · refine (h.orderly (by rw [place]; rfl) before).of_turn turn ongoing ?_
      rw [told_after, after, EtClient.told, place]
      exact Nat.add_right_comm _ _ _
    · refine (h.orderly (by rw [place]; rfl) before).of_recovered turn ?_ ?_
      · rw [EtClient.told, place]
        exact Nat.succ_pos _
      · rw [told_after, after, EtClient.told, place]
        show s.events.count .socketDown + notices effects + 0 + 1 =
          s.events.count .socketDown + 1 + notices effects
        omega
    · refine (h.orderly (by rw [place]; rfl) before).of_turn turn ongoing ?_
      rw [told_after, after, EtClient.told, place]
      exact Nat.add_right_comm _ _ _
    · change (s.supervisor.after (.actor act) effects).finished = false at finished
      rw [after] at finished
      refine (h.orderly finished before).of_turn turn ongoing ?_
      rw [told_after, after]
      exact Nat.add_right_comm _ _ _

/-- A step of the supervisor outside an exchange. -/
theorem of_supervisor {before : Supervisor} (h : SupervisorOf s) (place : s.supervisor = before)
    (idle : before ≠ .awaiting) (stays : before ≠ .returned)
    (task : s'.world.task = s.world.task)
    (told : s'.supervisor.finished = false → before.finished = false ∧ s'.told = s.told) :
    SupervisorOf s' := by
  subst place
  refine ⟨?_, ?_, ?_⟩
  · intro under
    rw [task] at under
    exact absurd (h.awaits under) idle
  · intro finished running
    rw [task] at running
    obtain ⟨still, same⟩ := told finished
    exact (h.orderly still running).of_told task same
  · intro _
    rw [task]
    exact h.consumer stays

theorem step {act : ClientAct} (h : SupervisorOf s) (placed : s.world.task.Placed)
    (stepped : s.step box cfg act = some (s', notes)) : SupervisorOf s' := by
  cases EtClient.step_moves stepped with
  | world act w' effects permitted taken =>
      obtain ⟨inner, rfl, _, inside, _⟩ | ⟨inner, rfl, inside, silent⟩ := World.step_cases taken
      · exact h.of_actor placed permitted inside
      · obtain ⟨task, _⟩ := World.peerStep_keeps inside
        rw [show effects = [] from silent]
        refine ⟨?_, ?_, ?_⟩
        · rw [task]
          exact h.awaits
        · intro finished running
          rw [task] at running
          exact (h.orderly finished running).of_told task (by rw [told_after]; rfl)
        · rw [task]
          exact h.consumer
  | recv event rest place queue =>
      refine h.of_supervisor place (by rintro ⟨⟩) (by rintro ⟨⟩) rfl ?_
      intro finished
      refine ⟨rfl, ?_⟩
      rw [EtClient.told, EtClient.told, place, queue]
      cases event with
      | packet p => rfl
      | socketDown =>
          rw [List.count_cons_self]
          rfl
      | dead reason => cases finished
  | ownerGone place =>
      obtain place | place := place
      · exact h.of_supervisor place (by rintro ⟨⟩) (by rintro ⟨⟩) rfl (by rintro ⟨⟩)
      · exact h.of_supervisor place (by rintro ⟨⟩) (by rintro ⟨⟩) rfl (by rintro ⟨⟩)
  | closed place | refused _ place | shutdownSent place =>
      exact h.of_supervisor place (by rintro ⟨⟩) (by rintro ⟨⟩) rfl (by rintro ⟨⟩)
  | forwarded _ place | recoverLost _ place | slept place =>
      refine h.of_supervisor place (by rintro ⟨⟩) (by rintro ⟨⟩) rfl ?_
      intro _
      exact ⟨rfl, by rw [EtClient.told, EtClient.told, place]; rfl⟩
  | reported _ shutdown _ place =>
      refine h.of_supervisor place (by rintro ⟨⟩) (by rintro ⟨⟩) rfl ?_
      intro finished
      cases shutdown <;> cases finished
  | handshake outcome place =>
      refine h.of_supervisor place (by rintro ⟨⟩) (by rintro ⟨⟩) rfl ?_
      intro finished
      refine ⟨rfl, ?_⟩
      rw [EtClient.told, EtClient.told, place]
      cases outcome with
      | newClient | invalidKey => cases finished
      | returning | failed => rfl

end SupervisorOf

/-- The owner is sent the actor's packets in order; what is missing is on its way. -/
structure Forwarded (log : List Note) (s : EtClient) : Prop where
  sent : forwardedOf log <+: packetsOf (backedOf log)
  held : s.supervisor.finished = false →
    forwardedOf log ++ (s.supervisor.inHand ++ s.events.filterMap BackedEvent.packet?) =
      packetsOf (backedOf log)

namespace Forwarded

/-- A step that sends no packet on. -/
theorem of_quiet (h : Forwarded log s) (silent : forwardedOf notes = [])
    (held : s'.supervisor.finished = false → s.supervisor.finished = false ∧
      s'.supervisor.inHand ++ s'.events.filterMap BackedEvent.packet? =
        s.supervisor.inHand ++ s.events.filterMap BackedEvent.packet? ++
          packetsOf (backedOf notes)) : Forwarded (log ++ notes) s' := by
  have forwarded : forwardedOf (log ++ notes) = forwardedOf log := by
    rw [forwardedOf_append, silent, List.append_nil]
  refine ⟨?_, ?_⟩ <;> rw [forwarded, backedOf_append, packetsOf_append]
  · exact h.sent.trans (List.prefix_append _ _)
  · intro finished
    obtain ⟨before, same⟩ := held finished
    rw [same, ← List.append_assoc, h.held before]

/-- A step of the actor puts its packets behind the others. -/
theorem of_world {act : WorldAct} {w' : World} {effects : List Effect} (h : Forwarded log s)
    (supervised : SupervisorOf s) (permitted : s.supervisor.permits act = true)
    (taken : s.world.step box cfg act = some (w', effects)) :
    Forwarded (log ++ effects.map .backed)
      ⟨w', s.events ++ eventsOf effects, s.supervisor.after act effects⟩ := by
  apply h.of_quiet (forwardedOf_backed effects)
  rw [backedOf_backed, List.filterMap_append, filterMap_packet?_eventsOf]
  have same : (s.supervisor.after act effects).finished = s.supervisor.finished ∧
      (s.supervisor.after act effects).inHand = s.supervisor.inHand := by
    obtain ⟨inner, rfl, _, inside, _⟩ | ⟨inner, rfl, _, rfl⟩ := World.step_cases taken
    · obtain ⟨_, place, _, after⟩ | ⟨place, _, _, after⟩ | ⟨place, _, _, after⟩ | ⟨_, _, after⟩ :=
        supervised.reply_cases permitted inside
      · rw [after, place]
        exact ⟨rfl, rfl⟩
      · rw [after, place]
        exact ⟨rfl, rfl⟩
      · rw [after, place]
        exact ⟨rfl, rfl⟩
      · rw [after]
        exact ⟨rfl, rfl⟩
    · exact ⟨rfl, rfl⟩
  intro finished
  refine ⟨same.1.symm.trans finished, ?_⟩
  rw [same.2, List.append_assoc]

theorem step {act : ClientAct} (h : Forwarded log s) (supervised : SupervisorOf s)
    (stepped : s.step box cfg act = some (s', notes)) : Forwarded (log ++ notes) s' := by
  cases EtClient.step_moves stepped with
  | world _ _ _ permitted taken => exact h.of_world supervised permitted taken
  | recv event rest place queue =>
      apply h.of_quiet rfl
      intro finished
      rw [place, queue]
      cases event with
      | packet p | socketDown => exact ⟨rfl, (List.append_nil _).symm⟩
      | dead reason => cases finished
  | forwarded p place =>
      have held := h.held (by rw [place]; rfl)
      rw [place] at held
      have sent : forwardedOf (log ++ [.event (.packet p)]) = forwardedOf log ++ [p] := by
        rw [forwardedOf_append]
        rfl
      have backed : backedOf (log ++ [.event (.packet p)]) = backedOf log := by
        rw [backedOf_append]
        exact List.append_nil _
      refine ⟨?_, ?_⟩ <;> rw [sent, backed, ← held]
      · rw [List.prefix_append_right_inj]
        exact List.prefix_append _ _
      · intro _
        rw [List.append_assoc]
        rfl
  | reported _ shutdown taken =>
      refine h.of_quiet (by cases taken <;> rfl) ?_
      intro finished
      cases shutdown <;> cases finished
  | handshake outcome place =>
      apply h.of_quiet rfl
      intro finished
      rw [place]
      cases outcome with
      | newClient | invalidKey => cases finished
      | returning | failed => exact ⟨rfl, (List.append_nil _).symm⟩
  | recoverLost _ place | slept place =>
      apply h.of_quiet rfl
      rw [place]
      exact fun _ => ⟨rfl, (List.append_nil _).symm⟩
  | closed | ownerGone | refused | shutdownSent => exact h.of_quiet rfl (by rintro ⟨⟩)

end Forwarded

/-- The actor and its peer under the supervisor: a run in which every recover succeeds
with an empty inbox. -/
theorem supervised_reachable (run : (EtClient.system box cfg now).Reachable log s) :
    (World.system box cfg now).Reaches (fun _ => World.RecoversDrained) (backedOf log)
        s.world ∧ SupervisorOf s ∧ Forwarded log s := by
  refine run.invariant (P := fun log s => (World.system box cfg now).Reaches
    (fun _ => World.RecoversDrained) (backedOf log) s.world ∧ SupervisorOf s ∧
    Forwarded log s) ?_ ?_
  · refine ⟨.start, ⟨nofun, ?_, fun _ => rfl⟩, List.prefix_refl _, fun _ => rfl⟩
    exact fun _ _ => ⟨Nat.zero_le _, nofun, fun _ => rfl, fun _ => rfl, nofun⟩
  · intro log s act s' notes before _ stepped
    obtain ⟨inner, supervised, forwarded⟩ := before
    have placed := (readerOf_reachable (World.task_reachable inner)).placed
    refine ⟨?_, supervised.step placed stepped, forwarded.step supervised stepped⟩
    rw [backedOf_append]
    obtain ⟨act, effects, taken, rfl⟩ | ⟨world, silent⟩ := EtClient.step_world stepped
    · rw [backedOf_backed]
      exact inner.next act (supervised.drained placed taken) taken
    · rw [silent, List.append_nil, world]
      exact inner

/-- In every run of a client with an honest peer, the packets delivered are the first
packets the peer wrote, in order and each once, and so are those that reach the owner;
the frames the peer accepts are the first frames the actor wrote, as they were first
serialized; and no frame of the peer is refused. -/
theorem exactly_once_in_order (lawful : box.Lawful)
    (run : (EtClient.system box cfg now).Reachable log s) :
    (packetsOf (backedOf log)).map (fun p => (p.header, p.payload)) <+: s.world.peer.wrote ∧
      forwardedOf log <+: packetsOf (backedOf log) ∧
      s.world.peer.accepted <+: framesOf (backedOf log) ∧
      .cryptoMismatch ∉ deadsOf (backedOf log) := by
  obtain ⟨inner, _, forwarded⟩ := supervised_reachable run
  have faithful := World.faithful_reaches lawful inner
  have delivered := (deliveryOf_reachable (World.task_reachable inner)).delivered
  rw [faithful.opened] at delivered
  refine ⟨?_, forwarded.sent, (World.upLink_reachable inner).accepted, faithful.deads⟩
  calc (packetsOf (backedOf log)).map (fun p => (p.header, p.payload))
      <+: ((s.world.peer.wrote.take s.world.task.actor.readerSeq).map
          fun p => Packet.new p.1 p.2).map (fun p => (p.header, p.payload)) :=
        delivered.map _
    _ = s.world.peer.wrote.take s.world.task.actor.readerSeq := by
        rw [List.map_map]
        exact List.map_id _
    _ <+: s.world.peer.wrote := List.take_prefix _ _

/-- A packet in each direction, the actor's written offline, over one reconnect. -/
theorem exactly_once_in_order_reconnect :
    ∃ log s, (EtClient.system .naming (.client testKey none) 0).Reachable log s ∧
      .recovered true ∈ backedOf log ∧ forwardedOf log = [.new terminalBuffer [1]] ∧
      s.world.peer.accepted ≠ [] ∧ s.world.peer.accepted <+: framesOf (backedOf log) := by
  obtain ⟨log, s, run, recovered, forwarded, accepted⟩ :
      ∃ log s, (EtClient.system .naming (.client testKey none) 0).Reachable log s ∧
        .recovered true ∈ backedOf log ∧ forwardedOf log = [.new terminalBuffer [1]] ∧
        s.world.peer.accepted ≠ [] :=
    ⟨_, _, .execute .start
      [.world (.peer (.write terminalBuffer [1])), .world (.actor .killSocket),
        .world (.actor .settle), .world (.actor .send), .recv, .handshake (.returning 1),
        .world (.actor (.deliver 0)), .world (.actor (.write 0 true terminalBuffer [9])),
        .world (.actor .settle), .world (.actor (.deliver 0)), .world (.actor (.recover 1)),
        .world (.peer (.report 1)), .world (.actor .sequenceSent), .world (.peer .answer),
        .world (.actor (.sequenceRead (.of 0))), .world (.actor .catchupSent),
        .world (.actor (.catchupRead 0
          ⟨[Packet.boxed .naming testKey serverClientNonceMsb 0 terminalBuffer [1]]⟩)),
        .world (.peer .finish), .world (.actor .settle), .world (.actor (.deliver 0)),
        .world (.actor .send), .recv, .sent true] rfl, by decide, by decide, by decide⟩
  obtain ⟨_, _, identical, _⟩ := exactly_once_in_order SecretBox.naming_lawful run
  exact ⟨log, s, run, recovered, forwarded, accepted, identical⟩

end Client

end Et
