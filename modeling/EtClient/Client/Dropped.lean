import EtClient.Client.Dead

/-!
# A client that is dropped

The owner drops the client. Nothing tells the supervisor but its queue to the owner, which is
closed, and nothing tells the actor but its queue of commands, which is closed when the supervisor
has returned as well. The supervisor may stand anywhere in its loops then, and the actor in the
middle of an exchange or behind a full queue.

Both come to their end with steps of their own. No server has to answer, no packet has to be taken,
and no handshake has to end: the supervisor gives up the one that it is in. Behind the end of the
actor there is no socket.
-/

namespace Et

namespace Backed

namespace Task

variable {box : SecretBox} {t t' : Task} {act : Act} {effects : List Effect}

theorem served_ne_ended {actor : Actor} (running : t.pc ≠ .ended) :
    (t.served actor).pc ≠ .ended := by
  rcases t.served_pc actor with ⟨_, done⟩ | closing | same
  · simp [done]
  · simp [closing]
  · rwa [same]

/-- An actor that has ended has let go of its socket. -/
theorem Moves.live_of_ended (moves : Moves box t act t' effects) (placed : t.Placed)
    (before : t.pc = .ended → t.actor.live = none) (ended : t'.pc = .ended) :
    t'.actor.live = none := by
  have running (ready : t.serves = true) : t.pc ≠ .ended := by
    intro there
    simp [serves, there] at ready
  have under {e : Exchange} (exchange : t.exchange = some e) : t.pc ≠ .ended := by
    intro there
    rw [placed.idle (by rw [there]; rfl)] at exchange
    cases exchange
  cases moves with
  | write _ _ _ _ _ _ ready | killSocket ready | shutdown ready =>
      exact absurd ended (served_ne_ended (running ready))
  | denied _ _ _ exchange | revived _ _ _ exchange | oversized _ _ _ exchange
  | exchangeFails _ exchange => exact absurd ended (served_ne_ended (under exchange))
  | finish | recover => rfl
  | dropConsumer | sequenceSent | answered | catchupSent => exact before ended
  | drained =>
      dsimp only at ended
      split at ended <;> cases ended
  | frame | socketLost | tick | close | notice | proceed | send | noticeFails | sendFails
  | rejected | opened | sendDead => cases ended

end Task

end Backed

namespace Client

open Backed

/-- How far the supervisor is from its end, with room for the work of its commands. -/
def Supervisor.left : Supervisor → Nat
  | .returned => 0
  | .watching | .dialing | .forwarding _ => 1
  | .sleeping => 2
  | .awaiting => 3
  | .shuttingDown => 7
  | .reporting _ _ => 8
  | .recovering _ => 10

namespace Hub

variable {box : SecretBox} {cfg : BackedConfig} {now : Instant} {h h' : Hub} {a : HubAct}
  {log notes : List HubNote}

/-- Steps of the actor and of the supervisor that need nobody else. -/
def Unaided : HubAct → Prop
  | .actor act => act.own = true
  | .ownerGone | .sent | .asked | .recoverLost | .slept | .shutdownSent => True
  | _ => False

/-- The shutdown of the actor is still ahead. -/
def unfinished (h : Hub) : Nat := if h.task.finished then 0 else 6

def left (h : Hub) : Nat := h.supervisor.left + h.backlog + h.unfinished

theorem Moves.unfinished_le (moves : Moves box h a h' notes) (sound : h.Sound) :
    h'.unfinished ≤ h.unfinished := by
  unfold unfinished
  split
  · exact Nat.zero_le _
  · rename_i going
    rw [if_neg fun finished => going (moves.finished sound finished)]

theorem Served.left_le (served : h.Served notes h') : h'.supervisor.left ≤ h.supervisor.left := by
  obtain same | ⟨waits, sleeps⟩ := served.supervisor
  · rw [same]
  · rw [waits, sleeps]
    decide

/-- The actor gets on with its loop or with the command that waits longest. -/
theorem Sound.actor_progress (sound : h.Sound) (running : h.task.pc ≠ .ended)
    (busy : h.task.serves = false ∨ h.cmds ≠ []) :
    ∃ act h' notes, act.own = true ∧ h.step box (.actor act) = some (h', notes) ∧
      h.Served notes h' ∧ h'.left < h.left := by
  have closer {act : Act} {h' : Hub} {notes : List HubNote} (own : act.own = true)
      (stepped : h.step box (.actor act) = some (h', notes)) (served : h.Served notes h')
      (less : h'.backlog < h.backlog) : ∃ act h' notes, act.own = true ∧
        h.step box (.actor act) = some (h', notes) ∧ h.Served notes h' ∧ h'.left < h.left := by
    refine ⟨act, h', notes, own, stepped, served, ?_⟩
    have supervisor := served.left_le
    have finished := (step_moves stepped).unfinished_le sound
    simp only [left]
    omega
  cases ready : h.task.serves with
  | false =>
      obtain ⟨h', notes, stepped, served, kept, home⟩ := @Sound.comes_home box h sound ready running
      refine closer h.task.own_homeward stepped served ?_
      rw [backlog, backlog, kept]
      omega
  | true =>
      cases queue : h.cmds with
      | nil => simp [ready, queue] at busy
      | cons cmd rest =>
          obtain ⟨h', notes, stepped, served, popped⟩ :=
            @Sound.serves_next box h sound ready cmd rest queue
          refine closer (own_act cmd) stepped served ?_
          have near := h'.task.away_le
          rw [backlog, backlog, popped, queue, List.length_cons]
          omega

/-- The supervisor gets on when nothing is ahead of it in the queue of commands, or the queue is
gone. -/
theorem Sound.supervisor_progress (sound : h.Sound) (gone : h.owner = false)
    (going : h.supervisor ≠ .returned)
    (idle : h.task.pc = .ended ∨ h.task.pc ≠ .ended ∧ h.task.serves = true ∧ h.cmds = []) :
    ∃ a h' notes, Unaided a ∧ h.step box a = some (h', notes) ∧ h'.owner = h.owner ∧
      h'.left < h.left := by
  have next (a : HubAct) (supervisor : Supervisor) (cmds : List Cmd) (notes : List HubNote)
      (chosen : Unaided a)
      (stepped : h.step box a = some ({ h with supervisor := supervisor, cmds := cmds }, notes))
      (less : supervisor.left + 6 * cmds.length < h.supervisor.left + 6 * h.cmds.length) :
      ∃ a h' notes, Unaided a ∧ h.step box a = some (h', notes) ∧ h'.owner = h.owner ∧
        h'.left < h.left := by
    refine ⟨a, _, notes, chosen, stepped, rfl, ?_⟩
    simp only [left, backlog, unfinished]
    omega
  cases place : h.supervisor with
  | watching | dialing =>
      refine next .ownerGone .returned h.cmds [] trivial ?_ (by simp [place, Supervisor.left])
      simp only [step, gone, place]
      rfl
  | forwarding p =>
      refine next .sent .returned h.cmds [] trivial ?_ (by simp [place, Supervisor.left])
      simp only [step, gone, place]
      rfl
  | reporting reason shutdown =>
      refine next .sent (if shutdown then .shuttingDown else .returned) h.cmds [] trivial ?_ ?_
      · simp only [step, gone, place]
        rfl
      · cases shutdown <;> simp [place, Supervisor.left]
  | sleeping =>
      refine next .slept .dialing h.cmds [.dials] trivial ?_ (by simp [place, Supervisor.left])
      simp only [step, place]
      rfl
  | shuttingDown =>
      obtain ended | ⟨running, _, empty⟩ := idle
      · refine next .shutdownSent .returned h.cmds [] trivial ?_ (by simp [place, Supervisor.left])
        simp only [step, place, if_pos ended]
      · refine next .shutdownSent .returned [.shutdown] [] trivial ?_ ?_
        · simp [step, place, running, empty, cmdQueueDepth]
        · simp [place, empty, Supervisor.left]
  | recovering stream =>
      obtain ended | ⟨running, _, empty⟩ := idle
      · refine next .recoverLost .sleeping h.cmds [] trivial ?_ (by simp [place, Supervisor.left])
        simp only [step, place, if_pos ended]
      · refine next .asked .awaiting [.recover stream] [] trivial ?_ ?_
        · simp [step, place, running, empty, cmdQueueDepth]
        · simp [place, empty, Supervisor.left]
  | awaiting =>
      obtain ended | ⟨running, ready, empty⟩ := idle
      · refine next .recoverLost .sleeping h.cmds [] trivial ?_ (by simp [place, Supervisor.left])
        simp only [step, place, if_pos ended]
      · exact absurd place (sound.asks_none running empty (Task.serving_of_serves ready).1)
  | returned => exact absurd place going

/-- The queue of commands ends when the supervisor has returned, and the actor with it. -/
theorem Sound.shutdown_progress (sound : h.Sound) (gone : h.owner = false)
    (returned : h.supervisor = .returned) (ready : h.task.serves = true) (empty : h.cmds = []) :
    ∃ a h' notes, Unaided a ∧ h.step box a = some (h', notes) ∧ h'.owner = h.owner ∧
      h'.left < h.left := by
  have offered : h.offers .shutdown = true := by simp [offers, gone, returned, empty]
  obtain ⟨task, served⟩ : ∃ task, h.task.step box .shutdown = some (task, []) :=
    ⟨_, if_pos ready⟩
  have stepped :
      h.step box (.actor .shutdown) = some ({ h with task := task, cmds := [] }, []) := by
    rw [step, if_pos offered, served]
    simp [taking, empty, Supervisor.after, replies, eventsOf]
  refine ⟨.actor .shutdown, { h with task := task, cmds := [] }, [], rfl, stepped, rfl, ?_⟩
  have near := task.away_le
  simp only [left, backlog, List.length_nil, unfinished, finished_of_shutdown served, ↓reduceIte,
    empty, not_finished_of_serves sound ready, Bool.false_eq_true]
  omega

theorem Sound.progress (sound : h.Sound) (gone : h.owner = false)
    (unfinished : ¬ (h.supervisor = .returned ∧ h.task.pc = .ended)) :
    ∃ a h' notes, Unaided a ∧ h.step box a = some (h', notes) ∧ h'.owner = h.owner ∧
      h'.left < h.left := by
  by_cases ended : h.task.pc = .ended
  · exact sound.supervisor_progress gone (fun returned => unfinished ⟨returned, ended⟩) (.inl ended)
  by_cases busy : h.task.serves = false ∨ h.cmds ≠ []
  · obtain ⟨act, h', notes, own, stepped, served, less⟩ :=
      @Sound.actor_progress box h sound ended busy
    exact ⟨.actor act, h', notes, own, stepped, by rw [served.same], less⟩
  obtain ⟨ready, empty⟩ : h.task.serves = true ∧ h.cmds = [] := by simpa using busy
  by_cases returned : h.supervisor = .returned
  · exact sound.shutdown_progress gone returned ready empty
  · exact sound.supervisor_progress gone returned (.inr ⟨ended, ready, empty⟩)

/-- Behind the end of the actor there is no socket. -/
theorem live_of_ended (run : (system box cfg now).Reachable log h) (ended : h.task.pc = .ended) :
    h.task.actor.live = none := by
  have kept : h.Sound ∧ (h.task.pc = .ended → h.task.actor.live = none) := by
    refine run.invariant (P := fun _ h => h.Sound ∧ (h.task.pc = .ended → h.task.actor.live = none))
      ⟨sound_connected cfg now, fun ended => by cases ended⟩ fun {_ _ _ _ _} before _ stepped => ?_
    have moves := step_moves stepped
    refine ⟨moves.sound before.1, fun ended => ?_⟩
    obtain same | ⟨act, effects, taken⟩ := moves.task
    · rw [same] at ended ⊢
      exact before.2 ended
    · exact (Task.step_moves taken).live_of_ended before.1.placed before.2 ended
  exact kept.2 ended

end Hub

/-- When the owner has dropped the client, the supervisor and the actor come to their end with steps
of their own, wherever the drop has found them, and there is no socket then. -/
theorem dropped_client_winds_down {box : SecretBox} {cfg : BackedConfig} {now : Instant}
    {log : List HubNote} {h : Hub} (run : (Hub.system box cfg now).Reachable log h)
    (gone : h.owner = false) :
    ∃ more h', (Hub.system box cfg now).Leads Hub.Unaided h more h' ∧
      h'.supervisor = .returned ∧ h'.task.pc = .ended ∧ h'.task.actor.live = none := by
  have led : ∃ more h', (Hub.system box cfg now).Leads Hub.Unaided h more h' ∧
      (h'.Sound ∧ h'.owner = false) ∧ h'.supervisor = .returned ∧ h'.task.pc = .ended := by
    apply Transition.System.leads_of_progress Hub.left
    · intro _ s kept unfinished
      obtain ⟨a, s', notes, chosen, stepped, owner, less⟩ :=
        @Hub.Sound.progress box s kept.1 kept.2 unfinished
      exact ⟨a, s', notes, chosen, stepped,
        ⟨(Hub.step_moves stepped).sound kept.1, owner.trans kept.2⟩, less⟩
    · exact ⟨Hub.sound_reachable run, gone⟩
  obtain ⟨more, h', onward, _, returned, ended⟩ := led
  have run' := run.leads (fun _ _ _ _ => trivial) onward
  exact ⟨more, h', onward, returned, ended, Hub.live_of_ended run' ended⟩

/-- The client is dropped while it recovers on a new socket. -/
theorem dropped_client_winds_down_recovering :
    ∃ log h, (Hub.system .naming (.client testKey none) 0).Reachable log h ∧
      h.supervisor = .awaiting ∧ h.task.exchange.isSome = true ∧
      ∃ more h', (Hub.system .naming (.client testKey none) 0).Leads Hub.Unaided h more h' ∧
        h'.supervisor = .returned ∧ h'.task.pc = .ended ∧ h'.task.actor.live = none := by
  obtain ⟨log, h, run, gone, awaiting, under⟩ :
      ∃ log h, (Hub.system .naming (.client testKey none) 0).Reachable log h ∧ h.owner = false ∧
        h.supervisor = .awaiting ∧ h.task.exchange.isSome = true :=
    ⟨_, _, .execute .start
      [.actor .socketLost, .actor .settle, .actor .send, .actor (.deliver 0), .recv,
        .handshake (.returning 1), .asked, .actor (.recover 1), .drop] rfl, rfl, rfl, rfl⟩
  exact ⟨log, h, run, awaiting, under, dropped_client_winds_down run gone⟩

end Client

end Et
