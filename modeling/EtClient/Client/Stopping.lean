import EtClient.Client.Dead

/-!
# Dialing behind the end of the session

The outer loop of the supervisor receives the actor's events, and learns from the last
one, or from the end of the queue, that the actor has ended. The inner loop looks at the
owner and at the network only. A session that ends while the supervisor is in the inner
loop, or with a `SocketDown` still ahead of it, goes on dialing for as long as the owner
holds the client.

When the end finds the supervisor in its outer loop with no `SocketDown` ahead, it never
dials again.
-/

namespace Et

namespace Backed

/-- The next frame of the inbox does not parse, is not encrypted, or does not open. -/
def Actor.rejects (box : SecretBox) (s : Actor) : Bool :=
  match s.inbox with
  | [] => false
  | bytes :: _ =>
      match Packet.parse bytes with
      | none => true
      | some packet =>
          if flag : packet.encrypted = true then
            match (packet.decrypt box s.readerCrypto flag).2 with
            | .error _ => true
            | .ok _ => false
          else true

theorem Actor.rejects_of_mismatch {box : SecretBox} {now : Instant} {s s' : Actor}
    {effects : List Effect} (found : s.deliverOne box now = (s', .mismatch, effects)) :
    s.rejects box = true := by
  unfold deliverOne at found
  unfold rejects
  cases arrived : s.inbox with
  | nil =>
      rw [arrived] at found
      cases found
  | cons bytes rest =>
      rw [arrived] at found
      dsimp only at found ⊢
      cases parsed : Packet.parse bytes with
      | none => rfl
      | some packet =>
          rw [parsed] at found
          dsimp only at found ⊢
          by_cases flag : packet.encrypted = true
          · rw [dif_pos flag] at found ⊢
            split at found
            · rename_i failed
              rw [failed]
            · cases found
          · rw [dif_neg flag]

theorem Task.finished_served {t : Task} {actor : Actor} (up : actor.shuttingDown = false)
    (running : t.pc.terminal = false) : (t.served actor).finished = false := by
  rw [finished_eq_false, served_actor]
  refine ⟨up, ?_⟩
  unfold served
  split
  · rfl
  · rwa [if_neg (by rw [up]; exact Bool.false_ne_true)]

/-- The three steps that end a session. -/
theorem Task.Moves.ends {box : SecretBox} {t t' : Task} {act : Act} {effects : List Effect}
    (moves : Task.Moves box t act t' effects) (going : t.finished = false)
    (finished : t'.finished = true) :
    act = .shutdown ∨ (∃ now, act = .deliver now ∧ t.actor.rejects box = true) ∨
      act = .sendFails ∧ t.consumer = false := by
  obtain ⟨up, running⟩ := finished_eq_false.mp going
  have goes_on {goal : Prop} (still : t'.finished = false) : goal := by
    cases still.symm.trans finished
  cases moves with
  | shutdown => exact .inl rfl
  | rejected now actor effects _ found =>
      exact .inr (.inl ⟨now, rfl, Actor.rejects_of_mismatch found⟩)
  | noticeFails _ gone => exact .inr (.inr ⟨rfl, gone⟩)
  | write _ _ _ _ actor _ _ writes =>
      exact goes_on (finished_served (writes.reader.2.1.trans up) running)
  | killSocket | denied | revived | oversized | exchangeFails =>
      exact goes_on (finished_served up running)
  | recover | sequenceSent | answered | catchupSent | dropConsumer =>
      exact goes_on (finished_eq_false.mpr ⟨up, running⟩)
  | frame | socketLost | notice | proceed | send | sendFails =>
      exact goes_on (finished_eq_false.mpr ⟨up, rfl⟩)
  | tick _ _ actor _ _ _ ticks =>
      exact goes_on (finished_eq_false.mpr ⟨(shuttingDown_ticks ticks).trans up, rfl⟩)
  | opened _ _ _ _ _ found =>
      exact goes_on (finished_eq_false.mpr ⟨(shuttingDown_of_packet found).trans up, rfl⟩)
  | drained =>
      refine goes_on (finished_eq_false.mpr ⟨up, ?_⟩)
      rw [if_neg (by rw [up]; exact Bool.false_ne_true)]
      rfl
  | close _ down => cases down.symm.trans up
  | sendDead _ place | finish _ place =>
      rw [place] at running
      cases running

end Backed

namespace Client

open Backed

namespace Hub

/-- If the session ends here, the supervisor does not dial again. -/
def attentive (h : Hub) : Bool :=
  match h.supervisor with
  | .watching | .forwarding _ => .socketDown ∉ h.backedEvents
  | .dialing | .recovering _ | .awaiting | .sleeping => false
  | .reporting _ _ | .shuttingDown | .returned => true

/-- The command or the frame that ends the session is taken only where the supervisor is
attentive. -/
def calm (box : SecretBox) (h : Hub) : HubAct → Bool
  | .actor .shutdown => h.attentive
  | .actor (.deliver _) => !h.task.actor.rejects box || h.attentive
  | _ => true

variable {box : SecretBox} {h h' : Hub} {a : HubAct} {log notes : List HubNote}

/-- What the actor sends behind the end leaves the supervisor attentive. -/
theorem attentive_actor (sound : h.Sound) {act : Act} {task : Backed.Task} {effects : List Effect}
    (attentive : h.attentive = true) (offered : h.offers act = true)
    (stepped : h.task.step box act = some (task, effects))
    (sends : ∀ event ∈ eventsOf effects, ∃ reason, event = .dead reason) :
    Hub.attentive { h with
      task := task
      cmds := h.taking act
      backedEvents := h.backedEvents ++ eventsOf effects
      supervisor := h.supervisor.after (.actor act) effects } = true := by
  have same : h.supervisor.after (.actor act) effects = h.supervisor := by
    refine (sound.after offered stepped).resolve_right ?_
    rintro ⟨waits, _⟩
    rw [Hub.attentive, waits] at attentive
    cases attentive
  have none : .socketDown ∉ h.backedEvents → .socketDown ∉ h.backedEvents ++ eventsOf effects := by
    intro before found
    rcases List.mem_append.mp found with old | new
    · exact before old
    · obtain ⟨reason, eq⟩ := sends _ new
      cases eq
  unfold Hub.attentive at attentive ⊢
  dsimp only
  rw [same]
  cases here : h.supervisor with
  | watching | forwarding =>
      rw [here] at attentive
      exact decide_eq_true (none (of_decide_eq_true attentive))
  | dialing | recovering | awaiting | sleeping =>
      rw [here] at attentive
      exact attentive
  | reporting | shuttingDown | returned => rfl

/-- A step behind the end. -/
theorem Moves.attentive_of_finished (moves : Moves box h a h' notes) (sound : h.Sound)
    (finished : h.task.finished = true) (attentive : h.attentive = true) : h'.attentive = true := by
  have elsewhere {goal : Prop} {place : Supervisor} (here : h.supervisor = place)
      (busy : place = .dialing ∨ (∃ stream, place = .recovering stream) ∨ place = .awaiting ∨
        place = .sleeping) : goal := by
    rw [Hub.attentive, here] at attentive
    obtain rfl | ⟨_, rfl⟩ | rfl | rfl := busy <;> cases attentive
  cases moves with
  | actor act task effects offered stepped =>
      exact attentive_actor sound attentive offered stepped
        ((Task.step_moves stepped).events_finished sound.winding finished)
  | recv event rest here queue =>
      rw [Hub.attentive, here, queue] at attentive
      have none := of_decide_eq_true attentive
      rw [List.mem_cons, not_or] at none
      cases event with
      | packet p => exact decide_eq_true none.2
      | socketDown => exact absurd rfl none.1
      | dead reason => rfl
  | forwarded p here =>
      rw [Hub.attentive, here] at attentive
      exact attentive
  | handshake _ here => exact elsewhere here (.inl rfl)
  | asked stream here => exact elsewhere here (.inr (.inl ⟨stream, rfl⟩))
  | slept here => exact elsewhere here (.inr (.inr (.inr rfl)))
  | recoverLost here =>
      obtain ⟨stream, here⟩ | here := here
      · exact elsewhere here (.inr (.inl ⟨stream, rfl⟩))
      · exact elsewhere here (.inr (.inr (.inl rfl)))
  | reported _ shutdown | reportFails _ shutdown => cases shutdown <;> rfl
  | recvEnd | ownerGone | forwardFails | shutdownLost | shutdownSent => rfl
  | start | submit | refuse | lose | receive | drop => exact attentive

theorem Moves.attentive (moves : Moves box h a h' notes) (sound : h.Sound)
    (calm : h.calm box a = true) (before : h.task.finished = true → h.attentive = true)
    (finished : h'.task.finished = true) : h'.attentive = true := by
  by_cases was : h.task.finished = true
  · exact moves.attentive_of_finished sound was (before was)
  cases moves with
  | actor act task effects offered stepped =>
      have moves := Task.step_moves stepped
      have ends := moves.ends (Bool.eq_false_of_not_eq_true was) finished
      have attentive : h.attentive = true := by
        obtain rfl | ⟨now, rfl, rejects⟩ | ⟨_, gone⟩ := ends
        · exact calm
        · simpa [Hub.calm, rejects] using calm
        · have returned := sound.consumer.resolve_left (by rw [gone]; exact Bool.false_ne_true)
          rw [Hub.attentive, returned]
      apply attentive_actor sound attentive offered stepped
      intro event sent
      obtain none | ⟨_, rfl, _⟩ | ⟨reason, _, last⟩ := moves.events
      · rw [none] at sent
        cases sent
      · obtain ends | ⟨_, ends, _⟩ | ⟨ends, _⟩ := ends <;> cases ends
      · rw [last, List.mem_singleton] at sent
        exact ⟨reason, sent⟩
  | _ => exact absurd finished was

theorem Moves.dials (moves : Moves box h a h' notes) (attentive : h.attentive = true) :
    .dials ∉ notes := by
  cases moves with
  | actor act task effects =>
      intro dials
      rcases List.mem_append.mp dials with inner | answer
      · simp at inner
      · obtain ⟨_, _, _, _, _, _, _, _, _, _, eq⟩ := mem_replies answer
        cases eq
  | recv event rest here queue =>
      cases event with
      | packet | dead => exact List.not_mem_nil
      | socketDown =>
          rw [Hub.attentive, here, queue] at attentive
          exact absurd List.mem_cons_self (of_decide_eq_true attentive)
  | slept here =>
      rw [Hub.attentive, here] at attentive
      cases attentive
  | _ => simp

theorem attentive_reaches {cfg : BackedConfig} {now : Instant}
    (run : (system box cfg now).Reaches (fun _ h a => h.calm box a = true) log h)
    (finished : h.task.finished = true) : h.attentive = true := by
  induction run with
  | start => cases finished
  | next a run calm stepped ih =>
      exact (step_moves stepped).attentive (sound_reachable run.reachable) calm ih finished

end Hub

open Hub

/-- Once the actor is over, no further handshake is started, as long as the end of the
session finds the supervisor in its outer loop and no `SocketDown` ahead. -/
theorem no_dial_behind_the_end {box : SecretBox} {cfg : BackedConfig} {now : Instant}
    {log more : List HubNote} {h h' : Hub}
    (run : (Hub.system box cfg now).Reaches (fun _ h a => h.calm box a = true) log h)
    (finished : h.task.finished = true)
    (onward : ((Hub.system box cfg now).restart h).Reachable more h') : .dials ∉ more := by
  have sound := sound_reachable run.reachable
  have attentive := attentive_reaches run finished
  have kept : (h'.Sound ∧ h'.task.finished = true ∧ h'.attentive = true) ∧ .dials ∉ more := by
    induction onward with
    | start => exact ⟨⟨sound, finished, attentive⟩, List.not_mem_nil⟩
    | next a _ _ stepped ih =>
        obtain ⟨⟨sound, finished, attentive⟩, silent⟩ := ih
        have moves := step_moves stepped
        refine ⟨⟨moves.sound sound, moves.finished sound finished,
          moves.attentive_of_finished sound finished attentive⟩, ?_⟩
        intro dials
        rcases List.mem_append.mp dials with old | new
        · exact silent old
        · exact moves.dials attentive new
  exact kept.2

/-- The owner shuts down a session that has a socket: nothing is dialed behind it. -/
theorem no_dial_behind_the_end_of_a_live_session :
    ∃ log h more h', (Hub.system .naming (.client testKey none) 0).Reaches
        (fun _ h a => h.calm .naming a = true) log h ∧ h.task.finished = true ∧
      ((Hub.system .naming (.client testKey none) 0).restart h).Reachable more h' ∧
      h'.task.pc = .ended ∧ .dials ∉ more := by
  obtain ⟨log, h, run, finished, more, h', onward, ended⟩ :
      ∃ log h, (Hub.system .naming (.client testKey none) 0).Reaches
        (fun _ h a => h.calm .naming a = true) log h ∧ h.task.finished = true ∧
        ∃ more h', ((Hub.system .naming (.client testKey none) 0).restart h).Reachable more h' ∧
          h'.task.pc = .ended :=
    ⟨_, _, .execute .start [.start .shutdown, .submit .shutdown, .actor .shutdown] rfl, rfl,
      _, _, .execute .start [.actor .settle, .actor (.finish true)] rfl, rfl⟩
  exact ⟨log, h, more, h', run, finished, onward, ended, no_dial_behind_the_end run finished onward⟩

/-- The owner shuts down while the supervisor dials. The actor ends and has sent its last
event, the handshake fails, and the supervisor dials again. -/
theorem dials_behind_the_end :
    ∃ log h more h', (Hub.system .naming (.client testKey none) 0).Reachable log h ∧
      h.task.pc = .ended ∧ h.backedEvents = [.dead .shutdown] ∧
      ((Hub.system .naming (.client testKey none) 0).restart h).Reachable more h' ∧
      .dials ∈ more ∧ h'.owner = true :=
  ⟨_, _, _, _, .execute .start
    [.actor .socketLost, .actor .settle, .actor .send, .actor (.deliver 0), .recv,
      .start .shutdown, .submit .shutdown, .actor .shutdown, .actor .settle,
      .actor (.finish true)] rfl, rfl, rfl,
    .execute .start [.handshake .failed, .slept] rfl, by decide, rfl⟩

end Client

end Et
