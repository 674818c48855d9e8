import EtClient.Backed.Ending
import EtClient.Client.Hub

/-!
# Commands are served

The actor may be away from its command queue, in the middle of an exchange or of its
loop, but it never stays away. Steps of the actor alone serve every command that waits,
or end the task, and nothing else of the client changes meanwhile.

The supervisor sends one recover command at a time and waits for the reply, so at most
one is queued or under way, and only while it waits.
-/

namespace Et

namespace Backed

/-- A recover begins an exchange, its reply ends one, and no other step touches it. -/
theorem Task.Moves.exchanges {box : SecretBox} {t t' : Task} {act : Act} {effects : List Effect}
    (moves : Task.Moves box t act t' effects) :
    (∃ stream, act = .recover stream ∧ t.exchange = none ∧ t'.exchange.isSome = true ∧
        t'.pc = t.pc) ∨
      ((∀ stream, act ≠ .recover stream) ∧ ∃ live, effects = [.recovered live] ∧
        t.exchange.isSome = true ∧ t'.exchange = none) ∨
      ((∀ stream, act ≠ .recover stream) ∧ (∀ live, .recovered live ∉ effects) ∧
        t'.exchange.isSome = t.exchange.isSome) := by
  cases moves with
  | write now accepts header payload actor effects ready writes =>
      refine .inr (.inr ⟨nofun, ?_, by rw [(serving_of_serves ready).1]; rfl⟩)
      cases writes <;> simp
  | recover stream ready => exact .inl ⟨stream, rfl, (serving_of_serves ready).1, rfl, rfl⟩
  | killSocket ready | shutdown ready =>
      exact .inr (.inr ⟨nofun, by simp, by rw [(serving_of_serves ready).1]; rfl⟩)
  | tick now accepts actor effects _ _ ticks =>
      refine .inr (.inr ⟨nofun, ?_, rfl⟩)
      cases ticks with
      | pinged _ _ _ _ _ _ _ _ writes => cases writes <;> simp
      | idle | closed => simp
  | rejected now actor effects _ found | opened now actor _ effects _ found =>
      have none := recovered_not_mem_deliverOne box now t.actor
      rw [found] at none
      exact .inr (.inr ⟨nofun, none, rfl⟩)
  | sendDead | finish =>
      refine .inr (.inr ⟨nofun, ?_, rfl⟩)
      intro live
      split <;> simp
  | denied _ e _ under | revived _ _ e under | oversized _ _ e under | exchangeFails e under =>
      exact .inr (.inl ⟨nofun, _, rfl, by rw [under]; rfl, rfl⟩)
  | sequenceSent e under | answered _ e _ under | catchupSent e _ under =>
      exact .inr (.inr ⟨nofun, by simp, by rw [under]; rfl⟩)
  | frame | socketLost | close | notice | proceed | send | noticeFails | sendFails | drained
  | dropConsumer => exact .inr (.inr ⟨nofun, by simp, rfl⟩)

/-- The steps for which the actor needs nothing new from its socket: commands, the events
it sends, what its inbox holds, and the end of an exchange by its timeout. -/
def Act.own : Act → Bool
  | .write _ _ _ _ | .killSocket | .recover _ | .shutdown | .settle | .send | .deliver _
  | .sendDead _ | .finish _ | .exchangeFails => true
  | _ => false

theorem Task.own_homeward (t : Task) : t.homeward.own = true := by
  unfold homeward
  split <;> rfl

end Backed

namespace Client

open Backed

def Cmd.isRecover : Cmd → Bool
  | .recover _ => true
  | _ => false

theorem Supervisor.after_of_other {act : Act} (other : ∀ stream, act ≠ .recover stream)
    (supervisor : Supervisor) (effects : List Effect) :
    supervisor.after (.actor act) effects =
      if .recovered true ∈ effects then .watching
      else if .recovered false ∈ effects then .sleeping
      else supervisor := by
  unfold Supervisor.after
  split
  · rename_i same
    cases same
    exact absurd rfl (other _)
  · rfl

/-- The action that serves a command. -/
def Cmd.act : Cmd → Act
  | .write _ header payload => .write 0 false header payload
  | .killSocket => .killSocket
  | .recover stream => .recover stream
  | .shutdown => .shutdown

namespace Hub

/-- How many recovers are queued or under way. -/
def recovers (h : Hub) : Nat := h.cmds.countP Cmd.isRecover + h.task.exchange.isSome.toNat

/-- What holds between the three tasks throughout. -/
structure Sound (h : Hub) : Prop where
  placed : h.task.Placed
  winding : h.task.Winding
  own : ∀ cmd ∈ h.calls, cmd.isRecover = false
  asked : h.task.pc ≠ .ended → h.recovers = (decide (h.supervisor = .awaiting)).toNat
  consumer : h.task.consumer = true ∨ h.supervisor = .returned

variable {box : SecretBox} {h h' : Hub} {a : HubAct} {notes : List HubNote}

theorem Sound.idle_of_ended (sound : h.Sound) (finished : h.task.pc = .ended) :
    h.task.exchange = none :=
  sound.placed.idle (by rw [finished]; rfl)

theorem Sound.awaiting (sound : h.Sound) (under : h.task.exchange.isSome = true) :
    h.supervisor = .awaiting ∧ h.cmds.countP Cmd.isRecover = 0 := by
  have running : h.task.pc ≠ .ended := by
    intro finished
    rw [sound.idle_of_ended finished] at under
    cases under
  have asked := sound.asked running
  rw [recovers, under] at asked
  have bound := (decide (h.supervisor = .awaiting)).toNat_le
  refine ⟨?_, by simp only [Bool.toNat_true] at asked; omega⟩
  by_contra other
  rw [decide_eq_false other] at asked
  simp at asked

theorem Sound.no_recover (sound : h.Sound) (running : h.task.pc ≠ .ended)
    (other : h.supervisor ≠ .awaiting) : h.recovers = 0 := by
  have asked := sound.asked running
  rw [decide_eq_false other] at asked
  exact asked

theorem Sound.asks_none (sound : h.Sound) (running : h.task.pc ≠ .ended)
    (served : h.cmds = []) (idle : h.task.exchange = none) : h.supervisor ≠ .awaiting := by
  intro waits
  have asked := sound.asked running
  rw [recovers, served, idle, waits] at asked
  cases asked

/-- What an action of the actor takes from the queue. -/
theorem taking_cases {act : Act} (offered : h.offers act = true) :
    h.taking act = h.cmds ∨
      ∃ cmd, h.cmds = cmd :: h.taking act ∧ (cmd = .shutdown → act = .shutdown) ∧
        ∀ call, cmd.call? = some call → ∃ now accepts header payload,
          act = .write now accepts header payload ∧ cmd = .write call header payload := by
  cases act with
  | write now accepts header payload =>
      simp only [offers] at offered
      split at offered
      · rename_i call header' payload' rest queue
        simp only [Bool.and_eq_true, decide_eq_true_eq] at offered
        obtain ⟨rfl, rfl⟩ := offered
        refine .inr ⟨.write call header payload, by rw [taking, queue]; rfl, nofun, ?_⟩
        rintro call' carries
        cases carries
        exact ⟨_, _, _, _, rfl, rfl⟩
      · cases offered
  | killSocket =>
      obtain ⟨rest, queue⟩ := List.head?_eq_some_iff.mp (of_decide_eq_true offered)
      exact .inr ⟨.killSocket, by rw [taking, queue]; rfl, nofun, fun _ carries => nomatch carries⟩
  | recover stream =>
      obtain ⟨rest, queue⟩ := List.head?_eq_some_iff.mp (of_decide_eq_true offered)
      exact .inr ⟨.recover stream, by rw [taking, queue]; rfl, nofun,
        fun _ carries => nomatch carries⟩
  | shutdown =>
      rcases (Bool.or_eq_true _ _).mp offered with head | closed
      · obtain ⟨rest, queue⟩ := List.head?_eq_some_iff.mp (of_decide_eq_true head)
        exact .inr ⟨.shutdown, by rw [taking, queue]; rfl, fun _ => rfl,
          fun _ carries => nomatch carries⟩
      · left
        simp only [Bool.and_eq_true, List.isEmpty_iff] at closed
        rw [taking, closed.1.1]
        rfl
  | _ => exact .inl rfl

theorem countP_taking (h : Hub) {act : Act} (offered : h.offers act = true)
    (other : ∀ stream, act ≠ .recover stream) :
    (h.taking act).countP Cmd.isRecover = h.cmds.countP Cmd.isRecover := by
  have popped {cmd : Cmd} (head : h.cmds.head? = some cmd) (plain : cmd.isRecover = false) :
      h.cmds.tail.countP Cmd.isRecover = h.cmds.countP Cmd.isRecover := by
    obtain ⟨rest, eq⟩ := List.head?_eq_some_iff.mp head
    rw [eq, List.countP_cons_of_neg (by rw [plain]; exact Bool.false_ne_true)]
    rfl
  cases act with
  | recover stream => exact absurd rfl (other stream)
  | write now accepts header payload =>
      simp only [offers] at offered
      split at offered
      · rename_i eq
        exact popped (by rw [eq]; rfl) rfl
      · cases offered
  | killSocket => exact popped (by simpa [offers] using offered) rfl
  | shutdown =>
      rcases (Bool.or_eq_true _ _).mp offered with head | closed
      · exact popped (by simpa using head) rfl
      · have empty : h.cmds = [] := by
          simp only [Bool.and_eq_true, List.isEmpty_iff] at closed
          exact closed.1.1
        rw [taking, empty]
        rfl
  | _ => rfl

theorem Sound.asks (sound : h.Sound) {stream : SocketId} (running : h.task.pc ≠ .ended)
    (queued : h.cmds.head? = some (.recover stream)) : h.supervisor = .awaiting := by
  by_contra other
  have none := sound.no_recover running other
  obtain ⟨rest, eq⟩ := List.head?_eq_some_iff.mp queued
  rw [recovers, eq, List.countP_cons_of_pos rfl] at none
  omega

/-- The supervisor moves with the actor only at the reply it waits for. -/
theorem Sound.after (sound : h.Sound) {act : Act} {task : Backed.Task} {effects : List Effect}
    (offered : h.offers act = true) (stepped : h.task.step box act = some (task, effects)) :
    h.supervisor.after (.actor act) effects = h.supervisor ∨
      h.supervisor = .awaiting ∧
        (h.supervisor.after (.actor act) effects = .watching ∨
          h.supervisor.after (.actor act) effects = .sleeping) := by
  have moves := Task.step_moves stepped
  obtain ⟨stream, rfl, idle, under, place⟩ | ⟨other, live, rfl, under, _⟩ | ⟨other, quiet, _⟩ :=
    moves.exchanges
  · left
    have running : h.task.pc ≠ .ended := by
      intro finished
      rw [moves.ended sound.placed finished] at under
      rw [idle] at under
      cases under
    exact (sound.asks running (by simpa [offers] using offered)).symm
  · rw [Supervisor.after_of_other other]
    refine .inr ⟨(sound.awaiting under).1, ?_⟩
    cases live with
    | true => exact .inl (if_pos (List.mem_singleton_self _))
    | false => exact .inr ((if_neg (by simp)).trans (if_pos (List.mem_singleton_self _)))
  · left
    rw [Supervisor.after_of_other other, if_neg (quiet true), if_neg (quiet false)]

theorem Sound.actor (sound : h.Sound) {act : Act} {task : Backed.Task} {effects : List Effect}
    (offered : h.offers act = true) (stepped : h.task.step box act = some (task, effects)) :
    Sound { h with
      task := task
      cmds := h.taking act
      backedEvents := h.backedEvents ++ eventsOf effects
      supervisor := h.supervisor.after (.actor act) effects } := by
  have moves := Task.step_moves stepped
  have after := sound.after offered stepped
  refine ⟨Task.step_placed sound.placed stepped, moves.winding sound.placed sound.winding,
    sound.own, ?_, ?_⟩
  · intro unfinished
    have running : h.task.pc ≠ .ended := by
      intro finished
      exact unfinished ((congrArg Task.pc (moves.ended sound.placed finished)).trans finished)
    have asked := sound.asked running
    simp only [recovers] at asked ⊢
    obtain ⟨stream, rfl, idle, under, place⟩ | ⟨other, live, rfl, under, ended⟩ |
      ⟨other, quiet, same⟩ := moves.exchanges
    · have queued : h.cmds.head? = some (.recover stream) := by simpa [offers] using offered
      have waits := sound.asks running queued
      obtain ⟨rest, eq⟩ := List.head?_eq_some_iff.mp queued
      rw [eq, List.countP_cons_of_pos rfl, idle, waits] at asked
      simp only [taking, eq, under, Supervisor.after]
      simpa using asked
    · rw [h.countP_taking offered other, (sound.awaiting under).2, ended,
        Supervisor.after_of_other other]
      cases live <;> simp
    · rw [Supervisor.after_of_other other, if_neg (quiet true), if_neg (quiet false), same,
        h.countP_taking offered other]
      exact asked
  · rcases sound.consumer with there | returned
    · by_cases gone : act = .dropConsumer
      · subst gone
        have returned : h.supervisor = .returned := by simpa [offers] using offered
        right
        rcases after with same | ⟨waits, _⟩
        · exact same.trans returned
        · cases waits.symm.trans returned
      · exact .inl ((Task.step_consumer gone stepped).trans there)
    · right
      rcases after with same | ⟨waits, _⟩
      · exact same.trans returned
      · cases waits.symm.trans returned

/-- A step of the supervisor that neither sends a command nor has one under way. -/
theorem Sound.of_supervisor (sound : h.Sound) (supervisor : Supervisor) (events : List Event)
    (backedEvents : List BackedEvent) (here : h.supervisor ≠ .returned)
    (idle : h.supervisor ≠ .awaiting ∨ h.task.pc = .ended) (plain : supervisor ≠ .awaiting) :
    Sound { h with
      supervisor := supervisor, events := events, backedEvents := backedEvents } := by
  refine ⟨sound.placed, sound.winding, sound.own, ?_, .inl (sound.consumer.resolve_right here)⟩
  intro running
  rw [decide_eq_false plain]
  exact sound.no_recover running (idle.resolve_right running)

/-- Commands without a recover come and go. -/
theorem Sound.of_cmds (sound : h.Sound) (cmds calls : List Cmd)
    (own : ∀ cmd ∈ calls, cmd.isRecover = false)
    (same : h.task.pc ≠ .ended → cmds.countP Cmd.isRecover = h.cmds.countP Cmd.isRecover)
    (started : Nat) :
    Sound { h with cmds := cmds, calls := calls, started := started } := by
  refine ⟨sound.placed, sound.winding, own, ?_, sound.consumer⟩
  intro running
  rw [← sound.asked running, recovers, same running]
  rfl

theorem receive_ne_awaiting (event : BackedEvent) : Supervisor.receive event ≠ .awaiting := by
  cases event <;> nofun

theorem dialed_ne_awaiting (outcome : Handshake) : Supervisor.dialed outcome ≠ .awaiting := by
  cases outcome <;> nofun

/-- Every step keeps it. -/
theorem Moves.sound (moves : Moves box h a h' notes) (sound : h.Sound) : h'.Sound := by
  cases moves with
  | actor act task effects offered stepped => exact sound.actor offered stepped
  | recv event rest here =>
      exact sound.of_supervisor _ _ _ (by rw [here]; nofun) (.inl (by rw [here]; nofun))
        (receive_ne_awaiting event)
  | handshake outcome here =>
      exact sound.of_supervisor _ _ _ (by rw [here]; nofun) (.inl (by rw [here]; nofun))
        (dialed_ne_awaiting outcome)
  | recvEnd here | forwarded p here | forwardFails p here | slept here | shutdownLost here =>
      exact sound.of_supervisor _ _ _ (by rw [here]; nofun) (.inl (by rw [here]; nofun)) nofun
  | reported reason shutdown here | reportFails reason shutdown here =>
      exact sound.of_supervisor _ _ _ (by rw [here]; nofun) (.inl (by rw [here]; nofun))
        (by cases shutdown <;> nofun)
  | ownerGone _ here =>
      refine sound.of_supervisor .returned _ _ ?_ ?_ nofun
      · rcases here with here | here <;> rw [here] <;> nofun
      · left
        rcases here with here | here <;> rw [here] <;> nofun
  | recoverLost here finished =>
      refine sound.of_supervisor .sleeping _ _ ?_ (.inr finished) nofun
      obtain ⟨stream, here⟩ | here := here <;> rw [here] <;> nofun
  | asked stream here room running =>
      have none := sound.no_recover running (by rw [here]; nofun)
      refine ⟨sound.placed, sound.winding, sound.own, ?_,
        .inl (sound.consumer.resolve_right (by rw [here]; nofun))⟩
      intro _
      have one : [Cmd.recover stream].countP Cmd.isRecover = 1 := rfl
      simp only [recovers, List.countP_append, one, decide_true, Bool.toNat_true] at none ⊢
      omega
  | shutdownSent here running room =>
      have quiet := sound.of_supervisor .returned h.events h.backedEvents (by rw [here]; nofun)
        (.inl (by rw [here]; nofun)) nofun
      apply quiet.of_cmds _ _ sound.own _ h.started
      intro _
      simp [Cmd.isRecover]
  | start cmd owned next =>
      apply sound.of_cmds _ _ _ (fun _ => rfl)
      intro other found
      rcases List.mem_append.mp found with old | new
      · exact sound.own other old
      · rw [List.mem_singleton.mp new]
        cases cmd <;> first | rfl | cases next
  | submit cmd waits room running =>
      apply sound.of_cmds _ _ _ _ h.started
      · exact fun other found => sound.own other (List.mem_of_mem_erase found)
      · intro _
        simp [sound.own cmd waits]
  | refuse cmd waits finished =>
      exact sound.of_cmds _ _ (fun other found => sound.own other (List.mem_of_mem_erase found))
        (fun _ => rfl) h.started
  | lose cmd rest eq finished =>
      exact sound.of_cmds _ _ sound.own (fun running => absurd finished running) h.started
  | receive event rest | drop =>
      exact ⟨sound.placed, sound.winding, sound.own, sound.asked, sound.consumer⟩

theorem sound_connected (cfg : BackedConfig) (now : Instant) : (connected cfg now).Sound :=
  ⟨.inl rfl, nofun, nofun, fun _ => rfl, .inl rfl⟩

theorem sound_reachable {cfg : BackedConfig} {now : Instant} {log : List HubNote}
    (run : (system box cfg now).Reachable log h) : h.Sound := by
  induction run with
  | start => exact sound_connected cfg now
  | next _ _ _ stepped ih => exact (step_moves stepped).sound ih

/-- What steps of the actor alone may do to the client. -/
structure Served (h : Hub) (more : List HubNote) (h' : Hub) : Prop where
  same : h' = { h with task := h'.task, cmds := h'.cmds, supervisor := h'.supervisor }
  supervisor : h'.supervisor = h.supervisor ∨
    h.supervisor = .awaiting ∧ h'.supervisor = .sleeping
  answered : ∀ cmd ∈ h.cmds, cmd ∈ h'.cmds ∨
    ∀ call, cmd.call? = some call → ∃ failure, .returned call failure ∈ more

theorem Served.refl (h : Hub) : h.Served [] h :=
  ⟨rfl, .inl rfl, fun _ queued => .inl queued⟩

theorem Served.trans {h₁ h₂ h₃ : Hub} {log more : List HubNote} (first : h₁.Served log h₂)
    (second : h₂.Served more h₃) : h₁.Served (log ++ more) h₃ := by
  refine ⟨?_, ?_, ?_⟩
  · rw [second.same, first.same]
  · obtain same | ⟨waits, sleeps⟩ := second.supervisor
    · rw [same]
      exact first.supervisor
    · obtain same | ⟨_, asleep⟩ := first.supervisor
      · exact .inr ⟨same ▸ waits, sleeps⟩
      · cases asleep.symm.trans waits
  · intro cmd queued
    rcases first.answered cmd queued with still | done
    · refine (second.answered cmd still).imp_right ?_
      intro done call carries
      obtain ⟨failure, told⟩ := done call carries
      exact ⟨failure, List.mem_append_right _ told⟩
    · right
      intro call carries
      obtain ⟨failure, told⟩ := done call carries
      exact ⟨failure, List.mem_append_left _ told⟩

/-- The work left to the actor; serving a command may take it away from the next one. -/
def backlog (h : Hub) : Nat := 6 * h.cmds.length + h.task.away

theorem homeward_ne_recover (t : Backed.Task) (stream : SocketId) :
    t.homeward ≠ .recover stream := by
  unfold Task.homeward
  split <;> nofun

theorem offers_homeward (h : Hub) : h.offers h.task.homeward = true := by
  unfold Task.homeward
  split <;> rfl

theorem taking_homeward (h : Hub) : h.taking h.task.homeward = h.cmds := by
  unfold Task.homeward
  split <;> rfl

/-- A step of the actor back to its commands. -/
theorem Sound.comes_home (sound : h.Sound) (deaf : h.task.serves = false)
    (unfinished : h.task.pc ≠ .ended) :
    ∃ h' notes, h.step box (.actor h.task.homeward) = some (h', notes) ∧ h.Served notes h' ∧
      h'.cmds = h.cmds ∧ h'.task.away < h.task.away := by
  obtain ⟨task, effects, stepped, home⟩ := @Task.homeward_step box h.task deaf unfinished
  refine ⟨_, _, by rw [step, if_pos h.offers_homeward, stepped]; rfl, ⟨?_, ?_, ?_⟩,
    h.taking_homeward, home.closer⟩
  · simp only [home.silent, List.append_nil]
  · dsimp only
    rw [Supervisor.after_of_other (homeward_ne_recover h.task)]
    obtain ⟨rfl, under⟩ | ⟨_, quiet⟩ := home.failed
    · exact .inr ⟨(sound.awaiting under).1, by simp⟩
    · exact .inl (by rw [if_neg (quiet true), if_neg (quiet false)])
  · intro cmd queued
    left
    rwa [h.taking_homeward]

theorem not_finished_of_serves (sound : h.Sound) (ready : h.task.serves = true) :
    h.task.finished = false := by
  have serving := (Task.serving_of_serves ready).2
  rw [Task.finished, sound.winding.up_of_serving serving, Pc.terminal_of_serving serving]
  rfl

theorem offers_act {cmd : Cmd} {rest : List Cmd} (queue : h.cmds = cmd :: rest) :
    h.offers cmd.act = true ∧ h.taking cmd.act = rest := by
  cases cmd <;> simp [offers, taking, Cmd.act, queue]

/-- A served write is answered. -/
theorem replies_write {call : Nat} {header : UInt8} {payload : Bytes} {rest : List Cmd}
    {now : Instant} {accepts : Bool} {task : Backed.Task} {effects : List Effect}
    (queue : h.cmds = .write call header payload :: rest)
    (moves : Task.Moves box h.task (.write now accepts header payload) task effects) :
    ∃ failure, .returned call failure ∈
      h.replies (.write now accepts header payload) effects := by
  have told : ∃ failure, Effect.wrote failure ∈ effects := by
    cases moves with
    | write _ _ _ _ _ _ _ writes =>
        cases writes with
        | shutdown => exact ⟨some .shutdown, by simp⟩
        | skipped => exact ⟨some .skipped, by simp⟩
        | buffered | queued | killed => exact ⟨none, by simp⟩
  obtain ⟨failure, told⟩ := told
  refine ⟨failure, ?_⟩
  simp only [replies, queue, List.head?_cons, Option.bind_some, Cmd.call?, Option.toList_some,
    List.flatMap_cons, List.flatMap_nil, List.append_nil, List.mem_filterMap]
  exact ⟨.wrote failure, told, rfl⟩

theorem step_act {t : Backed.Task} (cmd : Cmd) (ready : t.serves = true) :
    ∃ t' effects, t.step box cmd.act = some (t', effects) ∧ eventsOf effects = [] := by
  cases cmd with
  | write call header payload =>
      refine ⟨_, _, if_pos ready, ?_⟩
      exact Task.eventsOf_writes (t.actor.write_writes box 0 false header payload)
  | killSocket | recover | shutdown => exact ⟨_, _, if_pos ready, rfl⟩

/-- The actor serves the command that waits longest. -/
theorem Sound.serves_next (sound : h.Sound) (ready : h.task.serves = true) {cmd : Cmd}
    {rest : List Cmd} (queue : h.cmds = cmd :: rest) :
    ∃ h' notes, h.step box (.actor cmd.act) = some (h', notes) ∧ h.Served notes h' ∧
      h'.cmds = rest := by
  obtain ⟨task, effects, stepped, silent⟩ := @step_act box h.task cmd ready
  obtain ⟨offered, popped⟩ := offers_act queue
  have moves := Task.step_moves stepped
  have idle := (Task.serving_of_serves ready).1
  refine ⟨_, _, by rw [step, if_pos offered, stepped]; rfl, ⟨?_, ?_, ?_⟩, popped⟩
  · simp only [silent, List.append_nil]
  · left
    rcases sound.after offered stepped with same | ⟨waits, _⟩
    · exact same
    · obtain ⟨stream, recovers, _⟩ | ⟨_, _, _, under, _⟩ | ⟨other, quiet, _⟩ := moves.exchanges
      · dsimp only
        rw [recovers, waits]
        rfl
      · rw [idle] at under
        cases under
      · dsimp only
        rw [Supervisor.after_of_other other, if_neg (quiet true), if_neg (quiet false)]
  · intro cmd' queued
    rw [queue, List.mem_cons] at queued
    rcases queued with rfl | later
    · right
      intro call carries
      cases cmd' with
      | write =>
          cases carries
          obtain ⟨failure, told⟩ := replies_write queue moves
          exact ⟨failure, List.mem_append_right _ told⟩
      | killSocket | recover | shutdown => cases carries
    · left
      rw [popped]
      exact later

/-- Such a step of the actor. -/
def ofActor : HubAct → Prop
  | .actor act => act.own = true
  | _ => False

theorem own_act (cmd : Cmd) : cmd.act.own = true := by
  cases cmd <;> rfl

/-- Steps of the actor alone serve every command, or end the task. -/
theorem Sound.drains (cfg : BackedConfig) (now : Instant) (sound : h.Sound) :
    ∃ more h', (system box cfg now).Leads ofActor h more h' ∧ (h'.Sound ∧ h.Served more h') ∧
      (h'.task.pc = .ended ∨ h'.cmds = [] ∧ h'.task.serves = true) := by
  apply Transition.System.leads_of_progress backlog
  · intro log s before unfinished
    rw [not_or] at unfinished
    obtain ⟨running, busy⟩ := unfinished
    have next {act : Act} {s' : Hub} {notes : List HubNote} (own : act.own = true)
        (stepped : s.step box (.actor act) = some (s', notes)) (served : s.Served notes s')
        (less : s'.backlog < s.backlog) : ∃ a t effects, ofActor a ∧
          (system box cfg now).step s a = some (t, effects) ∧
            (t.Sound ∧ h.Served (log ++ effects) t) ∧ t.backlog < s.backlog :=
      ⟨.actor act, s', notes, own, stepped,
        ⟨(step_moves stepped).sound before.1, before.2.trans served⟩, less⟩
    cases ready : s.task.serves with
    | false =>
        obtain ⟨s', notes, stepped, served, kept, closer⟩ :=
          @Sound.comes_home box s before.1 ready running
        apply next s.task.own_homeward stepped served
        rw [backlog, backlog, kept]
        omega
    | true =>
        cases queue : s.cmds with
        | nil => exact absurd ⟨queue, ready⟩ busy
        | cons cmd rest =>
            obtain ⟨s', notes, stepped, served, popped⟩ :=
              @Sound.serves_next box s before.1 ready cmd rest queue
            apply next (own_act cmd) stepped served
            have near := s'.task.away_le
            rw [backlog, backlog, popped, queue, List.length_cons]
            omega
  · exact ⟨sound, .refl h⟩

end Hub

end Client

end Et
