import EtClient.Backed.Sockets

/-!
# The notice of a lost socket

A socket that is closed leaves a mark, the tests behind the `select!` turn the mark into
a `send_event(SocketDown)`, and the event queue takes it there. Until then the task owes
a notice. `Task.step_turn` says once what a step does to the socket, to the notices owed
and to the inbox: a notice is only ever added for a socket that was dropped, and a frame
only arrives on a socket or with a catch-up.
-/

namespace Et

namespace Backed

/-- How many times the consumer is told that the socket is down. -/
def notices (effects : List Effect) : Nat := (eventsOf effects).count .socketDown

/-- Notices that are still to be sent. -/
def Task.owed (t : Task) : Nat :=
  (if t.pc = .notify then 1 else 0) + if t.actor.socketDownPending then 1 else 0

/-- The actor kept its socket, or closed it and left the mark. -/
def Actor.KeptOrClosed (s s' : Actor) : Prop :=
  (s'.live = s.live ∧ s'.socketDownPending = s.socketDownPending) ∨
    (s.live ≠ none ∧ s'.live = none)

namespace Actor

theorem keptOrClosed_close (s : Actor) : s.KeptOrClosed s.closeCurrentSocket := by
  cases live : s.live with
  | none => exact .inl ⟨live.symm, by simp [closeCurrentSocket, live]⟩
  | some socket => exact .inr ⟨by simp [live], rfl⟩

theorem pushBackup_socketDownPending (s : Actor) (crypto : CryptoHandler) (frame : Bytes) :
    (s.pushBackup crypto frame).socketDownPending = s.socketDownPending := by
  rw [pushBackup]
  split <;> rfl

theorem Writes.keptOrClosed {box : SecretBox} {now : Instant} {accepts : Bool} {s s' : Actor}
    {header : UInt8} {payload : Bytes} {effects : List Effect}
    (writes : s.Writes box now accepts header payload s' effects) :
    s.KeptOrClosed s' ∧ notices effects = 0 := by
  cases writes with
  | shutdown | skipped => exact ⟨.inl ⟨rfl, rfl⟩, rfl⟩
  | buffered crypto frame | queued crypto frame =>
      have live := s.pushBackup_live crypto frame
      have mark := s.pushBackup_socketDownPending crypto frame
      exact ⟨.inl ⟨live, mark⟩, rfl⟩
  | killed crypto frame socket _ _ _ live => exact ⟨.inr ⟨by simp [live], rfl⟩, rfl⟩

theorem Ticks.keptOrClosed {box : SecretBox} {now : Instant} {accepts : Bool} {s s' : Actor}
    {effects : List Effect} (ticks : s.Ticks box now accepts s' effects) :
    s.KeptOrClosed s' ∧ notices effects = 0 := by
  cases ticks with
  | idle => exact ⟨.inl ⟨rfl, rfl⟩, rfl⟩
  | closed => exact ⟨s.keptOrClosed_close, rfl⟩
  | pinged _ _ _ _ _ _ _ _ writes => exact writes.keptOrClosed

end Actor

/-- What a step does to the socket, the notices and the inbox of a task that runs on. -/
structure Turn (t t' : Task) (effects : List Effect) : Prop where
  /-- The socket is kept, or dropped for at most one more notice, or new. -/
  socket : (t'.socket = t.socket ∧ t'.owed + notices effects ≤ t.owed) ∨
    (t.socket ≠ none ∧ t'.socket = none ∧ t'.owed + notices effects ≤ t.owed + 1) ∨
    (.recovered true ∈ effects ∧ t'.owed + notices effects ≤ t.owed)
  inbox : t'.actor.inbox <:+ t.actor.inbox ∨ t.socket ≠ none ∨ .recovered true ∈ effects
  select : t'.pc = .select →
    t'.actor.inbox = [] ∨ (t.pc = .select ∧ t'.actor.inbox = t.actor.inbox)
  armDone : t'.pc = .armDone →
    (t.pc = .select ∧ t'.actor.inbox = t.actor.inbox) ∨ t'.socket ≠ none
  notify : t'.pc = .notify → t.pc = .notify ∨
    (t.pc = .armDone ∧ t.actor.socketDownPending = true ∧ t'.actor.inbox = t.actor.inbox)
  noticed : 0 < notices effects → t.pc = .notify

/-- The task stays where it is, or an arm of the `select!` is done. -/
def Task.StaysOrArmDone (t t' : Task) : Prop :=
  (t'.pc = t.pc ∧ t.pc ≠ .armDone) ∨ (t.pc = .select ∧ t'.pc = .armDone)

namespace Task

variable {box : SecretBox} {t t' : Task} {effects : List Effect}

theorem not_armDone_of_serving (serving : t.pc.serving = true) : t.pc ≠ .armDone := by
  intro place
  rw [place] at serving
  cases serving

/-- A command leaves a task that runs on where it was, or behind its arm. -/
theorem served_stays {actor : Actor} (serving : t.pc.serving = true)
    (running : (t.served actor).pc.terminal = false) : t.StaysOrArmDone (t.served actor) := by
  obtain ⟨before, after⟩ | ending | same := t.served_pc actor
  · exact .inr ⟨before, after⟩
  · rw [ending] at running
    cases running
  · exact .inl ⟨same, not_armDone_of_serving serving⟩

/-- Only the mark can change what such a task owes. -/
theorem owed_of_stays (more : Nat) (stays : t.StaysOrArmDone t')
    (marks : t'.actor.socketDownPending.toNat ≤ t.actor.socketDownPending.toNat + more) :
    t'.owed ≤ t.owed + more := by
  have bit : ∀ b : Bool, (if b = true then 1 else 0) = b.toNat := by decide
  rw [owed, owed, bit, bit]
  obtain ⟨same, _⟩ | ⟨before, after⟩ := stays
  · rw [same]
    omega
  · rw [before, after, if_neg nofun, if_neg nofun]
    omega

end Task

namespace Turn

variable {t t' : Task} {effects : List Effect}

/-- A task that keeps or closes its socket and keeps its inbox. -/
theorem of_kept (kept : (t'.socket = t.socket ∧
      t'.actor.socketDownPending = t.actor.socketDownPending) ∨
      (t.socket ≠ none ∧ t'.socket = none))
    (inbox : t'.actor.inbox = t.actor.inbox) (quiet : notices effects = 0)
    (stays : t.StaysOrArmDone t') : Turn t t' effects := by
  refine ⟨?_, .inl (inbox ▸ List.suffix_refl _), ?_, ?_, ?_, by omega⟩
  · rw [quiet]
    obtain ⟨same, mark⟩ | ⟨held, dropped⟩ := kept
    · exact .inl ⟨same, Task.owed_of_stays 0 stays (by rw [mark]; exact Nat.le_refl _)⟩
    · have mark := t'.actor.socketDownPending.toNat_le
      exact .inr (.inl ⟨held, dropped, Task.owed_of_stays 1 stays (by omega)⟩)
  · intro here
    obtain ⟨same, _⟩ | ⟨_, after⟩ := stays
    · exact .inr ⟨same ▸ here, inbox⟩
    · rw [here] at after
      cases after
  · intro here
    obtain ⟨same, other⟩ | ⟨before, _⟩ := stays
    · exact absurd (same ▸ here) other
    · exact .inl ⟨before, inbox⟩
  · intro here
    obtain ⟨same, _⟩ | ⟨_, after⟩ := stays
    · exact .inl (same ▸ here)
    · rw [here] at after
      cases after

/-- A task that keeps its socket and goes on to deliver what is in its inbox. -/
theorem of_onward (socket : t'.socket = t.socket) (owed : t'.owed + notices effects ≤ t.owed)
    (inbox : t'.actor.inbox <:+ t.actor.inbox)
    (elsewhere : t'.pc ≠ .select ∧ t'.pc ≠ .armDone ∧ t'.pc ≠ .notify)
    (noticed : 0 < notices effects → t.pc = .notify) : Turn t t' effects where
  socket := .inl ⟨socket, owed⟩
  inbox := .inl inbox
  select here := absurd here elsewhere.1
  armDone here := absurd here elsewhere.2.1
  notify here := absurd here elsewhere.2.2
  noticed := noticed

/-- A command of a task that is in no exchange. -/
theorem of_served {actor : Actor} (kept : t.actor.KeptOrClosed actor)
    (ready : t.serves = true) (inbox : actor.inbox = t.actor.inbox) (quiet : notices effects = 0)
    (running : (t.served actor).pc.terminal = false) : Turn t (t.served actor) effects := by
  obtain ⟨idle, serving⟩ := Task.serving_of_serves ready
  refine of_kept ?_ inbox quiet (Task.served_stays serving running)
  rw [Task.socket, Task.socket, idle]
  exact kept

/-- An exchange that succeeded brings a new socket. -/
theorem of_recovered {now : Instant} {stream : SocketId} {entries : List Bytes}
    (serving : t.pc.serving = true)
    (running : (t.served (t.actor.revive now stream entries)).pc.terminal = false) :
    Turn t (t.served (t.actor.revive now stream entries)) [.recovered true] := by
  have stays := Task.served_stays serving running
  have recovered : .recovered true ∈ [Effect.recovered true] := List.mem_singleton.mpr rfl
  refine ⟨.inr (.inr ⟨recovered, Task.owed_of_stays 0 stays (Nat.le_refl _)⟩),
    .inr (.inr recovered), ?_, fun _ => .inr nofun, ?_, nofun⟩
  · intro here
    exfalso
    obtain ⟨same, _⟩ | ⟨_, after⟩ := stays
    · rw [Task.served, show t.pc = .select from same ▸ here] at here
      cases here
    · rw [here] at after
      cases after
  · intro here
    obtain ⟨same, _⟩ | ⟨_, after⟩ := stays
    · exact .inl (same ▸ here)
    · rw [here] at after
      cases after

end Turn

namespace Task

variable {box : SecretBox} {t t' : Task} {effects : List Effect}

/-- A round of delivery that goes on owes no more than before. -/
theorem owed_of_delivered {actor : Actor} {pc : Pc} (other : pc ≠ .notify)
    (mark : actor.socketDownPending = t.actor.socketDownPending) :
    { t with actor := actor, pc := pc }.owed ≤ t.owed := by
  rw [owed, owed, if_neg other, mark]
  omega

/-- One step of a task that runs on and has its consumer. -/
theorem step_turn {act : Act} (placed : t.Placed) (consumer : t'.consumer = true)
    (running : t'.pc.terminal = false) (stepped : t.step box act = some (t', effects)) :
    Turn t t' effects := by
  cases step_moves stepped with
  | write _ _ _ _ _ _ ready writes =>
      obtain ⟨kept, quiet⟩ := writes.keptOrClosed
      exact .of_served kept ready writes.reader.1.inbox quiet running
  | killSocket ready => exact .of_served t.actor.keptOrClosed_close ready rfl rfl running
  | shutdown ready => exact .of_served (.inl ⟨rfl, rfl⟩) ready rfl rfl running
  | recover _ ready =>
      obtain ⟨idle, serving⟩ := serving_of_serves ready
      refine .of_kept (.inl ⟨(t.socket_of_idle idle).symm, rfl⟩) rfl rfl (.inl ⟨rfl, ?_⟩)
      exact not_armDone_of_serving serving
  | frame _ place idle live =>
      have held : t.socket ≠ none := by
        rw [t.socket_of_idle idle]
        exact Option.isSome_iff_ne_none.mp live
      refine ⟨.inl ⟨rfl, owed_of_stays 0 (.inr ⟨place, rfl⟩) (Nat.le_refl _)⟩,
        .inr (.inl held), ?_, fun _ => .inr held, ?_, ?_⟩ <;> rintro ⟨⟩
  | socketLost place idle =>
      refine .of_kept ?_ rfl rfl (.inr ⟨place, rfl⟩)
      simp only [socket, idle]
      exact t.actor.keptOrClosed_close
  | tick _ _ _ _ place idle ticks =>
      obtain ⟨kept, quiet⟩ := ticks.keptOrClosed
      refine .of_kept ?_ ticks.reader.1.inbox quiet (.inr ⟨place, rfl⟩)
      simp only [socket, idle]
      exact kept
  | notice place _ pending =>
      refine ⟨.inl ⟨rfl, ?_⟩, .inl (List.suffix_refl _), (by rintro ⟨⟩), (by rintro ⟨⟩),
        fun _ => .inr ⟨place, pending, rfl⟩, (by rintro ⟨⟩)⟩
      simp [owed, place, pending, notices, eventsOf]
  | proceed place _ unmarked =>
      refine .of_onward rfl ?_ (List.suffix_refl _) (by simp) (by rintro ⟨⟩)
      simp [owed, place, unmarked, notices, eventsOf]
  | send event _ _ out =>
      have notice : notices [.event event] = if t.pc = .notify then 1 else 0 := by
        unfold outgoing at out
        split at out <;> cases out
        · rename_i place
          rw [if_pos place]
          rfl
        · rename_i p place
          rw [place, if_neg (by rintro ⟨⟩)]
          rfl
      refine .of_onward rfl ?_ (List.suffix_refl _) (by simp) ?_
      · rw [notice, owed, owed, if_neg (by rintro ⟨⟩), Nat.zero_add]
        exact Nat.le_of_eq (Nat.add_comm _ _)
      · intro some
        by_contra other
        rw [notice, if_neg other] at some
        cases some
  | noticeFails _ gone | sendFails _ _ gone => cases gone.symm.trans consumer
  | drained _ _ empty =>
      refine ⟨.inl ⟨rfl, owed_of_delivered ?_ rfl⟩, .inl (List.suffix_refl _),
        fun _ => .inl empty, ?_, ?_, by rintro ⟨⟩⟩
      · split <;> rintro ⟨⟩
      · dsimp only
        split <;> rintro ⟨⟩
      · dsimp only
        split <;> rintro ⟨⟩
  | opened _ _ _ _ _ popped =>
      obtain ⟨bytes, rest, _, _, _, inbox, _, _, rfl, rfl, rfl⟩ := Actor.deliverOne_opened popped
      refine .of_onward rfl (owed_of_delivered (by rintro ⟨⟩) rfl) ?_ (by simp) (by rintro ⟨⟩)
      rw [inbox]
      exact List.suffix_cons _ _
  | sequenceSent e under | answered _ e _ under | catchupSent e _ under =>
      refine .of_kept (.inl ⟨(t.socket_of_exchange under).symm, rfl⟩) rfl rfl (.inl ⟨rfl, ?_⟩)
      exact not_armDone_of_serving (placed.serving under)
  | revived _ _ e under => exact .of_recovered (placed.serving under) running
  | denied _ e _ under | oversized _ _ e under | exchangeFails e under =>
      exact .of_kept (.inl ⟨(t.socket_of_exchange under).symm, rfl⟩) rfl rfl
        (served_stays (placed.serving under) running)
  | close | rejected | sendDead | finish => cases running
  | dropConsumer => cases consumer

/-- A task that runs on was running before. -/
theorem step_running {act : Act} (placed : t.Placed)
    (stepped : t.step box act = some (t', effects)) (running : t'.pc.terminal = false) :
    t.pc.terminal = false := by
  cases step_reader placed stepped with
  | received _ _ _ _ _ _ _ before => exact before
  | abandoned eq => rwa [eq] at running
  | popped _ place => rw [place]; rfl
  | delivered _ place => rw [place]; rfl
  | died _ eq =>
      rw [eq] at running
      cases running
  | finished _ eq =>
      rw [eq] at running
      cases running

/-- The consumer goes away only by itself. -/
theorem step_consumer {act : Act} (stays : act ≠ .dropConsumer)
    (stepped : t.step box act = some (t', effects)) : t'.consumer = t.consumer := by
  cases step_moves stepped with
  | dropConsumer => exact absurd rfl stays
  | write | killSocket | recover | shutdown | frame | socketLost | tick | close | notice | proceed
  | send | noticeFails | sendFails | drained | rejected | opened | sendDead | finish
  | sequenceSent | answered | denied | catchupSent | revived | oversized | exchangeFails => rfl

end Task

end Backed

end Et
