import EtClient.Backed.Reading

/-!
# The socket a task holds

A task holds the live socket, or the one a recover exchange has set aside. It gets a
new one only by an exchange that succeeds; every other step keeps the socket or drops
it. No packet is written while an exchange runs.
-/

namespace Et

namespace Backed

namespace Task

variable {box : SecretBox} {t t' : Task} {effects : List Effect}

theorem socket_of_idle (t : Task) (idle : t.exchange = none) : t.socket = t.actor.live := by
  rw [socket, idle]

theorem socket_of_exchange (t : Task) {e : Exchange} (under : t.exchange = some e) :
    t.socket = e.old := by
  rw [socket, under]

/-- A write keeps the live socket or drops it. -/
theorem live_of_writes {now : Instant} {accepts : Bool} {s s' : Actor} {header : UInt8}
    {payload : Bytes} (writes : s.Writes box now accepts header payload s' effects) :
    s'.live = s.live ∨ s'.live = none := by
  cases writes with
  | shutdown | skipped => exact .inl rfl
  | buffered crypto frame | queued crypto frame => exact .inl (s.pushBackup_live crypto frame)
  | killed => exact .inr rfl

theorem live_of_ticks {now : Instant} {accepts : Bool} {s s' : Actor}
    (ticks : s.Ticks box now accepts s' effects) : s'.live = s.live ∨ s'.live = none := by
  cases ticks with
  | idle => exact .inl rfl
  | closed => exact .inr rfl
  | pinged _ _ _ _ _ _ _ _ writes =>
      have kept : (s.startPing now).live = s.live := rfl
      rw [← kept]
      exact live_of_writes writes

/-- A new socket comes from a successful exchange only. -/
theorem step_socket {act : Act} (placed : t.Placed)
    (stepped : t.step box act = some (t', effects)) :
    .recovered true ∈ effects ∨ t'.socket = t.socket ∨ t'.socket = none := by
  cases step_moves stepped with
  | write _ _ _ _ _ _ ready writes =>
      rw [t.socket_of_idle (serving_of_serves ready).1]
      exact .inr (live_of_writes writes)
  | killSocket => exact .inr (.inr rfl)
  | recover _ ready | shutdown ready =>
      rw [t.socket_of_idle (serving_of_serves ready).1]
      exact .inr (.inl rfl)
  | socketLost _ idle => exact .inr (.inr (socket_of_idle _ idle))
  | tick _ _ _ _ _ idle ticks =>
      simp only [socket, idle]
      exact .inr (live_of_ticks ticks)
  | rejected now _ _ _ popped | opened now _ _ _ _ popped =>
      have live := (Actor.deliverOne_writer box now t.actor).2.1
      rw [popped] at live
      rw [socket, socket, live]
      exact .inr (.inl rfl)
  | finish _ place =>
      exact .inr (.inr (socket_of_idle _ (placed.idle (by rw [place]; rfl))))
  | sequenceSent e under | answered _ e _ under | catchupSent e _ under | denied _ e _ under
  | oversized _ _ e under | exchangeFails e under =>
      rw [t.socket_of_exchange under]
      exact .inr (.inl rfl)
  | revived => exact .inl (List.mem_singleton.mpr rfl)
  | frame | close | notice | proceed | send | noticeFails | sendFails | drained | sendDead
  | dropConsumer => exact .inr (.inl rfl)

/-- A packet is written only outside an exchange. -/
theorem step_idle_of_encrypted {act : Act} (stepped : t.step box act = some (t', effects))
    (wrote : encryptionsOf effects ≠ []) : t.exchange = none ∧ t'.exchange = none := by
  cases step_moves stepped with
  | write _ _ _ _ _ _ ready => exact ⟨(serving_of_serves ready).1, rfl⟩
  | tick _ _ _ _ _ idle => exact ⟨idle, idle⟩
  | rejected now _ _ _ popped | opened now _ _ _ _ popped =>
      have quiet := (Actor.deliverOne_writer box now t.actor).2.2
      rw [popped] at quiet
      exact absurd quiet.encryptions wrote
  | sendDead | finish => split at wrote <;> exact absurd rfl wrote
  | killSocket | recover | shutdown | frame | socketLost | close | notice | proceed | send
  | noticeFails | sendFails | drained | dropConsumer | sequenceSent | answered | denied
  | catchupSent | revived | oversized | exchangeFails => exact absurd rfl wrote

end Task

end Backed

end Et
