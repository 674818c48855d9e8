import EtClient.Backed.Inbound
import EtClient.Backed.Nonce
import EtClient.Backed.Offline

/-!
# Keepalive and silent sockets

A tick closes the live socket when the flag of an outstanding ping is set and nothing has
happened for a period. The flag is set with a ping on the live socket, and it is cleared
with that socket and by an echo. But the echo clears it only when it is delivered, so a
tick that is taken before a frame that waits sees a flag that is out of date. And a
recover that succeeds while a socket is live takes the flag over to the new one.

Neither happens when the frames that wait are taken before a tick, and when a recover is
served only without a live socket.
-/

namespace Et

namespace Backed

/-- The ledger is closed while the task holds a socket. -/
theorem LedgerStep.closed {box : SecretBox} {t t' : Task} {act : Act} {notes : List LedgerNote}
    (stepped : LedgerStep box t act t' notes)
    (before : t.socket.isSome = true → t.actor.disconnectedBytes = none)
    (running : t'.pc ≠ .ended) (there : t'.socket.isSome = true) :
    t'.actor.disconnectedBytes = none := by
  cases stepped with
  | quiet same ledger _ | queued _ _ _ same _ ledger _ =>
      rw [ledger]
      exact before (same ▸ there)
  | revived _ ledger _ => exact ledger
  | ended _ finished _ _ => exact absurd finished running
  | again _ gone _ _ | lost _ _ gone _ _ | buffered _ _ _ _ _ gone _ _ _ _ _
  | refused _ _ _ gone _ _ _ =>
      rw [gone] at there
      cases there

theorem ledger_closed_reachable {box : SecretBox} {cfg : BackedConfig} {start : Instant}
    {log : List Effect} {t : Task} (run : (Task.system box cfg start).Reachable log t) :
    t.Placed ∧ (t.pc ≠ .ended → t.socket.isSome = true → t.actor.disconnectedBytes = none) := by
  refine run.invariant (P := fun _ t => t.Placed ∧
    (t.pc ≠ .ended → t.socket.isSome = true → t.actor.disconnectedBytes = none)) ?_ ?_
  · exact ⟨.inl rfl, fun _ _ => rfl⟩
  · rintro log t act t' effects ⟨placed, closed⟩ - stepped
    have moves := Task.step_moves stepped
    refine ⟨Task.step_placed placed stepped, fun running => ?_⟩
    have before := closed fun finished =>
      running ((congrArg _ (moves.ended placed finished)).trans finished)
    exact (moves.ledgerStep placed).closed before running

/-- What a step means for the flag of an outstanding ping. -/
inductive PingStep (t : Task) (act : Act) (t' : Task) (effects : List Effect) : Prop
  | kept : t'.socket = t.socket →
      (t'.actor.waitingOnKeepalive = true → t.actor.waitingOnKeepalive = true) →
      PingStep t act t' effects
  | cleared : t'.actor.waitingOnKeepalive = false → PingStep t act t' effects
  | ended : t'.pc = .ended → PingStep t act t' effects
  | revived (e : Exchange) : t.exchange = some e →
      t'.actor.waitingOnKeepalive = t.actor.waitingOnKeepalive → PingStep t act t' effects
  /-- A ping was queued on the live socket. -/
  | pinged (now : Instant) (accepts : Bool) (socket : SocketId) (nonce : Nonce) (frame : Bytes) :
      act = .tick now accepts → t'.socket = some socket → t'.actor.lastActivity = now →
      .encrypted nonce keepAlive [] frame ∈ effects → .queued socket (framePacket frame) ∈ effects →
      PingStep t act t' effects

namespace Actor

variable {box : SecretBox} {now : Instant} {accepts : Bool} {header : UInt8} {payload : Bytes}
  {s s' : Actor} {effects : List Effect}

theorem pushBackup_keepalive (s : Actor) (crypto : CryptoHandler) (frame : Bytes) :
    (s.pushBackup crypto frame).waitingOnKeepalive = s.waitingOnKeepalive ∧
      (s.pushBackup crypto frame).lastActivity = s.lastActivity := by
  rw [pushBackup]
  split <;> exact ⟨rfl, rfl⟩

/-- A write sets no flag, and clears it with the socket it closes. -/
theorem Writes.ping (writes : s.Writes box now accepts header payload s' effects) :
    s'.live = s.live ∧ s'.waitingOnKeepalive = s.waitingOnKeepalive ∨
      s'.waitingOnKeepalive = false := by
  cases writes with
  | shutdown | skipped => exact .inl ⟨rfl, rfl⟩
  | buffered crypto frame =>
      exact .inl ⟨s.pushBackup_live crypto frame, (s.pushBackup_keepalive crypto frame).1⟩
  | queued crypto frame =>
      exact .inl ⟨s.pushBackup_live crypto frame, (s.pushBackup_keepalive crypto frame).1⟩
  | killed => exact .inr rfl

theorem Writes.lastActivity (writes : s.Writes box now accepts header payload s' effects) :
    s'.lastActivity = s.lastActivity ∨ s'.lastActivity = now := by
  cases writes with
  | shutdown | skipped => exact .inl rfl
  | buffered crypto frame => exact .inl (s.pushBackup_keepalive crypto frame).2
  | queued | killed => exact .inr rfl

theorem Ticks.lastActivity (ticks : s.Ticks box now accepts s' effects) :
    s'.lastActivity = s.lastActivity ∨ s'.lastActivity = now := by
  cases ticks with
  | idle => exact .inl rfl
  | closed => exact .inl rfl
  | pinged period _ _ _ _ _ _ _ writes =>
      rcases writes.lastActivity with same | moved
      · exact .inr same
      · exact .inr moved

theorem deliverOne_lastActivity (box : SecretBox) (now : Instant) (s : Actor) :
    (s.deliverOne box now).1.lastActivity = s.lastActivity ∨
      (s.deliverOne box now).1.lastActivity = now := by
  obtain ⟨_, done⟩ | ⟨_, _, _, _, _, _, done⟩ | ⟨_, _, _, _, _, _, _, _, done⟩ :=
    deliverOne_cases box now s
  · rw [done]
    exact .inl rfl
  · rw [done]
    exact .inl rfl
  · rw [done]
    exact .inr rfl

/-- A delivery keeps the flag or clears it. -/
theorem deliverOne_ping (box : SecretBox) (now : Instant) (s : Actor) :
    (s.deliverOne box now).1.live = s.live ∧
      ((s.deliverOne box now).1.waitingOnKeepalive = true → s.waitingOnKeepalive = true) := by
  obtain ⟨_, done⟩ | ⟨_, _, _, _, _, _, done⟩ | ⟨_, _, header, _, _, _, _, _, done⟩ :=
    deliverOne_cases box now s
  · rw [done]
    exact ⟨rfl, id⟩
  · rw [done]
    exact ⟨rfl, id⟩
  · rw [done]
    refine ⟨rfl, fun waiting => ?_⟩
    by_cases echo : header = keepAlive
    · simp [echo] at waiting
    · simpa [echo] using waiting

end Actor

namespace Task

variable {box : SecretBox} {t t' : Task} {act : Act} {effects : List Effect}

theorem Moves.lastActivity (moves : Moves box t act t' effects) :
    t'.actor.lastActivity = t.actor.lastActivity ∨ act.now? = some t'.actor.lastActivity := by
  cases moves with
  | write now _ _ _ actor _ _ writes =>
      exact writes.lastActivity.imp id fun moved => congrArg some moved.symm
  | tick now _ actor _ _ _ ticks =>
      exact ticks.lastActivity.imp id fun moved => congrArg some moved.symm
  | rejected now actor _ _ found | opened now actor _ _ _ found =>
      have moved := t.actor.deliverOne_lastActivity box now
      rw [found] at moved
      exact moved.imp id fun moved => congrArg some moved.symm
  | revived => exact .inr rfl
  | killSocket | recover | shutdown | frame | socketLost | close | notice | proceed | send
  | noticeFails | sendFails | drained | sendDead | finish | dropConsumer | sequenceSent
  | answered | denied | catchupSent | oversized | exchangeFails => exact .inl rfl

theorem Moves.ping (moves : Moves box t act t' effects)
    (closed : t.socket.isSome = true → t.actor.disconnectedBytes = none) :
    PingStep t act t' effects := by
  cases moves with
  | write now _ _ _ actor _ ready writes =>
      rcases writes.ping with ⟨live, flag⟩ | flag
      · refine .kept ?_ fun waiting => flag ▸ waiting
        rw [socket_served, live, t.socket_of_idle (serving_of_serves ready).1]
      · exact .cleared flag
  | killSocket | socketLost => exact .cleared rfl
  | recover stream ready => exact .kept (t.socket_of_idle (serving_of_serves ready).1).symm id
  | shutdown ready => exact .kept (t.socket_of_idle (serving_of_serves ready).1).symm id
  | tick now accepts actor _ _ idle ticks =>
      cases ticks with
      | idle => exact .kept rfl id
      | closed => exact .cleared rfl
      | pinged period _ _ enforced there up elapsed silent writes =>
          have ledger : t.actor.disconnectedBytes = none := by
            apply closed
            rw [t.socket_of_idle idle]
            exact there
          cases writes with
          | shutdown down => cases down.symm.trans up
          | skipped _ full =>
              rw [Actor.disconnectBufferFull, Actor.startPing, ledger] at full
              cases full
          | buffered _ _ _ _ _ offline =>
              rw [show t.actor.live = none from offline] at there
              cases there
          | killed => exact .cleared rfl
          | queued crypto frame socket _ _ _ live _ =>
              refine .pinged now accepts socket crypto.nonce frame rfl ?_ rfl (by simp) (by simp)
              simp only [Task.socket, idle]
              exact (Actor.pushBackup_live _ crypto frame).trans live
  | rejected now actor _ _ found | opened now actor _ _ _ found =>
      obtain ⟨live, flag⟩ := t.actor.deliverOne_ping box now
      rw [found] at live flag
      have live : actor.live = t.actor.live := live
      refine .kept ?_ flag
      simp only [socket, live]
  | finish => exact .ended rfl
  | revived now theirs e under => exact .revived e under rfl
  | sequenceSent e under | answered _ e _ under | catchupSent e _ under
  | denied _ e _ under | oversized _ _ e under | exchangeFails e under =>
      exact .kept (t.socket_of_exchange under).symm id
  | frame | close | notice | proceed | send | noticeFails | sendFails | drained | sendDead
  | dropConsumer => exact .kept rfl id

/-- The loop comes back to the `select!` with nothing to deliver, as long as there is a
consumer. -/
theorem Moves.drained_select (moves : Moves box t act t' effects)
    (before : t.pc = .select → t.actor.inbox = []) (heard : t.consumer = true)
    (place : t'.pc = .select) : t'.actor.inbox = [] := by
  have later (actor : Actor) (place : (t.served actor).pc = .select) : False := by
    rcases t.served_pc actor with ⟨-, done⟩ | done | same
    · cases done.symm.trans place
    · cases done.symm.trans place
    · have here := same.symm.trans place
      rw [served, here] at place
      cases place
  cases moves with
  | drained _ _ empty => exact empty
  | recover | dropConsumer | sequenceSent | answered | catchupSent => exact before place
  | sendFails _ _ gone _ => cases heard.symm.trans gone
  | write | killSocket | shutdown | denied | revived | oversized | exchangeFails =>
      exact absurd place (later _)
  | frame | socketLost | tick | close | notice | proceed | send | noticeFails | rejected
  | opened | sendDead | finish => cases place

theorem Moves.consumer (moves : Moves box t act t' effects) (keeps : act ≠ .dropConsumer)
    (heard : t.consumer = true) : t'.consumer = true := by
  cases moves with
  | dropConsumer => exact absurd rfl keeps
  | _ => exact heard

/-- An exchange that was started without a live socket has set none aside. -/
theorem Moves.old_none (moves : Moves box t act t' effects)
    (before : ∀ e, t.exchange = some e → e.old = none)
    (alone : ∀ stream, act = .recover stream → t.actor.live = none) :
    ∀ e, t'.exchange = some e → e.old = none := by
  intro e' under'
  cases moves with
  | recover stream =>
      cases under'
      exact alone stream rfl
  | sequenceSent e under | answered _ e _ under | catchupSent e _ under =>
      cases under'
      exact before e under
  | write | killSocket | shutdown | denied | revived | oversized | exchangeFails => cases under'
  | frame | socketLost | tick | close | notice | proceed | send | noticeFails | sendFails
  | drained | rejected | opened | sendDead | finish | dropConsumer => exact before e' under'

end Task

/-- A `KEEP_ALIVE` packet was written on the socket at this moment. -/
def PingedAt (log : List InboundEffect) (socket : SocketId) (moment : Instant) : Prop :=
  ∃ nonce frame, .did moment (.encrypted nonce keepAlive [] frame) ∈ log ∧
    .did moment (.queued socket (framePacket frame)) ∈ log

theorem PingedAt.append {log : List InboundEffect} {socket : SocketId} {moment : Instant}
    (pinged : PingedAt log socket moment) (more : List InboundEffect) :
    PingedAt (log ++ more) socket moment := by
  obtain ⟨nonce, frame, boxed, queued⟩ := pinged
  exact ⟨nonce, frame, List.mem_append_left _ boxed, List.mem_append_left _ queued⟩

/-- A frame that holds a `KEEP_ALIVE` packet. -/
def isKeepAlive (bytes : Bytes) : Bool :=
  match Packet.parse bytes with
  | some p => p.header = keepAlive
  | none => false

/-- The frames that wait are taken before a tick that would close the socket, the write
queue takes a ping, a recover is served only without a live socket, and there is a
consumer. -/
def Inbound.orderly (w : Inbound) : InboundAct → Bool
  | .actor _ (.tick _ accepts) =>
      if w.task.actor.waitingOnKeepalive then
        w.task.actor.live.all fun socket => (w.ioRx socket).isEmpty
      else accepts
  | .actor _ .dropConsumer => false
  | .recover _ _ _ => w.task.actor.live.isNone
  | _ => true

/-- The flag stands for a ping on the socket that the task holds. -/
structure PingOf (log : List InboundEffect) (w : Inbound) : Prop where
  heard : w.task.consumer = true
  drained : w.task.pc = .select → w.task.actor.inbox = []
  alone : ∀ e, w.task.exchange = some e → e.old = none
  past : w.task.actor.lastActivity ≤ w.clock
  ping : w.task.pc ≠ .ended → w.task.actor.waitingOnKeepalive = true →
    ∃ socket moment, w.task.socket = some socket ∧ PingedAt log socket moment ∧
      moment ≤ w.task.actor.lastActivity

section Runs

variable {box : SecretBox} {codec : HandshakeCodec} {cfg : BackedConfig} {start : Instant}
  {log notes : List InboundEffect} {w w' : Inbound}

/-- A step of the task, at a moment that is not before the clock. -/
theorem PingOf.step {act : Act} {effects : List Effect} {now : Instant}
    (ping : PingOf log w) (placed : w.task.Placed)
    (closed : w.task.pc ≠ .ended → w.task.socket.isSome = true →
      w.task.actor.disconnectedBytes = none)
    (stepped : w.task.step box act = some (w'.task, effects)) (later : w.clock ≤ now)
    (clock : w'.clock = now) (reading : ∀ moment ∈ act.now?, moment = now)
    (keeps : act ≠ .dropConsumer) (alone : ∀ stream, act = .recover stream →
      w.task.actor.live = none) :
    PingOf (log ++ effects.map (.did now)) w' := by
  have moves := Task.step_moves stepped
  have forward : w.task.actor.lastActivity ≤ w'.task.actor.lastActivity ∧
      w'.task.actor.lastActivity ≤ now := by
    rcases moves.lastActivity with same | moved
    · rw [same]
      exact ⟨le_rfl, ping.past.trans later⟩
    · rw [reading _ moved]
      exact ⟨ping.past.trans later, le_rfl⟩
  refine ⟨moves.consumer keeps ping.heard, moves.drained_select ping.drained ping.heard,
    moves.old_none ping.alone alone, clock ▸ forward.2, ?_⟩
  intro running waiting
  have running' : w.task.pc ≠ .ended := fun finished =>
    running ((congrArg _ (moves.ended placed finished)).trans finished)
  cases moves.ping (closed running') with
  | kept same before =>
      obtain ⟨socket, moment, there, pinged, early⟩ := ping.ping running' (before waiting)
      exact ⟨socket, moment, same.trans there, pinged.append _, early.trans forward.1⟩
  | cleared silent => cases silent.symm.trans waiting
  | ended finished => exact absurd finished running
  | revived e under same =>
      -- The exchange was started without a socket, so there was no ping before it.
      obtain ⟨socket, moment, there, -⟩ := ping.ping running' (same ▸ waiting)
      rw [w.task.socket_of_exchange under, ping.alone e under] at there
      cases there
  | pinged moment accepts socket nonce frame ticked there active boxed queued =>
      have here : moment = now := reading moment (by rw [ticked]; rfl)
      refine ⟨socket, moment, there, ⟨nonce, frame, ?_, ?_⟩, active ▸ le_rfl⟩
      · rw [here]
        exact List.mem_append_right _ (List.mem_map_of_mem boxed)
      · rw [here]
        exact List.mem_append_right _ (List.mem_map_of_mem queued)

/-- An action reads the clock of the world. -/
theorem Inbound.now_of_offers {act : Act} {now : Instant} (offered : w.offers now act = true) :
    (∀ moment ∈ act.now?, moment = now) ∧ ∀ stream, act ≠ .recover stream := by
  cases act with
  | write | tick | deliver =>
      simp only [offers, Act.now?, Option.all_some, decide_eq_true_eq] at offered
      simp [Act.now?, offered]
  | recover | catchupRead => cases offered
  | _ => exact ⟨nofun, nofun⟩

theorem Inbound.now_of_exchangeAct {e : Exchange} {act : Act} {now : Instant} {io : Stream}
    (decided : w.exchangeAct codec e now = (act, io)) :
    (∀ moment ∈ act.now?, moment = now) ∧ act ≠ .dropConsumer ∧
      ∀ stream, act ≠ .recover stream := by
  rw [exchangeAct] at decided
  split at decided <;> split at decided <;> cases decided
  all_goals simp [Act.now?]

theorem pingOf_reaches
    (run : (Inbound.system box codec cfg start).Reaches (fun _ w a => w.orderly a = true) log w) :
    PingOf log w := by
  induction run with
  | start => exact ⟨rfl, fun _ => rfl, nofun, le_rfl, nofun⟩
  | next a run orderly stepped ping =>
      obtain ⟨taskLog, taskRun⟩ := Inbound.task_reachable run
      obtain ⟨placed, ledger⟩ := ledger_closed_reachable taskRun
      obtain ⟨later, clock, moves⟩ := Inbound.step_moves stepped
      cases moves with
      | arrive now socket item current =>
          refine ⟨ping.heard, ping.drained, ping.alone, ping.past.trans later, ?_⟩
          intro running waiting
          obtain ⟨socket, moment, there, pinged, early⟩ := ping.ping running waiting
          exact ⟨socket, moment, there, pinged.append _, early⟩
      | actor now act task effects offered taken =>
          obtain ⟨reading, fresh⟩ := Inbound.now_of_offers offered
          refine ping.step placed ledger taken later rfl reading ?_ fun stream asked =>
            absurd asked (fresh stream)
          rintro rfl
          cases orderly
      | recover now stream io task effects fresh taken =>
          exact ping.step placed ledger taken later rfl nofun nofun fun _ _ =>
            Option.isNone_iff_eq_none.1 orderly
      | exchange now e act io task effects under decided taken =>
          obtain ⟨reading, keeps, fresh⟩ := Inbound.now_of_exchangeAct decided
          exact ping.step placed ledger taken later rfl reading keeps fun stream asked =>
            absurd asked (fresh stream)

/-- In every run that takes frames before ticks, a tick that closes the live socket finds
a ping on that socket, a period old or older, and no echo in a queue. -/
theorem keepalive_closes_only_silent_sockets {now moment : Instant} {accepts : Bool}
    {socket : SocketId}
    (run : (Inbound.system box codec cfg start).Reaches (fun _ w a => w.orderly a = true) log w)
    (orderly : w.orderly (.actor now (.tick moment accepts)) = true)
    (stepped : w.step box codec (.actor now (.tick moment accepts)) = some (w', notes))
    (live : w.task.actor.live = some socket) (closed : w'.task.actor.live = none) :
    ∃ period ping, cfg.keepalive = some period ∧ PingedAt log socket ping ∧ ping + period ≤ now ∧
      ∀ bytes, some bytes ∈ w.ioRx socket ∨ bytes ∈ w.task.actor.inbox →
        isKeepAlive bytes = false := by
  have invariant := pingOf_reaches run
  obtain ⟨_, taskRun⟩ := Inbound.task_reachable run
  obtain ⟨later, -, moves⟩ := Inbound.step_moves stepped
  cases moves with
  | actor _ _ task effects offered taken =>
      cases (Inbound.now_of_offers offered).1 moment rfl
      cases Task.step_moves taken with
      | tick _ _ actor _ place idle ticks =>
          cases ticks with
          | idle => cases live.symm.trans closed
          | closed period enforced there up elapsed waiting =>
              have running : w.task.pc ≠ .ended := by simp [place]
              obtain ⟨held, ping, current, pinged, early⟩ := invariant.ping running waiting
              rw [w.task.socket_of_idle idle, live] at current
              cases current
              rw [(writerOf_reachable taskRun).config] at enforced
              refine ⟨period, ping, enforced, pinged, ?_, ?_⟩
              · have past : w.task.actor.lastActivity ≤ now := invariant.past.trans later
                exact (Nat.add_le_add_right early period).trans
                  ((Nat.le_sub_iff_add_le' past).1 elapsed)
              · have queue : w.ioRx socket = [] := by
                  rw [Inbound.orderly, if_pos waiting, live] at orderly
                  exact List.isEmpty_iff.1 orderly
                rw [queue, invariant.drained place]
                rintro bytes (waits | waits) <;> cases waits
          | pinged period _ _ enforced there up elapsed silent writes =>
              rw [Inbound.orderly, if_neg (by simp [silent])] at orderly
              cases writes with
              | killed _ _ _ _ _ _ _ refused => cases orderly.symm.trans refused
              | shutdown | skipped => cases live.symm.trans closed
              | buffered _ _ _ _ _ offline => cases live.symm.trans offline
              | queued crypto frame _ _ _ _ current _ =>
                  have kept := (w.task.actor.startPing now).pushBackup_live crypto frame
                  cases current.symm.trans (kept.symm.trans closed)

/-- A ping at 5, no echo, and the tick at 10. -/
theorem keepalive_closes_only_silent_sockets_unanswered :
    ∃ log w w', (Inbound.system .naming .records (.client testKey (some 5)) 0).Reaches
        (fun _ w a => w.orderly a = true) log w ∧
      w.step .naming .records (.actor 10 (.tick 10 true)) = some (w', []) ∧
      w.task.actor.live = some 0 ∧ w'.task.actor.live = none ∧
      ∃ ping, PingedAt log 0 ping ∧ ping + 5 ≤ 10 := by
  obtain ⟨log, w, w', run, orderly, stepped, live, closed⟩ : ∃ log w w',
      (Inbound.system .naming .records (.client testKey (some 5)) 0).Reaches
        (fun _ w a => w.orderly a = true) log w ∧
      w.orderly (.actor 10 (.tick 10 true)) = true ∧
      w.step .naming .records (.actor 10 (.tick 10 true)) = some (w', []) ∧
      w.task.actor.live = some 0 ∧ w'.task.actor.live = none :=
    ⟨_, _, _, .execute .start
      [.actor 5 (.tick 5 true), .actor 5 .settle, .actor 5 (.deliver 5)] rfl, rfl, rfl, rfl, rfl⟩
  obtain ⟨period, ping, enforced, sent, early, -⟩ :=
    keepalive_closes_only_silent_sockets run orderly stepped live closed
  cases enforced
  exact ⟨log, w, w', run, stepped, live, closed, ping, sent, early⟩

end Runs

/-- A ping at 5 and its echo, which is queued at 9. The tick at 10 is taken first. -/
theorem keepalive_closes_an_answered_socket :
    ∃ (early : List InboundEffect) (w w' : Inbound) (echo : Bytes),
      (Inbound.system .naming .records (.client testKey (some 5)) 0).Reachable
        (early ++ [.arrived 9 0 (some echo)]) w ∧
      PingedAt early 0 5 ∧ isKeepAlive echo = true ∧ some echo ∈ w.ioRx 0 ∧
      w.step .naming .records (.actor 10 (.tick 10 true)) = some (w', []) ∧
      w.task.actor.live = some 0 ∧ w'.task.actor.live = none := by
  let echo := Packet.boxed .naming testKey serverClientNonceMsb 0 keepAlive []
  obtain ⟨early, w₀, run, pinged, w, arrived, w', stepped, queued, live, closed⟩ :
      ∃ early w₀,
        (Inbound.system .naming .records (.client testKey (some 5)) 0).Reachable early w₀ ∧
        PingedAt early 0 5 ∧ ∃ w, w₀.step .naming .records (.arrive 9 0 (some echo)) =
          some (w, [.arrived 9 0 (some echo)]) ∧
        ∃ w', w.step .naming .records (.actor 10 (.tick 10 true)) = some (w', []) ∧
          some echo ∈ w.ioRx 0 ∧ w.task.actor.live = some 0 ∧ w'.task.actor.live = none :=
    ⟨_, _, .execute .start
      [.actor 5 (.tick 5 true), .actor 5 .settle, .actor 5 (.deliver 5)] rfl,
      ⟨_, _, List.mem_cons_self, List.mem_cons_of_mem _ List.mem_cons_self⟩, _, rfl, _, rfl,
      List.mem_cons_self, rfl, rfl⟩
  exact ⟨early, w, w', echo, run.next _ trivial arrived, pinged, by decide, queued, stepped, live,
    closed⟩

end Backed

end Et
