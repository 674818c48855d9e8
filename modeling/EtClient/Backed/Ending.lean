import EtClient.Backed.Notice

/-!
# How the task ends

A task is over from the command or the frame that ends it. From there on it serves no
command and delivers no packet: it has to send its last event and to return. Before that
it never stays away from its command queue: an exchange comes to its end, and at most two
steps of the loop lead back to a place where commands are served.
-/

namespace Et

namespace Backed

namespace Task

/-- The command or the frame that ends the session was taken. -/
def finished (t : Task) : Bool := t.actor.shuttingDown || t.pc.terminal

variable {box : SecretBox} {t t' : Task} {act : Act} {effects : List Effect}

theorem finished_eq_false :
    t.finished = false ↔ t.actor.shuttingDown = false ∧ t.pc.terminal = false :=
  Bool.or_eq_false_iff

theorem eventsOf_writes {s s' : Actor} {now : Instant} {accepts : Bool} {header : UInt8}
    {payload : Bytes} (writes : s.Writes box now accepts header payload s' effects) :
    eventsOf effects = [] := by
  cases writes <;> rfl

theorem eventsOf_deliverOne (box : SecretBox) (now : Instant) (s : Actor) :
    eventsOf (s.deliverOne box now).2.2 = [] := by
  apply List.filterMap_eq_nil_iff.mpr
  intro e mem
  have delivery := Actor.deliverOne_effects box now s e mem
  cases e <;> first | rfl | cases delivery

/-- A step sends the event that it holds, or the last one. -/
theorem Moves.events (moves : Moves box t act t' effects) :
    eventsOf effects = [] ∨
      (∃ event, act = .send ∧ t.outgoing = some event ∧ eventsOf effects = [event]) ∨
      (∃ reason, t'.pc.terminal = true ∧ eventsOf effects = [.dead reason]) := by
  cases moves with
  | write _ _ _ _ _ _ _ writes => exact .inl (eventsOf_writes writes)
  | tick _ _ _ _ _ _ ticks =>
      cases ticks with
      | pinged _ _ _ _ _ _ _ _ writes => exact .inl (eventsOf_writes writes)
      | idle | closed => exact .inl rfl
  | rejected now actor _ _ found | opened now actor _ _ _ found =>
      have silent := eventsOf_deliverOne box now t.actor
      rw [found] at silent
      exact .inl silent
  | send event _ _ out => exact .inr (.inl ⟨event, rfl, out, rfl⟩)
  | sendDead taken =>
      split
      · exact .inr (.inr ⟨.cryptoMismatch, rfl, rfl⟩)
      · exact .inl rfl
  | finish taken =>
      split
      · exact .inr (.inr ⟨.shutdown, rfl, rfl⟩)
      · exact .inl rfl
  | killSocket | recover | shutdown | frame | socketLost | close | notice | proceed
  | noticeFails | sendFails | drained | dropConsumer | sequenceSent | answered | denied
  | catchupSent | revived | oversized | exchangeFails => exact .inl rfl

/-- The event queue is used by three steps. -/
theorem Moves.sends (moves : Moves box t act t' effects) (sent : eventsOf effects ≠ []) :
    (eventsOf effects).length = 1 ∧ (act = .send ∨ act = .sendDead true ∨ act = .finish true) := by
  cases moves with
  | write _ _ _ _ _ _ _ writes => exact absurd (eventsOf_writes writes) sent
  | tick _ _ _ _ _ _ ticks =>
      cases ticks with
      | pinged _ _ _ _ _ _ _ _ writes => exact absurd (eventsOf_writes writes) sent
      | idle | closed => exact absurd rfl sent
  | rejected now actor _ _ found | opened now actor _ _ _ found =>
      have silent := eventsOf_deliverOne box now t.actor
      rw [found] at silent
      exact absurd silent sent
  | send => exact ⟨rfl, .inl rfl⟩
  | sendDead taken =>
      cases taken with
      | true =>
          split at sent
          · exact ⟨by rw [if_pos ‹_›]; rfl, .inr (.inl rfl)⟩
          · exact absurd rfl sent
      | false => exact absurd rfl sent
  | finish taken =>
      split at sent
      · rw [if_pos ‹_›]
        simp only [Bool.and_eq_true] at *
        exact ⟨rfl, .inr (.inr (by rw [‹(_ ∧ taken = true) ∧ _›.1.2]))⟩
      · exact absurd rfl sent
  | killSocket | recover | shutdown | frame | socketLost | close | notice | proceed
  | noticeFails | sendFails | drained | dropConsumer | sequenceSent | answered | denied
  | catchupSent | revived | oversized | exchangeFails => exact absurd rfl sent

theorem shuttingDown_ticks {s s' : Actor} {now : Instant} {accepts : Bool}
    (ticks : s.Ticks box now accepts s' effects) : s'.shuttingDown = s.shuttingDown := by
  cases ticks with
  | idle | closed => rfl
  | pinged _ _ _ _ _ _ _ _ writes => exact writes.reader.2.1

theorem shuttingDown_of_packet {s s' : Actor} {now : Instant} {p : Packet}
    (found : s.deliverOne box now = (s', .packet p, effects)) :
    s'.shuttingDown = s.shuttingDown := by
  obtain ⟨_, _, _, _, _, _, _, _, rfl, _⟩ := Actor.deliverOne_opened found
  rfl

theorem serving_of_outgoing {event : BackedEvent} (out : t.outgoing = some event) :
    t.pc.serving = true := by
  cases place : t.pc <;> simp [outgoing, place] at out <;> rfl

/-- Behind the command that ends the session the loop is left at its next test. -/
def Winding (t : Task) : Prop :=
  t.actor.shuttingDown = true → t.pc = .armDone ∨ t.pc.terminal = true

theorem Winding.up (winding : t.Winding) (place : t.pc ≠ .armDone)
    (running : t.pc.terminal = false) : t.actor.shuttingDown = false := by
  cases down : t.actor.shuttingDown with
  | false => rfl
  | true =>
      rcases winding down with here | finished
      · exact absurd here place
      · cases finished.symm.trans running

theorem Winding.up_of_serving (winding : t.Winding) (serving : t.pc.serving = true) :
    t.actor.shuttingDown = false := by
  apply winding.up
  · rintro place
    rw [place] at serving
    cases serving
  · exact Pc.terminal_of_serving serving

theorem winding_served (t : Task) (actor : Actor) : (t.served actor).Winding := by
  intro down
  rw [served_actor] at down
  cases place : t.pc with
  | select =>
      left
      simp only [served, place]
  | armDone | notify | deliver | sending | dying | closing | ended =>
      right
      simp only [served, place, if_pos down]
      rfl

/-- The task never goes on behind the command or the frame that ends the session. -/
theorem Moves.winding (moves : Moves box t act t' effects) (placed : t.Placed)
    (winding : t.Winding) : t'.Winding := by
  have exchanging {e : Exchange} (under : t.exchange = some e) :
      t.actor.shuttingDown = false :=
    winding.up_of_serving (placed.serving under)
  cases moves with
  | write | killSocket | shutdown | denied | revived | oversized | exchangeFails =>
      exact winding_served _ _
  | frame | socketLost | tick => exact fun _ => .inl rfl
  | close | noticeFails | rejected | sendDead | finish => exact fun _ => .inr rfl
  | notice _ up | proceed _ up =>
      intro down
      cases up.symm.trans down
  | recover stream ready =>
      intro down
      cases (winding.up_of_serving (serving_of_serves ready).2).symm.trans down
  | send event _ _ out =>
      intro down
      cases (winding.up_of_serving (serving_of_outgoing out)).symm.trans down
  | sendFails p _ _ place =>
      intro down
      cases (winding.up_of_serving (by rw [place]; rfl)).symm.trans down
  | drained _ place _ =>
      intro down
      have down : t.actor.shuttingDown = true := down
      right
      rw [if_pos down]
      rfl
  | opened now actor p _ place found =>
      have up := winding.up (by rw [place]; exact nofun) (by rw [place]; rfl)
      have same := shuttingDown_of_packet found
      intro down
      cases (same.trans up).symm.trans down
  | sequenceSent e under | answered _ e _ under | catchupSent e _ under =>
      intro down
      cases (exchanging under).symm.trans down
  | dropConsumer => exact winding

theorem Moves.shuttingDown (moves : Moves box t act t' effects)
    (down : t.actor.shuttingDown = true) : t'.actor.shuttingDown = true := by
  cases moves with
  | write _ _ _ _ actor _ _ writes => exact writes.reader.2.1.trans down
  | tick _ _ actor _ _ _ ticks => exact (shuttingDown_ticks ticks).trans down
  | opened _ _ _ _ _ found => exact (shuttingDown_of_packet found).trans down
  | rejected now actor _ _ found =>
      obtain ⟨_, _, _, _, _, _, rfl, _⟩ := Actor.deliverOne_rejected found
      rfl
  | shutdown => rfl
  | killSocket | recover | frame | socketLost | close | notice | proceed | send | noticeFails
  | sendFails | drained | sendDead | finish | dropConsumer | sequenceSent | answered | denied
  | catchupSent | revived | oversized | exchangeFails => exact down

/-- What is over stays over. -/
theorem step_finished (placed : t.Placed) (stepped : t.step box act = some (t', effects))
    (finished : t.finished = true) : t'.finished = true := by
  rw [Task.finished, Bool.or_eq_true] at finished ⊢
  rcases finished with down | terminal
  · exact .inl ((step_moves stepped).shuttingDown down)
  · right
    by_contra running
    cases terminal.symm.trans (step_running placed stepped (Bool.eq_false_of_not_eq_true running))

/-- A task that is over sends nothing but its last event. -/
theorem Moves.events_finished (moves : Moves box t act t' effects) (winding : t.Winding)
    (finished : t.finished = true) :
    ∀ event ∈ eventsOf effects, ∃ reason, event = .dead reason := by
  intro event sent
  obtain none | ⟨event', _, out, _⟩ | ⟨reason, _, last⟩ := moves.events
  · rw [none] at sent
    cases sent
  · have serving := serving_of_outgoing out
    rw [Task.finished, winding.up_of_serving serving, Pc.terminal_of_serving serving] at finished
    cases finished
  · rw [last, List.mem_singleton] at sent
    exact ⟨reason, sent⟩

/-- How far the task is from a place where it takes commands, or from its end. -/
def away (t : Task) : Nat :=
  match t.exchange, t.pc with
  | some _, _ => 5
  | none, .armDone => 4
  | none, .deliver => 3
  | none, .dying => 2
  | none, .closing => 1
  | none, _ => 0

/-- The step there that needs nothing from another task. -/
def homeward (t : Task) : Act :=
  match t.exchange, t.pc with
  | some _, _ => .exchangeFails
  | none, .armDone => .settle
  | none, .deliver => .deliver 0
  | none, .dying => .sendDead false
  | none, _ => .finish false

theorem away_le (t : Task) : t.away ≤ 5 := by
  unfold away
  split <;> decide

theorem away_lt_of_idle (idle : t.exchange = none) : t.away < 5 := by
  rw [away, idle]
  cases t.pc <;> simp

theorem serves_of_serving (idle : t.exchange = none) (serving : t.pc.serving = true) :
    t.serves = true := by
  rw [serves, idle]
  cases place : t.pc <;> first | rfl | (rw [place] at serving; cases serving)

theorem away_delivered (box : SecretBox) (now : Instant) (idle : t.exchange = none) :
    (t.delivered box now).1.away < 3 := by
  rw [delivered]
  split
  · rename_i actor _ _
    cases actor.shuttingDown <;> simp [away, idle]
  · simp [away, idle]
  · simp [away, idle]

theorem away_settled (idle : t.exchange = none) : t.settled.away < 4 := by
  obtain ⟨_, eq⟩ | ⟨_, _, eq⟩ | ⟨_, _, eq⟩ := t.settled_cases <;> rw [eq] <;> simp [away, idle]

/-- What a step home does and does not do. -/
structure Home (t t' : Task) (effects : List Effect) : Prop where
  closer : t'.away < t.away
  silent : eventsOf effects = []
  failed : effects = [.recovered false] ∧ t.exchange.isSome = true ∨
    t.exchange = none ∧ ∀ live, .recovered live ∉ effects
  idle : t'.exchange = none

theorem recovered_not_mem_deliverOne (box : SecretBox) (now : Instant) (s : Actor) (live : Bool) :
    .recovered live ∉ (s.deliverOne box now).2.2 := by
  intro mem
  cases Actor.deliverOne_effects box now s _ mem

theorem homeward_step (deaf : t.serves = false) (unfinished : t.pc ≠ .ended) :
    ∃ t' effects, t.step box t.homeward = some (t', effects) ∧ t.Home t' effects := by
  cases under : t.exchange with
  | some e =>
      have act : t.homeward = .exchangeFails := by simp only [homeward, under]
      refine ⟨t.restored e, [.recovered false], ?_, ?_, rfl, .inl ⟨rfl, by rw [under]; rfl⟩, rfl⟩
      · rw [act]
        simp only [step, under, Option.bind_some, exchangeStep]
      · have far : t.away = 5 := by simp only [away, under]
        rw [far]
        exact away_lt_of_idle rfl
  | none =>
      have quiet : ∀ live, Effect.recovered live ∉ [] := fun _ => List.not_mem_nil
      cases place : t.pc with
      | select | notify | sending =>
          rw [serves_of_serving under (by rw [place]; rfl)] at deaf
          cases deaf
      | ended => exact absurd place unfinished
      | armDone =>
          have act : t.homeward = .settle := by simp only [homeward, under, place]
          have far : t.away = 4 := by simp only [away, under, place]
          refine ⟨t.settled, [], by rw [act]; exact if_pos place, ?_, rfl,
            .inr ⟨under, quiet⟩, ?_⟩
          · rw [far]
            exact away_settled under
          · obtain ⟨_, eq⟩ | ⟨_, _, eq⟩ | ⟨_, _, eq⟩ := t.settled_cases <;> rw [eq] <;> exact under
      | deliver =>
          have act : t.homeward = .deliver 0 := by simp only [homeward, under, place]
          have far : t.away = 3 := by simp only [away, under, place]
          obtain ⟨_, kept, _, same⟩ := t.delivered_eq box 0
          refine ⟨(t.delivered box 0).1, (t.delivered box 0).2, by rw [act]; exact if_pos place,
            ?_, ?_, .inr ⟨under, ?_⟩, kept.trans under⟩
          · rw [far]
            exact away_delivered box 0 under
          · rw [same]
            exact eventsOf_deliverOne box 0 t.actor
          · rw [same]
            exact recovered_not_mem_deliverOne box 0 t.actor
      | dying =>
          have act : t.homeward = .sendDead false := by simp only [homeward, under, place]
          have far : t.away = 2 := by simp only [away, under, place]
          refine ⟨{ t with pc := .closing }, [], by rw [act]; exact if_pos place, ?_, rfl,
            .inr ⟨under, quiet⟩, under⟩
          rw [far]
          simp [away, under]
      | closing =>
          have act : t.homeward = .finish false := by simp only [homeward, under, place]
          have far : t.away = 1 := by simp only [away, under, place]
          have last : (!t.actor.deadSent && false && t.consumer) = false := by simp
          refine ⟨{ t with actor := { t.actor with live := none }, pc := .ended }, [], ?_, ?_, rfl,
            .inr ⟨under, quiet⟩, under⟩
          · rw [act, step, if_pos place, last]
            rfl
          · rw [far]
            simp [away, under]

end Task

end Backed

end Et
