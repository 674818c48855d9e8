import EtClient.Backed.Reading

/-!
# Delivery and the end of a session

Packets are delivered in the order in which they were opened, and as long as the task
is flowing none is missing but the one in hand. A rejected frame is the last thing the
delivery loop ever does: the task turns to its end, which it reaches in two steps that
no environment can refuse, and over a whole run the consumer is sent at most one `Dead`
event.
-/

namespace Et

namespace Backed

/-- What was delivered is what was opened, and `Dead` is sent once. -/
structure DeliveryOf (log : List Effect) (t : Task) : Prop where
  delivered : packetsOf log <+: (openedOf log).map Prod.snd
  flowing : t.flowing = true → packetsOf log ++ t.inHand = (openedOf log).map Prod.snd
  closed : rejectedOf log ≠ [] → t.pc.terminal = true
  /-- Nothing is delivered behind a rejected frame. -/
  last : ∀ front bytes back, log = front ++ .rejected bytes :: back → packetsOf back = []
  marked : t.pc = .dying → t.actor.deadSent = true
  unsent : deadsOf log = [] ∨ (t.pc = .closing ∧ t.actor.deadSent = true) ∨ t.pc = .ended
  once : (deadsOf log).length ≤ 1

namespace DeliveryOf

variable {box : SecretBox} {log effects : List Effect} {t t' : Task}

theorem deads_of_running (h : DeliveryOf log t) (running : t.pc.terminal = false) :
    deadsOf log = [] := by
  obtain none | ⟨place, _⟩ | place := h.unsent
  · exact none
  · rw [place] at running
    cases running
  · rw [place] at running
    cases running

/-- Effects that deliver nothing extend a history whose rejections came last. -/
theorem last_append (h : DeliveryOf log t) (silent : packetsOf effects = [])
    (inner : ∀ front bytes back, effects = front ++ .rejected bytes :: back → packetsOf back = []) :
    ∀ front bytes back, log ++ effects = front ++ .rejected bytes :: back →
      packetsOf back = [] := by
  intro front bytes back split
  obtain ⟨rest, rfl, tail⟩ | ⟨rest, rfl, tail⟩ := List.append_eq_append_iff.mp split
  · exact inner rest bytes back tail
  · cases rest with
    | nil => exact inner [] bytes back tail.symm
    | cons effect rest =>
        rw [List.cons_append, List.cons.injEq] at tail
        obtain ⟨rfl, rfl⟩ := tail
        rw [packetsOf_append, h.last front bytes rest rfl, silent]
        rfl

/-- A step that opens nothing, rejects nothing and delivers nothing. -/
theorem of_quiet (h : DeliveryOf log t) (opened : openedOf effects = [])
    (rejected : rejectedOf effects = []) (packets : packetsOf effects = [])
    (flows : t'.flowing = true → t.flowing = true ∧ t'.inHand = t.inHand)
    (ends : t.pc.terminal = true → t'.pc.terminal = true)
    (marked : t'.pc = .dying → t'.actor.deadSent = true)
    (unsent : deadsOf (log ++ effects) = [] ∨ (t'.pc = .closing ∧ t'.actor.deadSent = true) ∨
      t'.pc = .ended)
    (once : (deadsOf (log ++ effects)).length ≤ 1) : DeliveryOf (log ++ effects) t' := by
  have openedEq : openedOf (log ++ effects) = openedOf log := by
    rw [openedOf_append, opened, List.append_nil]
  have packetsEq : packetsOf (log ++ effects) = packetsOf log := by
    rw [packetsOf_append, packets, List.append_nil]
  refine ⟨?_, ?_, ?_, ?_, marked, unsent, once⟩
  · rw [openedEq, packetsEq]
    exact h.delivered
  · intro flowing
    obtain ⟨before, hand⟩ := flows flowing
    rw [openedEq, packetsEq, hand]
    exact h.flowing before
  · intro some
    rw [rejectedOf_append, rejected, List.append_nil] at some
    exact ends (h.closed some)
  · apply h.last_append packets
    intro front bytes back split
    rw [split, rejectedOf_append] at rejected
    simp [rejectedOf, Effect.rejected?] at rejected

/-- A rejected frame turns the task to its end. -/
theorem of_rejected (h : DeliveryOf log t) {call : List Effect} {bytes : Bytes}
    (running : t.pc.terminal = false)
    (quiet : call = [] ∨ ∃ nonce ciphertext, call = [.decrypted nonce ciphertext none])
    (place : t'.pc = .dying) (dead : t'.actor.deadSent = true) :
    DeliveryOf (log ++ (call ++ [.rejected bytes])) t' := by
  have deads := h.deads_of_running running
  have effects : openedOf (call ++ [.rejected bytes]) = [] ∧
      packetsOf (call ++ [.rejected bytes]) = [] ∧ deadsOf (call ++ [.rejected bytes]) = [] := by
    obtain rfl | ⟨nonce, ciphertext, rfl⟩ := quiet <;> exact ⟨rfl, rfl, rfl⟩
  obtain ⟨opened, packets, silent⟩ := effects
  refine ⟨?_, ?_, ?_, ?_, fun _ => dead, .inl ?_, ?_⟩
  · rw [openedOf_append, packetsOf_append, opened, packets, List.append_nil, List.append_nil]
    exact h.delivered
  · intro flowing
    rw [Task.flowing, place] at flowing
    simp [Pc.terminal] at flowing
  · intro _
    rw [place]
    rfl
  · apply h.last_append packets
    intro front other back split
    -- The rejection is the last effect of its step, so nothing stands behind it.
    obtain rfl | ⟨nonce, ciphertext, rfl⟩ := quiet
    · cases front with
      | nil => cases split; rfl
      | cons effect front => simp at split
    · cases front with
      | nil => cases split
      | cons effect front =>
          cases front with
          | nil => cases split; rfl
          | cons effect front => simp at split
  · rw [deadsOf_append, deads, silent]
    rfl
  · rw [deadsOf_append, deads, silent]
    exact Nat.zero_le _

/-- An opened packet is taken in hand. -/
theorem of_opened (h : DeliveryOf log t) {nonce : Nonce} {ciphertext plaintext bytes : Bytes}
    {p : Packet} (place : t.pc = .deliver) (consumer : t'.consumer = t.consumer)
    (place' : t'.pc = .sending p) :
    DeliveryOf (log ++ [.decrypted nonce ciphertext (some plaintext), .opened bytes p]) t' := by
  have running : t.pc.terminal = false := by rw [place]; rfl
  have deads := h.deads_of_running running
  have openedEq : openedOf (log ++ [.decrypted nonce ciphertext (some plaintext),
      .opened bytes p]) = openedOf log ++ [(bytes, p)] := openedOf_append _ _
  have packetsEq : packetsOf (log ++ [.decrypted nonce ciphertext (some plaintext),
      .opened bytes p]) = packetsOf log := by
    rw [packetsOf_append]
    exact List.append_nil _
  have deadsEq : deadsOf (log ++ [.decrypted nonce ciphertext (some plaintext),
      .opened bytes p]) = [] := by
    rw [deadsOf_append, deads]
    rfl
  refine ⟨?_, ?_, ?_, ?_, ?_, .inl deadsEq, ?_⟩
  · rw [openedEq, packetsEq, List.map_append]
    exact h.delivered.trans (List.prefix_append _ _)
  · intro flowing
    have before : t.flowing = true := by
      rw [Task.flowing, consumer, Bool.and_eq_true] at flowing
      rw [Task.flowing, flowing.1, running]
      rfl
    have all := h.flowing before
    rw [Task.inHand, place] at all
    rw [openedEq, packetsEq, Task.inHand, place', List.map_append, ← all, List.append_nil]
    rfl
  · intro some
    rw [rejectedOf_append] at some
    have ended := h.closed (by simpa [rejectedOf, Effect.rejected?] using some)
    rw [running] at ended
    cases ended
  · apply h.last_append rfl
    intro front other back split
    cases front with
    | nil => cases split
    | cons effect front =>
        cases front with
        | nil => cases split
        | cons effect front => simp at split
  · intro dying
    rw [place'] at dying
    cases dying
  · rw [deadsEq]
    exact Nat.zero_le _

/-- The event queue takes the packet in hand. -/
theorem of_delivered (h : DeliveryOf log t) {p : Packet} (place : t.pc = .sending p)
    (consumer : t.consumer = true) :
    DeliveryOf (log ++ [.event (.packet p)]) { t with pc := .deliver } := by
  have running : t.pc.terminal = false := by rw [place]; rfl
  have all := h.flowing (by rw [Task.flowing, consumer, running]; rfl)
  rw [Task.inHand, place] at all
  have openedEq : openedOf (log ++ [.event (.packet p)]) = openedOf log := by
    rw [openedOf_append]
    exact List.append_nil _
  have packetsEq : packetsOf (log ++ [.event (.packet p)]) = (openedOf log).map Prod.snd := by
    rw [packetsOf_append]
    exact all
  have deadsEq : deadsOf (log ++ [.event (.packet p)]) = [] := by
    rw [deadsOf_append, h.deads_of_running running]
    rfl
  refine ⟨?_, ?_, ?_, ?_, (by rintro ⟨⟩), .inl deadsEq, ?_⟩
  · rw [openedEq, packetsEq]
  · intro _
    rw [openedEq, packetsEq]
    exact List.append_nil _
  · intro some
    rw [rejectedOf_append] at some
    have ended := h.closed (by simpa [rejectedOf, Effect.rejected?] using some)
    rw [running] at ended
    cases ended
  · intro front bytes back split
    -- No frame has been rejected: the task would have turned to its end.
    have some : rejectedOf log ≠ [] := by
      have both := congrArg rejectedOf split
      rw [rejectedOf_append, rejectedOf_append] at both
      change rejectedOf log ++ [] = _ ++ bytes :: rejectedOf back at both
      rw [List.append_nil] at both
      rw [both]
      simp
    have ended := h.closed some
    rw [running] at ended
    cases ended
  · rw [deadsEq]
    exact Nat.zero_le _

/-- The last two steps of a task, each of which may send a `Dead` event. -/
theorem of_ending (h : DeliveryOf log t) (event : effects = [] ∨ ∃ reason,
      effects = [.event (.dead reason)] ∧ deadsOf log = [])
    (ended : t'.pc.terminal = true) (place : t'.pc ≠ .dying)
    (unsent : (t'.pc = .closing ∧ t'.actor.deadSent = true) ∨ t'.pc = .ended) :
    DeliveryOf (log ++ effects) t' := by
  have shape : openedOf effects = [] ∧ rejectedOf effects = [] ∧ packetsOf effects = [] ∧
      (deadsOf (log ++ effects)).length ≤ 1 := by
    obtain rfl | ⟨reason, rfl, none⟩ := event
    · rw [List.append_nil]
      exact ⟨rfl, rfl, rfl, h.once⟩
    · rw [deadsOf_append, none]
      exact ⟨rfl, rfl, rfl, Nat.le_refl 1⟩
  obtain ⟨opened, rejected, packets, once⟩ := shape
  refine h.of_quiet opened rejected packets ?_ (fun _ => ended) (fun dying => absurd dying place)
    (.inr unsent) once
  intro flowing
  rw [Task.flowing, ended] at flowing
  simp at flowing

theorem step {act : Act} (h : DeliveryOf log t) (placed : t.Placed)
    (stepped : t.step box act = some (t', effects)) : DeliveryOf (log ++ effects) t' := by
  cases Task.step_reader placed stepped with
  | received entries _ _ _ _ dead consumer running ending hand quiet =>
      have deads : deadsOf (log ++ effects) = [] := by
        rw [deadsOf_append, h.deads_of_running running, quiet.deads]
        rfl
      refine h.of_quiet quiet.opened quiet.rejected quiet.packets ?_ ?_ ?_ (.inl deads) ?_
      · intro flowing
        refine ⟨?_, hand flowing⟩
        rw [Task.flowing, consumer, Bool.and_eq_true] at flowing
        rw [Task.flowing, flowing.1, running]
        rfl
      · intro ended
        rw [running] at ended
        cases ended
      · intro dying
        rw [ending (by rw [dying]; rfl)] at dying
        cases dying
      · rw [deads]
        exact Nat.zero_le _
  | abandoned eq =>
      subst eq
      rw [List.append_nil]
      refine ⟨h.delivered, ?_, h.closed, h.last, h.marked, h.unsent, h.once⟩
      intro flowing
      simp [Task.flowing] at flowing
  | popped now place eq =>
      have running : t.pc.terminal = false := by rw [place]; rfl
      obtain ⟨_, _, consumer, _⟩ := t.delivered_eq box now
      rw [eq] at consumer
      obtain ⟨_, actor, rfl, place'⟩ | ⟨bytes, rest, crypto, call, _, called, actor, place', rfl⟩ |
        ⟨bytes, rest, header, ciphertext, plaintext, _, _, _, _, place', rfl⟩ :=
        Task.delivered_cases eq
      · have still : t'.pc = .closing ∨ t'.pc = .select := by
          rw [place']
          split
          · exact .inl rfl
          · exact .inr rfl
        have deads := h.deads_of_running running
        refine h.of_quiet rfl rfl rfl ?_ ?_ ?_ (.inl (by rw [List.append_nil, deads]))
          (by simp [deads])
        · intro flowing
          obtain closing | select := still
          · rw [Task.flowing, closing] at flowing
            simp [Pc.terminal] at flowing
          · rw [Task.flowing, select, Bool.and_eq_true, consumer] at flowing
            refine ⟨by rw [Task.flowing, flowing.1, running]; rfl, ?_⟩
            rw [Task.inHand, Task.inHand, select, place]
        · intro ended
          rw [running] at ended
          cases ended
        · intro dying
          obtain closing | select := still
          · rw [closing] at dying
            cases dying
          · rw [select] at dying
            cases dying
      · refine h.of_rejected running ?_ place' (by rw [actor])
        obtain ⟨_, none⟩ | ⟨ciphertext, _, one⟩ := called
        · exact .inl none
        · exact .inr ⟨_, ciphertext, one⟩
      · exact h.of_opened place consumer place'
  | delivered p place consumer eq =>
      subst eq
      exact h.of_delivered place consumer
  | died place eq event =>
      subst eq
      have none : deadsOf log = [] := by
        obtain none | ⟨closing, _⟩ | ended := h.unsent
        · exact none
        · rw [place] at closing
          cases closing
        · rw [place] at ended
          cases ended
      refine h.of_ending ?_ rfl (by rintro ⟨⟩) (.inl ⟨rfl, h.marked place⟩)
      obtain rfl | rfl := event
      · exact .inl rfl
      · exact .inr ⟨_, rfl, none⟩
  | finished place eq event =>
      subst eq
      refine h.of_ending ?_ rfl (by rintro ⟨⟩) (.inr rfl)
      obtain rfl | ⟨unmarked, rfl⟩ := event
      · exact .inl rfl
      · refine .inr ⟨_, rfl, ?_⟩
        obtain none | ⟨_, marked⟩ | ended := h.unsent
        · exact none
        · rw [unmarked] at marked
          cases marked
        · rw [place] at ended
          cases ended

end DeliveryOf

/-- Delivery keeps its order through every run, whatever arrives. -/
theorem deliveryOf_reachable {box : SecretBox} {cfg : BackedConfig} {now : Instant}
    {log : List Effect} {t : Task} (run : (Task.system box cfg now).Reachable log t) :
    DeliveryOf log t := by
  have both : t.Placed ∧ DeliveryOf log t := by
    refine run.invariant (P := fun log t => t.Placed ∧ DeliveryOf log t) ?_ ?_
    · refine ⟨.inl rfl, List.prefix_refl _, fun _ => rfl, fun some => absurd rfl some, ?_, nofun,
        .inl rfl, Nat.zero_le _⟩
      intro front bytes back split
      simp at split
    · intro log t act t' effects before _ stepped
      exact ⟨Task.step_placed before.1 stepped, before.2.step before.1 stepped⟩
  exact both.2

/-- Steps left to the end. -/
def Pc.rank : Pc → Nat
  | .dying => 2
  | .closing => 1
  | _ => 0

theorem Pc.rank_closing_lt : Pc.closing.rank < Pc.dying.rank := by decide

theorem Pc.rank_ended_lt : Pc.ended.rank < Pc.closing.rank := by decide

/-- The loop of `run` is over: every step but the loss of the consumer brings the task
closer to its end, and until then there is such a step. -/
def Task.WindsDown (box : SecretBox) (t : Task) : Prop :=
  t.pc.terminal = true ∧
    (t.pc ≠ .ended → ∃ act t' effects, t.step box act = some (t', effects) ∧
      t'.pc.rank < t.pc.rank) ∧
    ∀ act t' effects, t.step box act = some (t', effects) →
      t'.pc.terminal = true ∧ (t' = { t with consumer := false } ∨ t'.pc.rank < t.pc.rank)

theorem Task.windsDown {box : SecretBox} {t : Task} (placed : t.Placed)
    (ended : t.pc.terminal = true) : t.WindsDown box := by
  refine ⟨ended, ?_, ?_⟩
  · intro unfinished
    cases place : t.pc with
    | dying =>
        exact ⟨.sendDead true, _, _, if_pos place, Pc.rank_closing_lt⟩
    | closing =>
        exact ⟨.finish true, _, _, if_pos place, Pc.rank_ended_lt⟩
    | ended => exact absurd place unfinished
    | select | armDone | notify | deliver | sending =>
        rw [place] at ended
        cases ended
  · intro act t' effects stepped
    cases Task.step_reader placed stepped with
    | received _ _ _ _ _ _ _ running _ _ _ =>
        rw [running] at ended
        cases ended
    | abandoned eq =>
        subst eq
        exact ⟨ended, .inl rfl⟩
    | popped _ place _ =>
        rw [place] at ended
        cases ended
    | delivered _ place _ _ =>
        rw [place] at ended
        cases ended
    | died place eq _ =>
        subst eq
        rw [place]
        exact ⟨rfl, .inr Pc.rank_closing_lt⟩
    | finished place eq _ =>
        subst eq
        rw [place]
        exact ⟨rfl, .inr Pc.rank_ended_lt⟩

end Backed

end Et
