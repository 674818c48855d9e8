import EtClient.Backed.Steps

/-!
# The reading half of the task

Frames enter the inbox from the reader task and from catch-ups; they leave it one by
one in the delivery loop, which calls the cipher and counts. A packet that was opened
is in the task's hand until the event queue takes it. The task is flowing while its
consumer exists and it has not turned to its end.

`Task.step_reader` says once what a step can do to this half. Two invariants follow
from it: the cipher's counter, the sequence number and the accepted frames stay in
lockstep, and what was delivered is what was opened.
-/

namespace Et

namespace Backed

namespace Pc

/-- Behind a fatal frame or behind the loop of `run`: nothing is delivered any more. -/
def terminal : Pc → Bool
  | .dying | .closing | .ended => true
  | _ => false

/-- The places where commands are taken. -/
def serving : Pc → Bool
  | .select | .notify | .sending _ => true
  | _ => false

theorem terminal_of_serving {pc : Pc} (h : pc.serving = true) : pc.terminal = false := by
  cases pc <;> first | rfl | cases h

end Pc

namespace Task

/-- The opened packet that the event queue has not taken yet. -/
def inHand (t : Task) : List Packet :=
  match t.pc with
  | .sending p => [p]
  | _ => []

/-- Packets still reach the consumer. -/
def flowing (t : Task) : Bool := t.consumer && !t.pc.terminal

/-- An exchange runs only where commands are taken. -/
def Placed (t : Task) : Prop := t.exchange = none ∨ t.pc.serving = true

/-- Behind a command the task goes on where it stood, or is on its way out. -/
theorem served_pc (t : Task) (actor : Actor) :
    (t.pc = .select ∧ (t.served actor).pc = .armDone) ∨ (t.served actor).pc = .closing ∨
      (t.served actor).pc = t.pc := by
  rw [served]
  dsimp only
  split
  · exact .inl ⟨‹_›, rfl⟩
  · split
    · exact .inr (.inl rfl)
    · exact .inr (.inr rfl)

theorem serving_of_serves {t : Task} (h : t.serves = true) :
    t.exchange = none ∧ t.pc.serving = true := by
  simp only [serves, Bool.and_eq_true, Option.isNone_iff_eq_none] at h
  obtain ⟨idle, place⟩ := h
  refine ⟨idle, ?_⟩
  cases pc : t.pc <;> simp_all [Pc.serving]

theorem Placed.idle {t : Task} (placed : t.Placed) (away : t.pc.serving = false) :
    t.exchange = none :=
  placed.resolve_right (Bool.eq_false_iff.mp away)

theorem Placed.serving {t : Task} (placed : t.Placed) {e : Exchange}
    (under : t.exchange = some e) : t.pc.serving = true :=
  placed.resolve_left (by simp [under])

end Task

/-- A step as the reading half sees it. -/
inductive ReaderStep (box : SecretBox) (t t' : Task) : List Effect → Prop
  /-- Frames may have arrived; none was opened and none delivered. -/
  | received {effects : List Effect} (entries : List Bytes)
      (cfg : t'.actor.cfg = t.actor.cfg) (crypto : t'.actor.readerCrypto = t.actor.readerCrypto)
      (seq : t'.actor.readerSeq = t.actor.readerSeq)
      (inbox : t'.actor.inbox = t.actor.inbox ++ entries)
      (dead : t'.actor.deadSent = t.actor.deadSent) (consumer : t'.consumer = t.consumer)
      (running : t.pc.terminal = false) (ending : t'.pc.terminal = true → t'.pc = .closing)
      (hand : t'.flowing = true → t'.inHand = t.inHand) (quiet : ReaderQuiet effects) :
      ReaderStep box t t' effects
  | abandoned (eq : t' = { t with consumer := false }) : ReaderStep box t t' []
  | popped {effects : List Effect} (now : Instant) (place : t.pc = .deliver)
      (eq : t.delivered box now = (t', effects)) : ReaderStep box t t' effects
  | delivered (p : Packet) (place : t.pc = .sending p) (consumer : t.consumer = true)
      (eq : t' = { t with pc := .deliver }) : ReaderStep box t t' [.event (.packet p)]
  | died {effects : List Effect} (place : t.pc = .dying) (eq : t' = { t with pc := .closing })
      (event : effects = [] ∨ effects = [.event (.dead .cryptoMismatch)]) :
      ReaderStep box t t' effects
  | finished {effects : List Effect} (place : t.pc = .closing)
      (eq : t' = { t with actor := { t.actor with live := none }, pc := .ended })
      (event : effects = [] ∨
        t.actor.deadSent = false ∧ effects = [.event (.dead .shutdown)]) :
      ReaderStep box t t' effects

namespace ReaderStep

variable {box : SecretBox} {t t' : Task} {effects : List Effect}

/-- A step that leaves the reading half alone and goes on. -/
theorem of_same (same : SameReader t.actor t'.actor)
    (dead : t'.actor.deadSent = t.actor.deadSent) (consumer : t'.consumer = t.consumer)
    (before : t.pc.terminal = false) (after : t'.pc.terminal = false)
    (hand : t'.inHand = t.inHand) (quiet : ReaderQuiet effects) : ReaderStep box t t' effects := by
  refine .received [] same.cfg same.crypto same.seq ?_ dead consumer before ?_ (fun _ => hand) quiet
  · rw [same.inbox, List.append_nil]
  · intro ending
    rw [after] at ending
    cases ending

/-- A command or the end of an exchange, seen by the reading half. -/
theorem served {actor : Actor} (entries : List Bytes) (serving : t.pc.serving = true)
    (cfg : actor.cfg = t.actor.cfg) (crypto : actor.readerCrypto = t.actor.readerCrypto)
    (seq : actor.readerSeq = t.actor.readerSeq) (inbox : actor.inbox = t.actor.inbox ++ entries)
    (dead : actor.deadSent = t.actor.deadSent) (quiet : ReaderQuiet effects) :
    ReaderStep box t (t.served actor) effects := by
  have running := Pc.terminal_of_serving serving
  obtain ⟨place, pc⟩ | pc | pc := t.served_pc actor
  · refine .received entries cfg crypto seq inbox dead rfl running ?_ ?_ quiet
    · intro ending
      rw [pc] at ending
      cases ending
    · intro _
      rw [Task.inHand, Task.inHand, pc, place]
  · refine .received entries cfg crypto seq inbox dead rfl running (fun _ => pc) ?_ quiet
    intro flowing
    rw [Task.flowing, pc] at flowing
    simp [Pc.terminal] at flowing
  · refine .received entries cfg crypto seq inbox dead rfl running ?_ ?_ quiet
    · intro ending
      rw [pc, running] at ending
      cases ending
    · intro _
      rw [Task.inHand, Task.inHand, pc]

/-- The same for an operation that leaves the reading half alone. -/
theorem served_same {actor : Actor} (serving : t.pc.serving = true)
    (same : SameReader t.actor actor) (dead : actor.deadSent = t.actor.deadSent)
    (quiet : ReaderQuiet effects) : ReaderStep box t (t.served actor) effects :=
  served [] serving same.cfg same.crypto same.seq (by rw [same.inbox, List.append_nil]) dead quiet

end ReaderStep

namespace Task

variable {box : SecretBox} {t t' : Task} {effects : List Effect}

theorem readerQuiet_of_writes {now : Instant} {accepts : Bool} {s s' : Actor} {header : UInt8}
    {payload : Bytes} (writes : s.Writes box now accepts header payload s' effects) :
    ReaderQuiet effects := by
  cases writes <;> rfl

theorem readerQuiet_of_ticks {now : Instant} {accepts : Bool} {s s' : Actor}
    (ticks : s.Ticks box now accepts s' effects) : ReaderQuiet effects := by
  cases ticks with
  | idle | closed => rfl
  | pinged _ _ _ _ _ _ _ _ writes => exact readerQuiet_of_writes writes

/-- The exchange starts and ends where commands are taken, and nothing else moves the
task while it runs. -/
theorem step_placed {act : Act} (placed : t.Placed)
    (stepped : t.step box act = some (t', effects)) :
    t'.Placed := by
  cases step_moves stepped with
  | write | killSocket | shutdown | denied | revived | oversized | exchangeFails => exact .inl rfl
  | recover _ ready => exact .inr (serving_of_serves ready).2
  | frame _ _ idle | socketLost _ idle | tick _ _ _ _ _ idle | send _ idle | noticeFails idle
  | sendFails _ idle => exact .inl idle
  | close place | notice place | proceed place | drained _ place | rejected _ _ _ place
  | opened _ _ _ _ place | sendDead _ place | finish _ place =>
      exact .inl (placed.idle (by rw [place]; rfl))
  | dropConsumer => exact placed
  | sequenceSent e under | answered _ e _ under | catchupSent e _ under =>
      exact .inr (placed.serving under)

/-- What a step of the task can do to the reading half. -/
theorem step_reader {act : Act} (placed : t.Placed)
    (stepped : t.step box act = some (t', effects)) :
    ReaderStep box t t' effects := by
  cases step_moves stepped with
  | write _ _ _ _ _ _ ready writes =>
      obtain ⟨same, _, dead⟩ := writes.reader
      exact .served_same (serving_of_serves ready).2 same dead (readerQuiet_of_writes writes)
  | killSocket ready =>
      exact .served_same (serving_of_serves ready).2 t.actor.sameReader_close rfl rfl
  | shutdown ready => exact .served_same (serving_of_serves ready).2 {} rfl rfl
  | recover _ ready =>
      have running := Pc.terminal_of_serving (serving_of_serves ready).2
      exact .of_same {} rfl rfl running running rfl rfl
  | frame bytes place =>
      refine .received [bytes] rfl rfl rfl rfl rfl rfl (by rw [place]; rfl) (by rintro ⟨⟩) ?_ rfl
      intro _
      rw [inHand, inHand, place]
  | socketLost place =>
      refine .of_same t.actor.sameReader_close rfl rfl (by rw [place]; rfl) rfl ?_ rfl
      rw [inHand, inHand, place]
  | tick _ _ _ _ place _ ticks =>
      obtain ⟨same, dead⟩ := ticks.reader
      refine .of_same same dead rfl (by rw [place]; rfl) rfl ?_ (readerQuiet_of_ticks ticks)
      rw [inHand, inHand, place]
  | close place =>
      exact .received [] rfl rfl rfl (List.append_nil _).symm rfl rfl (by rw [place]; rfl)
        (fun _ => rfl) (by simp [flowing, Pc.terminal]) rfl
  | notice place | proceed place =>
      refine .of_same {} rfl rfl (by rw [place]; rfl) rfl ?_ rfl
      rw [inHand, inHand, place]
  | send event _ consumer out =>
      unfold outgoing at out
      split at out <;> cases out
      · rename_i place
        refine .of_same {} rfl rfl (by rw [place]; rfl) rfl ?_ rfl
        rw [inHand, inHand, place]
      · exact .delivered _ ‹_› consumer rfl
  | noticeFails _ _ place =>
      exact .received [] rfl rfl rfl (List.append_nil _).symm rfl rfl (by rw [place]; rfl)
        (fun _ => rfl) (by simp [flowing, Pc.terminal]) rfl
  | sendFails _ _ gone place =>
      exact .received [] rfl rfl rfl (List.append_nil _).symm rfl rfl (by rw [place]; rfl)
        (by rintro ⟨⟩) (by simp [flowing, gone]) rfl
  | drained now place empty =>
      exact .popped now place (by simp only [delivered, Actor.deliverOne, empty])
  | rejected now _ _ place popped | opened now _ _ _ place popped =>
      exact .popped now place (by rw [delivered, popped])
  | sendDead taken place =>
      refine .died place rfl ?_
      split
      · exact .inr rfl
      · exact .inl rfl
  | finish taken place =>
      refine .finished place rfl ?_
      split
      · exact .inr ⟨by simp_all, rfl⟩
      · exact .inl rfl
  | dropConsumer => exact .abandoned rfl
  | sequenceSent e under | answered _ e _ under | catchupSent e _ under =>
      have running := Pc.terminal_of_serving (placed.serving under)
      exact .of_same {} rfl rfl running running rfl rfl
  | revived _ _ e under => exact .served _ (placed.serving under) rfl rfl rfl rfl rfl rfl
  | denied _ e _ under | oversized _ _ e under | exchangeFails e under =>
      exact .served_same (placed.serving under) {} rfl rfl

/-- A task that has ended only loses its consumer. -/
theorem Moves.ended {act : Act} (moves : Moves box t act t' effects) (placed : t.Placed)
    (finished : t.pc = .ended) : t' = { t with consumer := false } := by
  have idle : t.exchange = none := placed.idle (by rw [finished]; rfl)
  have deaf : t.serves = false := by simp [serves, finished]
  cases moves with
  | dropConsumer => rfl
  | write _ _ _ _ _ _ ready _ | killSocket ready | recover _ ready | shutdown ready =>
      cases ready.symm.trans deaf
  | frame _ place _ _ | socketLost place _ _ | tick _ _ _ _ place _ _ | close place _
  | notice place _ _ | proceed place _ _ | noticeFails _ _ place | sendFails _ _ _ place
  | drained _ place _ | rejected _ _ _ place _ | opened _ _ _ _ place _ | sendDead _ place
  | finish _ place => cases place.symm.trans finished
  | send event _ _ out =>
      rw [outgoing, finished] at out
      cases out
  | sequenceSent e under _ | answered _ e _ under _ _ | denied _ e _ under _ _
  | catchupSent e _ under _ | revived _ _ e under _ _ | oversized _ _ e under _ _
  | exchangeFails e under => cases under.symm.trans idle

/-- A round of the delivery loop: it finds nothing, gives up on a frame, or takes a
packet in hand. -/
theorem delivered_cases {now : Instant} (eq : t.delivered box now = (t', effects)) :
    (t.actor.inbox = [] ∧ t'.actor = t.actor ∧ effects = [] ∧
        t'.pc = (if t.actor.shuttingDown then .closing else .select)) ∨
      (∃ bytes rest crypto call, t.actor.inbox = bytes :: rest ∧
        (crypto = t.actor.readerCrypto ∧ call = [] ∨
          ∃ ciphertext, crypto = t.actor.readerCrypto.incrementNonce ∧
            call = [.decrypted crypto.nonce ciphertext none]) ∧
        t'.actor = { t.actor with
          inbox := rest, readerCrypto := crypto, shuttingDown := true, deadSent := true } ∧
        t'.pc = .dying ∧ effects = call ++ [.rejected bytes]) ∨
      ∃ bytes rest header ciphertext plaintext, t.actor.inbox = bytes :: rest ∧
        Packet.parse bytes = some ⟨true, header, ciphertext⟩ ∧
        box.decrypt t.actor.readerCrypto.cipher t.actor.readerCrypto.incrementNonce.nonce
          ⟨ciphertext, []⟩ = some plaintext ∧
        t'.actor = { t.actor with
          inbox := rest
          readerCrypto := t.actor.readerCrypto.incrementNonce
          lastActivity := now
          waitingOnKeepalive := if header = keepAlive then false else t.actor.waitingOnKeepalive
          readerSeq := t.actor.readerSeq + 1 } ∧
        t'.pc = .sending (.new header plaintext) ∧
        effects = [.decrypted t.actor.readerCrypto.incrementNonce.nonce ciphertext (some plaintext),
          .opened bytes (.new header plaintext)] := by
  obtain ⟨inbox, done⟩ | ⟨bytes, rest, crypto, call, inbox, called, done⟩ |
    ⟨bytes, rest, header, ciphertext, plaintext, inbox, parsed, opened, done⟩ :=
    Actor.deliverOne_cases box now t.actor
  · rw [delivered, done] at eq
    cases eq
    exact .inl ⟨inbox, rfl, rfl, rfl⟩
  · rw [delivered, done] at eq
    cases eq
    exact .inr (.inl ⟨bytes, rest, crypto, call, inbox, called, rfl, rfl, rfl⟩)
  · rw [delivered, done] at eq
    cases eq
    exact .inr (.inr ⟨bytes, rest, header, ciphertext, plaintext, inbox, parsed, opened, rfl, rfl,
      rfl⟩)

end Task

/-- The cipher's counter, the sequence number and the accepted frames in lockstep. -/
structure ReaderOf (box : SecretBox) (cfg : BackedConfig) (log : List Effect) (t : Task) :
    Prop where
  placed : t.Placed
  config : t.actor.cfg = cfg
  crypto : t.actor.readerCrypto = .after cfg.key cfg.readerMsb (decryptNonces log).length
  nonces : decryptNonces log = CryptoHandler.nonces cfg.key cfg.readerMsb (decryptNonces log).length
  seq : t.actor.readerSeq = (openedOf log).length
  /-- Only the last call of the cipher can be one that opened nothing. -/
  level : t.pc.terminal = false → (decryptNonces log).length = (openedOf log).length
  /-- The frame accepted as number `k` was opened under the nonce of operation `k + 1`. -/
  opened : ∀ k bytes p, (openedOf log)[k]? = some (bytes, p) →
    ∃ header ciphertext plaintext, p = .new header plaintext ∧
      Packet.parse bytes = some ⟨true, header, ciphertext⟩ ∧
      box.decrypt cfg.key (CryptoHandler.after cfg.key cfg.readerMsb (k + 1)).nonce
        ⟨ciphertext, []⟩ = some plaintext ∧
      .decrypted (CryptoHandler.after cfg.key cfg.readerMsb (k + 1)).nonce ciphertext
        (some plaintext) ∈ log

namespace ReaderOf

variable {box : SecretBox} {cfg : BackedConfig} {log effects : List Effect} {t t' : Task}

/-- A step without a call of the cipher keeps the lockstep. -/
theorem of_quiet (h : ReaderOf box cfg log t) (placed : t'.Placed)
    (same : t'.actor.cfg = t.actor.cfg) (crypto : t'.actor.readerCrypto = t.actor.readerCrypto)
    (seq : t'.actor.readerSeq = t.actor.readerSeq)
    (running : t'.pc.terminal = false → t.pc.terminal = false)
    (decrypts : decryptNonces effects = []) (opened : openedOf effects = []) :
    ReaderOf box cfg (log ++ effects) t' := by
  have noncesEq : decryptNonces (log ++ effects) = decryptNonces log := by
    rw [decryptNonces_append, decrypts, List.append_nil]
  have openedEq : openedOf (log ++ effects) = openedOf log := by
    rw [openedOf_append, opened, List.append_nil]
  refine ⟨placed, same.trans h.config, ?_, ?_, ?_, ?_, ?_⟩
  · rw [noncesEq, crypto]
    exact h.crypto
  · rw [noncesEq]
    exact h.nonces
  · rw [openedEq, seq]
    exact h.seq
  · intro still
    rw [noncesEq, openedEq]
    exact h.level (running still)
  · intro k bytes p at'
    rw [openedEq] at at'
    obtain ⟨header, ciphertext, plaintext, shape, parsed, opens, called⟩ := h.opened k bytes p at'
    exact ⟨header, ciphertext, plaintext, shape, parsed, opens, List.mem_append_left _ called⟩

/-- Opening one more frame moves all three counters by one. -/
theorem of_opened (h : ReaderOf box cfg log t) (running : t.pc.terminal = false)
    {bytes ciphertext plaintext : Bytes} {header : UInt8}
    (parsed : Packet.parse bytes = some ⟨true, header, ciphertext⟩)
    (opens : box.decrypt t.actor.readerCrypto.cipher t.actor.readerCrypto.incrementNonce.nonce
      ⟨ciphertext, []⟩ = some plaintext) (placed : t'.Placed)
    (same : t'.actor.cfg = t.actor.cfg)
    (crypto : t'.actor.readerCrypto = t.actor.readerCrypto.incrementNonce)
    (seq : t'.actor.readerSeq = t.actor.readerSeq + 1)
    (eq : effects = [.decrypted t.actor.readerCrypto.incrementNonce.nonce ciphertext
      (some plaintext), .opened bytes (.new header plaintext)]) :
    ReaderOf box cfg (log ++ effects) t' := by
  have next : t.actor.readerCrypto.incrementNonce =
      .after cfg.key cfg.readerMsb ((decryptNonces log).length + 1) := by
    rw [h.crypto, CryptoHandler.incrementNonce_after]
  have cipher : t.actor.readerCrypto.cipher = cfg.key := by
    rw [h.crypto, CryptoHandler.cipher_after]
  have level := h.level running
  rw [next, cipher] at opens
  subst eq
  have noncesEq : ∀ nonce, decryptNonces [.decrypted nonce ciphertext (some plaintext),
      .opened bytes (.new header plaintext)] = [nonce] := fun _ => rfl
  have openedEq : ∀ nonce, openedOf [.decrypted nonce ciphertext (some plaintext),
      .opened bytes (.new header plaintext)] = [(bytes, .new header plaintext)] := fun _ => rfl
  refine ⟨placed, same.trans h.config, ?_, ?_, ?_, ?_, ?_⟩
  · rw [decryptNonces_append, noncesEq, List.length_append, crypto]
    exact next
  · rw [decryptNonces_append, noncesEq, List.length_append, List.length_singleton,
      CryptoHandler.nonces_succ, ← h.nonces, next]
  · rw [openedOf_append, openedEq, List.length_append, seq, h.seq]
    rfl
  · intro _
    rw [decryptNonces_append, noncesEq, openedOf_append, openedEq, List.length_append,
      List.length_append, level]
    rfl
  · intro k other p at'
    rw [openedOf_append, openedEq] at at'
    by_cases old : k < (openedOf log).length
    · rw [List.getElem?_append_left old] at at'
      obtain ⟨header, ciphertext, plaintext, shape, parsed, opens, called⟩ :=
        h.opened k other p at'
      exact ⟨header, ciphertext, plaintext, shape, parsed, opens, List.mem_append_left _ called⟩
    · obtain ⟨last, _⟩ := List.getElem?_eq_some_iff.mp at'
      rw [List.length_append, List.length_singleton] at last
      have top : k = (openedOf log).length := by omega
      subst top
      rw [List.getElem?_concat_length] at at'
      cases at'
      refine ⟨header, ciphertext, plaintext, rfl, parsed, ?_, ?_⟩
      · rw [← level]
        exact opens
      · rw [next, level]
        simp

/-- A rejected frame may have cost one call of the cipher; nothing follows it. -/
theorem of_rejected (h : ReaderOf box cfg log t) {bytes : Bytes} {crypto : CryptoHandler}
    {call : List Effect} (running : t.pc.terminal = false)
    (called : crypto = t.actor.readerCrypto ∧ call = [] ∨
      ∃ ciphertext, crypto = t.actor.readerCrypto.incrementNonce ∧
        call = [.decrypted crypto.nonce ciphertext none]) (placed : t'.Placed)
    (same : t'.actor.cfg = t.actor.cfg) (crypto' : t'.actor.readerCrypto = crypto)
    (seq : t'.actor.readerSeq = t.actor.readerSeq) (ending : t'.pc.terminal = true) :
    ReaderOf box cfg (log ++ (call ++ [.rejected bytes])) t' := by
  obtain ⟨rfl, rfl⟩ | ⟨ciphertext, rfl, rfl⟩ := called
  · exact h.of_quiet placed same crypto' seq (fun _ => running) rfl rfl
  · have next : t.actor.readerCrypto.incrementNonce =
        .after cfg.key cfg.readerMsb ((decryptNonces log).length + 1) := by
      rw [h.crypto, CryptoHandler.incrementNonce_after]
    have noncesEq : ∀ nonce, decryptNonces ([.decrypted nonce ciphertext none] ++
        [.rejected bytes]) = [nonce] := fun _ => rfl
    have openedEq : ∀ nonce, openedOf ([.decrypted nonce ciphertext none] ++
        [.rejected bytes]) = [] := fun _ => rfl
    refine ⟨placed, same.trans h.config, ?_, ?_, ?_, ?_, ?_⟩
    · rw [decryptNonces_append, noncesEq, List.length_append, crypto']
      exact next
    · rw [decryptNonces_append, noncesEq, List.length_append, List.length_singleton,
        CryptoHandler.nonces_succ, ← h.nonces, next]
    · rw [openedOf_append, openedEq, List.append_nil, seq]
      exact h.seq
    · intro still
      rw [ending] at still
      cases still
    · intro k other p at'
      rw [openedOf_append, openedEq, List.append_nil] at at'
      obtain ⟨header, ciphertext, plaintext, shape, parsed, opens, called⟩ := h.opened k other p at'
      exact ⟨header, ciphertext, plaintext, shape, parsed, opens, List.mem_append_left _ called⟩

theorem step {act : Act} (h : ReaderOf box cfg log t)
    (stepped : t.step box act = some (t', effects)) : ReaderOf box cfg (log ++ effects) t' := by
  have placed := Task.step_placed h.placed stepped
  cases Task.step_reader h.placed stepped with
  | received entries same crypto seq _ _ _ running _ _ quiet =>
      exact h.of_quiet placed same crypto seq (fun _ => running) quiet.decrypts quiet.opened
  | abandoned eq =>
      subst eq
      exact h.of_quiet placed rfl rfl rfl id rfl rfl
  | popped now place eq =>
      have running : t.pc.terminal = false := by rw [place]; rfl
      obtain ⟨_, actor, rfl, _⟩ | ⟨bytes, rest, crypto, call, _, called, actor, pc, rfl⟩ |
        ⟨bytes, rest, header, ciphertext, plaintext, _, parsed, opens, actor, _, shape⟩ :=
        Task.delivered_cases eq
      · exact h.of_quiet placed (by rw [actor]) (by rw [actor]) (by rw [actor])
          (fun _ => running) rfl rfl
      · exact h.of_rejected running called placed (by rw [actor]) (by rw [actor]) (by rw [actor])
          (by rw [pc]; rfl)
      · exact h.of_opened running parsed opens placed (by rw [actor]) (by rw [actor])
          (by rw [actor]) shape
  | delivered p place _ eq =>
      subst eq
      exact h.of_quiet placed rfl rfl rfl (fun _ => by rw [place]; rfl) rfl rfl
  | died place eq event =>
      subst eq
      obtain rfl | rfl := event <;> exact h.of_quiet placed rfl rfl rfl nofun rfl rfl
  | finished place eq event =>
      subst eq
      obtain rfl | ⟨_, rfl⟩ := event <;> exact h.of_quiet placed rfl rfl rfl nofun rfl rfl

end ReaderOf

/-- The reading half stays in lockstep through every run, whatever arrives. -/
theorem readerOf_reachable {box : SecretBox} {cfg : BackedConfig} {now : Instant}
    {log : List Effect} {t : Task} (run : (Task.system box cfg now).Reachable log t) :
    ReaderOf box cfg log t := by
  refine run.invariant (P := fun log t => ReaderOf box cfg log t) ?_ ?_
  · exact ⟨.inl rfl, rfl, rfl, rfl, rfl, fun _ => rfl, nofun⟩
  · intro log t act t' effects lockstep _ stepped
    exact lockstep.step stepped

end Backed

end Et
