import EtClient.Backed.History

/-!
# What the task's steps do

`Task.Moves` says once, with every guard, what each action of the task does. A write
and a tick have descriptions of their own. A write is refused and changes nothing, or it
boxes a frame; that frame is buffered without a socket, queued on the live one, or the
frame whose refusal by the queue closes it. A tick does nothing, sends a ping, or closes
the socket. A round of delivery finds nothing, opens the first frame, or gives up on it.

What other modules know of a step they have from here, so that a change of the task is
met by a change of its description.
-/

namespace Et

namespace Backed

/-- What a round of the delivery loop can have as an effect. -/
def Effect.ofDelivery : Effect → Bool
  | .decrypted .. | .opened .. | .rejected _ => true
  | _ => false

namespace Actor

/-- The handler and the frame of the next write. -/
def nextFrame (box : SecretBox) (s : Actor) (header : UInt8) (payload : Bytes) :
    CryptoHandler × Bytes :=
  let boxed := (Packet.new header payload).encrypt box s.writerCrypto
    (Packet.encrypted_new header payload)
  (boxed.1, boxed.2.serialize)

theorem length_nextFrame {box : SecretBox} (lawful : box.Lawful) {s : Actor}
    {header : UInt8} {payload frame : Bytes} {crypto : CryptoHandler}
    (boxed : s.nextFrame box header payload = (crypto, frame)) :
    frame.length = payload.length + macBytes + Packet.headerSize := by
  obtain ⟨-, rfl⟩ := Prod.mk.inj boxed
  simp [Packet.serialize, Packet.encrypt, Packet.new, CryptoHandler.encrypt,
    lawful.length_encrypt, Packet.headerSize]

/-- Everything a write can do: refuse and change nothing, or box one frame, back it
up and hand it over. -/
theorem write_cases (box : SecretBox) (now : Instant) (accepts : Bool) (s : Actor)
    (header : UInt8) (payload : Bytes) :
    (∃ failure, (s.shuttingDown = true ∨ s.disconnectBufferFull payload = true) ∧
        s.write box now accepts header payload = (s, some failure, [.wrote (some failure)])) ∨
      (s.shuttingDown = false ∧ s.disconnectBufferFull payload = false ∧
        ∃ crypto frame, s.nextFrame box header payload = (crypto, frame) ∧
          s.write box now accepts header payload =
            (((s.pushBackup crypto frame).handOver now accepts frame).1, none,
              .encrypted crypto.nonce header payload frame ::
                ((s.pushBackup crypto frame).handOver now accepts frame).2 ++ [.wrote none])) := by
  by_cases down : s.shuttingDown = true
  · exact .inl ⟨.shutdown, .inl down, by rw [write, if_pos down]⟩
  by_cases full : s.disconnectBufferFull payload = true
  · exact .inl ⟨.skipped, .inr full, by rw [write, if_neg down, if_pos full]⟩
  refine .inr ⟨by simpa using down, by simpa using full, _, _, rfl, ?_⟩
  rw [write, if_neg down, if_neg full]

/-- What `write` does. The last three have boxed a frame. -/
inductive Writes (box : SecretBox) (now : Instant) (accepts : Bool) (s : Actor) (header : UInt8)
    (payload : Bytes) : Actor → List Effect → Prop
  | shutdown : s.shuttingDown = true →
      Writes box now accepts s header payload s [.wrote (some .shutdown)]
  | skipped : s.shuttingDown = false → s.disconnectBufferFull payload = true →
      Writes box now accepts s header payload s [.wrote (some .skipped)]
  | buffered (crypto : CryptoHandler) (frame : Bytes) : s.shuttingDown = false →
      s.disconnectBufferFull payload = false → s.nextFrame box header payload = (crypto, frame) →
      s.live = none →
      Writes box now accepts s header payload ((s.pushBackup crypto frame).chargeLedger frame)
        [.encrypted crypto.nonce header payload frame, .wrote none]
  | queued (crypto : CryptoHandler) (frame : Bytes) (socket : SocketId) :
      s.shuttingDown = false → s.disconnectBufferFull payload = false →
      s.nextFrame box header payload = (crypto, frame) → s.live = some socket → accepts = true →
      Writes box now accepts s header payload { s.pushBackup crypto frame with lastActivity := now }
        [.encrypted crypto.nonce header payload frame, .queued socket (framePacket frame),
          .wrote none]
  | killed (crypto : CryptoHandler) (frame : Bytes) (socket : SocketId) :
      s.shuttingDown = false → s.disconnectBufferFull payload = false →
      s.nextFrame box header payload = (crypto, frame) → s.live = some socket →
      accepts = false →
      Writes box now accepts s header payload
        { ((s.pushBackup crypto frame).chargeLedger frame).closeCurrentSocket with
          lastActivity := now }
        [.encrypted crypto.nonce header payload frame, .wrote none]

@[simp] theorem pushBackup_live (s : Actor) (crypto : CryptoHandler) (serialized : Bytes) :
    (s.pushBackup crypto serialized).live = s.live := by
  rw [pushBackup]
  split <;> rfl

theorem handOver_of_offline {s : Actor} (offline : s.live = none) (now : Instant)
    (accepts : Bool) (frame : Bytes) :
    s.handOver now accepts frame = (s.chargeLedger frame, []) := by
  rw [handOver]
  split
  · rfl
  · rename_i live
    cases live.symm.trans offline

theorem handOver_of_live {s : Actor} {socket : SocketId} (live : s.live = some socket)
    (now : Instant) (accepts : Bool) (frame : Bytes) :
    s.handOver now accepts frame =
      if accepts then ({ s with lastActivity := now }, [.queued socket (framePacket frame)])
      else ({ (s.chargeLedger frame).closeCurrentSocket with lastActivity := now }, []) := by
  rw [handOver]
  split
  · rename_i offline
    cases offline.symm.trans live
  · rename_i found
    cases found.symm.trans live
    rfl

theorem write_writes (box : SecretBox) (now : Instant) (accepts : Bool) (s : Actor)
    (header : UInt8) (payload : Bytes) :
    Writes box now accepts s header payload (s.write box now accepts header payload).1
      (s.write box now accepts header payload).2.2 := by
  by_cases down : s.shuttingDown = true
  · rw [write, if_pos down]
    exact .shutdown down
  have up : s.shuttingDown = false := by simpa using down
  by_cases full : s.disconnectBufferFull payload = true
  · rw [write, if_neg down, if_pos full]
    exact .skipped up full
  have room : s.disconnectBufferFull payload = false := by simpa using full
  obtain ⟨_, refused, _⟩ | ⟨_, _, crypto, frame, boxed, done⟩ :=
    write_cases box now accepts s header payload
  · exact absurd refused (by simp [up, room])
  rw [done]
  have kept := s.pushBackup_live crypto frame
  cases live : s.live with
  | none =>
      rw [handOver_of_offline (kept.trans live)]
      exact .buffered crypto frame up room boxed live
  | some socket =>
      rw [handOver_of_live (kept.trans live)]
      cases accepts with
      | true => exact .queued crypto frame socket up room boxed live rfl
      | false => exact .killed crypto frame socket up room boxed live rfl

/-- What `keepalive_tick` does. -/
inductive Ticks (box : SecretBox) (now : Instant) (accepts : Bool) (s : Actor) :
    Actor → List Effect → Prop
  | idle : Ticks box now accepts s s []
  | closed (period : Nat) : s.cfg.keepalive = some period → s.live.isSome = true →
      s.shuttingDown = false → period ≤ now - s.lastActivity → s.waitingOnKeepalive = true →
      Ticks box now accepts s s.closeCurrentSocket []
  | pinged (period : Nat) (s' : Actor) (effects : List Effect) :
      s.cfg.keepalive = some period → s.live.isSome = true → s.shuttingDown = false →
      period ≤ now - s.lastActivity → s.waitingOnKeepalive = false →
      Writes box now accepts (s.startPing now) keepAlive [] s' effects →
      Ticks box now accepts s s' effects

theorem keepaliveTick_ticks (box : SecretBox) (now : Instant) (accepts : Bool) (s : Actor) :
    Ticks box now accepts s (s.keepaliveTick box now accepts).1
      (s.keepaliveTick box now accepts).2 := by
  rw [keepaliveTick]
  cases enforced : s.cfg.keepalive with
  | none => exact .idle
  | some period =>
      dsimp only
      by_cases off : (s.live.isNone || s.shuttingDown) = true
      · rw [if_pos off]
        exact .idle
      have on : s.live.isSome = true ∧ s.shuttingDown = false := by
        simpa [Option.isSome_iff_ne_none] using off
      rw [if_neg off]
      by_cases elapsed : period ≤ now - s.lastActivity
      · rw [if_pos elapsed]
        by_cases waiting : s.waitingOnKeepalive = true
        · rw [if_pos waiting]
          exact .closed period enforced on.1 on.2 elapsed waiting
        · rw [if_neg waiting]
          exact .pinged period _ _ enforced on.1 on.2 elapsed (by simpa using waiting)
            (write_writes box now accepts (s.startPing now) keepAlive [])
      · rw [if_neg elapsed]
        exact .idle

/-- Everything a round of delivery can do: find nothing; give up on the first frame,
with or without a call of the cipher; or open it. -/
theorem deliverOne_cases (box : SecretBox) (now : Instant) (s : Actor) :
    (s.inbox = [] ∧ s.deliverOne box now = (s, .drained, [])) ∨
      (∃ bytes rest crypto call, s.inbox = bytes :: rest ∧
        (crypto = s.readerCrypto ∧ call = [] ∨
          ∃ ciphertext, crypto = s.readerCrypto.incrementNonce ∧
            call = [.decrypted crypto.nonce ciphertext none]) ∧
        s.deliverOne box now =
          ({ s with inbox := rest, readerCrypto := crypto }.dieCryptoMismatch bytes |>.1,
            .mismatch, call ++ [.rejected bytes])) ∨
      ∃ bytes rest header ciphertext plaintext, s.inbox = bytes :: rest ∧
        Packet.parse bytes = some ⟨true, header, ciphertext⟩ ∧
        box.decrypt s.readerCrypto.cipher s.readerCrypto.incrementNonce.nonce ⟨ciphertext, []⟩ =
          some plaintext ∧
        s.deliverOne box now =
          ({ s with
              inbox := rest
              readerCrypto := s.readerCrypto.incrementNonce
              lastActivity := now
              waitingOnKeepalive := if header = keepAlive then false else s.waitingOnKeepalive
              readerSeq := s.readerSeq + 1 }, .packet (.new header plaintext),
            [.decrypted s.readerCrypto.incrementNonce.nonce ciphertext (some plaintext),
              .opened bytes (.new header plaintext)]) := by
  cases inbox : s.inbox with
  | nil => exact .inl ⟨rfl, by rw [deliverOne, inbox]⟩
  | cons bytes rest =>
      refine .inr ?_
      cases parsed : Packet.parse bytes with
      | none =>
          refine .inl ⟨bytes, rest, s.readerCrypto, [], rfl, .inl ⟨rfl, rfl⟩, ?_⟩
          simp only [deliverOne, inbox, parsed, dieCryptoMismatch, List.nil_append]
      | some packet =>
          obtain ⟨encrypted, header, ciphertext⟩ := packet
          cases encrypted with
          | false =>
              refine .inl ⟨bytes, rest, s.readerCrypto, [], rfl, .inl ⟨rfl, rfl⟩, ?_⟩
              simp [deliverOne, inbox, parsed, dieCryptoMismatch]
          | true =>
              by_cases short : ciphertext.length < macBytes
              · refine .inl ⟨bytes, rest, s.readerCrypto, [], rfl, .inl ⟨rfl, rfl⟩, ?_⟩
                simp [deliverOne, inbox, parsed, Packet.decrypt, CryptoHandler.decrypt, short,
                  cipherCall, dieCryptoMismatch]
              · cases opened : box.decrypt s.readerCrypto.cipher
                    s.readerCrypto.incrementNonce.nonce ⟨ciphertext, []⟩ with
                | none =>
                    refine .inl ⟨bytes, rest, s.readerCrypto.incrementNonce, _, rfl,
                      .inr ⟨ciphertext, rfl, rfl⟩, ?_⟩
                    simp only [CryptoHandler.incrementNonce] at opened ⊢
                    simp [deliverOne, inbox, parsed, Packet.decrypt, CryptoHandler.decrypt, short,
                      cipherCall, CryptoHandler.incrementNonce, opened, dieCryptoMismatch]
                | some plaintext =>
                    refine .inr
                      ⟨bytes, rest, header, ciphertext, plaintext, rfl, parsed, opened, ?_⟩
                    simp only [CryptoHandler.incrementNonce] at opened ⊢
                    simp [deliverOne, inbox, parsed, Packet.decrypt, CryptoHandler.decrypt, short,
                      cipherCall, CryptoHandler.incrementNonce, opened, Packet.new]

/-- A round of delivery sends nothing: it calls the cipher and accepts or rejects a frame. -/
theorem deliverOne_effects (box : SecretBox) (now : Instant) (s : Actor) :
    ∀ e ∈ (s.deliverOne box now).2.2, e.ofDelivery = true := by
  obtain ⟨_, done⟩ | ⟨_, _, _, _, _, ⟨_, rfl⟩ | ⟨_, _, rfl⟩, done⟩ |
    ⟨_, _, _, _, _, _, _, _, done⟩ := deliverOne_cases box now s
  · simp [done]
  · simp [done, Effect.ofDelivery]
  · simp [done, Effect.ofDelivery]
  · simp [done, Effect.ofDelivery]

/-- A round that yields a packet has opened the first frame. -/
theorem deliverOne_opened {box : SecretBox} {now : Instant} {s s' : Actor} {p : Packet}
    {effects : List Effect} (popped : s.deliverOne box now = (s', .packet p, effects)) :
    ∃ bytes rest header ciphertext plaintext, s.inbox = bytes :: rest ∧
      Packet.parse bytes = some ⟨true, header, ciphertext⟩ ∧
      box.decrypt s.readerCrypto.cipher s.readerCrypto.incrementNonce.nonce ⟨ciphertext, []⟩ =
        some plaintext ∧
      s' = { s with
        inbox := rest
        readerCrypto := s.readerCrypto.incrementNonce
        lastActivity := now
        waitingOnKeepalive := if header = keepAlive then false else s.waitingOnKeepalive
        readerSeq := s.readerSeq + 1 } ∧
      p = .new header plaintext ∧
      effects = [.decrypted s.readerCrypto.incrementNonce.nonce ciphertext (some plaintext),
        .opened bytes (.new header plaintext)] := by
  obtain ⟨_, done⟩ | ⟨_, _, _, _, _, _, done⟩ |
    ⟨bytes, rest, header, ciphertext, plaintext, inbox, parsed, opened, done⟩ :=
    deliverOne_cases box now s
  · cases done.symm.trans popped
  · cases done.symm.trans popped
  · cases done.symm.trans popped
    exact ⟨bytes, rest, header, ciphertext, plaintext, inbox, parsed, opened, rfl, rfl, rfl⟩

/-- A round that ends in a mismatch has given up on the first frame. -/
theorem deliverOne_rejected {box : SecretBox} {now : Instant} {s s' : Actor}
    {effects : List Effect} (popped : s.deliverOne box now = (s', .mismatch, effects)) :
    ∃ bytes rest crypto call, s.inbox = bytes :: rest ∧
      (crypto = s.readerCrypto ∧ call = [] ∨
        ∃ ciphertext, crypto = s.readerCrypto.incrementNonce ∧
          call = [.decrypted crypto.nonce ciphertext none]) ∧
      s' = { s with
        inbox := rest, readerCrypto := crypto, shuttingDown := true, deadSent := true } ∧
      effects = call ++ [.rejected bytes] := by
  obtain ⟨_, done⟩ | ⟨bytes, rest, crypto, call, inbox, called, done⟩ |
    ⟨_, _, _, _, _, _, _, _, done⟩ := deliverOne_cases box now s
  · cases done.symm.trans popped
  · cases done.symm.trans popped
    exact ⟨bytes, rest, crypto, call, inbox, called, rfl, rfl⟩
  · cases done.symm.trans popped

end Actor

namespace Task

@[simp] theorem served_actor (t : Task) (actor : Actor) : (t.served actor).actor = actor := rfl

theorem settled_cases (t : Task) :
    (t.actor.shuttingDown = true ∧ t.settled = { t with pc := .closing }) ∨
      (t.actor.shuttingDown = false ∧ t.actor.socketDownPending = true ∧
        t.settled =
          { t with actor := { t.actor with socketDownPending := false }, pc := .notify }) ∨
      (t.actor.shuttingDown = false ∧ t.actor.socketDownPending = false ∧
        t.settled = { t with pc := .deliver }) := by
  by_cases down : t.actor.shuttingDown = true
  · exact .inl ⟨down, by rw [settled, if_pos down]⟩
  have up : t.actor.shuttingDown = false := by simpa using down
  by_cases pending : t.actor.socketDownPending = true
  · exact .inr (.inl ⟨up, pending, by rw [settled, if_neg down, if_pos pending]⟩)
  · exact .inr (.inr ⟨up, by simpa using pending, by rw [settled, if_neg down, if_neg pending]⟩)

/-- What each action does. -/
inductive Moves (box : SecretBox) (t : Task) : Act → Task → List Effect → Prop
  | write (now : Instant) (accepts : Bool) (header : UInt8) (payload : Bytes) (actor : Actor)
      (effects : List Effect) : t.serves = true →
      t.actor.Writes box now accepts header payload actor effects →
      Moves box t (.write now accepts header payload) (t.served actor) effects
  | killSocket : t.serves = true →
      Moves box t .killSocket (t.served t.actor.closeCurrentSocket) []
  | recover (stream : SocketId) : t.serves = true →
      Moves box t (.recover stream)
        { t with
          actor := { t.actor with live := none }
          exchange := some ⟨stream, t.actor.live, .writeSequence⟩ } []
  | shutdown : t.serves = true →
      Moves box t .shutdown (t.served { t.actor with shuttingDown := true }) []
  | frame (bytes : Bytes) : t.pc = .select → t.exchange = none → t.actor.live.isSome = true →
      Moves box t (.frame bytes)
        { t with actor := { t.actor with inbox := t.actor.inbox ++ [bytes] }, pc := .armDone } []
  | socketLost : t.pc = .select → t.exchange = none → t.actor.live.isSome = true →
      Moves box t .socketLost { t with actor := t.actor.closeCurrentSocket, pc := .armDone } []
  | tick (now : Instant) (accepts : Bool) (actor : Actor) (effects : List Effect) :
      t.pc = .select → t.exchange = none → t.actor.Ticks box now accepts actor effects →
      Moves box t (.tick now accepts) { t with actor := actor, pc := .armDone } effects
  | close : t.pc = .armDone → t.actor.shuttingDown = true →
      Moves box t .settle { t with pc := .closing } []
  | notice : t.pc = .armDone → t.actor.shuttingDown = false → t.actor.socketDownPending = true →
      Moves box t .settle
        { t with actor := { t.actor with socketDownPending := false }, pc := .notify } []
  | proceed : t.pc = .armDone → t.actor.shuttingDown = false →
      t.actor.socketDownPending = false → Moves box t .settle { t with pc := .deliver } []
  | send (event : BackedEvent) : t.exchange = none → t.consumer = true →
      t.outgoing = some event → Moves box t .send { t with pc := .deliver } [.event event]
  | noticeFails : t.exchange = none → t.consumer = false → t.pc = .notify →
      Moves box t .sendFails { t with pc := .closing } []
  | sendFails (p : Packet) : t.exchange = none → t.consumer = false → t.pc = .sending p →
      Moves box t .sendFails { t with pc := .select } []
  | drained (now : Instant) : t.pc = .deliver → t.actor.inbox = [] →
      Moves box t (.deliver now)
        { t with pc := if t.actor.shuttingDown then .closing else .select } []
  | rejected (now : Instant) (actor : Actor) (effects : List Effect) : t.pc = .deliver →
      t.actor.deliverOne box now = (actor, .mismatch, effects) →
      Moves box t (.deliver now) { t with actor := actor, pc := .dying } effects
  | opened (now : Instant) (actor : Actor) (p : Packet) (effects : List Effect) :
      t.pc = .deliver → t.actor.deliverOne box now = (actor, .packet p, effects) →
      Moves box t (.deliver now) { t with actor := actor, pc := .sending p } effects
  | sendDead (taken : Bool) : t.pc = .dying →
      Moves box t (.sendDead taken) { t with pc := .closing }
        (if taken && t.consumer then [.event (.dead .cryptoMismatch)] else [])
  | finish (taken : Bool) : t.pc = .closing →
      Moves box t (.finish taken) { t with actor := { t.actor with live := none }, pc := .ended }
        (if !t.actor.deadSent && taken && t.consumer then [.event (.dead .shutdown)] else [])
  | dropConsumer : Moves box t .dropConsumer { t with consumer := false } []
  | sequenceSent (e : Exchange) : t.exchange = some e → e.phase = .writeSequence →
      Moves box t .sequenceSent { t with exchange := some { e with phase := .readSequence } }
        [.sentSequence e.stream t.actor.sequenceHeader]
  | answered (remote : SequenceHeader) (e : Exchange) (ours : CatchupBuffer) :
      t.exchange = some e → e.phase = .readSequence → t.actor.catchup remote = .ok ours →
      Moves box t (.sequenceRead remote)
        { t with exchange := some { e with phase := .writeCatchup ours } } []
  | denied (remote : SequenceHeader) (e : Exchange) (message : String) : t.exchange = some e →
      e.phase = .readSequence → t.actor.catchup remote = .error message →
      Moves box t (.sequenceRead remote) (t.restored e) [.recovered false]
  | catchupSent (e : Exchange) (ours : CatchupBuffer) : t.exchange = some e →
      e.phase = .writeCatchup ours →
      Moves box t .catchupSent { t with exchange := some { e with phase := .readCatchup } }
        [.sentCatchup e.stream ours]
  | revived (now : Instant) (theirs : CatchupBuffer) (e : Exchange) : t.exchange = some e →
      e.phase = .readCatchup → theirs.encodedLen ≤ defaultMaxProtoLength →
      Moves box t (.catchupRead now theirs)
        (t.served (t.actor.revive now e.stream theirs.buffer)) [.recovered true]
  | oversized (now : Instant) (theirs : CatchupBuffer) (e : Exchange) : t.exchange = some e →
      e.phase = .readCatchup → ¬ theirs.encodedLen ≤ defaultMaxProtoLength →
      Moves box t (.catchupRead now theirs) (t.restored e) [.recovered false]
  | exchangeFails (e : Exchange) : t.exchange = some e →
      Moves box t .exchangeFails (t.restored e) [.recovered false]

variable {box : SecretBox} {t t' : Task} {act : Act} {effects : List Effect}

private theorem deliver_moves (now : Instant) (place : t.pc = .deliver) :
    Moves box t (.deliver now) (t.delivered box now).1 (t.delivered box now).2 := by
  rw [delivered]
  split
  · rename_i found
    obtain ⟨empty, done⟩ | ⟨_, _, _, _, _, _, done⟩ | ⟨_, _, _, _, _, _, _, _, done⟩ :=
      Actor.deliverOne_cases box now t.actor
    · rw [done] at found
      cases found
      exact .drained now place empty
    · rw [done] at found
      cases found
    · rw [done] at found
      cases found
  · exact .rejected now _ _ place ‹_›
  · exact .opened now _ _ _ place ‹_›

private theorem exchange_moves {e : Exchange} (under : t.exchange = some e)
    (done : t.exchangeStep e act = some (t', effects)) : Moves box t act t' effects := by
  unfold exchangeStep at done
  split at done
  · split at done <;> cases done
    exact .sequenceSent e under ‹_›
  · split at done
    · split at done <;> cases done
      · exact .answered _ e _ under ‹_› ‹_›
      · exact .denied _ e _ under ‹_› ‹_›
    · cases done
  · split at done <;> cases done
    exact .catchupSent e _ under ‹_›
  · split at done
    · split at done <;> cases done
      · exact .revived _ _ e under ‹_› ‹_›
      · exact .oversized _ _ e under ‹_› ‹_›
    · cases done
  · cases done
    exact .exchangeFails e under
  · cases done

theorem step_moves (stepped : t.step box act = some (t', effects)) :
    Moves box t act t' effects := by
  cases act with
  | write now accepts header payload =>
      simp only [step] at stepped
      split at stepped <;> cases stepped
      exact .write now accepts header payload _ _ ‹_›
        (t.actor.write_writes box now accepts header payload)
  | killSocket =>
      simp only [step] at stepped
      split at stepped <;> cases stepped
      exact .killSocket ‹_›
  | recover stream =>
      simp only [step] at stepped
      split at stepped <;> cases stepped
      exact .recover stream ‹_›
  | shutdown =>
      simp only [step] at stepped
      split at stepped <;> cases stepped
      exact .shutdown ‹_›
  | frame bytes =>
      simp only [step] at stepped
      split at stepped <;> cases stepped
      obtain ⟨place, idle, live⟩ := ‹_ ∧ _›
      exact .frame bytes place idle live
  | socketLost =>
      simp only [step] at stepped
      split at stepped <;> cases stepped
      obtain ⟨place, idle, live⟩ := ‹_ ∧ _›
      exact .socketLost place idle live
  | tick now accepts =>
      simp only [step] at stepped
      split at stepped <;> cases stepped
      obtain ⟨place, idle⟩ := ‹_ ∧ _›
      exact .tick now accepts _ _ place idle (t.actor.keepaliveTick_ticks box now accepts)
  | settle =>
      simp only [step] at stepped
      split at stepped <;> cases stepped
      obtain ⟨down, eq⟩ | ⟨up, pending, eq⟩ | ⟨up, quiet, eq⟩ := t.settled_cases <;> rw [eq]
      · exact .close ‹_› down
      · exact .notice ‹_› up pending
      · exact .proceed ‹_› up quiet
  | send =>
      simp only [step] at stepped
      split at stepped
      · obtain ⟨event, out, done⟩ := Option.map_eq_some_iff.mp stepped
        obtain ⟨idle, consumer⟩ := ‹_ ∧ _›
        cases done
        exact .send event idle consumer out
      · cases stepped
  | sendFails =>
      simp only [step] at stepped
      split at stepped
      · obtain ⟨idle, gone⟩ := ‹_ ∧ _›
        split at stepped <;> cases stepped
        · exact .noticeFails idle gone ‹_›
        · exact .sendFails _ idle gone ‹_›
      · cases stepped
  | deliver now =>
      simp only [step] at stepped
      split at stepped
      · have moves := @deliver_moves box t now ‹_›
        rwa [Option.some.inj stepped] at moves
      · cases stepped
  | sendDead taken =>
      simp only [step] at stepped
      split at stepped <;> cases stepped
      exact .sendDead taken ‹_›
  | finish taken =>
      simp only [step] at stepped
      split at stepped <;> cases stepped
      exact .finish taken ‹_›
  | dropConsumer =>
      cases stepped
      exact .dropConsumer
  | sequenceSent | sequenceRead _ | catchupSent | catchupRead _ _ | exchangeFails =>
      obtain ⟨e, under, inner⟩ := Option.bind_eq_some_iff.mp stepped
      exact exchange_moves under inner

end Task

end Backed

end Et
