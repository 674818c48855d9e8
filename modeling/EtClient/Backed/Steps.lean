import EtClient.Backed.Moves

/-!
# What one step can do

The actor has a writing half and a reading half that share only the socket. Every
operation leaves one of them alone: the frame lemmas below say which, and
`Task.step_writer` says once what a step of the task can do to the writing half.
Invariants of the writing half are derived from that statement without looking at
the actions again.
-/

namespace Et

namespace Backed

/-- The writing half is the same. -/
structure SameWriter (s s' : Actor) : Prop where
  cfg : s'.cfg = s.cfg := by rfl
  crypto : s'.writerCrypto = s.writerCrypto := by rfl
  backup : s'.backup = s.backup := by rfl
  size : s'.backupSize = s.backupSize := by rfl
  seq : s'.writerSeq = s.writerSeq := by rfl

/-- The reading half is the same. -/
structure SameReader (s s' : Actor) : Prop where
  cfg : s'.cfg = s.cfg := by rfl
  crypto : s'.readerCrypto = s.readerCrypto := by rfl
  seq : s'.readerSeq = s.readerSeq := by rfl
  inbox : s'.inbox = s.inbox := by rfl

theorem SameWriter.refl (s : Actor) : SameWriter s s := {}

theorem SameReader.refl (s : Actor) : SameReader s s := {}

theorem SameWriter.trans {a b c : Actor} (first : SameWriter a b) (second : SameWriter b c) :
    SameWriter a c :=
  ⟨second.cfg.trans first.cfg, second.crypto.trans first.crypto,
    second.backup.trans first.backup, second.size.trans first.size, second.seq.trans first.seq⟩

namespace Actor

theorem sameWriter_close (s : Actor) : SameWriter s s.closeCurrentSocket :=
  {}

theorem sameReader_close (s : Actor) : SameReader s s.closeCurrentSocket := {}

/-- Handing a frame over touches neither half. -/
theorem handOver_same (now : Instant) (accepts : Bool) (s : Actor) (serialized : Bytes) :
    SameWriter s (s.handOver now accepts serialized).1 ∧
      SameReader s (s.handOver now accepts serialized).1 := by
  rw [handOver]
  split
  · exact ⟨{}, {}⟩
  · split <;> exact ⟨{}, {}⟩

/-- A frame reaches the queue of the live socket, or no queue at all. -/
theorem handOver_effects (now : Instant) (accepts : Bool) (s : Actor) (serialized : Bytes) :
    (∃ socket, s.live = some socket ∧ accepts = true ∧
        (s.handOver now accepts serialized).1.live = some socket ∧
        (s.handOver now accepts serialized).2 = [.queued socket (framePacket serialized)]) ∨
      ((s.live = none ∨ accepts = false) ∧ (s.handOver now accepts serialized).1.live = none ∧
        (s.handOver now accepts serialized).2 = []) := by
  rw [handOver]
  split
  · rename_i offline
    exact .inr ⟨.inl offline, offline, rfl⟩
  · rename_i socket live
    split
    · rename_i taken
      exact .inl ⟨socket, live, taken, live, rfl⟩
    · rename_i refused
      exact .inr ⟨.inr (by simpa using refused), rfl, rfl⟩

@[simp] theorem pushBackup_disconnectedBytes (s : Actor) (crypto : CryptoHandler)
    (serialized : Bytes) :
    (s.pushBackup crypto serialized).disconnectedBytes = s.disconnectedBytes := by
  rw [pushBackup]
  split <;> rfl

theorem pushBackup_flags (s : Actor) (crypto : CryptoHandler) (serialized : Bytes) :
    (s.pushBackup crypto serialized).shuttingDown = s.shuttingDown ∧
      (s.pushBackup crypto serialized).deadSent = s.deadSent := by
  rw [pushBackup]
  split <;> exact ⟨rfl, rfl⟩

theorem sameReader_pushBackup (s : Actor) (crypto : CryptoHandler) (serialized : Bytes) :
    SameReader s (s.pushBackup crypto serialized) := by
  rw [pushBackup]
  split <;> exact {}

@[simp] theorem pushBackup_seq (s : Actor) (crypto : CryptoHandler) (serialized : Bytes) :
    (s.pushBackup crypto serialized).writerSeq = s.writerSeq + 1 := by
  rw [pushBackup]
  split <;> rfl

@[simp] theorem pushBackup_crypto (s : Actor) (crypto : CryptoHandler) (serialized : Bytes) :
    (s.pushBackup crypto serialized).writerCrypto = crypto := by
  rw [pushBackup]
  split <;> rfl

@[simp] theorem pushBackup_cfg (s : Actor) (crypto : CryptoHandler) (serialized : Bytes) :
    (s.pushBackup crypto serialized).cfg = s.cfg :=
  (s.sameReader_pushBackup crypto serialized).cfg

/-- A write leaves the reading half and the end of the session alone. -/
theorem Writes.reader {box : SecretBox} {now : Instant} {accepts : Bool} {s s' : Actor}
    {header : UInt8} {payload : Bytes} {effects : List Effect}
    (writes : s.Writes box now accepts header payload s' effects) :
    SameReader s s' ∧ s'.shuttingDown = s.shuttingDown ∧ s'.deadSent = s.deadSent := by
  cases writes with
  | shutdown | skipped => exact ⟨.refl s, rfl, rfl⟩
  | buffered crypto frame | queued crypto frame | killed crypto frame =>
      obtain ⟨down, dead⟩ := s.pushBackup_flags crypto frame
      have same := s.sameReader_pushBackup crypto frame
      exact ⟨⟨same.cfg, same.crypto, same.seq, same.inbox⟩, down, dead⟩

/-- A tick may ping or close; it does not read. -/
theorem Ticks.reader {box : SecretBox} {now : Instant} {accepts : Bool} {s s' : Actor}
    {effects : List Effect} (ticks : s.Ticks box now accepts s' effects) :
    SameReader s s' ∧ s'.deadSent = s.deadSent := by
  cases ticks with
  | idle => exact ⟨.refl s, rfl⟩
  | closed => exact ⟨s.sameReader_close, rfl⟩
  | pinged _ _ _ _ _ _ _ _ writes =>
      obtain ⟨same, _, dead⟩ := writes.reader
      exact ⟨⟨same.cfg, same.crypto, same.seq, same.inbox⟩, dead⟩

/-- Delivery leaves the writing half and the socket alone. -/
theorem deliverOne_writer (box : SecretBox) (now : Instant) (s : Actor) :
    SameWriter s (s.deliverOne box now).1 ∧ (s.deliverOne box now).1.live = s.live ∧
      WriterQuiet (s.deliverOne box now).2.2 := by
  obtain ⟨_, done⟩ | ⟨bytes, rest, crypto, call, _, ⟨_, rfl⟩ | ⟨_, _, rfl⟩, done⟩ |
    ⟨_, _, _, _, _, _, _, _, done⟩ := deliverOne_cases box now s
  · rw [done]
    exact ⟨.refl s, rfl, {}⟩
  · rw [done]
    exact ⟨{}, rfl, {}⟩
  · rw [done]
    exact ⟨{}, rfl, {}⟩
  · rw [done]
    exact ⟨{}, rfl, {}⟩

end Actor

/-- The writing half decides the next frame, and with the socket what becomes of it. -/
theorem SameWriter.nextFrame {s s' : Actor} (same : SameWriter s s') (box : SecretBox)
    (header : UInt8) (payload : Bytes) :
    s'.nextFrame box header payload = s.nextFrame box header payload := by
  rw [Actor.nextFrame, Actor.nextFrame, same.crypto]

theorem SameWriter.pushBackup {s s' : Actor} (same : SameWriter s s') (live : s'.live = s.live)
    (crypto : CryptoHandler) (frame : Bytes) :
    SameWriter (s.pushBackup crypto frame) (s'.pushBackup crypto frame) := by
  simp only [Actor.pushBackup, live]
  split
  · simp only [Actor.trimBackup, same.backup, same.size, same.seq]
    exact ⟨same.cfg, rfl, rfl, rfl, rfl⟩
  · simp only [same.backup, same.size, same.seq]
    exact ⟨same.cfg, rfl, rfl, rfl, rfl⟩

/-- A frame goes to the queue of the live socket if that accepts it, or to no queue,
and then no socket is live afterwards. -/
def Handed (accepts : Bool) (s s' : Actor) (frame : Bytes) (handed : List Effect) : Prop :=
  (s'.live = none ∧ handed = []) ∨
    ∃ socket, accepts = true ∧ s.live = some socket ∧ s'.live = some socket ∧
      handed = [.queued socket (framePacket frame)]

/-- A step as the writing half sees it: nothing, or exactly one new frame, which is
backed up and at most handed to a queue. -/
def WriterStep (box : SecretBox) (accepts : Bool) (s s' : Actor) (effects : List Effect) : Prop :=
  (SameWriter s s' ∧ WriterQuiet effects) ∨
    ∃ header payload crypto frame handed,
      s.nextFrame box header payload = (crypto, frame) ∧
      SameWriter (s.pushBackup crypto frame) s' ∧
      effects = .encrypted crypto.nonce header payload frame :: handed ++ [.wrote none] ∧
      Handed accepts s s' frame handed

/-- The effects of a successful write hold one encryption and one success. -/
theorem Handed.boxed {accepts : Bool} {s s' : Actor} {frame : Bytes} {handed : List Effect}
    (h : Handed accepts s s' frame handed) (nonce : Nonce) (header : UInt8) (payload : Bytes) :
    encryptionsOf (.encrypted nonce header payload frame :: handed ++ [.wrote none]) =
        [⟨nonce, header, payload, frame⟩] ∧
      successfulWrites (.encrypted nonce header payload frame :: handed ++ [.wrote none]) = 1 := by
  obtain ⟨_, rfl⟩ | ⟨socket, _, _, _, rfl⟩ := h <;> exact ⟨rfl, rfl⟩

/-- The writing half and the socket decide what a step does to the writing half. -/
theorem WriterStep.of_same {box : SecretBox} {accepts : Bool} {s s' s'' : Actor}
    {effects : List Effect} (same : SameWriter s s') (live : s'.live = s.live)
    (step : WriterStep box accepts s' s'' effects) : WriterStep box accepts s s'' effects := by
  obtain ⟨quiet, silent⟩ | ⟨header, payload, crypto, frame, handed, boxed, rest, eq, given⟩ := step
  · exact .inl ⟨same.trans quiet, silent⟩
  · refine .inr ⟨header, payload, crypto, frame, handed, ?_, .trans ?_ rest, eq, ?_⟩
    · rw [← boxed, same.nextFrame]
    · exact same.pushBackup live crypto frame
    · rw [Handed, ← live]
      exact given

theorem Actor.Writes.writer {box : SecretBox} {now : Instant} {accepts : Bool} {s s' : Actor}
    {header : UInt8} {payload : Bytes} {effects : List Effect}
    (writes : s.Writes box now accepts header payload s' effects) :
    WriterStep box accepts s s' effects := by
  cases writes with
  | shutdown | skipped => exact .inl ⟨.refl s, {}⟩
  | buffered crypto frame _ _ boxed live =>
      have offline := (s.pushBackup_live crypto frame).trans live
      exact .inr ⟨header, payload, crypto, frame, [], boxed, {}, rfl, .inl ⟨offline, rfl⟩⟩
  | queued crypto frame socket _ _ boxed live taken =>
      have still := (s.pushBackup_live crypto frame).trans live
      exact .inr ⟨header, payload, crypto, frame, _, boxed, {}, rfl,
        .inr ⟨socket, taken, live, still, rfl⟩⟩
  | killed crypto frame socket _ _ boxed =>
      exact .inr ⟨header, payload, crypto, frame, [], boxed, {}, rfl, .inl ⟨rfl, rfl⟩⟩

theorem Actor.Ticks.writer {box : SecretBox} {now : Instant} {accepts : Bool} {s s' : Actor}
    {effects : List Effect} (ticks : s.Ticks box now accepts s' effects) :
    WriterStep box accepts s s' effects := by
  cases ticks with
  | idle => exact .inl ⟨.refl s, {}⟩
  | closed => exact .inl ⟨s.sameWriter_close, {}⟩
  | pinged _ _ _ _ _ _ _ _ writes =>
      have pinged : SameWriter s (s.startPing now) := {}
      exact .of_same pinged rfl writes.writer

namespace Task

variable {box : SecretBox} {t t' : Task} {effects : List Effect}

/-- A round of the delivery loop is `deliverOne`, whatever it comes to. -/
theorem delivered_eq (box : SecretBox) (now : Instant) (t : Task) :
    (t.delivered box now).1.actor = (t.actor.deliverOne box now).1 ∧
      (t.delivered box now).1.exchange = t.exchange ∧
      (t.delivered box now).1.consumer = t.consumer ∧
      (t.delivered box now).2 = (t.actor.deliverOne box now).2.2 := by
  rw [delivered]
  split <;> rename_i same <;> rw [same] <;> exact ⟨rfl, rfl, rfl, rfl⟩

/-- What a step of the task can do to the writing half. -/
theorem step_writer {act : Act} (stepped : t.step box act = some (t', effects)) :
    WriterStep box act.accepts t.actor t'.actor effects := by
  cases step_moves stepped with
  | write _ _ _ _ _ _ _ writes => exact writes.writer
  | tick _ _ _ _ _ _ ticks => exact ticks.writer
  | killSocket | socketLost => exact .inl ⟨t.actor.sameWriter_close, {}⟩
  | rejected now _ _ _ popped | opened now _ _ _ _ popped =>
      have delivery := Actor.deliverOne_writer box now t.actor
      rw [popped] at delivery
      exact .inl ⟨delivery.1, delivery.2.2⟩
  | sendDead | finish =>
      refine .inl ⟨{}, ?_⟩
      split
      · exact {}
      · exact {}
  | recover | shutdown | frame | close | notice | proceed | send | noticeFails | sendFails
  | drained | dropConsumer | sequenceSent | answered | denied | catchupSent | revived
  | oversized | exchangeFails => exact .inl ⟨{}, {}⟩

end Task

end Backed

end Et
