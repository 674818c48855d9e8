import EtClient.Backed.Uplink

/-!
# From the peer to the actor

Every wire to the actor carries the peer's frames, from the number that the actor
reported on that socket. The actor stands on the wire of the socket it holds, behind
what it has opened and what still waits in its inbox, so the inbox is always the span of
the peer's frames behind the opened ones.

That rests on one condition: an exchange may succeed only while the inbox is empty. The
number the actor reports counts opened frames, so a frame that still waits would be
sent again and stand in the inbox twice.

The number crosses the wire as 32 bits. A counter that does not fit arrives as a
negative number, which the peer refuses, or as one that is too small by `2^32` at least.
The answer to such a number has more than `2^32` entries, and the actor refuses it for
its size.
-/

namespace Et

namespace Backed

/-- What the wire to the actor holds while an exchange runs. -/
def Phase.DownReady (opened : Nat) (wire : Wire) : Phase → Prop
  | .writeSequence => wire.sequence = none
  | _ =>
      wire.sequence = some (.of opened) ∧ ∀ theirs, wire.catchup = some theirs →
        (opened : Int) ≤ (SequenceHeader.of opened).value + theirs.buffer.length

/-- The phases behind the first message ask the same of the wire. -/
theorem Phase.downReady_of_reported {opened : Nat} {wire : Wire} {phase phase' : Phase}
    (ready : phase.DownReady opened wire) (before : phase ≠ .writeSequence)
    (after : phase' ≠ .writeSequence) : phase'.DownReady opened wire := by
  have asked : wire.sequence = some (.of opened) ∧ ∀ theirs, wire.catchup = some theirs →
      (opened : Int) ≤ (SequenceHeader.of opened).value + theirs.buffer.length := by
    cases phase with
    | writeSequence => exact absurd rfl before
    | readSequence | writeCatchup | readCatchup => exact ready
  cases phase' with
  | writeSequence => exact absurd rfl after
  | readSequence | writeCatchup | readCatchup => exact asked

structure DownLink (frames : List Bytes) (w : World) : Prop where
  carries : ∀ socket, (w.down socket).lane.Carries frames
  stands : ∀ socket, w.task.socket = some socket →
    (w.down socket).lane.StandsAt (w.task.actor.readerSeq + w.task.actor.inbox.length)
  exchange : ∀ e, w.task.exchange = some e →
    e.phase.DownReady w.task.actor.readerSeq (w.down e.stream) ∧ (w.down e.stream).read = 0
  undialed : ∀ socket, w.dialed socket = false → (w.down socket).sequence = none
  inbox : w.task.actor.inbox <+: frames.drop w.task.actor.readerSeq
  bound : w.task.actor.readerSeq ≤ frames.length

namespace DownLink

variable {box : SecretBox} {frames : List Bytes} {w : World} {t' : Task} {effects : List Effect}

/-- A wire on which the actor has reported nothing is empty. -/
theorem unused (h : DownLink frames w) {socket : SocketId}
    (unasked : (w.down socket).sequence = none) :
    (w.down socket).catchup = none ∧ (w.down socket).read = 0 := by
  have unanswered : (w.down socket).catchup = none := by
    by_contra some
    obtain ⟨theirs, answered⟩ := Option.ne_none_iff_exists'.mp some
    obtain ⟨k, asked, _⟩ := (h.carries socket).span theirs.buffer (by simp [Wire.lane, answered])
    simp [Wire.lane, unasked] at asked
  exact ⟨unanswered, ((h.carries socket).silent (by simp [Wire.lane, unanswered])).2⟩

/-- A step that keeps the reading half, the exchange and these wires, and at most drops
the socket. -/
theorem of_calm {up : SocketId → Wire} (h : DownLink frames w)
    (same : SameReader w.task.actor t'.actor) (exchange : t'.exchange = w.task.exchange)
    (socket : t'.socket = w.task.socket ∨ t'.socket = none) :
    DownLink frames { w with task := t', up := up } := by
  refine ⟨h.carries, ?_, ?_, h.undialed, ?_, ?_⟩
  · intro σ held
    change t'.socket = _ at held
    rw [same.seq, same.inbox]
    obtain kept | dropped := socket
    · exact h.stands σ (kept.symm.trans held)
    · rw [dropped] at held
      cases held
  · intro e under
    rw [same.seq]
    exact h.exchange e (exchange.symm.trans under)
  · rw [same.seq, same.inbox]
    exact h.inbox
  · rw [same.seq]
    exact h.bound

/-- A frame from the held socket is the peer's frame behind the inbox. -/
theorem of_frame {socket : SocketId} {bytes : Bytes} (h : DownLink frames w)
    (idle : w.task.exchange = none) (live : w.task.actor.live = some socket)
    (next : (w.down socket).next? = some bytes) {pc : Pc} :
    DownLink frames { w with
      task := { w.task with
        actor := { w.task.actor with inbox := w.task.actor.inbox ++ [bytes] }, pc := pc }
      down := Function.update w.down socket (w.down socket).advance } := by
  have held := (w.task.socket_of_idle idle).trans live
  have stands := h.stands socket held
  have found := (h.carries socket).next stands (Wire.lane_next next)
  let down := Function.update w.down socket (w.down socket).advance
  have this : down socket = (w.down socket).advance := Function.update_self _ _ _
  have others : ∀ σ, σ ≠ socket → down σ = w.down σ :=
    fun σ other => Function.update_of_ne other _ _
  refine ⟨?_, ?_, ?_, ?_, ?_, h.bound⟩
  · intro σ
    show (down σ).lane.Carries _
    by_cases same : σ = socket
    · rw [same, this]
      exact (h.carries socket).take stands
    · rw [others σ same]
      exact h.carries σ
  · intro σ holds
    have here : socket = σ := Option.some.inj (held.symm.trans holds)
    subst here
    show (down socket).lane.StandsAt
      (w.task.actor.readerSeq + (w.task.actor.inbox ++ [bytes]).length)
    rw [this, List.length_append, ← Nat.add_assoc]
    exact stands.take
  · intro e under
    exact absurd (idle.symm.trans under) nofun
  · intro σ undialed
    have before := h.undialed σ undialed
    show (down σ).sequence = none
    by_cases same : σ = socket
    · rw [same, this]
      rw [same] at before
      exact before
    · rw [others σ same]
      exact before
  · exact Lane.append_prefix_drop h.inbox found

/-- An opened frame moves from the inbox to the opened ones. -/
theorem of_opened {bytes : Bytes} {rest : List Bytes} (h : DownLink frames w)
    (next : w.task.actor.inbox = bytes :: rest)
    (idle' : t'.exchange = none) (socket : t'.socket = w.task.socket)
    (inbox : t'.actor.inbox = rest) (seq : t'.actor.readerSeq = w.task.actor.readerSeq + 1) :
    DownLink frames { w with task := t' } := by
  have span := h.inbox
  rw [next] at span
  refine ⟨h.carries, ?_, ?_, h.undialed, ?_, ?_⟩
  · intro σ held
    have stands := h.stands σ (socket.symm.trans held)
    rw [next, List.length_cons] at stands
    rw [seq, inbox, Nat.add_assoc, Nat.add_comm 1]
    exact stands
  · intro e under
    exact absurd (idle'.symm.trans under) nofun
  · rw [seq, inbox, ← List.drop_drop]
    exact List.IsPrefix.drop span 1
  · have longer := span.length_le
    rw [List.length_cons, List.length_drop] at longer
    rw [seq]
    omega

/-- A recover starts on a socket where nothing has been reported. -/
theorem of_recover {stream : SocketId} (h : DownLink frames w) (new : w.dialed stream = false)
    (stepped : w.task.step box (.recover stream) = some (t', effects)) :
    DownLink frames
      { effects.foldl World.noting (w.taking (.recover stream)) with task := t' } := by
  cases Task.step_moves stepped with
  | recover _ ready =>
      have idle := (Task.serving_of_serves ready).1
      have unasked := h.undialed stream new
      refine ⟨h.carries, ?_, ?_, ?_, h.inbox, h.bound⟩
      · intro σ held
        exact h.stands σ ((w.task.socket_of_idle idle).trans held)
      · intro e under
        cases under
        exact ⟨unasked, (h.unused unasked).2⟩
      · intro σ undialed
        change Function.update w.dialed stream true σ = false at undialed
        by_cases same : σ = stream
        · rw [same, Function.update_self] at undialed
          cases undialed
        · rw [Function.update_of_ne same] at undialed
          exact h.undialed σ undialed

/-- An exchange that fails puts the socket back; nothing was read meanwhile. -/
theorem of_failed {e : Exchange} (h : DownLink frames w) (under : w.task.exchange = some e) :
    DownLink frames { w with task := w.task.restored e } where
  carries := h.carries
  stands σ held := h.stands σ (by rw [Task.socket, under]; exact held)
  exchange e' under' := by cases under'
  undialed := h.undialed
  inbox := h.inbox
  bound := h.bound

/-- The actor reports how many frames it has opened. -/
theorem of_sequenceSent {e : Exchange} (h : DownLink frames w) (under : w.task.exchange = some e)
    (phase : e.phase = .writeSequence) (dialed : w.dialed e.stream = true) :
    DownLink frames { w.noting (.sentSequence e.stream w.task.actor.sequenceHeader) with
      task := { w.task with exchange := some { e with phase := .readSequence } } } := by
  obtain ⟨unasked, unread⟩ := h.exchange e under
  rw [phase] at unasked
  have unanswered := (h.unused unasked).1
  let down := (w.noting (.sentSequence e.stream w.task.actor.sequenceHeader)).down
  have this : down e.stream =
      { w.down e.stream with sequence := some w.task.actor.sequenceHeader } :=
    Function.update_self _ _ _
  have others : ∀ σ, σ ≠ e.stream → down σ = w.down σ :=
    fun σ other => Function.update_of_ne other _ _
  have silent := (h.carries e.stream).silent (by simp [Wire.lane, unanswered])
  refine ⟨?_, ?_, ?_, ?_, h.inbox, h.bound⟩
  · intro σ
    show (down σ).lane.Carries _
    by_cases same : σ = e.stream
    · rw [same, this]
      refine ⟨fun _ => silent, ?_⟩
      intro entries answered
      simp [Wire.lane, unanswered] at answered
    · rw [others σ same]
      exact h.carries σ
  · intro σ held
    have before := h.stands σ (by rw [Task.socket, under]; exact held)
    -- The held socket has a number on its wire, this one had none.
    have other : σ ≠ e.stream := by
      rintro rfl
      obtain ⟨_, _, asked, _⟩ := before
      simp [Wire.lane, show (w.down e.stream).sequence = none from unasked] at asked
    show (down σ).lane.StandsAt _
    rw [others σ other]
    exact before
  · intro e' under'
    cases under'
    show Phase.DownReady _ (down e.stream) .readSequence ∧ (down e.stream).read = 0
    rw [this]
    refine ⟨⟨rfl, ?_⟩, unread⟩
    intro theirs answered
    cases unanswered.symm.trans answered
  · intro σ undialed
    have other : σ ≠ e.stream := by
      rintro rfl
      cases dialed.symm.trans undialed
    show (down σ).sequence = none
    rw [others σ other]
    exact h.undialed σ undialed

/-- A later step of the exchange leaves these wires alone. -/
theorem of_phase {e : Exchange} {phase : Phase} {up : SocketId → Wire} (h : DownLink frames w)
    (under : w.task.exchange = some e) (before : e.phase ≠ .writeSequence)
    (after : phase ≠ .writeSequence) :
    DownLink frames { w with
      task := { w.task with exchange := some { e with phase := phase } }, up := up } where
  carries := h.carries
  stands σ held := h.stands σ (by rw [Task.socket, under]; exact held)
  exchange e' under' := by
    cases under'
    obtain ⟨ready, unread⟩ := h.exchange e under
    exact ⟨Phase.downReady_of_reported ready before after, unread⟩
  undialed := h.undialed
  inbox := h.inbox
  bound := h.bound

/-- A catch-up that passes the size check answers the number that was meant. -/
theorem asked_eq {e : Exchange} {theirs : CatchupBuffer} (h : DownLink frames w)
    (under : w.task.exchange = some e) (phase : e.phase = .readCatchup)
    (answered : (w.down e.stream).catchup = some theirs)
    (fits : theirs.encodedLen ≤ defaultMaxProtoLength) :
    (w.down e.stream).lane.asked = some (w.task.actor.readerSeq : Int) := by
  obtain ⟨ready, _⟩ := h.exchange e under
  rw [phase] at ready
  obtain ⟨asked, enough⟩ := ready
  obtain ⟨k, number, _, _⟩ :=
    (h.carries e.stream).span theirs.buffer (by simp [Wire.lane, answered])
  have value : (SequenceHeader.of w.task.actor.readerSeq).value = k := by
    have lane : (w.down e.stream).lane.asked =
        some (SequenceHeader.of w.task.actor.readerSeq).value := by
      simp [Wire.lane, asked]
    rw [number] at lane
    exact (Option.some.inj lane).symm
  have size := theirs.two_mul_length_le
  have enough := enough theirs answered
  rw [number]
  have narrow := toInt_ofInt_narrow w.task.actor.readerSeq (by
    change 0 ≤ (SequenceHeader.of w.task.actor.readerSeq).value
    omega)
  change (SequenceHeader.of w.task.actor.readerSeq).value = _ ∨
    (SequenceHeader.of w.task.actor.readerSeq).value + 2 ^ 32 ≤ _ at narrow
  rw [value] at narrow enough
  have cap : defaultMaxProtoLength = 134217728 := rfl
  obtain same | far := narrow
  · rw [same]
  · omega

/-- An exchange that succeeds with an empty inbox leaves the peer's frames in it. -/
theorem of_recovered {e : Exchange} {now : Instant} {theirs : CatchupBuffer}
    (h : DownLink frames w) (under : w.task.exchange = some e) (phase : e.phase = .readCatchup)
    (answered : (w.down e.stream).catchup = some theirs)
    (fits : theirs.encodedLen ≤ defaultMaxProtoLength) (drained : w.task.actor.inbox = []) :
    DownLink frames { w with
      task := w.task.served (w.task.actor.revive now e.stream theirs.buffer) } := by
  have number := h.asked_eq under phase answered fits
  have lane : (w.down e.stream).lane.catchup = some theirs.buffer := by simp [Wire.lane, answered]
  obtain ⟨k, asked, _, span⟩ := (h.carries e.stream).span theirs.buffer lane
  obtain rfl := Lane.eq_of_asked number asked
  have inbox : (w.task.actor.revive now e.stream theirs.buffer).inbox = theirs.buffer := by
    show w.task.actor.inbox ++ theirs.buffer = _
    rw [drained, List.nil_append]
  refine ⟨h.carries, ?_, (by rintro _ ⟨⟩), h.undialed, ?_, h.bound⟩
  · intro σ held
    cases held
    show (w.down e.stream).lane.StandsAt (w.task.actor.readerSeq + List.length
      (w.task.actor.revive now e.stream theirs.buffer).inbox)
    rw [inbox]
    refine ⟨w.task.actor.readerSeq, theirs.buffer, number, lane, ?_⟩
    show _ = _ + (w.down e.stream).read
    rw [(h.exchange e under).2, Nat.add_zero]
  · show (w.task.actor.revive now e.stream theirs.buffer).inbox <+: _
    rw [inbox]
    exact (List.prefix_append _ _).trans span

/-- A round of delivery that rejects nothing keeps the link. -/
theorem of_deliver {now : Instant} (h : DownLink frames w) (placed : w.task.Placed)
    (stepped : w.task.step box (.deliver now) = some (t', effects))
    (clean : rejectedOf effects = []) : DownLink frames { w with task := t' } := by
  obtain ⟨_, exchange, socket, _⟩ := Task.step_deliver stepped
  cases Task.step_moves stepped with
  | drained => exact h.of_calm {} exchange (.inl socket)
  | rejected _ _ _ _ popped =>
      obtain ⟨_, _, _, _, _, _, _, rfl⟩ := Actor.deliverOne_rejected popped
      simp [rejectedOf, Effect.rejected?] at clean
  | opened _ _ _ _ place popped =>
      obtain ⟨_, _, _, _, _, inbox, _, _, rfl, _⟩ := Actor.deliverOne_opened popped
      exact h.of_opened inbox (placed.idle (by rw [place]; rfl)) socket rfl rfl

/-- A step of the actor keeps the link from the peer, if an exchange succeeds only with
an empty inbox and no frame is rejected. -/
theorem actor_step {act : Act} (h : DownLink frames w) (placed : w.task.Placed)
    (dialed : ∀ e, w.task.exchange = some e → w.dialed e.stream = true)
    (offered : w.offers act = true) (stepped : w.task.step box act = some (t', effects))
    (drained : .recovered true ∈ effects → w.task.actor.inbox = [])
    (clean : rejectedOf effects = []) :
    DownLink frames { effects.foldl World.noting (w.taking act) with task := t' } := by
  by_cases calm : act.calm = true
  · have taking : w.taking act = w := by cases act <;> first | rfl | cases calm
    obtain ⟨exchange, same, quiet, silent⟩ := Task.step_calm calm stepped
    have socket := (Task.step_socket placed stepped).resolve_left (quiet true)
    rw [taking]
    by_cases wrote : encryptionsOf effects = []
    · rw [silent wrote w]
      exact h.of_calm same exchange socket
    · obtain ⟨_, quiet⟩ | ⟨header, payload, crypto, frame, handed, _, _, rfl, given⟩ :=
        Task.step_writer stepped
      · exact absurd quiet.encryptions wrote
      · obtain ⟨_, rfl⟩ | ⟨_, _, _, _, rfl⟩ := given <;> exact h.of_calm same exchange socket
  cases Task.step_moves stepped with
  | recover stream => exact h.of_recover (by simpa [World.offers] using offered) stepped
  | frame bytes _ idle held =>
      obtain ⟨socket, live⟩ := Option.isSome_iff_exists.mp held
      have taking : w.taking (.frame bytes) =
          { w with down := Function.update w.down socket (w.down socket).advance } := by
        simp only [World.taking, live]
      simp only [World.offers, live, decide_eq_true_eq] at offered
      rw [taking]
      exact h.of_frame idle live offered
  | drained | rejected | opened =>
      obtain ⟨_, _, _, _, _, wires⟩ := Task.step_deliver stepped
      rw [wires]
      exact h.of_deliver placed stepped clean
  | sequenceSent e under phase => exact h.of_sequenceSent under phase (dialed e under)
  | answered _ e _ under phase | catchupSent e _ under phase =>
      exact h.of_phase under (by rw [phase]; rintro ⟨⟩) (by rintro ⟨⟩)
  | revived _ _ e under phase fits =>
      simp only [World.offers, under, decide_eq_true_eq] at offered
      exact h.of_recovered under phase offered fits (drained (List.mem_singleton.mpr rfl))
  | denied _ e _ under | oversized _ _ e under | exchangeFails e under => exact h.of_failed under
  | write | tick | killSocket | shutdown | socketLost | close | notice | proceed | send
  | noticeFails | sendFails | sendDead | finish | dropConsumer => exact absurd rfl calm

/-- The peer has more frames to send. -/
theorem grow {frames' : List Bytes} {peer : Peer} (h : DownLink frames w)
    (grows : frames <+: frames') : DownLink frames' { w with peer := peer } where
  carries σ := (h.carries σ).grow grows
  stands := h.stands
  exchange := h.exchange
  undialed := h.undialed
  inbox := Lane.prefix_drop_of_prefix h.inbox grows
  bound := h.bound.trans grows.length_le

/-- The peer puts the frame behind everything on a wire there. -/
theorem of_send {socket : SocketId} {asked : SequenceHeader} {answered : CatchupBuffer}
    {frame : Bytes} (h : DownLink frames w) (sequence : (w.down socket).sequence = some asked)
    (catchup : (w.down socket).catchup = some answered)
    (next : frames[asked.value.toNat + answered.buffer.length + (w.down socket).frames.length]? =
      some frame) :
    DownLink frames { w with
      down := Function.update w.down socket
        { w.down socket with frames := (w.down socket).frames ++ [framePacket frame] } } := by
  have lane : (w.down socket).lane.catchup = some answered.buffer := by simp [Wire.lane, catchup]
  obtain ⟨k, number, _⟩ := (h.carries socket).span answered.buffer lane
  have value : asked.value = k := by simpa [Wire.lane, sequence] using number
  let wire := { w.down socket with frames := (w.down socket).frames ++ [framePacket frame] }
  let down := Function.update w.down socket wire
  have keeps : ∀ σ, (down σ).sequence = (w.down σ).sequence ∧
      (down σ).catchup = (w.down σ).catchup ∧ (down σ).read = (w.down σ).read := by
    intro σ
    by_cases same : σ = socket
    · rw [same, show down socket = wire from Function.update_self _ _ _]
      exact ⟨rfl, rfl, rfl⟩
    · rw [show down σ = w.down σ from Function.update_of_ne same _ _]
      exact ⟨rfl, rfl, rfl⟩
  refine ⟨?_, ?_, ?_, fun σ new => (keeps σ).1.trans (h.undialed σ new), h.inbox, h.bound⟩
  · intro σ
    show (down σ).lane.Carries _
    by_cases same : σ = socket
    · rw [same, show down socket = wire from Function.update_self _ _ _, Wire.lane_push]
      apply (h.carries socket).send lane number
      rw [value, Int.toNat_natCast] at next
      simpa [Wire.lane] using next
    · rw [show down σ = w.down σ from Function.update_of_ne same _ _]
      exact h.carries σ
  · intro σ held
    obtain ⟨sequence, catchup, read⟩ := keeps σ
    exact Wire.standsAt_congr sequence catchup read (h.stands σ held)
  · intro e under
    obtain ⟨ready, unread⟩ := h.exchange e under
    obtain ⟨sequence, catchup, read⟩ := keeps e.stream
    refine ⟨?_, read.trans unread⟩
    show e.phase.DownReady _ (down e.stream)
    cases phase : e.phase with
    | writeSequence =>
        rw [phase] at ready
        exact sequence.trans ready
    | readSequence | writeCatchup | readCatchup =>
        rw [phase] at ready
        exact ⟨sequence.trans ready.1, fun theirs answered => ready.2 theirs (catchup ▸ answered)⟩

/-- The peer answers the number on a wire with all its frames behind it. -/
theorem of_answer {socket : SocketId} {asked : SequenceHeader} (h : DownLink frames w)
    (sequence : (w.down socket).sequence = some asked) (catchup : (w.down socket).catchup = none)
    (nonneg : 0 ≤ asked.value) (within : asked.value ≤ frames.length) :
    DownLink frames { w with
      down := Function.update w.down socket
        { w.down socket with catchup := some ⟨frames.drop asked.value.toNat⟩ } } := by
  let down := Function.update w.down socket
    { w.down socket with catchup := some ⟨frames.drop asked.value.toNat⟩ }
  have this : down socket = { w.down socket with
      catchup := some ⟨frames.drop asked.value.toNat⟩ } := Function.update_self _ _ _
  have others : ∀ σ, σ ≠ socket → down σ = w.down σ :=
    fun σ other => Function.update_of_ne other _ _
  refine ⟨?_, ?_, ?_, ?_, h.inbox, h.bound⟩
  · intro σ
    show (down σ).lane.Carries _
    by_cases same : σ = socket
    · rw [same, this]
      apply (h.carries socket).answer (by simp [Wire.lane, catchup])
      · simp [Wire.lane, sequence, Int.toNat_of_nonneg nonneg]
      · omega
    · rw [others σ same]
      exact h.carries σ
  · intro σ held
    have before := h.stands σ held
    have other : σ ≠ socket := by
      rintro rfl
      obtain ⟨_, _, _, answered, _⟩ := before
      simp [Wire.lane, catchup] at answered
    show (down σ).lane.StandsAt _
    rw [others σ other]
    exact before
  · intro e under
    obtain ⟨ready, unread⟩ := h.exchange e under
    show e.phase.DownReady _ (down e.stream) ∧ (down e.stream).read = 0
    by_cases same : e.stream = socket
    · rw [same] at ready unread
      rw [same, this]
      refine ⟨?_, unread⟩
      have bound := h.bound
      cases phase : e.phase with
      | writeSequence =>
          rw [phase] at ready
          cases sequence.symm.trans ready
      | readSequence | writeCatchup | readCatchup =>
          rw [phase] at ready
          refine ⟨ready.1, ?_⟩
          intro theirs answered
          cases answered
          obtain rfl := Option.some.inj (sequence.symm.trans ready.1)
          show (w.task.actor.readerSeq : Int) ≤
            (SequenceHeader.of w.task.actor.readerSeq).value + ((frames.drop _).length : Int)
          rw [List.length_drop]
          omega
    · rw [others _ same]
      exact ⟨ready, unread⟩
  · intro σ undialed
    have before := h.undialed σ undialed
    have other : σ ≠ socket := by
      rintro rfl
      cases sequence.symm.trans before
    show (down σ).sequence = none
    rw [others σ other]
    exact before

/-- A step of the peer keeps the link. -/
theorem peer_step {cfg : BackedConfig} {act : PeerAct} {w' : World}
    (h : DownLink (w.peer.frames box cfg) w) (stepped : w.peerStep box cfg act = some w') :
    DownLink (w'.peer.frames box cfg) w' := by
  cases act with
  | write header payload =>
      cases stepped
      apply h.grow
      rw [Peer.frames, Peer.frames, Packet.stream_concat]
      exact List.prefix_append _ _
  | send socket =>
      simp only [World.peerStep] at stepped
      split at stepped
      · obtain ⟨frame, next, rfl⟩ := Option.map_eq_some_iff.mp stepped
        exact h.of_send ‹_› ‹_› next
      · cases stepped
  | report socket =>
      simp only [World.peerStep] at stepped
      split at stepped <;> cases stepped
      exact ⟨h.carries, h.stands, h.exchange, h.undialed, h.inbox, h.bound⟩
  | answer =>
      obtain ⟨e, _, inner⟩ := Option.bind_eq_some_iff.mp stepped
      dsimp only at inner
      split at inner
      · split at inner <;> cases inner
        rename_i range
        exact h.of_answer ‹_› ‹_› range.1 range.2
      · cases inner
  | finish =>
      obtain ⟨e, _, inner⟩ := Option.bind_eq_some_iff.mp stepped
      split at inner
      · obtain ⟨theirs, _, rfl⟩ := Option.map_eq_some_iff.mp inner
        exact h.grow (List.prefix_refl _)
      · cases inner
  | fail =>
      obtain ⟨e, _, rfl⟩ := Option.map_eq_some_iff.mp stepped
      exact h.grow (List.prefix_refl _)
  | accept =>
      simp only [World.peerStep] at stepped
      split at stepped
      · obtain ⟨socket, _, inner⟩ := Option.bind_eq_some_iff.mp stepped
        obtain ⟨body, _, rfl⟩ := Option.map_eq_some_iff.mp inner
        exact ⟨h.carries, h.stands, h.exchange, h.undialed, h.inbox, h.bound⟩
      · cases stepped
  | lose =>
      simp only [World.peerStep] at stepped
      split at stepped <;> cases stepped
      exact h.grow (List.prefix_refl _)

end DownLink

end Backed

end Et
