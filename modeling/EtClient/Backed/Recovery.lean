import EtClient.Backed.Delivery
import EtClient.Backed.Downlink
import EtClient.Backed.Nonce

/-!
# Recovery against an honest peer

Both links hold through a run, the one to the peer without any condition. The link from
the peer needs that every recover succeeds with an empty inbox; then the inbox is always
the span of the peer's frames behind the opened ones, every frame opens to the packet
that the peer boxed as that number, and the session never ends with a crypto mismatch.

The condition is not idle. A recover is also served inside `send_event`, while the rest
of a catch-up waits in the inbox behind the packet in hand. The number it reports counts
the opened frames only, so the peer sends the waiting ones again.
-/

namespace Et

namespace Backed

variable {box : SecretBox} {cfg : BackedConfig} {now : Instant} {log effects : List Effect}
variable {w w' : World}

namespace World

theorem foldl_noting_peer (effects : List Effect) (w : World) :
    (effects.foldl noting w).peer = w.peer := by
  induction effects generalizing w with
  | nil => rfl
  | cons effect effects ih =>
      rw [List.foldl_cons, ih]
      cases effect <;> rfl

theorem taking_peer (w : World) (act : Act) : (w.taking act).peer = w.peer := by
  unfold taking
  split
  · rfl
  · split <;> rfl
  · rfl

/-- A step is one of the actor's, on what the sockets offer, or one of the peer's. -/
theorem step_cases {act : WorldAct} (stepped : w.step box cfg act = some (w', effects)) :
    (∃ inner, act = .actor inner ∧ w.offers inner = true ∧
        w.task.step box inner = some (w'.task, effects) ∧
        w' = { effects.foldl noting (w.taking inner) with task := w'.task } ∧
        w'.peer = w.peer) ∨
      ∃ inner, act = .peer inner ∧ w.peerStep box cfg inner = some w' ∧ effects = [] := by
  cases act with
  | actor inner =>
      simp only [step] at stepped
      split at stepped
      · rename_i offered
        obtain ⟨⟨task, _⟩, taken, eq⟩ := Option.map_eq_some_iff.mp stepped
        cases eq
        refine .inl ⟨inner, rfl, offered, taken, rfl, ?_⟩
        show (List.foldl noting (w.taking inner) _).peer = _
        rw [foldl_noting_peer, taking_peer]
      · cases stepped
  | peer inner =>
      obtain ⟨_, taken, eq⟩ := Option.map_eq_some_iff.mp stepped
      cases eq
      exact .inr ⟨inner, rfl, taken, rfl⟩

/-- The peer does not touch the actor, and what it wrote stays written. -/
theorem peerStep_keeps {act : PeerAct} (stepped : w.peerStep box cfg act = some w') :
    w'.task = w.task ∧ w.peer.wrote <+: w'.peer.wrote := by
  unfold peerStep at stepped
  split at stepped
  · cases stepped
    exact ⟨rfl, List.prefix_append _ _⟩
  · dsimp only at stepped
    split at stepped
    · obtain ⟨_, _, rfl⟩ := Option.map_eq_some_iff.mp stepped
      exact ⟨rfl, List.prefix_refl _⟩
    · cases stepped
  · split at stepped <;> cases stepped
    exact ⟨rfl, List.prefix_refl _⟩
  · obtain ⟨_, _, inner⟩ := Option.bind_eq_some_iff.mp stepped
    dsimp only at inner
    split at inner
    · split at inner <;> cases inner
      exact ⟨rfl, List.prefix_refl _⟩
    · cases inner
  · obtain ⟨_, _, inner⟩ := Option.bind_eq_some_iff.mp stepped
    split at inner
    · obtain ⟨_, _, rfl⟩ := Option.map_eq_some_iff.mp inner
      exact ⟨rfl, List.prefix_refl _⟩
    · cases inner
  · obtain ⟨_, _, rfl⟩ := Option.map_eq_some_iff.mp stepped
    exact ⟨rfl, List.prefix_refl _⟩
  · split at stepped
    · obtain ⟨_, _, inner⟩ := Option.bind_eq_some_iff.mp stepped
      obtain ⟨_, _, rfl⟩ := Option.map_eq_some_iff.mp inner
      exact ⟨rfl, List.prefix_refl _⟩
    · cases stepped
  · split at stepped <;> cases stepped
    exact ⟨rfl, List.prefix_refl _⟩

/-- The wire of the first socket is current, all others are empty. -/
theorem opening_wire (socket : SocketId) :
    (socket = 0 ∧ (Function.update (fun _ => Wire.unused) 0 Wire.started socket) = .started) ∨
      (socket ≠ 0 ∧ (Function.update (fun _ => Wire.unused) 0 Wire.started socket) = .unused) := by
  by_cases first : socket = 0
  · exact .inl ⟨first, by rw [first, Function.update_self]⟩
  · exact .inr ⟨first, Function.update_of_ne first _ _⟩

theorem started_current : Wire.started.lane.Current [] :=
  ⟨0, [], congrArg some (SequenceHeader.value_of (by decide)), rfl, Nat.le_refl _, rfl⟩

theorem started_standsAt : Wire.started.lane.StandsAt 0 :=
  ⟨0, [], congrArg some (SequenceHeader.value_of (by decide)), rfl, rfl⟩

theorem opening_carries (socket : SocketId) :
    (Function.update (fun _ => Wire.unused) 0 Wire.started socket).lane.Carries [] := by
  obtain ⟨_, eq⟩ | ⟨_, eq⟩ := opening_wire socket
  · rw [eq]
    exact started_current.carries
  · rw [eq]
    exact ⟨fun _ => ⟨rfl, rfl⟩, nofun⟩

/-- A socket that was not dialed has an empty wire. -/
theorem opening_undialed {socket : SocketId}
    (undialed : Function.update (fun _ => false) (0 : SocketId) true socket = false) :
    Function.update (fun _ => Wire.unused) 0 Wire.started socket = .unused := by
  obtain ⟨rfl, _⟩ | ⟨_, eq⟩ := opening_wire socket
  · cases undialed
  · exact eq

theorem opening_upLink : UpLink [] (opening cfg now) where
  window := ⟨List.suffix_refl _, rfl, rfl⟩
  carries := opening_carries
  current socket held := by
    cases held
    exact started_current
  exchange := nofun
  undialed socket undialed := congrArg Wire.catchup (opening_undialed undialed)
  accepted := List.prefix_refl _
  stands socket holds := by
    obtain live | ⟨_, under, _⟩ := holds
    · cases live
      exact started_standsAt
    · cases under
  reported := nofun

theorem opening_downLink : DownLink [] (opening cfg now) where
  carries := opening_carries
  stands socket held := by
    cases held
    exact started_standsAt
  exchange := nofun
  undialed socket undialed := congrArg Wire.sequence (opening_undialed undialed)
  inbox := List.prefix_refl _
  bound := Nat.le_refl _

section Runs

variable {allowed : List Effect → World → WorldAct → Prop}

/-- The actor's part of a run with a peer is a run of the actor. -/
theorem task_reachable (run : (system box cfg now).Reaches allowed log w) :
    (Task.system box cfg now).Reachable log w.task := by
  refine run.invariant (P := fun log w => (Task.system box cfg now).Reachable log w.task) .start ?_
  intro log w act w' effects before _ stepped
  obtain ⟨inner, _, _, taken, _⟩ | ⟨inner, _, taken, rfl⟩ := step_cases stepped
  · exact before.next inner trivial taken
  · rw [List.append_nil, (peerStep_keeps taken).1]
    exact before

/-- What the peer accepts is what the actor wrote, through every run. -/
theorem upLink_reachable (run : (system box cfg now).Reaches allowed log w) :
    UpLink (framesOf log) w := by
  have both := run.invariant (P := fun log w => ReaderOf box cfg log w.task ∧
    UpLink (framesOf log) w) ?_ ?_
  · exact both.2
  · exact ⟨readerOf_reachable .start, opening_upLink⟩
  · intro log w act w' effects before _ stepped
    obtain ⟨inner, _, offered, taken, eq, _⟩ | ⟨inner, _, taken, rfl⟩ := step_cases stepped
    · refine ⟨before.1.step taken, ?_⟩
      rw [framesOf_append, eq]
      exact before.2.actor_step before.1.placed offered taken
    · rw [List.append_nil, (peerStep_keeps taken).1]
      exact ⟨before.1, before.2.peer_step taken⟩

end Runs

end World

/-- A frame that the peer boxed as the next number opens to its packet. -/
theorem Task.delivered_boxed (lawful : box.Lawful) {key : Key} {nonceMsb header : UInt8}
    {operations : Nat} {payload : Bytes} {rest : List Bytes} (clock : Instant) (t : Task)
    (next : t.actor.inbox = Packet.boxed box key nonceMsb operations header payload :: rest)
    (crypto : t.actor.readerCrypto = .after key nonceMsb operations) :
    (t.delivered box clock).1.pc = .sending (.new header payload) := by
  obtain ⟨p, parsed, flag, opened⟩ :=
    Packet.decrypt_boxed lawful key nonceMsb operations header payload
  simp only [delivered, Actor.deliverOne, next, parsed, dif_pos flag, crypto, opened]

/-- What was opened is what the peer wrote, and nothing was rejected. -/
structure Faithful (box : SecretBox) (cfg : BackedConfig) (log : List Effect) (w : World) :
    Prop where
  reader : ReaderOf box cfg log w.task
  down : DownLink (w.peer.frames box cfg) w
  opened : (openedOf log).map Prod.snd =
    (w.peer.wrote.take w.task.actor.readerSeq).map fun p => .new p.1 p.2
  clean : rejectedOf log = []
  running : w.task.pc ≠ .dying
  deads : .cryptoMismatch ∉ deadsOf log

namespace Faithful

theorem bound (h : Faithful box cfg log w) : w.task.actor.readerSeq ≤ w.peer.wrote.length := by
  have bound := h.down.bound
  rwa [Peer.frames, Packet.length_stream] at bound

/-- The next frame of the inbox is the next packet of the peer. -/
theorem next {bytes : Bytes} {rest : List Bytes} (h : Faithful box cfg log w)
    (inbox : w.task.actor.inbox = bytes :: rest) :
    ∃ header payload, w.peer.wrote[w.task.actor.readerSeq]? = some (header, payload) ∧
      bytes = Packet.boxed box cfg.key cfg.readerMsb w.task.actor.readerSeq header payload := by
  have span := h.down.inbox
  rw [inbox] at span
  have found := Lane.getElem?_of_prefix_drop span (List.getElem?_cons_zero)
  rw [Peer.frames, Packet.stream, Nat.add_zero, List.getElem?_mapIdx] at found
  obtain ⟨⟨header, payload⟩, written, rfl⟩ := Option.map_eq_some_iff.mp found
  exact ⟨header, payload, written, rfl⟩

/-- A round of delivery opens the peer's next packet, if a frame waits. -/
theorem popped {clock : Instant} {t' : Task} (h : Faithful box cfg log w) (lawful : box.Lawful)
    (place : w.task.pc = .deliver) (eq : w.task.delivered box clock = (t', effects)) :
    rejectedOf effects = [] ∧ t'.pc ≠ .dying ∧ deadsOf effects = [] ∧
      (openedOf (log ++ effects)).map Prod.snd =
        (w.peer.wrote.take t'.actor.readerSeq).map fun p => .new p.1 p.2 := by
  obtain ⟨_, actor, rfl, pc⟩ | waiting := Task.delivered_cases eq
  · refine ⟨rfl, ?_, rfl, ?_⟩
    · rw [pc]
      split <;> nofun
    · rw [List.append_nil, actor]
      exact h.opened
  have counter : w.task.actor.readerCrypto =
      .after cfg.key cfg.readerMsb w.task.actor.readerSeq := by
    rw [h.reader.crypto, h.reader.level (by rw [place]; rfl), ← h.reader.seq]
  obtain ⟨bytes, rest, _, _, inbox, _, _, pc, _⟩ |
    ⟨bytes, rest, _, _, _, inbox, _, _, actor, pc, shape⟩ := waiting
  all_goals
    obtain ⟨header, payload, written, rfl⟩ := h.next inbox
    have opens := Task.delivered_boxed lawful clock w.task inbox counter
    rw [eq, show (t', effects).1 = t' from rfl, pc] at opens
  · cases opens
  · rw [Pc.sending.injEq] at opens
    rw [opens] at shape pc
    rw [shape]
    refine ⟨rfl, by rw [pc]; nofun, rfl, ?_⟩
    rw [openedOf_append, List.map_append, h.opened, actor, List.take_add_one, written,
      List.map_append]
    rfl

/-- One step of the actor: nothing is rejected, and what is opened is the peer's. -/
theorem task_step {act : Act} {t' : Task} (h : Faithful box cfg log w) (lawful : box.Lawful)
    (stepped : w.task.step box act = some (t', effects)) :
    rejectedOf effects = [] ∧ t'.pc ≠ .dying ∧ .cryptoMismatch ∉ deadsOf effects ∧
      (openedOf (log ++ effects)).map Prod.snd =
        (w.peer.wrote.take t'.actor.readerSeq).map fun p => .new p.1 p.2 := by
  have keeps : ∀ {seq : Nat}, seq = w.task.actor.readerSeq → openedOf effects = [] →
      (openedOf (log ++ effects)).map Prod.snd =
        (w.peer.wrote.take seq).map fun p => .new p.1 p.2 := by
    rintro _ rfl silent
    rw [openedOf_append, silent, List.append_nil]
    exact h.opened
  cases Task.step_reader h.reader.placed stepped with
  | received entries _ _ seq _ _ _ _ ending _ quiet =>
      refine ⟨quiet.rejected, ?_, by rw [quiet.deads]; nofun, keeps seq quiet.opened⟩
      intro dying
      have closing := ending (by rw [dying]; rfl)
      rw [dying] at closing
      cases closing
  | abandoned eq =>
      subst eq
      exact ⟨rfl, h.running, nofun, keeps rfl rfl⟩
  | popped clock place eq =>
      obtain ⟨clean, running, deads, opened⟩ := h.popped lawful place eq
      exact ⟨clean, running, by rw [deads]; nofun, opened⟩
  | delivered p place _ eq =>
      subst eq
      exact ⟨rfl, nofun, nofun, keeps rfl rfl⟩
  | died place => exact absurd place h.running
  | finished place eq event =>
      subst eq
      obtain rfl | ⟨_, rfl⟩ := event
      · exact ⟨rfl, nofun, nofun, keeps rfl rfl⟩
      · exact ⟨rfl, nofun, by decide, keeps rfl rfl⟩

end Faithful

/-- The catch-up that an action reads. -/
def WorldAct.catchup? : WorldAct → Option CatchupBuffer
  | .actor (.catchupRead _ theirs) => some theirs
  | _ => none

/-- A catch-up that is small enough to end an exchange finds the inbox empty. -/
def World.RecoversDrained (w : World) (act : WorldAct) : Prop :=
  ∀ theirs ∈ act.catchup?, theirs.encodedLen ≤ defaultMaxProtoLength → w.task.actor.inbox = []

instance (w : World) (act : WorldAct) : Decidable (w.RecoversDrained act) :=
  inferInstanceAs (Decidable (∀ theirs ∈ act.catchup?, _ → _))

/-- Only such a catch-up lets an exchange succeed. -/
theorem Task.step_recovered {t t' : Task} {act : Act}
    (stepped : t.step box act = some (t', effects)) (success : .recovered true ∈ effects) :
    ∃ clock theirs, act = .catchupRead clock theirs ∧
      theirs.encodedLen ≤ defaultMaxProtoLength := by
  by_cases calm : act.calm = true
  · obtain ⟨_, _, quiet, _⟩ := Task.step_calm calm stepped
    exact absurd success (quiet true)
  cases step_moves stepped with
  | revived clock theirs _ _ _ fits => exact ⟨clock, theirs, rfl, fits⟩
  | drained | rejected | opened =>
      obtain ⟨_, _, _, _, quiet, _⟩ := Task.step_deliver stepped
      exact absurd success (quiet true)
  | recover | frame | sequenceSent | answered | denied | catchupSent | oversized
  | exchangeFails => simp at success
  | write | tick | killSocket | shutdown | socketLost | close | notice | proceed | send
  | noticeFails | sendFails | sendDead | finish | dropConsumer => exact absurd rfl calm

namespace Faithful

theorem step {act : WorldAct} (h : Faithful box cfg log w) (lawful : box.Lawful)
    (dialed : ∀ e, w.task.exchange = some e → w.dialed e.stream = true)
    (drained : w.RecoversDrained act)
    (stepped : w.step box cfg act = some (w', effects)) : Faithful box cfg (log ++ effects) w' := by
  obtain ⟨inner, rfl, offered, taken, eq, peer⟩ | ⟨inner, _, taken, rfl⟩ :=
    World.step_cases stepped
  · obtain ⟨clean, running, deads, opened⟩ := h.task_step lawful taken
    refine ⟨h.reader.step taken, ?_, ?_, ?_, running, ?_⟩
    · rw [peer, eq]
      refine h.down.actor_step h.reader.placed dialed offered taken ?_ clean
      intro success
      obtain ⟨_, theirs, rfl, fits⟩ := Task.step_recovered taken success
      exact drained theirs rfl fits
    · rw [peer]
      exact opened
    · rw [rejectedOf_append, h.clean, clean]
      rfl
    · rw [deadsOf_append, List.mem_append]
      exact not_or_intro h.deads deads
  · obtain ⟨task, more, grows⟩ := World.peerStep_keeps taken
    rw [List.append_nil]
    refine ⟨task ▸ h.reader, h.down.peer_step taken, ?_, h.clean, task ▸ h.running, h.deads⟩
    rw [task, ← grows, List.take_append_of_le_length h.bound]
    exact h.opened

end Faithful

theorem World.faithful_reaches (lawful : box.Lawful)
    (run : (World.system box cfg now).Reaches (fun _ => World.RecoversDrained) log w) :
    Faithful box cfg log w := by
  have both := run.invariant
    (P := fun log w => (World.system box cfg now).Reachable log w ∧ Faithful box cfg log w) ?_ ?_
  · exact both.2
  · exact ⟨.start, readerOf_reachable .start, opening_downLink, rfl, rfl, nofun, nofun⟩
  · intro log w act w' effects before drained stepped
    refine ⟨before.1.next act trivial stepped, ?_⟩
    have dialed := fun e under => ((upLink_reachable before.1).exchange e under).2
    exact before.2.step lawful dialed drained stepped

/-- As long as every recover succeeds with an empty inbox, the inbox holds exactly the
peer's frames behind the opened ones, and no frame of an honest peer is ever refused. -/
theorem recovery_safe_when_drained (lawful : box.Lawful)
    (run : (World.system box cfg now).Reaches (fun _ => World.RecoversDrained) log w) :
    w.task.actor.inbox <+: (w.peer.frames box cfg).drop w.task.actor.readerSeq ∧
      rejectedOf log = [] ∧ .cryptoMismatch ∉ deadsOf log := by
  have faithful := World.faithful_reaches lawful run
  exact ⟨faithful.down.inbox, faithful.clean, faithful.deads⟩

section Repeated

/-- A catch-up of two frames, received on socket 1. -/
def firstRecover : List WorldAct :=
  [.peer (.write terminalBuffer [1]), .peer (.write terminalBuffer [2]), .actor .killSocket,
    .actor .settle, .actor .send, .actor (.deliver 0), .actor (.recover 1), .peer (.report 1),
    .actor .sequenceSent, .peer .answer, .actor (.sequenceRead (.of 0)), .actor .catchupSent,
    .actor (.catchupRead 0 ⟨[Packet.boxed .naming testKey serverClientNonceMsb 0 terminalBuffer [1],
      Packet.boxed .naming testKey serverClientNonceMsb 1 terminalBuffer [2]]⟩),
    .peer .finish, .actor .settle, .actor (.deliver 0)]

/-- A second recover, on socket 2, that the peer answers with the second frame. -/
def secondRecover : List WorldAct :=
  [.actor (.recover 2), .peer (.report 2), .actor .sequenceSent, .peer .answer,
    .actor (.sequenceRead (.of 0)), .actor .catchupSent,
    .actor (.catchupRead 0
      ⟨[Packet.boxed .naming testKey serverClientNonceMsb 1 terminalBuffer [2]]⟩)]

/-- The catch-up of a recover is opened and delivered. -/
theorem recovery_safe_when_drained_catchup :
    ∃ log w, (World.system .naming (.client testKey none) 0).Reaches
        (fun _ => World.RecoversDrained) log w ∧
      .recovered true ∈ log ∧ packetsOf log = [.new terminalBuffer [1], .new terminalBuffer [2]] ∧
      rejectedOf log = [] := by
  obtain ⟨log, w, run, recovered, packets⟩ :
      ∃ log w, (World.system .naming (.client testKey none) 0).Reaches
          (fun _ => World.RecoversDrained) log w ∧
        .recovered true ∈ log ∧
        packetsOf log = [.new terminalBuffer [1], .new terminalBuffer [2]] :=
    ⟨_, _, .execute .start
      (firstRecover ++ [.actor .send, .actor (.deliver 0), .actor .send]) rfl, by decide, by decide⟩
  obtain ⟨_, clean, _⟩ := recovery_safe_when_drained SecretBox.naming_lawful run
  exact ⟨log, w, run, recovered, packets, clean⟩

/-- The first packet of a catch-up is parked on a full event queue while the second
waits in the inbox. A recover that is served there reports one opened frame, is answered
with the second one again, and leaves it in the inbox twice; the copy ends the session. -/
theorem second_recover_repeats_frames :
    ∃ log w, (World.system .naming (.client testKey none) 0).Reachable log w ∧
      log.getLast? = some (.recovered true) ∧ w.task.actor.readerSeq = 1 ∧
      w.peer.frames .naming (.client testKey none) =
        [Packet.boxed .naming testKey serverClientNonceMsb 0 terminalBuffer [1],
          Packet.boxed .naming testKey serverClientNonceMsb 1 terminalBuffer [2]] ∧
      w.task.actor.inbox =
        [Packet.boxed .naming testKey serverClientNonceMsb 1 terminalBuffer [2],
          Packet.boxed .naming testKey serverClientNonceMsb 1 terminalBuffer [2]] ∧
      ¬ w.task.actor.inbox <+:
        (w.peer.frames .naming (.client testKey none)).drop w.task.actor.readerSeq ∧
      ∃ log' w', (World.system .naming (.client testKey none) 0).Reachable log' w' ∧
        log <+: log' ∧ .cryptoMismatch ∈ deadsOf log' := by
  refine ⟨_, _, .execute .start (firstRecover ++ secondRecover) rfl, by decide, rfl, rfl, rfl,
    by decide, ?_⟩
  exact ⟨_, _, .execute .start (firstRecover ++ secondRecover ++ [.actor .send, .actor (.deliver 0),
    .actor .send, .actor (.deliver 0), .actor (.sendDead true)]) rfl, by decide, by decide⟩

end Repeated

end Backed

end Et
