import EtClient.Backed.Sockets

/-!
# The disconnect ledger

Without a live socket a write only backs its frame up, and the ledger counts the bytes
that pile up. It is opened when the socket is lost, by whatever closes it, and closed by
the recover that succeeds. The frame whose refusal by a full queue closes the socket is
counted too, since no socket has taken it.

A step is seen here as what it means for the ledger. The task's socket is the live one
or the one that an exchange has set aside, so that an exchange that fails means nothing.
-/

namespace Et

namespace Backed

/-- What a step means for the ledger. -/
inductive LedgerNote
  /-- The live socket is gone. -/
  | lost
  /-- A frame was written without a live socket. -/
  | buffered (frame : Bytes)
  /-- The queue of the live socket took a frame. -/
  | queued (frame : Bytes)
  /-- The queue refused a frame, which closed the socket. -/
  | refused (frame : Bytes)
  /-- A recover succeeded. -/
  | revived
  deriving DecidableEq

def Task.ledgerNotes (t t' : Task) (effects : List Effect) : List LedgerNote :=
  if .recovered true ∈ effects then [.revived]
  else
    match t.socket, t'.socket, framesOf effects with
    | none, _, [frame] => [.buffered frame]
    | some _, some _, [frame] => [.queued frame]
    | some _, none, [frame] => [.refused frame]
    | some _, none, [] => [.lost]
    | _, _, _ => []

/-- The frames written since the last live socket was lost, with the one that closed it. -/
def sinceLoss (notes : List LedgerNote) : List Bytes :=
  notes.foldl
    (fun frames => fun
      | .lost => []
      | .refused frame => [frame]
      | .buffered frame | .queued frame => frames ++ [frame]
      | .revived => frames)
    []

/-- The frames written without a live socket since the last successful recover. -/
def bufferedSince (notes : List LedgerNote) : List Bytes :=
  notes.foldl
    (fun frames => fun
      | .buffered frame => frames ++ [frame]
      | .revived => []
      | _ => frames)
    []

theorem sinceLoss_concat (notes : List LedgerNote) (note : LedgerNote) :
    sinceLoss (notes ++ [note]) =
      match note with
      | .lost => []
      | .refused frame => [frame]
      | .buffered frame | .queued frame => sinceLoss notes ++ [frame]
      | .revived => sinceLoss notes := by
  rw [sinceLoss, List.foldl_append]
  rfl

theorem bufferedSince_concat (notes : List LedgerNote) (note : LedgerNote) :
    bufferedSince (notes ++ [note]) =
      match note with
      | .buffered frame => bufferedSince notes ++ [frame]
      | .revived => []
      | _ => bufferedSince notes := by
  rw [bufferedSince, List.foldl_append]
  rfl

/-- A tick finds a ping unanswered for a whole period. -/
def Actor.keepaliveExpired (now : Instant) (s : Actor) : Bool :=
  match s.cfg.keepalive with
  | none => false
  | some period =>
      s.live.isSome && !s.shuttingDown && s.waitingOnKeepalive &&
        period ≤ now - s.lastActivity

/-- The actions that close a live socket without writing. -/
def Task.closes (t : Task) : Act → Bool
  | .killSocket | .socketLost => t.actor.live.isSome
  | .tick now _ => t.actor.keepaliveExpired now
  | _ => false

/-- A round of delivery does not touch the ledger. -/
theorem Actor.deliverOne_ledger (box : SecretBox) (now : Instant) (s : Actor) :
    (s.deliverOne box now).1.disconnectedBytes = s.disconnectedBytes ∧
      .recovered true ∉ (s.deliverOne box now).2.2 := by
  refine ⟨?_, fun mem => by cases deliverOne_effects box now s _ mem⟩
  obtain ⟨_, done⟩ | ⟨_, _, _, _, _, _, done⟩ | ⟨_, _, _, _, _, _, _, _, done⟩ :=
    deliverOne_cases box now s
  · rw [done]
  · rw [done]
    rfl
  · rw [done]

/-- A step as the ledger sees it. -/
inductive LedgerStep (box : SecretBox) (t : Task) (act : Act) (t' : Task) :
    List LedgerNote → Prop
  | quiet : t'.socket = t.socket → t'.actor.disconnectedBytes = t.actor.disconnectedBytes →
      SameWriter t.actor t'.actor → LedgerStep box t act t' []
  /-- A socket that is gone is closed again. -/
  | again : t.socket = none → t'.socket = none →
      t'.actor.disconnectedBytes = some (t.actor.disconnectedBytes.getD 0) →
      SameWriter t.actor t'.actor → LedgerStep box t act t' []
  | ended (notes : List LedgerNote) : t'.pc = .ended → SameWriter t.actor t'.actor →
      notes = [] ∨ notes = [.lost] → LedgerStep box t act t' notes
  | lost : t.closes act = true → t.socket.isSome = true → t'.socket = none →
      t'.actor.disconnectedBytes = some (t.actor.disconnectedBytes.getD 0) →
      SameWriter t.actor t'.actor → LedgerStep box t act t' [.lost]
  | buffered (header : UInt8) (payload : Bytes) (crypto : CryptoHandler) (frame : Bytes) :
      t.socket = none → t'.socket = none → t.actor.live = none →
      t.actor.disconnectBufferFull payload = false →
      t.actor.nextFrame box header payload = (crypto, frame) →
      SameWriter (t.actor.pushBackup crypto frame) t'.actor →
      t'.actor.disconnectedBytes = some (t.actor.disconnectedBytes.getD 0 + frame.length) →
      LedgerStep box t act t' [.buffered frame]
  | queued (crypto : CryptoHandler) (frame : Bytes) : t.socket.isSome = true →
      t'.socket = t.socket → t.actor.live.isSome = true →
      t'.actor.disconnectedBytes = t.actor.disconnectedBytes →
      SameWriter (t.actor.pushBackup crypto frame) t'.actor →
      LedgerStep box t act t' [.queued frame]
  | refused (crypto : CryptoHandler) (frame : Bytes) : t.socket.isSome = true →
      t'.socket = none → t.actor.live.isSome = true →
      t'.actor.disconnectedBytes = some (t.actor.disconnectedBytes.getD 0 + frame.length) →
      SameWriter (t.actor.pushBackup crypto frame) t'.actor →
      LedgerStep box t act t' [.refused frame]
  | revived : t'.socket.isSome = true → t'.actor.disconnectedBytes = none →
      SameWriter t.actor t'.actor → LedgerStep box t act t' [.revived]

namespace Task

variable {box : SecretBox} {t t' : Task} {act : Act} {effects : List Effect}

theorem socket_served (t : Task) (actor : Actor) : (t.served actor).socket = actor.live := rfl

/-- Without a new frame and without a loss there is nothing to note. -/
theorem ledgerNotes_of_quiet (old : .recovered true ∉ effects)
    (same : t'.socket = t.socket) (unwritten : framesOf effects = []) :
    t.ledgerNotes t' effects = [] := by
  rw [ledgerNotes, if_neg old, same, unwritten]
  cases t.socket <;> rfl

theorem ledgerStep_of_quiet (old : .recovered true ∉ effects) (same : t'.socket = t.socket)
    (unwritten : framesOf effects = [])
    (ledger : t'.actor.disconnectedBytes = t.actor.disconnectedBytes)
    (writer : SameWriter t.actor t'.actor) :
    LedgerStep box t act t' (t.ledgerNotes t' effects) := by
  rw [ledgerNotes_of_quiet old same unwritten]
  exact .quiet same ledger writer

/-- The socket is closed, or it was gone already. -/
theorem ledgerStep_of_closed (idle : t.exchange = none) (gone : t'.socket = none)
    (ledger : t'.actor.disconnectedBytes = some (t.actor.disconnectedBytes.getD 0))
    (writer : SameWriter t.actor t'.actor) (closes : t.actor.live.isSome → t.closes act = true) :
    LedgerStep box t act t' (t.ledgerNotes t' []) := by
  have held := t.socket_of_idle idle
  cases live : t.actor.live with
  | none =>
      rw [ledgerNotes_of_quiet List.not_mem_nil (gone.trans (held.trans live).symm) rfl]
      exact .again (held.trans live) gone ledger writer
  | some socket =>
      have there := held.trans live
      rw [ledgerNotes, if_neg List.not_mem_nil, there, gone]
      exact .lost (closes (by rw [live]; rfl)) (by rw [there]; rfl) gone ledger writer

/-- A write, also the one of a ping: `s` is the actor as the write finds it. -/
theorem ledgerStep_of_writes {now : Instant} {accepts : Bool} {s actor : Actor} {header : UInt8}
    {payload : Bytes} (idle : t.exchange = none) (same : SameWriter t.actor s)
    (live : s.live = t.actor.live) (ledger : s.disconnectedBytes = t.actor.disconnectedBytes)
    (writes : s.Writes box now accepts header payload actor effects)
    (actor' : t'.actor = actor) (idle' : t'.exchange = none) :
    LedgerStep box t act t' (t.ledgerNotes t' effects) := by
  have held := t.socket_of_idle idle
  have held' : t'.socket = actor.live := (t'.socket_of_idle idle').trans (congrArg _ actor')
  have pushed (crypto : CryptoHandler) (frame : Bytes) := same.pushBackup live crypto frame
  have charged (crypto : CryptoHandler) (frame : Bytes) :
      (s.pushBackup crypto frame).disconnectedBytes = t.actor.disconnectedBytes :=
    (s.pushBackup_disconnectedBytes crypto frame).trans ledger
  cases writes with
  | shutdown down | skipped up full =>
      refine ledgerStep_of_quiet (by simp) (held'.trans (live.trans held.symm)) rfl ?_ ?_
      · rw [actor', ledger]
      · rw [actor']
        exact same
  | buffered crypto frame up room boxed offline =>
      have gone := held.trans (live.symm.trans offline)
      have gone' : t'.socket = none := held'.trans ((s.pushBackup_live crypto frame).trans offline)
      have notes : t.ledgerNotes t'
          [.encrypted crypto.nonce header payload frame, .wrote none] = [.buffered frame] := by
        rw [ledgerNotes, if_neg (by simp), gone]
        rfl
      rw [notes]
      refine .buffered header payload crypto frame gone gone' (live.symm.trans offline) ?_ ?_ ?_ ?_
      · rw [← room, Actor.disconnectBufferFull, Actor.disconnectBufferFull, ledger]
      · rw [← boxed, same.nextFrame]
      · rw [actor']
        exact (pushed crypto frame).trans {}
      · rw [actor', ← charged crypto frame]
        rfl
  | queued crypto frame socket up room boxed there taken =>
      have there' := live.symm.trans there
      have kept : t'.socket = t.socket :=
        held'.trans ((s.pushBackup_live crypto frame).trans (live.trans held.symm))
      have notes : t.ledgerNotes t'
          [.encrypted crypto.nonce header payload frame, .queued socket (framePacket frame),
            .wrote none] = [.queued frame] := by
        rw [ledgerNotes, if_neg (by simp), kept, held, there']
        rfl
      rw [notes]
      refine .queued crypto frame (by rw [held, there']; rfl) kept (by rw [there']; rfl) ?_ ?_
      · rw [actor']
        exact charged crypto frame
      · rw [actor']
        exact (pushed crypto frame).trans {}
  | killed crypto frame socket up room boxed there refused =>
      have there' := live.symm.trans there
      have notes : t.ledgerNotes t'
          [.encrypted crypto.nonce header payload frame, .wrote none] = [.refused frame] := by
        rw [ledgerNotes, if_neg (by simp), held', held, there']
        rfl
      rw [notes]
      refine .refused crypto frame (by rw [held, there']; rfl) held' (by rw [there']; rfl) ?_ ?_
      · rw [actor', ← charged crypto frame]
        rfl
      · rw [actor']
        exact (pushed crypto frame).trans {}

private theorem event_unwritten (sent : Bool) (event : BackedEvent) :
    .recovered true ∉ (if sent = true then [Effect.event event] else []) ∧
      framesOf (if sent = true then [Effect.event event] else []) = [] := by
  cases sent with
  | false => exact ⟨by simp, rfl⟩
  | true => exact ⟨by simp, rfl⟩

/-- What a step of the task means for the ledger. -/
theorem Moves.ledgerStep (moves : t.Moves box act t' effects) (placed : t.Placed) :
    LedgerStep box t act t' (t.ledgerNotes t' effects) := by
  cases moves with
  | write now accepts header payload actor effects ready writes =>
      exact ledgerStep_of_writes (serving_of_serves ready).1 (.refl _) rfl rfl writes rfl rfl
  | killSocket ready =>
      exact ledgerStep_of_closed (serving_of_serves ready).1 rfl rfl t.actor.sameWriter_close id
  | recover stream ready =>
      have held := t.socket_of_idle (serving_of_serves ready).1
      exact ledgerStep_of_quiet (by simp) held.symm rfl rfl {}
  | shutdown ready =>
      have held := t.socket_of_idle (serving_of_serves ready).1
      exact ledgerStep_of_quiet (by simp) held.symm rfl rfl {}
  | socketLost place idle live =>
      refine ledgerStep_of_closed idle ?_ rfl t.actor.sameWriter_close fun _ => live
      exact socket_of_idle _ idle
  | tick now accepts actor effects place idle ticks =>
      cases ticks with
      | idle => exact ledgerStep_of_quiet (by simp) rfl rfl rfl (.refl _)
      | closed period enforced live up elapsed waiting =>
          refine ledgerStep_of_closed idle ?_ rfl t.actor.sameWriter_close fun _ => ?_
          · exact socket_of_idle _ idle
          · simp [closes, Actor.keepaliveExpired, enforced, live, up, waiting, elapsed]
      | pinged period actor effects enforced live up elapsed quiet writes =>
          have ping : SameWriter t.actor (t.actor.startPing now) := {}
          exact ledgerStep_of_writes idle ping rfl rfl writes rfl idle
  | finish taken place =>
      have idle : t.exchange = none := placed.idle (by rw [place]; rfl)
      have gone : ({ t with actor := { t.actor with live := none }, pc := .ended } : Task).socket =
          none := socket_of_idle _ idle
      refine .ended _ rfl {} ?_
      obtain ⟨old, unwritten⟩ :=
        event_unwritten (!t.actor.deadSent && taken && t.consumer) (.dead .shutdown)
      rw [ledgerNotes, if_neg old, gone, unwritten]
      cases t.socket with
      | none => exact .inl rfl
      | some socket => exact .inr rfl
  | sendDead taken place =>
      obtain ⟨old, unwritten⟩ := event_unwritten (taken && t.consumer) (.dead .cryptoMismatch)
      exact ledgerStep_of_quiet old rfl unwritten rfl (.refl _)
  | frame bytes place idle live | notice place up pending =>
      exact ledgerStep_of_quiet (by simp) rfl rfl rfl {}
  | close _ _ | proceed _ _ _ | send _ _ _ _ | noticeFails _ _ _ | sendFails _ _ _ _
  | drained _ _ _ | dropConsumer =>
      exact ledgerStep_of_quiet (by simp) rfl rfl rfl (.refl _)
  | rejected now actor effects place found | opened now actor p effects place found =>
      have delivered := t.actor.deliverOne_ledger box now
      obtain ⟨writer, live, quiet⟩ := t.actor.deliverOne_writer box now
      rw [found] at delivered writer live quiet
      refine ledgerStep_of_quiet delivered.2 ?_ ?_ delivered.1 writer
      · simp only [socket]
        cases t.exchange with
        | none => exact live
        | some e => rfl
      · rw [framesOf, quiet.encryptions]
        rfl
  | sequenceSent e under phase | answered remote e ours under phase chosen
  | catchupSent e ours under phase =>
      exact ledgerStep_of_quiet (by simp) (t.socket_of_exchange under).symm rfl rfl (.refl _)
  | denied remote e message under phase chosen | oversized now theirs e under phase fits
  | exchangeFails e under =>
      exact ledgerStep_of_quiet (by simp) (t.socket_of_exchange under).symm rfl rfl {}
  | revived now theirs e under phase fits => exact .revived rfl rfl {}

end Task

theorem Actor.pushBackup_of_offline {s : Actor} (offline : s.live = none)
    (crypto : CryptoHandler) (frame : Bytes) :
    (s.pushBackup crypto frame).backup = frame :: s.backup ∧
      (s.pushBackup crypto frame).backupSize = s.backupSize + frame.length := by
  rw [pushBackup, if_neg (by simp [offline])]
  exact ⟨rfl, rfl⟩

/-- A payload for which the ledger has room fits with what the ledger holds. -/
theorem Actor.le_of_room {s : Actor} {payload : Bytes}
    (room : s.disconnectBufferFull payload = false) {buffered : Int}
    (ledger : s.disconnectedBytes = some buffered) :
    buffered + payload.length ≤ disconnectBufferBytes := by
  rw [disconnectBufferFull, ledger] at room
  simpa using room

theorem Actor.disconnectBufferFull_iff (s : Actor) (payload : Bytes) :
    s.disconnectBufferFull payload = true ↔ ∃ buffered, s.disconnectedBytes = some buffered ∧
      disconnectBufferBytes < buffered + payload.length := by
  rw [disconnectBufferFull]
  cases s.disconnectedBytes with
  | none => simp
  | some buffered => simp

/-- A write is skipped when the ledger is full, and changes nothing then. -/
theorem Actor.write_skipped (box : SecretBox) (now : Instant) (accepts : Bool) (s : Actor)
    (header : UInt8) (payload : Bytes) (up : s.shuttingDown = false) :
    ((s.write box now accepts header payload).2.1 = some .skipped ↔
        s.disconnectBufferFull payload = true) ∧
      ((s.write box now accepts header payload).2.1 = some .skipped →
        (s.write box now accepts header payload).1 = s) := by
  have down : ¬ s.shuttingDown = true := by simp [up]
  by_cases full : s.disconnectBufferFull payload = true
  · rw [write, if_neg down, if_pos full]
    exact ⟨iff_of_true rfl full, fun _ => rfl⟩
  · rw [write, if_neg down, if_neg full]
    exact ⟨iff_of_false (by rintro ⟨⟩) full, (by rintro ⟨⟩)⟩

/-- The ledger of a task that has not ended, after the steps that were noted. -/
structure OfflineOf (notes : List LedgerNote) (t : Task) : Prop where
  online : t.socket.isSome = true → t.actor.disconnectedBytes = none ∧ bufferedSince notes = []
  offline : t.socket = none →
    t.actor.disconnectedBytes = some (Window.total List.length (sinceLoss notes)) ∧
      (Window.total List.length (sinceLoss notes) ≤ disconnectBufferBytes + 18 ∨
        ∃ before frame, notes = before ++ [.refused frame])
  kept : bufferedSince notes <:+ t.actor.backup.reverse

namespace OfflineOf

variable {box : SecretBox} {notes notes' : List LedgerNote} {t t' : Task} {act : Act}

theorem of_buffered (offline : OfflineOf notes t) (lawful : box.Lawful) {header : UInt8}
    {payload frame : Bytes} {crypto : CryptoHandler} (gone : t.socket = none)
    (gone' : t'.socket = none) (dead : t.actor.live = none)
    (room : t.actor.disconnectBufferFull payload = false)
    (boxed : t.actor.nextFrame box header payload = (crypto, frame))
    (writer : SameWriter (t.actor.pushBackup crypto frame) t'.actor)
    (ledger : t'.actor.disconnectedBytes =
      some (t.actor.disconnectedBytes.getD 0 + frame.length)) :
    OfflineOf (notes ++ [.buffered frame]) t' where
  online := by
    rw [gone']
    exact nofun
  offline := by
    intro _
    obtain ⟨before, -⟩ := offline.offline gone
    rw [ledger, before, sinceLoss_concat]
    refine ⟨congrArg some (Window.total_concat List.length _ _).symm, .inl ?_⟩
    have fits := Actor.le_of_room room before
    have length := Actor.length_nextFrame lawful boxed
    rw [Window.total_concat, length]
    simp only [macBytes, Packet.headerSize]
    omega
  kept := by
    obtain ⟨older, split⟩ := offline.kept
    rw [bufferedSince_concat, writer.backup, (Actor.pushBackup_of_offline dead _ _).1,
      List.reverse_cons, ← split]
    exact ⟨older, (List.append_assoc _ _ _).symm⟩

theorem step (offline : OfflineOf notes t) (lawful : box.Lawful) (running : t'.pc ≠ .ended)
    (stepped : LedgerStep box t act t' notes') : OfflineOf (notes ++ notes') t' := by
  cases stepped with
  | quiet same ledger writer =>
      rw [List.append_nil]
      refine ⟨?_, ?_, ?_⟩
      · rw [same, ledger]
        exact offline.online
      · rw [same, ledger]
        exact offline.offline
      · rw [writer.backup]
        exact offline.kept
  | again gone gone' ledger writer =>
      obtain ⟨before, bound⟩ := offline.offline gone
      rw [List.append_nil]
      refine ⟨?_, fun _ => ⟨?_, bound⟩, ?_⟩
      · rw [gone']
        exact nofun
      · rw [ledger, before]
        rfl
      · rw [writer.backup]
        exact offline.kept
  | ended _ finished writer noted => exact absurd finished running
  | lost closes there gone' ledger writer =>
      refine ⟨?_, fun _ => ⟨?_, .inl ?_⟩, ?_⟩
      · rw [gone']
        exact nofun
      · rw [ledger, (offline.online there).1, sinceLoss_concat]
        rfl
      · rw [sinceLoss_concat]
        exact (by decide : (0 : Int) ≤ disconnectBufferBytes + 18)
      · rw [bufferedSince_concat, writer.backup]
        exact offline.kept
  | buffered header payload crypto frame gone gone' dead room boxed writer ledger =>
      exact offline.of_buffered lawful gone gone' dead room boxed writer ledger
  | queued crypto frame there same live ledger writer =>
      obtain ⟨before, none⟩ := offline.online there
      have still : bufferedSince (notes ++ [.queued frame]) = [] :=
        (bufferedSince_concat _ _).trans none
      refine ⟨fun _ => ⟨ledger.trans before, still⟩, ?_, ?_⟩
      · intro gone'
        rw [← same, gone'] at there
        cases there
      · rw [still]
        exact List.nil_suffix
  | refused crypto frame there gone' live ledger writer =>
      obtain ⟨before, none⟩ := offline.online there
      refine ⟨?_, fun _ => ⟨?_, .inr ⟨notes, frame, rfl⟩⟩, ?_⟩
      · rw [gone']
        exact nofun
      · rw [ledger, before, sinceLoss_concat]
        exact congrArg some (Window.total_concat List.length [] frame).symm
      · rw [bufferedSince_concat, none]
        exact List.nil_suffix
  | revived there ledger writer =>
      refine ⟨fun _ => ⟨ledger, bufferedSince_concat _ _⟩, ?_, ?_⟩
      · intro gone'
        rw [gone'] at there
        cases there
      · rw [bufferedSince_concat]
        exact List.nil_suffix

end OfflineOf

section Runs

variable {box : SecretBox} {cfg : BackedConfig} {now : Instant} {notes : List LedgerNote}
  {t : Task}

theorem offlineOf_reachable (lawful : box.Lawful)
    (run : ((Task.system box cfg now).observe Task.ledgerNotes).Reachable notes t) :
    t.Placed ∧ (t.pc ≠ .ended → OfflineOf notes t) := by
  refine run.invariant (P := fun notes t => t.Placed ∧ (t.pc ≠ .ended → OfflineOf notes t)) ?_ ?_
  · refine ⟨.inl rfl, fun _ => ⟨fun _ => ⟨rfl, rfl⟩, nofun, List.nil_suffix⟩⟩
  · rintro notes t act t' noted ⟨placed, offline⟩ - stepped
    obtain ⟨effects, taken, rfl⟩ := Transition.System.step_of_observe stepped
    have moves := Task.step_moves taken
    refine ⟨Task.step_placed placed taken, fun running => ?_⟩
    have before := offline fun finished =>
      running ((congrArg _ (moves.ended placed finished)).trans finished)
    exact before.step lawful running (moves.ledgerStep placed)

/-- Between two steps of the loop the ledger is open exactly without a live socket. It
holds the length of what was written since the socket was lost. It is at most 18 bytes
over its limit, or the frame that closed the socket is all it holds. What was written
without a socket stays backed up until a recover succeeds, and a write is skipped exactly
when its payload does not fit, which changes nothing. -/
theorem offline_ledger (lawful : box.Lawful)
    (run : ((Task.system box cfg now).observe Task.ledgerNotes).Reachable notes t)
    (running : t.pc ≠ .ended) :
    (t.exchange = none → (t.actor.disconnectedBytes.isSome = true ↔ t.actor.live = none)) ∧
    (∀ buffered, t.actor.disconnectedBytes = some buffered →
      buffered = Window.total List.length (sinceLoss notes) ∧
        (buffered ≤ disconnectBufferBytes + 18 ∨
          ∃ before frame, notes = before ++ [.refused frame] ∧ buffered = frame.length)) ∧
    (∀ frame ∈ bufferedSince notes, frame ∈ t.actor.backup) ∧
    ∀ now accepts header payload, t.actor.shuttingDown = false →
      ((t.actor.write box now accepts header payload).2.1 = some .skipped ↔
        ∃ buffered, t.actor.disconnectedBytes = some buffered ∧
          disconnectBufferBytes < buffered + payload.length) ∧
      ((t.actor.write box now accepts header payload).2.1 = some .skipped →
        (t.actor.write box now accepts header payload).1 = t.actor) := by
  obtain ⟨-, reached⟩ := offlineOf_reachable lawful run
  have offline := reached running
  refine ⟨fun idle => ?_, fun buffered ledger => ?_, fun frame there => ?_, ?_⟩
  · rw [← t.socket_of_idle idle]
    constructor
    · intro opened
      by_contra live
      obtain ⟨closed, -⟩ := offline.online (Option.isSome_iff_ne_none.2 live)
      rw [closed] at opened
      cases opened
    · intro gone
      rw [(offline.offline gone).1]
      rfl
  · cases there : t.socket with
    | some socket =>
        obtain ⟨closed, -⟩ := offline.online (by rw [there]; rfl)
        cases closed.symm.trans ledger
    | none =>
        obtain ⟨counted, bound⟩ := offline.offline there
        obtain rfl := Option.some.inj (counted.symm.trans ledger)
        refine ⟨rfl, bound.imp_right ?_⟩
        rintro ⟨before, frame, rfl⟩
        refine ⟨before, frame, rfl, ?_⟩
        simp [sinceLoss_concat, Window.total]
  · exact List.mem_reverse.1 (offline.kept.subset there)
  · intro now accepts header payload up
    obtain ⟨skips, same⟩ := t.actor.write_skipped box now accepts header payload up
    exact ⟨skips.trans (t.actor.disconnectBufferFull_iff payload), same⟩

/-- A frame closes the socket, and another one is written without it. -/
theorem offline_ledger_two_writes :
    ∃ notes t, ((Task.system .naming (.client testKey none) 0).observe
        Task.ledgerNotes).Reachable notes t ∧ sinceLoss notes ≠ [] ∧
      bufferedSince notes ≠ [] ∧ (∀ frame ∈ bufferedSince notes, frame ∈ t.actor.backup) ∧
      (t.actor.disconnectedBytes.isSome = true ↔ t.actor.live = none) := by
  obtain ⟨notes, t, run, running, idle, charged, written⟩ : ∃ notes t,
      ((Task.system .naming (.client testKey none) 0).observe Task.ledgerNotes).Reachable notes t ∧
      t.pc ≠ .ended ∧ t.exchange = none ∧ sinceLoss notes ≠ [] ∧ bufferedSince notes ≠ [] :=
    ⟨_, _, .execute .start
      [.write 0 false terminalBuffer [1], .settle, .write 0 false terminalBuffer [2]] rfl,
      by decide, by decide, by decide, by decide⟩
  obtain ⟨opened, -, kept, -⟩ := offline_ledger SecretBox.naming_lawful run running
  exact ⟨notes, t, run, charged, written, kept, opened idle⟩

end Runs

end Backed

end Et
