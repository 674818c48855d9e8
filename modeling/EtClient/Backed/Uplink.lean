import EtClient.Backed.Backup
import EtClient.Backed.Link
import EtClient.Backed.Sockets

/-!
# From the actor to the peer

Every wire to the peer carries the frames the actor wrote, from the number that the
peer reported on that socket. The wire of the socket the actor holds is current: it
has all of them. A wire that was given up stays behind, but it never holds anything
else, so a peer that is still reading it accepts what it would accept anyway.

The peer stands on the wire of the socket it holds, behind everything it has accepted.
Hence what it accepts is a prefix of what the actor wrote, in the actor's own bytes.
-/

namespace Et

namespace Backed

/-- The steps that are neither an exchange, nor a frame, nor a delivery. -/
def Act.calm : Act → Bool
  | .recover _ | .frame _ | .deliver _ | .sequenceSent | .sequenceRead _ | .catchupSent
  | .catchupRead _ _ | .exchangeFails => false
  | _ => true

/-- A write ends no exchange, and what it does not encrypt it does not put on a wire. -/
theorem Actor.Writes.noting {box : SecretBox} {now : Instant} {accepts : Bool} {s s' : Actor}
    {header : UInt8} {payload : Bytes} {effects : List Effect}
    (writes : s.Writes box now accepts header payload s' effects) :
    (∀ live, .recovered live ∉ effects) ∧
      (encryptionsOf effects = [] → ∀ w : World, effects.foldl World.noting w = w) := by
  cases writes with
  | shutdown | skipped => exact ⟨by simp, fun _ _ => rfl⟩
  | buffered | queued | killed => exact ⟨by simp, fun silent => by cases silent⟩

/-- A calm step keeps the exchange and the reading half, ends no exchange, and puts
nothing on a wire unless it writes a packet. -/
theorem Task.step_calm {box : SecretBox} {t t' : Task} {act : Act} {effects : List Effect}
    (calm : act.calm = true) (stepped : t.step box act = some (t', effects)) :
    t'.exchange = t.exchange ∧ SameReader t.actor t'.actor ∧ (∀ live, .recovered live ∉ effects) ∧
      (encryptionsOf effects = [] → ∀ w : World, effects.foldl World.noting w = w) := by
  cases step_moves stepped with
  | write _ _ _ _ _ _ ready writes =>
      exact ⟨(serving_of_serves ready).1.symm, writes.reader.1, writes.noting⟩
  | tick _ _ _ _ _ _ ticks =>
      refine ⟨rfl, ticks.reader.1, ?_⟩
      cases ticks with
      | idle | closed => exact ⟨by simp, fun _ _ => rfl⟩
      | pinged _ _ _ _ _ _ _ _ writes => exact writes.noting
  | killSocket ready =>
      exact ⟨(serving_of_serves ready).1.symm, t.actor.sameReader_close, by simp, fun _ _ => rfl⟩
  | shutdown ready =>
      exact ⟨(serving_of_serves ready).1.symm, {}, by simp, fun _ _ => rfl⟩
  | socketLost => exact ⟨rfl, t.actor.sameReader_close, by simp, fun _ _ => rfl⟩
  | sendDead | finish => split <;> exact ⟨rfl, {}, by simp, fun _ _ => rfl⟩
  | close | notice | proceed | send | noticeFails | sendFails | dropConsumer =>
      exact ⟨rfl, {}, by simp, fun _ _ => rfl⟩
  | recover | frame | drained | rejected | opened | sequenceSent | answered | denied | catchupSent
  | revived | oversized | exchangeFails => cases calm

/-- A round of delivery touches neither the socket nor the wires. -/
theorem Task.step_deliver {box : SecretBox} {t t' : Task} {now : Instant} {effects : List Effect}
    (stepped : t.step box (.deliver now) = some (t', effects)) :
    SameWriter t.actor t'.actor ∧ t'.exchange = t.exchange ∧ t'.socket = t.socket ∧
      encryptionsOf effects = [] ∧ (∀ live, .recovered live ∉ effects) ∧
      ∀ w : World, effects.foldl World.noting w = w := by
  cases step_moves stepped with
  | drained => exact ⟨{}, rfl, rfl, rfl, by simp, fun _ => rfl⟩
  | rejected _ _ _ _ popped =>
      obtain ⟨_, _, _, _, _, ⟨_, rfl⟩ | ⟨_, _, rfl⟩, rfl, rfl⟩ := Actor.deliverOne_rejected popped
      · exact ⟨{}, rfl, rfl, rfl, by simp, fun _ => rfl⟩
      · exact ⟨{}, rfl, rfl, rfl, by simp, fun _ => rfl⟩
  | opened _ _ _ _ _ popped =>
      obtain ⟨_, _, _, _, _, _, _, _, rfl, rfl, rfl⟩ := Actor.deliverOne_opened popped
      exact ⟨{}, rfl, rfl, rfl, by simp, fun _ => rfl⟩

/-- Only the calm steps write packets. -/
theorem Task.step_uncalm {box : SecretBox} {t t' : Task} {act : Act} {effects : List Effect}
    (uncalm : act.calm = false) (stepped : t.step box act = some (t', effects)) :
    encryptionsOf effects = [] := by
  cases step_moves stepped with
  | drained | rejected | opened =>
      obtain ⟨_, _, _, silent, _⟩ := Task.step_deliver stepped
      exact silent
  | recover | frame | sequenceSent | answered | denied | catchupSent | revived | oversized
  | exchangeFails => rfl
  | write | tick | killSocket | shutdown | socketLost | close | notice | proceed | send
  | noticeFails | sendFails | sendDead | finish | dropConsumer => cases uncalm

/-- Only a recover starts an exchange, and only an exchange ends one. -/
theorem Task.step_exchange {box : SecretBox} {t t' : Task} {act : Act} {effects : List Effect}
    (stepped : t.step box act = some (t', effects)) :
    (∃ stream, act = .recover stream ∧ effects = []) ∨
      (t'.exchange ≠ none → t.exchange ≠ none ∧ ∀ live, .recovered live ∉ effects) ∧
        ∀ live, .recovered live ∈ effects → t.exchange ≠ none := by
  by_cases calm : act.calm = true
  · obtain ⟨exchange, _, quiet, _⟩ := Task.step_calm calm stepped
    exact .inr ⟨fun some => ⟨exchange ▸ some, quiet⟩, fun live ended => absurd ended (quiet live)⟩
  cases step_moves stepped with
  | recover stream => exact .inl ⟨stream, rfl, rfl⟩
  | frame => exact .inr ⟨fun some => ⟨some, by simp⟩, by simp⟩
  | drained | rejected | opened =>
      obtain ⟨_, exchange, _, _, quiet, _⟩ := Task.step_deliver stepped
      exact .inr ⟨fun some => ⟨exchange ▸ some, quiet⟩, fun live ended => absurd ended (quiet live)⟩
  | sequenceSent e under | answered _ e _ under | catchupSent e _ under =>
      have some : t.exchange ≠ none := by simp [under]
      exact .inr ⟨fun _ => ⟨some, by simp⟩, fun _ _ => some⟩
  | denied _ e _ under | revived _ _ e under | oversized _ _ e under | exchangeFails e under =>
      have some : t.exchange ≠ none := by simp [under]
      exact .inr ⟨fun going => absurd rfl going, fun _ _ => some⟩
  | write | tick | killSocket | shutdown | socketLost | close | notice | proceed | send
  | noticeFails | sendFails | sendDead | finish | dropConsumer => exact absurd rfl calm

/-- What the wire to the peer holds while an exchange runs. -/
def Phase.UpReady (frames : List Bytes) (wire : Wire) : Phase → Prop
  | .writeSequence | .readSequence => wire.catchup = none
  | .writeCatchup ours =>
      wire.catchup = none ∧ ∃ k : Nat, wire.lane.asked = some (k : Int) ∧ k ≤ frames.length ∧
        ours.buffer = frames.drop k
  | .readCatchup => wire.lane.Current frames

/-- The peer reads this socket, or will again if its exchange fails. -/
def Peer.Holds (p : Peer) (socket : SocketId) : Prop :=
  p.live = some socket ∨ ∃ e, p.exchange = some e ∧ e.old = some socket

structure UpLink (frames : List Bytes) (w : World) : Prop where
  window : BackupOf frames w.task.actor
  carries : ∀ socket, (w.up socket).lane.Carries frames
  current : ∀ socket, w.task.socket = some socket → (w.up socket).lane.Current frames
  exchange : ∀ e, w.task.exchange = some e →
    e.phase.UpReady frames (w.up e.stream) ∧ w.dialed e.stream = true
  undialed : ∀ socket, w.dialed socket = false → (w.up socket).catchup = none
  accepted : w.peer.accepted <+: frames
  stands : ∀ socket, w.peer.Holds socket →
    (w.up socket).lane.StandsAt w.peer.accepted.length
  reported : ∀ e, w.peer.exchange = some e →
    (w.up e.stream).lane.asked = some (w.peer.accepted.length : Int) ∧ (w.up e.stream).read = 0

namespace UpLink

variable {box : SecretBox} {frames : List Bytes} {w : World} {t' : Task} {effects : List Effect}

/-- A step that keeps the writing half, the exchange and the wires, and at most drops
the socket. -/
theorem of_calm {down : SocketId → Wire} (h : UpLink frames w)
    (same : SameWriter w.task.actor t'.actor) (exchange : t'.exchange = w.task.exchange)
    (socket : t'.socket = w.task.socket ∨ t'.socket = none) :
    UpLink frames { w with task := t', down := down } where
  window := h.window.of_same same
  carries := h.carries
  current σ held := by
    obtain kept | dropped := socket
    · exact h.current σ (kept.symm.trans held)
    · change t'.socket = _ at held
      rw [dropped] at held
      cases held
  exchange e under := h.exchange e (exchange.symm.trans under)
  undialed := h.undialed
  accepted := h.accepted
  stands := h.stands
  reported := h.reported

/-- A packet written: every wire still carries the longer sequence, and the one that
took the frame is current. -/
theorem of_written {act : Act} (h : UpLink frames w)
    (stepped : w.task.step box act = some (t', effects)) (wrote : encryptionsOf effects ≠ []) :
    UpLink (frames ++ framesOf effects) { effects.foldl World.noting w with task := t' } := by
  have window := h.window.step (Task.step_writer stepped)
  obtain ⟨idle, idle'⟩ := Task.step_idle_of_encrypted stepped wrote
  obtain ⟨_, quiet⟩ | ⟨header, payload, crypto, frame, handed, _, _, rfl, given⟩ :=
    Task.step_writer stepped
  · exact absurd quiet.encryptions wrote
  have one : framesOf (.encrypted crypto.nonce header payload frame :: handed ++ [.wrote none]) =
      [frame] := by
    rw [framesOf, (given.boxed crypto.nonce header payload).1]
    rfl
  rw [one] at window ⊢
  have grows : frames <+: frames ++ [frame] := List.prefix_append _ _
  have unheld : ∀ e, t'.exchange ≠ some e := by
    intro e under
    rw [idle'] at under
    cases under
  obtain ⟨offline, rfl⟩ | ⟨socket, _, live, live', rfl⟩ := given
  · refine ⟨window, fun σ => (h.carries σ).grow grows, ?_, fun e under => absurd under (unheld e),
      h.undialed, h.accepted.trans grows, h.stands, h.reported⟩
    intro σ held
    change t'.socket = _ at held
    rw [t'.socket_of_idle idle', offline] at held
    cases held
  · have held := h.current socket ((w.task.socket_of_idle idle).trans live)
    -- Only the live socket's wire changes, and only by the frame behind its others.
    let up := ((.encrypted crypto.nonce header payload frame ::
      [.queued socket (framePacket frame)] ++ [.wrote none] : List Effect).foldl World.noting w).up
    have taker : (up socket).lane = { (w.up socket).lane with
        sent := (w.up socket).lane.sent ++ [frame] } := by
      show (Function.update w.up socket _ socket).lane = _
      rw [Function.update_self, Wire.lane_push]
      rfl
    have others : ∀ σ, σ ≠ socket → up σ = w.up σ := fun σ other => Function.update_of_ne other _ _
    have keeps : ∀ σ, (up σ).sequence = (w.up σ).sequence ∧ (up σ).catchup = (w.up σ).catchup ∧
        (up σ).read = (w.up σ).read := by
      intro σ
      by_cases same : σ = socket
      · subst same
        show (Function.update w.up σ _ σ).sequence = _ ∧ (Function.update w.up σ _ σ).catchup = _ ∧
          (Function.update w.up σ _ σ).read = _
        rw [Function.update_self]
        exact ⟨rfl, rfl, rfl⟩
      · rw [others σ same]
        exact ⟨rfl, rfl, rfl⟩
    refine ⟨window, ?_, ?_, fun e under => absurd under (unheld e), ?_, h.accepted.trans grows,
      ?_, ?_⟩
    · intro σ
      show (up σ).lane.Carries _
      by_cases same : σ = socket
      · rw [same, taker]
        exact (held.push frame).carries
      · rw [others σ same]
        exact (h.carries σ).grow grows
    · intro σ now
      change t'.socket = _ at now
      rw [t'.socket_of_idle idle', live'] at now
      cases now
      show (up socket).lane.Current _
      rw [taker]
      exact held.push frame
    · intro σ new
      exact (keeps σ).2.1.trans (h.undialed σ new)
    · intro σ holds
      obtain ⟨sequence, catchup, read⟩ := keeps σ
      exact Wire.standsAt_congr sequence catchup read (h.stands σ holds)
    · intro e under
      obtain ⟨sequence, _, read⟩ := keeps e.stream
      obtain ⟨asked, unread⟩ := h.reported e under
      exact ⟨(congrArg (Option.map SequenceHeader.value) sequence).trans asked, read.trans unread⟩

/-- A recover sets the socket aside and starts on a new one. -/
theorem of_recover {stream : SocketId} (h : UpLink frames w) (new : w.dialed stream = false)
    (stepped : w.task.step box (.recover stream) = some (t', effects)) :
    UpLink frames { effects.foldl World.noting (w.taking (.recover stream)) with task := t' } := by
  cases Task.step_moves stepped with
  | recover _ ready =>
      have idle := (Task.serving_of_serves ready).1
      refine ⟨h.window.of_same {}, h.carries, ?_, ?_, ?_, h.accepted, h.stands, h.reported⟩
      · intro σ held
        exact h.current σ ((w.task.socket_of_idle idle).trans held)
      · intro e under
        cases under
        exact ⟨h.undialed stream new, Function.update_self _ _ _⟩
      · intro σ undialed
        change Function.update w.dialed stream true σ = false at undialed
        by_cases same : σ = stream
        · rw [same, Function.update_self] at undialed
          cases undialed
        · rw [Function.update_of_ne same] at undialed
          exact h.undialed σ undialed

/-- An exchange that fails puts the socket back. -/
theorem of_failed {e : Exchange} (h : UpLink frames w) (under : w.task.exchange = some e) :
    UpLink frames { w with task := w.task.restored e } where
  window := h.window.of_same {}
  carries := h.carries
  current σ held := by
    apply h.current σ
    rw [Task.socket, under]
    exact held
  exchange e' under' := by cases under'
  undialed := h.undialed
  accepted := h.accepted
  stands := h.stands
  reported := h.reported

/-- A step of the exchange moves on to the next phase. -/
theorem of_phase {e : Exchange} {phase : Phase} {down : SocketId → Wire} (h : UpLink frames w)
    (under : w.task.exchange = some e) (ready : phase.UpReady frames (w.up e.stream)) :
    UpLink frames { w with
      task := { w.task with exchange := some { e with phase := phase } }, down := down } where
  window := h.window
  carries := h.carries
  current σ held := by
    apply h.current σ
    rw [Task.socket, under]
    exact held
  exchange e' under' := by
    cases under'
    exact ⟨ready, (h.exchange e under).2⟩
  undialed := h.undialed
  accepted := h.accepted
  stands := h.stands
  reported := h.reported

/-- The catch-up goes on the wire, which is current from then on. -/
theorem of_catchupSent {e : Exchange} {ours : CatchupBuffer} (h : UpLink frames w)
    (under : w.task.exchange = some e) (phase : e.phase = .writeCatchup ours) :
    UpLink frames { w.noting (.sentCatchup e.stream ours) with
      task := { w.task with exchange := some { e with phase := .readCatchup } } } := by
  obtain ⟨ready, dialed⟩ := h.exchange e under
  rw [phase] at ready
  obtain ⟨unanswered, k, asked, within, all⟩ := ready
  have silent := (h.carries e.stream).silent (by simp [Wire.lane, unanswered])
  let up := (w.noting (.sentCatchup e.stream ours)).up
  have this : up e.stream = { w.up e.stream with catchup := some ours } :=
    Function.update_self _ _ _
  have others : ∀ σ, σ ≠ e.stream → up σ = w.up σ := fun σ other => Function.update_of_ne other _ _
  have current : (up e.stream).lane.Current frames := by
    rw [this]
    refine ⟨k, ours.buffer, asked, rfl, within, ?_⟩
    rw [all]
    show _ ++ (w.up e.stream).lane.sent = _
    rw [silent.1, List.append_nil]
  -- A wire that somebody holds has been answered, so it is not this one.
  have apart : ∀ {σ : SocketId} {entries : List Bytes},
      (w.up σ).lane.catchup = some entries → σ ≠ e.stream := by
    rintro σ entries answered rfl
    simp [Wire.lane, unanswered] at answered
  refine ⟨h.window, ?_, ?_, ?_, ?_, h.accepted, ?_, ?_⟩
  · intro σ
    show (up σ).lane.Carries _
    by_cases same : σ = e.stream
    · rw [same]
      exact current.carries
    · rw [others σ same]
      exact h.carries σ
  · intro σ held
    have before := h.current σ (by rw [Task.socket, under]; exact held)
    obtain ⟨_, entries, _, answered, _⟩ := id before
    show (up σ).lane.Current _
    rw [others σ (apart answered)]
    exact before
  · intro e' under'
    cases under'
    exact ⟨current, dialed⟩
  · intro σ undialed
    show (up σ).catchup = none
    by_cases same : σ = e.stream
    · rw [same] at undialed
      exact absurd dialed (by rw [show w.dialed e.stream = false from undialed]; decide)
    · rw [others σ same]
      exact h.undialed σ undialed
  · intro σ holds
    have before := h.stands σ holds
    obtain ⟨_, entries, _, answered, _⟩ := id before
    show (up σ).lane.StandsAt _
    rw [others σ (apart answered)]
    exact before
  · intro e' under'
    obtain ⟨asked', unread⟩ := h.reported e' under'
    show (up e'.stream).lane.asked = _ ∧ (up e'.stream).read = 0
    by_cases same : e'.stream = e.stream
    · rw [same, this]
      rw [same] at asked' unread
      exact ⟨asked', unread⟩
    · rw [others _ same]
      exact ⟨asked', unread⟩

/-- An exchange that succeeds makes the new socket the held one. -/
theorem of_recovered {e : Exchange} {now : Instant} {entries : List Bytes} (h : UpLink frames w)
    (under : w.task.exchange = some e) (phase : e.phase = .readCatchup) :
    UpLink frames { w with
      task := w.task.served (w.task.actor.revive now e.stream entries) } where
  window := h.window.of_same {}
  carries := h.carries
  current σ held := by
    cases held
    have ready := (h.exchange e under).1
    rw [phase] at ready
    exact ready
  exchange e' under' := by cases under'
  undialed := h.undialed
  accepted := h.accepted
  stands := h.stands
  reported := h.reported

/-- The number that is read is the one the peer reported on this socket. -/
theorem of_answered {e : Exchange} {remote : SequenceHeader} {ours : CatchupBuffer}
    (h : UpLink frames w) (under : w.task.exchange = some e) (phase : e.phase = .readSequence)
    (offered : (w.up e.stream).sequence = some remote)
    (chosen : w.task.actor.catchup remote = .ok ours) :
    UpLink frames { w with
      task := { w.task with exchange := some { e with phase := .writeCatchup ours } } } := by
  have ready := (h.exchange e under).1
  rw [phase] at ready
  obtain ⟨k, value, within, all⟩ := h.window.of_catchup_eq_ok chosen
  refine h.of_phase under ⟨ready, k, ?_, within, all⟩
  simp only [Wire.lane, offered, Option.map_some, value]

/-- A step of the actor keeps the link to the peer. -/
theorem actor_step {act : Act} (h : UpLink frames w) (placed : w.task.Placed)
    (offered : w.offers act = true) (stepped : w.task.step box act = some (t', effects)) :
    UpLink (frames ++ framesOf effects)
      { effects.foldl World.noting (w.taking act) with task := t' } := by
  by_cases calm : act.calm = true
  · have taking : w.taking act = w := by cases act <;> first | rfl | cases calm
    rw [taking]
    by_cases wrote : encryptionsOf effects = []
    · obtain ⟨exchange, _, quiet, silent⟩ := Task.step_calm calm stepped
      have same : SameWriter w.task.actor t'.actor := by
        obtain ⟨same, _⟩ | ⟨header, payload, crypto, frame, handed, _, _, rfl, given⟩ :=
          Task.step_writer stepped
        · exact same
        · rw [(given.boxed crypto.nonce header payload).1] at wrote
          cases wrote
      rw [framesOf, wrote, List.map_nil, List.append_nil, silent wrote w]
      exact h.of_calm same exchange
        ((Task.step_socket placed stepped).resolve_left (quiet true))
    · exact h.of_written stepped wrote
  have silent := Task.step_uncalm (by simpa using calm) stepped
  rw [framesOf, silent, List.map_nil, List.append_nil]
  cases Task.step_moves stepped with
  | recover stream => exact h.of_recover (by simpa [World.offers] using offered) stepped
  | frame bytes place idle held =>
      obtain ⟨socket, live⟩ := Option.isSome_iff_exists.mp held
      have taking : w.taking (.frame bytes) =
          { w with down := Function.update w.down socket (w.down socket).advance } := by
        simp only [World.taking, live]
      rw [taking]
      exact h.of_calm {} rfl (.inl rfl)
  | drained | rejected | opened =>
      obtain ⟨same, exchange, socket, _, _, wires⟩ := Task.step_deliver stepped
      rw [wires]
      exact h.of_calm same exchange (.inl socket)
  | sequenceSent e under phase =>
      have ready := (h.exchange e under).1
      rw [phase] at ready
      exact h.of_phase under ready
  | answered remote e ours under phase chosen =>
      simp only [World.offers, under, decide_eq_true_eq] at offered
      exact h.of_answered under phase offered chosen
  | catchupSent e ours under phase => exact h.of_catchupSent under phase
  | revived now theirs e under phase => exact h.of_recovered under phase
  | denied _ e _ under | oversized _ _ e under | exchangeFails e under => exact h.of_failed under
  | write | tick | killSocket | shutdown | socketLost | close | notice | proceed | send
  | noticeFails | sendFails | sendDead | finish | dropConsumer => exact absurd rfl calm

/-- The peer reports on a socket where nothing has happened in this direction yet. -/
theorem of_report {socket : SocketId} (h : UpLink frames w)
    (unreported : (w.up socket).sequence = none) (small : w.peer.accepted.length < 2 ^ 31) :
    UpLink frames { w with
      peer := { w.peer with live := none, exchange := some ⟨socket, w.peer.live⟩ }
      up := Function.update w.up socket
        { w.up socket with sequence := some (.of w.peer.accepted.length) } } := by
  -- Whoever stands on a wire has a number there, so nobody stands on this one.
  have apart : ∀ {σ : SocketId} {k : Nat}, (w.up σ).lane.asked = some (k : Int) → σ ≠ socket := by
    rintro σ k asked rfl
    simp [Wire.lane, unreported] at asked
  have unanswered : (w.up socket).catchup = none := by
    by_contra some
    obtain ⟨theirs, answered⟩ := Option.ne_none_iff_exists'.mp some
    obtain ⟨k, asked, _⟩ := (h.carries socket).span theirs.buffer (by simp [Wire.lane, answered])
    exact apart asked rfl
  let up := Function.update w.up socket
    { w.up socket with sequence := some (.of w.peer.accepted.length) }
  have this : up socket = { w.up socket with sequence := some (.of w.peer.accepted.length) } :=
    Function.update_self _ _ _
  have others : ∀ σ, σ ≠ socket → up σ = w.up σ := fun σ other => Function.update_of_ne other _ _
  have catchup : ∀ σ, (up σ).catchup = (w.up σ).catchup := by
    intro σ
    by_cases same : σ = socket
    · rw [same, this]
    · rw [others σ same]
  have silent := (h.carries socket).silent (by simp [Wire.lane, unanswered])
  refine ⟨h.window, ?_, ?_, ?_, ?_, h.accepted, ?_, ?_⟩
  · intro σ
    show (up σ).lane.Carries _
    by_cases same : σ = socket
    · rw [same, this]
      refine ⟨fun _ => silent, ?_⟩
      intro entries answered
      simp [Wire.lane, unanswered] at answered
    · rw [others σ same]
      exact h.carries σ
  · intro σ held
    have before := h.current σ held
    obtain ⟨k, _, asked, _⟩ := id before
    show (up σ).lane.Current _
    rw [others σ (apart asked)]
    exact before
  · intro e under
    obtain ⟨ready, dialed⟩ := h.exchange e under
    refine ⟨?_, dialed⟩
    show e.phase.UpReady frames (up e.stream)
    by_cases same : e.stream = socket
    · cases phase : e.phase with
      | writeSequence | readSequence => exact (catchup e.stream).trans (same ▸ unanswered)
      | writeCatchup ours =>
          rw [phase] at ready
          obtain ⟨_, k, asked, _⟩ := ready
          exact absurd same (apart asked)
      | readCatchup =>
          rw [phase] at ready
          obtain ⟨k, _, asked, _⟩ := ready
          exact absurd same (apart asked)
    · rw [others _ same]
      exact ready
  · intro σ undialed
    exact (catchup σ).trans (h.undialed σ undialed)
  · intro σ holds
    have held : w.peer.Holds σ := by
      obtain live | ⟨e, under, old⟩ := holds
      · cases live
      · cases under
        exact .inl old
    have before := h.stands σ held
    obtain ⟨k, _, asked, _⟩ := id before
    show (up σ).lane.StandsAt _
    rw [others σ (apart asked)]
    exact before
  · intro e under
    cases under
    show (up socket).lane.asked = _ ∧ (up socket).read = 0
    rw [this]
    exact ⟨congrArg some (SequenceHeader.value_of small), silent.2⟩

/-- The peer reads the actor's catch-up: these are the frames behind the ones it has. -/
theorem of_finish {e : PeerExchange} {theirs : CatchupBuffer} (h : UpLink frames w)
    (under : w.peer.exchange = some e) (answered : (w.up e.stream).catchup = some theirs) :
    UpLink frames { w with
      peer := { w.peer with
        accepted := w.peer.accepted ++ theirs.buffer
        live := some e.stream
        exchange := none } } := by
  obtain ⟨asked, unread⟩ := h.reported e under
  have lane : (w.up e.stream).lane.catchup = some theirs.buffer := by simp [Wire.lane, answered]
  obtain ⟨k, asked', _, span⟩ := (h.carries e.stream).span theirs.buffer lane
  obtain rfl := Lane.eq_of_asked asked asked'
  refine ⟨h.window, h.carries, h.current, h.exchange, h.undialed, ?_, ?_, (by rintro _ ⟨⟩)⟩
  · exact Lane.append_prefix h.accepted ((List.prefix_append _ _).trans span)
  · intro σ holds
    obtain live | ⟨_, none, _⟩ := holds
    · cases live
      refine ⟨w.peer.accepted.length, theirs.buffer, asked, lane, ?_⟩
      show (w.peer.accepted ++ theirs.buffer).length = _ + (w.up e.stream).read
      rw [List.length_append, unread, Nat.add_zero]
    · cases none

/-- The peer takes the next frame from the socket it reads. -/
theorem of_accept {socket : SocketId} {body : Bytes} (h : UpLink frames w)
    (idle : w.peer.exchange = none) (live : w.peer.live = some socket)
    (next : (w.up socket).next? = some body) :
    UpLink frames { w with
      peer := { w.peer with accepted := w.peer.accepted ++ [body] }
      up := Function.update w.up socket (w.up socket).advance } := by
  have stands := h.stands socket (.inl live)
  have found := (h.carries socket).next stands (Wire.lane_next next)
  let up := Function.update w.up socket (w.up socket).advance
  have this : up socket = (w.up socket).advance := Function.update_self _ _ _
  have others : ∀ σ, σ ≠ socket → up σ = w.up σ := fun σ other => Function.update_of_ne other _ _
  refine ⟨h.window, ?_, ?_, ?_, ?_, ?_, ?_, ?_⟩
  · intro σ
    show (up σ).lane.Carries _
    by_cases same : σ = socket
    · rw [same, this]
      exact (h.carries socket).take stands
    · rw [others σ same]
      exact h.carries σ
  · intro σ held
    have before := h.current σ held
    show (up σ).lane.Current _
    by_cases same : σ = socket
    · rw [same, this]
      rw [same] at before
      exact before
    · rw [others σ same]
      exact before
  · intro e under
    obtain ⟨ready, dialed⟩ := h.exchange e under
    refine ⟨?_, dialed⟩
    show e.phase.UpReady frames (up e.stream)
    by_cases same : e.stream = socket
    · rw [same, this]
      rw [same] at ready
      cases phase : e.phase <;> rw [phase] at ready <;> exact ready
    · rw [others _ same]
      exact ready
  · intro σ undialed
    have before := h.undialed σ undialed
    show (up σ).catchup = none
    by_cases same : σ = socket
    · rw [same, this]
      rw [same] at before
      exact before
    · rw [others σ same]
      exact before
  · apply Lane.append_prefix h.accepted
    apply Lane.append_prefix_drop List.nil_prefix
    exact found
  · intro σ holds
    obtain same | ⟨e, under, _⟩ := holds
    · have here : socket = σ := Option.some.inj (live.symm.trans same)
      subst here
      show (up socket).lane.StandsAt _
      rw [this, List.length_append]
      exact stands.take
    · rw [idle] at under
      cases under
  · intro e under
    exact absurd (idle.symm.trans under) nofun

/-- A step of the peer keeps the link. -/
theorem peer_step {cfg : BackedConfig} {act : PeerAct} {w' : World} (h : UpLink frames w)
    (stepped : w.peerStep box cfg act = some w') : UpLink frames w' := by
  cases act with
  | write header payload =>
      cases stepped
      exact ⟨h.window, h.carries, h.current, h.exchange, h.undialed, h.accepted, h.stands,
        h.reported⟩
  | send socket =>
      simp only [World.peerStep] at stepped
      split at stepped
      · obtain ⟨frame, _, rfl⟩ := Option.map_eq_some_iff.mp stepped
        exact ⟨h.window, h.carries, h.current, h.exchange, h.undialed, h.accepted, h.stands,
          h.reported⟩
      · cases stepped
  | report socket =>
      simp only [World.peerStep] at stepped
      split at stepped <;> cases stepped
      obtain ⟨_, unreported, small⟩ := ‹_ ∧ _ ∧ _›
      exact h.of_report unreported small
  | answer =>
      obtain ⟨e, _, inner⟩ := Option.bind_eq_some_iff.mp stepped
      dsimp only at inner
      split at inner
      · split at inner <;> cases inner
        exact ⟨h.window, h.carries, h.current, h.exchange, h.undialed, h.accepted, h.stands,
          h.reported⟩
      · cases inner
  | finish =>
      obtain ⟨e, under, inner⟩ := Option.bind_eq_some_iff.mp stepped
      split at inner
      · obtain ⟨theirs, answered, rfl⟩ := Option.map_eq_some_iff.mp inner
        exact h.of_finish under answered
      · cases inner
  | fail =>
      obtain ⟨e, under, rfl⟩ := Option.map_eq_some_iff.mp stepped
      refine ⟨h.window, h.carries, h.current, h.exchange, h.undialed, h.accepted, ?_, nofun⟩
      intro σ holds
      obtain live | ⟨_, none, _⟩ := holds
      · exact h.stands σ (.inr ⟨e, under, live⟩)
      · cases none
  | accept =>
      simp only [World.peerStep] at stepped
      split at stepped
      · obtain ⟨socket, live, inner⟩ := Option.bind_eq_some_iff.mp stepped
        obtain ⟨body, next, rfl⟩ := Option.map_eq_some_iff.mp inner
        exact h.of_accept ‹_› live next
      · cases stepped
  | lose =>
      simp only [World.peerStep] at stepped
      split at stepped <;> cases stepped
      rename_i idle
      refine ⟨h.window, h.carries, h.current, h.exchange, h.undialed, h.accepted, ?_, h.reported⟩
      intro σ holds
      obtain live | ⟨e, under, _⟩ := holds
      · cases live
      · exact absurd (idle.symm.trans under) nofun

end UpLink

end Backed

end Et
