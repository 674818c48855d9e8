import EtClient.Session.CancelSafety
import EtClient.Session.Terminal

/-!
# The link under the tunnels

Two engines are joined by a session. What one of them sends, the pump takes from the engine's queue
and writes to the client; the reply of the write is ignored. What the server writes for the engine
comes through the client to the pump, which feeds it to the engine. The server may write anything.

In both directions this is a link that keeps the order and carries every frame once, across any
number of sockets. It is not a link that loses nothing: a write that is refused, since too much was
written without a socket or since the session is over, takes its frame along, and the frames behind
it are carried none the less.

The session starts with an engine here, as one with reverse tunnels does. A future of `next_event`
that is dropped while it waits for a reply leaves its write in the actor's queue, so that there may
be several of them.
-/

namespace Et

namespace Session

open Backed Client

/-- A packet of a tunnel. -/
def isForward (packet : UInt8 × Bytes) : Bool := isPortForwardHeader packet.1

structure Relay where
  sitting : Sitting
  /-- What the engine has sent and the pump has not taken. -/
  outbound : List Packet
  /-- The writes of the pump in the actor's queue. -/
  pending : List Packet

inductive RelayAct
  /-- The engine sends a frame. -/
  | emits (frame : Packet)
  /-- `pf_outbound.recv()` returns. -/
  | takes
  /-- The write of the pump gets its slot, or there is no actor. -/
  | submits (ok : Bool)
  /-- The actor takes the next of these writes. -/
  | serves (now : Instant) (accepts : Bool)
  /-- A write is dropped with the queue. -/
  | loses
  | replies
  /-- Any other step of the session and its server. -/
  | other (act : SittingAct)

inductive RelayNote
  | emitted (frame : Packet)
  /-- The write of a frame returned; the second part says whether it returned `Ok(())`. -/
  | wrote (outcome : Packet × Bool)
  | sitting (n : SittingNote)

/-- Not a step of the pump that is one here, and no write of a tunnel. -/
def isAside : SittingAct → Bool
  | .pump (.outbound (some _)) | .pump (.submit _) | .pump .reply => false
  | .client (.world (.actor (.write _ _ header _))) => !isPortForwardHeader header
  | _ => true

namespace Relay

/-- The frame that the pump has to write. -/
def frame? (r : Relay) : Option Packet :=
  match r.sitting.session.place with
  | .submitting frame _ => some frame
  | _ => none

/-- A step of the rest of the session, and what is told of it. -/
def sat (box : SecretBox) (codec : TerminalCodec) (cfg : BackedConfig) (r : Relay)
    (act : SittingAct) (outbound pending : List Packet)
    (tell : List SittingNote → List RelayNote) :
    Option (Relay × List RelayNote) :=
  (r.sitting.step box codec cfg act).map fun (sitting, notes) =>
    (⟨sitting, outbound, pending⟩, tell notes)

def step (box : SecretBox) (codec : TerminalCodec) (cfg : BackedConfig) (r : Relay) :
    RelayAct → Option (Relay × List RelayNote)
  | .emits frame =>
      if isPortForwardHeader frame.header && r.sitting.session.running then
        some ({ r with outbound := r.outbound ++ [frame] }, [.emitted frame])
      else none
  | .takes =>
      match r.outbound with
      | frame :: rest =>
          r.sat box codec cfg (.pump (.outbound (some frame))) rest r.pending (·.map .sitting)
      | [] => none
  | .submits ok =>
      match r.frame? with
      | some frame =>
          if ok then
            r.sat box codec cfg (.pump (.submit true)) r.outbound (r.pending ++ [frame])
              (·.map .sitting)
          else if r.pending = [] ∧ r.sitting.client.world.task.pc = .ended then
            r.sat box codec cfg (.pump (.submit false)) r.outbound r.pending
              (·.map .sitting ++ [.wrote (frame, false)])
          else none
      | none => none
  | .serves now accepts =>
      match r.pending with
      | frame :: rest =>
          r.sat box codec cfg
            (.client (.world (.actor (.write now accepts frame.header frame.payload))))
            r.outbound rest fun notes => notes.map .sitting ++
              [.wrote (frame, decide (.wrote none ∈ backedOf (clientOf notes)))]
      | [] => none
  | .loses =>
      match r.pending with
      | frame :: rest =>
          if r.sitting.client.world.task.pc = .ended then
            some ({ r with pending := rest }, [.wrote (frame, false)])
          else none
      | [] => none
  | .replies =>
      if r.pending = [] then
        r.sat box codec cfg (.pump .reply) r.outbound r.pending (·.map .sitting)
      else none
  | .other act =>
      if isAside act then r.sat box codec cfg act r.outbound r.pending (·.map .sitting) else none

/-- The future of `next_event` is dropped. -/
def drops : RelayAct → Bool
  | .other (.pump act) => act.drops
  | _ => false

/-- A future is dropped only where it owns nothing. -/
def Spares (r : Relay) (act : RelayAct) : Prop :=
  drops act = true → r.sitting.session.place.empty = true

instance (r : Relay) (act : RelayAct) : Decidable (r.Spares act) :=
  inferInstanceAs (Decidable (_ → _))

/-- A session with an engine, as `start` returns it for reverse tunnels. -/
def engaged : TerminalSession := ⟨.idle, true, true, true, false⟩

def system (box : SecretBox) (codec : TerminalCodec) (cfg : BackedConfig) (now : Instant) :
    Transition.System Relay RelayAct RelayNote where
  start := ⟨(Sitting.system box codec cfg now engaged).start, [], []⟩
  step := step box codec cfg

/-- What each step does. -/
inductive Moves (box : SecretBox) (codec : TerminalCodec) (cfg : BackedConfig) (r : Relay) :
    RelayAct → Relay → List RelayNote → Prop
  | emitted (frame : Packet) : isPortForwardHeader frame.header = true →
      Moves box codec cfg r (.emits frame) { r with outbound := r.outbound ++ [frame] }
        [.emitted frame]
  | taken (frame : Packet) (rest : List Packet) (sitting : Sitting) (notes : List SittingNote) :
      r.outbound = frame :: rest →
      r.sitting.step box codec cfg (.pump (.outbound (some frame))) = some (sitting, notes) →
      Moves box codec cfg r .takes ⟨sitting, rest, r.pending⟩ (notes.map .sitting)
  | submitted (frame : Packet) (sitting : Sitting) (notes : List SittingNote) :
      r.frame? = some frame →
      r.sitting.step box codec cfg (.pump (.submit true)) = some (sitting, notes) →
      Moves box codec cfg r (.submits true) ⟨sitting, r.outbound, r.pending ++ [frame]⟩
        (notes.map .sitting)
  | refused (frame : Packet) (sitting : Sitting) (notes : List SittingNote) :
      r.frame? = some frame → r.pending = [] →
      r.sitting.step box codec cfg (.pump (.submit false)) = some (sitting, notes) →
      Moves box codec cfg r (.submits false) ⟨sitting, r.outbound, r.pending⟩
        (notes.map .sitting ++ [.wrote (frame, false)])
  | served (now : Instant) (accepts : Bool) (frame : Packet) (rest : List Packet)
      (sitting : Sitting) (notes : List SittingNote) : r.pending = frame :: rest →
      r.sitting.step box codec cfg
        (.client (.world (.actor (.write now accepts frame.header frame.payload)))) =
          some (sitting, notes) →
      Moves box codec cfg r (.serves now accepts) ⟨sitting, r.outbound, rest⟩
        (notes.map .sitting ++
          [.wrote (frame, decide (.wrote none ∈ backedOf (clientOf notes)))])
  | lost (frame : Packet) (rest : List Packet) : r.pending = frame :: rest →
      Moves box codec cfg r .loses { r with pending := rest } [.wrote (frame, false)]
  | other (a : RelayAct) (act : SittingAct) (sitting : Sitting) (notes : List SittingNote) :
      a = .other act ∧ isAside act = true ∨ act = .pump .reply →
      r.sitting.step box codec cfg act = some (sitting, notes) →
      Moves box codec cfg r a ⟨sitting, r.outbound, r.pending⟩ (notes.map .sitting)

variable {box : SecretBox} {codec : TerminalCodec} {cfg : BackedConfig} {now : Instant}
  {r r' : Relay} {a : RelayAct}
variable {log notes : List RelayNote}

theorem place_of_frame? {frame : Packet} (here : r.frame? = some frame) :
    ∃ packet, r.sitting.session.place = .submitting frame packet := by
  unfold frame? at here
  split at here <;> cases here
  exact ⟨_, ‹_›⟩

theorem of_sat {act : SittingAct} {outbound pending : List Packet}
    {tell : List SittingNote → List RelayNote}
    (stepped : r.sat box codec cfg act outbound pending tell = some (r', notes)) :
    ∃ sitting sent, r.sitting.step box codec cfg act = some (sitting, sent) ∧
      r' = ⟨sitting, outbound, pending⟩ ∧ notes = tell sent := by
  obtain ⟨⟨sitting, sent⟩, taken, same⟩ := Option.map_eq_some_iff.mp stepped
  cases same
  exact ⟨sitting, sent, taken, rfl, rfl⟩

theorem step_moves (stepped : r.step box codec cfg a = some (r', notes)) :
    Moves box codec cfg r a r' notes := by
  cases a with
  | emits frame =>
      simp only [step] at stepped
      split at stepped <;> cases stepped
      rename_i ours
      exact .emitted frame (Bool.and_eq_true_iff.mp ours).1
  | takes =>
      simp only [step] at stepped
      split at stepped
      · rename_i frame rest queue
        obtain ⟨sitting, sent, taken, rfl, rfl⟩ := of_sat stepped
        exact .taken frame rest sitting sent queue taken
      · cases stepped
  | submits ok =>
      simp only [step] at stepped
      split at stepped
      · rename_i frame here
        cases ok with
        | true =>
            obtain ⟨sitting, sent, taken, rfl, rfl⟩ := of_sat stepped
            exact .submitted frame sitting sent here taken
        | false =>
            rw [if_neg Bool.false_ne_true] at stepped
            split at stepped
            · rename_i alone
              obtain ⟨sitting, sent, taken, rfl, rfl⟩ := of_sat stepped
              exact .refused frame sitting sent here alone.1 taken
            · cases stepped
      · cases stepped
  | serves clock accepts =>
      simp only [step] at stepped
      split at stepped
      · rename_i frame rest queue
        obtain ⟨sitting, sent, taken, rfl, rfl⟩ := of_sat stepped
        exact .served clock accepts frame rest sitting sent queue taken
      · cases stepped
  | loses =>
      simp only [step] at stepped
      split at stepped
      · split at stepped <;> cases stepped
        exact .lost _ _ ‹_›
      · cases stepped
  | replies =>
      simp only [step] at stepped
      split at stepped
      · obtain ⟨sitting, sent, taken, rfl, rfl⟩ := of_sat stepped
        exact .other _ _ sitting sent (.inr rfl) taken
      · cases stepped
  | other act =>
      simp only [step] at stepped
      split at stepped
      · obtain ⟨sitting, sent, taken, rfl, rfl⟩ := of_sat stepped
        exact .other _ act sitting sent (.inl ⟨rfl, ‹_›⟩) taken
      · cases stepped

end Relay

section Histories

def sittingOf (log : List RelayNote) : List SittingNote :=
  log.filterMap fun
    | .sitting n => some n
    | _ => none

def emittedOf (log : List RelayNote) : List Packet :=
  log.filterMap fun
    | .emitted frame => some frame
    | _ => none

/-- The writes that have returned, in the order in which they were submitted. -/
def outcomesOf (log : List RelayNote) : List (Packet × Bool) :=
  log.filterMap fun
    | .wrote outcome => some outcome
    | _ => none

/-- The frames whose write returned `Ok(())`. -/
def acceptedOf (outcomes : List (Packet × Bool)) : List (UInt8 × Bytes) :=
  (outcomes.filter (·.2)).map fun outcome => outcome.1.content

variable (a b : List RelayNote) (notes : List SittingNote) (outcomes : List (Packet × Bool))

@[simp] theorem sittingOf_append : sittingOf (a ++ b) = sittingOf a ++ sittingOf b :=
  List.filterMap_append

@[simp] theorem emittedOf_append : emittedOf (a ++ b) = emittedOf a ++ emittedOf b :=
  List.filterMap_append

@[simp] theorem outcomesOf_append : outcomesOf (a ++ b) = outcomesOf a ++ outcomesOf b :=
  List.filterMap_append

@[simp] theorem acceptedOf_append (a b : List (Packet × Bool)) :
    acceptedOf (a ++ b) = acceptedOf a ++ acceptedOf b := by simp [acceptedOf]

@[simp] theorem sittingOf_sitting : sittingOf (notes.map .sitting) = notes := by simp [sittingOf]

@[simp] theorem emittedOf_sitting : emittedOf (notes.map .sitting) = [] := by simp [emittedOf]

@[simp] theorem outcomesOf_sitting : outcomesOf (notes.map .sitting) = [] := by simp [outcomesOf]

@[simp] theorem sittingOf_wrote : sittingOf (outcomes.map .wrote) = [] := by simp [sittingOf]

@[simp] theorem emittedOf_wrote : emittedOf (outcomes.map .wrote) = [] := by simp [emittedOf]

@[simp] theorem outcomesOf_wrote : outcomesOf (outcomes.map .wrote) = outcomes := by
  simp [outcomesOf]

end Histories

section Pumps

variable {codec : TerminalCodec}

/-- What is due to the engine was received. -/
theorem owedOf_sublist (effects : List PumpEffect) :
    (owedOf effects).Sublist (packetsTaken effects) := by
  induction effects with
  | nil => exact .slnil
  | cons e effects ih =>
      cases e with
      | received p route =>
          cases route with
          | engine => exact ih.cons_cons p
          | owner | nowhere => exact ih.cons p
      | _ => exact ih

/-- While the engine runs and the session goes on, every packet of a tunnel is due to the engine. -/
theorem TerminalSession.step_owed {s s' : TerminalSession} {act : PumpAct}
    {effects : List PumpEffect} (routed : s.pfInbound = true) (up : s.running = true)
    (alive : s.ended = false) (stepped : s.step codec.decodeBuffer act = some (s', effects)) :
    owedOf effects = (packetsTaken effects).filter fun p => isPortForwardHeader p.header := by
  by_cases event : ∃ e, act = .event (some e)
  · obtain ⟨e, rfl⟩ := event
    simp only [step] at stepped
    split at stepped
    · cases e with
      | dead reason =>
          cases stepped
          rfl
      | packet p =>
          simp only [received, routed, Bool.and_true, alive, up] at stepped
          split at stepped <;> cases stepped <;> simp [owedOf, packetsTaken, *]
    · cases stepped
  · push Not at event
    have none := (step_other event stepped).1
    have owed := owedOf_sublist effects
    rw [none] at owed ⊢
    exact List.sublist_nil.mp owed

/-- No other step of the pump takes or submits a frame. -/
theorem TerminalSession.step_aside {s s' : TerminalSession} {act : PumpAct}
    {effects : List PumpEffect} (takes : ∀ frame, act ≠ .outbound (some frame))
    (submits : ∀ ok, act ≠ .submit ok)
    (stepped : s.step codec.decodeBuffer act = some (s', effects)) :
    takenOf effects = [] ∧ submittedOf effects = [] := by
  cases act with
  | outbound frame =>
      cases frame with
      | some frame => exact absurd rfl (takes frame)
      | none =>
          simp only [step, outbound] at stepped
          grind [takenOf, submittedOf]
  | submit ok => exact absurd rfl (submits ok)
  | event e =>
      simp only [step, received] at stepped
      grind [takenOf, submittedOf]
  | _ =>
      simp only [step] at stepped
      grind [takenOf, submittedOf]

theorem TerminalSession.step_outbound {s s' : TerminalSession} {frame : Packet}
    {effects : List PumpEffect}
    (stepped : s.step codec.decodeBuffer (.outbound (some frame)) = some (s', effects)) :
    takenOf effects = [frame] ∧ submittedOf effects = [] := by
  simp only [step, outbound] at stepped
  split at stepped
  · split at stepped <;> cases stepped <;> exact ⟨rfl, rfl⟩
  · cases stepped

theorem TerminalSession.step_submit {s s' : TerminalSession} {ok : Bool} {frame : Packet}
    {packet : Option Packet} {effects : List PumpEffect} (here : s.place = .submitting frame packet)
    (stepped : s.step codec.decodeBuffer (.submit ok) = some (s', effects)) :
    takenOf effects = [] ∧ submittedOf effects = [frame] := by
  simp only [step, here] at stepped
  cases stepped
  exact ⟨rfl, rfl⟩

end Pumps

def SittingAct.isPump : SittingAct → Bool
  | .receive | .pump _ => true
  | _ => false

/-- What the actor writes if it takes the write. -/
def SittingAct.writes (codec : TerminalCodec) : SittingAct → List (UInt8 × Bytes)
  | .order _ _ o => [(o.header, o.payload codec)]
  | .client act => actorWrites act
  | _ => []

section Steps

variable {box : SecretBox} {codec : TerminalCodec} {cfg : BackedConfig} {s s' : Sitting}
  {a : SittingAct}
  {notes : List SittingNote}

theorem Sitting.step_pump (ours : a.isPump = true)
    (stepped : s.step box codec cfg a = some (s', notes)) :
    ∃ act effects, s.session.step codec.decodeBuffer act = some (s'.session, effects) ∧
      notes = effects.map .pump ∧ (a = .pump act ∨ a = .receive ∧ ∃ e, act = .event e) := by
  cases a with
  | receive =>
      simp only [step] at stepped
      split at stepped
      · obtain ⟨session, effects, taken, rfl, rfl⟩ := of_pumpStep stepped
        exact ⟨_, effects, taken, rfl, .inr ⟨rfl, _, rfl⟩⟩
      · split at stepped
        · obtain ⟨session, effects, taken, rfl, rfl⟩ := of_pumpStep stepped
          exact ⟨_, effects, taken, rfl, .inr ⟨rfl, _, rfl⟩⟩
        · cases stepped
  | pump act =>
      simp only [step] at stepped
      split at stepped
      · cases stepped
      · obtain ⟨session, effects, taken, rfl, rfl⟩ := of_pumpStep stepped
        exact ⟨act, effects, taken, rfl, .inl rfl⟩
  | prints | order | client => cases ours

theorem Sitting.step_client (others : a.isPump = false)
    (stepped : s.step box codec cfg a = some (s', notes)) :
    s'.session = s.session ∧ pumpOf notes = [] ∧
      writtenOf (backedOf (clientOf notes)) =
        if .wrote none ∈ backedOf (clientOf notes) then a.writes codec else [] := by
  cases a with
  | prints data =>
      simp only [step] at stepped
      obtain ⟨client, sent, taken, rfl, rfl⟩ :=
        of_clientStep (.printed data :: ·.map .client) stepped
      have told : clientOf (.printed data :: sent.map .client) = sent := clientOf_client sent
      rw [told]
      exact ⟨rfl, pumpOf_client sent, step_written taken⟩
  | order clock accepts o =>
      simp only [step] at stepped
      obtain ⟨client, sent, taken, rfl, rfl⟩ := of_clientStep
        (fun sent =>
          sent.map .client ++ if .wrote none ∈ backedOf sent then [.ordered o] else []) stepped
      obtain ⟨told, silent, _⟩ := notes_ordered o sent
      rw [told]
      exact ⟨rfl, silent, step_written taken⟩
  | client act =>
      simp only [step] at stepped
      obtain ⟨client, sent, taken, rfl, rfl⟩ := of_clientStep (·.map .client) stepped
      rw [clientOf_client]
      exact ⟨rfl, pumpOf_client sent, step_written taken⟩
  | receive | pump => cases others

end Steps

/-- The engine's two queues against the history of the pump and of the client. -/
structure Relayed (box : SecretBox) (codec : TerminalCodec) (cfg : BackedConfig) (now : Instant)
    (log : List RelayNote) (r : Relay) : Prop where
  sitting : (Sitting.system box codec cfg now Relay.engaged).Reachable (sittingOf log) r.sitting
  pump : PumpOf codec.decodeBuffer (pumpOf (sittingOf log)) r.sitting.session
  routed : r.sitting.session.pfInbound = true
  owed : owedOf (pumpOf (sittingOf log)) <+:
    (packetsTaken (pumpOf (sittingOf log))).filter fun p => isPortForwardHeader p.header
  due : r.sitting.session.running = true → r.sitting.session.ended = false →
    owedOf (pumpOf (sittingOf log)) =
      (packetsTaken (pumpOf (sittingOf log))).filter fun p => isPortForwardHeader p.header
  emitted : takenOf (pumpOf (sittingOf log)) ++ r.outbound = emittedOf log
  submitted : (outcomesOf log).map (·.1) ++ r.pending = submittedOf (pumpOf (sittingOf log))
  forward : ∀ frame ∈ emittedOf log, isPortForwardHeader frame.header = true
  written : (writtenOf (backedOf (clientOf (sittingOf log)))).filter isForward =
    acceptedOf (outcomesOf log)

namespace Relayed

variable {box : SecretBox} {codec : TerminalCodec} {cfg : BackedConfig} {now : Instant}
  {r r' : Relay} {a : RelayAct}
variable {log notes : List RelayNote}

/-- A step of the pump. -/
theorem of_pump (h : Relayed box codec cfg now log r) (outbound pending : List Packet)
    (outcomes : List (Packet × Bool)) {act : SittingAct} {pumpAct : PumpAct} {sitting : Sitting}
    {effects : List PumpEffect} (spared : r.sitting.session.Spares pumpAct)
    (sat : r.sitting.step box codec cfg act = some (sitting, effects.map .pump))
    (stepped : r.sitting.session.step codec.decodeBuffer pumpAct = some (sitting.session, effects))
    (taken : takenOf effects ++ outbound = r.outbound)
    (submitted : outcomes.map (·.1) ++ pending = r.pending ++ submittedOf effects)
    (refused : ∀ outcome ∈ outcomes, outcome.2 = false) :
    Relayed box codec cfg now (log ++ ((effects.map .pump).map .sitting ++ outcomes.map .wrote))
      ⟨sitting, outbound, pending⟩ := by
  have pumped := TerminalSession.step_pump spared stepped
  have sittings : sittingOf (log ++ ((effects.map .pump).map .sitting ++ outcomes.map .wrote)) =
      sittingOf log ++ effects.map .pump := by
    rw [sittingOf_append, sittingOf_append, sittingOf_sitting, sittingOf_wrote, List.append_nil]
  have pumps : pumpOf (sittingOf log ++ effects.map .pump) = pumpOf (sittingOf log) ++ effects := by
    simp
  have routed : sitting.session.pfInbound = true := by
    by_contra off
    have before := (pumped.inbound (Bool.eq_false_of_not_eq_true off)).1
    cases before.symm.trans h.routed
  have live (up : sitting.session.running = true) (alive : sitting.session.ended = false) :
      r.sitting.session.running = true ∧ r.sitting.session.ended = false := by
    refine ⟨(pumped.running up).resolve_right fun fresh => ?_, pumped.ended alive⟩
    cases fresh.1.symm.trans h.routed
  have owes (up : r.sitting.session.running = true) (alive : r.sitting.session.ended = false) :
      owedOf (pumpOf (sittingOf log) ++ effects) =
        (packetsTaken (pumpOf (sittingOf log) ++ effects)).filter
          fun p => isPortForwardHeader p.header := by
    rw [owedOf_append, packetsTaken_append, List.filter_append, h.due up alive,
      TerminalSession.step_owed h.routed up alive stepped]
  constructor
  · rw [sittings]
    exact h.sitting.next act trivial sat
  · rw [sittings, pumps]
    exact h.pump.step pumped
  · exact routed
  · rw [sittings, pumps]
    by_cases live : r.sitting.session.running = true ∧ r.sitting.session.ended = false
    · rw [owes live.1 live.2]
    · have none : owedOf effects = [] := by
        by_cases up : r.sitting.session.running = true
        · exact (pumped.late up (by simpa [up] using live)).1
        · exact (pumped.stopped (Bool.eq_false_of_not_eq_true up)).2
      rw [owedOf_append, none, List.append_nil, packetsTaken_append, List.filter_append]
      exact h.owed.trans (List.prefix_append _ _)
  · intro up alive
    rw [sittings, pumps]
    exact owes (live up alive).1 (live up alive).2
  · rw [sittings, pumps, takenOf_append, List.append_assoc, taken, h.emitted]
    simp [emittedOf]
  · rw [sittings, pumps, submittedOf_append, ← h.submitted, List.append_assoc, ← submitted]
    simp [outcomesOf]
  · intro frame mem
    refine h.forward frame ?_
    rw [emittedOf_append, emittedOf_append, emittedOf_sitting, emittedOf_wrote] at mem
    simpa using mem
  · have none : acceptedOf outcomes = [] := by
      rw [acceptedOf, List.filter_eq_nil_iff.mpr (by simpa using refused)]
      rfl
    rw [sittings, clientOf_append, clientOf_pump, List.append_nil, h.written, outcomesOf_append,
      outcomesOf_append, outcomesOf_sitting, outcomesOf_wrote, acceptedOf_append, List.nil_append,
      none, List.append_nil]

/-- A step of anything but the pump. -/
theorem of_quiet (h : Relayed box codec cfg now log r) {sitting : Sitting}
    {outbound pending : List Packet}
    (reached :
      (Sitting.system box codec cfg now Relay.engaged).Reachable (sittingOf (log ++ notes)) sitting)
    (same : sitting.session = r.sitting.session) (silent : pumpOf (sittingOf notes) = [])
    (emitted : outbound = r.outbound ++ emittedOf notes)
    (forward : ∀ frame ∈ emittedOf notes, isPortForwardHeader frame.header = true)
    (queued : (outcomesOf notes).map (·.1) ++ pending = r.pending)
    (written : (writtenOf (backedOf (clientOf (sittingOf notes)))).filter isForward =
      acceptedOf (outcomesOf notes)) :
    Relayed box codec cfg now (log ++ notes) ⟨sitting, outbound, pending⟩ := by
  have pumps : pumpOf (sittingOf (log ++ notes)) = pumpOf (sittingOf log) := by simp [silent]
  constructor
  · exact reached
  · rw [pumps, same]
    exact h.pump
  · rw [same]
    exact h.routed
  · rw [pumps]
    exact h.owed
  · rw [pumps, same]
    exact h.due
  · rw [pumps, emitted, ← List.append_assoc, h.emitted, emittedOf_append]
  · rw [pumps, ← h.submitted, ← queued, outcomesOf_append, List.map_append, List.append_assoc]
  · simp only [emittedOf_append, List.mem_append]
    exact fun frame mem => mem.elim (h.forward frame) (forward frame)
  · simp [h.written, written]

/-- What waits to be written is of a tunnel. -/
theorem forward_of_pending (h : Relayed box codec cfg now log r) {frame : Packet}
    (mem : frame ∈ r.pending) : isPortForwardHeader frame.header = true := by
  refine h.forward frame ?_
  rw [← h.emitted, ← h.pump.frames, ← h.submitted]
  simp [mem]

/-- A step of the client or its server. -/
theorem of_client (h : Relayed box codec cfg now log r) (outcomes : List (Packet × Bool))
    {act : SittingAct} {sitting : Sitting} {sent : List SittingNote} {pending : List Packet}
    (others : act.isPump = false) (sat : r.sitting.step box codec cfg act = some (sitting, sent))
    (queued : outcomes.map (·.1) ++ pending = r.pending)
    (written : (writtenOf (backedOf (clientOf sent))).filter isForward = acceptedOf outcomes) :
    Relayed box codec cfg now (log ++ (sent.map .sitting ++ outcomes.map .wrote))
      ⟨sitting, r.outbound, pending⟩ := by
  obtain ⟨same, silent, _⟩ := Sitting.step_client others sat
  refine h.of_quiet ?_ same ?_ ?_ ?_ ?_ ?_
  · rw [sittingOf_append, sittingOf_append, sittingOf_sitting, sittingOf_wrote, List.append_nil]
    exact h.sitting.next act trivial sat
  · simpa using silent
  · simp
  · simp
  · simpa using queued
  · simpa using written

/-- No other write is of a tunnel. -/
theorem filter_writes {act : SittingAct} (aside : isAside act = true) :
    (act.writes codec).filter isForward = [] := by
  cases act with
  | order clock accepts o =>
      have other (payload : Bytes) : isForward (o.header, payload) = false := by cases o <;> rfl
      simp [SittingAct.writes, other]
  | client act =>
      cases act with
      | world act =>
          cases act with
          | actor act =>
              cases act with
              | write clock accepts header payload =>
                  have other : isPortForwardHeader header = false := by simpa [isAside] using aside
                  simp [SittingAct.writes, actorWrites, WorldAct.actorWrites, Act.writes, isForward,
                    other]
              | _ => rfl
          | peer act => rfl
      | _ => rfl
  | _ => rfl

/-- What is none of the steps above leaves both queues of the engine. -/
theorem of_aside (h : Relayed box codec cfg now log r) {act : SittingAct} {sitting : Sitting}
    {sent : List SittingNote} (spared : r.Spares (.other act))
    (aside : isAside act = true ∨ act = .pump .reply)
    (sat : r.sitting.step box codec cfg act = some (sitting, sent)) :
    Relayed box codec cfg now (log ++ sent.map .sitting) ⟨sitting, r.outbound, r.pending⟩ := by
  have end_nil : sent.map RelayNote.sitting = sent.map .sitting ++ [].map .wrote := by simp
  rw [end_nil]
  cases ours : act.isPump with
  | false =>
      have none : (act.writes codec).filter isForward = [] := by
        refine filter_writes (aside.resolve_right ?_)
        rintro rfl
        cases ours
      refine h.of_client [] ours sat rfl ?_
      rw [(Sitting.step_client ours sat).2.2]
      split
      · exact none
      · rfl
  | true =>
      obtain ⟨pumpAct, effects, stepped, rfl, origin⟩ := Sitting.step_pump ours sat
      have plain : (∀ frame, pumpAct ≠ .outbound (some frame)) ∧ (∀ ok, pumpAct ≠ .submit ok) ∧
          r.sitting.session.Spares pumpAct := by
        obtain rfl | ⟨_, e, rfl⟩ := origin
        · refine ⟨?_, ?_, spared⟩
          · rintro frame rfl
            simp [isAside] at aside
          · rintro ok rfl
            simp [isAside] at aside
        · exact ⟨by simp, by simp, fun dropped => by cases dropped⟩
      obtain ⟨takes, submits, spares⟩ := plain
      obtain ⟨taken, submitted⟩ := TerminalSession.step_aside takes submits stepped
      refine h.of_pump r.outbound r.pending [] spares sat stepped ?_ ?_ (by simp)
      · rw [taken, List.nil_append]
      · rw [submitted, List.append_nil]
        rfl

theorem step (h : Relayed box codec cfg now log r) (spared : r.Spares a)
    (moves : Relay.Moves box codec cfg r a r' notes) :
    Relayed box codec cfg now (log ++ notes) r' := by
  have undropped {act : PumpAct} (other : act.drops = false) : r.sitting.session.Spares act := by
    intro dropped
    cases dropped.symm.trans other
  cases moves with
  | emitted frame ours =>
      refine h.of_quiet ?_ rfl rfl rfl (by simpa [emittedOf] using ours) rfl rfl
      simpa [sittingOf] using h.sitting
  | lost frame rest queue =>
      refine h.of_quiet ?_ rfl rfl (by simp [emittedOf]) (by simp [emittedOf]) queue.symm rfl
      simpa [sittingOf] using h.sitting
  | taken frame rest sitting sent queue sat =>
      obtain ⟨_, effects, stepped, rfl, same | ⟨other, _⟩⟩ := Sitting.step_pump rfl sat
      · cases same
        obtain ⟨taken, submitted⟩ := TerminalSession.step_outbound stepped
        have kept := h.of_pump rest r.pending [] (undropped rfl) sat stepped
          (by rw [taken, queue]; rfl) (by simp [submitted]) (by simp)
        simpa using kept
      · cases other
  | submitted frame sitting sent here sat =>
      obtain ⟨packet, place⟩ := Relay.place_of_frame? here
      obtain ⟨_, effects, stepped, rfl, same | ⟨other, _⟩⟩ := Sitting.step_pump rfl sat
      · cases same
        obtain ⟨taken, submitted⟩ := TerminalSession.step_submit place stepped
        have kept := h.of_pump r.outbound (r.pending ++ [frame]) [] (undropped rfl) sat stepped
          (by rw [taken]; rfl) (by rw [submitted]; rfl) (by simp)
        simpa using kept
      · cases other
  | refused frame sitting sent here alone sat =>
      obtain ⟨packet, place⟩ := Relay.place_of_frame? here
      obtain ⟨_, effects, stepped, rfl, same | ⟨other, _⟩⟩ := Sitting.step_pump rfl sat
      · cases same
        obtain ⟨taken, submitted⟩ := TerminalSession.step_submit place stepped
        exact h.of_pump r.outbound r.pending [(frame, false)] (undropped rfl) sat stepped
          (by rw [taken]; rfl) (by rw [submitted, alone]; rfl) (by simp)
      · cases other
  | served clock accepts frame rest sitting sent queue sat =>
      have ours := h.forward_of_pending (queue ▸ List.mem_cons_self)
      refine h.of_client [_] rfl sat queue.symm ?_
      rw [(Sitting.step_client rfl sat).2.2]
      have kept : isForward (frame.header, frame.payload) = true := ours
      split <;> simp [*, SittingAct.writes, actorWrites, WorldAct.actorWrites, Act.writes,
        acceptedOf, Packet.content]
  | other _ act sitting sent aside sat =>
      obtain ⟨rfl, aside⟩ | rfl := aside
      · exact h.of_aside spared (.inl aside) sat
      · exact h.of_aside (fun dropped => by cases dropped) (.inr rfl) sat

end Relayed

theorem relayed_reaches {box : SecretBox} {codec : TerminalCodec} {cfg : BackedConfig}
    {now : Instant} {log : List RelayNote} {r : Relay}
    (run : (Relay.system box codec cfg now).Reaches (fun _ => Relay.Spares) log r) :
    Relayed box codec cfg now log r := by
  refine run.invariant (P := Relayed box codec cfg now) ?_ ?_
  · exact ⟨.start, ⟨fun _ _ => rfl, fun _ => List.prefix_refl _, List.prefix_refl _, rfl, rfl,
      fun _ => rfl⟩, rfl, List.prefix_refl _, fun _ _ => rfl, rfl, rfl, nofun, rfl⟩
  · intro log r a r' notes relayed spared stepped
    exact relayed.step spared (Relay.step_moves stepped)

theorem filter_content (packets : List Packet) :
    (packets.map Packet.content).filter isForward =
      (packets.filter fun p => isPortForwardHeader p.header).map Packet.content :=
  List.filter_map

/-- The link under the tunnels, across reconnects and with futures dropped where they own nothing.
What the engine is fed is, in order and each once, what the server has written for it; while the
engine runs and the session goes on, whatever is missing is in the pump's hands or underway. What
the engine has sent was written in order, or waits for it, and the server opens, in order and each
once, the frames whose write returned `Ok`: a frame is lost only with a write that was refused. -/
theorem tunnels_linked (box : SecretBox) (codec : TerminalCodec) (cfg : BackedConfig)
    (now : Instant) (log : List RelayNote) (r : Relay) (lawful : box.Lawful)
    (run : (Relay.system box codec cfg now).Reaches (fun _ => Relay.Spares) log r) :
    let client := r.sitting.client
    let session := r.sitting.session
    let fed := fedOf (pumpOf (sittingOf log))
    let opened := Packet.openAll box (.new cfg.key cfg.writerMsb) client.world.peer.accepted
    fed.map Packet.content <+: client.world.peer.wrote.filter isForward ∧
    (session.running = true → session.ended = false → client.supervisor.finished = false →
      client.world.task.flowing = true →
      (fed ++ session.place.packet).map Packet.content ++ r.sitting.underway.filter isForward =
        client.world.peer.wrote.filter isForward) ∧
    (outcomesOf log).map (·.1) ++ r.pending ++ session.place.frame ++ r.outbound = emittedOf log ∧
    (opened.map Packet.content).filter isForward <+: acceptedOf (outcomesOf log) := by
  have relayed := relayed_reaches run
  have carried := carried_reaches relayed.sitting
  refine ⟨?_, ?_, ?_, ?_⟩
  · have ours := (carried.taken_in_order lawful).filter isForward
    rw [filter_content] at ours
    exact ((relayed.pump.fed.trans relayed.owed).map Packet.content).trans ours
  · intro up alive watching flowing
    rw [relayed.pump.kept up alive, relayed.due up alive, ← filter_content,
      ← carried.underway lawful watching flowing, List.filter_append]
  · rw [relayed.submitted, relayed.pump.frames, relayed.emitted]
  · rw [← relayed.written]
    exact (opened_in_order lawful carried.client).2.filter isForward

/-- A frame of the engine is written and one of the server comes in while there is no socket; both
arrive over the next one. The future of the write is dropped before its reply. -/
theorem tunnels_linked_reconnect :
    ∃ log r, (Relay.system .naming .records (.client testKey none) 0).Reaches
        (fun _ => Relay.Spares) log r ∧
      fedOf (pumpOf (sittingOf log)) = [.new portForwardData [1]] ∧
      outcomesOf log = [(.new portForwardData [9], true)] ∧
      r.sitting.client.world.peer.accepted ≠ [] ∧
      ((Packet.openAll .naming (.new testKey clientServerNonceMsb)
        r.sitting.client.world.peer.accepted).map Packet.content).filter isForward <+:
          [(portForwardData, [9])] := by
  obtain ⟨log, r, run, fed, outcomes, accepted⟩ :
      ∃ log r,
        (Relay.system .naming .records (.client testKey none) 0).Reaches
          (fun _ => Relay.Spares) log r ∧
        fedOf (pumpOf (sittingOf log)) = [.new portForwardData [1]] ∧
        outcomesOf log = [(.new portForwardData [9], true)] ∧
        r.sitting.client.world.peer.accepted ≠ [] :=
    ⟨_, _, .execute .start
      [.other (.client (.world (.peer (.write portForwardData [1])))),
        .other (.client (.world (.actor .killSocket))), .other (.client (.world (.actor .settle))),
        .other (.client (.world (.actor .send))), .other (.client .recv),
        .other (.client (.handshake (.returning 1))),
        .other (.client (.world (.actor (.deliver 0)))),
        .emits (.new portForwardData [9]), .other (.pump .call), .takes, .submits true,
        .other (.pump .drop), .serves 0 true,
        .other (.client (.world (.actor .settle))), .other (.client (.world (.actor (.deliver 0)))),
        .other (.client (.world (.actor (.recover 1)))),
        .other (.client (.world (.peer (.report 1)))),
        .other (.client (.world (.actor .sequenceSent))),
        .other (.client (.world (.peer .answer))),
        .other (.client (.world (.actor (.sequenceRead (.of 0))))),
        .other (.client (.world (.actor .catchupSent))),
        .other (.client (.world (.actor (.catchupRead 0
          ⟨[Packet.boxed .naming testKey serverClientNonceMsb 0 portForwardData [1]]⟩)))),
        .other (.client (.world (.peer .finish))), .other (.client (.world (.actor .settle))),
        .other (.client (.world (.actor (.deliver 0)))), .other (.client (.world (.actor .send))),
        .other (.client .recv), .other (.client (.sent true)), .other (.pump .call),
        .other .receive, .other (.pump .reserve)] rfl, by decide, by decide, by decide⟩
  obtain ⟨_, _, _, opened⟩ := tunnels_linked _ _ _ _ _ _ SecretBox.naming_lawful run
  rw [outcomes] at opened
  exact ⟨log, r, run, fed, outcomes, accepted, opened⟩

end Session

end Et
