import EtClient.Session.Pump

/-!
# When the pump may be dropped

What was taken from a queue has been passed on, or is in the future's hands: that holds
through every run in which a future is dropped only where it owns nothing. A drop at any
other place breaks it at once.
-/

namespace Et

namespace Session

variable {decode : Bytes → Option (Option Bytes)} {log effects : List PumpEffect}
variable {s s' : TerminalSession}

section Projections

/-- The port-forward packets that are due to the engine. -/
def owedOf (log : List PumpEffect) : List Packet :=
  log.filterMap fun
    | .received p .engine => some p
    | _ => none

def fedOf (log : List PumpEffect) : List Packet :=
  log.filterMap fun
    | .fed p => some p
    | _ => none

def takenOf (log : List PumpEffect) : List Packet :=
  log.filterMap fun
    | .taken frame => some frame
    | _ => none

def submittedOf (log : List PumpEffect) : List Packet :=
  log.filterMap fun
    | .submitted frame => some frame
    | _ => none

/-- The packets that are due to the owner. -/
def ownedOf (log : List PumpEffect) : List Packet :=
  log.filterMap fun
    | .received p .owner => some p
    | _ => none

/-- The events that `next_event` returned, the end of the session aside. -/
def surfacedOf (log : List PumpEffect) : List SessionEvent :=
  log.filterMap fun
    | .returned (some (.dead _)) => none
    | .returned e => e
    | _ => none

variable (a b : List PumpEffect)

@[simp] theorem owedOf_append : owedOf (a ++ b) = owedOf a ++ owedOf b := List.filterMap_append

@[simp] theorem fedOf_append : fedOf (a ++ b) = fedOf a ++ fedOf b := List.filterMap_append

@[simp] theorem takenOf_append : takenOf (a ++ b) = takenOf a ++ takenOf b := List.filterMap_append

@[simp] theorem submittedOf_append : submittedOf (a ++ b) = submittedOf a ++ submittedOf b :=
  List.filterMap_append

@[simp] theorem ownedOf_append : ownedOf (a ++ b) = ownedOf a ++ ownedOf b := List.filterMap_append

@[simp] theorem surfacedOf_append : surfacedOf (a ++ b) = surfacedOf a ++ surfacedOf b :=
  List.filterMap_append

end Projections

/-- One step passes on what the future owned or what it takes, in order, and the rest is
in the future's hands behind it. -/
structure PumpStep (decode : Bytes → Option (Option Bytes)) (s s' : TerminalSession)
    (effects : List PumpEffect) : Prop where
  packets : s.running = true → s.ended = false →
    fedOf effects ++ s'.place.packet = s.place.packet ++ owedOf effects
  /-- Once the session is over, at most the packet in hand is still passed on. -/
  late : s.running = true → s.ended = true →
    owedOf effects = [] ∧ fedOf effects ++ s'.place.packet <+: s.place.packet
  stopped : s.running = false → fedOf effects = [] ∧ owedOf effects = []
  frames : submittedOf effects ++ s'.place.frame = s.place.frame ++ takenOf effects
  surfaced : surfacedOf effects = (ownedOf effects).map (.fromPacket decode)
  running : s'.running = true → s.running = true ∨
    s.pfInbound = false ∧ effects = [] ∧ s'.place.packet = []
  ended : s'.ended = false → s.ended = false
  inbound : s'.pfInbound = false → s.pfInbound = false ∧ owedOf effects = []

namespace PumpStep

/-- A step without effects after which the future owns what it owned. -/
theorem of_same (packet : s'.place.packet = s.place.packet) (frame : s'.place.frame = s.place.frame)
    (running : s'.running = true → s.running = true) (ended : s'.ended = false → s.ended = false)
    (inbound : s'.pfInbound = false → s.pfInbound = false) : PumpStep decode s s' [] where
  packets _ _ := packet.trans (List.append_nil _).symm
  late _ _ := ⟨rfl, packet ▸ List.prefix_refl _⟩
  stopped _ := ⟨rfl, rfl⟩
  frames := frame.trans (List.append_nil _).symm
  surfaced := rfl
  running up := .inl (running up)
  ended := ended
  inbound none := ⟨inbound none, rfl⟩

/-- A packet never surfaces as the end of the session. -/
theorem surfacedOf_fromPacket (decode : Bytes → Option (Option Bytes)) (p : Packet) :
    surfacedOf [.received p .owner, .returned (some (.fromPacket decode p))] =
      [.fromPacket decode p] := by
  have alive : ∀ reason, SessionEvent.fromPacket decode p ≠ .dead reason := by
    intro reason
    unfold SessionEvent.fromPacket
    split
    · split <;> nofun
    · split <;> nofun
  cases event : SessionEvent.fromPacket decode p with
  | dead reason => exact absurd event (alive reason)
  | terminalBuffer | keepAlive | other => rfl

/-- A packet for the engine when the session is over: nobody gets it. -/
theorem of_late (decode : Bytes → Option (Option Bytes)) (p : Packet) (routed : s.pfInbound = true)
    (finished : s.ended = true) : PumpStep decode s s [.received p .nowhere] where
  packets _ alive := by
    rw [finished] at alive
    cases alive
  late _ _ := ⟨rfl, List.prefix_refl _⟩
  stopped _ := ⟨rfl, rfl⟩
  frames := (List.append_nil _).symm
  surfaced := rfl
  running := .inl
  ended := id
  inbound none := by
    rw [routed] at none
    cases none

/-- The future parks with a packet for the engine. -/
theorem of_parked (decode : Bytes → Option (Option Bytes)) (p : Packet) (place : s.place = .select)
    (routed : s.pfInbound = true) (alive : ¬ s.ended = true) :
    PumpStep decode s { s with place := .parked p }
      [.received p (if s.running then .engine else .nowhere)] where
  packets up _ := by
    rw [place, if_pos up]
    rfl
  late _ finished := absurd finished alive
  stopped down := by
    rw [down]
    exact ⟨rfl, rfl⟩
  frames := by
    rw [place]
    rfl
  surfaced := by split <;> rfl
  running := .inl
  ended := id
  inbound none := by
    rw [routed] at none
    cases none

/-- The future is done and returns an event. -/
theorem of_returned (place : s.place = .select) (owes : owedOf effects = [])
    (feeds : fedOf effects = []) (takes : takenOf effects = [])
    (submits : submittedOf effects = [])
    (surfaces : surfacedOf effects = (ownedOf effects).map (.fromPacket decode)) :
    PumpStep decode s { s with place := .idle } effects where
  packets _ _ := by
    rw [place, feeds, owes]
    rfl
  late _ _ := by
    rw [place, feeds]
    exact ⟨owes, List.prefix_refl _⟩
  stopped _ := ⟨feeds, owes⟩
  frames := by
    rw [place, submits, takes]
    rfl
  surfaced := surfaces
  running := .inl
  ended := id
  inbound none := ⟨none, owes⟩

/-- An event of the client. -/
theorem of_received (decode : Bytes → Option (Option Bytes)) (e : Option Client.Event)
    (place : s.place = .select) :
    PumpStep decode s (s.received decode e).1 (s.received decode e).2 := by
  unfold TerminalSession.received
  split
  · rename_i p
    split
    · rename_i routed
      have inbound : s.pfInbound = true := by simpa using (Bool.and_eq_true _ _ ▸ routed).2
      split
      · exact of_late decode p inbound ‹_›
      · exact of_parked decode p place inbound ‹_›
    · exact of_returned place rfl rfl rfl rfl (surfacedOf_fromPacket decode p)
  · exact of_returned place rfl rfl rfl rfl rfl
  · exact of_returned place rfl rfl rfl rfl rfl

/-- A frame of the engine, while the future owns at most a packet. -/
theorem of_outbound {packet taken : Option Packet} (packets : s.place.packet = packet.toList)
    (frame : s.place.frame = []) (stepped : s.outbound packet taken = some (s', effects)) :
    PumpStep decode s s' effects := by
  unfold TerminalSession.outbound at stepped
  split at stepped
  · cases stepped
    refine ⟨?_, ?_, fun _ => ⟨rfl, rfl⟩, ?_, rfl, .inl, id, fun none => ⟨none, rfl⟩⟩
    · rw [packets]
      exact fun _ _ => (List.append_nil _).symm
    · rw [packets]
      exact fun _ _ => ⟨rfl, List.prefix_refl _⟩
    · rw [frame]
      rfl
  · split at stepped <;> cases stepped
    exact of_same rfl rfl id id id

theorem packet_resume (packet : Option Packet) : (Place.resume packet).packet = packet.toList := by
  cases packet <;> rfl

theorem frame_resume (packet : Option Packet) : (Place.resume packet).frame = [] := by
  cases packet <;> rfl

end PumpStep

def PumpAct.drops : PumpAct → Bool
  | .drop => true
  | _ => false

/-- A future is dropped only where it owns nothing. -/
def TerminalSession.Spares (s : TerminalSession) (act : PumpAct) : Prop :=
  act.drops = true → s.place.empty = true

instance (s : TerminalSession) (act : PumpAct) : Decidable (s.Spares act) :=
  inferInstanceAs (Decidable (_ → _))

namespace PumpStep

/-- The write of a frame: the future goes on with the packet that it owns, if any. -/
theorem of_submit {ok : Bool} (stepped : s.step decode (.submit ok) = some (s', effects)) :
    PumpStep decode s s' effects := by
  simp only [TerminalSession.step] at stepped
  split at stepped <;> cases stepped
  rename_i frame packet place
  have packets : (if ok then Place.replying packet else .resume packet).packet =
      packet.toList := by
    split
    · rfl
    · exact packet_resume packet
  have frames : (if ok then Place.replying packet else .resume packet).frame = [] := by
    split
    · rfl
    · exact frame_resume packet
  refine ⟨?_, ?_, fun _ => ⟨rfl, rfl⟩, ?_, rfl, .inl, id, fun none => ⟨none, rfl⟩⟩
  · rw [packets, place]
    exact fun _ _ => (List.append_nil _).symm
  · rw [packets, place]
    exact fun _ _ => ⟨rfl, List.prefix_refl _⟩
  · rw [frames, place]
    rfl

theorem of_reply (stepped : s.step decode .reply = some (s', effects)) :
    PumpStep decode s s' effects := by
  simp only [TerminalSession.step] at stepped
  split at stepped <;> cases stepped
  rename_i packet place
  refine .of_same ?_ ?_ id id id
  · rw [place]
    exact packet_resume packet
  · rw [place]
    exact frame_resume packet

/-- The engine takes the packet of a parked future, or has stopped. -/
theorem of_reserve (stepped : s.step decode .reserve = some (s', effects)) :
    PumpStep decode s s' effects := by
  simp only [TerminalSession.step] at stepped
  split at stepped <;> cases stepped
  rename_i packet place
  refine ⟨?_, ?_, ?_, ?_, ?_, .inl, id, fun none => ⟨none, ?_⟩⟩
  · intro up _
    rw [place, if_pos up]
    rfl
  · intro up _
    rw [place, if_pos up]
    exact ⟨rfl, List.prefix_refl _⟩
  · intro down
    rw [down]
    exact ⟨rfl, rfl⟩
  · rw [place]
    split <;> rfl
  · split <;> rfl
  · split <;> rfl

/-- A parked future gives its packet up when the session is over. -/
theorem of_tick (stepped : s.step decode .tick = some (s', effects)) :
    PumpStep decode s s' effects := by
  simp only [TerminalSession.step] at stepped
  split at stepped <;> cases stepped
  rename_i packet place
  split
  · rename_i finished
    refine ⟨?_, ?_, fun _ => ⟨rfl, rfl⟩, ?_, rfl, .inl, id, fun none => ⟨none, rfl⟩⟩
    · intro _ alive
      rw [finished] at alive
      cases alive
    · exact fun _ _ => ⟨rfl, List.nil_prefix⟩
    · rw [place]
      rfl
  · exact .of_same rfl rfl id id id

theorem of_start (stepped : s.step decode .startPortForwarding = some (s', effects)) :
    PumpStep decode s s' effects := by
  simp only [TerminalSession.step] at stepped
  split at stepped <;> cases stepped
  rename_i place
  split
  · exact .of_same rfl rfl id id id
  · rename_i none
    refine ⟨fun _ _ => (List.append_nil _).symm, fun _ _ => ⟨rfl, List.prefix_refl _⟩,
      fun _ => ⟨rfl, rfl⟩, (List.append_nil _).symm, rfl, ?_, id, nofun⟩
    intro _
    exact .inr ⟨by simpa using none, rfl, by rw [place]; rfl⟩

end PumpStep

/-- What one step of the pump does, if it does not drop a future that owns something. -/
theorem TerminalSession.step_pump {act : PumpAct} (spared : s.Spares act)
    (stepped : s.step decode act = some (s', effects)) : PumpStep decode s s' effects := by
  cases act with
  | call =>
      simp only [step] at stepped
      split at stepped <;> cases stepped
      rename_i place
      exact .of_same (by rw [place]; rfl) (by rw [place]; rfl) id id id
  | drop =>
      simp only [step] at stepped
      split at stepped <;> cases stepped
      have empty := spared rfl
      rw [Place.empty, Bool.and_eq_true, List.isEmpty_iff, List.isEmpty_iff] at empty
      exact .of_same empty.1.symm empty.2.symm id id id
  | event e =>
      simp only [step] at stepped
      split at stepped
      · rename_i place
        have received := PumpStep.of_received decode e place
        rwa [Option.some.inj stepped] at received
      · cases stepped
  | outbound frame =>
      simp only [step] at stepped
      split at stepped
      · split at stepped
        · rename_i place
          exact .of_outbound (by rw [place]; rfl) (by rw [place]; rfl) stepped
        · rename_i packet place
          exact .of_outbound (by rw [place]; rfl) (by rw [place]; rfl) stepped
        · cases stepped
      · cases stepped
  | submit ok => exact .of_submit stepped
  | reply => exact .of_reply stepped
  | reserve => exact .of_reserve stepped
  | tick => exact .of_tick stepped
  | startPortForwarding => exact .of_start stepped
  | engineStops =>
      cases stepped
      exact .of_same rfl rfl nofun id id
  | sessionEnds =>
      cases stepped
      exact .of_same rfl rfl id nofun id

/-- Everything taken has been passed on in order, or is in the future's hands. -/
structure Kept (log : List PumpEffect) (s : TerminalSession) : Prop where
  packets : fedOf log ++ s.place.packet = owedOf log
  frames : submittedOf log ++ s.place.frame = takenOf log

/-- What holds of the pump, also when the engine has stopped or the session is over. -/
structure PumpOf (decode : Bytes → Option (Option Bytes)) (log : List PumpEffect)
    (s : TerminalSession) : Prop where
  kept : s.running = true → s.ended = false → fedOf log ++ s.place.packet = owedOf log
  held : s.running = true → fedOf log ++ s.place.packet <+: owedOf log
  fed : fedOf log <+: owedOf log
  frames : submittedOf log ++ s.place.frame = takenOf log
  surfaced : surfacedOf log = (ownedOf log).map (.fromPacket decode)
  unstarted : s.pfInbound = false → owedOf log = []

namespace PumpOf

/-- While the engine runs, what is passed on stays a prefix of what is due. -/
theorem prefix_step (h : PumpOf decode log s) (pumped : PumpStep decode s s' effects)
    (up : s.running = true) :
    fedOf (log ++ effects) ++ s'.place.packet <+: owedOf (log ++ effects) := by
  rw [fedOf_append, owedOf_append, List.append_assoc]
  by_cases finished : s.ended = true
  · obtain ⟨none, front⟩ := pumped.late up finished
    rw [none, List.append_nil]
    exact ((List.prefix_append_right_inj _).mpr front).trans (h.held up)
  · have alive : s.ended = false := by simpa using finished
    rw [pumped.packets up alive, ← List.append_assoc, h.kept up alive]

theorem step (h : PumpOf decode log s) (pumped : PumpStep decode s s' effects) :
    PumpOf decode (log ++ effects) s' := by
  -- An engine that starts here finds nothing due to it.
  have fresh : ∀ {packets : List Packet}, s.pfInbound = false → effects = [] → packets = [] →
      fedOf (log ++ effects) ++ packets = owedOf (log ++ effects) := by
    rintro _ none rfl rfl
    have owed := h.unstarted none
    have fed := h.fed
    rw [owed] at fed
    rw [List.append_nil, List.append_nil, owed]
    exact List.prefix_nil.mp fed
  refine ⟨?_, ?_, ?_, ?_, ?_, ?_⟩
  · intro up alive
    obtain before | ⟨none, quiet, empty⟩ := pumped.running up
    · have still := pumped.ended alive
      rw [fedOf_append, owedOf_append, List.append_assoc, pumped.packets before still,
        ← List.append_assoc, h.kept before still]
    · exact fresh none quiet empty
  · intro up
    obtain before | ⟨none, quiet, empty⟩ := pumped.running up
    · exact h.prefix_step pumped before
    · rw [fresh none quiet empty]
  · by_cases up : s.running = true
    · exact (List.prefix_append _ _).trans (h.prefix_step pumped up)
    · obtain ⟨fed, owed⟩ := pumped.stopped (by simpa using up)
      rw [fedOf_append, owedOf_append, fed, owed, List.append_nil, List.append_nil]
      exact h.fed
  · rw [submittedOf_append, takenOf_append, List.append_assoc, pumped.frames, ← List.append_assoc,
      h.frames]
  · rw [surfacedOf_append, ownedOf_append, List.map_append, h.surfaced, pumped.surfaced]
  · intro none
    obtain ⟨before, silent⟩ := pumped.inbound none
    rw [owedOf_append, h.unstarted before, silent]
    rfl

end PumpOf

theorem pumpOf_reaches
    (run : (TerminalSession.system decode).Reaches (fun _ => TerminalSession.Spares) log s) :
    PumpOf decode log s := by
  refine run.invariant (P := fun log s => PumpOf decode log s) ?_ ?_
  · exact ⟨nofun, nofun, List.prefix_refl _, rfl, rfl, fun _ => rfl⟩
  · intro log s act s' effects pump spared stepped
    exact pump.step (TerminalSession.step_pump spared stepped)

/-- The pump can still pass on what the future owns, without a drop. -/
def Drains (decode : Bytes → Option (Option Bytes)) (log : List PumpEffect) (s : TerminalSession) :
    Prop :=
  ∃ log' s', (TerminalSession.system decode).Reaches (fun _ => TerminalSession.Spares)
      (log ++ log') s' ∧ fedOf log' = s.place.packet ∧ submittedOf log' = s.place.frame

namespace Drains

theorem of_step {act : PumpAct} (goes : act.drops = false)
    (stepped : s.step decode act = some (s', effects))
    (packets : fedOf effects ++ s'.place.packet = s.place.packet)
    (frames : submittedOf effects ++ s'.place.frame = s.place.frame)
    (later : (TerminalSession.system decode).Reaches (fun _ => TerminalSession.Spares)
      (log ++ effects) s' → Drains decode (log ++ effects) s')
    (run : (TerminalSession.system decode).Reaches (fun _ => TerminalSession.Spares) log s) :
    Drains decode log s := by
  have spared : s.Spares act := fun drops => absurd (goes.symm.trans drops) nofun
  obtain ⟨log', t, onward, fed, submitted⟩ := later (run.next act spared stepped)
  rw [List.append_assoc] at onward
  refine ⟨effects ++ log', t, onward, ?_, ?_⟩
  · rw [fedOf_append, fed, packets]
  · rw [submittedOf_append, submitted, frames]

/-- From every place of a running engine's pump. -/
theorem of_running (up : s.running = true)
    (run : (TerminalSession.system decode).Reaches (fun _ => TerminalSession.Spares) log s) :
    Drains decode log s := by
  have resumed : ∀ {log : List PumpEffect} {t : TerminalSession} (packet : Option Packet),
      t.running = true → t.place = .resume packet →
      (TerminalSession.system decode).Reaches (fun _ => TerminalSession.Spares) log t →
      Drains decode log t := by
    intro log t packet up place run
    cases packet with
    | none => exact ⟨[], t, by rwa [List.append_nil], by rw [place]; rfl, by rw [place]; rfl⟩
    | some p =>
        have stepped : t.step decode .reserve = some ({ t with place := .select }, [.fed p]) := by
          simp only [TerminalSession.step, place, Place.resume, up, if_true]
        refine of_step rfl stepped (by rw [place]; rfl) (by rw [place]; rfl) ?_ run
        intro onward
        exact ⟨[], _, by rwa [List.append_nil], rfl, rfl⟩
  have replied : ∀ {log : List PumpEffect} {t : TerminalSession} (packet : Option Packet),
      t.running = true → t.place = .replying packet →
      (TerminalSession.system decode).Reaches (fun _ => TerminalSession.Spares) log t →
      Drains decode log t := by
    intro log t packet up place run
    have stepped : t.step decode .reply = some ({ t with place := .resume packet }, []) := by
      simp only [TerminalSession.step, place]
    refine of_step rfl stepped ?_ ?_ (resumed packet up rfl) run
    · rw [place]
      exact PumpStep.packet_resume packet
    · rw [place]
      exact PumpStep.frame_resume packet
  cases place : s.place with
  | idle | select => exact ⟨[], s, by rwa [List.append_nil], by rw [place]; rfl, by rw [place]; rfl⟩
  | submitting frame packet =>
      have stepped : s.step decode (.submit true) =
          some ({ s with place := .replying packet }, [.submitted frame]) := by
        simp only [TerminalSession.step, place, if_true]
      exact of_step rfl stepped (by rw [place]; rfl) (by rw [place]; rfl)
        (replied packet up rfl) run
  | replying packet => exact replied packet up place run
  | parked packet => exact resumed (some packet) up place run

end Drains

/-- As long as a future is dropped only where it owns nothing, every port-forward packet
for a running engine of a living session is handed over in order or in the future's hands,
from where it can still be handed over; every frame of the engine is submitted once and in
order; and every other packet surfaces. A drop at any other place loses what the future owns. -/
theorem next_event_keeps_what_it_takes
    (run : (TerminalSession.system decode).Reaches (fun _ => TerminalSession.Spares) log s) :
    (s.running = true → s.ended = false → Kept log s ∧ Drains decode log s) ∧
      fedOf log <+: owedOf log ∧ submittedOf log ++ s.place.frame = takenOf log ∧
      surfacedOf log = (ownedOf log).map (.fromPacket decode) ∧
      ∀ s' effects, s.running = true → s.ended = false →
        s.step decode .drop = some (s', effects) →
          (Kept (log ++ effects) s' ↔ s.place.empty = true) := by
  have pump := pumpOf_reaches run
  refine ⟨?_, pump.fed, pump.frames, pump.surfaced, ?_⟩
  · intro up alive
    exact ⟨⟨pump.kept up alive, pump.frames⟩, .of_running up run⟩
  · intro s' effects up alive stepped
    simp only [TerminalSession.step] at stepped
    split at stepped <;> cases stepped
    have packets := pump.kept up alive
    have frames := pump.frames
    rw [List.append_nil, Place.empty, Bool.and_eq_true, List.isEmpty_iff, List.isEmpty_iff]
    constructor
    · intro kept
      have packets' := kept.packets
      have frames' := kept.frames
      rw [← packets] at packets'
      rw [← frames] at frames'
      exact ⟨(List.append_cancel_left packets').symm, (List.append_cancel_left frames').symm⟩
    · rintro ⟨packet, frame⟩
      rw [packet] at packets
      rw [frame] at frames
      exact ⟨packets, frames⟩

/-- A future is dropped at the outer `select!` and while its write waits for the reply. -/
theorem next_event_keeps_what_it_takes_dropped :
    ∃ log s,
      (TerminalSession.system fun _ => none).Reaches (fun _ => TerminalSession.Spares) log s ∧
      fedOf log = [.new portForwardData [1]] ∧ submittedOf log = [.new portForwardData [2]] ∧
      Kept log s := by
  obtain ⟨log, s, run, fed, submitted, up, alive⟩ :
      ∃ log s, (TerminalSession.system fun _ => none).Reaches (fun _ => TerminalSession.Spares)
          log s ∧
        fedOf log = [.new portForwardData [1]] ∧ submittedOf log = [.new portForwardData [2]] ∧
        s.running = true ∧ s.ended = false :=
    ⟨_, _, .execute .start
      [.startPortForwarding, .call, .drop, .call, .outbound (some (.new portForwardData [2])),
        .submit true, .drop, .call, .event (some (.packet (.new portForwardData [1]))), .reserve]
      rfl, rfl, rfl, rfl, rfl⟩
  exact ⟨log, s, run, fed, submitted, ((next_event_keeps_what_it_takes run).1 up alive).1⟩

/-- A future is dropped while it is parked on the engine's queue, and another one while
its write waits for a slot: the packet and the frame are gone, the next ones get through. -/
theorem next_event_dropped_while_parked :
    ∃ log s, (TerminalSession.system fun _ => none).Reachable log s ∧
      s.running = true ∧ s.ended = false ∧ s.place = .select ∧
      owedOf log = [.new portForwardData [1], .new portForwardData [2]] ∧
      fedOf log = [.new portForwardData [2]] ∧
      takenOf log = [.new portForwardData [3], .new portForwardData [4]] ∧
      submittedOf log = [.new portForwardData [4]] :=
  ⟨_, _, .execute .start
    [.startPortForwarding, .call, .event (some (.packet (.new portForwardData [1]))), .drop, .call,
      .outbound (some (.new portForwardData [3])), .drop, .call,
      .event (some (.packet (.new portForwardData [2]))), .reserve,
      .outbound (some (.new portForwardData [4])), .submit true, .reply] rfl,
    rfl, rfl, rfl, rfl, rfl, rfl, rfl⟩

end Session

end Et
