import EtClient.Client.ExactlyOnce
import EtClient.Session.Codec
import EtClient.Session.Pump

/-!
# The terminal, from end to end

The server writes what the shell prints as `TERMINAL_BUFFER` packets. In the other direction
`send_input` and `send_terminal_info` write what the user types and how large the terminal is.
Between the two ends lie the encodings of these messages, encryption, sockets that come and go, the
queues of the actor, the supervisor and the owner, and the pump of the session.

Here all of these run together, with a server that keeps to the protocol. A call of `send_input` is
the step in which the actor takes its command. The frames of the port-forward engine, and whatever
else the owner writes, are writes with other headers; they may happen at any time. How the messages
of the terminal are encoded is a parameter.
-/

namespace Et

namespace Backed

variable {box : SecretBox} {t t' : Task} {act : Act} {effects : List Effect}

theorem Actor.Writes.written {now : Instant} {accepts : Bool} {s s' : Actor} {header : UInt8}
    {payload : Bytes} (writes : s.Writes box now accepts header payload s' effects) :
    writtenOf effects = if .wrote none ∈ effects then [(header, payload)] else [] := by
  cases writes <;> simp [writtenOf, encryptionsOf, Effect.encryption?]

/-- What the actor writes if it takes the write: the command's packet, or a keepalive. -/
def Act.writes : Act → List (UInt8 × Bytes)
  | .write _ _ header payload => [(header, payload)]
  | .tick _ _ => [(keepAlive, [])]
  | _ => []

theorem Task.step_written (stepped : t.step box act = some (t', effects)) :
    writtenOf effects = if .wrote none ∈ effects then act.writes else [] := by
  cases step_moves stepped with
  | write _ _ _ _ _ _ _ writes => exact writes.written
  | tick _ _ _ _ _ _ ticks =>
      cases ticks with
      | idle | closed => rfl
      | pinged _ _ _ _ _ _ _ _ writes => exact writes.written
  | rejected now _ _ _ popped | opened now _ _ _ _ popped =>
      have quiet := (Actor.deliverOne_writer box now t.actor).2.2
      rw [popped] at quiet
      rw [writtenOf, quiet.encryptions]
      exact (ite_self _).symm
  | sendDead | finish => split <;> rfl
  | _ => rfl

def WorldAct.peerWrites : WorldAct → List (UInt8 × Bytes)
  | .peer (.write header payload) => [(header, payload)]
  | _ => []

def WorldAct.actorWrites : WorldAct → List (UInt8 × Bytes)
  | .actor act => act.writes
  | .peer _ => []

namespace World

variable {cfg : BackedConfig} {w w' : World} {inner : WorldAct}

theorem step_wrote (stepped : w.step box cfg inner = some (w', effects)) :
    w'.peer.wrote = w.peer.wrote ++ inner.peerWrites := by
  obtain ⟨_, rfl, _, _, _, same⟩ | ⟨inner, rfl, taken, rfl⟩ := step_cases stepped
  · rw [same]
    exact (List.append_nil _).symm
  · cases inner with
    | write header payload =>
        cases taken
        rfl
    | _ =>
        simp only [peerStep, Option.bind_eq_some_iff, Option.map_eq_some_iff] at taken
        simp only [WorldAct.peerWrites, List.append_nil]
        grind [Option.bind_eq_some_iff, Option.map_eq_some_iff]

theorem step_written (stepped : w.step box cfg inner = some (w', effects)) :
    writtenOf effects = if .wrote none ∈ effects then inner.actorWrites else [] := by
  obtain ⟨_, rfl, _, taken, _⟩ | ⟨inner, rfl, _, rfl⟩ := step_cases stepped
  · exact Task.step_written taken
  · rfl

end World

end Backed

namespace Packet

/-- Header and payload. -/
def content (p : Packet) : UInt8 × Bytes := (p.header, p.payload)

/-- What the other end of a direction reads: frames are opened one after the other, up to the first
that does not open. -/
def openAll (box : SecretBox) : CryptoHandler → List Bytes → List Packet
  | _, [] => []
  | crypto, bytes :: rest =>
      match parse bytes with
      | some p =>
          if boxed : p.encrypted = true then
            match p.decrypt box crypto boxed with
            | (crypto, .ok p) => p :: openAll box crypto rest
            | (_, .error _) => []
          else []
      | none => []

variable {box : SecretBox}

theorem openAll_boxed (lawful : box.Lawful) (key : Key) (nonceMsb : UInt8) (operations : Nat)
    (header : UInt8) (payload : Bytes) (rest : List Bytes) :
    openAll box (.after key nonceMsb operations)
        (boxed box key nonceMsb operations header payload :: rest) =
      new header payload :: openAll box (.after key nonceMsb (operations + 1)) rest := by
  obtain ⟨p, parsed, flag, opened⟩ := decrypt_boxed lawful key nonceMsb operations header payload
  rw [openAll, parsed]
  simp only [flag, ↓reduceDIte, opened]

/-- Frames behind others open to the packets that were boxed. -/
theorem openAll_mapIdx (lawful : box.Lawful) (key : Key) (nonceMsb : UInt8)
    (packets : List (UInt8 × Bytes)) (operations : Nat) :
    openAll box (.after key nonceMsb operations)
      (packets.mapIdx fun k p => boxed box key nonceMsb (operations + k) p.1 p.2) =
        packets.map fun p => new p.1 p.2 := by
  induction packets generalizing operations with
  | nil => rfl
  | cons p packets ih =>
      rw [List.mapIdx_cons, Nat.add_zero, openAll_boxed lawful, List.map_cons,
        ← ih (operations + 1)]
      simp only [Nat.add_right_comm operations 1, Nat.add_assoc]

theorem stream_of_front {key : Key} {nonceMsb : UInt8} {packets : List (UInt8 × Bytes)}
    {frames : List Bytes} (front : frames <+: stream box key nonceMsb packets) :
    ∃ first, first <+: packets ∧ frames = stream box key nonceMsb first := by
  refine ⟨packets.take frames.length, List.take_prefix _ _, ?_⟩
  have bound := front.length_le
  rw [length_stream] at bound
  have whole : stream box key nonceMsb (packets.take frames.length) <+:
      stream box key nonceMsb packets := by
    nth_rewrite 2 [← List.take_append_drop frames.length packets]
    rw [stream, stream, List.mapIdx_append]
    exact List.prefix_append _ _
  have lengths : (stream box key nonceMsb (packets.take frames.length)).length = frames.length := by
    rw [length_stream, List.length_take_of_le bound]
  exact (List.prefix_of_prefix_length_le front whole lengths.ge).eq_of_length lengths.symm

theorem openAll_stream (lawful : box.Lawful) (key : Key) (nonceMsb : UInt8)
    (packets : List (UInt8 × Bytes)) :
    openAll box (.new key nonceMsb) (stream box key nonceMsb packets) =
      packets.map fun p => new p.1 p.2 := by
  have opened := openAll_mapIdx lawful key nonceMsb packets 0
  rw [stream]
  simpa only [Nat.zero_add, CryptoHandler.after_zero] using opened

end Packet

namespace Session

open Backed Client

def terminalInfo : UInt8 := 2

/-- The bytes of the terminal in a packet. -/
def TerminalCodec.readBuffer (codec : TerminalCodec) (packet : UInt8 × Bytes) : Option Bytes :=
  if packet.1 = terminalBuffer then (codec.decodeBuffer packet.2).map (·.getD []) else none

/-- A call of `send_input` or `send_terminal_info`. -/
inductive Order
  | input (data : Bytes)
  | resize (row column width height : Int32)
  deriving DecidableEq

namespace Order

def header : Order → UInt8
  | .input _ => terminalBuffer
  | .resize .. => terminalInfo

/-- The message that a call writes. -/
def payload (codec : TerminalCodec) : Order → Bytes
  | .input data => codec.encodeBuffer data
  | .resize row column width height =>
      codec.encodeInfo
        { id := some ""
          row := some row
          column := some column
          width := some width
          height := some height }

end Order

/-- What a server reads from a packet; an absent number is zero. -/
def TerminalCodec.readOrder (codec : TerminalCodec) (packet : UInt8 × Bytes) : Option Order :=
  if packet.1 = terminalInfo then
    (codec.decodeInfo packet.2).map fun m =>
      .resize (m.row.getD 0) (m.column.getD 0) (m.width.getD 0) (m.height.getD 0)
  else (codec.readBuffer packet).map .input

namespace TerminalCodec

variable {codec : TerminalCodec}

theorem Lawful.readBuffer_encode (lawful : codec.Lawful) {data : Bytes}
    (encodable : (codec.encodeBuffer data).length ≤ maxMessageBytes) :
    codec.readBuffer (terminalBuffer, codec.encodeBuffer data) = some data := by
  rw [readBuffer, if_pos rfl, lawful.buffer data encodable]
  rfl

theorem Lawful.readOrder_payload (lawful : codec.Lawful) {o : Order}
    (encodable : (o.payload codec).length ≤ maxMessageBytes) :
    codec.readOrder (o.header, o.payload codec) = some o := by
  cases o with
  | input data =>
      rw [readOrder, Order.header, if_neg (by simp [terminalBuffer, terminalInfo]), Order.payload,
        lawful.readBuffer_encode encodable]
      rfl
  | resize row column width height =>
      rw [readOrder, Order.header, if_pos rfl, Order.payload, lawful.info _ encodable]
      rfl

theorem fromPacket_eq_terminalBuffer {p : Packet} {data : Bytes} :
    SessionEvent.fromPacket codec.decodeBuffer p = .terminalBuffer data ↔
      codec.readBuffer p.content = some data := by
  unfold SessionEvent.fromPacket readBuffer Packet.content
  grind

end TerminalCodec

structure Sitting where
  client : EtClient
  /-- What the supervisor has sent and the session has not received. -/
  queue : List Event
  session : TerminalSession

inductive SittingAct
  /-- The shell prints, and the server writes it. -/
  | prints (data : Bytes)
  /-- The actor takes the write of `send_input` or `send_terminal_info`. -/
  | order (now : Instant) (accepts : Bool) (o : Order)
  /-- Any other step of the client and its server. -/
  | client (act : ClientAct)
  /-- `client.next_event()` returns in the pump. -/
  | receive
  /-- Any other step of the pump. -/
  | pump (act : PumpAct)

inductive SittingNote
  | printed (data : Bytes)
  /-- The call returned `Ok(())`. -/
  | ordered (o : Order)
  | client (n : Note)
  | pump (e : PumpEffect)

/-- Not a packet of the terminal. -/
def isOther : ClientAct → Bool
  | .world (.actor (.write _ _ header _)) => header ≠ terminalBuffer && header ≠ terminalInfo
  | .world (.peer (.write header _)) => header ≠ terminalBuffer
  | _ => true

/-- Nothing else is written with the headers of the terminal, and what is printed and ordered can be
encoded. -/
def TerminalCodec.Keeps (codec : TerminalCodec) : SittingAct → Prop
  | .prints data => (codec.encodeBuffer data).length ≤ maxMessageBytes
  | .order _ _ o => (o.payload codec).length ≤ maxMessageBytes
  | .client act => isOther act = true
  | .receive | .pump _ => True

instance (codec : TerminalCodec) : (act : SittingAct) → Decidable (codec.Keeps act)
  | .prints _ | .order _ _ _ => inferInstanceAs (Decidable (_ ≤ _))
  | .client _ => inferInstanceAs (Decidable (_ = true))
  | .receive | .pump _ => inferInstanceAs (Decidable True)

def isEvent : PumpAct → Bool
  | .event _ => true
  | _ => false

/-- What a step of the client sends its owner. -/
def ownerEventsOf (notes : List Note) : List Event :=
  notes.filterMap fun
    | .event e => some e
    | .backed _ => none

namespace Sitting

def clientStep (box : SecretBox) (cfg : BackedConfig) (s : Sitting) (act : ClientAct) :
    Option (Sitting × List Note) :=
  (s.client.step box cfg act).map fun (client, notes) =>
    ({ s with client := client, queue := s.queue ++ ownerEventsOf notes }, notes)

def pumpStep (codec : TerminalCodec) (s : Sitting) (act : PumpAct) :
    Option (Sitting × List SittingNote) :=
  (s.session.step codec.decodeBuffer act).map fun (session, effects) =>
    ({ s with session := session }, effects.map .pump)

def step (box : SecretBox) (codec : TerminalCodec) (cfg : BackedConfig) (s : Sitting) :
    SittingAct → Option (Sitting × List SittingNote)
  | .prints data =>
      (s.clientStep box cfg (.world (.peer (.write terminalBuffer (codec.encodeBuffer data))))).map
        fun (s, notes) => (s, .printed data :: notes.map .client)
  | .order now accepts o =>
      (s.clientStep box cfg (.world (.actor (.write now accepts o.header (o.payload codec))))).map
        fun (s, notes) =>
          (s, notes.map .client ++ if .wrote none ∈ backedOf notes then [.ordered o] else [])
  | .client act => (s.clientStep box cfg act).map fun (s, notes) => (s, notes.map .client)
  | .receive =>
      match s.queue with
      | e :: rest => { s with queue := rest }.pumpStep codec (.event (some e))
      | [] => if s.client.supervisor = .returned then s.pumpStep codec (.event none) else none
  | .pump act => if isEvent act then none else s.pumpStep codec act

/-- A connected client, and a session as `start` returns it. -/
def system (box : SecretBox) (codec : TerminalCodec) (cfg : BackedConfig) (now : Instant)
    (session : TerminalSession) : Transition.System Sitting SittingAct SittingNote where
  start := ⟨.connected cfg now, [], session⟩
  step := step box codec cfg

/-- What each step does. -/
inductive Moves (box : SecretBox) (codec : TerminalCodec) (cfg : BackedConfig) (s : Sitting) :
    SittingAct → Sitting → List SittingNote → Prop
  | printed (data : Bytes) (client : EtClient) (notes : List Note) :
      s.client.step box cfg (.world (.peer (.write terminalBuffer (codec.encodeBuffer data)))) =
        some (client, notes) →
      Moves box codec cfg s (.prints data)
        { s with client := client, queue := s.queue ++ ownerEventsOf notes }
        (.printed data :: notes.map .client)
  | ordered (now : Instant) (accepts : Bool) (o : Order) (client : EtClient) (notes : List Note) :
      s.client.step box cfg (.world (.actor (.write now accepts o.header (o.payload codec)))) =
        some (client, notes) →
      Moves box codec cfg s (.order now accepts o)
        { s with client := client, queue := s.queue ++ ownerEventsOf notes }
        (notes.map .client ++ if .wrote none ∈ backedOf notes then [.ordered o] else [])
  | client (act : ClientAct) (client : EtClient) (notes : List Note) :
      s.client.step box cfg act = some (client, notes) →
      Moves box codec cfg s (.client act)
        { s with client := client, queue := s.queue ++ ownerEventsOf notes } (notes.map .client)
  | received (e : Event) (rest : List Event) (session : TerminalSession)
      (effects : List PumpEffect) : s.queue = e :: rest →
      s.session.step codec.decodeBuffer (.event (some e)) = some (session, effects) →
      Moves box codec cfg s .receive { s with queue := rest, session := session }
        (effects.map .pump)
  | pumped (a : SittingAct) (act : PumpAct) (session : TerminalSession)
      (effects : List PumpEffect) : (∀ e, act ≠ .event (some e)) →
      a = .receive ∨ a = .pump act →
      s.session.step codec.decodeBuffer act = some (session, effects) →
      Moves box codec cfg s a { s with session := session } (effects.map .pump)

variable {box : SecretBox} {codec : TerminalCodec} {cfg : BackedConfig} {now : Instant}
variable {s s' : Sitting} {a : SittingAct} {log notes : List SittingNote}

theorem of_clientStep {act : ClientAct} (noted : List Note → List SittingNote)
    (stepped : (s.clientStep box cfg act).map (fun step => (step.1, noted step.2)) =
      some (s', notes)) :
    ∃ client sent, s.client.step box cfg act = some (client, sent) ∧
      s' = { s with client := client, queue := s.queue ++ ownerEventsOf sent } ∧
      notes = noted sent := by
  obtain ⟨_, inside, done⟩ := Option.map_eq_some_iff.mp stepped
  obtain ⟨⟨client, sent⟩, taken, rfl⟩ := Option.map_eq_some_iff.mp inside
  cases done
  exact ⟨client, sent, taken, rfl, rfl⟩

theorem of_pumpStep {act : PumpAct} (stepped : s.pumpStep codec act = some (s', notes)) :
    ∃ session effects, s.session.step codec.decodeBuffer act = some (session, effects) ∧
      s' = { s with session := session } ∧ notes = effects.map .pump := by
  obtain ⟨⟨session, effects⟩, taken, done⟩ := Option.map_eq_some_iff.mp stepped
  cases done
  exact ⟨session, effects, taken, rfl, rfl⟩

theorem step_moves (stepped : s.step box codec cfg a = some (s', notes)) :
    Moves box codec cfg s a s' notes := by
  cases a with
  | prints data =>
      simp only [step] at stepped
      obtain ⟨client, sent, taken, rfl, rfl⟩ :=
        of_clientStep (.printed data :: ·.map .client) stepped
      exact .printed data client sent taken
  | order clock accepts o =>
      simp only [step] at stepped
      obtain ⟨client, sent, taken, rfl, rfl⟩ := of_clientStep
        (fun sent =>
          sent.map .client ++ if .wrote none ∈ backedOf sent then [.ordered o] else []) stepped
      exact .ordered clock accepts o client sent taken
  | client act =>
      simp only [step] at stepped
      obtain ⟨client, sent, taken, rfl, rfl⟩ := of_clientStep (·.map .client) stepped
      exact .client act client sent taken
  | receive =>
      simp only [step] at stepped
      split at stepped
      · obtain ⟨session, effects, taken, rfl, rfl⟩ := of_pumpStep stepped
        exact .received _ _ session effects ‹_› taken
      · split at stepped
        · obtain ⟨session, effects, taken, rfl, rfl⟩ := of_pumpStep stepped
          exact .pumped _ (.event none) session effects (by simp) (.inl rfl) taken
        · cases stepped
  | pump act =>
      simp only [step] at stepped
      split at stepped
      · cases stepped
      · rename_i other
        obtain ⟨session, effects, taken, rfl, rfl⟩ := of_pumpStep stepped
        refine .pumped _ act session effects ?_ (.inr rfl) taken
        rintro e rfl
        exact other rfl

end Sitting

section Histories

def printedOf (log : List SittingNote) : List Bytes :=
  log.filterMap fun
    | .printed data => some data
    | _ => none

def orderedOf (log : List SittingNote) : List Order :=
  log.filterMap fun
    | .ordered o => some o
    | _ => none

def clientOf (log : List SittingNote) : List Note :=
  log.filterMap fun
    | .client n => some n
    | _ => none

def pumpOf (log : List SittingNote) : List PumpEffect :=
  log.filterMap fun
    | .pump e => some e
    | _ => none

/-- The packets that the pump has received. -/
def packetsTaken (effects : List PumpEffect) : List Packet :=
  effects.filterMap fun
    | .received p _ => some p
    | _ => none

/-- What `next_event` has returned of the terminal. -/
def screenOf (effects : List PumpEffect) : List Bytes :=
  effects.filterMap fun
    | .returned (some (.terminalBuffer data)) => some data
    | _ => none

/-- The packet that the client sends with an event. -/
def eventPacket? : Event → Option Packet
  | .packet p => some p
  | .dead _ => none

variable (a b : List SittingNote) (notes : List Note) (effects : List PumpEffect)

@[simp] theorem printedOf_append : printedOf (a ++ b) = printedOf a ++ printedOf b :=
  List.filterMap_append

@[simp] theorem orderedOf_append : orderedOf (a ++ b) = orderedOf a ++ orderedOf b :=
  List.filterMap_append

@[simp] theorem clientOf_append : clientOf (a ++ b) = clientOf a ++ clientOf b :=
  List.filterMap_append

@[simp] theorem pumpOf_append : pumpOf (a ++ b) = pumpOf a ++ pumpOf b := List.filterMap_append

@[simp] theorem packetsTaken_append (a b : List PumpEffect) :
    packetsTaken (a ++ b) = packetsTaken a ++ packetsTaken b := List.filterMap_append

@[simp] theorem screenOf_append (a b : List PumpEffect) :
    screenOf (a ++ b) = screenOf a ++ screenOf b := List.filterMap_append

@[simp] theorem printedOf_client : printedOf (notes.map .client) = [] := by simp [printedOf]

@[simp] theorem orderedOf_client : orderedOf (notes.map .client) = [] := by simp [orderedOf]

@[simp] theorem clientOf_client : clientOf (notes.map .client) = notes := by simp [clientOf]

@[simp] theorem pumpOf_client : pumpOf (notes.map .client) = [] := by simp [pumpOf]

@[simp] theorem printedOf_pump : printedOf (effects.map .pump) = [] := by simp [printedOf]

@[simp] theorem orderedOf_pump : orderedOf (effects.map .pump) = [] := by simp [orderedOf]

@[simp] theorem clientOf_pump : clientOf (effects.map .pump) = [] := by simp [clientOf]

@[simp] theorem pumpOf_pump : pumpOf (effects.map .pump) = effects := by simp [pumpOf]

theorem filterMap_ownerEventsOf :
    (ownerEventsOf notes).filterMap eventPacket? = forwardedOf notes := by
  rw [ownerEventsOf, List.filterMap_filterMap, forwardedOf]
  congr 1
  funext n
  cases n with
  | backed => rfl
  | event e => cases e <;> rfl

end Histories

section Screen

variable {codec : TerminalCodec}

/-- Port-forward packets are not of the terminal. -/
theorem readBuffer_of_forward {p : Packet} (forward : isPortForwardHeader p.header = true) :
    codec.readBuffer p.content = none := by
  rw [TerminalCodec.readBuffer, if_neg]
  intro (same : p.header = terminalBuffer)
  rw [same] at forward
  exact absurd forward (by decide)

theorem screenOf_fromPacket (p : Packet) :
    screenOf [.received p .owner, .returned (some (.fromPacket codec.decodeBuffer p))] =
      (codec.readBuffer p.content).toList := by
  cases shown : codec.readBuffer p.content with
  | some data =>
      rw [TerminalCodec.fromPacket_eq_terminalBuffer.mpr shown]
      rfl
  | none =>
      have unshown : ∀ data,
          SessionEvent.fromPacket codec.decodeBuffer p ≠ .terminalBuffer data := by
        intro data same
        rw [TerminalCodec.fromPacket_eq_terminalBuffer, shown] at same
        cases same
      cases event : SessionEvent.fromPacket codec.decodeBuffer p with
      | terminalBuffer data => exact absurd event (unshown data)
      | keepAlive | dead | other => rfl

/-- A packet of the client is received, and is on the screen if it is one of the terminal. -/
theorem TerminalSession.step_event {s s' : TerminalSession} {e : Event}
    {effects : List PumpEffect}
    (stepped : s.step codec.decodeBuffer (.event (some e)) = some (s', effects)) :
    packetsTaken effects = (eventPacket? e).toList ∧
      screenOf effects =
        (eventPacket? e).toList.filterMap (codec.readBuffer ∘ Packet.content) := by
  simp only [step] at stepped
  split at stepped
  · cases e with
    | dead reason =>
        cases stepped
        exact ⟨rfl, rfl⟩
    | packet p =>
        simp only [received] at stepped
        split at stepped
        · rename_i routed
          have unshown : codec.readBuffer p.content = none :=
            readBuffer_of_forward (Bool.and_eq_true_iff.mp routed).1
          split at stepped <;> cases stepped <;>
            exact ⟨rfl, by simp [eventPacket?, unshown, screenOf]⟩
        · cases stepped
          refine ⟨rfl, ?_⟩
          rw [screenOf_fromPacket, eventPacket?, Option.toList_some, List.filterMap_cons]
          cases shown : codec.readBuffer p.content <;> simp [shown]
  · cases stepped

/-- Every other step of the pump shows nothing. -/
theorem TerminalSession.step_other {s s' : TerminalSession} {act : PumpAct}
    {effects : List PumpEffect} (other : ∀ e, act ≠ .event (some e))
    (stepped : s.step codec.decodeBuffer act = some (s', effects)) :
    packetsTaken effects = [] ∧ screenOf effects = [] := by
  cases act with
  | event e =>
      cases e with
      | some e => exact absurd rfl (other e)
      | none =>
          simp only [step] at stepped
          split at stepped <;> cases stepped
          exact ⟨rfl, rfl⟩
  | outbound frame =>
      cases frame <;> simp only [step, outbound] at stepped <;> grind [packetsTaken, screenOf]
  | call | drop | submit | reply | reserve | tick | startPortForwarding | engineStops
  | sessionEnds =>
      simp only [step] at stepped
      grind [packetsTaken, screenOf]

end Screen

/-- The screen and the queue, against the history of the client. -/
structure Carried (box : SecretBox) (codec : TerminalCodec) (cfg : BackedConfig) (now : Instant)
    (log : List SittingNote) (s : Sitting) : Prop where
  client : (EtClient.system box cfg now).Reachable (clientOf log) s.client
  queue : packetsTaken (pumpOf log) ++ s.queue.filterMap eventPacket? =
    forwardedOf (clientOf log)
  screen : screenOf (pumpOf log) =
    (packetsTaken (pumpOf log)).filterMap (codec.readBuffer ∘ Packet.content)

/-- What was printed and ordered, against what both ends have written. -/
structure Told (codec : TerminalCodec) (log : List SittingNote) (s : Sitting) : Prop where
  printed : printedOf log = s.client.world.peer.wrote.filterMap codec.readBuffer
  ordered : orderedOf log = (writtenOf (backedOf (clientOf log))).filterMap codec.readOrder

/-- The packets of a step of the client, if it is one of the world. -/
def peerWrites : ClientAct → List (UInt8 × Bytes)
  | .world act => act.peerWrites
  | _ => []

def actorWrites : ClientAct → List (UInt8 × Bytes)
  | .world act => act.actorWrites
  | _ => []

section Runs

variable {box : SecretBox} {codec : TerminalCodec} {cfg : BackedConfig} {now : Instant}
variable {session : TerminalSession} {s s' : Sitting} {a : SittingAct}
variable {log notes : List SittingNote}

theorem step_wrote {c c' : EtClient} {act : ClientAct} {sent : List Note}
    (stepped : c.step box cfg act = some (c', sent)) :
    c'.world.peer.wrote = c.world.peer.wrote ++ peerWrites act := by
  cases EtClient.step_moves stepped with
  | world _ _ _ _ taken => exact World.step_wrote taken
  | _ => exact (List.append_nil _).symm

theorem step_written {c c' : EtClient} {act : ClientAct} {sent : List Note}
    (stepped : c.step box cfg act = some (c', sent)) :
    writtenOf (backedOf sent) =
      if .wrote none ∈ backedOf sent then actorWrites act else [] := by
  cases EtClient.step_moves stepped with
  | world _ _ _ _ taken =>
      rw [backedOf_backed]
      exact World.step_written taken
  | reported _ _ taken => cases taken <;> rfl
  | _ => rfl

theorem unread_of_isOther {act : ClientAct} (other : isOther act = true) :
    (peerWrites act).filterMap codec.readBuffer = [] ∧
      (actorWrites act).filterMap codec.readOrder = [] := by
  cases act with
  | world act =>
      cases act with
      | peer act =>
          cases act with
          | write header payload =>
              have other : header ≠ terminalBuffer := by simpa [isOther] using other
              refine ⟨?_, rfl⟩
              simp [peerWrites, WorldAct.peerWrites, TerminalCodec.readBuffer, other]
          | _ => exact ⟨rfl, rfl⟩
      | actor act =>
          cases act with
          | write now accepts header payload =>
              obtain ⟨noBuffer, noInfo⟩ : header ≠ terminalBuffer ∧ header ≠ terminalInfo := by
                simpa [isOther] using other
              refine ⟨rfl, ?_⟩
              simp [actorWrites, WorldAct.actorWrites, Act.writes, TerminalCodec.readOrder,
                TerminalCodec.readBuffer, noBuffer, noInfo]
          | tick now accepts =>
              refine ⟨rfl, ?_⟩
              simp [actorWrites, WorldAct.actorWrites, Act.writes, TerminalCodec.readOrder,
                TerminalCodec.readBuffer, keepAlive, terminalBuffer, terminalInfo]
          | _ => exact ⟨rfl, rfl⟩
  | _ => exact ⟨rfl, rfl⟩

theorem Carried.of_client (h : Carried box codec cfg now log s) {act : ClientAct}
    {client : EtClient} {sent : List Note}
    (stepped : s.client.step box cfg act = some (client, sent))
    (same : clientOf notes = sent) (silent : pumpOf notes = []) :
    Carried box codec cfg now (log ++ notes)
      { s with client := client, queue := s.queue ++ ownerEventsOf sent } where
  client := by
    rw [clientOf_append, same]
    exact h.client.next act trivial stepped
  queue := by
    rw [pumpOf_append, silent, List.append_nil, clientOf_append, same, forwardedOf_append,
      List.filterMap_append, filterMap_ownerEventsOf, ← List.append_assoc, h.queue]
  screen := by
    rw [pumpOf_append, silent, List.append_nil, h.screen]

theorem Carried.of_pump (h : Carried box codec cfg now log s) {queue : List Event}
    {session : TerminalSession} {effects : List PumpEffect}
    (queued : packetsTaken effects ++ queue.filterMap eventPacket? =
      s.queue.filterMap eventPacket?)
    (shown : screenOf effects =
      (packetsTaken effects).filterMap (codec.readBuffer ∘ Packet.content)) :
    Carried box codec cfg now (log ++ effects.map .pump)
      { s with queue := queue, session := session } where
  client := by
    rw [clientOf_append, clientOf_pump, List.append_nil]
    exact h.client
  queue := by
    rw [pumpOf_append, pumpOf_pump, packetsTaken_append, List.append_assoc, queued,
      clientOf_append, clientOf_pump, List.append_nil, h.queue]
  screen := by
    rw [pumpOf_append, pumpOf_pump, screenOf_append, packetsTaken_append, List.filterMap_append,
      h.screen, shown]

/-- The notes of an order are those of the client and at most one of its own. -/
theorem notes_ordered (o : Order) (sent : List Note) :
    let notes := sent.map SittingNote.client ++
      if .wrote none ∈ backedOf sent then [.ordered o] else []
    clientOf notes = sent ∧ pumpOf notes = [] ∧ printedOf notes = [] ∧
      orderedOf notes = if .wrote none ∈ backedOf sent then [o] else [] := by
  intro notes
  simp only [notes, clientOf_append, clientOf_client, pumpOf_append, pumpOf_client,
    printedOf_append, printedOf_client, orderedOf_append, orderedOf_client]
  split
  · exact ⟨List.append_nil _, rfl, rfl, rfl⟩
  · exact ⟨List.append_nil _, rfl, rfl, rfl⟩

theorem Carried.step (h : Carried box codec cfg now log s)
    (moves : Sitting.Moves box codec cfg s a s' notes) :
    Carried box codec cfg now (log ++ notes) s' := by
  cases moves with
  | printed data client sent stepped =>
      exact h.of_client stepped (clientOf_client sent) (pumpOf_client sent)
  | ordered clock accepts o client sent stepped =>
      obtain ⟨same, silent, _⟩ := notes_ordered o sent
      exact h.of_client stepped same silent
  | client act client sent stepped =>
      exact h.of_client stepped (clientOf_client sent) (pumpOf_client sent)
  | received e rest session effects queue stepped =>
      obtain ⟨taken, shown⟩ := TerminalSession.step_event stepped
      refine h.of_pump ?_ ?_
      · rw [taken, queue]
        cases e <;> rfl
      · rw [shown, taken]
  | pumped _ act session effects other _ stepped =>
      obtain ⟨taken, shown⟩ := TerminalSession.step_other other stepped
      refine h.of_pump ?_ ?_
      · rw [taken, List.nil_append]
      · rw [shown, taken]
        rfl

theorem carried_reaches {allowed : List SittingNote → Sitting → SittingAct → Prop}
    (run : (Sitting.system box codec cfg now session).Reaches allowed log s) :
    Carried box codec cfg now log s := by
  refine run.invariant (P := Carried box codec cfg now) ?_ ?_
  · exact ⟨.start, rfl, rfl⟩
  · intro log s a s' notes carried _ stepped
    exact carried.step (Sitting.step_moves stepped)

theorem Told.of_client (told : Told codec log s) {act : ClientAct} {client : EtClient}
    {sent : List Note} (stepped : s.client.step box cfg act = some (client, sent))
    {queue : List Event} (same : clientOf notes = sent)
    (printed : printedOf notes = (peerWrites act).filterMap codec.readBuffer)
    (ordered : orderedOf notes = if .wrote none ∈ backedOf sent then
      (actorWrites act).filterMap codec.readOrder else []) :
    Told codec (log ++ notes) { s with client := client, queue := queue } where
  printed := by
    rw [printedOf_append, printed, told.printed, step_wrote stepped, List.filterMap_append]
  ordered := by
    rw [orderedOf_append, ordered, told.ordered, clientOf_append, same, backedOf_append,
      writtenOf_append, List.filterMap_append, step_written stepped]
    split <;> rfl

theorem Told.of_pump (told : Told codec log s) (queue : List Event) (session : TerminalSession)
    (effects : List PumpEffect) :
    Told codec (log ++ effects.map .pump) { s with queue := queue, session := session } where
  printed := by
    rw [printedOf_append, printedOf_pump, List.append_nil, told.printed]
  ordered := by
    rw [orderedOf_append, orderedOf_pump, List.append_nil, told.ordered, clientOf_append,
      clientOf_pump, List.append_nil]

theorem Told.step (told : Told codec log s) (lawful : codec.Lawful) (kept : codec.Keeps a)
    (moves : Sitting.Moves box codec cfg s a s' notes) : Told codec (log ++ notes) s' := by
  cases moves with
  | printed data client sent stepped =>
      refine told.of_client stepped (clientOf_client sent) ?_ ?_
      · rw [peerWrites, WorldAct.peerWrites, List.filterMap_cons, lawful.readBuffer_encode kept]
        exact congrArg _ (printedOf_client sent)
      · rw [actorWrites, WorldAct.actorWrites]
        exact (orderedOf_client sent).trans (ite_self _).symm
  | ordered clock accepts o client sent stepped =>
      obtain ⟨same, _, unprinted, ordered⟩ := notes_ordered o sent
      refine told.of_client stepped same unprinted ?_
      rw [ordered, actorWrites, WorldAct.actorWrites, Act.writes, List.filterMap_cons,
        lawful.readOrder_payload kept]
      rfl
  | client act client sent stepped =>
      obtain ⟨unprinted, unordered⟩ := unread_of_isOther kept
      refine told.of_client stepped (clientOf_client sent) ?_ ?_
      · rw [printedOf_client, unprinted]
      · rw [orderedOf_client, unordered, ite_self]
  | received e rest session effects _ _ => exact told.of_pump rest session effects
  | pumped _ act session effects _ _ _ => exact told.of_pump s.queue session effects

theorem told_reaches (lawful : codec.Lawful)
    (run : (Sitting.system box codec cfg now session).Reaches (fun _ _ => codec.Keeps) log s) :
    Told codec log s := by
  refine run.invariant (P := Told codec) ⟨rfl, rfl⟩ ?_
  intro log s a s' notes told kept stepped
  exact told.step lawful kept (Sitting.step_moves stepped)

theorem map_content_new (packets : List (UInt8 × Bytes)) :
    (packets.map fun p => Packet.new p.1 p.2).map Packet.content = packets := by
  rw [List.map_map]
  exact List.map_id _

/-- The client hands on what the server wrote, in order. -/
theorem handed_in_order (lawful : box.Lawful) {c : EtClient} {sent : List Note}
    (run : (EtClient.system box cfg now).Reachable sent c) :
    (forwardedOf sent).map Packet.content <+: c.world.peer.wrote := by
  obtain ⟨inner, _, forwarded⟩ := supervised_reachable run
  have delivered := (deliveryOf_reachable (World.task_reachable inner)).delivered
  rw [(World.faithful_reaches lawful inner).opened] at delivered
  have handed := (forwarded.sent.trans delivered).map Packet.content
  rw [map_content_new] at handed
  exact handed.trans (List.take_prefix _ _)

/-- What the server wrote and the session has not received, in the order in which it stands: in the
queue of the owner, with the supervisor, in the queue of the actor's events, with the actor, and
not yet opened. -/
def Sitting.underway (s : Sitting) : List (UInt8 × Bytes) :=
  (s.queue.filterMap eventPacket? ++ (s.client.supervisor.inHand ++
    s.client.events.filterMap BackedEvent.packet?) ++ s.client.world.task.inHand).map
      Packet.content ++
    s.client.world.peer.wrote.drop s.client.world.task.actor.readerSeq

theorem Carried.underway (h : Carried box codec cfg now log s) (lawful : box.Lawful)
    (watching : s.client.supervisor.finished = false)
    (flowing : s.client.world.task.flowing = true) :
    (packetsTaken (pumpOf log)).map Packet.content ++ s.underway =
      s.client.world.peer.wrote := by
  obtain ⟨inner, _, forwarded⟩ := supervised_reachable h.client
  have faithful := World.faithful_reaches lawful inner
  have held := forwarded.held watching
  have delivery := (deliveryOf_reachable (World.task_reachable inner)).flowing flowing
  rw [← held, faithful.opened, ← h.queue] at delivery
  have contents := congrArg (List.map Packet.content) delivery
  rw [map_content_new] at contents
  rw [Sitting.underway, ← List.append_assoc, ← List.map_append, ← List.append_assoc,
    ← List.append_assoc, contents, List.take_append_drop]

/-- What the session has received stands at the front of what the server wrote. -/
theorem Carried.taken_in_order (h : Carried box codec cfg now log s) (lawful : box.Lawful) :
    (packetsTaken (pumpOf log)).map Packet.content <+: s.client.world.peer.wrote := by
  have taken : packetsTaken (pumpOf log) <+: forwardedOf (clientOf log) := by
    rw [← h.queue]
    exact List.prefix_append _ _
  exact (taken.map Packet.content).trans (handed_in_order lawful h.client)

/-- What the server opens is what the actor wrote, in order, and every frame opens. -/
theorem opened_in_order (lawful : box.Lawful) {c : EtClient} {sent : List Note}
    (run : (EtClient.system box cfg now).Reachable sent c) :
    let opened := Packet.openAll box (.new cfg.key cfg.writerMsb) c.world.peer.accepted
    opened.length = c.world.peer.accepted.length ∧
      opened.map Packet.content <+: writtenOf (backedOf sent) := by
  obtain ⟨inner, _, _⟩ := supervised_reachable run
  have accepted := (World.upLink_reachable inner).accepted
  rw [(writerOf_reachable (World.task_reachable inner)).framesOf_eq] at accepted
  obtain ⟨written, front, same⟩ := Packet.stream_of_front accepted
  intro opened
  have eq : opened = written.map fun p => Packet.new p.1 p.2 := by
    rw [← Packet.openAll_stream lawful cfg.key cfg.writerMsb, ← same]
  rw [eq, map_content_new, List.length_map, same, Packet.length_stream]
  exact ⟨rfl, front⟩

end Runs

/-- The terminal across reconnects. What `next_event` returns of the shell's output is what the
shell printed, in order and each piece once; as long as the session goes on, whatever is missing
from the screen is underway. What the server opens are all frames it has accepted, and what it reads
from them is what was typed and resized by calls that returned `Ok`, in order and each once. -/
theorem terminal_carried_exactly (box : SecretBox) (codec : TerminalCodec) (cfg : BackedConfig)
    (now : Instant) (session : TerminalSession) (log : List SittingNote) (s : Sitting)
    (lawful : box.Lawful) (readable : codec.Lawful)
    (run : (Sitting.system box codec cfg now session).Reaches (fun _ _ => codec.Keeps) log s) :
    let opened := Packet.openAll box (.new cfg.key cfg.writerMsb) s.client.world.peer.accepted
    screenOf (pumpOf log) <+: printedOf log ∧
    (s.client.supervisor.finished = false → s.client.world.task.flowing = true →
      screenOf (pumpOf log) ++ s.underway.filterMap codec.readBuffer = printedOf log) ∧
    opened.length = s.client.world.peer.accepted.length ∧
    (opened.map Packet.content).filterMap codec.readOrder <+: orderedOf log := by
  have carried := carried_reaches run
  have told := told_reaches readable run
  refine ⟨?_, ?_, ?_, ?_⟩
  · have shown := (carried.taken_in_order lawful).filterMap codec.readBuffer
    rw [List.filterMap_map] at shown
    rwa [carried.screen, told.printed]
  · intro watching flowing
    rw [carried.screen, told.printed, ← carried.underway lawful watching flowing,
      List.filterMap_append, List.filterMap_map]
  · exact (opened_in_order lawful carried.client).1
  · rw [told.ordered]
    exact (opened_in_order lawful carried.client).2.filterMap codec.readOrder

theorem TerminalCodec.encodeBuffer_sample : records.encodeBuffer [104] = [10, 1, 104] := by
  decide +kernel

/-- Something is printed and something typed while there is no socket; both arrive over the next
one. -/
theorem terminal_carried_exactly_reconnect :
    ∃ log s, (Sitting.system .naming .records (.client testKey none) 0 .started).Reaches
        (fun _ _ => TerminalCodec.records.Keeps) log s ∧
      .recovered true ∈ backedOf (clientOf log) ∧ screenOf (pumpOf log) = [[104]] ∧
      (Packet.openAll .naming (.new testKey clientServerNonceMsb)
        s.client.world.peer.accepted).length = 1 ∧ orderedOf log = [.input [104]] := by
  have opening : (Sitting.system .naming .records (.client testKey none) 0 .started).Reaches
      (fun _ _ => TerminalCodec.records.Keeps) [] _ := .start
  have printed := opening.next (.prints [104]) (by decide +kernel) (by
    simp only [Sitting.system, Sitting.step, TerminalCodec.encodeBuffer_sample]
    rfl)
  have lost := printed.execute
    [.client (.world (.actor .killSocket)), .client (.world (.actor .settle)),
      .client (.world (.actor .send)), .client .recv, .client (.handshake (.returning 1)),
      .client (.world (.actor (.deliver 0)))] rfl
  have typed := lost.next (.order 0 true (.input [104])) (by decide +kernel) (by
    simp only [Sitting.system, Sitting.step, Order.payload, TerminalCodec.encodeBuffer_sample]
    rfl)
  have back := typed.execute
    [.client (.world (.actor .settle)), .client (.world (.actor (.deliver 0))),
      .client (.world (.actor (.recover 1))), .client (.world (.peer (.report 1))),
      .client (.world (.actor .sequenceSent)), .client (.world (.peer .answer)),
      .client (.world (.actor (.sequenceRead (.of 0)))), .client (.world (.actor .catchupSent)),
      .client (.world (.actor (.catchupRead 0
        ⟨[Packet.boxed .naming testKey serverClientNonceMsb 0 terminalBuffer [10, 1, 104]]⟩))),
      .client (.world (.peer .finish)), .client (.world (.actor .settle)),
      .client (.world (.actor (.deliver 0))), .client (.world (.actor .send)), .client .recv,
      .client (.sent true), .pump .call, .receive] rfl
  obtain ⟨_, shown, opened, _⟩ := terminal_carried_exactly _ _ _ _ _ _ _
    SecretBox.naming_lawful TerminalCodec.lawful_records back
  refine ⟨_, _, back, by decide, ?_, opened.trans rfl, rfl⟩
  exact (List.append_nil _).symm.trans (shown rfl rfl)

end Session

end Et
