import EtClient.Forward.Tunnel

/-!
# The bytes of a tunnel

A tunnel is a connection of each engine with the same socket id. What one end has written is
a part, from the start, of what the other has read, as long as no accepted connection gets the
id of one that is still read.

The counter of connection ids is a `u32` that wraps around, so it does come back to such an id.
The run that shows this opens a tunnel and lets as many connections be accepted and refused as
there are ids. The next connection shares its id with the open tunnel, and the bytes of the one
go to the destination of the other.
-/

namespace Et

namespace Forward

open Pipe

variable {π : Type}

/-- The connection of a side in the tunnel of a socket id. -/
def TunnelEnd (log : List (Side × EngineEffect)) (side : Side) (stream : StreamId)
    (socketId : UInt32) : Prop :=
  ∃ connId, (side, .opened stream connId socketId side.direction) ∈ log

/-- Different entries of a list are named differently. -/
private theorem eq_of_named {α β : Type} {named : α → Option β} {xs : List α}
    (nodup : (xs.filterMap named).Nodup) {x y : α} (here : x ∈ xs) (there : y ∈ xs) {name : β}
    (first : named x = some name) (second : named y = some name) : x = y := by
  by_contra different
  have symmetric : Std.Symm fun a b : α =>
      ∀ c, named a = some c → ∀ d, named b = some d → c ≠ d :=
    ⟨fun a b distinct c found d found' same => distinct d found' c found same.symm⟩
  have apart := List.pairwise_filterMap.1 nodup
  exact apart.forall here there different name first name second rfl

namespace Joined

variable {codec : Codec π} {log : List (Side × EngineEffect)} {w : Pair π} {side : Side}
  {stream : StreamId} {socketId : UInt32}

/-- A tunnel has at most one end at each side. -/
theorem end_unique (joined : Joined codec log w) {other : StreamId} {connId connId' : UInt32}
    (opened : .opened stream connId socketId side.direction ∈ sideLog side log)
    (opened' : .opened other connId' socketId side.direction ∈ sideLog side log) :
    other = stream := by
  cases side with
  | source =>
      have nodup := joined.assigned_sublist.nodup joined.unique
      cases eq_of_named nodup opened opened' rfl rfl
      rfl
  | destination =>
      cases eq_of_named joined.unique opened opened' rfl rfl
      rfl

/-- The link carries the pieces of a tunnel from one end to the other. -/
theorem wire_items (joined : Joined codec log w) {connId : UInt32}
    (opened : .opened stream connId socketId side.direction ∈ sideLog side log) :
    itemsSent stream (sideLog side log) =
      heardOf socketId side.direction (sideLog side.other log) ++
        ((w.link side.other).filterMap codec.read).filterMap
          (Message.itemFor socketId side.direction) := by
  have wire := joined.wire side.other
  rw [side.other_other] at wire
  rw [← (joined.account side).items_eq opened (joined.end_unique opened), wire,
    List.filterMap_append]
  rfl

theorem sink (joined : Joined codec log w) {partner : StreamId} {connId : UInt32}
    (opened : .opened partner connId socketId side.other.direction ∈ sideLog side.other log) :
    Sink (heardOf socketId side.direction (sideLog side.other log))
      (enqueuedTo partner (sideLog side.other log))
      (((w.engine side.other).state.table side.other.direction).lookup socketId =
        some partner) := by
  have sink := (joined.account side.other).receiving.sink opened
  rw [SinkOf, side.not_direction] at sink
  exact sink

end Joined

/-- In every run of two engines without a shutdown whose socket ids do not repeat, and whose
accepted connections get ids under which nothing is read, a tunnel has one end at each side.
What one end has written is a part, from the start, of what the other has read, and it is all
of it when the closing frame comes to an end that is still there. -/
theorem tunnel_streams {codec : Codec π} (lawful : codec.Lawful)
    {sources : List PortForwardSourceRequest} {answer : Side → Bool}
    {log : List (Side × EngineEffect)} {w : Pair π}
    (run : (Pair.system codec sources answer).Reaches (fun log w => w.Orderly log) log w) :
    (∀ {side stream stream' socketId}, TunnelEnd log side stream socketId →
      TunnelEnd log side stream' socketId → stream' = stream) ∧
    (∀ {stream socketId}, TunnelEnd log .source stream socketId →
      ∃ partner, TunnelEnd log .destination partner socketId) ∧
    (∀ {stream socketId}, TunnelEnd log .destination stream socketId →
      (∀ partner, ¬ TunnelEnd log .source partner socketId) →
      enqueuedTo stream (sideLog .destination log) = []) ∧
    ∀ {side stream partner socketId}, TunnelEnd log side stream socketId →
      TunnelEnd log side.other partner socketId →
      enqueuedTo partner (sideLog side.other log) <+: bytesRead stream (sideLog side log) ∧
      ∀ {p rest m}, w.link side.other = p :: rest → codec.read p = some m →
        m.itemFor socketId side.direction = some .close →
        ((w.engine side.other).state.table side.other.direction).lookup socketId =
          some partner →
        enqueuedTo partner (sideLog side.other log) = bytesRead stream (sideLog side log) := by
  have joined := joined_reaches lawful run
  refine ⟨?_, ?_, ?_, ?_⟩
  · rintro side stream stream' socketId ⟨_, opened⟩ ⟨_, opened'⟩
    exact joined.end_unique (mem_sideLog.2 opened) (mem_sideLog.2 opened')
  · rintro stream socketId ⟨_, opened⟩
    have created := joined.created_of_source (mem_sideLog.2 opened)
    obtain ⟨partner, connId, opened'⟩ := mem_createdOf.1 created
    exact ⟨partner, connId, mem_sideLog.1 opened'⟩
  · rintro stream socketId ⟨_, opened⟩ alone
    have part := (@Joined.sink _ _ _ _ .source _ joined _ _ (mem_sideLog.2 opened)).part
    have unheard : heardOf socketId true (sideLog Side.source.other log) = [] := by
      refine heardOf_eq_nil fun m there item found => ?_
      obtain ⟨-, partner, connId, opened'⟩ :=
        (joined.account .source).of_item (joined.sent_of_received there) found
      exact alone partner ⟨connId, mem_sideLog.1 opened'⟩
    rw [show Side.source.direction = true from rfl, unheard] at part
    exact List.prefix_nil.1 part
  · rintro side stream partner socketId ⟨_, opened⟩ ⟨_, opened'⟩
    have source := (joined.account side).sending.source (mem_sideLog.2 opened)
    have sink := joined.sink (mem_sideLog.2 opened')
    have wire := joined.wire_items (mem_sideLog.2 opened)
    refine ⟨taken_of_read source sink wire, ?_⟩
    intro p rest m queue decoded closes tracked
    rw [queue, List.filterMap_cons_some decoded, List.filterMap_cons_some closes] at wire
    exact taken_eq_read source sink wire tracked

theorem tunnel_streams_closing :
    ∃ log w,
      (Pair.system .plain oneSource fun _ => true).Reaches (fun log w => w.Orderly log) log w ∧
      TunnelEnd log .source 0 7 ∧ TunnelEnd log .destination 0 7 ∧
      w.link .destination = [closedPacket 7 true] ∧
      bytesRead 0 (sideLog .source log) = [42] ∧
      enqueuedTo 0 (sideLog .destination log) = bytesRead 0 (sideLog .source log) := by
  obtain ⟨log, w, run, opened, opened', queue, tracked, read⟩ : ∃ log w,
      (Pair.system .plain oneSource fun _ => true).Reaches (fun log w => w.Orderly log) log w ∧
      (Side.source, .opened 0 1 7 true) ∈ log ∧ (Side.destination, .opened 0 7 7 false) ∈ log ∧
      w.link .destination = [closedPacket 7 true] ∧
      (w.engine .destination).state.destinations.lookup 7 = some 0 ∧
      bytesRead 0 (sideLog .source log) = [42] :=
    ⟨_, _, .execute .start
      [.own .source (.accept 0), .own .source (.event [true]),
        .deliver .destination ⟨[true], true, [7], true⟩,
        .deliver .source ⟨[], true, [], true⟩,
        .own .source (.read 1 0 (.ok [42])), .own .source (.event [true]),
        .deliver .destination ⟨[], true, [], true⟩,
        .own .source (.read 1 0 (.ok [])), .own .source (.event [true])] rfl,
      by decide, by decide, by decide, by decide, by decide⟩
  obtain ⟨-, -, -, tunnel⟩ := tunnel_streams Codec.plain_lawful run
  refine ⟨log, w, run, ⟨1, opened⟩, ⟨7, opened'⟩, queue, read, ?_⟩
  exact (@tunnel .source 0 0 7 ⟨1, opened⟩ ⟨7, opened'⟩).2 queue rfl rfl tracked

namespace Pair

/-- Two engines and the messages on their way to each. -/
def joining (e d : Engine) (back forth : List Message) : Pair Message where
  engine
    | .source => e
    | .destination => d
  link
    | .source => back
    | .destination => forth

theorem eq_joining (w : Pair Message) :
    w = joining (w.engine .source) (w.engine .destination) (w.link .source)
      (w.link .destination) := by
  obtain ⟨engine, link⟩ := w
  refine congrArg₂ Pair.mk (funext fun side => ?_) (funext fun side => ?_) <;> cases side <;> rfl

variable {e e' d d' : Engine} {act : EngineAct Message} {effects : List EngineEffect}
variable {m : Message} {chance : Chance} {back forth : List Message}

theorem advance_source (stepped : e.step .plain act = some (e', effects)) :
    (joining e d back forth).advance .plain .source act =
      some (joining e' d back (forth ++ sentOf effects), effects.map (.source, ·)) := by
  rw [advance, show (joining e d back forth).engine .source = e from rfl, stepped, Option.map_some]
  refine congrArg some (Prod.ext ((eq_joining _).trans ?_) rfl)
  simp only [Codec.plain, List.map_id]
  rfl

theorem advance_destination (stepped : d.step .plain act = some (d', effects)) :
    (joining e d back forth).advance .plain .destination act =
      some (joining e d' (back ++ sentOf effects) forth, effects.map (.destination, ·)) := by
  rw [advance, show (joining e d back forth).engine .destination = d from rfl, stepped,
    Option.map_some]
  refine congrArg some (Prod.ext ((eq_joining _).trans ?_) rfl)
  simp only [Codec.plain, List.map_id]
  rfl

theorem deliver_source (stepped : e.step .plain (.peer m chance) = some (e', effects)) :
    (joining e d (m :: back) forth).step .plain (.deliver .source chance) =
      some (joining e' d back (forth ++ sentOf effects), effects.map (.source, ·)) := by
  rw [← advance_source stepped]
  exact congrArg (advance .plain · .source (.peer m chance)) (eq_joining _)

theorem deliver_destination (stepped : d.step .plain (.peer m chance) = some (d', effects)) :
    (joining e d back (m :: forth)).step .plain (.deliver .destination chance) =
      some (joining e d' (back ++ sentOf effects) forth, effects.map (.destination, ·)) := by
  rw [← advance_destination stepped]
  exact congrArg (advance .plain · .destination (.peer m chance)) (eq_joining _)

end Pair

/-- The runs of two engines over messages, with one source. -/
abbrev OneSourceRun (log : List (Side × EngineEffect)) (w : Pair Message) : Prop :=
  (Pair.system .plain oneSource fun _ => true).Reaches (fun log w => w.Sound log) log w

namespace OneSourceRun

variable {e e' d d' : Engine} {act : EngineAct Message} {effects : List EngineEffect}
variable {m : Message} {chance : Chance} {back forth : List Message}
variable {log : List (Side × EngineEffect)}

theorem source_acts (run : OneSourceRun log (.joining e d back forth))
    (stepped : e.step .plain act = some (e', effects)) (permitted : Side.source.Permits act) :
    OneSourceRun (log ++ effects.map (.source, ·))
      (.joining e' d back (forth ++ sentOf effects)) :=
  .next (.own .source act) run permitted (Pair.advance_source stepped)

theorem source_receives (run : OneSourceRun log (.joining e d (m :: back) forth))
    (stepped : e.step .plain (.peer m chance) = some (e', effects)) :
    OneSourceRun (log ++ effects.map (.source, ·))
      (.joining e' d back (forth ++ sentOf effects)) :=
  .next (.deliver .source chance) run trivial (Pair.deliver_source stepped)

theorem destination_receives (run : OneSourceRun log (.joining e d back (m :: forth)))
    (stepped : d.step .plain (.peer m chance) = some (d', effects))
    (fresh : ∀ drawn ∈ chance.draws.find? fun drawn => (d.state.destinations.lookup drawn).isNone,
      drawn ∉ createdOf (sideLog .destination log)) :
    OneSourceRun (log ++ effects.map (.destination, ·))
      (.joining e d' (back ++ sentOf effects) forth) :=
  .next (.deliver .destination chance) run fresh (Pair.deliver_destination stepped)

end OneSourceRun

/-- The sources behind the opening of one tunnel, with the counter of connection ids and the number
of connections. -/
def tunnelSource (connId : UInt32) (streams : Nat) : Engine where
  state :=
    { sources := oneSource
      nextConnId := connId
      pending := ∅
      sourceSockets := (∅ : Table StreamId).insert 7 0
      sourceConnIds := (∅ : Table UInt32).insert 1 7
      destinations := ∅ }
  answerDestinations := true
  events := []
  readers := [(1, 0)]
  streams := streams
  shutdown := false
  running := true

def tunnelDestination (streams : Nat) : Engine where
  state := { EngineState.new [] with destinations := (∅ : Table StreamId).insert 7 0 }
  answerDestinations := true
  events := []
  readers := [(7, 0)]
  streams := streams
  shutdown := false
  running := true

/-- The tunnel is open and nothing has gone through it. -/
structure Untouched (log : List (Side × EngineEffect)) : Prop where
  created : createdOf (sideLog .destination log) = [7]
  unread : ∀ stream, bytesRead stream (sideLog .source log) = []
  unwritten : ∀ stream, enqueuedTo stream (sideLog .destination log) = []

theorem Untouched.append {log more : List (Side × EngineEffect)} (untouched : Untouched log)
    (created : createdOf (sideLog .destination more) = [])
    (unread : ∀ stream, bytesRead stream (sideLog .source more) = [])
    (unwritten : ∀ stream, enqueuedTo stream (sideLog .destination more) = []) :
    Untouched (log ++ more) := by
  have split (side : Side) : sideLog side (log ++ more) = sideLog side log ++ sideLog side more :=
    List.filterMap_append
  refine ⟨?_, fun stream => ?_, fun stream => ?_⟩
  · rw [split, createdOf_append, untouched.created, created]
    rfl
  · rw [split, bytesRead, List.flatMap_append]
    exact congrArg₂ _ (untouched.unread stream) (unread stream)
  · rw [split, enqueuedTo_append, untouched.unwritten, unwritten]
    rfl

/-- A pending connection is refused. -/
theorem tunnelSource_refused (connId : UInt32) (a : Nat) (text : String) :
    Engine.step .plain
        { tunnelSource (connId + 1) (a + 1) with
          state := { (tunnelSource (connId + 1) (a + 1)).state with
            pending := (∅ : Table StreamId).insert connId a } }
        (.peer (.response { clientfd := some connId.toInt32, error := some text })
          ⟨[], true, [], true⟩) =
      some (tunnelSource (connId + 1) (a + 2),
        [.received (.response { clientfd := some connId.toInt32, error := some text })]) := by
  have again : ((∅ : Table StreamId).insert connId a).erase connId = ∅ := by
    have keys : (((∅ : Table StreamId).insert connId a).erase connId).keys = [] := by
      simp [AList.keys_erase]
    exact AList.ext (List.map_eq_nil_iff.1 keys)
  have handled (s : EngineState) (pending : s.pending = (∅ : Table StreamId).insert connId a) :
      s.handlePeer true (a + 1) ⟨[], true, [], true⟩
          (.response { clientfd := some connId.toInt32, error := some text }) =
        some ({ s with pending := ∅ }, []) := by
    rw [← again, ← pending]
    simp only [EngineState.handlePeer, Option.map_some, UInt32.toUInt32_toInt32]
    rw [pending, AList.lookup_insert]
    rfl
  have received := congrArg (Option.map fun handled : EngineState × List EngineEffect =>
    (({ tunnelSource (connId + 1) (a + 1) with
        state := handled.1
        readers := [(1, 0)] ++ handled.2.filterMap EngineEffect.reader?
        streams := a + 2 } : Engine),
      EngineEffect.received (.response { clientfd := some connId.toInt32, error := some text }) ::
        sendOrShutdown [] handled.2))
    (handled { (tunnelSource (connId + 1) (a + 1)).state with
      pending := (∅ : Table StreamId).insert connId a } rfl)
  exact received

/-- A connection is accepted, the destination cannot be reached, and the connection is dropped. -/
theorem refused_round {log : List (Side × EngineEffect)} {connId : UInt32} {a b : Nat}
    (run : OneSourceRun log (.joining (tunnelSource connId a) (tunnelDestination b) [] []))
    (untouched : Untouched log) :
    ∃ log', OneSourceRun log'
        (.joining (tunnelSource (connId + 1) (a + 2)) (tunnelDestination (b + 1)) [] []) ∧
      Untouched log' := by
  have accept : (tunnelSource connId a).step .plain (.accept 0) =
      some ({ tunnelSource connId (a + 1) with events := [.accepted 0 a] }, []) := rfl
  have ask : Engine.step .plain { tunnelSource connId (a + 1) with events := [.accepted 0 a] }
      (.event [true]) = some ({ tunnelSource (connId + 1) (a + 1) with
          state := { (tunnelSource (connId + 1) (a + 1)).state with
            pending := (∅ : Table StreamId).insert connId a } },
        [.sent none (.request ⟨some ⟨none, some 80⟩, some connId.toInt32⟩)]) := rfl
  have fail : (tunnelDestination b).step .plain
      (.peer (.request ⟨some ⟨none, some 80⟩, some connId.toInt32⟩) ⟨[true], false, [], true⟩) =
      some (tunnelDestination (b + 1),
        [.received (.request ⟨some ⟨none, some 80⟩, some connId.toInt32⟩),
          .sent none (.response { clientfd := some connId.toInt32
                                  error := some "could not connect to destination" })]) := rfl
  have asked := (run.source_acts accept trivial).source_acts ask trivial
  have refused := (asked.destination_receives fail nofun).source_receives
    (tunnelSource_refused connId a "could not connect to destination")
  refine ⟨_, refused, ?_⟩
  simp only [List.append_assoc]
  exact untouched.append rfl (fun _ => rfl) (fun _ => rfl)

/-- The counter goes around while the tunnel is open. -/
theorem refused_rounds (n : Nat) : ∃ log, OneSourceRun log
      (.joining (tunnelSource (2 + UInt32.ofNat n) (2 + 2 * n)) (tunnelDestination (1 + n)) [] []) ∧
    Untouched log := by
  induction n with
  | zero =>
      obtain ⟨log, w, run, untouched, source, destination, back, forth⟩ :
          ∃ log w, OneSourceRun log w ∧ Untouched log ∧ w.engine .source = tunnelSource 2 2 ∧
            w.engine .destination = tunnelDestination 1 ∧ w.link .source = [] ∧
            w.link .destination = [] :=
        ⟨_, _, .execute .start
          [.own .source (.accept 0), .own .source (.event [true]),
            .deliver .destination ⟨[true], true, [7], true⟩,
            .deliver .source ⟨[], true, [], true⟩] rfl,
          ⟨rfl, fun _ => rfl, fun _ => rfl⟩, rfl, rfl, rfl, rfl⟩
      rw [w.eq_joining, source, destination, back, forth] at run
      exact ⟨log, run, untouched⟩
  | succ n ih =>
      obtain ⟨log, run, untouched⟩ := ih
      have next := refused_round run untouched
      rwa [UInt32.add_assoc, show UInt32.ofNat n + 1 = UInt32.ofNat (n + 1) by simp] at next

/-- A second connection has got the id of the first one and the socket id 8. -/
def crossedSource (stream streams : Nat) : Engine where
  state :=
    { (tunnelSource 2 streams).state with
      sourceSockets := ((∅ : Table StreamId).insert 7 0).insert 8 stream
      sourceConnIds := (∅ : Table UInt32).insert 1 8 }
  answerDestinations := true
  events := []
  readers := [(1, 0), (1, stream)]
  streams := streams
  shutdown := false
  running := true

def crossedDestination (stream streams : Nat) : Engine where
  state :=
    { EngineState.new [] with destinations := ((∅ : Table StreamId).insert 7 0).insert 8 stream }
  answerDestinations := true
  events := []
  readers := [(7, 0), (8, stream)]
  streams := streams
  shutdown := false
  running := true

/-- An accepted connection is given the id of the first one, and a socket id of its own. -/
theorem crossed_round {log : List (Side × EngineEffect)} {a b : Nat}
    (run : OneSourceRun log (.joining (tunnelSource 1 a) (tunnelDestination b) [] []))
    (untouched : Untouched log) :
    OneSourceRun
      (log ++ [(.source, .sent none (.request ⟨some ⟨none, some 80⟩, some 1⟩)),
        (.destination, .received (.request ⟨some ⟨none, some 80⟩, some 1⟩)),
        (.destination, .opened b 8 8 false),
        (.destination, .sent none (.response { clientfd := some 1, socketid := some 8 })),
        (.source, .received (.response { clientfd := some 1, socketid := some 8 })),
        (.source, .opened a 1 8 true)])
      (.joining (crossedSource a (a + 2)) (crossedDestination b (b + 1)) [] []) := by
  have accept : (tunnelSource 1 a).step .plain (.accept 0) =
      some ({ tunnelSource 1 (a + 1) with events := [.accepted 0 a] }, []) := rfl
  have ask : Engine.step .plain { tunnelSource 1 (a + 1) with events := [.accepted 0 a] }
      (.event [true]) = some ({ tunnelSource 2 (a + 1) with
          state := { (tunnelSource 2 (a + 1)).state with
            pending := (∅ : Table StreamId).insert 1 a } },
        [.sent none (.request ⟨some ⟨none, some 80⟩, some 1⟩)]) := rfl
  have create : (tunnelDestination b).step .plain
      (.peer (.request ⟨some ⟨none, some 80⟩, some 1⟩) ⟨[true], true, [8], true⟩) =
      some (crossedDestination b (b + 1),
        [.received (.request ⟨some ⟨none, some 80⟩, some 1⟩), .opened b 8 8 false,
          .sent none (.response { clientfd := some 1, socketid := some 8 })]) := rfl
  have map : Engine.step .plain { tunnelSource 2 (a + 1) with
        state := { (tunnelSource 2 (a + 1)).state with
          pending := (∅ : Table StreamId).insert 1 a } }
      (.peer (.response { clientfd := some 1, socketid := some 8 }) ⟨[], true, [], true⟩) =
      some (crossedSource a (a + 2),
        [.received (.response { clientfd := some 1, socketid := some 8 }),
          .opened a 1 8 true]) := rfl
  have asked := (run.source_acts accept trivial).source_acts ask trivial
  have elsewhere : Side.source ≠ .destination := nofun
  have opened := asked.destination_receives create fun drawn found => by
    cases found
    rw [sideLog_of_ne elsewhere, sideLog_of_ne elsewhere, untouched.created]
    decide
  have mapped := opened.source_receives map
  simp only [List.append_assoc, List.map_nil, List.map_cons, List.nil_append, List.cons_append]
    at mapped
  exact mapped

/-- The counter has come back to the id of the open tunnel. The next connection gets it, and what is
read from the first one goes to the destination of the new one. -/
theorem wrapped_id_mixes_tunnels :
    ∃ log w stream partner,
      (Pair.system .plain oneSource fun _ => true).Reaches (fun log w => w.Sound log) log w ∧
      TunnelEnd log .source stream 8 ∧ TunnelEnd log .destination partner 8 ∧
      bytesRead stream (sideLog .source log) = [] ∧
      enqueuedTo partner (sideLog .destination log) = [42] := by
  obtain ⟨log, run, untouched⟩ := refused_rounds (2 ^ 32 - 1)
  rw [show (2 : UInt32) + UInt32.ofNat (2 ^ 32 - 1) = 1 from rfl] at run
  obtain ⟨a, new⟩ : ∃ a, 2 + 2 * (2 ^ 32 - 1) = a + 1 := ⟨_, rfl⟩
  rw [new] at run
  generalize 1 + (2 ^ 32 - 1) = b at run
  have read : (crossedSource (a + 1) (a + 3)).step .plain (.read 1 0 (.ok [42])) =
      some ({ crossedSource (a + 1) (a + 3) with events := [.read 1 0 (.ok [42])] },
        [.read 0 (.ok [42])]) := rfl
  have relay : Engine.step .plain
      { crossedSource (a + 1) (a + 3) with events := [.read 1 0 (.ok [42])] } (.event [true]) =
      some (crossedSource (a + 1) (a + 3), [.sent (some 0) (dataPacket 8 true [42])]) := rfl
  have take : ∃ d, (crossedDestination b (b + 1)).step .plain
      (.peer (dataPacket 8 true [42]) ⟨[], true, [], true⟩) =
      some (d, [.received (dataPacket 8 true [42]), .enqueued b [42]]) := ⟨_, rfl⟩
  obtain ⟨d, take⟩ := take
  have sent := ((crossed_round run untouched).source_acts read trivial).source_acts relay trivial
  have taken := sent.destination_receives take nofun
  have split (side : Side) (more : List (Side × EngineEffect)) :
      sideLog side (log ++ more) = sideLog side log ++ sideLog side more := List.filterMap_append
  refine ⟨_, _, a + 1, b, taken, ⟨1, ?_⟩, ⟨8, ?_⟩, ?_, ?_⟩
  · simp [Side.direction]
  · simp [Side.direction]
  · simp only [List.append_assoc]
    rw [split, bytesRead, List.flatMap_append]
    exact congrArg₂ _ (untouched.unread (a + 1)) (by simp [sideLog])
  · simp only [List.append_assoc]
    rw [split, enqueuedTo_append, untouched.unwritten]
    simp [sideLog, enqueuedTo]

end Forward

end Et
