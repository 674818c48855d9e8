import EtClient.Forward.Sending

/-!
# What a connection is given

The data frames for one socket id and direction and the bytes that went into the write
queue of its connection form the receiving end of a byte stream. A connection is tracked
while its socket id leads to it. A frame that closes the tunnel, a failed write and a
new connection under the same socket id all end this for good, and later frames for the
socket id are not written to it.

The stream of a connection begins when it is opened, so that no frame for its socket id
may have come before.
-/

namespace Et

namespace Forward

open Pipe

variable {π : Type}

def receivedOf (log : List EngineEffect) : List Message :=
  log.filterMap fun
    | .received m => some m
    | _ => none

/-- What a message is to the stream of a socket id and direction flag. -/
def Message.itemFor (socketId : UInt32) (flag : Bool) : Message → Option (Item UInt8)
  | .data d =>
      if d.socketid.map Int32.toUInt32 = some socketId ∧ d.sourcetodestination.getD false = flag
      then d.item? else none
  | _ => none

def heardOf (socketId : UInt32) (flag : Bool) (log : List EngineEffect) : List (Item UInt8) :=
  (receivedOf log).filterMap (Message.itemFor socketId flag)

def enqueuedTo (stream : StreamId) (log : List EngineEffect) : Bytes :=
  log.flatMap fun
    | .enqueued other bytes => if other = stream then bytes else []
    | _ => []

theorem receivedOf_append (log effects : List EngineEffect) :
    receivedOf (log ++ effects) = receivedOf log ++ receivedOf effects :=
  List.filterMap_append

theorem heardOf_append (socketId : UInt32) (flag : Bool) (log effects : List EngineEffect) :
    heardOf socketId flag (log ++ effects) =
      heardOf socketId flag log ++ heardOf socketId flag effects := by
  rw [heardOf, receivedOf_append, List.filterMap_append]
  rfl

theorem enqueuedTo_append (stream : StreamId) (log effects : List EngineEffect) :
    enqueuedTo stream (log ++ effects) = enqueuedTo stream log ++ enqueuedTo stream effects :=
  List.flatMap_append

theorem mem_receivedOf {m : Message} {log : List EngineEffect} :
    m ∈ receivedOf log ↔ .received m ∈ log := by
  constructor
  · intro there
    obtain ⟨effect, logged, same⟩ := List.mem_filterMap.1 there
    split at same
    · exact Option.some.inj same ▸ logged
    · cases same
  · exact fun there => List.mem_filterMap.2 ⟨_, there, rfl⟩

theorem mem_sentOf {m : Message} {log : List EngineEffect} :
    m ∈ sentOf log ↔ ∃ origin, .sent origin m ∈ log := by
  constructor
  · intro there
    obtain ⟨effect, logged, same⟩ := List.mem_filterMap.1 there
    split at same
    · exact ⟨_, Option.some.inj same ▸ logged⟩
    · cases same
  · rintro ⟨origin, there⟩
    exact List.mem_filterMap.2 ⟨_, there, rfl⟩

/-- What is a piece of the stream is a data frame of it. -/
theorem itemFor_eq_some {socketId : UInt32} {flag : Bool} {m : Message} {item : Item UInt8}
    (found : m.itemFor socketId flag = some item) :
    ∃ d, m = .data d ∧ d.socketid.map Int32.toUInt32 = some socketId ∧
      d.sourcetodestination.getD false = flag := by
  cases m with
  | request _ | response _ => cases found
  | data d =>
      rw [Message.itemFor] at found
      split at found
      · rename_i fits
        exact ⟨d, rfl, fits⟩
      · cases found

/-- The connections whose own frames have this direction, by socket id. -/
def EngineState.table (s : EngineState) : Bool → Table StreamId
  | true => s.sourceSockets
  | false => s.destinations

theorem EngineState.Within.table {s s' : EngineState} (within : s'.Within s) {direction : Bool}
    {socketId : UInt32} {stream : StreamId}
    (found : (s'.table direction).lookup socketId = some stream) :
    (s.table direction).lookup socketId = some stream := by
  cases direction with
  | true => exact within.sourceSockets found
  | false => exact within.destinations found

/-- A data frame is for the table of the other direction. -/
theorem PeerStep.data {s s' : EngineState} {stream : StreamId} {chance : Chance}
    {d : PortForwardData} {effects : List EngineEffect}
    (step : PeerStep s stream chance (.data d) s' effects) :
    d.socketid.map Int32.toUInt32 = none ∧ effects = [] ∨
      ∃ socketId, d.socketid.map Int32.toUInt32 = some socketId ∧
        DataStep (s.table !d.sourcetodestination.getD false) socketId
          (d.closed.getD false || d.error.isSome) d.buffer
          (s'.table !d.sourcetodestination.getD false) effects := by
  cases step with
  | ignored _ _ unnamed => exact .inl ⟨unnamed d rfl, rfl⟩
  | toDestination _ socketId table _ named towards data =>
      refine .inr ⟨socketId, named, ?_⟩
      rw [towards]
      exact data
  | toSource _ socketId table _ named back data =>
      refine .inr ⟨socketId, named, ?_⟩
      rw [back]
      exact data

/-- A frame that neither closes its connection nor fails to be written leaves the table as it
was. -/
theorem lookup_receiveData {table : Table StreamId} {socketId : UInt32} {closed written : Bool}
    {buffer : Option Bytes}
    (keeps : (table.lookup socketId).isSome = true →
      closed = false ∧ (buffer.isSome = true → written = true)) (key : UInt32) :
    (receiveData table socketId closed buffer written).1.lookup key = table.lookup key := by
  rw [receiveData]
  split
  · rfl
  · rename_i conn found
    obtain ⟨unclosed, taken⟩ := keeps (by rw [found]; rfl)
    subst unclosed
    cases buffer with
    | none => exact Table.lookup_restore found
    | some bytes =>
        rw [taken rfl]
        exact Table.lookup_restore found

/-- The table of its direction behind a data frame. -/
theorem Engine.table_of_data {codec : Codec π} {e e' : Engine} {p : π} {chance : Chance}
    {effects : List EngineEffect} {d : PortForwardData} {socketId : UInt32}
    (decoded : codec.read p = some (.data d))
    (named : d.socketid.map Int32.toUInt32 = some socketId)
    (stepped : e.step codec (.peer p chance) = some (e', effects)) :
    e'.state.table (!d.sourcetodestination.getD false) =
      (receiveData (e.state.table !d.sourcetodestination.getD false) socketId
        (d.closed.getD false || d.error.isSome) d.buffer chance.written).1 := by
  obtain ⟨-, raw, handled, -⟩ := handled_of_step decoded stepped
  rw [EngineState.handlePeer, named] at handled
  cases towards : d.sourcetodestination.getD false <;>
    simp only [towards, Bool.false_eq_true, if_false, if_true, Option.some.injEq,
      Prod.mk.injEq] at handled <;>
    rw [← handled.1] <;> rfl

/-- The bytes of a data frame go to the connection in its table. -/
theorem DataStep.enqueued {table table' : Table StreamId} {socketId : UInt32} {closed : Bool}
    {buffer : Option Bytes} {effects : List EngineEffect}
    (step : DataStep table socketId closed buffer table' effects) {conn : StreamId}
    {bytes : Bytes} (there : .enqueued conn bytes ∈ effects) :
    table.lookup socketId = some conn := by
  cases step with
  | unknown _ => cases there
  | torn _ _ => cases List.mem_singleton.1 there
  | kept other found _ =>
      obtain ⟨_, -, same⟩ := List.mem_map.1 there
      exact (EngineEffect.enqueued.inj same).1 ▸ found

/-- Only data frames are written to a connection, and only to the one in their table. -/
theorem Engine.Moves.enqueued {codec : Codec π} {e e' : Engine} {act : EngineAct π}
    {effects : List EngineEffect} (moves : e.Moves codec act e' effects) {conn : StreamId}
    {bytes : Bytes} (there : .enqueued conn bytes ∈ effects) :
    ∃ d socketId, .received (.data d) ∈ effects ∧
      d.socketid.map Int32.toUInt32 = some socketId ∧
      (e.state.table !d.sourcetodestination.getD false).lookup socketId = some conn := by
  cases moves.emits there with
  | relayed _ _ _ _ _ _ _ _ read raws =>
      obtain ⟨_, same⟩ | ⟨_, same⟩ | ⟨_, same⟩ := read.effect_cases _ raws <;> cases same
  | handled p chance m state raw decoded peer raws =>
      cases m with
      | data d =>
          rcases peer.data with ⟨-, rfl⟩ | ⟨socketId, named, data⟩
          · cases raws
          · exact ⟨d, socketId, List.mem_cons_self, named, data.enqueued raws⟩
      | request request =>
          cases peer with
          | ignored _ _ _ => cases raws
          | answered _ _ _ => cases List.mem_singleton.1 raws
          | created _ _ _ => simp at raws
      | response response =>
          cases peer with
          | ignored _ _ _ => cases raws
          | refused _ _ _ => cases raws
          | mapped _ _ _ _ _ _ _ => simp at raws

private theorem receivedOf_eq_nil {effects : List EngineEffect}
    (none : ∀ effect ∈ effects, ∀ m, effect ≠ .received m) : receivedOf effects = [] := by
  rw [receivedOf, List.filterMap_eq_nil_iff]
  intro effect there
  split
  · rename_i m
    exact absurd rfl (none _ there m)
  · rfl

/-- The message that the engine is handed. -/
def EngineAct.message? (codec : Codec π) : EngineAct π → Option Message
  | .peer p _ => codec.read p
  | _ => none

theorem Engine.Moves.receivedOf_eq {codec : Codec π} {e e' : Engine} {act : EngineAct π}
    {effects : List EngineEffect} (moves : e.Moves codec act e' effects) :
    receivedOf effects = (act.message? codec).toList := by
  cases moves with
  | accept _ | abort _ _ | addSources _ | shutdown => rfl
  | read _ _ _ _ => rfl
  | take sends sourceIdx stream events state raw ready queue handled =>
      refine receivedOf_eq_nil fun effect there => ?_
      have handles := (sendOrShutdown_sublist _ _).subset there
      rcases EngineState.handleAccepted_cases handled with ⟨-, rfl⟩ | ⟨_, -, -, rfl⟩
      · cases handles
      · rw [List.mem_singleton.1 handles]
        rintro m ⟨⟩
  | relay sends connId stream result events state raw ready queue read =>
      refine receivedOf_eq_nil fun effect there => ?_
      obtain ⟨_, rfl⟩ | ⟨_, rfl⟩ | ⟨_, rfl⟩ :=
        read.effect_cases _ ((sendOrShutdown_sublist _ _).subset there) <;> rintro m ⟨⟩
  | skip p chance unread =>
      rw [EngineAct.message?, unread]
      rfl
  | receive p chance m state raw ready decoded peer =>
      rw [EngineAct.message?, decoded]
      refine congrArg (m :: ·) (receivedOf_eq_nil fun effect there => ?_)
      obtain ⟨_, rfl⟩ | ⟨_, _, _, _, rfl⟩ | ⟨_, rfl | ⟨_, rfl⟩⟩ :=
        peer.effect_cases _ ((sendOrShutdown_sublist _ _).subset there) <;> rintro m ⟨⟩
  | stop =>
      refine receivedOf_eq_nil fun effect there => ?_
      obtain ⟨entry, -, rfl⟩ := List.mem_map.1 there
      rintro m ⟨⟩

/-- What is in a table was opened, or is being opened now. -/
theorem Engine.Moves.table {codec : Codec π} {e e' : Engine} {act : EngineAct π}
    {effects : List EngineEffect} (moves : e.Moves codec act e' effects) {direction : Bool}
    {socketId : UInt32} {stream : StreamId}
    (found : (e'.state.table direction).lookup socketId = some stream) :
    (e.state.table direction).lookup socketId = some stream ∨
      ∃ connId, .opened stream connId socketId direction ∈ effects := by
  rcases moves.opens_or_shrinks with opens | shrinks
  · cases opens with
    | destination p chance request drawn decoded _ =>
        cases direction with
        | true => exact .inl found
        | false =>
            rcases Table.lookup_insert_cases found with ⟨rfl, rfl⟩ | ⟨-, old⟩
            · refine .inr ⟨socketId, ?_⟩
              exact (Engine.mem_opened Engine.Opens.silent_destination).2 ⟨rfl, rfl, rfl, rfl⟩
            · exact .inl old
    | source p chance response connId assigned conn decoded _ _ _ =>
        cases direction with
        | false => exact .inl found
        | true =>
            rcases Table.lookup_insert_cases found with ⟨rfl, rfl⟩ | ⟨-, old⟩
            · refine .inr ⟨connId, ?_⟩
              exact (Engine.mem_opened Engine.Opens.silent_source).2 ⟨rfl, rfl, rfl, rfl⟩
            · exact .inl old
  · exact .inl (shrinks.tables.table found)

/-- A connection that was open is not put into a table. -/
theorem StreamsOf.table_of_opened {codec : Codec π} {log effects : List EngineEffect}
    {e e' : Engine} {act : EngineAct π} (streams : StreamsOf log e)
    (moves : e.Moves codec act e' effects) {stream : StreamId} {connId socketId' : UInt32}
    {direction' : Bool} (opened : .opened stream connId socketId' direction' ∈ log)
    {direction : Bool} {socketId : UInt32}
    (found : (e'.state.table direction).lookup socketId = some stream) :
    (e.state.table direction).lookup socketId = some stream := by
  rcases moves.table found with old | ⟨key, new⟩
  · exact old
  · rcases moves.opens_or_shrinks with opens | shrinks
    · exact absurd opened (streams.unopened opens new _ _ _)
    · exact absurd new (shrinks.unopened _ _ _ _)

/-- The step that receives a message. -/
theorem Engine.Moves.of_received {codec : Codec π} {e e' : Engine} {act : EngineAct π}
    {effects : List EngineEffect} (moves : e.Moves codec act e' effects) {m : Message}
    (there : .received m ∈ effects) :
    ∃ p chance raw, act = .peer p chance ∧ e.ready chance.sends = true ∧
      codec.read p = some m ∧ PeerStep e.state e.streams chance m e'.state raw ∧
      effects = .received m :: sendOrShutdown chance.sends raw := by
  have received : m ∈ receivedOf effects := mem_receivedOf.2 there
  rw [moves.receivedOf_eq] at received
  cases moves with
  | receive p chance m' state raw ready decoded peer =>
      obtain rfl := Option.some.inj (decoded.symm.trans (Option.mem_toList.1 received))
      exact ⟨p, chance, raw, rfl, ready, decoded, peer, rfl⟩
  | skip p chance unread => cases there
  | accept _ | read _ _ _ _ | abort _ _ | take _ _ _ _ _ _ _ _ _ | relay _ _ _ _ _ _ _ _ _ _
  | addSources _ | shutdown | stop => cases received

def SinkOf (log : List EngineEffect) (e : Engine) (stream : StreamId) (socketId : UInt32)
    (direction : Bool) : Prop :=
  Sink (heardOf socketId (!direction) log) (enqueuedTo stream log)
    ((e.state.table direction).lookup socketId = some stream)

namespace SinkOf

variable {log effects : List EngineEffect} {e e' : Engine} {stream : StreamId}
  {socketId : UInt32} {direction : Bool}

theorem of_same (sink : SinkOf log e stream socketId direction)
    (unheard : heardOf socketId (!direction) effects = [])
    (unwritten : enqueuedTo stream effects = [])
    (tracked : (e'.state.table direction).lookup socketId = some stream →
      (e.state.table direction).lookup socketId = some stream) :
    SinkOf (log ++ effects) e' stream socketId direction := by
  rw [SinkOf, heardOf_append, enqueuedTo_append, unheard, unwritten, List.append_nil,
    List.append_nil]
  exact Sink.weaken sink tracked

private theorem enqueuedTo_other {conn : StreamId} (different : conn ≠ stream)
    (buffer : Option Bytes) : enqueuedTo stream (buffer.toList.map (.enqueued conn)) = [] := by
  rw [enqueuedTo, List.flatMap_eq_nil_iff]
  intro effect there
  obtain ⟨bytes, -, rfl⟩ := List.mem_map.1 there
  exact if_neg different

/-- A data frame for the socket id and the direction of the connection. -/
theorem of_data (sink : SinkOf log e stream socketId direction) {d : PortForwardData}
    {raw : List EngineEffect}
    (data : DataStep (e.state.table direction) socketId
      (d.closed.getD false || d.error.isSome) d.buffer (e'.state.table direction) raw)
    (heard : heardOf socketId (!direction) effects = d.item?.toList)
    (written : enqueuedTo stream effects = enqueuedTo stream raw) :
    SinkOf (log ++ effects) e' stream socketId direction := by
  rw [SinkOf, heardOf_append, enqueuedTo_append, heard, written]
  generalize e'.state.table direction = table at data ⊢
  cases data with
  | unknown missing =>
      rw [show enqueuedTo stream [] = [] from rfl, List.append_nil]
      refine (Sink.ignore sink _).weaken fun tracked => ?_
      exact absurd (missing.symm.trans tracked) nofun
  | torn conn found =>
      rw [show enqueuedTo stream [.tornDown conn] = [] from rfl, List.append_nil]
      refine (Sink.ignore sink _).weaken fun tracked => ?_
      rw [AList.lookup_erase] at tracked
      cases tracked
  | kept conn found unclosed =>
      have item : d.item? = d.buffer.map .chunk := by
        rw [PortForwardData.item?, unclosed]
        rfl
      rw [Table.lookup_restore found, item]
      by_cases same : conn = stream
      · subst same
        cases d.buffer with
        | none => simpa [SinkOf, enqueuedTo] using sink
        | some bytes => simpa [enqueuedTo] using Sink.take sink found bytes
      · rw [enqueuedTo_other same, List.append_nil]
        refine (Sink.ignore sink _).weaken fun tracked => ?_
        exact same (Option.some.inj (found.symm.trans tracked))

end SinkOf

/-- No frame for the socket id has come before a connection is opened under it. -/
def Engine.Unheard (codec : Codec π) (log : List EngineEffect) (e : Engine) :
    EngineAct π → Prop
  | .peer p chance =>
      (∀ request, codec.read p = some (.request request) →
        ∀ drawn ∈ chance.draws.find? (fun drawn => (e.state.destinations.lookup drawn).isNone),
          heardOf drawn true log = []) ∧
      ∀ response, codec.read p = some (.response response) →
        ∀ socketId ∈ response.socketid.map Int32.toUInt32, heardOf socketId false log = []
  | _ => True

structure Receiving (log : List EngineEffect) (e : Engine) : Prop where
  table : ∀ {direction socketId stream}, (e.state.table direction).lookup socketId = some stream →
    ∃ connId, .opened stream connId socketId direction ∈ log
  written : ∀ {stream bytes}, .enqueued stream bytes ∈ log → ∃ connId socketId direction,
    .opened stream connId socketId direction ∈ log
  sink : ∀ {stream connId socketId direction},
    .opened stream connId socketId direction ∈ log → SinkOf log e stream socketId direction

namespace Receiving

variable {codec : Codec π} {log effects : List EngineEffect} {e e' : Engine} {act : EngineAct π}

theorem enqueuedTo_eq_nil (receiving : Receiving log e) {stream : StreamId}
    (unopened : Unopened log stream) : enqueuedTo stream log = [] := by
  rw [enqueuedTo, List.flatMap_eq_nil_iff]
  intro effect there
  split
  · rename_i other bytes
    refine if_neg fun same => ?_
    obtain ⟨_, _, _, opened⟩ := receiving.written there
    exact unopened _ _ _ (same ▸ opened)
  · rfl

/-- Every step, for a connection that is open. -/
theorem sink_step (receiving : Receiving log e) (streams : StreamsOf log e)
    {stream : StreamId} {connId socketId : UInt32} {direction : Bool}
    (opened : .opened stream connId socketId direction ∈ log) (up : e.shutdown = false)
    (moves : e.Moves codec act e' effects) :
    SinkOf (log ++ effects) e' stream socketId direction := by
  have sink := receiving.sink opened
  by_cases hit : ∃ d, .received (.data d) ∈ effects ∧
      d.socketid.map Int32.toUInt32 = some socketId ∧
      d.sourcetodestination.getD false = !direction
  · obtain ⟨d, there, named, towards⟩ := hit
    obtain ⟨p, chance, raw, rfl, ready, decoded, peer, rfl⟩ := moves.of_received there
    rw [Engine.ready_sends up ready] at moves ⊢
    rcases peer.data with ⟨unnamed, -⟩ | ⟨socketId', named', data⟩
    · cases unnamed.symm.trans named
    · obtain rfl := Option.some.inj (named'.symm.trans named)
      rw [towards, Bool.not_not] at data
      refine sink.of_data data ?_ rfl
      have item : (Message.data d).itemFor socketId' (!direction) = d.item? :=
        if_pos ⟨named, towards⟩
      rw [heardOf, moves.receivedOf_eq, EngineAct.message?, decoded, Option.toList_some,
        List.filterMap_cons, item]
      cases d.item? <;> rfl
  · refine sink.of_same ?_ ?_ ?_
    · rw [heardOf, List.filterMap_eq_nil_iff]
      intro m there
      cases item : m.itemFor socketId !direction with
      | none => rfl
      | some _ =>
          obtain ⟨d, rfl, fits⟩ := itemFor_eq_some item
          exact absurd ⟨d, mem_receivedOf.1 there, fits⟩ hit
    · rw [enqueuedTo, List.flatMap_eq_nil_iff]
      intro effect there
      split
      · rename_i conn bytes
        refine if_neg fun same => hit ?_
        subst same
        -- The frame was for the connection, so it was for its socket id and direction.
        obtain ⟨d, socketId', received, named, found⟩ := moves.enqueued there
        obtain ⟨key, opened'⟩ := receiving.table found
        obtain ⟨-, rfl, towards⟩ := streams.once opened opened'
        exact ⟨d, received, named, by rw [← towards, Bool.not_not]⟩
      · rfl
    · exact streams.table_of_opened moves opened

/-- A connection that is being opened has an empty stream. -/
theorem sink_opens (receiving : Receiving log e) (streams : StreamsOf log e)
    {stream : StreamId} {connId socketId : UInt32} {direction : Bool}
    (unheard : e.Unheard codec log act) (moves : e.Moves codec act e' effects)
    (opens : e.Opens codec act e' effects)
    (new : .opened stream connId socketId direction ∈ effects) :
    SinkOf (log ++ effects) e' stream socketId direction := by
  have empty := receiving.enqueuedTo_eq_nil (streams.unopened opens new)
  have fresh : heardOf socketId (!direction) log = [] ∧
      ∀ d, act.message? codec ≠ some (.data d) := by
    cases opens with
    | destination p chance request drawn decoded found =>
        obtain ⟨-, -, rfl, rfl⟩ := (Engine.mem_opened Engine.Opens.silent_destination).1 new
        refine ⟨unheard.1 request decoded socketId found, fun d => ?_⟩
        rw [EngineAct.message?, decoded]
        exact nofun
    | source p chance response key assigned conn decoded fd given waits =>
        obtain ⟨-, -, rfl, rfl⟩ := (Engine.mem_opened Engine.Opens.silent_source).1 new
        refine ⟨unheard.2 response decoded socketId given, fun d => ?_⟩
        rw [EngineAct.message?, decoded]
        exact nofun
  have undata : ∀ d, .received (.data d) ∉ effects := by
    intro d there
    have received := mem_receivedOf.2 there
    rw [moves.receivedOf_eq] at received
    exact fresh.2 d (Option.mem_toList.1 received)
  have unheard : heardOf socketId (!direction) effects = [] := by
    rw [heardOf, List.filterMap_eq_nil_iff]
    intro m there
    cases item : m.itemFor socketId !direction with
    | none => rfl
    | some _ =>
        obtain ⟨d, rfl, -⟩ := itemFor_eq_some item
        exact absurd (mem_receivedOf.1 there) (undata d)
  have unwritten : enqueuedTo stream effects = [] := by
    rw [enqueuedTo, List.flatMap_eq_nil_iff]
    intro effect there
    split
    · obtain ⟨d, -, received, -⟩ := moves.enqueued there
      exact absurd received (undata d)
    · rfl
  rw [SinkOf, heardOf_append, enqueuedTo_append, fresh.1, unheard, empty, unwritten]
  exact .start

/-- Every step without a shutdown whose connections are opened on fresh streams. -/
theorem step (receiving : Receiving log e) (streams : StreamsOf log e)
    (unheard : e.Unheard codec log act) (up : e.shutdown = false)
    (moves : e.Moves codec act e' effects) : Receiving (log ++ effects) e' where
  table := by
    intro direction socketId stream found
    rcases moves.table found with old | ⟨connId, new⟩
    · obtain ⟨connId, opened⟩ := receiving.table old
      exact ⟨connId, List.mem_append_left _ opened⟩
    · exact ⟨connId, List.mem_append_right _ new⟩
  written := by
    intro stream bytes there
    rcases List.mem_append.1 there with old | new
    · obtain ⟨connId, socketId, direction, opened⟩ := receiving.written old
      exact ⟨connId, socketId, direction, List.mem_append_left _ opened⟩
    · obtain ⟨d, socketId, -, -, found⟩ := moves.enqueued new
      obtain ⟨connId, opened⟩ := receiving.table found
      exact ⟨connId, socketId, _, List.mem_append_left _ opened⟩
  sink := by
    intro stream connId socketId direction opened
    rcases List.mem_append.1 opened with old | new
    · exact receiving.sink_step streams old up moves
    · rcases moves.opens_or_shrinks with opens | shrinks
      · exact receiving.sink_opens streams unheard moves opens new
      · exact absurd new (shrinks.unopened _ _ _ _)

end Receiving

end Forward

end Et
