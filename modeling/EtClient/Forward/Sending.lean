import EtClient.Forward.Isolation
import EtClient.Lib.Pipe

/-!
# What a connection sends

The reads of one connection, the events that wait for it in the queue and the frames
about it form the sending end of a byte stream. The relay is the handler of queued
reads, and a connection is routed while its connection id is found in the tables. It
loses its route at its own end, behind everything it has read, or when the peer has
closed the tunnel, and then what waits is dropped.

All of this needs that frames are not abandoned, so that there is no shutdown, and that
ids are apart, so that no connection is given the route of another.
-/

namespace Et

namespace Forward

open Pipe

variable {π : Type}

/-- What a data frame is to the stream of its socket. -/
def PortForwardData.item? (d : PortForwardData) : Option (Item UInt8) :=
  if d.closed.getD false || d.error.isSome then some .close else d.buffer.map .chunk

/-- What one read is to the stream of its connection. -/
def resultItem : ReadResult → Item UInt8
  | .ok (byte :: bytes) => .chunk (byte :: bytes)
  | _ => .close

/-- A read gives bytes, or it ends the stream. -/
theorem result_cases (result : ReadResult) :
    (∃ byte bytes, result = .ok (byte :: bytes)) ∨
      isEnd result = true ∧ resultItem result = .close := by
  cases result with
  | error text => exact .inr ⟨rfl, rfl⟩
  | ok bytes =>
      cases bytes with
      | nil => exact .inr ⟨rfl, rfl⟩
      | cons byte bytes => exact .inl ⟨byte, bytes, rfl⟩

def bytesRead (stream : StreamId) (log : List EngineEffect) : Bytes :=
  log.flatMap fun
    | .read other (.ok bytes) => if other = stream then bytes else []
    | _ => []

def itemsSent (stream : StreamId) (log : List EngineEffect) : List (Item UInt8) :=
  log.filterMap fun
    | .sent (some other) (.data d) => if other = stream then d.item? else none
    | _ => none

def Event.itemOf (stream : StreamId) : Event → Option (Item UInt8)
  | .read _ other result => if other = stream then some (resultItem result) else none
  | .accepted _ _ => none

/-- The queued reads of a connection. -/
def Engine.waiting (e : Engine) (stream : StreamId) : List (Item UInt8) :=
  e.events.filterMap (Event.itemOf stream)

theorem bytesRead_append (stream : StreamId) (log effects : List EngineEffect) :
    bytesRead stream (log ++ effects) = bytesRead stream log ++ bytesRead stream effects :=
  List.flatMap_append

theorem itemsSent_append (stream : StreamId) (log effects : List EngineEffect) :
    itemsSent stream (log ++ effects) = itemsSent stream log ++ itemsSent stream effects :=
  List.filterMap_append

theorem bytesRead_of_end {result : ReadResult} (ends : isEnd result = true)
    (stream : StreamId) : bytesRead stream [.read stream result] = [] := by
  rcases result with text | ⟨_ | ⟨byte, bytes⟩⟩
  · rfl
  · simp [bytesRead]
  · cases ends

/-- Effects that come from no read of the connection. -/
theorem bytesRead_of_uncaused {stream : StreamId} {effects : List EngineEffect}
    (uncaused : ∀ effect ∈ effects, effect.cause? ≠ some stream) :
    bytesRead stream effects = [] := by
  rw [bytesRead, List.flatMap_eq_nil_iff]
  intro effect there
  split
  · rename_i other bytes
    exact if_neg fun same => uncaused _ there (congrArg some same)
  · rfl

theorem itemsSent_of_uncaused {stream : StreamId} {effects : List EngineEffect}
    (uncaused : ∀ effect ∈ effects, effect.cause? ≠ some stream) :
    itemsSent stream effects = [] := by
  rw [itemsSent, List.filterMap_eq_nil_iff]
  intro effect there
  split
  · rename_i other d
    exact if_neg fun same => uncaused _ there (congrArg some same)
  · rfl

/-- A read with bytes is one chunk on the wire. -/
theorem itemsSent_of_chunk (stream : StreamId) (socketId : UInt32) (direction : Bool)
    (byte : UInt8) (bytes : Bytes) :
    itemsSent stream ((readFrames socketId direction (.ok (byte :: bytes))).map
      (.sent (some stream))) = [.chunk (byte :: bytes)] := by
  simp [itemsSent, readFrames, dataPacket, PortForwardData.item?]

/-- The end of a stream, or an error, is one close on the wire or two. -/
theorem itemsSent_of_end {result : ReadResult} (ends : isEnd result = true) (stream : StreamId)
    (socketId : UInt32) (direction : Bool) (rest : List EngineEffect)
    (silent : itemsSent stream rest = []) :
    ∃ more, itemsSent stream ((readFrames socketId direction result).map
      (.sent (some stream)) ++ rest) = .close :: more := by
  rw [itemsSent_append, silent, List.append_nil]
  cases result with
  | ok bytes =>
      cases bytes with
      | nil => exact ⟨[], by simp [itemsSent, readFrames, closedPacket, PortForwardData.item?]⟩
      | cons byte bytes => cases ends
  | error text =>
      exact ⟨[.close], by
        simp [itemsSent, readFrames, closedPacket, errorPacket, PortForwardData.item?]⟩

/-- The connection id is found in the tables. -/
def EngineState.Routes (s : EngineState) (connId : UInt32) (stream : StreamId)
    (socketId : UInt32) : Bool → Prop
  | true => s.sourceConnIds.lookup connId = some socketId
  | false => s.destinations.lookup connId = some stream

theorem EngineState.Routes.of_within {s s' : EngineState} {connId socketId : UInt32}
    {stream : StreamId} {direction : Bool} (within : s'.Within s)
    (routes : s'.Routes connId stream socketId direction) :
    s.Routes connId stream socketId direction := by
  cases direction with
  | true => exact within.sourceConnIds routes
  | false => exact within.destinations routes

def SourceOf (log : List EngineEffect) (e : Engine) (stream : StreamId)
    (connId socketId : UInt32) (direction : Bool) : Prop :=
  Source (bytesRead stream log) (e.waiting stream) (itemsSent stream log)
    ((connId, stream) ∈ e.readers) (e.state.Routes connId stream socketId direction)

theorem SourceOf.of_same {log effects : List EngineEffect} {e e' : Engine} {stream : StreamId}
    {connId socketId : UInt32} {direction : Bool}
    (source : SourceOf log e stream connId socketId direction)
    (uncaused : ∀ effect ∈ effects, effect.cause? ≠ some stream)
    (waits : e'.waiting stream = e.waiting stream)
    (stops : (connId, stream) ∈ e'.readers → (connId, stream) ∈ e.readers)
    (reroutes : e'.state.Routes connId stream socketId direction →
      (connId, stream) ∈ e'.readers ∨ e.waiting stream ≠ [] →
      e.state.Routes connId stream socketId direction) :
    SourceOf (log ++ effects) e' stream connId socketId direction := by
  rw [SourceOf, bytesRead_append, itemsSent_append, bytesRead_of_uncaused uncaused,
    itemsSent_of_uncaused uncaused, List.append_nil, List.append_nil, waits]
  exact Source.weaken source stops reroutes

namespace Engine

/-- What waits for a connection waits under a name. -/
theorem named_of_waiting {e : Engine} {stream : StreamId} (waits : e.waiting stream ≠ []) :
    ∃ connId, (connId, stream) ∈ e.names := by
  obtain ⟨item, there⟩ := List.exists_mem_of_ne_nil _ waits
  obtain ⟨event, queued, found⟩ := List.mem_filterMap.1 there
  cases event with
  | accepted _ _ => cases found
  | read connId other result =>
      rw [Event.itemOf] at found
      split at found
      · rename_i same
        subst same
        exact ⟨connId, List.mem_append_right _ (List.mem_filterMap.2 ⟨_, queued, rfl⟩)⟩
      · cases found

private theorem waiting_push {e e' : Engine} {event : Event}
    (queue : e'.events = e.events ++ [event]) (stream : StreamId) :
    e'.waiting stream = e.waiting stream ++ (event.itemOf stream).toList := by
  rw [waiting, waiting, queue, List.filterMap_append]
  cases item : event.itemOf stream <;> simp [item]

private theorem waiting_pop {e e' : Engine} {event : Event}
    (queue : e.events = event :: e'.events) (stream : StreamId) :
    e.waiting stream = (event.itemOf stream).toList ++ e'.waiting stream := by
  rw [waiting, waiting, queue]
  cases item : event.itemOf stream <;> simp [item]

/-- Another connection's event does not wait for this one. -/
private theorem itemOf_of_ne {connId : UInt32} {stream other : StreamId} {result : ReadResult}
    (different : other ≠ stream) : (Event.read connId other result).itemOf stream = none :=
  if_neg different

private theorem itemOf_self (connId : UInt32) (stream : StreamId) (result : ReadResult) :
    (Event.read connId stream result).itemOf stream = some (resultItem result) :=
  if_pos rfl

end Engine

namespace SourceOf

variable {log effects : List EngineEffect} {e e' : Engine} {stream : StreamId}
  {connId socketId : UInt32} {direction : Bool}

private theorem relayed_chunk {read : Bytes} {queue sent : List (Item UInt8)}
    {reading routed : Prop} {result : ReadResult}
    (source : Source read (resultItem result :: queue) sent reading routed) (route : routed)
    (goes : isEnd result = false) (socketId : UInt32) (direction : Bool) :
    Source read queue
      (sent ++ itemsSent stream ((readFrames socketId direction result).map (.sent (some stream))))
      reading routed := by
  rcases result_cases result with ⟨byte, bytes, rfl⟩ | ⟨ends, -⟩
  · rw [itemsSent_of_chunk]
    exact source.relayChunk route
  · cases goes.symm.trans ends

private theorem relayed_end {read : Bytes} {queue sent : List (Item UInt8)}
    {reading routed : Prop} {result : ReadResult}
    (source : Source read (resultItem result :: queue) sent reading routed) (route : routed)
    (ends : isEnd result = true) (socketId : UInt32) (direction : Bool)
    (rest : List EngineEffect) (silent : itemsSent stream rest = []) :
    Source read queue
      (sent ++ itemsSent stream
        ((readFrames socketId direction result).map (.sent (some stream)) ++ rest))
      reading False := by
  rcases result_cases result with ⟨byte, bytes, rfl⟩ | ⟨-, closes⟩
  · cases ends
  · obtain ⟨more, sends⟩ := itemsSent_of_end ends stream socketId direction rest silent
    rw [closes] at source
    rw [sends]
    exact source.relayClose route more

/-- The read task of the connection queues what it has read. -/
theorem of_read (source : SourceOf log e stream connId socketId direction)
    (reading : (connId, stream) ∈ e.readers) (result : ReadResult) :
    SourceOf (log ++ [.read stream result])
      { e with
        events := e.events ++ [.read connId stream result]
        readers :=
          if isEnd result then e.readers.filter (· ≠ (connId, stream)) else e.readers }
      stream connId socketId direction := by
  rw [SourceOf, Engine.waiting_push rfl, Engine.itemOf_self, bytesRead_append, itemsSent_append]
  have unsent : itemsSent stream [.read stream result] = [] := rfl
  rw [unsent, List.append_nil]
  rcases result_cases result with ⟨byte, bytes, rfl⟩ | ⟨ends, closes⟩
  · have bytes_eq : bytesRead stream [.read stream (.ok (byte :: bytes))] = byte :: bytes := by
      simp [bytesRead]
    rw [bytes_eq]
    exact Source.readChunk source reading (byte :: bytes)
  · rw [bytesRead_of_end ends, List.append_nil, closes, if_pos ends]
    refine (Source.readClose source reading).weaken ?_ fun routes _ => routes
    intro still
    simp at still

/-- The engine handles the oldest queued read of the connection. -/
theorem of_relay (source : SourceOf log e stream connId socketId direction)
    (owns : e.state.Owns connId stream socketId direction) {result : ReadResult}
    {events : List Event} (queue : e.events = .read connId stream result :: events)
    {state : EngineState} (read : ReadStep e.state connId stream result state effects) :
    SourceOf (log ++ effects) { e with state := state, events := events }
      stream connId socketId direction := by
  have unread : bytesRead stream effects = [] := by
    rw [bytesRead, List.flatMap_eq_nil_iff]
    intro effect there
    obtain ⟨_, rfl⟩ | ⟨_, rfl⟩ | ⟨_, rfl⟩ := read.effect_cases effect there <;> rfl
  have waits := @Engine.waiting_pop e { e with state := state, events := events } _ queue stream
  rw [Engine.itemOf_self] at waits
  rw [SourceOf, waits] at source
  rw [SourceOf, bytesRead_append, itemsSent_append, unread, List.append_nil]
  cases direction with
  | true =>
      cases read with
      | source assigned mapped goes =>
          obtain ⟨rfl, -⟩ := owns.2 assigned mapped
          exact relayed_chunk source mapped goes _ _
      | sourceEnd assigned mapped ends =>
          obtain ⟨rfl, -⟩ := owns.2 assigned mapped
          rw [List.append_assoc]
          refine (relayed_end source mapped ends _ _ _ ?_).weaken id ?_
          · rw [itemsSent_append]
            simp [itemsSent]
          · intro routes _
            change (e.state.sourceConnIds.erase connId).lookup connId = some assigned at routes
            rw [AList.lookup_erase] at routes
            cases routes
      | destination conn _ found _ | destinationEnd conn _ found _ =>
          rw [owns.1] at found
          cases found
      | trailing unmapped _ =>
          rw [show itemsSent stream [] = [] from rfl, List.append_nil]
          refine (Source.drop source).weaken id ?_
          intro routes _
          exact absurd (unmapped.symm.trans routes) nofun
  | false =>
      obtain ⟨rfl, unmapped, home⟩ := owns
      cases read with
      | source assigned mapped _ | sourceEnd assigned mapped _ =>
          rw [unmapped] at mapped
          cases mapped
      | destination conn _ found goes =>
          obtain rfl := home conn found
          exact relayed_chunk source found goes _ _
      | destinationEnd conn _ found ends =>
          obtain rfl := home conn found
          refine (relayed_end source found ends _ _ _ rfl).weaken id ?_
          intro routes _
          change (e.state.destinations.erase connId).lookup connId = some conn at routes
          rw [AList.lookup_erase] at routes
          cases routes
      | trailing _ unknown =>
          rw [show itemsSent stream [] = [] from rfl, List.append_nil]
          refine (Source.drop source).weaken id ?_
          intro routes _
          exact absurd (unknown.symm.trans routes) nofun

end SourceOf

/-- No shutdown. -/
def EngineAct.Steady : EngineAct π → Prop
  | .shutdown | .stop => False
  | _ => True

structure Sending (log : List EngineEffect) (e : Engine) : Prop where
  up : e.shutdown = false
  source : ∀ {stream connId socketId direction},
    .opened stream connId socketId direction ∈ log →
    SourceOf log e stream connId socketId direction

theorem Engine.Moves.up {codec : Codec π} {e e' : Engine} {act : EngineAct π}
    {effects : List EngineEffect} (moves : e.Moves codec act e' effects) (steady : act.Steady) :
    e'.shutdown = e.shutdown := by
  cases moves with
  | shutdown | stop => cases steady
  | accept _ | read _ _ _ _ | abort _ _ | take _ _ _ _ _ _ _ _ _ | relay _ _ _ _ _ _ _ _ _ _
  | skip _ _ _ | receive _ _ _ _ _ _ _ _ | addSources _ => rfl

/-- Without a shutdown every frame is sent. -/
theorem Engine.ready_sends {e : Engine} (up : e.shutdown = false) {sends : List Bool}
    (ready : e.ready sends = true) (effects : List EngineEffect) :
    sendOrShutdown sends effects = effects := by
  refine sendOrShutdown_of_all ?_ effects
  rw [Engine.ready, up, Bool.false_or, Bool.and_eq_true] at ready
  exact ready.2

/-- A connection that is being opened was not open. -/
theorem StreamsOf.unopened {codec : Codec π} {log effects : List EngineEffect} {e e' : Engine}
    {act : EngineAct π} (streams : StreamsOf log e) (opens : e.Opens codec act e' effects)
    {stream : StreamId} {connId socketId : UInt32} {direction : Bool}
    (new : .opened stream connId socketId direction ∈ effects) : Unopened log stream := by
  cases opens with
  | destination p chance request drawn decoded _ =>
      obtain ⟨rfl, -⟩ := (Engine.mem_opened Engine.Opens.silent_destination).1 new
      exact fun _ _ _ old => (streams.bound old).false
  | source p chance response key assigned conn decoded _ _ waits =>
      obtain ⟨rfl, -⟩ := (Engine.mem_opened Engine.Opens.silent_source).1 new
      exact (streams.pending waits).2

/-- Opening a connection gives no route to one that is still read. -/
theorem Engine.Opens.routes {codec : Codec π} {e e' : Engine} {act : EngineAct π}
    {effects : List EngineEffect} (opens : e.Opens codec act e' effects)
    (apart : e.Apart codec act) {connId socketId : UInt32} {stream : StreamId}
    {direction : Bool} (named : (connId, stream) ∈ e.names)
    (routes : e'.state.Routes connId stream socketId direction) :
    e.state.Routes connId stream socketId direction := by
  cases opens with
  | destination p chance request drawn decoded found =>
      have different := (apart _ decoded drawn found).2 _ named
      cases direction with
      | true => exact routes
      | false => exact (AList.lookup_insert_ne different).symm.trans routes
  | source p chance response key assigned conn decoded fd sid waits =>
      have different := ((apart _ decoded key fd assigned sid (waits ▸ rfl)).2 _ named).1
      cases direction with
      | true => exact (AList.lookup_insert_ne different).symm.trans routes
      | false => exact routes

namespace Isolated

variable {codec : Codec π} {log effects : List EngineEffect} {e e' : Engine} {act : EngineAct π}
  {stream : StreamId} {connId socketId : UInt32} {direction : Bool}

/-- The name of an open connection has its connection id. -/
theorem name_eq (isolated : Isolated log e) (streams : StreamsOf log e)
    (opened : .opened stream connId socketId direction ∈ log) {key : UInt32}
    (named : (key, stream) ∈ e.names) :
    key = connId ∧ e.state.Owns connId stream socketId direction := by
  obtain ⟨assigned, flag, opened', owns⟩ := isolated.owned _ named
  obtain ⟨rfl, rfl, rfl⟩ := streams.once opened opened'
  exact ⟨rfl, owns⟩

/-- Nothing has come from a connection that was never open. -/
theorem uncaused (isolated : Isolated log e) (unopened : Unopened log stream) :
    ∀ effect ∈ log, effect.cause? ≠ some stream := by
  intro effect there caused
  obtain ⟨_, _, _, opened, -⟩ := isolated.about effect there stream caused
  exact unopened _ _ _ opened

theorem waiting_eq_nil (isolated : Isolated log e) (unopened : Unopened log stream) :
    e.waiting stream = [] := by
  by_contra waits
  obtain ⟨key, named⟩ := Engine.named_of_waiting waits
  obtain ⟨_, _, opened, -⟩ := isolated.owned _ named
  exact unopened _ _ _ opened

/-- A step gives a connection that is still read no route. -/
theorem reroutes (isolated : Isolated log e) (streams : StreamsOf log e)
    (opened : .opened stream connId socketId direction ∈ log) (apart : e.Apart codec act)
    (moves : e.Moves codec act e' effects)
    (stops : (connId, stream) ∈ e'.readers → (connId, stream) ∈ e.readers)
    (routes : e'.state.Routes connId stream socketId direction)
    (reads : (connId, stream) ∈ e'.readers ∨ e.waiting stream ≠ []) :
    e.state.Routes connId stream socketId direction := by
  rcases moves.opens_or_shrinks with opens | shrinks
  · have named : (connId, stream) ∈ e.names := by
      rcases reads with reading | waits
      · exact List.mem_append_left _ (stops reading)
      · obtain ⟨key, named⟩ := Engine.named_of_waiting waits
        exact (isolated.name_eq streams opened named).1 ▸ named
    exact opens.routes apart named routes
  · exact routes.of_within shrinks.tables

/-- A message starts no read task for a connection that is open already. -/
theorem stops_of_receive (streams : StreamsOf log e)
    (opened : .opened stream connId socketId direction ∈ log) {p : π} {chance : Chance}
    {m : Message} {state : EngineState} {raw : List EngineEffect}
    (moves : e.Moves codec (.peer p chance)
      { e with
        state := state
        readers := e.readers ++ raw.filterMap EngineEffect.reader?
        streams := e.streams + 1 } (.received m :: sendOrShutdown chance.sends raw))
    (reading : (connId, stream) ∈ e.readers ++ raw.filterMap EngineEffect.reader?) :
    (connId, stream) ∈ e.readers := by
  rcases List.mem_append.1 reading with old | new
  · exact old
  · obtain ⟨effect, there, starts⟩ := List.mem_filterMap.1 new
    cases effect with
    | opened other key assigned flag =>
        obtain ⟨rfl, rfl⟩ := Prod.mk.inj (Option.some.inj starts)
        have kept := (@opened_mem_sendOrShutdown chance.sends _ _ _ _ _).2 there
        rcases moves.opens_or_shrinks with opens | shrinks
        · exact absurd opened (streams.unopened opens (List.mem_cons_of_mem _ kept) _ _ _)
        · exact absurd (List.mem_cons_of_mem _ kept) (shrinks.unopened _ _ _ _)
    | read _ _ | received _ | sent _ _ | enqueued _ _ | tornDown _ | removed _ _
    | unmapped _ _ _ => cases starts

/-- Every step, for a connection that is open. -/
theorem source_step (isolated : Isolated log e) (streams : StreamsOf log e)
    (opened : .opened stream connId socketId direction ∈ log) (apart : e.Apart codec act)
    (up : e.shutdown = false) (moves : e.Moves codec act e' effects)
    (source : SourceOf log e stream connId socketId direction) :
    SourceOf (log ++ effects) e' stream connId socketId direction := by
  have reroutes := isolated.reroutes streams opened apart moves
  cases moves with
  | accept sourceIdx =>
      refine source.of_same (by simp) ?_ id (reroutes id)
      rw [Engine.waiting_push rfl]
      exact List.append_nil _
  | read key other result reading =>
      by_cases same : other = stream
      · subst same
        obtain ⟨rfl, -⟩ := isolated.name_eq streams opened (List.mem_append_left _ reading)
        exact source.of_read reading result
      · have stops : (connId, stream) ∈
            (if isEnd result then e.readers.filter (· ≠ (key, other)) else e.readers) →
              (connId, stream) ∈ e.readers := by
          split
          · exact fun there => (List.mem_filter.1 there).1
          · exact id
        refine source.of_same ?_ ?_ stops (reroutes stops)
        · intro effect there
          rw [List.mem_singleton.1 there]
          exact fun caused => same (Option.some.inj caused)
        · rw [Engine.waiting_push rfl, Engine.itemOf_of_ne same]
          exact List.append_nil _
  | abort key other =>
      have stops : (connId, stream) ∈ e.readers.filter (· ≠ (key, other)) →
          (connId, stream) ∈ e.readers := fun there => (List.mem_filter.1 there).1
      exact source.of_same (by simp) rfl stops (reroutes stops)
  | take sends sourceIdx other events state raw ready queue handled =>
      refine source.of_same ?_ ?_ id (reroutes id)
      · intro effect there
        have handles := (sendOrShutdown_sublist _ _).subset there
        rcases EngineState.handleAccepted_cases handled with ⟨-, rfl⟩ | ⟨_, -, -, rfl⟩
        · cases handles
        · rw [List.mem_singleton.1 handles]
          rintro ⟨⟩
      · exact (@Engine.waiting_pop e { e with state := state, events := events } _ queue _).symm
  | relay sends key other result events state raw ready queue read =>
      have named : (key, other) ∈ e.names := by
        rw [Engine.names, queue]
        exact List.mem_append_right _ List.mem_cons_self
      rw [Engine.ready_sends up ready]
      by_cases same : other = stream
      · subst same
        obtain ⟨rfl, owns⟩ := isolated.name_eq streams opened named
        exact source.of_relay owns queue read
      · refine source.of_same ?_ ?_ id (reroutes id)
        · intro effect there caused
          obtain ⟨_, rfl⟩ | ⟨_, rfl⟩ | ⟨_, rfl⟩ := read.effect_cases effect there <;>
            exact same (Option.some.inj caused)
        · have waits := @Engine.waiting_pop e { e with state := state, events := events } _ queue
            stream
          rw [Engine.itemOf_of_ne same] at waits
          exact waits.symm
  | skip p chance unread => exact source.of_same (by simp) rfl id (reroutes id)
  | receive p chance m state raw ready decoded peer =>
      have stops := stops_of_receive streams opened
        (.receive p chance m state raw ready decoded peer)
      refine source.of_same ?_ rfl stops (reroutes stops)
      intro effect there
      rcases List.mem_cons.1 there with rfl | handled
      · rintro ⟨⟩
      · rw [peer.uncaused _ ((sendOrShutdown_sublist _ _).subset handled)]
        rintro ⟨⟩
  | addSources sources => exact source.of_same (by simp) rfl id (reroutes id)
  | shutdown => exact source.of_same (by simp) rfl id (reroutes id)
  | stop =>
      refine source.of_same ?_ rfl id (reroutes id)
      intro effect there
      obtain ⟨entry, -, rfl⟩ := List.mem_map.1 there
      rintro ⟨⟩

end Isolated

/-- Every step without a shutdown whose ids are apart. -/
theorem Sending.step {codec : Codec π} {log effects : List EngineEffect} {e e' : Engine}
    {act : EngineAct π} (sending : Sending log e) (isolated : Isolated log e)
    (streams : StreamsOf log e) (apart : e.Apart codec act) (steady : act.Steady)
    (moves : e.Moves codec act e' effects) : Sending (log ++ effects) e' := by
  refine ⟨(moves.up steady).trans sending.up, ?_⟩
  intro stream connId socketId direction opened
  rcases List.mem_append.1 opened with old | new
  · exact isolated.source_step streams old apart sending.up moves (sending.source old)
  · rcases moves.opens_or_shrinks with opens | shrinks
    · -- The connection is new, so that all of its stream is empty.
      have unopened := streams.unopened opens new
      have uncaused : ∀ effect ∈ log ++ effects, effect.cause? ≠ some stream := by
        intro effect there
        rcases List.mem_append.1 there with before | now
        · exact isolated.uncaused unopened effect before
        · rw [opens.uncaused effect now]
          exact nofun
      have waits : e'.waiting stream = [] := by
        cases opens <;> exact isolated.waiting_eq_nil unopened
      rw [SourceOf, bytesRead_of_uncaused uncaused, itemsSent_of_uncaused uncaused, waits]
      exact .start
    · exact absurd new (shrinks.unopened _ _ _ _)

end Forward

end Et
