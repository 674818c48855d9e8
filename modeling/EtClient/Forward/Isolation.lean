import EtClient.Forward.Steps

/-!
# Tunnels do not mix

A queued read has only a connection id to say where it came from, and three kinds of
numbers meet in that id: the counter of the sources, the random socket ids of the
destinations, and, through the table of the sources, the socket ids that the peer
assigns. A connection keeps to its own tunnel as long as every id under which it is
still read leads to it and to nothing else.

Connections open only on messages of the peer, so that is where two of them can come to
share an id. If no message of the peer makes them, every frame about a read carries the
socket id and the direction of the connection that was read, and the end of a connection
removes that connection alone.
-/

namespace Et

namespace Forward

variable {π : Type}

def Unopened (log : List EngineEffect) (stream : StreamId) : Prop :=
  ∀ connId socketId direction, .opened stream connId socketId direction ∉ log

/-- The accepted connections that the engine has not taken up. -/
def Engine.queued (e : Engine) : List StreamId := e.events.filterMap Event.accepted?

/-- Where the connections are that wait for their socket ids. -/
structure StreamsOf (log : List EngineEffect) (e : Engine) : Prop where
  bound : ∀ {stream connId socketId direction},
    .opened stream connId socketId direction ∈ log → stream < e.streams
  once : ∀ {stream connId socketId direction connId' socketId' direction'},
    .opened stream connId socketId direction ∈ log →
    .opened stream connId' socketId' direction' ∈ log →
    connId' = connId ∧ socketId' = socketId ∧ direction' = direction
  pending : ∀ {connId stream}, e.state.pending.lookup connId = some stream →
    stream < e.streams ∧ Unopened log stream
  distinct : ∀ {connId connId' stream}, e.state.pending.lookup connId = some stream →
    e.state.pending.lookup connId' = some stream → connId' = connId
  queued : ∀ stream ∈ e.queued, stream < e.streams ∧ Unopened log stream ∧
    ∀ connId, e.state.pending.lookup connId ≠ some stream
  order : e.queued.Nodup

namespace StreamsOf

variable {log effects : List EngineEffect} {e e' : Engine}

private theorem unopened_append {stream : StreamId} (before : Unopened log stream)
    (now : Unopened effects stream) : Unopened (log ++ effects) stream := by
  intro connId socketId direction opened
  rcases List.mem_append.1 opened with old | new
  · exact before connId socketId direction old
  · exact now connId socketId direction new

/-- Nothing is opened and nothing new waits. -/
theorem of_fewer (streams : StreamsOf log e)
    (unopened : ∀ stream, Unopened effects stream) (more : e.streams ≤ e'.streams)
    (pending : ∀ {connId stream}, e'.state.pending.lookup connId = some stream →
      e.state.pending.lookup connId = some stream)
    (queued : e'.queued.Sublist e.queued) : StreamsOf (log ++ effects) e' where
  bound := by
    intro stream connId socketId direction opened
    rcases List.mem_append.1 opened with old | new
    · exact (streams.bound old).trans_le more
    · exact absurd new (unopened _ _ _ _)
  once := by
    intro stream connId socketId direction connId' socketId' direction' opened opened'
    rcases List.mem_append.1 opened with old | new
    · rcases List.mem_append.1 opened' with old' | new'
      · exact streams.once old old'
      · exact absurd new' (unopened _ _ _ _)
    · exact absurd new (unopened _ _ _ _)
  pending := by
    intro connId stream waits
    obtain ⟨small, fresh⟩ := streams.pending (pending waits)
    exact ⟨small.trans_le more, unopened_append fresh (unopened stream)⟩
  distinct := fun waits waits' => streams.distinct (pending waits) (pending waits')
  queued := by
    intro stream there
    obtain ⟨small, fresh, elsewhere⟩ := streams.queued stream (queued.subset there)
    refine ⟨small.trans_le more, unopened_append fresh (unopened stream), ?_⟩
    exact fun connId waits => elsewhere connId (pending waits)
  order := streams.order.sublist queued

/-- An accept task queues a new connection. -/
theorem of_accept (streams : StreamsOf log e) (sourceIdx : Nat) :
    StreamsOf log
      { e with
        events := e.events ++ [.accepted sourceIdx e.streams]
        streams := e.streams + 1 } := by
  have queue : ({ e with
      events := e.events ++ [.accepted sourceIdx e.streams]
      streams := e.streams + 1 } : Engine).queued = e.queued ++ [e.streams] := by
    rw [Engine.queued, List.filterMap_append]
    rfl
  refine ⟨fun opened => (streams.bound opened).trans (Nat.lt_succ_self _), streams.once, ?_,
    streams.distinct, ?_, ?_⟩
  · intro connId stream waits
    obtain ⟨small, fresh⟩ := streams.pending waits
    exact ⟨small.trans (Nat.lt_succ_self _), fresh⟩
  · intro stream there
    rw [queue] at there
    rcases List.mem_append.1 there with old | new
    · obtain ⟨small, fresh, elsewhere⟩ := streams.queued stream old
      exact ⟨small.trans (Nat.lt_succ_self _), fresh, elsewhere⟩
    · rw [List.mem_singleton.1 new]
      refine ⟨Nat.lt_succ_self _, ?_, ?_⟩
      · exact fun _ _ _ opened => (streams.bound opened).false
      · exact fun connId waits => (streams.pending waits).1.false
  · rw [queue]
    refine streams.order.append (List.nodup_singleton _) ?_
    intro stream old new
    rw [List.mem_singleton.1 new] at old
    exact (streams.queued _ old).1.false

/-- The engine takes up an accepted connection and asks the peer. -/
theorem of_take (streams : StreamsOf log e) {sourceIdx : Nat} {stream : StreamId}
    {events : List Event} (queue : e.events = .accepted sourceIdx stream :: events)
    (connId nextConnId : UInt32) :
    StreamsOf log
      { e with
        state := { e.state with
          nextConnId := nextConnId
          pending := e.state.pending.insert connId stream }
        events := events } := by
  have split : e.queued = stream :: events.filterMap Event.accepted? := by
    rw [Engine.queued, queue]
    rfl
  have order := streams.order
  rw [split, List.nodup_cons] at order
  obtain ⟨small, fresh, elsewhere⟩ := streams.queued stream (split ▸ List.mem_cons_self)
  refine ⟨streams.bound, streams.once, ?_, ?_, ?_, order.2⟩
  · intro key other waits
    rcases Table.lookup_insert_cases waits with ⟨rfl, rfl⟩ | ⟨-, old⟩
    · exact ⟨small, fresh⟩
    · exact streams.pending old
  · intro key key' other waits waits'
    rcases Table.lookup_insert_cases waits with ⟨rfl, rfl⟩ | ⟨-, old⟩
    · rcases Table.lookup_insert_cases waits' with ⟨rfl, -⟩ | ⟨-, old'⟩
      · rfl
      · exact absurd old' (elsewhere key')
    · rcases Table.lookup_insert_cases waits' with ⟨rfl, rfl⟩ | ⟨-, old'⟩
      · exact absurd old (elsewhere key)
      · exact streams.distinct old old'
  · intro other there
    obtain ⟨small, fresh, missing⟩ := streams.queued other (split ▸ List.mem_cons_of_mem _ there)
    refine ⟨small, fresh, ?_⟩
    intro key waits
    rcases Table.lookup_insert_cases waits with ⟨-, rfl⟩ | ⟨-, old⟩
    · exact order.1 there
    · exact missing key old

/-- One connection is opened and does not wait any more. -/
theorem of_opened (streams : StreamsOf log e) {stream : StreamId} {connId socketId : UInt32}
    {direction : Bool}
    (opened : ∀ {stream' connId' socketId' direction'},
      .opened stream' connId' socketId' direction' ∈ effects ↔
        stream' = stream ∧ connId' = connId ∧ socketId' = socketId ∧ direction' = direction)
    (fresh : Unopened log stream) (small : stream < e'.streams) (more : e.streams ≤ e'.streams)
    (pending : ∀ {connId other}, e'.state.pending.lookup connId = some other →
      e.state.pending.lookup connId = some other ∧ other ≠ stream)
    (events : e'.events = e.events) (absent : stream ∉ e.queued) :
    StreamsOf (log ++ effects) e' := by
  have same : e'.queued = e.queued := congrArg (List.filterMap Event.accepted?) events
  have unopened : ∀ {other}, other ≠ stream → Unopened log other →
      Unopened (log ++ effects) other := by
    intro other different before
    exact unopened_append before fun _ _ _ new => different (opened.1 new).1
  refine ⟨?_, ?_, ?_, ?_, ?_, same ▸ streams.order⟩
  · intro other _ _ _ there
    rcases List.mem_append.1 there with old | new
    · exact (streams.bound old).trans_le more
    · rwa [(opened.1 new).1]
  · intro other _ _ _ _ _ _ there there'
    rcases List.mem_append.1 there with old | new
    · rcases List.mem_append.1 there' with old' | new'
      · exact streams.once old old'
      · obtain ⟨rfl, -⟩ := opened.1 new'
        exact absurd old (fresh _ _ _)
    · obtain ⟨rfl, rfl, rfl, rfl⟩ := opened.1 new
      rcases List.mem_append.1 there' with old' | new'
      · exact absurd old' (fresh _ _ _)
      · exact (opened.1 new').2
  · intro key other waits
    obtain ⟨before, different⟩ := pending waits
    obtain ⟨below, unseen⟩ := streams.pending before
    exact ⟨below.trans_le more, unopened different unseen⟩
  · exact fun waits waits' => streams.distinct (pending waits).1 (pending waits').1
  · intro other there
    rw [same] at there
    obtain ⟨below, unseen, elsewhere⟩ := streams.queued other there
    refine ⟨below.trans_le more, unopened ?_ unseen, fun key waits =>
      elsewhere key (pending waits).1⟩
    exact fun equal => absent (equal ▸ there)

theorem of_opens {codec : Codec π} {act : EngineAct π} (streams : StreamsOf log e)
    (opens : e.Opens codec act e' effects) : StreamsOf (log ++ effects) e' := by
  cases opens with
  | destination p chance request socketId decoded drawn =>
      have unseen : ∀ {connId}, e.state.pending.lookup connId ≠ some e.streams :=
        fun waits => (streams.pending waits).1.false
      refine streams.of_opened (Engine.mem_opened Engine.Opens.silent_destination) ?_
        (Nat.lt_succ_self _) (Nat.le_succ _) ?_ rfl ?_
      · exact fun _ _ _ opened => (streams.bound opened).false
      · intro connId other waits
        exact ⟨waits, fun same => unseen (same ▸ waits)⟩
      · exact fun queued => (streams.queued _ queued).1.false
  | source p chance response connId socketId conn decoded fd assigned waits =>
      obtain ⟨small, fresh⟩ := streams.pending waits
      refine streams.of_opened (Engine.mem_opened Engine.Opens.silent_source) fresh
        (small.trans (Nat.lt_succ_self _)) (Nat.le_succ _) ?_ rfl ?_
      · intro key other waits'
        have before := Table.lookup_of_erase waits'
        refine ⟨before, ?_⟩
        rintro rfl
        rw [streams.distinct waits before, AList.lookup_erase] at waits'
        cases waits'
      · exact fun queued => (streams.queued _ queued).2.2 connId waits

/-- Every step. -/
theorem step {codec : Codec π} {act : EngineAct π} (streams : StreamsOf log e)
    (moves : e.Moves codec act e' effects) : StreamsOf (log ++ effects) e' := by
  rcases moves.opens_or_shrinks with opens | shrinks
  · exact streams.of_opens opens
  · have unopened : ∀ stream, Unopened effects stream := shrinks.unopened
    cases moves with
    | accept sourceIdx => exact (List.append_nil log).symm ▸ streams.of_accept sourceIdx
    | read connId stream result _ =>
        refine streams.of_fewer unopened le_rfl id ?_
        rw [Engine.queued, List.filterMap_append]
        exact (List.append_nil _).symm ▸ List.Sublist.refl _
    | take sends sourceIdx stream events state raw ready queue handled =>
        have fewer : (events.filterMap Event.accepted?).Sublist e.queued := by
          rw [Engine.queued, queue]
          exact List.sublist_cons_self _ _
        rcases EngineState.handleAccepted_cases handled with ⟨rfl, rfl⟩ | ⟨_, -, rfl, rfl⟩
        · exact streams.of_fewer unopened le_rfl id fewer
        · exact (streams.of_take queue _ _).of_fewer unopened le_rfl id (List.Sublist.refl _)
    | relay sends connId stream result events state raw ready queue read =>
        have same : e.queued = events.filterMap Event.accepted? := by
          rw [Engine.queued, queue]
          rfl
        refine streams.of_fewer unopened le_rfl (fun waits => ?_) (same ▸ List.Sublist.refl _)
        cases read <;> exact waits
    | receive p chance m state raw ready decoded peer =>
        refine streams.of_fewer unopened (Nat.le_succ _) ?_ (List.Sublist.refl _)
        intro connId stream waits
        cases peer with
        | refused _ _ _ | mapped _ _ _ _ _ _ _ => exact Table.lookup_of_erase waits
        | ignored _ _ _ | answered _ _ _ | created _ _ _ | toDestination _ _ _ _ _ _ _
        | toSource _ _ _ _ _ _ _ => exact waits
    | abort _ _ | skip _ _ _ | addSources _ | shutdown =>
        exact streams.of_fewer unopened le_rfl id (List.Sublist.refl _)
    | stop => exact streams.of_fewer unopened le_rfl nofun (List.Sublist.refl _)

end StreamsOf

theorem streamsOf_reachable {codec : Codec π} {sources : List PortForwardSourceRequest}
    {answer : Bool} {log : List EngineEffect} {e : Engine}
    (run : (Engine.system codec sources answer).Reachable log e) : StreamsOf log e := by
  have start : StreamsOf [] (Engine.spawn sources answer) :=
    ⟨nofun, nofun, nofun, nofun, nofun, List.nodup_nil⟩
  refine run.invariant start ?_
  intro log e act e' effects streams _ stepped
  exact streams.step (Engine.step_moves stepped)

/-- A frame with this socket id and direction flag. -/
def Message.Carries (m : Message) (socketId : UInt32) (direction : Bool) : Prop :=
  ∃ d, m = .data d ∧ d.socketid = some socketId.toInt32 ∧ d.sourcetodestination = some direction

theorem carries_of_readFrames {socketId : UInt32} {direction : Bool} {result : ReadResult}
    {m : Message} (framed : m ∈ readFrames socketId direction result) :
    m.Carries socketId direction := by
  cases result with
  | ok bytes =>
      cases bytes with
      | nil =>
          rw [List.mem_singleton.1 framed]
          exact ⟨_, rfl, rfl, rfl⟩
      | cons byte bytes =>
          rw [List.mem_singleton.1 framed]
          exact ⟨_, rfl, rfl, rfl⟩
  | error text =>
      rcases List.mem_cons.1 framed with rfl | closed
      · exact ⟨_, rfl, rfl, rfl⟩
      · rw [List.mem_singleton.1 closed]
        exact ⟨_, rfl, rfl, rfl⟩

/-- A frame carries one socket id and one direction. -/
theorem Message.Carries.unique {m : Message} {socketId socketId' : UInt32}
    {direction direction' : Bool} (carries : m.Carries socketId direction)
    (carries' : m.Carries socketId' direction') :
    socketId' = socketId ∧ direction' = direction := by
  obtain ⟨d, rfl, named, towards⟩ := carries
  obtain ⟨d', same, named', towards'⟩ := carries'
  cases same
  refine ⟨?_, Option.some.inj (towards'.symm.trans towards)⟩
  have equal := Option.some.inj (named'.symm.trans named)
  rw [← UInt32.toUInt32_toInt32 socketId', equal, UInt32.toUInt32_toInt32]

/-- What the tables hold for a connection id is of this connection or is not there. -/
def EngineState.Owns (s : EngineState) (connId : UInt32) (stream : StreamId)
    (socketId : UInt32) : Bool → Prop
  | true =>
      s.destinations.lookup connId = none ∧
        ∀ assigned, s.sourceConnIds.lookup connId = some assigned → assigned = socketId ∧
          ∀ conn, s.sourceSockets.lookup socketId = some conn → conn = stream
  | false =>
      connId = socketId ∧ s.sourceConnIds.lookup connId = none ∧
        ∀ conn, s.destinations.lookup connId = some conn → conn = stream

/-- What an effect of a connection may be about. -/
def EngineEffect.About (stream : StreamId) (connId socketId : UInt32) (direction : Bool) :
    EngineEffect → Prop
  | .read other _ => other = stream
  | .sent origin m => origin = some stream ∧ m.Carries socketId direction
  | .removed cause conn => cause = stream ∧ conn = stream
  | .unmapped cause key assigned =>
      cause = stream ∧ key = connId ∧ assigned = socketId ∧ direction = true
  | _ => True

theorem lookup_none_of_within {α : Type} {table table' : Table α} {key : UInt32}
    (within : ∀ {value}, table'.lookup key = some value → table.lookup key = some value)
    (missing : table.lookup key = none) : table'.lookup key = none := by
  cases found : table'.lookup key with
  | none => rfl
  | some value => exact absurd (within found) (missing ▸ nofun)

theorem EngineState.Owns.of_within {s s' : EngineState} {connId socketId : UInt32}
    {stream : StreamId} {direction : Bool} (owns : s.Owns connId stream socketId direction)
    (within : s'.Within s) : s'.Owns connId stream socketId direction := by
  cases direction with
  | true =>
      refine ⟨lookup_none_of_within within.destinations owns.1, ?_⟩
      intro assigned mapped
      obtain ⟨rfl, home⟩ := owns.2 assigned (within.sourceConnIds mapped)
      exact ⟨rfl, fun conn found => home conn (within.sourceSockets found)⟩
  | false =>
      refine ⟨owns.1, lookup_none_of_within within.sourceConnIds owns.2.1, ?_⟩
      exact fun conn found => owns.2.2 conn (within.destinations found)

private theorem about_sends {socketId : UInt32} {direction : Bool} {result : ReadResult}
    {stream : StreamId} (connId : UInt32) {effect : EngineEffect}
    (there : effect ∈ (readFrames socketId direction result).map (.sent (some stream))) :
    effect.About stream connId socketId direction := by
  obtain ⟨m, framed, rfl⟩ := List.mem_map.1 there
  exact ⟨rfl, carries_of_readFrames framed⟩

/-- A read under a name that leads home stays in its tunnel. -/
theorem ReadStep.about {s s' : EngineState} {connId socketId : UInt32} {stream : StreamId}
    {direction : Bool} {result : ReadResult} {effects : List EngineEffect}
    (read : ReadStep s connId stream result s' effects)
    (owns : s.Owns connId stream socketId direction) :
    ∀ effect ∈ effects, effect.About stream connId socketId direction := by
  intro effect there
  cases direction with
  | true =>
      cases read with
      | source assigned mapped _ =>
          obtain ⟨rfl, -⟩ := owns.2 assigned mapped
          exact about_sends connId there
      | sourceEnd assigned mapped _ =>
          obtain ⟨rfl, home⟩ := owns.2 assigned mapped
          rcases List.mem_append.1 there with before | unmapped
          · rcases List.mem_append.1 before with sends | removed
            · exact about_sends connId sends
            · obtain ⟨conn, found, rfl⟩ := List.mem_map.1 removed
              exact ⟨rfl, home conn (Option.mem_toList.1 found)⟩
          · rw [List.mem_singleton.1 unmapped]
            exact ⟨rfl, rfl, rfl, rfl⟩
      | destination conn _ found _ | destinationEnd conn _ found _ =>
          rw [owns.1] at found
          cases found
      | trailing _ _ => cases there
  | false =>
      obtain ⟨rfl, unmapped, home⟩ := owns
      cases read with
      | source assigned mapped _ | sourceEnd assigned mapped _ =>
          rw [unmapped] at mapped
          cases mapped
      | destination conn _ found _ => exact about_sends connId there
      | destinationEnd conn _ found _ =>
          rcases List.mem_append.1 there with sends | removed
          · exact about_sends connId sends
          · rw [List.mem_singleton.1 removed]
            exact ⟨rfl, home conn found⟩
      | trailing _ _ => cases there

/-- The message opens no connection under an id that is in use. A response is for a
connection id that is no destination's socket id and under which nothing is read, and it
assigns a socket id of no connection that is still read. A number that is drawn for a
destination is not the connection id of a mapped source, and nothing is read under it. -/
def Engine.Admits (e : Engine) (chance : Chance) : Message → Prop
  | .request _ =>
      ∀ drawn ∈ chance.draws.find? (fun drawn => (e.state.destinations.lookup drawn).isNone),
        e.state.sourceConnIds.lookup drawn = none ∧ ∀ name ∈ e.names, name.1 ≠ drawn
  | .response response =>
      ∀ connId ∈ response.clientfd.map Int32.toUInt32,
        ∀ socketId ∈ response.socketid.map Int32.toUInt32,
          (e.state.pending.lookup connId).isSome = true →
            e.state.destinations.lookup connId = none ∧
              ∀ name ∈ e.names, name.1 ≠ connId ∧
                e.state.sourceConnIds.lookup name.1 ≠ some socketId
  | .data _ => True

/-- Only messages of the peer are restricted. -/
def Engine.Apart (codec : Codec π) (e : Engine) : EngineAct π → Prop
  | .peer p chance => ∀ m ∈ codec.read p, e.Admits chance m
  | _ => True

instance (e : Engine) (chance : Chance) (m : Message) : Decidable (e.Admits chance m) :=
  match m with
  | .request _ => Option.decidableForallMem _
  | .response _ =>
      @Option.decidableForallMem _ _ (fun _ => Option.decidableForallMem _) _
  | .data _ => isTrue trivial

instance (codec : Codec π) (e : Engine) (act : EngineAct π) : Decidable (e.Apart codec act) :=
  match act with
  | .peer p _ => Option.decidableForallMem (codec.read p)
  | .accept _ | .read _ _ _ | .abort _ _ | .event _ | .addSources _ | .shutdown | .stop =>
      isTrue trivial

structure Isolated (log : List EngineEffect) (e : Engine) : Prop where
  /-- Every name is of a connection with that connection id, and leads home. -/
  owned : ∀ name ∈ e.names, ∃ socketId direction,
    .opened name.2 name.1 socketId direction ∈ log ∧
      e.state.Owns name.1 name.2 socketId direction
  /-- What was done for a connection was about its own tunnel. -/
  about : ∀ effect ∈ log, ∀ cause, effect.cause? = some cause →
    ∃ connId socketId direction, .opened cause connId socketId direction ∈ log ∧
      effect.About cause connId socketId direction
  origin : ∀ d, .sent none (.data d) ∉ log

theorem cause_of_about {effect : EngineEffect} {stream cause : StreamId}
    {connId socketId : UInt32} {direction : Bool}
    (about : effect.About stream connId socketId direction)
    (caused : effect.cause? = some cause) : cause = stream := by
  cases effect with
  | read other result => exact (Option.some.inj caused).symm.trans about
  | sent origin m => exact Option.some.inj (caused.symm.trans about.1)
  | removed starter conn => exact (Option.some.inj caused).symm.trans about.1
  | unmapped starter key assigned => exact (Option.some.inj caused).symm.trans about.1
  | received _ | opened _ _ _ _ | enqueued _ _ | tornDown _ => cases caused

theorem names_opened {e : Engine} {state : EngineState} {streams : Nat}
    {name name' : UInt32 × StreamId}
    (named : name ∈ ({ e with
      state := state
      readers := e.readers ++ [name']
      streams := streams } : Engine).names) : name ∈ e.names ∨ name = name' := by
  rcases List.mem_append.1 named with reads | queued
  · rcases List.mem_append.1 reads with old | new
    · exact .inl (List.mem_append_left _ old)
    · exact .inr (List.mem_singleton.1 new)
  · exact .inl (List.mem_append_right _ queued)

/-- A destination under a number that is not in use. -/
theorem Engine.owns_destination {e : Engine} {socketId : UInt32}
    (unmapped : e.state.sourceConnIds.lookup socketId = none)
    (unnamed : ∀ name ∈ e.names, name.1 ≠ socketId) (stream : StreamId) :
    let state := { e.state with destinations := e.state.destinations.insert socketId stream }
    state.Owns socketId stream socketId false ∧
      ∀ name ∈ e.names, ∀ {assigned direction},
        e.state.Owns name.1 name.2 assigned direction →
        state.Owns name.1 name.2 assigned direction := by
  refine ⟨⟨rfl, unmapped, ?_⟩, ?_⟩
  · intro conn found
    rw [AList.lookup_insert] at found
    exact (Option.some.inj found).symm
  · intro name named assigned direction owns
    have elsewhere : (e.state.destinations.insert socketId stream).lookup name.1 =
        e.state.destinations.lookup name.1 := AList.lookup_insert_ne (unnamed name named)
    cases direction with
    | true => exact ⟨elsewhere.trans owns.1, owns.2⟩
    | false => exact ⟨owns.1, owns.2.1, fun conn found => owns.2.2 conn (elsewhere ▸ found)⟩

/-- A source connection that shares neither of its ids with one that is still read. -/
theorem Engine.owns_source {e : Engine} {connId socketId : UInt32}
    (free : e.state.destinations.lookup connId = none)
    (unnamed : ∀ name ∈ e.names, name.1 ≠ connId ∧
      e.state.sourceConnIds.lookup name.1 ≠ some socketId) (conn : StreamId) :
    let state := { e.state with
      pending := e.state.pending.erase connId
      sourceSockets := e.state.sourceSockets.insert socketId conn
      sourceConnIds := e.state.sourceConnIds.insert connId socketId }
    state.Owns connId conn socketId true ∧
      ∀ name ∈ e.names, ∀ {assigned direction},
        e.state.Owns name.1 name.2 assigned direction →
        state.Owns name.1 name.2 assigned direction := by
  refine ⟨⟨free, ?_⟩, ?_⟩
  · intro assigned mapped
    rw [AList.lookup_insert] at mapped
    obtain rfl := Option.some.inj mapped
    refine ⟨rfl, fun other found => ?_⟩
    rw [AList.lookup_insert] at found
    exact (Option.some.inj found).symm
  · intro name named assigned direction owns
    obtain ⟨otherKey, otherSocket⟩ := unnamed name named
    have elsewhere : (e.state.sourceConnIds.insert connId socketId).lookup name.1 =
        e.state.sourceConnIds.lookup name.1 := AList.lookup_insert_ne otherKey
    cases direction with
    | true =>
        refine ⟨owns.1, fun current mapped => ?_⟩
        replace mapped := elsewhere ▸ mapped
        obtain ⟨rfl, home⟩ := owns.2 current mapped
        refine ⟨rfl, fun other found => home other ?_⟩
        -- The socket id is another one, so its entry is the old one.
        have different : current ≠ socketId := fun same => otherSocket (same ▸ mapped)
        rwa [AList.lookup_insert_ne different] at found
    | false => exact ⟨owns.1, elsewhere.trans owns.2.1, owns.2.2⟩

namespace Isolated

variable {codec : Codec π} {log effects : List EngineEffect} {e e' : Engine} {act : EngineAct π}

theorem owned_opens (isolated : Isolated log e) (apart : e.Apart codec act)
    (opens : e.Opens codec act e' effects) :
    ∀ name ∈ e'.names, ∃ socketId direction,
      .opened name.2 name.1 socketId direction ∈ log ++ effects ∧
        e'.state.Owns name.1 name.2 socketId direction := by
  intro name named
  cases opens with
  | destination p chance request socketId decoded drawn =>
      obtain ⟨unmapped, unnamed⟩ := apart _ decoded socketId drawn
      obtain ⟨new, old⟩ := Engine.owns_destination unmapped unnamed e.streams
      rcases names_opened named with there | rfl
      · obtain ⟨assigned, direction, opened, owns⟩ := isolated.owned name there
        exact ⟨assigned, direction, List.mem_append_left _ opened, old name there owns⟩
      · refine ⟨socketId, false, List.mem_append_right _ ?_, new⟩
        exact (Engine.mem_opened Engine.Opens.silent_destination).2 ⟨rfl, rfl, rfl, rfl⟩
  | source p chance response connId socketId conn decoded fd assigned waits =>
      obtain ⟨free, unnamed⟩ := apart _ decoded connId fd socketId assigned (waits ▸ rfl)
      obtain ⟨new, old⟩ := Engine.owns_source free unnamed conn
      rcases names_opened named with there | rfl
      · obtain ⟨assigned, direction, opened, owns⟩ := isolated.owned name there
        exact ⟨assigned, direction, List.mem_append_left _ opened, old name there owns⟩
      · refine ⟨socketId, true, List.mem_append_right _ ?_, new⟩
        exact (Engine.mem_opened Engine.Opens.silent_source).2 ⟨rfl, rfl, rfl, rfl⟩

/-- Every step whose ids are apart. -/
theorem step (isolated : Isolated log e) (apart : e.Apart codec act)
    (moves : e.Moves codec act e' effects) : Isolated (log ++ effects) e' := by
  refine ⟨?_, ?_, ?_⟩
  · rcases moves.opens_or_shrinks with opens | shrinks
    · exact isolated.owned_opens apart opens
    · intro name named
      obtain ⟨socketId, direction, opened, owns⟩ := isolated.owned name (shrinks.names name named)
      exact ⟨socketId, direction, List.mem_append_left _ opened, owns.of_within shrinks.tables⟩
  · intro effect there cause caused
    rcases List.mem_append.1 there with old | new
    · obtain ⟨connId, socketId, direction, opened, about⟩ := isolated.about effect old cause caused
      exact ⟨connId, socketId, direction, List.mem_append_left _ opened, about⟩
    · obtain ⟨connId, stream, result, named, does⟩ := moves.of_cause new caused
      obtain ⟨socketId, direction, opened, owns⟩ := isolated.owned _ named
      have about : effect.About stream connId socketId direction := by
        rcases does with rfl | ⟨state, raw, read, handled⟩
        · exact rfl
        · exact read.about owns effect handled
      obtain rfl := cause_of_about about caused
      exact ⟨connId, socketId, direction, List.mem_append_left _ opened, about⟩
  · intro d there
    rcases List.mem_append.1 there with old | new
    · exact isolated.origin d old
    · exact moves.data_origin d new

end Isolated

theorem isolated_reaches {codec : Codec π} {sources : List PortForwardSourceRequest}
    {answer : Bool} {log : List EngineEffect} {e : Engine}
    (run : (Engine.system codec sources answer).Reaches (fun _ e => e.Apart codec) log e) :
    Isolated log e := by
  have start : Isolated [] (Engine.spawn sources answer) :=
    ⟨List.forall_mem_nil _, List.forall_mem_nil _, fun _ => List.not_mem_nil⟩
  refine run.invariant start ?_
  intro log e act e' effects isolated apart stepped
  exact isolated.step apart (Engine.step_moves stepped)

/-- Every run in which the peer's messages open connections only under ids that are not
in use keeps the tunnels apart: a connection is opened once, with one socket id and one
direction, every frame about a read of it carries that socket id and that direction, there
are no other data frames, and its end tears down no other connection and clears no other
connection's mapping. -/
theorem tunnels_isolated_when_apart {codec : Codec π} {sources : List PortForwardSourceRequest}
    {answer : Bool} {log : List EngineEffect} {e : Engine}
    (run : (Engine.system codec sources answer).Reaches (fun _ e => e.Apart codec) log e) :
    (∀ {stream connId socketId direction connId' socketId' direction'},
      .opened stream connId socketId direction ∈ log →
      .opened stream connId' socketId' direction' ∈ log →
      connId' = connId ∧ socketId' = socketId ∧ direction' = direction) ∧
    (∀ {stream m}, .sent (some stream) m ∈ log → ∃ connId socketId direction,
      .opened stream connId socketId direction ∈ log ∧ m.Carries socketId direction) ∧
    (∀ d, .sent none (.data d) ∉ log) ∧
    (∀ {cause stream}, .removed cause stream ∈ log → stream = cause) ∧
    ∀ {cause connId socketId}, .unmapped cause connId socketId ∈ log →
      .opened cause connId socketId true ∈ log := by
  have isolated := isolated_reaches run
  refine ⟨(streamsOf_reachable run.reachable).once, ?_, isolated.origin, ?_, ?_⟩
  · intro stream m sent
    obtain ⟨connId, socketId, direction, opened, -, carries⟩ := isolated.about _ sent stream rfl
    exact ⟨connId, socketId, direction, opened, carries⟩
  · intro cause stream removed
    obtain ⟨_, _, _, -, -, same⟩ := isolated.about _ removed cause rfl
    exact same
  · intro cause connId socketId unmapped
    obtain ⟨_, _, _, opened, -, rfl, rfl, rfl⟩ := isolated.about _ unmapped cause rfl
    exact opened

/-- One source that forwards to port 80 of the peer. -/
def oneSource : List PortForwardSourceRequest := [⟨none, some ⟨none, some 80⟩⟩]

/-- Nothing fails, and the first number drawn is one. -/
def calm : Chance := ⟨[], true, [1], true⟩

/-- A connection is accepted, gets a socket id and is read. -/
theorem tunnels_isolated_when_apart_mapped :
    ∃ log e, (Engine.system .plain oneSource true).Reaches (fun _ e => e.Apart .plain) log e ∧
      .sent (some 0) (dataPacket 7 true [42]) ∈ log ∧
      ∃ connId socketId direction, .opened 0 connId socketId direction ∈ log ∧
        (dataPacket 7 true [42]).Carries socketId direction := by
  obtain ⟨log, e, run, sent⟩ : ∃ log e,
      (Engine.system .plain oneSource true).Reaches (fun _ e => e.Apart .plain) log e ∧
        .sent (some 0) (dataPacket 7 true [42]) ∈ log :=
    ⟨_, _, .execute .start
      [.accept 0, .event [],
        .peer (.response { clientfd := some 1, socketid := some 7 }) calm,
        .read 1 0 (.ok [42]), .event []] rfl, by decide⟩
  exact ⟨log, e, run, sent, (tunnels_isolated_when_apart run).2.1 sent⟩

/-- A source connection with connection id 1 has socket id 7. A destination draws the
random number 1, and its reads are queued under that id too. What is read from it is sent
as data of socket 7 in the other direction, and its end tears the source connection
down. -/
theorem destination_id_meets_connection_id :
    ∃ log e, (Engine.system .plain oneSource true).Reachable log e ∧
      .opened 0 1 7 true ∈ log ∧ .opened 2 1 1 false ∈ log ∧
      .sent (some 2) (dataPacket 7 true [42]) ∈ log ∧ .removed 2 0 ∈ log :=
  ⟨_, _, .execute .start
    [.accept 0, .event [],
      .peer (.response { clientfd := some 1, socketid := some 7 }) calm,
      .peer (.request ⟨some ⟨none, some 80⟩, some 5⟩) calm,
      .read 1 2 (.ok [42]), .event [],
      .read 1 2 (.ok []), .event []] rfl, by decide⟩

end Forward

end Et
