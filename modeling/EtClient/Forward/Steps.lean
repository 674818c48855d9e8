import EtClient.Forward.Engine

/-!
# What the engine's steps do

A handler either opens a connection or leaves the tables of open connections smaller
than they were. This is said once here for every step, together with what a step does
to the names in use: the connection ids under which read tasks and queued reads refer
to their connections.
-/

namespace Et

namespace Forward

variable {π : Type}

/-- The connection id and the connection of a queued read. -/
def Event.name? : Event → Option (UInt32 × StreamId)
  | .read connId stream _ => some (connId, stream)
  | .accepted _ _ => none

def Event.accepted? : Event → Option StreamId
  | .accepted _ stream => some stream
  | .read _ _ _ => none

/-- Who may still be read under which connection id. -/
def Engine.names (e : Engine) : List (UInt32 × StreamId) :=
  e.readers ++ e.events.filterMap Event.name?

/-- The next event is a connection that is given a connection id. -/
def Engine.assigns (e : Engine) : Bool :=
  match e.events with
  | .accepted sourceIdx _ :: _ =>
      (e.state.sources[sourceIdx]?.bind PortForwardSourceRequest.destination).isSome
  | _ => false

theorem Engine.assigns_of_accepted {e : Engine} {sourceIdx : Nat} {stream : StreamId}
    {events : List Event} (queue : e.events = .accepted sourceIdx stream :: events)
    {destination : SocketEndpoint}
    (found : e.state.sources[sourceIdx]?.bind PortForwardSourceRequest.destination =
      some destination) : e.assigns = true := by
  rw [assigns, queue]
  exact Option.isSome_of_eq_some found

/-- The connection whose read the effect is or comes from. -/
def EngineEffect.cause? : EngineEffect → Option StreamId
  | .read stream _ => some stream
  | .sent origin _ => origin
  | .removed cause _ => some cause
  | .unmapped cause _ _ => some cause
  | _ => none

theorem sendOrShutdown_sublist (sends : List Bool) (effects : List EngineEffect) :
    (sendOrShutdown sends effects).Sublist effects := by
  fun_induction sendOrShutdown sends effects with
  | case1 => exact List.Sublist.slnil
  | case2 _ _ _ _ ih => exact ih.cons _
  | case3 _ _ _ _ ih => exact ih.cons_cons _
  | case4 _ _ _ _ _ ih => exact ih.cons_cons _

/-- Only frames are abandoned. -/
theorem mem_sendOrShutdown {effects : List EngineEffect} {effect : EngineEffect}
    (unsent : ∀ origin m, effect ≠ .sent origin m) (sends : List Bool) :
    effect ∈ sendOrShutdown sends effects ↔ effect ∈ effects := by
  fun_induction sendOrShutdown sends effects with
  | case1 => exact Iff.rfl
  | case2 _ origin m _ ih => rw [ih, List.mem_cons, or_iff_right (unsent origin m)]
  | case3 _ origin m _ ih => rw [List.mem_cons, List.mem_cons, ih]
  | case4 _ _ _ _ _ ih => rw [List.mem_cons, List.mem_cons, ih]

theorem opened_mem_sendOrShutdown {sends : List Bool} {effects : List EngineEffect}
    {stream : StreamId} {connId socketId : UInt32} {direction : Bool} :
    .opened stream connId socketId direction ∈ sendOrShutdown sends effects ↔
      .opened stream connId socketId direction ∈ effects := by
  refine mem_sendOrShutdown ?_ sends
  rintro origin m ⟨⟩

theorem sendOrShutdown_of_all {sends : List Bool} (all : sends.all id = true)
    (effects : List EngineEffect) : sendOrShutdown sends effects = effects := by
  fun_induction sendOrShutdown sends effects with
  | case1 => rfl
  | case2 _ _ _ _ ih => cases all
  | case3 _ _ _ _ ih => rw [ih all]
  | case4 _ _ _ _ _ ih => rw [ih all]

namespace Table

variable {α : Type} {table : Table α} {key key' : UInt32} {value value' : α}

theorem lookup_of_erase (found : (table.erase key').lookup key = some value) :
    table.lookup key = some value := by
  by_cases same : key = key'
  · subst same
    rw [AList.lookup_erase] at found
    cases found
  · rwa [AList.lookup_erase_ne same] at found

theorem lookup_restore (found : table.lookup key' = some value) :
    ((table.erase key').insert key' value).lookup key = table.lookup key := by
  by_cases same : key = key'
  · subst same
    rw [AList.lookup_insert, found]
  · rw [AList.lookup_insert_ne same, AList.lookup_erase_ne same]

/-- What is found behind an insertion was inserted or was there. -/
theorem lookup_insert_cases (found : (table.insert key' value').lookup key = some value) :
    key = key' ∧ value = value' ∨ key ≠ key' ∧ table.lookup key = some value := by
  by_cases same : key = key'
  · subst same
    rw [AList.lookup_insert] at found
    exact .inl ⟨rfl, (Option.some.inj found).symm⟩
  · exact .inr ⟨same, by rwa [AList.lookup_insert_ne same] at found⟩

end Table

/-- One data frame in its table: the connection is unknown, torn down, or kept. -/
inductive DataStep (table : Table StreamId) (socketId : UInt32) (closed : Bool)
    (buffer : Option Bytes) : Table StreamId → List EngineEffect → Prop
  | unknown : table.lookup socketId = none → DataStep table socketId closed buffer table []
  | torn (conn : StreamId) : table.lookup socketId = some conn →
      DataStep table socketId closed buffer (table.erase socketId) [.tornDown conn]
  | kept (conn : StreamId) : table.lookup socketId = some conn → closed = false →
      DataStep table socketId closed buffer ((table.erase socketId).insert socketId conn)
        (buffer.toList.map (.enqueued conn))

theorem receiveData_step (table : Table StreamId) (socketId : UInt32) (closed : Bool)
    (buffer : Option Bytes) (written : Bool) :
    DataStep table socketId closed buffer
      (receiveData table socketId closed buffer written).1
      (receiveData table socketId closed buffer written).2 := by
  rw [receiveData]
  split
  · rename_i missing
    exact .unknown missing
  · rename_i conn found
    dsimp only
    split
    · exact .torn conn found
    · rename_i unclosed
      have unclosed : closed = false := Bool.eq_false_of_not_eq_true unclosed
      split
      · split
        · exact .kept conn found unclosed
        · exact .torn conn found
      · exact .kept conn found unclosed

theorem DataStep.effect_cases {table table' : Table StreamId} {socketId : UInt32}
    {closed : Bool} {buffer : Option Bytes} {effects : List EngineEffect}
    (step : DataStep table socketId closed buffer table' effects) :
    ∀ effect ∈ effects, ∃ conn, effect = .tornDown conn ∨
      ∃ bytes, effect = .enqueued conn bytes := by
  intro effect there
  cases step with
  | unknown _ => cases there
  | torn conn _ => exact ⟨conn, .inl (List.mem_singleton.1 there)⟩
  | kept conn _ _ =>
      obtain ⟨bytes, -, rfl⟩ := List.mem_map.1 there
      exact ⟨conn, .inr ⟨bytes, rfl⟩⟩

theorem DataStep.within {table table' : Table StreamId} {socketId : UInt32} {closed : Bool}
    {buffer : Option Bytes} {effects : List EngineEffect}
    (step : DataStep table socketId closed buffer table' effects) {key : UInt32}
    {conn : StreamId} (found : table'.lookup key = some conn) : table.lookup key = some conn := by
  cases step with
  | unknown _ => exact found
  | torn _ _ => exact Table.lookup_of_erase found
  | kept _ there _ => rwa [Table.lookup_restore there] at found

/-- The tables of open connections hold nothing that was not there. -/
structure EngineState.Within (s' s : EngineState) : Prop where
  sourceConnIds : ∀ {key socketId}, s'.sourceConnIds.lookup key = some socketId →
    s.sourceConnIds.lookup key = some socketId
  sourceSockets : ∀ {key conn}, s'.sourceSockets.lookup key = some conn →
    s.sourceSockets.lookup key = some conn
  destinations : ∀ {key conn}, s'.destinations.lookup key = some conn →
    s.destinations.lookup key = some conn

theorem EngineState.Within.refl (s : EngineState) : s.Within s := ⟨id, id, id⟩

theorem EngineState.handleAccepted_cases {s s' : EngineState} {sourceIdx : Nat}
    {stream : StreamId} {effects : List EngineEffect}
    (handled : s.handleAccepted sourceIdx stream = (s', effects)) :
    s' = s ∧ effects = [] ∨
      ∃ destination,
        s.sources[sourceIdx]?.bind PortForwardSourceRequest.destination = some destination ∧
        s' = { s with
          nextConnId := s.nextConnId + 1
          pending := s.pending.insert s.nextConnId stream } ∧
        effects =
          [.sent none (.request ⟨some destination, some s.nextConnId.toInt32⟩)] := by
  rw [handleAccepted] at handled
  split at handled
  · cases handled
    exact .inl ⟨rfl, rfl⟩
  · rename_i destination found
    cases handled
    exact .inr ⟨destination, found, rfl, rfl⟩

/-- One message of the peer. -/
inductive PeerStep (s : EngineState) (stream : StreamId) (chance : Chance) :
    Message → EngineState → List EngineEffect → Prop
  | ignored (m : Message) : (∀ r, m ≠ .request r) →
      (∀ d, m = .data d → d.socketid.map Int32.toUInt32 = none) →
      PeerStep s stream chance m s []
  | answered (request : PortForwardDestinationRequest)
      (response : PortForwardDestinationResponse) : response.socketid = none →
      PeerStep s stream chance (.request request) s [.sent none (.response response)]
  | created (request : PortForwardDestinationRequest) (socketId : UInt32) :
      chance.draws.find? (fun drawn => (s.destinations.lookup drawn).isNone) = some socketId →
      PeerStep s stream chance (.request request)
        { s with destinations := s.destinations.insert socketId stream }
        [.opened stream socketId socketId false,
          .sent none (.response { clientfd := request.fd, socketid := some socketId.toInt32 })]
  | refused (response : PortForwardDestinationResponse) (connId : UInt32) :
      response.socketid = none →
      PeerStep s stream chance (.response response)
        { s with pending := s.pending.erase connId } []
  | mapped (response : PortForwardDestinationResponse) (connId socketId : UInt32)
      (conn : StreamId) :
      response.clientfd.map Int32.toUInt32 = some connId →
      response.socketid.map Int32.toUInt32 = some socketId →
      s.pending.lookup connId = some conn →
      PeerStep s stream chance (.response response)
        { s with
          pending := s.pending.erase connId
          sourceSockets := s.sourceSockets.insert socketId conn
          sourceConnIds := s.sourceConnIds.insert connId socketId }
        (.opened conn connId socketId true ::
          (s.sourceSockets.lookup socketId).toList.map .tornDown)
  | toDestination (d : PortForwardData) (socketId : UInt32) (table : Table StreamId)
      (effects : List EngineEffect) :
      d.socketid.map Int32.toUInt32 = some socketId → d.sourcetodestination.getD false = true →
      DataStep s.destinations socketId (d.closed.getD false || d.error.isSome) d.buffer
        table effects →
      PeerStep s stream chance (.data d) { s with destinations := table } effects
  | toSource (d : PortForwardData) (socketId : UInt32) (table : Table StreamId)
      (effects : List EngineEffect) :
      d.socketid.map Int32.toUInt32 = some socketId → d.sourcetodestination.getD false = false →
      DataStep s.sourceSockets socketId (d.closed.getD false || d.error.isSome) d.buffer
        table effects →
      PeerStep s stream chance (.data d) { s with sourceSockets := table } effects

/-- A destination is created under an unused number, or the request is refused. -/
theorem createDestination_cases {destinations : Table StreamId}
    {request : PortForwardDestinationRequest} {chance : Chance}
    {response : PortForwardDestinationResponse} {socket : Option UInt32}
    (created : createDestination destinations request chance = some (response, socket)) :
    response.socketid = none ∧ socket = none ∨
      ∃ socketId,
        chance.draws.find? (fun drawn => (destinations.lookup drawn).isNone) = some socketId ∧
        response = { clientfd := request.fd, socketid := some socketId.toInt32 } ∧
        socket = some socketId := by
  rw [createDestination] at created
  split at created
  · cases created
    exact .inl ⟨rfl, rfl⟩
  · split at created
    · cases created
      exact .inl ⟨rfl, rfl⟩
    · dsimp only at created
      split at created
      · cases created
        exact .inl ⟨rfl, rfl⟩
      · split at created
        · obtain ⟨socketId, drawn, made⟩ := Option.map_eq_some_iff.1 created
          cases made
          exact .inr ⟨socketId, drawn, rfl, rfl⟩
        · cases created
          exact .inl ⟨rfl, rfl⟩

theorem EngineState.handlePeer_step {s s' : EngineState} {answer : Bool} {stream : StreamId}
    {chance : Chance} {m : Message} {effects : List EngineEffect}
    (handled : s.handlePeer answer stream chance m = some (s', effects)) :
    PeerStep s stream chance m s' effects := by
  cases m with
  | request request =>
      rw [handlePeer] at handled
      split at handled
      · obtain ⟨⟨response, socket⟩, created, made⟩ := Option.map_eq_some_iff.1 handled
        rcases createDestination_cases created with ⟨unassigned, rfl⟩ | ⟨socketId, drawn, rfl, rfl⟩
        · cases made
          exact .answered request response unassigned
        · cases made
          exact .created request socketId drawn
      · cases handled
        exact .answered request _ rfl
  | response response =>
      rw [handlePeer] at handled
      split at handled
      · cases handled
        exact .ignored _ (by rintro _ ⟨⟩) (by rintro _ ⟨⟩)
      · rename_i connId fd
        split at handled
        · cases handled
          exact .ignored _ (by rintro _ ⟨⟩) (by rintro _ ⟨⟩)
        · rename_i conn waits
          dsimp only at handled
          split at handled
          · rename_i socketId assigned
            cases handled
            exact .mapped response connId socketId conn fd assigned waits
          · rename_i unassigned
            cases handled
            exact .refused response connId (Option.map_eq_none_iff.1 unassigned)
  | data d =>
      rw [handlePeer] at handled
      split at handled
      · rename_i unnamed
        cases handled
        exact .ignored _ nofun fun _ same => Message.data.inj same ▸ unnamed
      · rename_i socketId named
        dsimp only at handled
        split at handled
        · rename_i towards
          cases handled
          exact .toDestination d socketId _ _ named towards (receiveData_step ..)
        · rename_i back
          cases handled
          exact .toSource d socketId _ _ named (Bool.eq_false_of_not_eq_true back)
            (receiveData_step ..)

/-- A message is answered, opens a connection, ends one or is written to it. -/
theorem PeerStep.effect_cases {s s' : EngineState} {stream : StreamId} {chance : Chance}
    {m : Message} {effects : List EngineEffect} (step : PeerStep s stream chance m s' effects) :
    ∀ effect ∈ effects, (∃ response, effect = .sent none (.response response)) ∨
      (∃ conn connId socketId direction, effect = .opened conn connId socketId direction) ∨
      ∃ conn, effect = .tornDown conn ∨ ∃ bytes, effect = .enqueued conn bytes := by
  intro effect there
  cases step with
  | ignored _ _ _ | refused _ _ _ => cases there
  | answered request response _ => exact .inl ⟨response, List.mem_singleton.1 there⟩
  | created request socketId _ =>
      rcases List.mem_cons.1 there with rfl | answered
      · exact .inr (.inl ⟨_, _, _, _, rfl⟩)
      · exact .inl ⟨_, List.mem_singleton.1 answered⟩
  | mapped response connId socketId conn _ _ _ =>
      rcases List.mem_cons.1 there with rfl | torn
      · exact .inr (.inl ⟨_, _, _, _, rfl⟩)
      · obtain ⟨old, -, rfl⟩ := List.mem_map.1 torn
        exact .inr (.inr ⟨old, .inl rfl⟩)
  | toDestination _ _ _ _ _ _ data | toSource _ _ _ _ _ _ data =>
      exact .inr (.inr (data.effect_cases effect there))

theorem PeerStep.uncaused {s s' : EngineState} {stream : StreamId} {chance : Chance}
    {m : Message} {effects : List EngineEffect} (step : PeerStep s stream chance m s' effects) :
    ∀ effect ∈ effects, effect.cause? = none := by
  intro effect there
  obtain ⟨_, rfl⟩ | ⟨_, _, _, _, rfl⟩ | ⟨_, rfl | ⟨_, rfl⟩⟩ := step.effect_cases effect there <;>
    rfl

/-- One queued read. -/
inductive ReadStep (s : EngineState) (connId : UInt32) (stream : StreamId)
    (result : ReadResult) : EngineState → List EngineEffect → Prop
  | source (socketId : UInt32) : s.sourceConnIds.lookup connId = some socketId →
      isEnd result = false →
      ReadStep s connId stream result s
        ((readFrames socketId true result).map (.sent (some stream)))
  | sourceEnd (socketId : UInt32) : s.sourceConnIds.lookup connId = some socketId →
      isEnd result = true →
      ReadStep s connId stream result
        { s with
          sourceSockets := s.sourceSockets.erase socketId
          sourceConnIds := s.sourceConnIds.erase connId }
        ((readFrames socketId true result).map (.sent (some stream)) ++
          (s.sourceSockets.lookup socketId).toList.map (.removed stream) ++
          [.unmapped stream connId socketId])
  | destination (conn : StreamId) : s.sourceConnIds.lookup connId = none →
      s.destinations.lookup connId = some conn → isEnd result = false →
      ReadStep s connId stream result s
        ((readFrames connId false result).map (.sent (some stream)))
  | destinationEnd (conn : StreamId) : s.sourceConnIds.lookup connId = none →
      s.destinations.lookup connId = some conn → isEnd result = true →
      ReadStep s connId stream result { s with destinations := s.destinations.erase connId }
        ((readFrames connId false result).map (.sent (some stream)) ++ [.removed stream conn])
  | trailing : s.sourceConnIds.lookup connId = none → s.destinations.lookup connId = none →
      ReadStep s connId stream result s []

theorem EngineState.handleRead_step (s : EngineState) (connId : UInt32) (stream : StreamId)
    (result : ReadResult) :
    ReadStep s connId stream result (s.handleRead connId stream result).1
      (s.handleRead connId stream result).2 := by
  rw [handleRead]
  split
  · rename_i socketId found
    dsimp only
    split
    · rename_i ends
      exact .sourceEnd socketId found ends
    · rename_i goes
      exact .source socketId found (Bool.eq_false_of_not_eq_true goes)
  · rename_i missing
    split
    · rename_i conn found
      dsimp only
      split
      · rename_i ends
        exact .destinationEnd conn missing found ends
      · rename_i goes
        exact .destination conn missing found (Bool.eq_false_of_not_eq_true goes)
    · rename_i unknown
      exact .trailing missing unknown

theorem ReadStep.within {s s' : EngineState} {connId : UInt32} {stream : StreamId}
    {result : ReadResult} {effects : List EngineEffect}
    (step : ReadStep s connId stream result s' effects) : s'.Within s := by
  cases step with
  | source _ _ _ => exact .refl s
  | sourceEnd _ _ _ => exact ⟨Table.lookup_of_erase, Table.lookup_of_erase, id⟩
  | destination _ _ _ _ => exact .refl s
  | destinationEnd _ _ _ _ => exact ⟨id, id, Table.lookup_of_erase⟩
  | trailing _ _ => exact .refl s

/-- The frames about a read are data frames. -/
theorem data_of_readFrames {socketId : UInt32} {direction : Bool} {result : ReadResult}
    {m : Message} (framed : m ∈ readFrames socketId direction result) : ∃ d, m = .data d := by
  rcases result with text | ⟨_ | ⟨byte, bytes⟩⟩
  · rcases List.mem_cons.1 framed with rfl | closed
    · exact ⟨_, rfl⟩
    · exact ⟨_, List.mem_singleton.1 closed⟩
  · exact ⟨_, List.mem_singleton.1 framed⟩
  · exact ⟨_, List.mem_singleton.1 framed⟩

/-- A handled read sends data frames and removes what has ended. -/
theorem ReadStep.effect_cases {s s' : EngineState} {connId : UInt32} {stream : StreamId}
    {result : ReadResult} {effects : List EngineEffect}
    (step : ReadStep s connId stream result s' effects) :
    ∀ effect ∈ effects, (∃ d, effect = .sent (some stream) (.data d)) ∨
      (∃ conn, effect = .removed stream conn) ∨ ∃ socketId,
        effect = .unmapped stream connId socketId := by
  intro effect there
  cases step with
  | source _ _ _ | destination _ _ _ _ =>
      obtain ⟨m, framed, rfl⟩ := List.mem_map.1 there
      obtain ⟨d, rfl⟩ := data_of_readFrames framed
      exact .inl ⟨d, rfl⟩
  | sourceEnd socketId _ _ =>
      rcases List.mem_append.1 there with before | unmapped
      · rcases List.mem_append.1 before with sends | removed
        · obtain ⟨m, framed, rfl⟩ := List.mem_map.1 sends
          obtain ⟨d, rfl⟩ := data_of_readFrames framed
          exact .inl ⟨d, rfl⟩
        · obtain ⟨conn, -, rfl⟩ := List.mem_map.1 removed
          exact .inr (.inl ⟨conn, rfl⟩)
      · exact .inr (.inr ⟨socketId, List.mem_singleton.1 unmapped⟩)
  | destinationEnd conn _ _ _ =>
      rcases List.mem_append.1 there with sends | removed
      · obtain ⟨m, framed, rfl⟩ := List.mem_map.1 sends
        obtain ⟨d, rfl⟩ := data_of_readFrames framed
        exact .inl ⟨d, rfl⟩
      · exact .inr (.inl ⟨conn, List.mem_singleton.1 removed⟩)
  | trailing _ _ => cases there

namespace Engine

/-- Every step of the engine, with the handlers resolved. -/
inductive Moves (codec : Codec π) (e : Engine) : EngineAct π → Engine → List EngineEffect → Prop
  | accept (sourceIdx : Nat) :
      Moves codec e (.accept sourceIdx)
        { e with
          events := e.events ++ [.accepted sourceIdx e.streams]
          streams := e.streams + 1 } []
  | read (connId : UInt32) (stream : StreamId) (result : ReadResult) :
      (connId, stream) ∈ e.readers →
      Moves codec e (.read connId stream result)
        { e with
          events := e.events ++ [.read connId stream result]
          readers := if isEnd result then e.readers.filter (· ≠ (connId, stream)) else e.readers }
        [.read stream result]
  | abort (connId : UInt32) (stream : StreamId) :
      Moves codec e (.abort connId stream)
        { e with readers := e.readers.filter (· ≠ (connId, stream)) } []
  | take (sends : List Bool) (sourceIdx : Nat) (stream : StreamId) (events : List Event)
      (state : EngineState) (effects : List EngineEffect) : e.ready sends = true →
      e.events = .accepted sourceIdx stream :: events →
      e.state.handleAccepted sourceIdx stream = (state, effects) →
      Moves codec e (.event sends) { e with state := state, events := events }
        (sendOrShutdown sends effects)
  | relay (sends : List Bool) (connId : UInt32) (stream : StreamId) (result : ReadResult)
      (events : List Event) (state : EngineState) (effects : List EngineEffect) :
      e.ready sends = true → e.events = .read connId stream result :: events →
      ReadStep e.state connId stream result state effects →
      Moves codec e (.event sends) { e with state := state, events := events }
        (sendOrShutdown sends effects)
  | skip (p : π) (chance : Chance) : codec.read p = none →
      Moves codec e (.peer p chance) e []
  | receive (p : π) (chance : Chance) (m : Message) (state : EngineState)
      (effects : List EngineEffect) : e.ready chance.sends = true → codec.read p = some m →
      PeerStep e.state e.streams chance m state effects →
      Moves codec e (.peer p chance)
        { e with
          state := state
          readers := e.readers ++ effects.filterMap EngineEffect.reader?
          streams := e.streams + 1 }
        (.received m :: sendOrShutdown chance.sends effects)
  | addSources (sources : List PortForwardSourceRequest) :
      Moves codec e (.addSources sources)
        { e with state := { e.state with sources := e.state.sources ++ sources } } []
  | shutdown : Moves codec e .shutdown { e with shutdown := true } []
  | stop :
      Moves codec e .stop
        { e with state := e.state.teardownAll, shutdown := true, running := false }
        ((e.state.sourceSockets.entries ++ e.state.destinations.entries).map fun entry =>
          .tornDown entry.2)

theorem step_moves {codec : Codec π} {e e' : Engine} {act : EngineAct π}
    {effects : List EngineEffect} (stepped : e.step codec act = some (e', effects)) :
    e.Moves codec act e' effects := by
  cases act with
  | accept sourceIdx =>
      cases stepped
      exact .accept sourceIdx
  | read connId stream result =>
      rw [step] at stepped
      split at stepped
      · rename_i reading
        cases stepped
        exact .read connId stream result reading
      · cases stepped
  | abort connId stream =>
      cases stepped
      exact .abort connId stream
  | event sends =>
      rw [step] at stepped
      split at stepped
      · rename_i ready
        split at stepped
        · cases stepped
        · rename_i sourceIdx stream events queue
          cases stepped
          exact .take sends sourceIdx stream events _ _ ready queue rfl
        · rename_i connId stream result events queue
          cases stepped
          exact .relay sends connId stream result events _ _ ready queue
            (e.state.handleRead_step connId stream result)
      · cases stepped
  | peer p chance =>
      rw [step] at stepped
      split at stepped
      · rename_i ready
        split at stepped
        · rename_i unread
          cases stepped
          exact .skip p chance unread
        · rename_i m decoded
          obtain ⟨⟨state, effects⟩, handled, made⟩ := Option.map_eq_some_iff.1 stepped
          cases made
          exact .receive p chance m state effects ready decoded
            (EngineState.handlePeer_step handled)
      · cases stepped
  | addSources sources =>
      rw [step] at stepped
      split at stepped
      · cases stepped
        exact .addSources sources
      · cases stepped
  | shutdown =>
      cases stepped
      exact .shutdown
  | stop =>
      cases stepped
      exact .stop

/-- A message is handled as a whole. -/
theorem handled_of_step {codec : Codec π} {e e' : Engine} {p : π} {chance : Chance}
    {effects : List EngineEffect} {m : Message} (decoded : codec.read p = some m)
    (stepped : e.step codec (.peer p chance) = some (e', effects)) :
    e.ready chance.sends = true ∧ ∃ raw,
      e.state.handlePeer e.answerDestinations e.streams chance m = some (e'.state, raw) ∧
        effects = .received m :: sendOrShutdown chance.sends raw := by
  rw [step, decoded] at stepped
  split at stepped
  · rename_i ready
    obtain ⟨⟨state, raw⟩, handled, made⟩ := Option.map_eq_some_iff.1 stepped
    cases made
    exact ⟨ready, raw, handled, rfl⟩
  · cases stepped

theorem Moves.running {codec : Codec π} {e e' : Engine} {act : EngineAct π}
    {effects : List EngineEffect} (moves : e.Moves codec act e' effects) (going : act ≠ .stop) :
    e'.running = e.running := by
  cases moves with
  | stop => exact absurd rfl going
  | _ => rfl

/-- The two steps that open a connection. -/
inductive Opens (codec : Codec π) (e : Engine) : EngineAct π → Engine → List EngineEffect → Prop
  | destination (p : π) (chance : Chance) (request : PortForwardDestinationRequest)
      (socketId : UInt32) : codec.read p = some (.request request) →
      chance.draws.find? (fun drawn => (e.state.destinations.lookup drawn).isNone) =
        some socketId →
      Opens codec e (.peer p chance)
        { e with
          state := { e.state with
            destinations := e.state.destinations.insert socketId e.streams }
          readers := e.readers ++ [(socketId, e.streams)]
          streams := e.streams + 1 }
        (.received (.request request) ::
          sendOrShutdown chance.sends
            [.opened e.streams socketId socketId false,
              .sent none (.response
                { clientfd := request.fd, socketid := some socketId.toInt32 })])
  | source (p : π) (chance : Chance) (response : PortForwardDestinationResponse)
      (connId socketId : UInt32) (conn : StreamId) : codec.read p = some (.response response) →
      response.clientfd.map Int32.toUInt32 = some connId →
      response.socketid.map Int32.toUInt32 = some socketId →
      e.state.pending.lookup connId = some conn →
      Opens codec e (.peer p chance)
        { e with
          state := { e.state with
            pending := e.state.pending.erase connId
            sourceSockets := e.state.sourceSockets.insert socketId conn
            sourceConnIds := e.state.sourceConnIds.insert connId socketId }
          readers := e.readers ++ [(connId, conn)]
          streams := e.streams + 1 }
        (.received (.response response) ::
          sendOrShutdown chance.sends
            (.opened conn connId socketId true ::
              (e.state.sourceSockets.lookup socketId).toList.map .tornDown))

/-- Names and tables only get smaller, and nothing is opened. -/
structure Shrinks (e e' : Engine) (effects : List EngineEffect) : Prop where
  names : ∀ name ∈ e'.names, name ∈ e.names
  tables : e'.state.Within e.state
  unopened : ∀ stream connId socketId direction,
    .opened stream connId socketId direction ∉ effects

private theorem unopened_of_silent {effects : List EngineEffect}
    (silent : ∀ effect ∈ effects, effect.reader? = none) (stream : StreamId)
    (connId socketId : UInt32) (direction : Bool) :
    .opened stream connId socketId direction ∉ effects := by
  intro opened
  cases silent _ opened

private theorem names_handled {e : Engine} {event : Event} {events : List Event}
    (queue : e.events = event :: events) (state : EngineState) :
    ∀ name ∈ ({ e with state := state, events := events } : Engine).names, name ∈ e.names := by
  intro name named
  rw [names, queue]
  rcases List.mem_append.1 named with reads | queued
  · exact List.mem_append_left _ reads
  · obtain ⟨later, there, refers⟩ := List.mem_filterMap.1 queued
    refine List.mem_append_right _ (List.mem_filterMap.2 ?_)
    exact ⟨later, List.mem_cons_of_mem _ there, refers⟩

private theorem names_fewer {e : Engine} {readers : List (UInt32 × StreamId)}
    (fewer : readers ⊆ e.readers) :
    ∀ name ∈ ({ e with readers := readers } : Engine).names, name ∈ e.names := by
  intro name named
  rcases List.mem_append.1 named with reads | queued
  · exact List.mem_append_left _ (fewer reads)
  · exact List.mem_append_right _ queued

/-- What a read task queues was a name before. -/
private theorem names_read {e : Engine} {connId : UInt32} {stream : StreamId}
    {result : ReadResult} {readers : List (UInt32 × StreamId)}
    (reading : (connId, stream) ∈ e.readers) (fewer : readers ⊆ e.readers) :
    ∀ name ∈ ({ e with
      events := e.events ++ [.read connId stream result]
      readers := readers } : Engine).names, name ∈ e.names := by
  intro name named
  rcases List.mem_append.1 named with reads | queued
  · exact List.mem_append_left _ (fewer reads)
  · rw [List.filterMap_append] at queued
    rcases List.mem_append.1 queued with before | new
    · exact List.mem_append_right _ before
    · rw [List.mem_singleton.1 new]
      exact List.mem_append_left _ reading

/-- A message that opens nothing. -/
private theorem shrinks_of_silent {e : Engine} {state : EngineState} {m : Message}
    {chance : Chance} {effects : List EngineEffect} (tables : state.Within e.state)
    (silent : ∀ effect ∈ effects, effect.reader? = none) :
    e.Shrinks
      { e with
        state := state
        readers := e.readers ++ effects.filterMap EngineEffect.reader?
        streams := e.streams + 1 }
      (.received m :: sendOrShutdown chance.sends effects) := by
  rw [List.filterMap_eq_nil_iff.2 silent, List.append_nil]
  refine ⟨fun _ named => named, tables, unopened_of_silent ?_⟩
  intro effect there
  rcases List.mem_cons.1 there with rfl | handled
  · rfl
  · exact silent effect ((sendOrShutdown_sublist _ _).subset handled)

theorem Moves.opens_or_shrinks {codec : Codec π} {e e' : Engine} {act : EngineAct π}
    {effects : List EngineEffect} (moves : e.Moves codec act e' effects) :
    e.Opens codec act e' effects ∨ e.Shrinks e' effects := by
  cases moves with
  | accept sourceIdx =>
      refine .inr ⟨?_, .refl _, unopened_of_silent (List.forall_mem_nil _)⟩
      intro name named
      rwa [names, List.filterMap_append, List.filterMap_cons_none rfl, List.filterMap_nil,
        List.append_nil] at named
  | read connId stream result reading =>
      refine .inr ⟨names_read reading ?_, .refl _, unopened_of_silent ?_⟩
      · split
        · exact List.filter_subset_self _
        · exact fun _ => id
      · intro effect there
        rw [List.mem_singleton.1 there]
        rfl
  | abort connId stream =>
      exact .inr ⟨names_fewer (List.filter_subset_self _), .refl _,
        unopened_of_silent (List.forall_mem_nil _)⟩
  | take sends sourceIdx stream events state effects ready queue handled =>
      refine .inr ⟨names_handled queue state, ?_, unopened_of_silent ?_⟩
      · rcases EngineState.handleAccepted_cases handled with ⟨rfl, -⟩ | ⟨_, -, rfl, -⟩
        · exact .refl _
        · exact ⟨id, id, id⟩
      · intro effect there
        have raw := (sendOrShutdown_sublist _ _).subset there
        rcases EngineState.handleAccepted_cases handled with ⟨-, rfl⟩ | ⟨_, -, -, rfl⟩
        · cases raw
        · rw [List.mem_singleton.1 raw]
          rfl
  | relay sends connId stream result events state effects ready queue read =>
      refine .inr ⟨names_handled queue state, read.within, unopened_of_silent ?_⟩
      intro effect there
      obtain ⟨_, rfl⟩ | ⟨_, rfl⟩ | ⟨_, rfl⟩ :=
        read.effect_cases effect ((sendOrShutdown_sublist _ _).subset there) <;> rfl
  | skip p chance unread =>
      exact .inr ⟨fun _ => id, .refl _, unopened_of_silent (List.forall_mem_nil _)⟩
  | receive p chance m state effects ready decoded peer =>
      cases peer with
      | ignored _ _ _ => exact .inr (shrinks_of_silent (.refl _) (List.forall_mem_nil _))
      | answered request response _ =>
          refine .inr (shrinks_of_silent (.refl _) ?_)
          intro effect there
          rw [List.mem_singleton.1 there]
          rfl
      | created request socketId drawn =>
          exact .inl (.destination p chance request socketId decoded drawn)
      | refused response connId _ =>
          exact .inr (shrinks_of_silent ⟨id, id, id⟩ (List.forall_mem_nil _))
      | mapped response connId socketId conn fd assigned waits =>
          have alone : (EngineEffect.opened conn connId socketId true ::
              (e.state.sourceSockets.lookup socketId).toList.map .tornDown).filterMap
                EngineEffect.reader? = [(connId, conn)] := by
            refine congrArg ((connId, conn) :: ·) ?_
            rw [List.filterMap_map, List.filterMap_eq_nil_iff]
            exact fun _ _ => rfl
          rw [alone]
          exact .inl (.source p chance response connId socketId conn decoded fd assigned waits)
      | toDestination d socketId table effects _ _ data =>
          refine .inr (shrinks_of_silent ⟨id, id, data.within⟩ ?_)
          intro effect there
          obtain ⟨conn, rfl | ⟨bytes, rfl⟩⟩ := data.effect_cases effect there <;> rfl
      | toSource d socketId table effects _ _ data =>
          refine .inr (shrinks_of_silent ⟨id, data.within, id⟩ ?_)
          intro effect there
          obtain ⟨conn, rfl | ⟨bytes, rfl⟩⟩ := data.effect_cases effect there <;> rfl
  | addSources sources =>
      exact .inr ⟨fun _ => id, ⟨id, id, id⟩, unopened_of_silent (List.forall_mem_nil _)⟩
  | shutdown => exact .inr ⟨fun _ => id, .refl _, unopened_of_silent (List.forall_mem_nil _)⟩
  | stop =>
      refine .inr ⟨fun _ => id, ⟨nofun, nofun, nofun⟩, unopened_of_silent ?_⟩
      intro effect there
      obtain ⟨entry, -, rfl⟩ := List.mem_map.1 there
      rfl

/-- A message opens the connection that its handler opens first, and no other. -/
theorem mem_opened {m : Message} {sends : List Bool} {rest : List EngineEffect}
    (silent : ∀ effect ∈ rest, effect.reader? = none) {stream stream' : StreamId}
    {connId socketId connId' socketId' : UInt32} {direction direction' : Bool} :
    .opened stream' connId' socketId' direction' ∈
        .received m :: sendOrShutdown sends (.opened stream connId socketId direction :: rest) ↔
      stream' = stream ∧ connId' = connId ∧ socketId' = socketId ∧ direction' = direction := by
  rw [List.mem_cons, or_iff_right nofun, opened_mem_sendOrShutdown, List.mem_cons,
    or_iff_left (unopened_of_silent silent _ _ _ _), EngineEffect.opened.injEq]

/-- Opening a connection is about no read. -/
theorem Opens.uncaused {codec : Codec π} {e e' : Engine} {act : EngineAct π}
    {effects : List EngineEffect} (opens : e.Opens codec act e' effects) :
    ∀ effect ∈ effects, effect.cause? = none := by
  intro effect there
  cases opens with
  | destination p chance request socketId decoded drawn =>
      rcases List.mem_cons.1 there with rfl | handled
      · rfl
      · have peer := @PeerStep.created _ e.streams chance request socketId drawn
        exact peer.uncaused _ ((sendOrShutdown_sublist _ _).subset handled)
  | source p chance response connId socketId conn decoded fd assigned waits =>
      rcases List.mem_cons.1 there with rfl | handled
      · rfl
      · have peer := @PeerStep.mapped _ e.streams chance response connId socketId conn fd
          assigned waits
        exact peer.uncaused _ ((sendOrShutdown_sublist _ _).subset handled)

theorem Opens.silent_destination {response : PortForwardDestinationResponse} :
    ∀ effect ∈ [EngineEffect.sent none (.response response)], effect.reader? = none := by
  intro effect there
  rw [List.mem_singleton.1 there]
  rfl

theorem Opens.silent_source {conns : List StreamId} :
    ∀ effect ∈ conns.map EngineEffect.tornDown, effect.reader? = none := by
  intro effect there
  obtain ⟨conn, -, rfl⟩ := List.mem_map.1 there
  rfl

end Engine

namespace Engine

/-- Where an effect of a step comes from: a read task, a new connection of a source, a queued
read, a packet of the peer, or the end of the engine. -/
inductive Emits (codec : Codec π) (e : Engine) :
    EngineAct π → Engine → List EngineEffect → EngineEffect → Prop
  | read {e' : Engine} {effects : List EngineEffect} (connId : UInt32) (stream : StreamId)
      (result : ReadResult) : (connId, stream) ∈ e.readers →
      Emits codec e (.read connId stream result) e' effects (.read stream result)
  | asked {e' : Engine} {effects : List EngineEffect} (sends : List Bool)
      (request : PortForwardDestinationRequest) : e.state.sources ≠ [] →
      Emits codec e (.event sends) e' effects (.sent none (.request request))
  | relayed {effect : EngineEffect} (sends : List Bool) (connId : UInt32) (stream : StreamId)
      (result : ReadResult) (events : List Event) (state : EngineState)
      (raw : List EngineEffect) : e.events = .read connId stream result :: events →
      ReadStep e.state connId stream result state raw → effect ∈ raw →
      Emits codec e (.event sends) { e with state := state, events := events }
        (sendOrShutdown sends raw) effect
  | received (p : π) (chance : Chance) (m : Message) (state : EngineState)
      (raw : List EngineEffect) : codec.read p = some m →
      PeerStep e.state e.streams chance m state raw →
      Emits codec e (.peer p chance)
        { e with
          state := state
          readers := e.readers ++ raw.filterMap EngineEffect.reader?
          streams := e.streams + 1 }
        (.received m :: sendOrShutdown chance.sends raw) (.received m)
  | handled {effect : EngineEffect} (p : π) (chance : Chance) (m : Message)
      (state : EngineState) (raw : List EngineEffect) : codec.read p = some m →
      PeerStep e.state e.streams chance m state raw → effect ∈ raw →
      Emits codec e (.peer p chance)
        { e with
          state := state
          readers := e.readers ++ raw.filterMap EngineEffect.reader?
          streams := e.streams + 1 }
        (.received m :: sendOrShutdown chance.sends raw) effect
  | tornDown {effects : List EngineEffect} (entry : (_ : UInt32) × StreamId) :
      entry ∈ e.state.sourceSockets.entries ++ e.state.destinations.entries →
      Emits codec e .stop
        { e with state := e.state.teardownAll, shutdown := true, running := false }
        effects (.tornDown entry.2)

variable {codec : Codec π} {e e' : Engine} {act : EngineAct π} {effects : List EngineEffect}

theorem Moves.emits (moves : e.Moves codec act e' effects) {effect : EngineEffect}
    (there : effect ∈ effects) : e.Emits codec act e' effects effect := by
  cases moves with
  | accept _ | abort _ _ | skip _ _ _ | addSources _ | shutdown => cases there
  | read connId stream result reading =>
      rw [List.mem_singleton.1 there]
      exact .read connId stream result reading
  | take sends sourceIdx stream events state raw ready queue handled =>
      have handles := (sendOrShutdown_sublist _ _).subset there
      rcases EngineState.handleAccepted_cases handled with ⟨-, rfl⟩ | ⟨_, found, -, rfl⟩
      · cases handles
      · rw [List.mem_singleton.1 handles]
        refine .asked sends _ fun empty => ?_
        rw [empty] at found
        cases found
  | relay sends connId stream result events state raw ready queue read =>
      exact .relayed sends connId stream result events state raw queue read
        ((sendOrShutdown_sublist _ _).subset there)
  | receive p chance m state raw ready decoded peer =>
      rcases List.mem_cons.1 there with rfl | sent
      · exact .received p chance m state raw decoded peer
      · exact .handled p chance m state raw decoded peer ((sendOrShutdown_sublist _ _).subset sent)
  | stop =>
      obtain ⟨entry, listed, rfl⟩ := List.mem_map.1 there
      exact .tornDown entry listed

/-- Only a read task and the handler of queued reads act for a connection. -/
theorem Moves.of_cause (moves : e.Moves codec act e' effects) {effect : EngineEffect}
    (there : effect ∈ effects) {cause : StreamId} (caused : effect.cause? = some cause) :
    ∃ connId stream result, (connId, stream) ∈ e.names ∧ (effect = .read stream result ∨
      ∃ state raw, ReadStep e.state connId stream result state raw ∧ effect ∈ raw) := by
  cases moves.emits there with
  | read connId stream result reading =>
      exact ⟨connId, stream, result, List.mem_append_left _ reading, .inl rfl⟩
  | relayed sends connId stream result events state raw queue read raws =>
      refine ⟨connId, stream, result, ?_, .inr ⟨state, raw, read, raws⟩⟩
      rw [names, queue]
      exact List.mem_append_right _ List.mem_cons_self
  | handled p chance m state raw decoded peer raws =>
      rw [peer.uncaused _ raws] at caused
      cases caused
  | asked _ _ _ | received _ _ _ _ _ _ _ | tornDown _ _ => cases caused

/-- Data frames are sent when a queued read is handled, and only then. -/
theorem Moves.relays (moves : e.Moves codec act e' effects) {origin : Option StreamId}
    {d : PortForwardData} (sent : .sent origin (.data d) ∈ effects) :
    ∃ sends connId stream result events state raw,
      e.events = .read connId stream result :: events ∧
        ReadStep e.state connId stream result state raw ∧
        e' = { e with state := state, events := events } ∧ effects = sendOrShutdown sends raw := by
  cases moves.emits sent with
  | relayed sends connId stream result events state raw queue read raws =>
      exact ⟨sends, connId, stream, result, events, state, raw, queue, read, rfl, rfl⟩
  | handled p chance m state raw decoded peer raws =>
      obtain ⟨_, same⟩ | ⟨_, _, _, _, same⟩ | ⟨_, same | ⟨_, same⟩⟩ :=
        peer.effect_cases _ raws <;> cases same

/-- Data frames are about reads. -/
theorem Moves.data_origin (moves : e.Moves codec act e' effects) (d : PortForwardData) :
    .sent none (.data d) ∉ effects := by
  intro there
  obtain ⟨_, _, _, _, _, _, _, -, read, -, rfl⟩ := moves.relays there
  obtain ⟨_, same⟩ | ⟨_, same⟩ | ⟨_, same⟩ :=
    read.effect_cases _ ((sendOrShutdown_sublist _ _).subset there) <;> cases same

end Engine

end Forward

end Et
