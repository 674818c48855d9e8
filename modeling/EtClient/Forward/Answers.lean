import EtClient.Forward.Isolation

/-!
# Requests for destinations

Every request of the peer gets one response, with the number the peer gave it. A refusal says
why and leaves the engine as it was. A response with a socket id has put one connection into
the table of destinations, under an id that was not in it.

The table never outgrows its cap: a connection comes only while there is room, and a frame
that takes an entry out of the table puts the same one back.
-/

namespace Et

namespace Forward

variable {π : Type}

namespace Table

variable {α : Type} {table : Table α} {key : UInt32} {value : α}

theorem length_keys (table : Table α) : table.keys.length = table.entries.length :=
  List.length_map _

theorem length_erase_le (table : Table α) (key : UInt32) :
    (table.erase key).entries.length ≤ table.entries.length := by
  rw [← length_keys, ← length_keys, AList.keys_erase]
  exact List.length_erase_le

theorem length_insert_le (table : Table α) (key : UInt32) (value : α) :
    (table.insert key value).entries.length ≤ table.entries.length + 1 := by
  rw [← length_keys, ← length_keys, AList.keys_insert, List.length_cons]
  exact Nat.succ_le_succ List.length_erase_le

/-- An entry that is taken out and put back. -/
theorem length_restore_le (found : table.lookup key = some value) :
    ((table.erase key).insert key value).entries.length ≤ table.entries.length := by
  have there : key ∈ table.keys := by
    rw [← AList.mem_keys, ← AList.lookup_isSome, found]
    rfl
  have shorter := List.length_erase_of_mem there
  have some := List.length_pos_of_mem there
  have longer := length_insert_le (table.erase key) key value
  rw [← length_keys (table.erase key), AList.keys_erase] at longer
  rw [← length_keys table]
  omega

/-- A table with fewer entries than there are numbers leaves one of them free. -/
theorem exists_free (table : Table α) (small : table.entries.length < UInt32.size) :
    ∃ key, table.lookup key = none := by
  by_contra full
  -- One number more than there are entries, all different.
  let numbers := (List.range (table.entries.length + 1)).map UInt32.ofNat
  have nodup : numbers.Nodup := by
    refine List.Nodup.map_on ?_ List.nodup_range
    intro first low second low' same
    rw [List.mem_range] at low low'
    have values := congrArg UInt32.toNat same
    rwa [UInt32.toNat_ofNat', UInt32.toNat_ofNat', Nat.mod_eq_of_lt (low.trans_le small),
      Nat.mod_eq_of_lt (low'.trans_le small)] at values
  have inside : numbers ⊆ table.keys := by
    intro key _
    rw [← AList.mem_keys, ← AList.lookup_isSome, Option.isSome_iff_ne_none]
    exact fun missing => full ⟨key, missing⟩
  have few := (nodup.subperm inside).length_le
  rw [List.length_map, List.length_range, length_keys] at few
  omega

end Table

/-- One response was sent for the request. Either it has an error and the tables are as they
were, or it has a socket id, and there is one connection more. -/
def Answered (request : PortForwardDestinationRequest) (s s' : EngineState)
    (effects : List EngineEffect) : Prop :=
  ∃ response, sentOf effects = [.response response] ∧ response.clientfd = request.fd ∧
    (response.error.isSome = true ∧ response.socketid = none ∧ s' = s ∨
      ∃ socketId stream, response.error = none ∧ response.socketid = some socketId.toInt32 ∧
        s.destinations.lookup socketId = none ∧
        s' = { s with destinations := s.destinations.insert socketId stream })

/-- What `create_destination` answers. -/
theorem createDestination_answer {destinations : Table StreamId}
    {request : PortForwardDestinationRequest} {chance : Chance}
    {response : PortForwardDestinationResponse} {socket : Option UInt32}
    (created : createDestination destinations request chance = some (response, socket)) :
    response.clientfd = request.fd ∧
      (response.error.isSome = true ∧ response.socketid = none ∧ socket = none ∨
        ∃ socketId, response.error = none ∧ response.socketid = some socketId.toInt32 ∧
          socket = some socketId ∧ destinations.lookup socketId = none ∧
          destinations.entries.length < maxDestinationConnections) := by
  rw [createDestination] at created
  split at created
  · cases created
    exact ⟨rfl, .inl ⟨rfl, rfl, rfl⟩⟩
  · split at created
    · cases created
      exact ⟨rfl, .inl ⟨rfl, rfl, rfl⟩⟩
    · dsimp only at created
      split at created
      · cases created
        exact ⟨rfl, .inl ⟨rfl, rfl, rfl⟩⟩
      · rename_i room
        split at created
        · obtain ⟨socketId, drawn, made⟩ := Option.map_eq_some_iff.1 created
          cases made
          have free : destinations.lookup socketId = none := by
            simpa using List.find?_some drawn
          exact ⟨rfl, .inr ⟨socketId, rfl, rfl, rfl, free, Nat.lt_of_not_le room⟩⟩
        · cases created
          exact ⟨rfl, .inl ⟨rfl, rfl, rfl⟩⟩

/-- A free number that is drawn ends the loop of `create_destination`. -/
theorem createDestination_isSome {destinations : Table StreamId}
    {request : PortForwardDestinationRequest} {chance : Chance}
    (free : ∃ drawn ∈ chance.draws, destinations.lookup drawn = none) :
    (createDestination destinations request chance).isSome = true := by
  rw [createDestination]
  split
  · rfl
  · split
    · rfl
    · dsimp only
      split
      · rfl
      · split
        · rw [Option.isSome_map, List.find?_isSome]
          obtain ⟨drawn, mem, missing⟩ := free
          exact ⟨drawn, mem, by rw [missing]; rfl⟩
        · rfl

theorem EngineState.handlePeer_request {s s' : EngineState} {answer : Bool} {stream : StreamId}
    {chance : Chance} {request : PortForwardDestinationRequest} {raw : List EngineEffect}
    (handled : s.handlePeer answer stream chance (.request request) = some (s', raw)) :
    ∃ response, response.clientfd = request.fd ∧
      (raw = [.sent none (.response response)] ∧ response.error.isSome = true ∧
          response.socketid = none ∧ s' = s ∨
        ∃ socketId, raw = [.opened stream socketId socketId false,
            .sent none (.response response)] ∧
          response.error = none ∧ response.socketid = some socketId.toInt32 ∧
          s.destinations.lookup socketId = none ∧
          s.destinations.entries.length < maxDestinationConnections ∧
          s' = { s with destinations := s.destinations.insert socketId stream }) := by
  rw [handlePeer] at handled
  split at handled
  · obtain ⟨⟨response, socket⟩, created, made⟩ := Option.map_eq_some_iff.1 handled
    obtain ⟨fd, ⟨failed, unassigned, rfl⟩ | ⟨socketId, ok, assigned, rfl, free, room⟩⟩ :=
      createDestination_answer created
    · cases made
      exact ⟨response, fd, .inl ⟨rfl, failed, unassigned, rfl⟩⟩
    · cases made
      exact ⟨response, fd, .inr ⟨socketId, rfl, ok, assigned, free, room, rfl⟩⟩
  · cases handled
    exact ⟨_, rfl, .inl ⟨rfl, rfl, rfl, rfl⟩⟩

namespace Engine

variable {codec : Codec π} {e e' : Engine} {p : π} {chance : Chance}
  {request : PortForwardDestinationRequest} {effects : List EngineEffect}

/-- The step that answers a request. -/
theorem answered_of_step (decoded : codec.read p = some (.request request))
    (calm : e.shutdown = false)
    (stepped : e.step codec (.peer p chance) = some (e', effects)) :
    Answered request e.state e'.state effects := by
  obtain ⟨ready, raw, handled, rfl⟩ := handled_of_step decoded stepped
  have sends : chance.sends.all id = true := by simp_all [Engine.ready]
  rw [sendOrShutdown_of_all sends]
  obtain ⟨response, fd, ⟨rfl, failed, unassigned, same⟩ |
    ⟨socketId, rfl, ok, assigned, free, -, more⟩⟩ := EngineState.handlePeer_request handled
  · exact ⟨response, rfl, fd, .inl ⟨failed, unassigned, same⟩⟩
  · exact ⟨response, rfl, fd, .inr ⟨socketId, _, ok, assigned, free, more⟩⟩

theorem answers (decoded : codec.read p = some (.request request)) (going : e.running = true)
    (sends : chance.sends.all id = true)
    (free : ∃ drawn ∈ chance.draws, e.state.destinations.lookup drawn = none) :
    (e.step codec (.peer p chance)).isSome = true := by
  have ready : e.ready chance.sends = true := by simp [Engine.ready, going, sends]
  rw [step, if_pos ready, decoded]
  simp only [receive, Option.isSome_map, EngineState.handlePeer]
  split
  · rw [Option.isSome_map]
    exact createDestination_isSome free
  · rfl

theorem destinations_le_of_request (decoded : codec.read p = some (.request request))
    (fits : e.state.destinations.entries.length ≤ maxDestinationConnections)
    (stepped : e.step codec (.peer p chance) = some (e', effects)) :
    e'.state.destinations.entries.length ≤ maxDestinationConnections := by
  obtain ⟨-, raw, handled, -⟩ := handled_of_step decoded stepped
  obtain ⟨response, -, ⟨-, -, -, same⟩ | ⟨socketId, -, -, -, -, room, more⟩⟩ :=
    EngineState.handlePeer_request handled
  · rw [same]
    exact fits
  · rw [more]
    exact (Table.length_insert_le _ socketId _).trans room

/-- A step keeps the table of destinations within its cap. -/
theorem destinations_le {act : EngineAct π}
    (fits : e.state.destinations.entries.length ≤ maxDestinationConnections)
    (stepped : e.step codec act = some (e', effects)) :
    e'.state.destinations.entries.length ≤ maxDestinationConnections := by
  cases step_moves stepped with
  | accept _ | read _ _ _ _ | abort _ _ | skip _ _ _ | addSources _ | shutdown => exact fits
  | take sends sourceIdx stream events state raw ready queue handled =>
      rcases EngineState.handleAccepted_cases handled with ⟨rfl, -⟩ | ⟨_, -, rfl, -⟩ <;>
        exact fits
  | relay sends connId stream result events state raw ready queue read =>
      cases read with
      | source _ _ _ | sourceEnd _ _ _ | destination _ _ _ _ | trailing _ _ => exact fits
      | destinationEnd _ _ _ _ => exact (Table.length_erase_le _ _).trans fits
  | receive p chance m state raw ready decoded peer =>
      cases peer with
      | ignored _ _ _ | answered _ _ _ | refused _ _ _ | mapped _ _ _ _ _ _ _
      | toSource _ _ _ _ _ _ _ => exact fits
      | created request socketId drawn =>
          exact destinations_le_of_request decoded fits stepped
      | toDestination d socketId table effects _ _ data =>
          cases data with
          | unknown _ => exact fits
          | torn _ _ => exact (Table.length_erase_le _ _).trans fits
          | kept _ found _ => exact (Table.length_restore_le found).trans fits
  | stop => exact Nat.zero_le _

end Engine

/-- In every state the engine reaches, the table of destinations is within its cap and leaves
a socket id free, and a request is answered: as soon as a free number is drawn the step is
there, and without a shutdown it sends one response. -/
theorem requests_answered {codec : Codec π} {sources : List PortForwardSourceRequest}
    {answer : Bool} {log : List EngineEffect} {e : Engine}
    (run : (Engine.system codec sources answer).Reachable log e) :
    e.state.destinations.entries.length ≤ maxDestinationConnections ∧
    (∃ drawn, e.state.destinations.lookup drawn = none) ∧
    ∀ {p request} (chance : Chance), codec.read p = some (.request request) →
      e.running = true → e.shutdown = false → chance.sends.all id = true →
      (∃ drawn ∈ chance.draws, e.state.destinations.lookup drawn = none) →
      ∃ e' effects, e.step codec (.peer p chance) = some (e', effects) ∧
        Answered request e.state e'.state effects := by
  have fits : e.state.destinations.entries.length ≤ maxDestinationConnections := by
    refine run.invariant (P := fun _ e =>
      e.state.destinations.entries.length ≤ maxDestinationConnections) (Nat.zero_le _) ?_
    intro log e act e' effects fits _ stepped
    exact Engine.destinations_le fits stepped
  refine ⟨fits, Table.exists_free _ (fits.trans_lt (by decide)), ?_⟩
  intro p request chance decoded going calm sends free
  obtain ⟨⟨e', effects⟩, stepped⟩ :=
    Option.isSome_iff_exists.1 (Engine.answers decoded going sends free)
  exact ⟨e', effects, stepped, Engine.answered_of_step decoded calm stepped⟩

/-- The first number drawn for the second destination is that of the first one; the second
number opens it. -/
theorem requests_answered_colliding :
    ∃ log e e' effects, (Engine.system .plain [] true).Reachable log e ∧
      e.state.destinations.keys = [1] ∧
      e.step .plain (.peer (.request ⟨some ⟨none, some 80⟩, some 5⟩)
        { calm with draws := [1, 2] }) = some (e', effects) ∧
      Answered ⟨some ⟨none, some 80⟩, some 5⟩ e.state e'.state effects ∧
      e'.state.destinations.keys = [2, 1] ∧
      sentOf effects = [.response { clientfd := some 5, socketid := some 2 }] := by
  obtain ⟨log, e, run, going, quiet, taken, free, opened⟩ : ∃ log e,
      (Engine.system .plain [] true).Reachable log e ∧ e.running = true ∧ e.shutdown = false ∧
        e.state.destinations.keys = [1] ∧ e.state.destinations.lookup 2 = none ∧
        ∀ e' effects, e.step .plain (.peer (.request ⟨some ⟨none, some 80⟩, some 5⟩)
            { calm with draws := [1, 2] }) = some (e', effects) →
          e'.state.destinations.keys = [2, 1] ∧
            sentOf effects = [.response { clientfd := some 5, socketid := some 2 }] := by
    refine ⟨_, _, .execute .start
      [.peer (.request ⟨some ⟨none, some 22⟩, some 4⟩) calm] rfl, rfl, rfl, rfl, rfl, ?_⟩
    rintro _ _ ⟨rfl⟩
    exact ⟨rfl, rfl⟩
  obtain ⟨e', effects, stepped, answered⟩ := (requests_answered run).2.2
    { calm with draws := [1, 2] } rfl going quiet rfl ⟨2, by simp, free⟩
  exact ⟨log, e, e', effects, run, taken, stepped, answered, opened e' effects stepped⟩

end Forward

end Et
