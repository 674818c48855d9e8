import EtClient.Forward.Receiving

/-!
# What was exchanged about connections

Every connection that was opened was asked for. A source connection was pending, and the
peer's response gave it its socket id. A destination was requested, and the response to
the request is the only message that gives its socket id away. So the responses an engine
sends name its destinations in order, and no data frame of a destination is sent before
the response that names it.
-/

namespace Et

namespace Forward

open Pipe

variable {π : Type}

/-- The socket ids that responses assign. -/
def socketsOf (messages : List Message) : List UInt32 :=
  messages.filterMap fun
    | .response response => response.socketid.map Int32.toUInt32
    | _ => none

/-- The destinations that were created. -/
def createdOf (log : List EngineEffect) : List UInt32 :=
  log.filterMap fun
    | .opened _ _ socketId false => some socketId
    | _ => none

/-- The socket ids of the source connections that were opened. -/
def assignedOf (log : List EngineEffect) : List UInt32 :=
  log.filterMap fun
    | .opened _ _ socketId true => some socketId
    | _ => none

theorem sentOf_append (log effects : List EngineEffect) :
    sentOf (log ++ effects) = sentOf log ++ sentOf effects :=
  List.filterMap_append

theorem createdOf_append (log effects : List EngineEffect) :
    createdOf (log ++ effects) = createdOf log ++ createdOf effects :=
  List.filterMap_append

theorem assignedOf_append (log effects : List EngineEffect) :
    assignedOf (log ++ effects) = assignedOf log ++ assignedOf effects :=
  List.filterMap_append

theorem socketsOf_append (messages more : List Message) :
    socketsOf (messages ++ more) = socketsOf messages ++ socketsOf more :=
  List.filterMap_append

theorem mem_socketsOf {messages : List Message} {socketId : UInt32} :
    socketId ∈ socketsOf messages ↔ ∃ response, .response response ∈ messages ∧
      response.socketid.map Int32.toUInt32 = some socketId := by
  rw [socketsOf, List.mem_filterMap]
  constructor
  · rintro ⟨m, there, named⟩
    rcases m with _ | response | _
    · cases named
    · exact ⟨response, there, named⟩
    · cases named
  · rintro ⟨response, there, named⟩
    exact ⟨_, there, named⟩

theorem mem_assignedOf {log : List EngineEffect} {stream : StreamId} {connId socketId : UInt32}
    (opened : .opened stream connId socketId true ∈ log) : socketId ∈ assignedOf log :=
  List.mem_filterMap.2 ⟨_, opened, rfl⟩

theorem mem_createdOf {log : List EngineEffect} {socketId : UInt32} :
    socketId ∈ createdOf log ↔ ∃ stream connId, .opened stream connId socketId false ∈ log := by
  rw [createdOf, List.mem_filterMap]
  constructor
  · rintro ⟨effect, there, named⟩
    split at named
    · exact ⟨_, _, Option.some.inj named ▸ there⟩
    · cases named
  · rintro ⟨stream, connId, there⟩
    exact ⟨_, there, rfl⟩

namespace Engine

variable {codec : Codec π} {e e' : Engine} {act : EngineAct π} {effects : List EngineEffect}

/-- An engine sends requests for its sources, responses to requests, and data. -/
theorem Moves.sent_cases (moves : e.Moves codec act e' effects) {origin : Option StreamId}
    {m : Message} (sent : .sent origin m ∈ effects) :
    (∃ request, m = .request request ∧ e.state.sources ≠ []) ∨
      (∃ response request, m = .response response ∧ .received (.request request) ∈ effects) ∨
      ∃ d, m = .data d := by
  cases moves.emits sent with
  | asked _ request some => exact .inl ⟨request, rfl, some⟩
  | relayed _ _ _ _ _ _ _ _ read raws =>
      obtain ⟨d, same⟩ | ⟨_, same⟩ | ⟨_, same⟩ := read.effect_cases _ raws <;> cases same
      exact .inr (.inr ⟨d, rfl⟩)
  | handled p chance m' state raw decoded peer raws =>
      cases peer with
      | answered request response _ =>
          cases List.mem_singleton.1 raws
          exact .inr (.inl ⟨response, request, rfl, List.mem_cons_self⟩)
      | created request socketId _ =>
          rcases List.mem_cons.1 raws with opened | answered
          · cases opened
          · cases List.mem_singleton.1 answered
            exact .inr (.inl ⟨_, request, rfl, List.mem_cons_self⟩)
      | ignored _ _ _ | refused _ _ _ => cases raws
      | mapped _ _ _ _ _ _ _ => simp at raws
      | toDestination _ _ _ _ _ _ data | toSource _ _ _ _ _ _ data =>
          obtain ⟨_, same | ⟨_, same⟩⟩ := data.effect_cases _ raws <;> cases same

private theorem created_nil (shrinks : e.Shrinks e' effects) : createdOf effects = [] := by
  rw [createdOf, List.filterMap_eq_nil_iff]
  intro effect there
  split
  · exact absurd there (shrinks.unopened _ _ _ _)
  · rfl

/-- A response that names no new destination names none. -/
private theorem unassigned_of_shrinks (moves : e.Moves codec act e' effects)
    (shrinks : e.Shrinks e' effects) {origin : Option StreamId}
    {response : PortForwardDestinationResponse} {request : PortForwardDestinationRequest}
    (sent : .sent origin (.response response) ∈ effects)
    (received : .received (.request request) ∈ effects) : response.socketid = none := by
  obtain ⟨p, chance, raw, -, -, -, peer, rfl⟩ := moves.of_received received
  rcases List.mem_cons.1 sent with same | handled
  · cases same
  · have raws := (sendOrShutdown_sublist _ _).subset handled
    generalize e'.state = state at peer
    cases peer with
    | ignored _ other _ => exact absurd rfl (other request)
    | answered _ _ unassigned =>
        cases List.mem_singleton.1 raws
        exact unassigned
    | created _ socketId _ =>
        refine absurd (List.mem_cons_of_mem _ ?_)
          (shrinks.unopened e.streams socketId socketId false)
        exact opened_mem_sendOrShutdown.2 List.mem_cons_self

/-- The responses of a step name the destination it creates. -/
theorem Moves.sockets_eq (moves : e.Moves codec act e' effects) (up : e.shutdown = false) :
    socketsOf (sentOf effects) = createdOf effects := by
  rcases moves.opens_or_shrinks with opens | shrinks
  · cases opens with
    | destination p chance request socketId decoded drawn =>
        obtain ⟨_, _, _, same, ready, -⟩ := moves.of_received List.mem_cons_self
        cases same
        rw [ready_sends up ready]
        simp [sentOf, socketsOf, createdOf]
    | source p chance response connId socketId conn decoded fd assigned waits =>
        obtain ⟨_, _, _, same, ready, -⟩ := moves.of_received List.mem_cons_self
        cases same
        rw [ready_sends up ready]
        cases e.state.sourceSockets.lookup socketId <;> rfl
  · rw [created_nil shrinks, socketsOf, List.filterMap_eq_nil_iff]
    intro m there
    obtain ⟨origin, sent⟩ := mem_sentOf.1 there
    rcases moves.sent_cases sent with ⟨_, rfl, -⟩ | ⟨response, request, rfl, received⟩ | ⟨_, rfl⟩
    · rfl
    · exact Option.map_eq_none_iff.2 (unassigned_of_shrinks moves shrinks sent received)
    · rfl

/-- Where a pending connection comes from. -/
theorem Moves.pending_cases (moves : e.Moves codec act e' effects) {connId : UInt32}
    {stream : StreamId} (waits : e'.state.pending.lookup connId = some stream) :
    e.state.pending.lookup connId = some stream ∨
      connId = e.state.nextConnId ∧ e.assigns = true ∧ ∃ sends, act = .event sends := by
  cases moves with
  | take sends sourceIdx stream events state raw ready queue handled =>
      rcases EngineState.handleAccepted_cases handled with ⟨rfl, -⟩ | ⟨_, found, rfl, -⟩
      · exact .inl waits
      · rcases Table.lookup_insert_cases waits with ⟨rfl, -⟩ | ⟨-, old⟩
        · exact .inr ⟨rfl, assigns_of_accepted queue found, sends, rfl⟩
        · exact .inl old
  | relay _ _ _ _ _ _ _ _ _ read => cases read <;> exact .inl waits
  | receive _ _ _ _ _ _ _ peer =>
      cases peer with
      | refused _ _ _ | mapped _ _ _ _ _ _ _ => exact .inl (Table.lookup_of_erase waits)
      | ignored _ _ _ | answered _ _ _ | created _ _ _ | toDestination _ _ _ _ _ _ _
      | toSource _ _ _ _ _ _ _ => exact .inl waits
  | accept _ | read _ _ _ _ | abort _ _ | skip _ _ _ | addSources _ | shutdown =>
      exact .inl waits
  | stop => cases waits

/-- A destination is opened on a request. -/
theorem Moves.opened_destination (moves : e.Moves codec act e' effects) {stream : StreamId}
    {connId socketId : UInt32} (new : .opened stream connId socketId false ∈ effects) :
    connId = socketId ∧ ∃ request, .request request ∈ receivedOf effects := by
  rcases moves.opens_or_shrinks with opens | shrinks
  · cases opens with
    | destination p chance request drawn decoded found =>
        obtain ⟨-, rfl, rfl, -⟩ := (mem_opened Opens.silent_destination).1 new
        exact ⟨rfl, request, mem_receivedOf.2 List.mem_cons_self⟩
    | source p chance response key assigned conn decoded fd named waits =>
        obtain ⟨-, -, -, same⟩ := (mem_opened Opens.silent_source).1 new
        cases same
  · exact absurd new (shrinks.unopened _ _ _ _)

/-- Nothing is read under the id of a connection that waits for its socket id. -/
def WaitsApart (e : Engine) : Prop :=
  ∀ connId stream, e.state.pending.lookup connId = some stream →
    ∀ name ∈ e.names, name.1 ≠ connId

/-- A connection that is taken up gets an id under which nothing is read. -/
def Unused (e : Engine) : EngineAct π → Prop
  | .event _ => e.assigns = true → ∀ name ∈ e.names, name.1 ≠ e.state.nextConnId
  | _ => True

instance (e : Engine) (act : EngineAct π) : Decidable (e.Unused act) :=
  match act with
  | .event _ => inferInstanceAs (Decidable (_ → _))
  | .accept _ | .read _ _ _ | .abort _ _ | .peer _ _ | .addSources _ | .shutdown | .stop =>
      isTrue trivial

/-- Without requests of the peer, ids are shared only if an accepted connection gets a used one. -/
theorem WaitsApart.step (apart : e.WaitsApart) (unused : e.Unused act)
    (moves : e.Moves codec act e' effects)
    (unasked : ∀ request, .received (.request request) ∉ effects) : e'.WaitsApart := by
  intro connId stream waits name named
  rcases moves.opens_or_shrinks with opens | shrinks
  · cases opens with
    | destination p chance request socketId decoded drawn =>
        exact absurd List.mem_cons_self (unasked request)
    | source p chance response key socketId conn decoded fd assigned pending =>
        rcases names_opened named with there | rfl
        · exact apart connId stream (Table.lookup_of_erase waits) name there
        · rintro rfl
          rw [AList.lookup_erase] at waits
          cases waits
  · have there := shrinks.names name named
    rcases moves.pending_cases waits with old | ⟨rfl, assigns, sends, rfl⟩
    · exact apart connId stream old name there
    · exact unused assigns name there

theorem Moves.mapped (moves : e.Moves codec act e' effects) {connId socketId : UInt32}
    (found : e'.state.sourceConnIds.lookup connId = some socketId) :
    e.state.sourceConnIds.lookup connId = some socketId ∨
      ∃ stream, .opened stream connId socketId true ∈ effects := by
  rcases moves.opens_or_shrinks with opens | shrinks
  · cases opens with
    | destination p chance request drawn decoded found' => exact .inl found
    | source p chance response key assigned conn decoded fd named waits =>
        rcases Table.lookup_insert_cases found with ⟨rfl, rfl⟩ | ⟨-, old⟩
        · exact .inr ⟨conn, (mem_opened Opens.silent_source).2 ⟨rfl, rfl, rfl, rfl⟩⟩
        · exact .inl old
  · exact .inl (shrinks.tables.sourceConnIds found)

/-- Sources are added by their own step only. -/
theorem Moves.sources_cases (moves : e.Moves codec act e' effects) :
    e'.state.sources = e.state.sources ∨
      ∃ more, act = .addSources more ∧ e'.state.sources = e.state.sources ++ more := by
  cases moves with
  | take sends sourceIdx stream events state raw ready queue handled =>
      rcases EngineState.handleAccepted_cases handled with ⟨rfl, -⟩ | ⟨_, -, rfl, -⟩ <;>
        exact .inl rfl
  | relay _ _ _ _ _ _ _ _ _ read => cases read <;> exact .inl rfl
  | receive _ _ _ _ _ _ _ peer => cases peer <;> exact .inl rfl
  | addSources sources => exact .inr ⟨sources, rfl, rfl⟩
  | accept _ | read _ _ _ _ | abort _ _ | skip _ _ _ | shutdown | stop => exact .inl rfl

/-- A step creates at most one destination, under the id it draws. -/
theorem Moves.created_cases (moves : e.Moves codec act e' effects) (up : e.shutdown = false) :
    createdOf effects = [] ∨ ∃ p chance socketId, act = .peer p chance ∧
      chance.draws.find? (fun drawn => (e.state.destinations.lookup drawn).isNone) =
        some socketId ∧ createdOf effects = [socketId] := by
  rcases moves.opens_or_shrinks with opens | shrinks
  · cases opens with
    | destination p chance request socketId decoded drawn =>
        obtain ⟨_, _, _, same, ready, -⟩ := moves.of_received List.mem_cons_self
        cases same
        rw [ready_sends up ready]
        exact .inr ⟨p, chance, socketId, rfl, drawn, rfl⟩
    | source p chance response connId socketId conn decoded fd assigned waits =>
        obtain ⟨_, _, _, same, ready, -⟩ := moves.of_received List.mem_cons_self
        cases same
        rw [ready_sends up ready]
        cases e.state.sourceSockets.lookup socketId <;> exact .inl rfl
  · exact .inl (created_nil shrinks)

private theorem assigned_nil
    (unopened : ∀ stream connId socketId, .opened stream connId socketId true ∉ effects) :
    assignedOf effects = [] := by
  rw [assignedOf, List.filterMap_eq_nil_iff]
  intro effect there
  split
  · exact absurd there (unopened _ _ _)
  · rfl

/-- A step that assigns a socket id has received it. -/
theorem Moves.assigned (moves : e.Moves codec act e' effects) (up : e.shutdown = false) :
    (assignedOf effects).Sublist (socketsOf (receivedOf effects)) := by
  rcases moves.opens_or_shrinks with opens | shrinks
  · cases opens with
    | destination p chance request drawn decoded found =>
        rw [assigned_nil]
        · exact List.nil_sublist _
        · intro stream connId socketId new
          obtain ⟨-, -, -, same⟩ := (mem_opened Opens.silent_destination).1 new
          cases same
    | source p chance response connId socketId conn decoded fd assigned waits =>
        obtain ⟨_, _, _, same, ready, -⟩ := moves.of_received List.mem_cons_self
        cases same
        rw [ready_sends up ready]
        have one : socketsOf (receivedOf [.received (.response response)]) = [socketId] := by
          simp [receivedOf, socketsOf, assigned]
        cases e.state.sourceSockets.lookup socketId <;> exact one ▸ List.Sublist.refl [socketId]
  · rw [assigned_nil fun stream connId socketId => shrinks.unopened stream connId socketId true]
    exact List.nil_sublist _

end Engine

/-- No data frame of a destination comes before the response that names it. -/
def Announced (messages : List Message) : Prop :=
  ∀ before m after socketId, messages = before ++ m :: after → m.Carries socketId false →
    socketId ∈ socketsOf before

theorem Announced.append {messages more : List Message} (announced : Announced messages)
    (named : ∀ m ∈ more, ∀ socketId, m.Carries socketId false → socketId ∈ socketsOf messages) :
    Announced (messages ++ more) := by
  intro before m after socketId split carries
  rcases List.append_eq_append_iff.1 split with ⟨between, rfl, rest⟩ | ⟨between, rfl, rest⟩
  · rw [socketsOf_append]
    refine List.mem_append_left _ (named m ?_ socketId carries)
    rw [rest]
    exact List.mem_append_right _ List.mem_cons_self
  · cases between with
    | nil =>
        rw [List.append_nil, ← rest.trans (List.nil_append _)] at named
        exact named m List.mem_cons_self socketId carries
    | cons next between =>
        obtain ⟨rfl, -⟩ := List.cons.inj rest
        exact announced before m between socketId rfl carries

/-- What an engine has exchanged about the connections in its history. -/
structure Ledger (log : List EngineEffect) (e : Engine) : Prop where
  mapped : ∀ {connId socketId}, e.state.sourceConnIds.lookup connId = some socketId →
    ∃ stream, .opened stream connId socketId true ∈ log
  requested : ∀ {stream connId socketId}, .opened stream connId socketId false ∈ log →
    connId = socketId ∧ ∃ request, .request request ∈ receivedOf log
  assigned : (assignedOf log).Sublist (socketsOf (receivedOf log))
  created : socketsOf (sentOf log) = createdOf log
  asked : ∀ {request}, .request request ∈ sentOf log → e.state.sources ≠ []
  answered : ∀ {response}, .response response ∈ sentOf log →
    ∃ request, .request request ∈ receivedOf log
  order : Announced (sentOf log)

namespace Ledger

variable {codec : Codec π} {log effects : List EngineEffect} {e e' : Engine} {act : EngineAct π}

/-- The frames of a step are about connections that were opened before it. -/
theorem carried (isolated : Isolated log e) (moves : e.Moves codec act e' effects)
    {m : Message} (sent : m ∈ sentOf effects) {socketId : UInt32} {direction : Bool}
    (carries : m.Carries socketId direction) :
    ∃ stream connId, .opened stream connId socketId direction ∈ log := by
  obtain ⟨origin, there⟩ := mem_sentOf.1 sent
  obtain ⟨d, rfl, -, -⟩ := id carries
  cases origin with
  | none => exact absurd there (moves.data_origin d)
  | some cause =>
      obtain ⟨connId, stream, result, named, same | ⟨state, raw, read, raws⟩⟩ :=
        moves.of_cause there rfl
      · cases same
      · obtain ⟨socketId', direction', opened, owns⟩ := isolated.owned _ named
        obtain ⟨-, carries'⟩ := read.about owns _ raws
        obtain ⟨rfl, rfl⟩ := carries.unique carries'
        exact ⟨stream, connId, opened⟩

theorem step (ledger : Ledger log e) (isolated : Isolated log e) (up : e.shutdown = false)
    (moves : e.Moves codec act e' effects) : Ledger (log ++ effects) e' where
  mapped := by
    intro connId socketId found
    rcases moves.mapped found with old | ⟨stream, new⟩
    · obtain ⟨stream, opened⟩ := ledger.mapped old
      exact ⟨stream, List.mem_append_left _ opened⟩
    · exact ⟨stream, List.mem_append_right _ new⟩
  requested := by
    intro stream connId socketId opened
    rw [receivedOf_append]
    rcases List.mem_append.1 opened with old | new
    · obtain ⟨same, request, there⟩ := ledger.requested old
      exact ⟨same, request, List.mem_append_left _ there⟩
    · obtain ⟨same, request, there⟩ := moves.opened_destination new
      exact ⟨same, request, List.mem_append_right _ there⟩
  assigned := by
    rw [assignedOf_append, receivedOf_append, socketsOf_append]
    exact ledger.assigned.append (moves.assigned up)
  created := by
    rw [sentOf_append, socketsOf_append, createdOf_append, ledger.created, moves.sockets_eq up]
  asked := by
    intro request sent
    have before : e.state.sources ≠ [] := by
      rw [sentOf_append] at sent
      rcases List.mem_append.1 sent with old | new
      · exact ledger.asked old
      · obtain ⟨origin, there⟩ := mem_sentOf.1 new
        rcases moves.sent_cases there with ⟨_, -, sources⟩ | ⟨_, _, same, -⟩ | ⟨_, same⟩
        · exact sources
        · cases same
        · cases same
    rcases moves.sources_cases with same | ⟨more, -, grown⟩
    · exact same ▸ before
    · exact grown ▸ List.append_ne_nil_of_left_ne_nil before more
  answered := by
    intro response sent
    rw [sentOf_append] at sent
    rw [receivedOf_append]
    rcases List.mem_append.1 sent with old | new
    · obtain ⟨request, there⟩ := ledger.answered old
      exact ⟨request, List.mem_append_left _ there⟩
    · obtain ⟨origin, there⟩ := mem_sentOf.1 new
      rcases moves.sent_cases there with ⟨_, same, -⟩ | ⟨_, request, -, received⟩ | ⟨_, same⟩
      · cases same
      · exact ⟨request, List.mem_append_right _ (mem_receivedOf.2 received)⟩
      · cases same
  order := by
    rw [sentOf_append]
    refine ledger.order.append fun m sent socketId carries => ?_
    obtain ⟨stream, connId, opened⟩ := carried isolated moves sent carries
    exact ledger.created ▸ mem_createdOf.2 ⟨stream, connId, opened⟩

end Ledger

end Forward

end Et
