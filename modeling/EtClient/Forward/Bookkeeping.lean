import EtClient.Forward.Receiving
import EtClient.Lib.Index

/-!
# The tables of the source tunnels

The engine keeps a source tunnel in two tables: the socket id of a connection id, and the
connection of a socket id. Accepting a connection, mapping it and handling its end keep the
two in step. A frame of the peer that closes a tunnel, a local write that fails and a
response that reuses a socket id change one table alone: the connection id stays behind, or
two of them share a socket id.

As long as none of these happens to a source tunnel, and no accepted connection gets a connection
id that is still mapped, which the wrapping counter may come back to, the tables describe one
relation in every state that the engine reaches.
-/

namespace Et

namespace Forward

variable {π : Type}

/-- The tables of the source tunnels describe one relation: every connection id has a socket
id of its own, the socket ids of the two tables are the same, the connection of a socket id
is the one that was opened for its connection id, and no connection id waits as well. -/
structure EngineState.Booked (log : List EngineEffect) (s : EngineState) : Prop where
  paired : Index.Paired s.sourceConnIds s.sourceSockets
  spawned : ∀ {connId socketId conn}, s.sourceConnIds.lookup connId = some socketId →
    s.sourceSockets.lookup socketId = some conn → .opened conn connId socketId true ∈ log
  apart : ∀ {connId socketId}, s.sourceConnIds.lookup connId = some socketId →
    s.pending.lookup connId = none

/-- The message ends no source tunnel and gives none a socket id that is in use. -/
def EngineState.Keeps (s : EngineState) (chance : Chance) : Message → Prop
  | .request _ => True
  | .response response =>
      ∀ connId ∈ response.clientfd.map Int32.toUInt32,
        ∀ socketId ∈ response.socketid.map Int32.toUInt32,
          (s.pending.lookup connId).isSome = true → s.sourceSockets.lookup socketId = none
  | .data d =>
      d.sourcetodestination.getD false = false →
        ∀ socketId ∈ d.socketid.map Int32.toUInt32,
          (s.sourceSockets.lookup socketId).isSome = true →
            (d.closed.getD false || d.error.isSome) = false ∧
              (d.buffer.isSome = true → chance.written = true)

/-- The messages of the peer are restricted, and a connection that is taken up gets a connection id
that is not mapped. -/
def Engine.KeepsTunnels (codec : Codec π) (e : Engine) : EngineAct π → Prop
  | .peer p chance => ∀ m ∈ codec.read p, e.state.Keeps chance m
  | .event _ => e.assigns = true → e.state.sourceConnIds.lookup e.state.nextConnId = none
  | _ => True

instance (s : EngineState) (chance : Chance) (m : Message) : Decidable (s.Keeps chance m) :=
  match m with
  | .request _ => isTrue trivial
  | .response _ => @Option.decidableForallMem _ _ (fun _ => Option.decidableForallMem _) _
  | .data _ => @instDecidableForall _ _ inferInstance (Option.decidableForallMem _)

instance (codec : Codec π) (e : Engine) (act : EngineAct π) :
    Decidable (e.KeepsTunnels codec act) :=
  match act with
  | .peer p _ => Option.decidableForallMem (codec.read p)
  | .event _ => inferInstanceAs (Decidable (_ → _))
  | .accept _ | .read _ _ _ | .abort _ _ | .addSources _ | .shutdown | .stop => isTrue trivial

namespace EngineState.Booked

variable {codec : Codec π} {log effects : List EngineEffect} {s s' : EngineState}

theorem start (sources : List PortForwardSourceRequest) : (new sources).Booked [] := by
  refine ⟨.empty, ?_, ?_⟩
  · rintro _ _ _ ⟨⟩
  · rintro _ _ ⟨⟩

/-- The tables hold the same as before. -/
theorem of_same (booked : s.Booked log)
    (connIds : s'.sourceConnIds = s.sourceConnIds)
    (sockets : ∀ id, s'.sourceSockets.lookup id = s.sourceSockets.lookup id)
    (pending : ∀ {connId stream}, s'.pending.lookup connId = some stream →
      s.pending.lookup connId = some stream) : s'.Booked (log ++ effects) := by
  refine ⟨?_, ?_, ?_⟩
  · rw [connIds]
    exact booked.paired.congr sockets
  · intro connId socketId conn found holds
    rw [connIds] at found
    rw [sockets] at holds
    exact List.mem_append_left _ (booked.spawned found holds)
  · intro connId socketId found
    rw [connIds] at found
    cases waits : s'.pending.lookup connId with
    | none => rfl
    | some stream =>
        have before := pending waits
        rw [booked.apart found] at before
        cases before

/-- An accepted connection waits under a connection id that is not mapped. -/
theorem of_accepted (booked : s.Booked log) (stream : StreamId)
    (unmapped : s.sourceConnIds.lookup s.nextConnId = none) :
    { s with
      nextConnId := s.nextConnId + 1
      pending := s.pending.insert s.nextConnId stream : EngineState }.Booked (log ++ effects) := by
  refine ⟨booked.paired, ?_, ?_⟩
  · intro connId socketId conn found holds
    exact List.mem_append_left _ (booked.spawned found holds)
  · intro connId socketId found
    have new : connId ≠ s.nextConnId := by
      rintro rfl
      cases unmapped.symm.trans found
    rw [AList.lookup_insert_ne new]
    exact booked.apart found

/-- A connection that waited is mapped to a socket id that was not in use. -/
theorem of_mapped (booked : s.Booked log) {connId socketId : UInt32} {conn : StreamId}
    (waits : s.pending.lookup connId = some conn)
    (unused : s.sourceSockets.lookup socketId = none)
    (opened : .opened conn connId socketId true ∈ effects) :
    { s with
      pending := s.pending.erase connId
      sourceSockets := s.sourceSockets.insert socketId conn
      sourceConnIds := s.sourceConnIds.insert connId socketId : EngineState }.Booked
        (log ++ effects) := by
  have unmapped : s.sourceConnIds.lookup connId = none := by
    cases found : s.sourceConnIds.lookup connId with
    | none => rfl
    | some other =>
        rw [booked.apart found] at waits
        cases waits
  have paired := booked.paired.insert unmapped unused conn
  refine ⟨paired, ?_, ?_⟩
  · intro key id other found holds
    rcases Table.lookup_insert_cases found with ⟨rfl, rfl⟩ | ⟨different, old⟩
    · rw [AList.lookup_insert] at holds
      rw [← Option.some.inj holds]
      exact List.mem_append_right _ opened
    · have elsewhere : id ≠ socketId := by
        rintro rfl
        exact different (paired.injective (AList.lookup_insert _) found)
      rw [AList.lookup_insert_ne elsewhere] at holds
      exact List.mem_append_left _ (booked.spawned old holds)
  · intro key id found
    rcases Table.lookup_insert_cases found with ⟨rfl, -⟩ | ⟨different, old⟩
    · exact AList.lookup_erase _ _
    · exact (AList.lookup_erase_ne different).trans (booked.apart old)

/-- The end of a source connection leaves both tables. -/
theorem of_end (booked : s.Booked log) {connId socketId : UInt32}
    (mapped : s.sourceConnIds.lookup connId = some socketId) :
    { s with
      sourceSockets := s.sourceSockets.erase socketId
      sourceConnIds := s.sourceConnIds.erase connId : EngineState }.Booked (log ++ effects) := by
  refine ⟨booked.paired.erase mapped, ?_, ?_⟩
  · intro key id conn found holds
    exact List.mem_append_left _
      (booked.spawned (Table.lookup_of_erase found) (Table.lookup_of_erase holds))
  · intro key id found
    exact booked.apart (Table.lookup_of_erase found)

theorem step {e e' : Engine} {act : EngineAct π} (booked : e.state.Booked log)
    (keeps : e.KeepsTunnels codec act) (stepped : e.step codec act = some (e', effects)) :
    e'.state.Booked (log ++ effects) := by
  cases Engine.step_moves stepped with
  | accept _ | read _ _ _ _ | abort _ _ | skip _ _ _ | addSources _ | shutdown =>
      exact booked.of_same rfl (fun _ => rfl) id
  | take sends sourceIdx stream events state raw ready queue handled =>
      rcases EngineState.handleAccepted_cases handled with ⟨rfl, -⟩ | ⟨_, found, rfl, -⟩
      · exact booked.of_same rfl (fun _ => rfl) id
      · exact booked.of_accepted stream (keeps (Engine.assigns_of_accepted queue found))
  | relay sends connId stream result events state raw ready queue read =>
      cases read with
      | source _ _ _ | destination _ _ _ _ | destinationEnd _ _ _ _ | trailing _ _ =>
          exact booked.of_same rfl (fun _ => rfl) id
      | sourceEnd socketId mapped _ => exact booked.of_end mapped
  | receive p chance m state raw ready decoded peer =>
      cases peer with
      | ignored _ _ _ | answered _ _ _ | created _ _ _ | toDestination _ _ _ _ _ _ _ =>
          exact booked.of_same rfl (fun _ => rfl) id
      | refused response connId _ => exact booked.of_same rfl (fun _ => rfl) Table.lookup_of_erase
      | mapped response connId socketId conn fd assigned waits =>
          have unused := keeps _ decoded connId fd socketId assigned (waits ▸ rfl)
          refine booked.of_mapped waits unused ?_
          exact (Engine.mem_opened Engine.Opens.silent_source).2 ⟨rfl, rfl, rfl, rfl⟩
      | toSource d socketId table effects named back data =>
          have same := lookup_receiveData (keeps _ decoded back socketId named)
          have table := Engine.table_of_data decoded named stepped
          rw [back] at table
          exact booked.of_same rfl (fun key => (congrArg _ table).trans (same key)) id
  | stop =>
      refine ⟨.empty, ?_, ?_⟩
      · rintro _ _ _ ⟨⟩
      · rintro _ _ ⟨⟩

end EngineState.Booked

/-- In every run whose messages end no source tunnel and reuse no socket id, and whose accepted
connections get connection ids that are not mapped, the tables of the source tunnels describe one
relation. -/
theorem source_tables_agree {codec : Codec π} {sources : List PortForwardSourceRequest}
    {answer : Bool} {log : List EngineEffect} {e : Engine}
    (run : (Engine.system codec sources answer).Reaches (fun _ e => e.KeepsTunnels codec) log e) :
    e.state.Booked log := by
  refine run.invariant (P := fun log e => e.state.Booked log) (.start sources) ?_
  intro log e act e' effects booked keeps stepped
  exact booked.step keeps stepped

/-- Two connections are mapped, one of them gets data and the other one ends. -/
theorem source_tables_agree_two_tunnels :
    ∃ log e,
      (Engine.system .plain oneSource true).Reaches (fun _ e => e.KeepsTunnels .plain) log e ∧
      e.state.sourceConnIds.lookup 1 = none ∧ e.state.sourceConnIds.lookup 2 = some 8 ∧
      .enqueued 1 [42] ∈ log ∧ e.state.Booked log := by
  obtain ⟨log, e, run, holds⟩ : ∃ log e,
      (Engine.system .plain oneSource true).Reaches (fun _ e => e.KeepsTunnels .plain) log e ∧
        e.state.sourceConnIds.lookup 1 = none ∧ e.state.sourceConnIds.lookup 2 = some 8 ∧
        .enqueued 1 [42] ∈ log :=
    ⟨_, _, .execute .start
      [.accept 0, .accept 0, .event [], .event [],
        .peer (.response { clientfd := some 1, socketid := some 7 }) calm,
        .peer (.response { clientfd := some 2, socketid := some 8 }) calm,
        .peer (dataPacket 8 false [42]) calm, .read 1 0 (.ok []), .event []] rfl, by decide⟩
  exact ⟨log, e, run, holds.1, holds.2.1, holds.2.2, source_tables_agree run⟩

/-- A frame of the peer that closes a tunnel leaves its connection id mapped, and a response
that reuses a socket id leaves two connection ids with it. -/
theorem source_tables_disagree :
    (∃ log e, (Engine.system .plain oneSource true).Reachable log e ∧
      e.state.sourceConnIds.lookup 1 = some 7 ∧ e.state.sourceSockets.lookup 7 = none) ∧
    ∃ log e, (Engine.system .plain oneSource true).Reachable log e ∧
      e.state.sourceConnIds.lookup 1 = some 7 ∧ e.state.sourceConnIds.lookup 2 = some 7 :=
  ⟨⟨_, _, .execute .start
      [.accept 0, .event [],
        .peer (.response { clientfd := some 1, socketid := some 7 }) calm,
        .peer (closedPacket 7 false) calm] rfl, by decide⟩,
    ⟨_, _, .execute .start
      [.accept 0, .accept 0, .event [], .event [],
        .peer (.response { clientfd := some 1, socketid := some 7 }) calm,
        .peer (.response { clientfd := some 2, socketid := some 7 }) calm] rfl, by decide⟩⟩

end Forward

end Et
