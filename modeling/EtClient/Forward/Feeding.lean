import EtClient.Forward.Tasks

/-!
# The bytes of the peer reach the local connection

A data frame passes the table of its direction, the bounded queue of its connection and the
write task. How the peer has cut its stream into frames should make no difference to what
the connection gets.

It does make one: a buffer without bytes is how a write task is told to end. So the frames
for a tunnel have to carry bytes, or no buffer at all. Then, as long as the tunnel is not
ended in another way, the write task has written, or still holds, the buffers in their
order, and the tunnel stays in its table. Steps of the other connections, of the read tasks
and of the accept tasks may come in between.
-/

namespace Et

namespace Forward

variable {π : Type}

/-- The buffer of a data frame for a tunnel. -/
def Message.bufferFor? (socketId : UInt32) (direction : Bool) : Message → Option Bytes
  | .data d =>
      if d.socketid.map Int32.toUInt32 = some socketId ∧
          d.sourcetodestination.getD false = !direction
      then d.buffer else none
  | _ => none

def buffersFor (socketId : UInt32) (direction : Bool) (log : List EngineEffect) : List Bytes :=
  (receivedOf log).filterMap (Message.bufferFor? socketId direction)

theorem buffersFor_append (socketId : UInt32) (direction : Bool)
    (log effects : List EngineEffect) :
    buffersFor socketId direction (log ++ effects) =
      buffersFor socketId direction log ++ buffersFor socketId direction effects := by
  rw [buffersFor, receivedOf_append, List.filterMap_append]
  rfl

/-- A read under the connection id is taken to be about the tunnel. -/
def EngineState.Leads (s : EngineState) (connId socketId : UInt32) : Bool → Prop
  | true => s.sourceConnIds.lookup connId = some socketId
  | false => s.sourceConnIds.lookup connId = none ∧ connId = socketId

/-- The end of a read that takes a tunnel out of its table. -/
def Event.Ends (s : EngineState) (socketId : UInt32) (direction : Bool) : Event → Prop
  | .read connId _ result => isEnd result = true ∧ s.Leads connId socketId direction
  | .accepted _ _ => False

/-- A message that ends the tunnel neither by a flag nor by another connection that takes
its place. -/
def EngineState.Spares (s : EngineState) (socketId : UInt32) (direction : Bool) : Message → Prop
  | .request _ => True
  | .response response =>
      direction = true → response.socketid.map Int32.toUInt32 = some socketId →
        ∀ connId ∈ response.clientfd.map Int32.toUInt32, s.pending.lookup connId = none
  | .data d =>
      d.socketid.map Int32.toUInt32 = some socketId →
        d.sourcetodestination.getD false = !direction →
          (d.closed.getD false || d.error.isSome) = false

/-- An action of the engine that does not end the tunnel. -/
def Engine.Spares (codec : Codec π) (socketId : UInt32) (direction : Bool) (e : Engine) :
    EngineAct π → Prop
  | .event _ => ∀ event ∈ e.events.head?, ¬event.Ends e.state socketId direction
  | .peer p _ => ∀ m ∈ codec.read p, e.state.Spares socketId direction m
  | .shutdown | .stop => False
  | _ => True

/-- An action that does not end the tunnel, and no failure of its connection. -/
def Tasks.Spares (codec : Codec π) (stream : StreamId) (socketId : UInt32) (direction : Bool)
    (t : Tasks) : TasksAct π → Prop
  | .engine act => t.engine.Spares codec socketId direction act
  | .writer other .fail => other ≠ stream
  | .writer _ _ => True

/-- The buffers of the frames for a tunnel are not empty. -/
def TasksAct.Filled (codec : Codec π) (socketId : UInt32) (direction : Bool) :
    TasksAct π → Prop
  | .engine act =>
      ∀ m ∈ act.message? codec, m.bufferFor? socketId direction ≠ some []
  | .writer _ _ => True

instance (s : EngineState) (connId socketId : UInt32) (direction : Bool) :
    Decidable (s.Leads connId socketId direction) :=
  match direction with
  | true => inferInstanceAs (Decidable (_ = _))
  | false => inferInstanceAs (Decidable (_ = _ ∧ _ = _))

instance (s : EngineState) (socketId : UInt32) (direction : Bool) (event : Event) :
    Decidable (event.Ends s socketId direction) :=
  match event with
  | .read connId _ result =>
      inferInstanceAs (Decidable (isEnd result = true ∧ s.Leads connId socketId direction))
  | .accepted _ _ => isFalse id

instance (s : EngineState) (socketId : UInt32) (direction : Bool) (m : Message) :
    Decidable (s.Spares socketId direction m) :=
  match m with
  | .request _ => isTrue trivial
  | .response _ => @instDecidableForall _ _ inferInstance
      (@instDecidableForall _ _ inferInstance (Option.decidableForallMem _))
  | .data _ => @instDecidableForall _ _ inferInstance
      (@instDecidableForall _ _ inferInstance inferInstance)

instance (codec : Codec π) (socketId : UInt32) (direction : Bool) (e : Engine)
    (act : EngineAct π) : Decidable (e.Spares codec socketId direction act) :=
  match act with
  | .event _ => Option.decidableForallMem e.events.head?
  | .peer p _ => Option.decidableForallMem (codec.read p)
  | .shutdown | .stop => isFalse id
  | .accept _ | .read _ _ _ | .abort _ _ | .addSources _ => isTrue trivial

instance (codec : Codec π) (stream : StreamId) (socketId : UInt32) (direction : Bool)
    (t : Tasks) (act : TasksAct π) : Decidable (t.Spares codec stream socketId direction act) :=
  match act with
  | .engine act => inferInstanceAs (Decidable (t.engine.Spares codec socketId direction act))
  | .writer other .fail => inferInstanceAs (Decidable (other ≠ stream))
  | .writer _ .recv | .writer _ (.write _) => isTrue trivial

instance (codec : Codec π) (socketId : UInt32) (direction : Bool) (act : TasksAct π) :
    Decidable (act.Filled codec socketId direction) :=
  match act with
  | .engine act => Option.decidableForallMem (act.message? codec)
  | .writer _ _ => isTrue trivial

theorem DataStep.lookup_ne {table table' : Table StreamId} {socketId : UInt32} {closed : Bool}
    {buffer : Option Bytes} {effects : List EngineEffect}
    (step : DataStep table socketId closed buffer table' effects) {key : UInt32}
    (different : key ≠ socketId) : table'.lookup key = table.lookup key := by
  cases step with
  | unknown _ => rfl
  | torn _ _ => exact AList.lookup_erase_ne different
  | kept _ found _ => exact Table.lookup_restore found

theorem ReadStep.tracked {s s' : EngineState} {connId : UInt32} {origin : StreamId}
    {result : ReadResult} {effects : List EngineEffect}
    (read : ReadStep s connId origin result s' effects) {socketId : UInt32} {direction : Bool}
    (spares : ¬(Event.read connId origin result).Ends s socketId direction) :
    (s'.table direction).lookup socketId = (s.table direction).lookup socketId := by
  cases read with
  | source _ _ _ | destination _ _ _ _ | trailing _ _ => rfl
  | sourceEnd other found ended =>
      cases direction with
      | false => rfl
      | true =>
          refine AList.lookup_erase_ne fun same => spares ⟨ended, ?_⟩
          rw [same]
          exact found
  | destinationEnd conn unmapped found ended =>
      cases direction with
      | true => rfl
      | false => exact AList.lookup_erase_ne fun same => spares ⟨ended, unmapped, same.symm⟩

namespace Engine

variable {codec : Codec π} {e e' : Engine} {act : EngineAct π} {effects : List EngineEffect}
  {direction : Bool} {socketId : UInt32} {stream : StreamId}

/-- A data frame for the tunnel whose bytes are taken leaves its entry. -/
theorem tracked_of_data {p : π} {chance : Chance} {d : PortForwardData}
    (decoded : codec.read p = some (.data d))
    (stepped : e.step codec (.peer p chance) = some (e', effects))
    (spares : e.state.Spares socketId direction (.data d))
    (taken : ((Message.data d).bufferFor? socketId direction).isSome = true →
      chance.written = true) :
    (e'.state.table direction).lookup socketId = (e.state.table direction).lookup socketId := by
  by_cases named : d.socketid.map Int32.toUInt32 = some socketId ∧
      d.sourcetodestination.getD false = !direction
  · have after := table_of_data decoded named.1 stepped
    rw [named.2, Bool.not_not] at after
    rw [after]
    refine lookup_receiveData (fun _ => ⟨spares named.1 named.2, fun filled => taken ?_⟩) socketId
    rw [Message.bufferFor?, if_pos named]
    exact filled
  · obtain ⟨-, raw, handled, -⟩ := handled_of_step decoded stepped
    generalize e'.state = state at handled ⊢
    cases EngineState.handlePeer_step handled with
    | ignored _ _ _ => rfl
    | toDestination _ other table _ other_named towards data =>
        cases direction with
        | true => rfl
        | false =>
            refine data.lookup_ne fun same => named ⟨?_, towards⟩
            rw [same]
            exact other_named
    | toSource _ other table _ other_named back data =>
        cases direction with
        | false => rfl
        | true =>
            refine data.lookup_ne fun same => named ⟨?_, back⟩
            rw [same]
            exact other_named

/-- A tunnel that is spared keeps its entry. -/
theorem tracked_of_step (stepped : e.step codec act = some (e', effects))
    (spares : e.Spares codec socketId direction act)
    (taken : ∀ {p chance m}, act = .peer p chance → codec.read p = some m →
      (m.bufferFor? socketId direction).isSome = true → chance.written = true)
    (tracked : (e.state.table direction).lookup socketId = some stream) :
    (e'.state.table direction).lookup socketId = some stream := by
  rw [← tracked]
  cases step_moves stepped with
  | accept _ | read _ _ _ _ | abort _ _ | skip _ _ _ | addSources _ => cases direction <;> rfl
  | shutdown | stop => cases spares
  | take sends sourceIdx accepted events state raw ready queue handled =>
      rcases EngineState.handleAccepted_cases handled with ⟨rfl, -⟩ | ⟨_, -, rfl, -⟩ <;>
        cases direction <;> rfl
  | relay sends connId origin result events state raw ready queue read =>
      refine read.tracked (spares _ ?_)
      rw [queue]
      rfl
  | receive p chance m state raw ready decoded peer =>
      cases id peer with
      | ignored _ _ _ | answered _ _ _ | refused _ _ _ => cases direction <;> rfl
      | created request drawn free =>
          cases direction with
          | true => rfl
          | false =>
              refine AList.lookup_insert_ne fun same => ?_
              have unused := List.find?_some free
              rw [← same, show e.state.destinations.lookup socketId = some stream from tracked]
                at unused
              cases unused
      | mapped response connId other conn fd sid waits =>
          cases direction with
          | false => rfl
          | true =>
              refine AList.lookup_insert_ne fun same => ?_
              have unpending := spares _ decoded rfl (same ▸ sid) connId fd
              cases unpending.symm.trans waits
      | toDestination d _ _ _ _ _ _ | toSource d _ _ _ _ _ _ =>
          exact tracked_of_data decoded stepped (spares _ decoded) (taken rfl decoded)

/-- What the queue of a tracked connection takes are the buffers of the frames for its
tunnel. -/
theorem bytesTo_eq
    (only : ∀ {direction' socketId'}, (e.state.table direction').lookup socketId' = some stream →
      socketId' = socketId ∧ direction' = direction)
    (up : e.shutdown = false) (moves : e.Moves codec act e' effects)
    (tracked : (e.state.table direction).lookup socketId = some stream)
    (after : (e'.state.table direction).lookup socketId = some stream) :
    effects.filterMap (EngineEffect.bytesTo? stream) = buffersFor socketId direction effects := by
  by_cases hit : ∃ d, .received (.data d) ∈ effects ∧
      d.socketid.map Int32.toUInt32 = some socketId ∧
      d.sourcetodestination.getD false = !direction
  · obtain ⟨d, there, named⟩ := hit
    obtain ⟨p, chance, raw, rfl, ready, decoded, peer, rfl⟩ := moves.of_received there
    have buffer : (Message.data d).bufferFor? socketId direction = d.buffer := if_pos named
    rw [buffersFor, moves.receivedOf_eq, EngineAct.message?, decoded, Option.toList_some,
      List.filterMap_cons, List.filterMap_cons, buffer, ready_sends up ready]
    rcases peer.data with ⟨unnamed, -⟩ | ⟨other, named', data⟩
    · cases unnamed.symm.trans named.1
    · obtain rfl := Option.some.inj (named'.symm.trans named.1)
      rw [named.2, Bool.not_not] at data
      generalize e'.state.table direction = table at data after
      cases data with
      | unknown missing => cases missing.symm.trans tracked
      | torn _ _ =>
          rw [AList.lookup_erase] at after
          cases after
      | kept conn found _ =>
          obtain rfl := Option.some.inj (found.symm.trans tracked)
          cases d.buffer with
          | none => rfl
          | some bytes => simp [EngineEffect.bytesTo?]
  · have unheard : buffersFor socketId direction effects = [] := by
      refine List.filterMap_eq_nil_iff.2 fun m there => ?_
      cases m with
      | request _ | response _ => rfl
      | data d => exact if_neg fun named => hit ⟨d, mem_receivedOf.1 there, named⟩
    rw [unheard]
    refine List.filterMap_eq_nil_iff.2 fun effect there => ?_
    cases effect with
    | enqueued conn bytes =>
        refine if_neg fun same => hit ?_
        -- The frame was for the connection, so it was for its tunnel.
        obtain ⟨d, other, received, named, found⟩ := moves.enqueued (same ▸ there)
        obtain ⟨rfl, towards⟩ := only found
        exact ⟨d, received, named, by rw [← towards, Bool.not_not]⟩
    | opened _ _ _ _ | read _ _ | received _ | sent _ _ | tornDown _ | removed _ _
    | unmapped _ _ _ => rfl

end Engine

/-- The bytes that `write_all` still has to write. -/
def Writer.rest : Writer → Bytes
  | .writing rest => rest
  | _ => []

namespace WriteTask

variable {w w' : WriteTask} {act : WriterAct}

/-- What the task was given and has not written. -/
def unwritten (w : WriteTask) : Bytes := w.writer.rest ++ w.queue.flatten

/-- A task that runs, and that nothing in its queue ends. -/
structure Runs (w : WriteTask) : Prop where
  alive : w.writer ≠ .ended
  busy : w.writer ≠ .writing []
  filled : ∀ bytes ∈ w.queue, bytes ≠ []

theorem Moves.runs (moves : w.Moves act w') (runs : w.Runs) (kept : w.dropped = false)
    (works : act ≠ .fail) :
    w'.Runs ∧ w'.written ++ w'.unwritten = w.written ++ w.unwritten := by
  obtain ⟨alive, -, filled⟩ := runs
  have still := moves.busy
  cases moves with
  | ends queue idle waits =>
      rw [waits] at filled
      exact absurd rfl (filled [] List.mem_cons_self)
  | takes bytes queue idle waits some =>
      rw [waits] at filled
      refine ⟨⟨by simp, still, fun other there => filled other (List.mem_cons_of_mem _ there)⟩, ?_⟩
      simp [unwritten, Writer.rest, idle, waits]
  | closes idle drained dropped => cases kept.symm.trans dropped
  | writes n rest writing some fits =>
      refine ⟨⟨by dsimp only; split <;> simp, still, filled⟩, ?_⟩
      have given : (if rest.length = n then Writer.idle else .writing (rest.drop n)).rest =
          rest.drop n := by
        split
        · rename_i whole
          rw [← whole, List.drop_length]
          rfl
        · rfl
      rw [unwritten, unwritten, given, writing, Writer.rest, List.append_assoc,
        ← List.append_assoc (rest.take n), List.take_append_drop]
  | fails => exact absurd rfl works

/-- A task that is not done takes a step towards its end. -/
theorem exists_step (runs : w.Runs) (busy : ¬(w.writer = .idle ∧ w.queue = [])) :
    ∃ act w', act ≠ .fail ∧ w.step act = some w' ∧
      w'.unwritten.length + w'.queue.length < w.unwritten.length + w.queue.length := by
  cases writer : w.writer with
  | ended => exact absurd writer runs.alive
  | idle =>
      cases waits : w.queue with
      | nil => exact absurd ⟨writer, waits⟩ busy
      | cons bytes queue =>
          have some : bytes.isEmpty = false := by
            have filled := runs.filled bytes (by rw [waits]; exact List.mem_cons_self)
            simpa using filled
          refine ⟨.recv, { w with queue := queue, writer := .writing bytes }, by simp, ?_, ?_⟩
          · simp [step, writer, waits, some]
          · simp [unwritten, writer, waits, Writer.rest]
  | writing rest =>
      have some : 0 < rest.length := by
        refine List.length_pos_iff.2 fun empty => runs.busy ?_
        rw [writer, empty]
      refine ⟨.write rest.length, { w with writer := .idle, written := w.written ++ rest },
        by simp, ?_, ?_⟩
      · simp [step, writer, some]
      · simpa [unwritten, writer, Writer.rest] using some

end WriteTask

/-- A step of the write task of a connection. -/
def TasksAct.Works (stream : StreamId) : TasksAct π → Prop
  | .writer other act => other = stream ∧ act ≠ .fail
  | .engine _ => False

namespace Tasks

/-- The tunnel is open, and its task has been given these bytes. -/
structure Feeds (t : Tasks) (stream : StreamId) (socketId : UInt32) (direction : Bool)
    (given : Bytes) : Prop where
  up : t.engine.shutdown = false
  tracked : (t.engine.state.table direction).lookup socketId = some stream
  task : ∃ w, t.writer? stream = some w ∧ w.Runs ∧ w.written ++ w.unwritten = given

/-- How much the task of a connection still has to do. -/
def unwritten (t : Tasks) (stream : StreamId) : Nat :=
  (t.writer? stream).elim 0 fun w => w.unwritten.length + w.queue.length

variable {codec : Codec π} {sources : List PortForwardSourceRequest} {answer : Bool}
  {log : List EngineEffect} {t t' : Tasks} {stream : StreamId} {socketId : UInt32}
  {direction : Bool} {given : Bytes}

/-- The task is there and nothing shuts down, so the bytes are not given up. -/
theorem taken_of_answers {p : π} {chance : Chance} {m : Message} {w : WriteTask}
    (answers : t.answers codec (.peer p chance) = true) (decoded : codec.read p = some m)
    (spares : t.engine.state.Spares socketId direction m) (up : t.engine.shutdown = false)
    (tracked : (t.engine.state.table direction).lookup socketId = some stream)
    (found : t.writer? stream = some w) (alive : w.writer ≠ .ended)
    (carries : (m.bufferFor? socketId direction).isSome = true) : chance.written = true := by
  cases m with
  | request _ | response _ => cases carries
  | data d =>
      rw [Message.bufferFor?] at carries
      split at carries
      · rename_i named
        have unclosed := spares named.1 named.2
        have addressed := addressed_of_table named.1 named.2 tracked found
        simp only [Tasks.answers, decoded, unclosed, Option.isNone_eq_false_iff.2 carries,
          addressed, up, Bool.or_false, Bool.false_eq_true, if_false, alive, decide_false,
          Bool.if_false_right, Bool.and_eq_true] at answers
        exact of_decide_eq_true answers.1
      · cases carries

/-- On the way to having written everything. -/
structure Drains (t : Tasks) (stream : StreamId) (given : Bytes) (log : List EngineEffect)
    (s : Tasks) : Prop where
  silent : log = []
  engine : s.engine = t.engine
  task : ∃ w, s.writer? stream = some w ∧ w.Runs ∧ w.dropped = false ∧
    w.written ++ w.unwritten = given

theorem Drains.progress (codec : Codec π) (sources : List PortForwardSourceRequest)
    (answer : Bool) {s : Tasks} (drains : Drains t stream given log s)
    (busy : ¬∃ w, s.writer? stream = some w ∧ w.writer = .idle ∧ w.queue = []) :
    ∃ action s' effects, TasksAct.Works stream action ∧
      (system codec sources answer).step s action = some (s', effects) ∧
      Drains t stream given (log ++ effects) s' ∧ s'.unwritten stream < s.unwritten stream := by
  obtain ⟨rfl, same, w, found, runs, undropped, whole⟩ := drains
  obtain ⟨act, w', works, stepped, less⟩ :=
    WriteTask.exists_step runs fun done => busy ⟨w, found, done⟩
  have moves := WriteTask.step_moves stepped
  obtain ⟨runs', given'⟩ := moves.runs runs undropped works
  have after := writer_update found moves found
  rw [if_pos rfl] at after
  refine ⟨.writer stream act,
    { s with writers := WriteTask.update stream (fun _ => w') s.writers }, [], ⟨rfl, works⟩, ?_,
    ⟨rfl, same, w', after, runs', moves.dropped.trans undropped, given'.trans whole⟩, ?_⟩
  · show Tasks.step codec s (.writer stream act) = _
    rw [Tasks.step, found, Option.bind_some, stepped]
    rfl
  · rw [Tasks.unwritten, after, Tasks.unwritten, found]
    exact less

namespace Feeds

theorem of_engine (feeds : t.Feeds stream socketId direction given)
    (run : (system codec sources answer).Reachable log t) {act : EngineAct π} {engine : Engine}
    {effects : List EngineEffect} (answers : t.answers codec act = true)
    (stepped : t.engine.step codec act = some (engine, effects))
    (spares : t.engine.Spares codec socketId direction act)
    (filled : (TasksAct.engine act).Filled codec socketId direction) :
    Feeds ⟨engine, effects.foldl WriteTask.track t.writers⟩ stream socketId direction
      (given ++ (buffersFor socketId direction effects).flatten) := by
  obtain ⟨up, tracked, w, found, runs, whole⟩ := feeds
  have moves := Engine.step_moves stepped
  have streams := streamsOf_reachable (engine_reachable run)
  have steady : act.Steady := by
    cases act with
    | shutdown | stop => cases spares
    | accept _ | read _ _ _ | abort _ _ | event _ | peer _ _ | addSources _ => trivial
  have after : (engine.state.table direction).lookup socketId = some stream := by
    refine Engine.tracked_of_step stepped spares ?_ tracked
    rintro p chance m rfl decoded carries
    exact taken_of_answers answers decoded (spares m decoded) up tracked found runs.alive carries
  have only : ∀ {direction' socketId'},
      (t.engine.state.table direction').lookup socketId' = some stream →
        socketId' = socketId ∧ direction' = direction := by
    intro direction' socketId' entry
    obtain ⟨_, opened⟩ := opened_of_table (engine_reachable run) tracked
    obtain ⟨_, opened'⟩ := opened_of_table (engine_reachable run) entry
    exact (streams.once opened opened').2
  have bytes := Engine.bytesTo_eq only up moves tracked after
  refine ⟨(moves.up steady).trans up, after, _, WriteTask.find_foldl effects found, ?_, ?_⟩
  · refine ⟨runs.alive, runs.busy, ?_⟩
    intro buffer there
    rcases List.mem_append.1 there with old | new
    · exact runs.filled buffer old
    · rw [bytes, buffersFor, moves.receivedOf_eq] at new
      obtain ⟨m, read, fits⟩ := List.mem_filterMap.1 new
      rintro rfl
      exact filled m (Option.mem_toList.1 read) fits
  · rw [← whole, ← bytes]
    simp [WriteTask.unwritten]

theorem of_writer (feeds : t.Feeds stream socketId direction given) (manned : Manned log t)
    {other : StreamId} {act : WriterAct} {w w' : WriteTask} (found : t.writer? other = some w)
    (moves : w.Moves act w') (works : act = .fail → other ≠ stream) :
    Feeds { t with writers := WriteTask.update other (fun _ => w') t.writers } stream socketId
      direction given := by
  obtain ⟨up, tracked, kept, listed, runs, whole⟩ := feeds
  refine ⟨up, tracked, _, writer_update found moves listed, ?_⟩
  split
  · rename_i same
    subst same
    obtain rfl := Option.some.inj (found.symm.trans listed)
    obtain ⟨_, listed', undropped⟩ := manned.tracked tracked
    obtain rfl := Option.some.inj (listed.symm.trans listed')
    obtain ⟨runs', same⟩ := moves.runs runs undropped fun failed => works failed rfl
    exact ⟨runs', same.trans whole⟩
  · exact ⟨runs, whole⟩

/-- The task writes everything it was given, and has room again. -/
theorem drains (codec : Codec π) (sources : List PortForwardSourceRequest) (answer : Bool)
    (feeds : t.Feeds stream socketId direction given) (manned : Manned log t) :
    ∃ t', (system codec sources answer).Leads (TasksAct.Works stream) t [] t' ∧
      t'.engine = t.engine ∧
      ∃ w, t'.writer? stream = some w ∧ w.written = given ∧ w.takes = true := by
  obtain ⟨-, tracked, w, found, runs, whole⟩ := feeds
  obtain ⟨_, found', undropped⟩ := manned.tracked tracked
  obtain rfl := Option.some.inj (found.symm.trans found')
  obtain ⟨log', t', leads, ⟨rfl, same, w', listed, -, -, all⟩, w'', listed', idle, drained⟩ :=
    Transition.System.leads_of_progress (P := Drains t stream given) (fun s => s.unwritten stream)
      (fun _ _ drains busy => drains.progress codec sources answer busy)
      ⟨rfl, rfl, w, found, runs, undropped, whole⟩
  obtain rfl := Option.some.inj (listed.symm.trans listed')
  refine ⟨t', leads, same, w', listed, ?_, ?_⟩
  · rw [← all]
    simp [WriteTask.unwritten, idle, drained, Writer.rest]
  · simp [WriteTask.takes, idle, drained, connWriteQueueDepth]

end Feeds

/-- A frame for the tunnel is handled when its task has room. -/
theorem step_of_takes {w : WriteTask} {p : π} {chance : Chance} {d : PortForwardData}
    (decoded : codec.read p = some (.data d)) (going : t.engine.running = true)
    (sends : chance.sends.all id = true) (taken : chance.written = true)
    (named : d.socketid.map Int32.toUInt32 = some socketId)
    (towards : d.sourcetodestination.getD false = !direction)
    (tracked : (t.engine.state.table direction).lookup socketId = some stream)
    (found : t.writer? stream = some w) (room : w.takes = true) :
    (t.step codec (.engine (.peer p chance))).isSome = true := by
  have addressed := addressed_of_table named towards tracked found
  have answers := answers_of_takes decoded addressed taken room
  have ready : t.engine.ready chance.sends = true := by simp [Engine.ready, going, sends]
  rw [step, if_pos answers, Option.isSome_map, Engine.step, if_pos ready, decoded]
  simp only [Engine.receive, Option.isSome_map, EngineState.handlePeer, named]
  split <;> rfl

end Tasks

end Forward

end Et
