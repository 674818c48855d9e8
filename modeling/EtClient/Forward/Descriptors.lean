import EtClient.Forward.Answers
import EtClient.Forward.Tasks

/-!
# The descriptors of the destinations

`create_destination` refuses a connection when its table has
`MAX_DESTINATION_CONNECTIONS` entries. But the descriptor of a connection belongs to its
tasks, and they may outlive the entry: a write task that waits for a service that does not
read ends neither when its sender is dropped nor when the read task is aborted. So a peer
that sends a buffer, closes the tunnel and asks for the next one gets any number of
connections opened.

The cap bounds the connections when every request finds the tasks of the connections that
are no longer listed gone.
-/

namespace Et

namespace Forward

variable {π : Type}

namespace Tasks

/-- A destination whose descriptor is still held by its write task or its read task. -/
def Holds (t : Tasks) (w : WriteTask) : Prop :=
  w.sourcetodestination = false ∧
    (w.writer ≠ .ended ∨ (w.connId, w.stream) ∈ t.engine.readers)

instance (t : Tasks) (w : WriteTask) : Decidable (t.Holds w) :=
  inferInstanceAs (Decidable (_ = _ ∧ (_ ∨ _)))

def held (t : Tasks) : List WriteTask := t.writers.filter fun w => t.Holds w

/-- The connections in the table of the destinations. -/
def listed (t : Tasks) : List StreamId :=
  t.engine.state.destinations.entries.map fun entry => entry.2

/-- A request comes when every connection that is held is listed. -/
def ListsHeld (t : Tasks) : Message → Prop
  | .request _ => ∀ w ∈ t.held, w.stream ∈ t.listed
  | _ => True

def Lists (codec : Codec π) (t : Tasks) : TasksAct π → Prop
  | .engine act => ∀ m ∈ act.message? codec, t.ListsHeld m
  | .writer _ _ => True

instance (t : Tasks) (m : Message) : Decidable (t.ListsHeld m) :=
  match m with
  | .request _ => inferInstanceAs (Decidable (∀ w ∈ t.held, w.stream ∈ t.listed))
  | .response _ | .data _ => isTrue trivial

instance (codec : Codec π) (t : Tasks) (act : TasksAct π) : Decidable (t.Lists codec act) :=
  match act with
  | .engine act => Option.decidableForallMem (act.message? codec)
  | .writer _ _ => isTrue trivial

end Tasks

/-- A read task is there already, or its connection is being opened. -/
theorem Engine.Moves.readers {codec : Codec π} {e e' : Engine} {act : EngineAct π}
    {effects : List EngineEffect} (moves : e.Moves codec act e' effects)
    {name : UInt32 × StreamId} (there : name ∈ e'.readers) :
    name ∈ e.readers ∨ ∃ socketId direction,
      .opened name.2 name.1 socketId direction ∈ effects := by
  cases moves with
  | accept _ | take _ _ _ _ _ _ _ _ _ | relay _ _ _ _ _ _ _ _ _ _ | skip _ _ _ | addSources _
  | shutdown | stop => exact .inl there
  | abort _ _ => exact .inl (List.mem_of_mem_filter there)
  | read connId stream result reading =>
      dsimp only at there
      split at there
      · exact .inl (List.mem_of_mem_filter there)
      · exact .inl there
  | receive p chance m state raw ready decoded peer =>
      rcases List.mem_append.1 there with old | new
      · exact .inl old
      · obtain ⟨effect, handled, named⟩ := List.mem_filterMap.1 new
        cases effect with
        | opened stream connId socketId direction =>
            cases named
            refine .inr ⟨socketId, direction, List.mem_cons_of_mem _ ?_⟩
            exact opened_mem_sendOrShutdown.2 handled
        | read _ _ | received _ | sent _ _ | enqueued _ _ | tornDown _ | removed _ _
        | unmapped _ _ _ => cases named

namespace Tasks

variable {codec : Codec π} {sources : List PortForwardSourceRequest} {answer : Bool}
  {log effects : List EngineEffect} {t t' : Tasks}

theorem mem_held {w : WriteTask} : w ∈ t.held ↔ w ∈ t.writers ∧ t.Holds w := by
  simp [held]

theorem Manned.held_nodup (manned : Manned log t) : (t.held.map WriteTask.stream).Nodup :=
  (List.filter_sublist.map _).nodup manned.distinct

/-- A connection was held before when the task that holds it ran before. -/
theorem Holds.back {w before : WriteTask} (holds : t'.Holds w) (same : w.name = before.name)
    (alive : w.writer ≠ .ended → before.writer ≠ .ended)
    (reading : (before.connId, before.stream) ∈ t'.engine.readers →
      (before.connId, before.stream) ∈ t.engine.readers) : t.Holds before := by
  obtain ⟨destination, running⟩ := holds
  refine ⟨(congrArg (fun name => name.2.2) same).symm.trans destination, ?_⟩
  refine running.imp alive fun reads => reading ?_
  exact (congrArg (fun name => (name.2.1, name.1)) same).symm ▸ reads

/-- A connection that is held was held before, or it is a destination that is being opened. -/
theorem held_of_engine (manned : Manned log t) (streams : StreamsOf log t.engine)
    {act : EngineAct π} {engine : Engine} (moves : t.engine.Moves codec act engine effects)
    {w : WriteTask}
    (there : w ∈ held ⟨engine, effects.foldl WriteTask.track t.writers⟩) :
    w.stream ∈ t.held.map WriteTask.stream ∨
      ∃ connId socketId, .opened w.stream connId socketId false ∈ effects := by
  obtain ⟨listed, holds⟩ := mem_held.1 there
  obtain ⟨before, follows, old | ⟨-, -, new⟩⟩ := WriteTask.of_foldl effects listed
  · have held : t.Holds before := by
      refine holds.back follows.name (follows.writer ▸ id) fun reading => ?_
      rcases moves.readers reading with kept | ⟨_, _, opened⟩
      · exact kept
      · obtain ⟨_, opened'⟩ := manned.opened old
        rcases moves.opens_or_shrinks with opens | shrinks
        · exact absurd opened' (streams.unopened opens opened _ _ _)
        · exact absurd opened (shrinks.unopened _ _ _ _)
    rw [WriteTask.stream_of_name follows.name]
    exact .inl (List.mem_map_of_mem (mem_held.2 ⟨old, held⟩))
  · rw [← follows.name, WriteTask.name, holds.1] at new
    obtain ⟨socketId, opened⟩ := EngineEffect.mem_opened.1 new
    exact .inr ⟨_, socketId, opened⟩

theorem held_of_writer (manned : Manned log t) {stream : StreamId} {act : WriterAct}
    {w w' kept : WriteTask} (found : t.writer? stream = some w) (moves : w.Moves act w')
    (there : kept ∈ held { t with
      writers := WriteTask.update stream (fun _ => w') t.writers }) :
    kept.stream ∈ t.held.map WriteTask.stream := by
  obtain ⟨listed, holds⟩ := mem_held.1 there
  rcases WriteTask.of_update listed with old | ⟨before, old, named, rfl⟩
  · exact List.mem_map_of_mem (mem_held.2 ⟨old, holds⟩)
  · rw [WriteTask.eq_of_find manned.distinct found old named] at old
    have held : t.Holds w := holds.back moves.name moves.alive id
    rw [WriteTask.stream_of_name moves.name]
    exact List.mem_map_of_mem (mem_held.2 ⟨old, held⟩)

theorem length_held_le (manned : Manned log t) (streams : List StreamId)
    (among : ∀ w ∈ t.held, w.stream ∈ streams) : t.held.length ≤ streams.length := by
  have within : t.held.map WriteTask.stream ⊆ streams := by
    intro stream there
    obtain ⟨w, holds, rfl⟩ := List.mem_map.1 there
    exact among w holds
  simpa using (manned.held_nodup.subperm within).length_le

/-- A destination is opened only below the cap of the table, and all that is held is in the
table. -/
theorem held_room {act : EngineAct π} {engine : Engine} (manned : Manned log t)
    (lists : t.Lists codec (.engine act))
    (stepped : t.engine.step codec act = some (engine, effects)) {stream : StreamId}
    {connId socketId : UInt32} (opened : .opened stream connId socketId false ∈ effects) :
    t.held.length < maxDestinationConnections := by
  have moves := Engine.step_moves stepped
  rcases moves.opens_or_shrinks with opens | shrinks
  · cases opens with
    | destination p chance request drawn decoded _ =>
        have few : t.held.length ≤ t.listed.length := length_held_le manned _ (lists _ decoded)
        obtain ⟨-, raw, handled, same⟩ := Engine.handled_of_step decoded stepped
        obtain ⟨response, -, ⟨rfl, -⟩ | ⟨_, -, -, -, -, room, -⟩⟩ :=
          EngineState.handlePeer_request handled
        · rw [same, List.mem_cons, opened_mem_sendOrShutdown] at opened
          simp at opened
        · rw [listed, List.length_map] at few
          exact few.trans_lt room
    | source p chance response key assigned conn decoded _ _ _ =>
        obtain ⟨-, -, -, direction⟩ := (Engine.mem_opened Engine.Opens.silent_source).1 opened
        cases direction
  · exact absurd opened (shrinks.unopened _ _ _ _)

theorem held_le_of_engine {act : EngineAct π} {engine : Engine} (manned : Manned log t)
    (run : (Engine.system codec sources answer).Reachable log t.engine)
    (lists : t.Lists codec (.engine act))
    (stepped : t.engine.step codec act = some (engine, effects))
    (fits : t.held.length ≤ maxDestinationConnections) :
    (held ⟨engine, effects.foldl WriteTask.track t.writers⟩).length ≤
      maxDestinationConnections := by
  have moves := Engine.step_moves stepped
  have streams := streamsOf_reachable run
  have manned' := manned.of_engine run stepped
  by_cases opens : ∃ stream connId socketId, .opened stream connId socketId false ∈ effects
  · obtain ⟨stream, connId, socketId, opened⟩ := opens
    have room := held_room manned lists stepped opened
    refine (length_held_le manned' (stream :: t.held.map WriteTask.stream) ?_).trans ?_
    · intro w there
      rcases held_of_engine manned streams moves there with old | ⟨_, _, opened'⟩
      · exact List.mem_cons_of_mem _ old
      · exact List.mem_cons.2 (.inl (moves.opened_unique opened opened'))
    · simpa using room
  · refine (length_held_le manned' (t.held.map WriteTask.stream) ?_).trans ?_
    · intro w there
      rcases held_of_engine manned streams moves there with old | ⟨_, _, opened⟩
      · exact old
      · exact absurd ⟨_, _, _, opened⟩ opens
    · simpa using fits

end Tasks

/-- In every run in which each request finds the held connections listed, no more than
`MAX_DESTINATION_CONNECTIONS` destinations are held by their tasks. -/
theorem held_destinations_capped {codec : Codec π} {sources : List PortForwardSourceRequest}
    {answer : Bool} {log : List EngineEffect} {t : Tasks}
    (run : (Tasks.system codec sources answer).Reaches (fun _ t => t.Lists codec) log t) :
    t.held.length ≤ maxDestinationConnections := by
  suffices both : (Tasks.system codec sources answer).Reachable log t ∧
      t.held.length ≤ maxDestinationConnections from both.2
  refine run.invariant (P := fun log t =>
    (Tasks.system codec sources answer).Reachable log t ∧
      t.held.length ≤ maxDestinationConnections) ⟨.start, Nat.zero_le _⟩ ?_
  rintro log t act t' effects ⟨reachable, fits⟩ lists stepped
  refine ⟨reachable.next act trivial stepped, ?_⟩
  have manned := Tasks.manned_reachable reachable
  cases Tasks.step_moves stepped with
  | engine act engine effects answers moved =>
      exact Tasks.held_le_of_engine manned (Tasks.engine_reachable reachable) lists moved fits
  | writer stream act w w' found moved =>
      refine (Tasks.length_held_le (manned.of_writer found moved) _ fun kept there =>
        Tasks.held_of_writer manned found moved there).trans ?_
      simpa using fits

/-- A request for a local service. -/
def askDestination : TasksAct Message :=
  .engine (.peer (.request ⟨some ⟨none, some 80⟩, some 5⟩) calm)

/-- A tunnel is closed, its tasks end, and the next request is served. -/
theorem held_destinations_capped_reopened :
    ∃ log t, (Tasks.system .plain [] true).Reaches (fun _ t => t.Lists .plain) log t ∧
      t.writers.length = 2 ∧ t.held.length = 1 ∧ t.held.length ≤ maxDestinationConnections := by
  obtain ⟨log, t, run, two, one⟩ :
      ∃ log t, (Tasks.system .plain [] true).Reaches (fun _ t => t.Lists .plain) log t ∧
        t.writers.length = 2 ∧ t.held.length = 1 := by
    refine ⟨_, _, .execute .start
      [askDestination, .engine (.peer (dataPacket 1 true [42]) calm), .writer 0 .recv,
        .engine (.peer (closedPacket 1 true) calm), .engine (.abort 1 0), .writer 0 (.write 1),
        .writer 0 .recv, askDestination] rfl, ?_⟩
    decide
  exact ⟨log, t, run, two, one, held_destinations_capped run⟩

/-- An engine without entries, behind so many connections and packets. -/
def quiet (streams : Nat) : Engine := { Engine.spawn [] true with streams := streams }

/-- The write task of a destination whose service does not read. -/
def blocked (bytes : Bytes) (stream : StreamId) : WriteTask :=
  ⟨stream, 1, false, [], .writing bytes, false, []⟩

/-- The same, behind the close of its tunnel. -/
def stuck (bytes : Bytes) (stream : StreamId) : WriteTask := (blocked bytes stream).teardown

section Round

variable {writers : List WriteTask} {n : Nat} {w : WriteTask}

theorem update_last (fresh : ∀ w ∈ writers, w.stream < n) (named : w.stream = n)
    (f : WriteTask → WriteTask) :
    WriteTask.update n f (writers ++ [w]) = writers ++ [f w] := by
  rw [WriteTask.update, List.map_append, List.map_singleton, if_pos named]
  refine congrArg (· ++ [f w]) ?_
  refine (List.map_congr_left fun old there => ?_).trans (List.map_id _)
  exact if_neg (fresh old there).ne

theorem find_last (fresh : ∀ w ∈ writers, w.stream < n) (named : w.stream = n) :
    (writers ++ [w]).find? (fun w => w.stream = n) = some w := by
  have missing : writers.find? (fun w => w.stream = n) = none := by
    refine List.find?_eq_none.2 fun old there => ?_
    simpa using (fresh old there).ne
  simp [List.find?_append, missing, named]

/-- An engine with one destination, which is read. -/
def serving (n : StreamId) (streams : Nat) : Engine :=
  { quiet streams with
    state := { EngineState.new [] with destinations := (∅ : Table StreamId).insert 1 n }
    readers := [(1, n)] }

theorem step_data (fresh : ∀ w ∈ writers, w.stream < n) (bytes : Bytes) :
    Tasks.step .plain ⟨serving n (n + 1), writers ++ [.spawn n 1 false]⟩
        (.engine (.peer (dataPacket 1 true bytes) calm)) =
      some (⟨serving n (n + 2), writers ++ [(WriteTask.spawn n 1 false).send bytes]⟩,
        [.received (dataPacket 1 true bytes), .enqueued n bytes]) := by
  have answers : Tasks.answers .plain ⟨serving n (n + 1), writers ++ [.spawn n 1 false]⟩
      (.peer (dataPacket 1 true bytes) calm) = true := by
    have found : Tasks.writer? ⟨serving n (n + 1), writers ++ [.spawn n 1 false]⟩ n =
        some (.spawn n 1 false) := find_last fresh rfl
    exact Tasks.answers_of_takes rfl
      (@Tasks.addressed_of_table _ _ 1 false n _ rfl rfl rfl found) rfl rfl
  rw [Tasks.step, if_pos answers, ← update_last fresh rfl]
  rfl

theorem step_recv (fresh : ∀ w ∈ writers, w.stream < n) {bytes : Bytes} (some : bytes ≠ []) :
    Tasks.step .plain ⟨serving n (n + 2), writers ++ [(WriteTask.spawn n 1 false).send bytes]⟩
        (.writer n .recv) =
      .some (⟨serving n (n + 2), writers ++ [blocked bytes n]⟩, []) := by
  have found : Tasks.writer?
      ⟨serving n (n + 2), writers ++ [(WriteTask.spawn n 1 false).send bytes]⟩ n =
      .some ((WriteTask.spawn n 1 false).send bytes) := find_last fresh rfl
  have moved : ((WriteTask.spawn n 1 false).send bytes).step .recv =
      .some (blocked bytes n) := by
    simp [WriteTask.step, WriteTask.send, WriteTask.spawn, blocked, some]
  rw [Tasks.step, found, Option.bind_some, moved, Option.map_some, update_last fresh rfl]

theorem step_closed (fresh : ∀ w ∈ writers, w.stream < n) (bytes : Bytes) :
    Tasks.step .plain ⟨serving n (n + 2), writers ++ [blocked bytes n]⟩
        (.engine (.peer (closedPacket 1 true) calm)) =
      some (⟨{ quiet (n + 3) with readers := [(1, n)] }, writers ++ [stuck bytes n]⟩,
        [.received (closedPacket 1 true), .tornDown n]) := by
  rw [stuck, ← update_last fresh rfl]
  rfl

theorem step_abort (n streams : Nat) (writers : List WriteTask) :
    Tasks.step .plain ⟨{ quiet streams with readers := [(1, n)] }, writers⟩
        (.engine (.abort 1 n)) = some (⟨quiet streams, writers⟩, []) := by
  simp [Tasks.step, Tasks.answers, Engine.step, quiet, Engine.spawn]

/-- A tunnel is opened, gets a buffer and is closed again; its write task stays. -/
theorem stall {log : List EngineEffect}
    (run : (Tasks.system .plain [] true).Reachable log ⟨quiet n, writers⟩)
    (fresh : ∀ w ∈ writers, w.stream < n) {bytes : Bytes} (some : bytes ≠ []) :
    ∃ log, (Tasks.system .plain [] true).Reachable log
      ⟨quiet (n + 3), writers ++ [stuck bytes n]⟩ := by
  have asked : (Tasks.system .plain [] true).Reachable _
      ⟨serving n (n + 1), writers ++ [.spawn n 1 false]⟩ := run.next askDestination trivial rfl
  have served : (Tasks.system .plain [] true).Reachable _
      ⟨serving n (n + 2), writers ++ [(WriteTask.spawn n 1 false).send bytes]⟩ :=
    asked.next (.engine (.peer (dataPacket 1 true bytes) calm)) trivial (step_data fresh bytes)
  have writes : (Tasks.system .plain [] true).Reachable _
      ⟨serving n (n + 2), writers ++ [blocked bytes n]⟩ :=
    served.next (.writer n .recv) trivial (step_recv fresh some)
  have closed : (Tasks.system .plain [] true).Reachable _
      ⟨{ quiet (n + 3) with readers := [(1, n)] }, writers ++ [stuck bytes n]⟩ :=
    writes.next (.engine (.peer (closedPacket 1 true) calm)) trivial (step_closed fresh bytes)
  exact ⟨_, closed.next (.engine (.abort 1 n)) trivial (step_abort n (n + 3) _)⟩

end Round

/-- Any number of destinations can be held at once, none of them listed. -/
theorem stalls {bytes : Bytes} (some : bytes ≠ []) (count : Nat) :
    ∃ log, (Tasks.system .plain [] true).Reachable log
      ⟨quiet (3 * count), (List.range count).map fun i => stuck bytes (3 * i)⟩ := by
  induction count with
  | zero => exact ⟨[], .start⟩
  | succ count ih =>
      obtain ⟨log, run⟩ := ih
      have fresh : ∀ w ∈ (List.range count).map fun i => stuck bytes (3 * i),
          w.stream < 3 * count := by
        intro w there
        obtain ⟨i, below, rfl⟩ := List.mem_map.1 there
        exact (Nat.mul_lt_mul_left (by decide)).2 (List.mem_range.1 below)
      rw [List.range_succ, List.map_append]
      exact stall run fresh some

theorem length_held_stalls (bytes : Bytes) (count : Nat) :
    (Tasks.held ⟨quiet (3 * count),
      (List.range count).map fun i => stuck bytes (3 * i)⟩).length = count := by
  rw [Tasks.held, List.filter_eq_self.2, List.length_map, List.length_range]
  intro w there
  obtain ⟨i, -, rfl⟩ := List.mem_map.1 there
  refine decide_eq_true ⟨rfl, .inl ?_⟩
  simp [stuck, blocked, WriteTask.teardown]

/-- A peer that sends eight mebibytes to a service that does not read, closes the tunnel and
asks again has more connections held than the cap allows, with no entry in the table. -/
theorem held_destinations_exceed_cap :
    ∃ log t, (Tasks.system .plain [] true).Reachable log t ∧
      t.engine.state.destinations.entries = [] ∧ maxDestinationConnections < t.held.length := by
  have some : List.replicate 8388608 (0 : UInt8) ≠ [] := by
    refine List.ne_nil_of_length_pos ?_
    rw [List.length_replicate]
    decide
  obtain ⟨log, run⟩ := stalls some 257
  refine ⟨log, _, run, rfl, ?_⟩
  rw [length_held_stalls]
  decide

end Forward

end Et
