import EtClient.Forward.Echo
import EtClient.Forward.Receiving

/-!
# The tasks of the local connections

`spawn_conn` gives a connection two tasks, and each owns one half of the stream. The read
tasks are part of the engine's model already. Here the write tasks stand beside the engine:
each takes buffers from its bounded queue and writes them one after the other. The engine
only holds the sender of the queue. `teardown` drops that sender, which ends the task when
the queue is empty; it does not end a task that is writing.

A buffer without bytes ends a write task as well. What the task leaves in its queue is
dropped with it, and the next `send` of the engine fails.
-/

namespace Et

namespace Forward

variable {π : Type}

/-- A write task, with its queue and what it has written to its connection. -/
structure WriteTask where
  stream : StreamId
  connId : UInt32
  sourcetodestination : Bool
  queue : List Bytes
  writer : Writer
  /-- The sender of the queue is dropped. -/
  dropped : Bool
  written : Bytes
  deriving DecidableEq

inductive WriterAct
  /-- The next item of the queue, or its end. -/
  | recv
  /-- `write_all` writes so many bytes. -/
  | write (n : Nat)
  /-- The connection takes no more bytes. -/
  | fail

namespace WriteTask

def spawn (stream : StreamId) (connId : UInt32) (sourcetodestination : Bool) : WriteTask :=
  ⟨stream, connId, sourcetodestination, [], .idle, false, []⟩

def step (w : WriteTask) : WriterAct → Option WriteTask
  | .recv =>
      match w.writer, w.queue with
      | .idle, bytes :: queue =>
          if bytes.isEmpty then some { w with queue := [], writer := .ended }
          else some { w with queue := queue, writer := .writing bytes }
      | .idle, [] => if w.dropped then some { w with writer := .ended } else none
      | _, _ => none
  | .write n =>
      match w.writer with
      | .writing rest =>
          if 0 < n ∧ n ≤ rest.length then
            some { w with
              writer := if rest.length = n then .idle else .writing (rest.drop n)
              written := w.written ++ rest.take n }
          else none
      | _ => none
  | .fail => some { w with queue := [], writer := .ended }

/-- `write_tx.send` returns: the task is there, and its queue has room. -/
def takes (w : WriteTask) : Bool := w.writer ≠ .ended && w.queue.length < connWriteQueueDepth

/-- `write_tx.send` puts bytes into the queue. -/
def send (bytes : Bytes) (w : WriteTask) : WriteTask := { w with queue := w.queue ++ [bytes] }

/-- `teardown` drops the sender. -/
def teardown (w : WriteTask) : WriteTask := { w with dropped := true }

def update (stream : StreamId) (f : WriteTask → WriteTask) (writers : List WriteTask) :
    List WriteTask :=
  writers.map fun w => if w.stream = stream then f w else w

/-- What an effect of the engine does to the write tasks. -/
def track (writers : List WriteTask) : EngineEffect → List WriteTask
  | .opened stream connId _ sourcetodestination =>
      writers ++ [spawn stream connId sourcetodestination]
  | .enqueued stream bytes => update stream (send bytes) writers
  | .tornDown stream | .removed _ stream => update stream teardown writers
  | _ => writers

end WriteTask

structure Tasks where
  engine : Engine
  writers : List WriteTask

inductive TasksAct (π : Type)
  | engine (act : EngineAct π)
  | writer (stream : StreamId) (act : WriterAct)

namespace Tasks

def writer? (t : Tasks) (stream : StreamId) : Option WriteTask :=
  t.writers.find? fun w => w.stream = stream

/-- The write task of the connection that a data frame is for. -/
def addressed (t : Tasks) (d : PortForwardData) : Option WriteTask :=
  ((d.socketid.map Int32.toUInt32).bind
    (t.engine.state.table !d.sourcetodestination.getD false).lookup).bind t.writer?

/-- The bytes of a data frame are taken only by a task with room for them, and they are
given up only when the task is gone or the engine shuts down. -/
def answers (codec : Codec π) (t : Tasks) : EngineAct π → Bool
  | .peer p chance =>
      match codec.read p with
      | some (.data d) =>
          if d.closed.getD false || d.error.isSome || d.buffer.isNone then true
          else
            match t.addressed d with
            | some w =>
                if chance.written then w.takes else w.writer = .ended || t.engine.shutdown
            | none => true
      | _ => true
  | _ => true

def step (codec : Codec π) (t : Tasks) : TasksAct π → Option (Tasks × List EngineEffect)
  | .engine act =>
      if t.answers codec act then
        (t.engine.step codec act).map fun (engine, effects) =>
          (⟨engine, effects.foldl WriteTask.track t.writers⟩, effects)
      else none
  | .writer stream act =>
      ((t.writer? stream).bind fun w => w.step act).map fun w =>
        ({ t with writers := WriteTask.update stream (fun _ => w) t.writers }, [])

def system (codec : Codec π) (sources : List PortForwardSourceRequest)
    (answerDestinations : Bool) : Transition.System Tasks (TasksAct π) EngineEffect where
  start := ⟨.spawn sources answerDestinations, []⟩
  step := step codec

end Tasks

namespace WriteTask

/-- What a step of a write task does. -/
inductive Moves (w : WriteTask) : WriterAct → WriteTask → Prop
  | ends (queue : List Bytes) : w.writer = .idle → w.queue = [] :: queue →
      Moves w .recv { w with queue := [], writer := .ended }
  | takes (bytes : Bytes) (queue : List Bytes) : w.writer = .idle → w.queue = bytes :: queue →
      bytes ≠ [] → Moves w .recv { w with queue := queue, writer := .writing bytes }
  | closes : w.writer = .idle → w.queue = [] → w.dropped = true →
      Moves w .recv { w with writer := .ended }
  | writes (n : Nat) (rest : Bytes) : w.writer = .writing rest → 0 < n → n ≤ rest.length →
      Moves w (.write n)
        { w with
          writer := if rest.length = n then .idle else .writing (rest.drop n)
          written := w.written ++ rest.take n }
  | fails : Moves w .fail { w with queue := [], writer := .ended }

theorem step_moves {w w' : WriteTask} {act : WriterAct} (stepped : w.step act = some w') :
    w.Moves act w' := by
  cases act with
  | recv =>
      simp only [step] at stepped
      split at stepped
      · rename_i bytes queue idle waits
        split at stepped
        · rename_i empty
          cases stepped
          rw [List.isEmpty_iff.1 empty] at waits
          exact .ends queue idle waits
        · rename_i filled
          cases stepped
          exact .takes bytes queue idle waits (fun empty => filled (List.isEmpty_iff.2 empty))
      · rename_i idle drained
        split at stepped
        · rename_i dropped
          cases stepped
          exact .closes idle drained dropped
        · cases stepped
      · cases stepped
  | write n =>
      simp only [step] at stepped
      split at stepped
      · rename_i rest writing
        split at stepped
        · rename_i fits
          cases stepped
          exact .writes n rest writing fits.1 fits.2
        · cases stepped
      · cases stepped
  | fail =>
      cases stepped
      exact .fails

/-- A connection as it was opened. -/
def name (w : WriteTask) : StreamId × UInt32 × Bool := (w.stream, w.connId, w.sourcetodestination)

theorem stream_of_name {w w' : WriteTask} (same : w'.name = w.name) : w'.stream = w.stream :=
  congrArg Prod.fst same

theorem Moves.name {w w' : WriteTask} {act : WriterAct} (moves : w.Moves act w') :
    w'.name = w.name := by
  cases moves <;> rfl

theorem Moves.dropped {w w' : WriteTask} {act : WriterAct} (moves : w.Moves act w') :
    w'.dropped = w.dropped := by
  cases moves <;> rfl

theorem Moves.busy {w w' : WriteTask} {act : WriterAct} (moves : w.Moves act w') :
    w'.writer ≠ .writing [] := by
  cases moves with
  | ends _ _ _ | closes _ _ _ | fails => simp
  | takes bytes _ _ _ some => simpa using some
  | writes n rest _ _ fits =>
      dsimp only
      split
      · simp
      · rw [Ne, Writer.writing.injEq, List.drop_eq_nil_iff]
        omega

/-- A task that has ended does not come back. -/
theorem Moves.alive {w w' : WriteTask} {act : WriterAct} (moves : w.Moves act w')
    (alive : w'.writer ≠ .ended) : w.writer ≠ .ended := by
  intro ended
  cases moves with
  | ends _ _ _ | closes _ _ _ | fails => exact alive rfl
  | takes _ _ idle _ _ => cases idle.symm.trans ended
  | writes _ _ writing _ _ => cases writing.symm.trans ended

end WriteTask

namespace EngineEffect

def opened? : EngineEffect → Option (StreamId × UInt32 × Bool)
  | .opened stream connId _ sourcetodestination => some (stream, connId, sourcetodestination)
  | _ => none

/-- A name is listed when its connection was opened. -/
theorem mem_opened {effects : List EngineEffect} {stream : StreamId} {connId : UInt32}
    {direction : Bool} :
    (stream, connId, direction) ∈ effects.filterMap opened? ↔
      ∃ socketId, .opened stream connId socketId direction ∈ effects := by
  rw [List.mem_filterMap]
  constructor
  · rintro ⟨effect, there, named⟩
    cases effect with
    | opened stream connId socketId direction =>
        cases named
        exact ⟨socketId, there⟩
    | read _ _ | received _ | sent _ _ | enqueued _ _ | tornDown _ | removed _ _
    | unmapped _ _ _ => cases named
  · rintro ⟨socketId, there⟩
    exact ⟨_, there, rfl⟩

/-- The bytes that the queue of a connection takes. -/
def bytesTo? (stream : StreamId) : EngineEffect → Option Bytes
  | .enqueued other bytes => if other = stream then some bytes else none
  | _ => none

/-- The connection whose sender an effect drops. -/
def dropped? : EngineEffect → Option StreamId
  | .tornDown stream | .removed _ stream => some stream
  | _ => none

end EngineEffect

namespace WriteTask

variable {writers : List WriteTask} {w : WriteTask} {stream : StreamId}

theorem names_update {f : WriteTask → WriteTask}
    (same : ∀ w ∈ writers, w.stream = stream → (f w).name = w.name) :
    (update stream f writers).map name = writers.map name := by
  rw [update, List.map_map]
  refine List.map_congr_left fun w there => ?_
  rw [Function.comp]
  split
  · rename_i named
    exact same w there named
  · rfl

theorem names_track (effect : EngineEffect) :
    (track writers effect).map name = writers.map name ++ effect.opened?.toList := by
  cases effect with
  | opened stream connId socketId direction => exact List.map_append
  | enqueued stream bytes =>
      rw [track, @names_update _ stream (send bytes) fun _ _ _ => rfl]
      exact (List.append_nil _).symm
  | tornDown stream | removed _ stream =>
      rw [track, @names_update _ stream teardown fun _ _ _ => rfl]
      exact (List.append_nil _).symm
  | read _ _ | received _ | sent _ _ | unmapped _ _ _ => exact (List.append_nil _).symm

/-- The write tasks are those of the connections that were opened, in their order. -/
theorem names_foldl (effects : List EngineEffect) :
    (effects.foldl track writers).map name =
      writers.map name ++ effects.filterMap EngineEffect.opened? := by
  induction effects generalizing writers with
  | nil => exact (List.append_nil _).symm
  | cons effect effects ih =>
      rw [List.foldl_cons, ih, names_track, List.append_assoc, List.filterMap_cons]
      cases effect.opened? <;> rfl

theorem find_update {f : WriteTask → WriteTask} {other : StreamId}
    (same : ∀ w, w.stream = other → (f w).stream = other)
    (found : writers.find? (fun w => w.stream = stream) = some w) :
    (update other f writers).find? (fun w => w.stream = stream) =
      some (if stream = other then f w else w) := by
  have named : w.stream = stream := by simpa using List.find?_some found
  have unmoved : ((fun w : WriteTask => decide (w.stream = stream)) ∘ fun w =>
      if w.stream = other then f w else w) = fun w => decide (w.stream = stream) := by
    funext w
    rw [Function.comp]
    split
    · rename_i named
      rw [same w named, named]
    · rfl
  rw [update, List.find?_map, unmoved, found, Option.map_some, named]

/-- A connection's write task behind some effects of the engine. -/
theorem find_foldl (effects : List EngineEffect)
    (found : writers.find? (fun w => w.stream = stream) = some w) :
    (effects.foldl track writers).find? (fun w => w.stream = stream) =
      some { w with
        queue := w.queue ++ effects.filterMap (EngineEffect.bytesTo? stream)
        dropped := w.dropped || effects.any fun effect => effect.dropped? = some stream } := by
  induction effects generalizing writers w with
  | nil => simp [found]
  | cons effect effects ih =>
      have next : (track writers effect).find? (fun w => w.stream = stream) =
          some { w with
            queue := w.queue ++ (effect.bytesTo? stream).toList
            dropped := w.dropped || effect.dropped? = some stream } := by
        cases effect with
        | opened _ _ _ _ =>
            rw [track, List.find?_append, found]
            simp [EngineEffect.bytesTo?, EngineEffect.dropped?]
        | enqueued other bytes =>
            rw [track, @find_update _ _ _ (send bytes) other (fun _ => id) found]
            by_cases same : stream = other
            · simp [EngineEffect.bytesTo?, EngineEffect.dropped?, send, same]
            · simp [EngineEffect.bytesTo?, EngineEffect.dropped?, same, Ne.symm same]
        | tornDown other | removed _ other =>
            rw [track, @find_update _ _ _ teardown other (fun _ => id) found]
            by_cases same : stream = other
            · simp [EngineEffect.bytesTo?, EngineEffect.dropped?, teardown, same]
            · simp [EngineEffect.bytesTo?, EngineEffect.dropped?, same, Ne.symm same]
        | read _ _ | received _ | sent _ _ | unmapped _ _ _ =>
            simp [track, EngineEffect.bytesTo?, EngineEffect.dropped?, found]
      rw [List.foldl_cons, ih next]
      cases bytes : effect.bytesTo? stream <;>
        simp [bytes, Bool.or_assoc]

/-- What the effects of the engine leave alone, and what drops a sender. -/
structure Follows (effects : List EngineEffect) (before w : WriteTask) : Prop where
  name : w.name = before.name
  writer : w.writer = before.writer
  dropped : w.dropped = true → before.dropped = true ∨
    ∃ effect ∈ effects, effect.dropped? = some w.stream

theorem Follows.refl (effects : List EngineEffect) (w : WriteTask) : w.Follows effects w :=
  ⟨rfl, rfl, .inl⟩

theorem Follows.trans {effect : EngineEffect} {effects : List EngineEffect}
    {before middle w : WriteTask} (first : before.Follows [effect] middle)
    (rest : middle.Follows effects w) : before.Follows (effect :: effects) w := by
  refine ⟨rest.name.trans first.name, rest.writer.trans first.writer, fun dropped => ?_⟩
  rcases rest.dropped dropped with early | ⟨later, there, drops⟩
  · have same : middle.stream = w.stream := stream_of_name rest.name.symm
    rcases first.dropped early with old | ⟨now, there, drops⟩
    · exact .inl old
    · rw [List.mem_singleton.1 there, same] at drops
      exact .inr ⟨effect, List.mem_cons_self, drops⟩
  · exact .inr ⟨later, List.mem_cons_of_mem _ there, drops⟩

theorem of_update {f : WriteTask → WriteTask} (there : w ∈ update stream f writers) :
    w ∈ writers ∨ ∃ before ∈ writers, before.stream = stream ∧ w = f before := by
  obtain ⟨before, old, rfl⟩ := List.mem_map.1 there
  split
  · rename_i named
    exact .inr ⟨before, old, named, rfl⟩
  · exact .inl old

theorem of_track {effect : EngineEffect} (there : w ∈ track writers effect) :
    ∃ before, before.Follows [effect] w ∧
      (before ∈ writers ∨ before.dropped = false ∧ before.writer = .idle ∧
        effect.opened? = some before.name) := by
  cases effect with
  | opened stream connId socketId direction =>
      rcases List.mem_append.1 there with old | new
      · exact ⟨w, .refl _ w, .inl old⟩
      · rw [List.mem_singleton.1 new]
        exact ⟨_, .refl _ _, .inr ⟨rfl, rfl, rfl⟩⟩
  | enqueued stream bytes =>
      rcases of_update there with old | ⟨before, old, named, rfl⟩
      · exact ⟨w, .refl _ w, .inl old⟩
      · exact ⟨before, ⟨rfl, rfl, .inl⟩, .inl old⟩
  | tornDown stream | removed _ stream =>
      rcases of_update there with old | ⟨before, old, rfl, rfl⟩
      · exact ⟨w, .refl _ w, .inl old⟩
      · refine ⟨before, ⟨rfl, rfl, fun _ => .inr ⟨_, List.mem_cons_self, rfl⟩⟩, .inl old⟩
  | read _ _ | received _ | sent _ _ | unmapped _ _ _ => exact ⟨w, .refl _ w, .inl there⟩

/-- Where a write task comes from: it was there, or its connection was opened. -/
theorem of_foldl (effects : List EngineEffect) (there : w ∈ effects.foldl track writers) :
    ∃ before, before.Follows effects w ∧
      (before ∈ writers ∨ before.dropped = false ∧ before.writer = .idle ∧
        before.name ∈ effects.filterMap EngineEffect.opened?) := by
  induction effects generalizing writers with
  | nil => exact ⟨w, .refl _ w, .inl there⟩
  | cons effect effects ih =>
      obtain ⟨middle, rest, tracked | ⟨fresh, idle, opened⟩⟩ := ih there
      · obtain ⟨before, first, old | ⟨fresh, idle, opened⟩⟩ := of_track tracked
        · exact ⟨before, first.trans rest, .inl old⟩
        · refine ⟨before, first.trans rest, .inr ⟨fresh, idle, ?_⟩⟩
          exact List.mem_filterMap.2 ⟨effect, List.mem_cons_self, opened⟩
      · refine ⟨middle, ⟨rest.name, rest.writer, fun dropped => ?_⟩, .inr ⟨fresh, idle, ?_⟩⟩
        · obtain old | ⟨later, there, drops⟩ := rest.dropped dropped
          · exact .inl old
          · exact .inr ⟨later, List.mem_cons_of_mem _ there, drops⟩
        · obtain ⟨later, there, named⟩ := List.mem_filterMap.1 opened
          exact List.mem_filterMap.2 ⟨later, List.mem_cons_of_mem _ there, named⟩

/-- Connections have one write task each. -/
theorem eq_of_find (distinct : (writers.map WriteTask.stream).Nodup)
    (found : writers.find? (fun w => w.stream = stream) = some w) {other : WriteTask}
    (there : other ∈ writers) (named : other.stream = stream) : other = w := by
  refine List.inj_on_of_nodup_map distinct there (List.mem_of_find?_eq_some found) ?_
  rw [named]
  exact (by simpa using List.find?_some found : w.stream = stream).symm

end WriteTask

theorem opened_sendOrShutdown (sends : List Bool) (effects : List EngineEffect) :
    (sendOrShutdown sends effects).filterMap EngineEffect.opened? =
      effects.filterMap EngineEffect.opened? := by
  fun_induction sendOrShutdown sends effects with
  | case1 => rfl
  | case2 _ _ _ _ ih => exact ih
  | case3 _ _ _ _ ih => exact ih
  | case4 _ effect _ _ _ ih => rw [List.filterMap_cons, List.filterMap_cons, ih]

namespace Engine

variable {codec : Codec π} {e e' : Engine} {act : EngineAct π} {effects : List EngineEffect}

/-- A step opens at most one connection. -/
theorem Moves.opened (moves : e.Moves codec act e' effects) :
    effects.filterMap EngineEffect.opened? = [] ∨
      ∃ stream connId socketId direction,
        effects.filterMap EngineEffect.opened? = [(stream, connId, direction)] ∧
        .opened stream connId socketId direction ∈ effects ∧ e.Opens codec act e' effects := by
  rcases moves.opens_or_shrinks with opens | shrinks
  · refine .inr ?_
    cases id opens with
    | destination p chance request socketId decoded drawn =>
        refine ⟨e.streams, socketId, socketId, false, ?_, ?_, opens⟩
        · rw [List.filterMap_cons, opened_sendOrShutdown]
          rfl
        · exact (mem_opened Opens.silent_destination).2 ⟨rfl, rfl, rfl, rfl⟩
    | source p chance response connId socketId conn decoded fd sid waits =>
        refine ⟨conn, connId, socketId, true, ?_, ?_, opens⟩
        · rw [List.filterMap_cons, opened_sendOrShutdown]
          cases e.state.sourceSockets.lookup socketId <;> rfl
        · exact (mem_opened Opens.silent_source).2 ⟨rfl, rfl, rfl, rfl⟩
  · refine .inl (List.eq_nil_iff_forall_not_mem.2 fun name listed => ?_)
    obtain ⟨socketId, opened⟩ := EngineEffect.mem_opened.1 listed
    exact shrinks.unopened _ _ _ _ opened

theorem Moves.opened_unique (moves : e.Moves codec act e' effects) {stream stream' : StreamId}
    {connId connId' socketId socketId' : UInt32} {direction direction' : Bool}
    (one : .opened stream connId socketId direction ∈ effects)
    (other : .opened stream' connId' socketId' direction' ∈ effects) : stream' = stream := by
  have first : (stream, connId, direction) ∈ effects.filterMap EngineEffect.opened? :=
    EngineEffect.mem_opened.2 ⟨_, one⟩
  have second : (stream', connId', direction') ∈ effects.filterMap EngineEffect.opened? :=
    EngineEffect.mem_opened.2 ⟨_, other⟩
  rcases moves.opened with none | ⟨_, _, _, _, single, -, -⟩
  · rw [none] at first
    cases first
  · rw [single, List.mem_singleton] at first second
    exact congrArg Prod.fst (second.trans first.symm)

end Engine

/-- The connection of an entry is dropped, and the entry is gone. The new connection of a
response may take the place of another. -/
def EngineState.Drops (s s' : EngineState) (stream : StreamId) : Prop :=
  ∃ direction socketId, (s.table direction).lookup socketId = some stream ∧
    ((∀ connId, s.pending.lookup connId ≠ some stream) →
      (s'.table direction).lookup socketId ≠ some stream)

theorem DataStep.dropped {table table' : Table StreamId} {socketId : UInt32} {closed : Bool}
    {buffer : Option Bytes} {effects : List EngineEffect}
    (step : DataStep table socketId closed buffer table' effects) {effect : EngineEffect}
    (there : effect ∈ effects) {stream : StreamId} (drops : effect.dropped? = some stream) :
    table.lookup socketId = some stream ∧ table'.lookup socketId ≠ some stream := by
  cases step with
  | unknown _ => cases there
  | torn conn found =>
      rw [List.mem_singleton.1 there] at drops
      cases drops
      rw [AList.lookup_erase]
      exact ⟨found, nofun⟩
  | kept conn _ _ =>
      obtain ⟨bytes, -, rfl⟩ := List.mem_map.1 there
      cases drops

theorem ReadStep.dropped {s s' : EngineState} {connId : UInt32} {origin : StreamId}
    {result : ReadResult} {effects : List EngineEffect}
    (read : ReadStep s connId origin result s' effects) {effect : EngineEffect}
    (there : effect ∈ effects) {stream : StreamId} (drops : effect.dropped? = some stream) :
    s.Drops s' stream := by
  have unsent : ∀ {messages : List Message},
      effect ∉ messages.map (EngineEffect.sent (some origin)) := by
    intro messages sent
    obtain ⟨m, -, rfl⟩ := List.mem_map.1 sent
    cases drops
  cases read with
  | source _ _ _ | destination _ _ _ _ => exact absurd there unsent
  | sourceEnd socketId _ _ =>
      rcases List.mem_append.1 there with first | last
      · rcases List.mem_append.1 first with sent | removed
        · exact absurd sent unsent
        · obtain ⟨conn, found, rfl⟩ := List.mem_map.1 removed
          cases drops
          refine ⟨true, socketId, Option.mem_toList.1 found, fun _ => ?_⟩
          rw [EngineState.table, AList.lookup_erase]
          simp
      · rw [List.mem_singleton.1 last] at drops
        cases drops
  | destinationEnd conn _ found _ =>
      rcases List.mem_append.1 there with sent | removed
      · exact absurd sent unsent
      · rw [List.mem_singleton.1 removed] at drops
        cases drops
        refine ⟨false, connId, found, fun _ => ?_⟩
        rw [EngineState.table, AList.lookup_erase]
        simp
  | trailing _ _ => cases there

theorem PeerStep.dropped {s s' : EngineState} {opened : StreamId} {chance : Chance}
    {m : Message} {effects : List EngineEffect} (peer : PeerStep s opened chance m s' effects)
    {effect : EngineEffect} (there : effect ∈ effects) {stream : StreamId}
    (drops : effect.dropped? = some stream) : s.Drops s' stream := by
  cases peer with
  | ignored _ _ _ | refused _ _ _ => cases there
  | answered _ _ _ =>
      rw [List.mem_singleton.1 there] at drops
      cases drops
  | created _ _ _ =>
      rcases List.mem_cons.1 there with rfl | sent
      · cases drops
      · rw [List.mem_singleton.1 sent] at drops
        cases drops
  | mapped response connId socketId conn _ _ waits =>
      rcases List.mem_cons.1 there with rfl | torn
      · cases drops
      · obtain ⟨old, found, rfl⟩ := List.mem_map.1 torn
        cases drops
        refine ⟨true, socketId, Option.mem_toList.1 found, fun unwaited => ?_⟩
        rw [EngineState.table, AList.lookup_insert]
        intro same
        exact unwaited connId (waits.trans same)
  | toDestination d socketId table _ _ _ data =>
      obtain ⟨found, gone⟩ := data.dropped there drops
      exact ⟨false, socketId, found, fun _ => gone⟩
  | toSource d socketId table _ _ _ data =>
      obtain ⟨found, gone⟩ := data.dropped there drops
      exact ⟨true, socketId, found, fun _ => gone⟩

namespace Engine

variable {codec : Codec π} {e e' : Engine} {act : EngineAct π} {effects : List EngineEffect}

theorem Moves.dropped (moves : e.Moves codec act e' effects) {effect : EngineEffect}
    (there : effect ∈ effects) {stream : StreamId} (drops : effect.dropped? = some stream) :
    e.state.Drops e'.state stream := by
  cases moves.emits there with
  | read _ _ _ _ | asked _ _ _ | received _ _ _ _ _ _ _ => cases drops
  | relayed _ _ _ _ _ _ _ _ read raws => exact read.dropped raws drops
  | handled _ _ _ _ _ _ peer raws => exact peer.dropped raws drops
  | tornDown entry listed =>
      cases drops
      rcases List.mem_append.1 listed with source | destination
      · exact ⟨true, entry.1, AList.mem_lookup_iff.2 source, fun _ => by
          simp [EngineState.table, EngineState.teardownAll]⟩
      · exact ⟨false, entry.1, AList.mem_lookup_iff.2 destination, fun _ => by
          simp [EngineState.table, EngineState.teardownAll]⟩

end Engine

/-- Every entry of a table belongs to a connection that was opened under it. -/
theorem opened_of_table {codec : Codec π} {sources : List PortForwardSourceRequest}
    {answer : Bool} {log : List EngineEffect} {e : Engine}
    (run : (Engine.system codec sources answer).Reachable log e) {direction : Bool}
    {socketId : UInt32} {stream : StreamId}
    (found : (e.state.table direction).lookup socketId = some stream) :
    ∃ connId, .opened stream connId socketId direction ∈ log := by
  refine run.invariant (P := fun log e => ∀ {direction socketId stream},
    (e.state.table direction).lookup socketId = some stream →
      ∃ connId, .opened stream connId socketId direction ∈ log) ?_ ?_ found
  · intro direction socketId stream found
    cases direction <;> cases found
  · intro log e act e' effects opened _ stepped direction socketId stream found
    rcases (Engine.step_moves stepped).table found with old | ⟨connId, new⟩
    · obtain ⟨connId, before⟩ := opened old
      exact ⟨connId, List.mem_append_left _ before⟩
    · exact ⟨connId, List.mem_append_right _ new⟩

namespace Tasks

variable {codec : Codec π} {t t' : Tasks} {act : TasksAct π} {effects : List EngineEffect}
  {sources : List PortForwardSourceRequest} {answer : Bool} {log : List EngineEffect}

/-- What a step does: the engine's, which the write tasks follow, or one of a write task. -/
inductive Moves (codec : Codec π) (t : Tasks) :
    TasksAct π → Tasks → List EngineEffect → Prop
  | engine (act : EngineAct π) (engine : Engine) (effects : List EngineEffect) :
      t.answers codec act = true → t.engine.step codec act = some (engine, effects) →
      Moves codec t (.engine act) ⟨engine, effects.foldl WriteTask.track t.writers⟩ effects
  | writer (stream : StreamId) (act : WriterAct) (w w' : WriteTask) :
      t.writer? stream = some w → w.Moves act w' →
      Moves codec t (.writer stream act)
        { t with writers := WriteTask.update stream (fun _ => w') t.writers } []

theorem step_moves (stepped : t.step codec act = some (t', effects)) :
    t.Moves codec act t' effects := by
  cases act with
  | engine act =>
      simp only [step] at stepped
      split at stepped
      · rename_i answers
        obtain ⟨⟨engine, raw⟩, moved, same⟩ := Option.map_eq_some_iff.1 stepped
        cases same
        exact .engine act engine raw answers moved
      · cases stepped
  | writer stream act =>
      obtain ⟨w', moved, same⟩ := Option.map_eq_some_iff.1 stepped
      obtain ⟨w, found, writes⟩ := Option.bind_eq_some_iff.1 moved
      cases same
      exact .writer stream act w w' found (WriteTask.step_moves writes)

/-- The engine's own run. -/
theorem engine_reachable (run : (system codec sources answer).Reachable log t) :
    (Engine.system codec sources answer).Reachable log t.engine := by
  refine run.invariant (P := fun log t =>
    (Engine.system codec sources answer).Reachable log t.engine) .start ?_
  intro log t act t' effects before _ stepped
  cases step_moves stepped with
  | engine act engine effects answers moved => exact before.next act trivial moved
  | writer stream act w w' found moved =>
      rw [List.append_nil]
      exact before

theorem stream_of_writer {stream : StreamId} {w : WriteTask} (found : t.writer? stream = some w) :
    w.stream = stream := by
  simpa using List.find?_some found

theorem exists_writer (names : t.writers.map WriteTask.name = log.filterMap EngineEffect.opened?)
    {stream : StreamId} {connId socketId : UInt32} {direction : Bool}
    (opened : .opened stream connId socketId direction ∈ log) :
    ∃ w, t.writer? stream = some w := by
  have listed : (stream, connId, direction) ∈ t.writers.map WriteTask.name := by
    rw [names]
    exact EngineEffect.mem_opened.2 ⟨_, opened⟩
  obtain ⟨w, there, named⟩ := List.mem_map.1 listed
  refine Option.isSome_iff_exists.1 (List.find?_isSome.2 ⟨w, there, ?_⟩)
  exact decide_eq_true (congrArg Prod.fst named)

theorem addressed_of_table {d : PortForwardData} {socketId : UInt32} {direction : Bool}
    {stream : StreamId} {w : WriteTask} (named : d.socketid.map Int32.toUInt32 = some socketId)
    (towards : d.sourcetodestination.getD false = !direction)
    (tracked : (t.engine.state.table direction).lookup socketId = some stream)
    (found : t.writer? stream = some w) : t.addressed d = some w := by
  rw [addressed, named, towards, Bool.not_not]
  exact (congrArg (Option.bind · t.writer?) tracked).trans found

/-- A task with room takes the bytes of a frame. -/
theorem answers_of_takes {p : π} {chance : Chance} {d : PortForwardData} {w : WriteTask}
    (decoded : codec.read p = some (.data d)) (there : t.addressed d = some w)
    (taken : chance.written = true) (room : w.takes = true) :
    t.answers codec (.peer p chance) = true := by
  simp [answers, decoded, there, taken, room]

/-- The write task of a connection behind a step of a write task. -/
theorem writer_update {stream other : StreamId} {act : WriterAct} {w w' kept : WriteTask}
    (found : t.writer? stream = some w) (moves : w.Moves act w')
    (listed : t.writer? other = some kept) :
    { t with writers := WriteTask.update stream (fun _ => w') t.writers }.writer? other =
      some (if other = stream then w' else kept) := by
  refine WriteTask.find_update (fun _ _ => ?_) listed
  exact (WriteTask.stream_of_name moves.name).trans (stream_of_writer found)

/-- Every connection that was opened has its write task, and the sender of a connection in
the tables is not dropped. -/
structure Manned (log : List EngineEffect) (t : Tasks) : Prop where
  names : t.writers.map WriteTask.name = log.filterMap EngineEffect.opened?
  distinct : (t.writers.map WriteTask.stream).Nodup
  /-- A task that writes has something to write. -/
  busy : ∀ w ∈ t.writers, w.writer ≠ .writing []
  tracked : ∀ {direction socketId stream},
    (t.engine.state.table direction).lookup socketId = some stream →
      ∃ w, t.writer? stream = some w ∧ w.dropped = false

namespace Manned

theorem opened (manned : Manned log t) {w : WriteTask} (there : w ∈ t.writers) :
    ∃ socketId, .opened w.stream w.connId socketId w.sourcetodestination ∈ log := by
  have listed : w.name ∈ t.writers.map WriteTask.name := List.mem_map_of_mem there
  rw [manned.names] at listed
  exact EngineEffect.mem_opened.1 listed

theorem of_engine (manned : Manned log t)
    (run : (Engine.system codec sources answer).Reachable log t.engine) {act : EngineAct π}
    {engine : Engine} (stepped : t.engine.step codec act = some (engine, effects)) :
    Manned (log ++ effects) ⟨engine, effects.foldl WriteTask.track t.writers⟩ := by
  have moves := Engine.step_moves stepped
  have streams := streamsOf_reachable run
  have names : (effects.foldl WriteTask.track t.writers).map WriteTask.name =
      (log ++ effects).filterMap EngineEffect.opened? := by
    rw [WriteTask.names_foldl, manned.names, List.filterMap_append]
  have distinct : ((effects.foldl WriteTask.track t.writers).map WriteTask.stream).Nodup := by
    have streams_eq : ∀ writers : List WriteTask,
        writers.map WriteTask.stream = (writers.map WriteTask.name).map Prod.fst := by
      intro writers
      rw [List.map_map]
      rfl
    rw [streams_eq, WriteTask.names_foldl, List.map_append, ← streams_eq]
    rcases moves.opened with none | ⟨stream, connId, socketId, direction, one, new, opens⟩
    · rw [none, List.map_nil, List.append_nil]
      exact manned.distinct
    · rw [one]
      refine List.nodup_append.2 ⟨manned.distinct, List.nodup_singleton _, ?_⟩
      intro old listed other single same
      obtain ⟨w, there, rfl⟩ := List.mem_map.1 listed
      obtain ⟨socketId, before⟩ := manned.opened there
      rw [same, List.mem_singleton.1 single] at before
      exact streams.unopened opens new _ _ _ before
  refine ⟨names, distinct, ?_, ?_⟩
  · intro w there
    obtain ⟨before, follows, old | ⟨-, idle, -⟩⟩ := WriteTask.of_foldl effects there
    · rw [follows.writer]
      exact manned.busy before old
    · rw [follows.writer, idle]
      simp
  intro direction socketId stream found
  obtain ⟨_, opened⟩ := opened_of_table (run.next act trivial stepped) found
  obtain ⟨w, listed⟩ := @exists_writer ⟨engine, _⟩ _ names _ _ _ _ opened
  refine ⟨w, listed, Bool.eq_false_iff.2 fun dropped => ?_⟩
  have named := stream_of_writer listed
  obtain ⟨before, follows, origin⟩ :=
    WriteTask.of_foldl effects (List.mem_of_find?_eq_some listed)
  have same : before.stream = stream := (WriteTask.stream_of_name follows.name).symm.trans named
  rcases follows.dropped dropped with early | ⟨effect, there, drops⟩
  · rcases origin with old | ⟨fresh, -, -⟩
    · -- The entry is an old one, so the sender was not dropped.
      obtain ⟨_, opened⟩ := manned.opened old
      rw [same] at opened
      obtain ⟨w', found', kept⟩ := manned.tracked (streams.table_of_opened moves opened found)
      rw [WriteTask.eq_of_find manned.distinct found' old same, kept] at early
      cases early
    · cases fresh.symm.trans early
  · -- An entry of the same connection is gone, so it is the entry that was found.
    rw [named] at drops
    obtain ⟨direction', socketId', entry, gone⟩ := moves.dropped there drops
    obtain ⟨connId', opened⟩ := opened_of_table run entry
    obtain ⟨connId, opened'⟩ := opened_of_table run (streams.table_of_opened moves opened found)
    obtain ⟨-, rfl, rfl⟩ := streams.once opened opened'
    refine gone (fun key waits => ?_) found
    exact (streams.pending waits).2 _ _ _ opened

theorem of_writer (manned : Manned log t) {stream : StreamId} {act : WriterAct}
    {w w' : WriteTask} (found : t.writer? stream = some w) (moves : w.Moves act w') :
    Manned log { t with writers := WriteTask.update stream (fun _ => w') t.writers } := by
  have names : (WriteTask.update stream (fun _ => w') t.writers).map WriteTask.name =
      t.writers.map WriteTask.name := by
    refine WriteTask.names_update fun other there named => ?_
    rw [WriteTask.eq_of_find manned.distinct found there named]
    exact moves.name
  refine ⟨names.trans manned.names, ?_, ?_, ?_⟩
  · have streams := congrArg (List.map Prod.fst) names
    rw [List.map_map, List.map_map] at streams
    exact (congrArg List.Nodup streams).mpr manned.distinct
  · intro other there
    rcases WriteTask.of_update there with old | ⟨before, -, -, rfl⟩
    · exact manned.busy other old
    · exact moves.busy
  · intro direction socketId other entry
    obtain ⟨kept, listed, undropped⟩ := manned.tracked entry
    refine ⟨_, writer_update found moves listed, ?_⟩
    split
    · rename_i same
      rw [moves.dropped]
      rw [same] at listed
      rw [Option.some.inj (found.symm.trans listed)]
      exact undropped
    · exact undropped

end Manned

theorem manned_reachable (run : (system codec sources answer).Reachable log t) :
    Manned log t := by
  suffices both : (Engine.system codec sources answer).Reachable log t.engine ∧ Manned log t from
    both.2
  refine run.invariant (P := fun log t =>
    (Engine.system codec sources answer).Reachable log t.engine ∧ Manned log t) ?_ ?_
  · refine ⟨.start, rfl, List.nodup_nil, List.forall_mem_nil _, ?_⟩
    intro direction socketId stream found
    cases direction <;> cases found
  · intro log t act t' effects before _ stepped
    obtain ⟨run, manned⟩ := before
    cases step_moves stepped with
    | engine act engine effects answers moved =>
        exact ⟨run.next act trivial moved, manned.of_engine run moved⟩
    | writer stream act w w' found moved =>
        rw [List.append_nil]
        exact ⟨run, manned.of_writer found moved⟩

end Tasks

end Forward

end Et
