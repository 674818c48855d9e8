import EtClient.Forward.Engine

/-!
# A destination that echoes

One destination connection of an engine, with everything its bytes go through. A frame of
the peer waits for a slot in the connection's write queue; the writer task writes it into
the socket; the service reads what has arrived there and writes it back; the read task
puts what it reads into the event queue; and the engine turns the events into frames for
the session, which always takes them.

Every stage is bounded. The engine is one task: while it waits for a slot in the write
queue it handles no event. So the stages form a ring, and a ring that is full stands
still.
-/

namespace Et

namespace Forward

def connWriteQueueDepth : Nat := 256
def eventQueueDepth : Nat := 1024
def outboundQueueDepth : Nat := 256
/-- The buffer of a read task. -/
def readBuffer : Nat := 16 * 1024

/-- How many bytes the socket holds in each direction. -/
structure Kernel where
  toService : Nat
  fromService : Nat
  toService_pos : 0 < toService
  fromService_pos : 0 < fromService

/-- Where the engine waits. -/
inductive Place
  /-- The `select!` of `run`. -/
  | select
  /-- `conn.write_tx.send`. -/
  | writing (bytes : Bytes)
  /-- `send_or_shutdown`, with the frames that are left. -/
  | sending (frames : List Message)
  deriving DecidableEq

def Place.send : List Message → Place
  | [] => .select
  | frames => .sending frames

inductive Writer
  | idle
  /-- `write_all`, with the bytes that are left. -/
  | writing (rest : Bytes)
  | ended
  deriving DecidableEq

inductive Service
  | reading
  | writing (rest : Bytes)
  deriving DecidableEq

inductive Reader
  | reading
  /-- `events.send`. -/
  | sending (chunk : Bytes)
  | aborted
  deriving DecidableEq

structure Echo where
  state : EngineState
  place : Place
  queue : List Bytes
  writer : Writer
  toService : Bytes
  service : Service
  fromService : Bytes
  reader : Reader
  events : List Event
  outbound : List Message

inductive EchoAct
  /-- The engine takes a data frame of the peer. -/
  | take (bytes : Bytes)
  /-- The write queue takes the bytes. -/
  | enqueue
  /-- The writer task is gone. -/
  | enqueueFails
  /-- The writer task takes the next bytes. -/
  | recv
  | write (n : Nat)
  | serviceRead (n : Nat)
  | serviceWrite (n : Nat)
  | read (n : Nat)
  /-- The event queue takes what was read. -/
  | event
  /-- The engine handles the next event. -/
  | handle
  | sent
  /-- The session takes a frame. -/
  | pump
  deriving DecidableEq

namespace Echo

/-- The chance of a frame whose bytes the write queue takes, or not. -/
def chance (written : Bool) : Chance := ⟨[], false, [], written⟩

def step (kernel : Kernel) (socketId : UInt32) (s : Echo) :
    EchoAct → Option (Echo × List EngineEffect)
  | .take bytes =>
      match s.place with
      | .select =>
          -- A frame for a connection that is gone is dropped.
          if (s.state.destinations.lookup socketId).isSome then
            some ({ s with place := .writing bytes }, [])
          else some (s, [])
      | _ => none
  | .enqueue =>
      match s.place with
      | .writing bytes =>
          if s.writer ≠ .ended ∧ s.queue.length < connWriteQueueDepth then
            (s.state.handlePeer true 0 (chance true) (dataPacket socketId true bytes)).map
              fun (state, effects) =>
                ({ s with state := state, place := .select, queue := s.queue ++ [bytes] }, effects)
          else none
      | _ => none
  | .enqueueFails =>
      match s.place with
      | .writing bytes =>
          if s.writer = .ended then
            (s.state.handlePeer true 0 (chance false) (dataPacket socketId true bytes)).map
              fun (state, effects) =>
                -- Both halves of the stream are dropped, and with them the socket.
                ({ s with
                    state := state
                    place := .select
                    toService := []
                    service := .reading
                    fromService := []
                    reader := .aborted }, effects)
          else none
      | _ => none
  | .recv =>
      match s.writer, s.queue with
      | .idle, bytes :: queue =>
          -- An empty buffer ends the task, and the queue is dropped.
          if bytes.isEmpty then some ({ s with writer := .ended, queue := [] }, [])
          else some ({ s with writer := .writing bytes, queue := queue }, [])
      | _, _ => none
  | .write n =>
      match s.writer with
      | .writing rest =>
          if 0 < n ∧ n ≤ rest.length ∧ s.toService.length + n ≤ kernel.toService then
            some ({ s with
                toService := s.toService ++ rest.take n
                writer := if rest.length = n then .idle else .writing (rest.drop n) }, [])
          else none
      | _ => none
  | .serviceRead n =>
      match s.service with
      | .reading =>
          if 0 < n ∧ n ≤ s.toService.length then
            some ({ s with
                toService := s.toService.drop n
                service := .writing (s.toService.take n) }, [])
          else none
      | _ => none
  | .serviceWrite n =>
      match s.service with
      | .writing rest =>
          if 0 < n ∧ n ≤ rest.length ∧ s.fromService.length + n ≤ kernel.fromService then
            some ({ s with
                fromService := s.fromService ++ rest.take n
                service := if rest.length = n then .reading else .writing (rest.drop n) }, [])
          else none
      | _ => none
  | .read n =>
      match s.reader with
      | .reading =>
          if 0 < n ∧ n ≤ s.fromService.length ∧ n ≤ readBuffer then
            some ({ s with
                fromService := s.fromService.drop n
                reader := .sending (s.fromService.take n) }, [])
          else none
      | _ => none
  | .event =>
      match s.reader with
      | .sending chunk =>
          if s.events.length < eventQueueDepth then
            some ({ s with
                events := s.events ++ [.read socketId 0 (.ok chunk)]
                reader := .reading }, [.read 0 (.ok chunk)])
          else none
      | _ => none
  | .handle =>
      match s.place, s.events with
      | .select, .read connId stream result :: events =>
          let (state, effects) := s.state.handleRead connId stream result
          some ({ s with
              state := state
              place := .send (sentOf effects)
              events := events }, effects)
      | _, _ => none
  | .sent =>
      match s.place with
      | .sending (frame :: frames) =>
          if s.outbound.length < outboundQueueDepth then
            some ({ s with outbound := s.outbound ++ [frame], place := .send frames }, [])
          else none
      | _ => none
  | .pump =>
      match s.outbound with
      | _ :: outbound => some ({ s with outbound := outbound }, [])
      | [] => none

/-- The destination is connected, and its peer knows it by the socket id. -/
def connected (socketId : UInt32) : Echo where
  state := { EngineState.new [] with destinations := (∅ : Table StreamId).insert socketId 0 }
  place := .select
  queue := []
  writer := .idle
  toService := []
  service := .reading
  fromService := []
  reader := .reading
  events := []
  outbound := []

def system (kernel : Kernel) (socketId : UInt32) :
    Transition.System Echo EchoAct EngineEffect where
  start := connected socketId
  step := step kernel socketId

variable {kernel : Kernel} {socketId : UInt32} {s s' : Echo} {act : EchoAct}
  {effects : List EngineEffect}

/-- The connection is registered, and its ids are no source's. -/
structure Registered (socketId : UInt32) (state : EngineState) : Prop where
  found : state.destinations.lookup socketId = some 0
  sources : state.sourceConnIds = ∅

/-- The connection was torn down. -/
structure Gone (socketId : UInt32) (state : EngineState) : Prop where
  lost : state.destinations.lookup socketId = none
  sources : state.sourceConnIds = ∅

theorem handlePeer_data (state : EngineState) (socketId : UInt32) (bytes : Bytes)
    (chance : Chance) :
    state.handlePeer true 0 chance (dataPacket socketId true bytes) =
      some ({ state with
          destinations :=
            (receiveData state.destinations socketId false (some bytes) chance.written).1 },
        (receiveData state.destinations socketId false (some bytes) chance.written).2) := by
  simp [EngineState.handlePeer, dataPacket]

theorem Registered.written {state : EngineState} (registered : Registered socketId state)
    (bytes : Bytes) :
    ∃ state', state.handlePeer true 0 (chance true) (dataPacket socketId true bytes) =
      some (state', [.enqueued 0 bytes]) ∧ Registered socketId state' := by
  refine ⟨{ state with destinations := (state.destinations.erase socketId).insert socketId 0 }, ?_,
    ?_, registered.sources⟩
  · rw [handlePeer_data, receiveData, registered.found]
    rfl
  · simp

theorem Registered.tornDown {state : EngineState} (registered : Registered socketId state)
    (bytes : Bytes) :
    ∃ state', state.handlePeer true 0 (chance false) (dataPacket socketId true bytes) =
      some (state', [.tornDown 0]) ∧ Gone socketId state' := by
  refine ⟨{ state with destinations := state.destinations.erase socketId }, ?_, ?_,
    registered.sources⟩
  · rw [handlePeer_data, receiveData, registered.found]
    rfl
  · simp

theorem Registered.handleRead {state : EngineState} (registered : Registered socketId state)
    {chunk : Bytes} (some_bytes : chunk ≠ []) :
    state.handleRead socketId 0 (.ok chunk) =
      (state, [.sent (some 0) (dataPacket socketId false chunk)]) := by
  cases chunk with
  | nil => exact absurd rfl some_bytes
  | cons byte bytes =>
      rw [EngineState.handleRead, registered.sources, AList.lookup_empty]
      dsimp only
      rw [registered.found]
      rfl

theorem Gone.handleRead {state : EngineState} (gone : Gone socketId state) (result : ReadResult) :
    state.handleRead socketId 0 result = (state, []) := by
  rw [EngineState.handleRead, gone.sources, AList.lookup_empty]
  dsimp only
  rw [gone.lost]

inductive Moves (kernel : Kernel) (socketId : UInt32) (s : Echo) :
    EchoAct → Echo → List EngineEffect → Prop
  | take (bytes : Bytes) : s.place = .select →
      (s.state.destinations.lookup socketId).isSome = true →
      Moves kernel socketId s (.take bytes) { s with place := .writing bytes } []
  | dropped (bytes : Bytes) : s.place = .select →
      s.state.destinations.lookup socketId = none → Moves kernel socketId s (.take bytes) s []
  | enqueue (bytes : Bytes) (state : EngineState) (effects : List EngineEffect) :
      s.place = .writing bytes → s.writer ≠ .ended → s.queue.length < connWriteQueueDepth →
      s.state.handlePeer true 0 (chance true) (dataPacket socketId true bytes) =
        some (state, effects) →
      Moves kernel socketId s .enqueue
        { s with state := state, place := .select, queue := s.queue ++ [bytes] } effects
  | enqueueFails (bytes : Bytes) (state : EngineState) (effects : List EngineEffect) :
      s.place = .writing bytes → s.writer = .ended →
      s.state.handlePeer true 0 (chance false) (dataPacket socketId true bytes) =
        some (state, effects) →
      Moves kernel socketId s .enqueueFails
        { s with
          state := state
          place := .select
          toService := []
          service := .reading
          fromService := []
          reader := .aborted } effects
  | recvEnd (queue : List Bytes) : s.writer = .idle → s.queue = [] :: queue →
      Moves kernel socketId s .recv { s with writer := .ended, queue := [] } []
  | recv (bytes : Bytes) (queue : List Bytes) : s.writer = .idle → s.queue = bytes :: queue →
      bytes ≠ [] →
      Moves kernel socketId s .recv { s with writer := .writing bytes, queue := queue } []
  | write (n : Nat) (rest : Bytes) : s.writer = .writing rest → 0 < n → n ≤ rest.length →
      s.toService.length + n ≤ kernel.toService →
      Moves kernel socketId s (.write n)
        { s with
          toService := s.toService ++ rest.take n
          writer := if rest.length = n then .idle else .writing (rest.drop n) } []
  | serviceRead (n : Nat) : s.service = .reading → 0 < n → n ≤ s.toService.length →
      Moves kernel socketId s (.serviceRead n)
        { s with
          toService := s.toService.drop n
          service := .writing (s.toService.take n) } []
  | serviceWrite (n : Nat) (rest : Bytes) : s.service = .writing rest → 0 < n →
      n ≤ rest.length → s.fromService.length + n ≤ kernel.fromService →
      Moves kernel socketId s (.serviceWrite n)
        { s with
          fromService := s.fromService ++ rest.take n
          service := if rest.length = n then .reading else .writing (rest.drop n) } []
  | read (n : Nat) : s.reader = .reading → 0 < n → n ≤ s.fromService.length → n ≤ readBuffer →
      Moves kernel socketId s (.read n)
        { s with
          fromService := s.fromService.drop n
          reader := .sending (s.fromService.take n) } []
  | event (chunk : Bytes) : s.reader = .sending chunk → s.events.length < eventQueueDepth →
      Moves kernel socketId s .event
        { s with
          events := s.events ++ [.read socketId 0 (.ok chunk)]
          reader := .reading } [.read 0 (.ok chunk)]
  | handle (connId : UInt32) (stream : StreamId) (result : ReadResult) (events : List Event) :
      s.place = .select → s.events = .read connId stream result :: events →
      Moves kernel socketId s .handle
        { s with
          state := (s.state.handleRead connId stream result).1
          place := .send (sentOf (s.state.handleRead connId stream result).2)
          events := events } (s.state.handleRead connId stream result).2
  | sent (frame : Message) (frames : List Message) : s.place = .sending (frame :: frames) →
      s.outbound.length < outboundQueueDepth →
      Moves kernel socketId s .sent
        { s with outbound := s.outbound ++ [frame], place := .send frames } []
  | pump (frame : Message) (outbound : List Message) : s.outbound = frame :: outbound →
      Moves kernel socketId s .pump { s with outbound := outbound } []

theorem step_moves (stepped : s.step kernel socketId act = some (s', effects)) :
    Moves kernel socketId s act s' effects := by
  cases act with
  | take bytes =>
      simp only [step] at stepped
      split at stepped
      · split at stepped <;> cases stepped
        · exact .take bytes ‹_› ‹_›
        · exact .dropped bytes ‹_› (Option.not_isSome_iff_eq_none.mp ‹_›)
      · cases stepped
  | enqueue =>
      simp only [step] at stepped
      split at stepped
      · split at stepped
        · obtain ⟨⟨state, _⟩, handled, done⟩ := Option.map_eq_some_iff.mp stepped
          obtain ⟨alive, room⟩ := ‹_ ∧ _›
          cases done
          exact .enqueue _ state _ ‹_› alive room handled
        · cases stepped
      · cases stepped
  | enqueueFails =>
      simp only [step] at stepped
      split at stepped
      · split at stepped
        · obtain ⟨⟨state, _⟩, handled, done⟩ := Option.map_eq_some_iff.mp stepped
          cases done
          exact .enqueueFails _ state _ ‹_› ‹_› handled
        · cases stepped
      · cases stepped
  | recv =>
      simp only [step] at stepped
      split at stepped
      · rename_i bytes queue idle waits
        split at stepped
        · rename_i empty
          rw [List.isEmpty_iff] at empty
          subst empty
          cases stepped
          exact .recvEnd queue idle waits
        · rename_i some_bytes
          rw [List.isEmpty_iff] at some_bytes
          cases stepped
          exact .recv bytes queue idle waits some_bytes
      · cases stepped
  | write n =>
      simp only [step] at stepped
      split at stepped
      · split at stepped <;> cases stepped
        obtain ⟨some_bytes, enough, room⟩ := ‹_ ∧ _›
        exact .write n _ ‹_› some_bytes enough room
      · cases stepped
  | serviceRead n =>
      simp only [step] at stepped
      split at stepped
      · split at stepped <;> cases stepped
        obtain ⟨some_bytes, enough⟩ := ‹_ ∧ _›
        exact .serviceRead n ‹_› some_bytes enough
      · cases stepped
  | serviceWrite n =>
      simp only [step] at stepped
      split at stepped
      · split at stepped <;> cases stepped
        obtain ⟨some_bytes, enough, room⟩ := ‹_ ∧ _›
        exact .serviceWrite n _ ‹_› some_bytes enough room
      · cases stepped
  | read n =>
      simp only [step] at stepped
      split at stepped
      · split at stepped <;> cases stepped
        obtain ⟨some_bytes, enough, fits⟩ := ‹_ ∧ _›
        exact .read n ‹_› some_bytes enough fits
      · cases stepped
  | event =>
      simp only [step] at stepped
      split at stepped
      · split at stepped <;> cases stepped
        exact .event _ ‹_› ‹_›
      · cases stepped
  | handle =>
      simp only [step] at stepped
      split at stepped <;> cases stepped
      exact .handle _ _ _ _ ‹_› ‹_›
  | sent =>
      simp only [step] at stepped
      split at stepped
      · split at stepped <;> cases stepped
        exact .sent _ _ ‹_› ‹_›
      · cases stepped
  | pump =>
      simp only [step] at stepped
      split at stepped <;> cases stepped
      exact .pump _ _ ‹_›

end Echo

end Forward

end Et
