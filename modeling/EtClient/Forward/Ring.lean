import EtClient.Forward.Echo
import Mathlib.Algebra.BigOperators.Group.List.Basic

/-!
# A full ring stands still

The bytes between the engine's `write_tx.send` and its event queue can only leave through
the engine, and the engine handles no event while it waits for a slot. When every stage
of the ring is full, nothing moves any more, although the service reads whatever arrives
and the session takes every frame. One frame that is longer than the ring, followed by
enough frames to fill the write queue, is such a stream.

A ring that holds fewer bytes than it takes to fill every stage always moves. Here a
frame in the write queue counts as one byte at least, for it fills a slot.
-/

namespace Et

namespace Forward

/-- What a frame that waits for the writer task counts. -/
def weight (bytes : Bytes) : Nat := max 1 bytes.length

def Place.load : Place → Nat
  | .writing bytes => weight bytes
  | _ => 0

def Writer.load : Writer → Nat
  | .writing rest => rest.length
  | _ => 0

def Service.load : Service → Nat
  | .writing rest => rest.length
  | .reading => 0

def Reader.load : Reader → Nat
  | .sending chunk => chunk.length
  | _ => 0

def Event.load : Event → Nat
  | .read _ _ (.ok bytes) => bytes.length
  | _ => 0

/-- The bytes it takes to fill every stage. -/
def Kernel.ring (kernel : Kernel) : Nat :=
  connWriteQueueDepth + eventQueueDepth + kernel.toService + kernel.fromService + 4

/-- What an action adds to the ring. -/
def EchoAct.weight : EchoAct → Nat
  | .take bytes => Forward.weight bytes
  | _ => 0

theorem weight_pos (bytes : Bytes) : 1 ≤ weight bytes := Nat.le_max_left _ _

theorem length_le_weight (bytes : Bytes) : bytes.length ≤ weight bytes := Nat.le_max_right _ _

@[simp] theorem Place.load_select : Place.select.load = 0 := rfl

@[simp] theorem Place.load_writing (bytes : Bytes) :
    (Place.writing bytes).load = weight bytes := rfl

@[simp] theorem Place.load_sending (frames : List Message) : (Place.sending frames).load = 0 := rfl

@[simp] theorem Writer.load_idle : Writer.idle.load = 0 := rfl

@[simp] theorem Writer.load_ended : Writer.ended.load = 0 := rfl

@[simp] theorem Writer.load_writing (rest : Bytes) : (Writer.writing rest).load = rest.length := rfl

@[simp] theorem Service.load_reading : Service.reading.load = 0 := rfl

@[simp] theorem Service.load_writing (rest : Bytes) :
    (Service.writing rest).load = rest.length := rfl

@[simp] theorem Reader.load_reading : Reader.reading.load = 0 := rfl

@[simp] theorem Reader.load_aborted : Reader.aborted.load = 0 := rfl

@[simp] theorem Reader.load_sending (chunk : Bytes) :
    (Reader.sending chunk).load = chunk.length := rfl

@[simp] theorem Event.load_read (connId : UInt32) (stream : StreamId) (bytes : Bytes) :
    (Event.read connId stream (.ok bytes)).load = bytes.length := rfl

@[simp] theorem Writer.load_rest (rest : Bytes) (n : Nat) :
    (if rest.length = n then Writer.idle else .writing (rest.drop n)).load = rest.length - n := by
  split
  · rw [load_idle]
    omega
  · exact List.length_drop

@[simp] theorem Service.load_rest (rest : Bytes) (n : Nat) :
    (if rest.length = n then Service.reading else .writing (rest.drop n)).load =
      rest.length - n := by
  split
  · rw [load_reading]
    omega
  · exact List.length_drop

@[simp] theorem Place.load_send (frames : List Message) : (Place.send frames).load = 0 := by
  cases frames <;> rfl

theorem Place.send_sending {frames left : List Message}
    (sends : Place.send frames = .sending left) :
    left ≠ [] := by
  cases frames with
  | nil => cases sends
  | cons frame frames =>
      cases sends
      exact List.cons_ne_nil _ _

theorem Place.send_ne_writing (frames : List Message) (bytes : Bytes) :
    Place.send frames ≠ .writing bytes := by
  cases frames <;> nofun

namespace Echo

variable {kernel : Kernel} {socketId : UInt32} {s s' : Echo} {act : EchoAct}
  {effects : List EngineEffect}

/-- What the ring holds. -/
def load (s : Echo) : Nat :=
  s.place.load + (s.queue.map weight).sum + s.writer.load + s.toService.length +
    s.service.load + s.fromService.length + s.reader.load + (s.events.map Event.load).sum

/-- The engine, the writer task, the service and the read task all wait, each for the
next one. -/
structure Wedged (kernel : Kernel) (s : Echo) : Prop where
  engine : ∃ bytes, s.place = .writing bytes
  queue : connWriteQueueDepth ≤ s.queue.length
  writer : ∃ rest, s.writer = .writing rest ∧ kernel.toService ≤ s.toService.length
  service : ∃ rest, s.service = .writing rest ∧ kernel.fromService ≤ s.fromService.length
  reader : ∃ chunk, s.reader = .sending chunk ∧ eventQueueDepth ≤ s.events.length

/-- Nothing is left of a connection that was torn down. -/
structure Torn (s : Echo) : Prop where
  place : ∀ bytes, s.place ≠ .writing bytes
  writer : s.writer = .ended
  toService : s.toService = []
  service : s.service = .reading
  fromService : s.fromService = []
  reader : s.reader = .aborted

/-- What holds throughout: a task that holds bytes holds at least one. -/
structure Sound (socketId : UInt32) (s : Echo) : Prop where
  conn : Registered socketId s.state ∧ s.reader ≠ .aborted ∨ Gone socketId s.state ∧ s.Torn
  writer : ∀ rest, s.writer = .writing rest → rest ≠ []
  ended : s.writer = .ended → s.queue = []
  service : ∀ rest, s.service = .writing rest → rest ≠ []
  reader : ∀ chunk, s.reader = .sending chunk → chunk ≠ []
  events : ∀ event ∈ s.events, ∃ chunk, event = .read socketId 0 (.ok chunk) ∧ chunk ≠ []
  frames : ∀ frames, s.place = .sending frames → frames ≠ []

theorem Sound.live (sound : s.Sound socketId) (left : ¬ s.Torn) :
    Registered socketId s.state ∧ s.reader ≠ .aborted :=
  sound.conn.resolve_right fun gone => left gone.2

theorem Sound.live_of_writer (sound : s.Sound socketId) {writer : Writer} (here : s.writer = writer)
    (alive : writer ≠ .ended) : Registered socketId s.state ∧ s.reader ≠ .aborted :=
  sound.live fun torn => alive (here.symm.trans torn.writer)

theorem Sound.live_of_place (sound : s.Sound socketId) {bytes : Bytes}
    (place : s.place = .writing bytes) : Registered socketId s.state ∧ s.reader ≠ .aborted :=
  sound.live fun torn => torn.place bytes place

theorem drop_ne_nil {rest : Bytes} {n : Nat} (enough : n ≤ rest.length) (more : rest.length ≠ n) :
    rest.drop n ≠ [] := by
  rw [Ne, List.drop_eq_nil_iff]
  omega

theorem take_ne_nil {bytes : Bytes} {n : Nat} (some_bytes : 0 < n) (enough : n ≤ bytes.length) :
    bytes.take n ≠ [] := by
  rw [Ne, ← List.length_eq_zero_iff, List.length_take]
  omega

theorem Moves.sound (moves : Moves kernel socketId s act s' effects) (sound : s.Sound socketId) :
    s'.Sound socketId := by
  cases moves with
  | take bytes place found =>
      have live := sound.conn.resolve_right fun gone => by
        rw [gone.1.lost] at found
        cases found
      exact { sound with conn := .inl live, frames := nofun }
  | dropped => exact sound
  | enqueue bytes state effects place alive room handled =>
      have live := sound.live_of_place place
      obtain ⟨state', same, registered⟩ := live.1.written bytes
      cases handled.symm.trans same
      exact { sound with
        conn := .inl ⟨registered, live.2⟩
        ended := fun finished => absurd finished alive
        frames := nofun }
  | enqueueFails bytes state effects place finished handled =>
      obtain ⟨state', same, gone⟩ := (sound.live_of_place place).1.tornDown bytes
      cases handled.symm.trans same
      exact { sound with
        conn := .inr ⟨gone, nofun, finished, rfl, rfl, rfl, rfl⟩
        service := nofun
        reader := nofun
        frames := nofun }
  | recvEnd queue idle =>
      have live := sound.live_of_writer idle nofun
      exact { sound with conn := .inl live, writer := nofun, ended := fun _ => rfl }
  | recv bytes queue idle waits some_bytes =>
      have live := sound.live_of_writer idle nofun
      refine { sound with conn := .inl live, writer := ?_, ended := nofun }
      intro rest same
      cases same
      exact some_bytes
  | write n rest here some_bytes enough =>
      have live := sound.live_of_writer here nofun
      refine { sound with conn := .inl live, writer := ?_, ended := ?_ }
      · intro left same
        dsimp only at same
        split at same <;> cases same
        exact drop_ne_nil enough ‹_›
      · intro finished
        dsimp only at finished
        split at finished <;> cases finished
  | serviceRead n here some_bytes enough =>
      have live := sound.live fun torn => by
        rw [torn.toService] at enough
        exact absurd enough (Nat.not_le_of_lt some_bytes)
      refine { sound with conn := .inl live, service := ?_ }
      intro rest same
      cases same
      exact take_ne_nil some_bytes enough
  | serviceWrite n rest here some_bytes enough =>
      have live := sound.live fun torn => by cases torn.service.symm.trans here
      refine { sound with conn := .inl live, service := ?_ }
      intro left same
      dsimp only at same
      split at same <;> cases same
      exact drop_ne_nil enough ‹_›
  | read n here some_bytes enough =>
      have live := sound.live fun torn => by cases torn.reader.symm.trans here
      refine { sound with conn := .inl ⟨live.1, nofun⟩, reader := ?_ }
      intro chunk same
      cases same
      exact take_ne_nil some_bytes enough
  | event chunk here room =>
      have live := sound.live fun torn => by cases torn.reader.symm.trans here
      refine { sound with conn := .inl ⟨live.1, nofun⟩, reader := nofun, events := ?_ }
      intro event queued
      rcases List.mem_append.mp queued with old | new
      · exact sound.events event old
      · exact ⟨chunk, List.mem_singleton.mp new, sound.reader chunk here⟩
  | handle connId stream result events place queued =>
      have older : ∀ event ∈ events, event ∈ s.events := by
        rw [queued]
        exact fun _ => List.mem_cons_of_mem _
      obtain ⟨chunk, same, some_bytes⟩ := sound.events (.read connId stream result)
        (by rw [queued]; exact List.mem_cons_self)
      cases same
      refine { sound with
        conn := ?_
        events := fun event queued => sound.events event (older event queued)
        frames := fun frames => Place.send_sending }
      rcases sound.conn with ⟨registered, there⟩ | ⟨gone, torn⟩
      · rw [registered.handleRead some_bytes]
        exact .inl ⟨registered, there⟩
      · rw [gone.handleRead]
        exact .inr ⟨gone, { torn with place := nofun }⟩
  | sent frame frames =>
      refine { sound with
        conn := sound.conn.imp_right ?_
        frames := fun frames => Place.send_sending }
      rintro ⟨gone, torn⟩
      exact ⟨gone, { torn with place := Place.send_ne_writing frames }⟩
  | pump frame outbound => 
      exact { sound with conn := sound.conn.imp_right fun ⟨gone, torn⟩ => ⟨gone, { torn with }⟩ }

theorem sound_connected (socketId : UInt32) : (connected socketId).Sound socketId where
  conn := .inl ⟨⟨AList.lookup_insert _, rfl⟩, nofun⟩
  writer := nofun
  ended := nofun
  service := nofun
  reader := nofun
  events := nofun
  frames := nofun

/-- Only the frames of the peer add to what the ring holds. -/
theorem Moves.load (moves : Moves kernel socketId s act s' effects) :
    s'.load ≤ s.load + act.weight := by
  cases moves with
  | take bytes place =>
      simp only [Echo.load, place, Place.load_select, Place.load_writing, EchoAct.weight]
      omega
  | dropped | pump => exact Nat.le_add_right _ _
  | enqueue bytes state effects place =>
      simp only [Echo.load, place, Place.load_select, Place.load_writing, List.map_append,
        List.sum_append, List.map_cons, List.map_nil, List.sum_singleton]
      omega
  | enqueueFails bytes state effects place =>
      simp only [Echo.load, Place.load_select, List.length_nil, Service.load_reading,
        Reader.load_aborted]
      omega
  | recvEnd queue idle waits =>
      simp only [Echo.load, idle, Writer.load_idle, Writer.load_ended, List.map_nil, List.sum_nil]
      omega
  | recv bytes queue idle waits =>
      have shorter := length_le_weight bytes
      simp only [Echo.load, idle, waits, Writer.load_idle, Writer.load_writing, List.map_cons,
        List.sum_cons]
      omega
  | write n rest here some_bytes enough =>
      simp only [Echo.load, here, Writer.load_rest, Writer.load_writing, List.length_append,
        List.length_take]
      omega
  | serviceRead n here some_bytes enough =>
      simp only [Echo.load, here, Service.load_reading, Service.load_writing, List.length_drop,
        List.length_take]
      omega
  | serviceWrite n rest here some_bytes enough =>
      simp only [Echo.load, here, Service.load_rest, Service.load_writing, List.length_append,
        List.length_take]
      omega
  | read n here some_bytes enough =>
      simp only [Echo.load, here, Reader.load_reading, Reader.load_sending, List.length_drop,
        List.length_take]
      omega
  | event chunk here room =>
      simp only [Echo.load, here, Reader.load_reading, Reader.load_sending, List.map_append,
        List.sum_append, List.map_cons, List.map_nil, List.sum_singleton, Event.load_read]
      omega
  | handle connId stream result events place queued =>
      simp only [Echo.load, place, queued, Place.load_send, Place.load_select, List.map_cons,
        List.sum_cons]
      omega
  | sent frame frames place =>
      simp only [Echo.load, place, Place.load_send, Place.load_sending]
      omega

/-- A ring that stands still is full. -/
theorem Sound.ring_le_load (sound : s.Sound socketId) (wedged : s.Wedged kernel) :
    kernel.ring ≤ s.load := by
  obtain ⟨⟨bytes, place⟩, queue, ⟨left, writer, toService⟩, ⟨rest, service, fromService⟩,
    ⟨chunk, reader, events⟩⟩ := wedged
  have slots : s.queue.length ≤ (s.queue.map weight).sum := by
    have each := List.length_le_sum_of_one_le (s.queue.map weight) (by
      intro load found
      obtain ⟨bytes, _, rfl⟩ := List.mem_map.mp found
      exact weight_pos bytes)
    rwa [List.length_map] at each
  have reads : s.events.length ≤ (s.events.map Event.load).sum := by
    have each := List.length_le_sum_of_one_le (s.events.map Event.load) (by
      intro load found
      obtain ⟨event, queued, rfl⟩ := List.mem_map.mp found
      obtain ⟨chunk, rfl, some_bytes⟩ := sound.events event queued
      exact List.length_pos_iff.mpr some_bytes)
    rwa [List.length_map] at each
  have held := weight_pos bytes
  have writes := List.length_pos_iff.mpr (sound.writer left writer)
  have serves := List.length_pos_iff.mpr (sound.service rest service)
  have sends := List.length_pos_iff.mpr (sound.reader chunk reader)
  simp only [Kernel.ring, load, place, writer, service, reader, Place.load_writing,
    Writer.load_writing, Service.load_writing, Reader.load_sending]
  omega

/-- Some task can go on without another frame of the peer. -/
def CanMove (kernel : Kernel) (socketId : UInt32) (s : Echo) : Prop :=
  ∃ act s' effects, (∀ bytes, act ≠ .take bytes) ∧ s.step kernel socketId act = some (s', effects)

/-- The steps of the writer task, the service and the read task, one byte at a time. -/
def drips : List EchoAct := [.recv, .write 1, .serviceRead 1, .serviceWrite 1, .read 1, .event]

/-- One of these tasks can go on. -/
def CanDrip (kernel : Kernel) (socketId : UInt32) (s : Echo) : Prop :=
  ∃ act s' effects, act ∈ drips ∧ s.step kernel socketId act = some (s', effects)

theorem CanDrip.canMove (drip : s.CanDrip kernel socketId) : s.CanMove kernel socketId := by
  obtain ⟨act, s', effects, among, stepped⟩ := drip
  refine ⟨act, s', effects, ?_, stepped⟩
  rintro bytes rfl
  simp [drips] at among

/-- The read task waits for the engine. -/
def ReaderBlocked (s : Echo) : Prop :=
  ∃ chunk, s.reader = .sending chunk ∧ eventQueueDepth ≤ s.events.length

/-- The service waits for the read task. -/
def ServiceBlocked (kernel : Kernel) (s : Echo) : Prop :=
  ∃ rest, s.service = .writing rest ∧ kernel.fromService ≤ s.fromService.length

theorem reader_moves (there : s.reader ≠ .aborted)
    (holds : s.fromService ≠ [] ∨ ∃ chunk, s.reader = .sending chunk) :
    s.CanDrip kernel socketId ∨ s.ReaderBlocked := by
  cases here : s.reader with
  | aborted => exact absurd here there
  | reading =>
      left
      have arrived : s.fromService ≠ [] := by
        refine holds.resolve_right ?_
        rintro ⟨chunk, sends⟩
        cases here.symm.trans sends
      have enough : 0 < 1 ∧ 1 ≤ s.fromService.length ∧ 1 ≤ readBuffer :=
        ⟨Nat.one_pos, List.length_pos_iff.mpr arrived, by decide⟩
      exact ⟨.read 1, _, _, by decide, by simp only [step, here, if_pos enough]; rfl⟩
  | sending chunk =>
      by_cases room : s.events.length < eventQueueDepth
      · exact .inl ⟨.event, _, _, by decide, by simp only [step, here, if_pos room]; rfl⟩
      · exact .inr ⟨chunk, here, Nat.le_of_not_lt room⟩

theorem service_moves (there : s.reader ≠ .aborted) (sound : s.Sound socketId)
    (holds : s.toService ≠ [] ∨ ∃ rest, s.service = .writing rest) :
    s.CanDrip kernel socketId ∨ s.ServiceBlocked kernel ∧ s.ReaderBlocked := by
  cases here : s.service with
  | reading =>
      left
      have arrived : s.toService ≠ [] := by
        refine holds.resolve_right ?_
        rintro ⟨rest, writes⟩
        cases here.symm.trans writes
      have enough : 0 < 1 ∧ 1 ≤ s.toService.length :=
        ⟨Nat.one_pos, List.length_pos_iff.mpr arrived⟩
      exact ⟨.serviceRead 1, _, _, by decide, by simp only [step, here, if_pos enough]; rfl⟩
  | writing rest =>
      by_cases full : kernel.fromService ≤ s.fromService.length
      · have arrived : s.fromService ≠ [] :=
          List.length_pos_iff.mp (lt_of_lt_of_le kernel.fromService_pos full)
        exact (reader_moves there (.inl arrived)).imp_right fun blocked =>
          ⟨⟨rest, here, full⟩, blocked⟩
      · left
        have enough : 0 < 1 ∧ 1 ≤ rest.length ∧ s.fromService.length + 1 ≤ kernel.fromService :=
          ⟨Nat.one_pos, List.length_pos_iff.mpr (sound.service rest here), by omega⟩
        exact ⟨.serviceWrite 1, _, _, by decide, by simp only [step, here, if_pos enough]; rfl⟩

theorem writer_moves (there : s.reader ≠ .aborted) (sound : s.Sound socketId)
    (alive : s.writer ≠ .ended) (holds : s.queue ≠ [] ∨ ∃ rest, s.writer = .writing rest) :
    s.CanDrip kernel socketId ∨
      (∃ rest, s.writer = .writing rest ∧ kernel.toService ≤ s.toService.length) ∧
        s.ServiceBlocked kernel ∧ s.ReaderBlocked := by
  cases here : s.writer with
  | ended => exact absurd here alive
  | idle =>
      left
      have waits : s.queue ≠ [] := by
        refine holds.resolve_right ?_
        rintro ⟨rest, writes⟩
        cases here.symm.trans writes
      obtain ⟨bytes, queue, waits⟩ := List.exists_cons_of_ne_nil waits
      cases empty : bytes.isEmpty with
      | true => exact ⟨.recv, _, _, by decide, by simp only [step, here, waits, empty]; rfl⟩
      | false => exact ⟨.recv, _, _, by decide, by simp only [step, here, waits, empty]; rfl⟩
  | writing rest =>
      by_cases full : kernel.toService ≤ s.toService.length
      · have arrived : s.toService ≠ [] :=
          List.length_pos_iff.mp (lt_of_lt_of_le kernel.toService_pos full)
        exact (service_moves there sound (.inl arrived)).imp_right
          fun blocked => ⟨⟨rest, rfl, full⟩, blocked⟩
      · left
        have enough : 0 < 1 ∧ 1 ≤ rest.length ∧ s.toService.length + 1 ≤ kernel.toService :=
          ⟨Nat.one_pos, List.length_pos_iff.mpr (sound.writer rest here), by omega⟩
        exact ⟨.write 1, _, _, by decide, by simp only [step, here, if_pos enough]; rfl⟩

/-- With an empty event queue the read task never waits, and so nobody does. -/
theorem Sound.canMove_of_no_event (sound : s.Sound socketId) (place : s.place = .select)
    (none : s.events = []) (holds : s.load ≠ 0) : s.CanMove kernel socketId := by
  have heard : ¬ s.ReaderBlocked := by
    rintro ⟨_, _, full⟩
    rw [none] at full
    exact absurd full (by decide)
  rcases sound.conn with ⟨_, there⟩ | ⟨_, torn⟩
  · by_contra stuck
    have reader : ¬ (s.fromService ≠ [] ∨ ∃ chunk, s.reader = .sending chunk) :=
      fun bytes => (reader_moves there bytes).elim (fun drip => stuck drip.canMove) heard
    have service : ¬ (s.toService ≠ [] ∨ ∃ rest, s.service = .writing rest) :=
      fun bytes => (service_moves there sound bytes).elim (fun drip => stuck drip.canMove)
        fun blocked => heard blocked.2
    have writer : s.writer ≠ .ended → ¬ (s.queue ≠ [] ∨ ∃ rest, s.writer = .writing rest) :=
      fun alive bytes => (writer_moves there sound alive bytes).elim
        (fun drip => stuck drip.canMove) fun blocked => heard blocked.2.2
    rw [not_or, not_not] at reader service
    have read : s.reader.load = 0 := by
      cases here : s.reader with
      | sending chunk => exact absurd ⟨chunk, here⟩ reader.2
      | reading | aborted => rfl
    have served : s.service.load = 0 := by
      cases here : s.service with
      | writing rest => exact absurd ⟨rest, here⟩ service.2
      | reading => rfl
    have written : s.writer.load = 0 ∧ s.queue = [] := by
      cases here : s.writer with
      | ended => exact ⟨rfl, sound.ended here⟩
      | idle =>
          have idle := writer (by rw [here]; nofun)
          rw [not_or, not_not] at idle
          exact ⟨rfl, idle.1⟩
      | writing rest => exact absurd (.inr ⟨rest, here⟩) (writer (by rw [here]; nofun))
    apply holds
    simp [load, place, none, read, served, written, reader.1, service.1]
  · have empty := sound.ended torn.writer
    apply absurd _ holds
    simp [load, place, none, empty, torn.writer, torn.toService, torn.service, torn.fromService,
      torn.reader]

theorem Sound.canMove (sound : s.Sound socketId) (unwedged : ¬ s.Wedged kernel)
    (holds : s.load ≠ 0) : s.CanMove kernel socketId := by
  cases place : s.place with
  | sending frames =>
      obtain ⟨frame, frames, rfl⟩ := List.exists_cons_of_ne_nil (sound.frames frames place)
      by_cases room : s.outbound.length < outboundQueueDepth
      · exact ⟨.sent, _, _, (by rintro _ ⟨⟩), by simp only [step, place, if_pos room]; rfl⟩
      · have full : s.outbound ≠ [] := by
          intro empty
          rw [empty] at room
          exact room (by decide)
        obtain ⟨frame', outbound, full⟩ := List.exists_cons_of_ne_nil full
        exact ⟨.pump, _, _, (by rintro _ ⟨⟩), by simp only [step, full]; rfl⟩
  | writing bytes =>
      have live := sound.live_of_place place
      by_cases finished : s.writer = .ended
      · obtain ⟨state, handled, _⟩ := live.1.tornDown bytes
        exact ⟨.enqueueFails, _, _, (by rintro _ ⟨⟩),
          by simp only [step, place, if_pos finished, handled]; rfl⟩
      by_cases room : s.queue.length < connWriteQueueDepth
      · obtain ⟨state, handled, _⟩ := live.1.written bytes
        have both : s.writer ≠ .ended ∧ s.queue.length < connWriteQueueDepth := ⟨finished, room⟩
        exact ⟨.enqueue, _, _, (by rintro _ ⟨⟩),
          by simp only [step, place, if_pos both, handled]; rfl⟩
      · have full := Nat.le_of_not_lt room
        have waits : s.queue ≠ [] := by
          intro empty
          rw [empty] at full
          exact absurd full (by decide)
        refine ((writer_moves live.2 sound finished (.inl waits)).resolve_right ?_).canMove
        rintro ⟨writer, service, reader⟩
        exact unwedged ⟨⟨bytes, place⟩, full, writer, service, reader⟩
  | select =>
      cases queued : s.events with
      | nil => exact sound.canMove_of_no_event place queued holds
      | cons event events =>
          obtain ⟨chunk, rfl, _⟩ := sound.events event (by rw [queued]; exact List.mem_cons_self)
          exact ⟨.handle, _, _, (by rintro _ ⟨⟩), by simp only [step, place, queued]; rfl⟩

/-- The engine takes a frame only as long as the ring is not full behind it. -/
def within (kernel : Kernel) (s : Echo) : EchoAct → Bool
  | .take bytes => s.load + weight bytes < kernel.ring
  | _ => true

theorem load_lt_ring {log : List EngineEffect}
    (run : (system kernel socketId).Reaches (fun _ s act => s.within kernel act = true) log s) :
    s.Sound socketId ∧ s.load < kernel.ring := by
  induction run with
  | start => exact ⟨sound_connected socketId, by simp [load, system, connected, Kernel.ring]⟩
  | next act _ within stepped ih =>
      have moves := step_moves stepped
      refine ⟨moves.sound ih.1, lt_of_le_of_lt moves.load ?_⟩
      cases act with
      | take bytes => exact of_decide_eq_true within
      | _ => exact ih.2

/-- The write queue is full, the engine waits behind it, and the writer task has more
bytes than the stages behind it take, one at a time. -/
structure Dripping (kernel : Kernel) (socketId : UInt32) (s : Echo) : Prop where
  sound : s.Sound socketId
  outbound : s.outbound = []
  engine : ∃ bytes, s.place = .writing bytes
  queue : connWriteQueueDepth ≤ s.queue.length
  writer : ∃ rest, s.writer = .writing rest
  bytes : eventQueueDepth + kernel.toService + kernel.fromService + 3 ≤
    s.writer.load + s.toService.length + s.service.load + s.fromService.length + s.reader.load +
      s.events.length
  toService : s.toService.length ≤ kernel.toService
  service : s.service.load ≤ 1
  fromService : s.fromService.length ≤ kernel.fromService
  reader : s.reader.load ≤ 1
  events : s.events.length ≤ eventQueueDepth

/-- How far the bytes are from the event queue. -/
def distance (s : Echo) : Nat :=
  5 * s.writer.load + 4 * s.toService.length + 3 * s.service.load + 2 * s.fromService.length +
    s.reader.load

theorem Dripping.step (dripping : s.Dripping kernel socketId) (among : act ∈ drips)
    (moves : Moves kernel socketId s act s' effects) :
    s'.Dripping kernel socketId ∧ s'.distance < s.distance := by
  have sound := moves.sound dripping.sound
  obtain ⟨left, writer⟩ := dripping.writer
  have bytes := dripping.bytes
  have toService := dripping.toService
  have service := dripping.service
  have fromService := dripping.fromService
  have reader := dripping.reader
  have events := dripping.events
  cases moves with
  | take | dropped | enqueue | enqueueFails | handle | sent | pump => simp [drips] at among
  | recvEnd _ idle | recv _ _ idle => cases idle.symm.trans writer
  | write n rest here _ _ room =>
      obtain rfl : n = 1 := by simpa [drips] using among
      rw [here, Writer.load_writing] at bytes
      have more : rest.length ≠ 1 := by omega
      refine ⟨{ dripping with
        sound := sound
        writer := ⟨rest.drop 1, if_neg more⟩
        bytes := ?_
        toService := ?_ }, ?_⟩
      · simp only [Writer.load_rest, List.length_append, List.length_take]
        omega
      · simp only [List.length_append, List.length_take]
        omega
      · simp only [distance, here, Writer.load_rest, Writer.load_writing, List.length_append,
          List.length_take]
        omega
  | serviceRead n here _ enough =>
      obtain rfl : n = 1 := by simpa [drips] using among
      rw [here, Service.load_reading] at bytes
      refine ⟨{ dripping with
        sound := sound
        bytes := ?_
        toService := ?_
        service := ?_ }, ?_⟩
      · simp only [Service.load_writing, List.length_drop, List.length_take]
        omega
      · simp only [List.length_drop]
        omega
      · simp only [Service.load_writing, List.length_take]
        omega
      · simp only [distance, here, Service.load_reading, Service.load_writing, List.length_drop,
          List.length_take]
        omega
  | serviceWrite n rest here _ enough room =>
      obtain rfl : n = 1 := by simpa [drips] using among
      rw [here, Service.load_writing] at bytes service
      refine ⟨{ dripping with
        sound := sound
        bytes := ?_
        service := ?_
        fromService := ?_ }, ?_⟩
      · simp only [Service.load_rest, List.length_append, List.length_take]
        omega
      · simp only [Service.load_rest]
        omega
      · simp only [List.length_append, List.length_take]
        omega
      · simp only [distance, here, Service.load_rest, Service.load_writing, List.length_append,
          List.length_take]
        omega
  | read n here _ enough =>
      obtain rfl : n = 1 := by simpa [drips] using among
      rw [here, Reader.load_reading] at bytes
      refine ⟨{ dripping with
        sound := sound
        bytes := ?_
        fromService := ?_
        reader := ?_ }, ?_⟩
      · simp only [Reader.load_sending, List.length_drop, List.length_take]
        omega
      · simp only [List.length_drop]
        omega
      · simp only [Reader.load_sending, List.length_take]
        omega
      · simp only [distance, here, Reader.load_reading, Reader.load_sending, List.length_drop,
          List.length_take]
        omega
  | event chunk here room =>
      have some_bytes := List.length_pos_iff.mpr (dripping.sound.reader chunk here)
      rw [here, Reader.load_sending] at bytes reader
      refine ⟨{ dripping with
        sound := sound
        bytes := ?_
        reader := Nat.zero_le _
        events := ?_ }, ?_⟩
      · simp only [Reader.load_reading, List.length_append, List.length_singleton]
        omega
      · simp only [List.length_append, List.length_singleton]
        omega
      · simp only [distance, here, Reader.load_reading, Reader.load_sending]
        omega

/-- The bytes go on until every stage is full. -/
theorem Dripping.wedges (dripping : s.Dripping kernel socketId) :
    ∃ log s', (system kernel socketId).Leads (· ∈ drips) s log s' ∧
      s'.Dripping kernel socketId ∧ s'.Wedged kernel := by
  refine Transition.System.leads_of_progress (P := fun _ s => s.Dripping kernel socketId)
    distance ?_ dripping
  intro _ s dripping unwedged
  obtain ⟨bytes, place⟩ := dripping.engine
  obtain ⟨rest, writes⟩ := dripping.writer
  obtain ⟨act, s', effects, among, stepped⟩ : s.CanDrip kernel socketId := by
    refine (writer_moves (dripping.sound.live_of_place place).2 dripping.sound
      (by rw [writes]; nofun) (.inr ⟨rest, writes⟩)).resolve_right ?_
    rintro ⟨writer, service, reader⟩
    exact unwedged ⟨⟨bytes, place⟩, dripping.queue, writer, service, reader⟩
  have next := dripping.step among (step_moves stepped)
  exact ⟨act, s', effects, among, stepped, next.1, next.2⟩

/-- The writer task holds a long frame and the write queue fills up behind it. -/
structure Filling (socketId : UInt32) (long : Bytes) (s : Echo) : Prop where
  registered : Registered socketId s.state
  place : s.place = .select ∨ s.place = .writing [0]
  queue : s.queue.length ≤ connWriteQueueDepth
  writer : s.writer = .writing long
  toService : s.toService = []
  service : s.service = .reading
  fromService : s.fromService = []
  reader : s.reader = .reading
  events : s.events = []
  outbound : s.outbound = []

theorem Filling.fills {long : Bytes} (filling : s.Filling socketId long) :
    ∃ log s', (system kernel socketId).Leads (· ∈ [.take [0], .enqueue]) s log s' ∧
      s'.Filling socketId long ∧ s'.place = .writing [0] ∧
        connWriteQueueDepth ≤ s'.queue.length := by
  let left (s : Echo) : Nat :=
    2 * (connWriteQueueDepth - s.queue.length) + if s.place = .select then 1 else 0
  refine Transition.System.leads_of_progress (P := fun _ s => s.Filling socketId long)
    left ?_ filling
  intro _ s filling unfinished
  rcases filling.place with place | place
  · have stepped : s.step kernel socketId (.take [0]) =
        some ({ s with place := .writing [0] }, []) := by
      simp only [step, place, filling.registered.found, Option.isSome_some, if_pos]
    refine ⟨.take [0], _, _, by simp, stepped, { filling with place := .inr rfl }, ?_⟩
    simp [left, place]
  · have room : s.queue.length < connWriteQueueDepth := by
      by_contra full
      exact unfinished ⟨place, Nat.le_of_not_lt full⟩
    obtain ⟨state, handled, registered⟩ := filling.registered.written [0]
    have both : s.writer ≠ .ended ∧ s.queue.length < connWriteQueueDepth :=
      ⟨by rw [filling.writer]; rintro ⟨⟩, room⟩
    have stepped : s.step kernel socketId .enqueue = some
        ({ s with state := state, place := .select, queue := s.queue ++ [[0]] },
          [.enqueued 0 [0]]) := by
      simp only [step, place, if_pos both, handled]
      rfl
    refine ⟨.enqueue, _, _, by simp, stepped, { filling with
      registered := registered
      place := .inl rfl
      queue := ?_ }, ?_⟩
    · rw [List.length_append]
      exact room
    · simp only [left, place, if_pos, List.length_append, List.length_singleton]
      rw [if_neg (by rintro ⟨⟩)]
      omega

/-- The writer task takes a long frame. -/
theorem filling_reachable (kernel : Kernel) (socketId : UInt32) {long : Bytes}
    (some_bytes : long ≠ []) :
    ∃ log s, (system kernel socketId).Reachable log s ∧ s.Filling socketId long := by
  have registered : Registered socketId (connected socketId).state :=
    ⟨AList.lookup_insert _, rfl⟩
  obtain ⟨state, handled, registered'⟩ := registered.written long
  let taken : Echo := { connected socketId with place := .writing long }
  let queued : Echo := { connected socketId with state := state, queue := [long] }
  let written : Echo := { connected socketId with state := state, writer := .writing long }
  have take : (system kernel socketId).step (connected socketId) (.take long) =
      some (taken, []) := by
    simp only [system, step, registered.found]
    rfl
  have enqueue : (system kernel socketId).step taken .enqueue =
      some (queued, [.enqueued 0 long]) := by
    have both : taken.writer ≠ .ended ∧ taken.queue.length < connWriteQueueDepth :=
      ⟨(by rintro ⟨⟩), Nat.zero_lt_succ _⟩
    simp only [system, step, taken] at both ⊢
    rw [if_pos both, handled]
    rfl
  have recv : (system kernel socketId).step queued .recv = some (written, []) := by
    simp only [system, step, queued, connected]
    rw [if_neg (by rwa [List.isEmpty_iff])]
    rfl
  exact ⟨_, written,
    ((Transition.System.Reaches.start.next _ trivial take).next _ trivial enqueue).next _ trivial
      recv,
    registered', .inl rfl, Nat.zero_le _, rfl, rfl, rfl, rfl, rfl, rfl, rfl⟩

theorem Filling.dripping {long : Bytes} (filling : s.Filling socketId long)
    (place : s.place = .writing [0]) (full : connWriteQueueDepth ≤ s.queue.length)
    (bytes : eventQueueDepth + kernel.toService + kernel.fromService + 3 ≤ long.length) :
    s.Dripping kernel socketId := by
  have some_bytes : long ≠ [] := by
    rintro rfl
    simp at bytes
  have sound : s.Sound socketId :=
    { conn := .inl ⟨filling.registered, by rw [filling.reader]; nofun⟩
      writer := fun rest writes => by
        cases filling.writer.symm.trans writes
        exact some_bytes
      ended := fun finished => nomatch filling.writer.symm.trans finished
      service := fun rest writes => nomatch filling.service.symm.trans writes
      reader := fun chunk sends => nomatch filling.reader.symm.trans sends
      events := by
        rw [filling.events]
        exact nofun
      frames := fun frames sends => nomatch place.symm.trans sends }
  refine ⟨sound, filling.outbound, ⟨[0], place⟩, full, ⟨long, filling.writer⟩,
    ?_, ?_, ?_, ?_, ?_, ?_⟩
  · rw [filling.writer, Writer.load_writing]
    omega
  · simp [filling.toService]
  · simp [filling.service]
  · simp [filling.fromService]
  · simp [filling.reader]
  · simp [filling.events]

/-- A ring that stands still never moves again. -/
theorem Wedged.stuck (wedged : s.Wedged kernel) (drained : s.outbound = []) (act : EchoAct) :
    s.step kernel socketId act = none := by
  obtain ⟨⟨bytes, place⟩, queue, ⟨left, writer, toService⟩, ⟨rest, service, fromService⟩,
    ⟨chunk, reader, events⟩⟩ := wedged
  cases act with
  | take => simp only [step, place]
  | enqueue =>
      simp only [step, place]
      apply if_neg
      rintro ⟨_, room⟩
      exact absurd queue (Nat.not_le_of_lt room)
  | enqueueFails =>
      simp only [step, place]
      exact if_neg (by rw [writer]; rintro ⟨⟩)
  | recv => simp only [step, writer]
  | write n =>
      simp only [step, writer]
      apply if_neg
      rintro ⟨_, _, room⟩
      omega
  | serviceRead => simp only [step, service]
  | serviceWrite n =>
      simp only [step, service]
      apply if_neg
      rintro ⟨_, _, room⟩
      omega
  | read => simp only [step, reader]
  | event =>
      simp only [step, reader]
      exact if_neg (Nat.not_lt_of_le events)
  | handle => simp only [step, place]
  | sent => simp only [step, place]
  | pump => simp only [step, drained]

/-- A frame that is longer than the ring, and enough frames behind it. -/
theorem wedged_reachable (kernel : Kernel) (socketId : UInt32) :
    ∃ log s, (system kernel socketId).Reachable log s ∧ s.Wedged kernel ∧ s.outbound = [] := by
  let long : Bytes := List.replicate (eventQueueDepth + kernel.toService + kernel.fromService + 3) 0
  have length : long.length = eventQueueDepth + kernel.toService + kernel.fromService + 3 :=
    List.length_replicate
  obtain ⟨log, s, run, filling⟩ := @filling_reachable kernel socketId long (by
    rw [← List.length_pos_iff, length]
    omega)
  obtain ⟨more, s', fills, filling, place, full⟩ := @Filling.fills kernel socketId s long filling
  obtain ⟨rest, s'', drips, dripping, wedged⟩ :=
    (filling.dripping place full (Nat.le_of_eq length.symm)).wedges
  exact ⟨_, s'', (run.leads (fun _ _ _ _ => trivial) fills).leads (fun _ _ _ _ => trivial) drips,
    wedged, dripping.outbound⟩

end Echo

open Echo

/-- The engine, the writer task, the service and the read task never all wait for each
other, and some of them can always go on while the ring holds anything, as long as the
engine takes a frame only when the ring is not full with it. -/
theorem echo_never_wedges {kernel : Kernel} {socketId : UInt32} {log : List EngineEffect} {s : Echo}
    (run : (Echo.system kernel socketId).Reaches (fun _ s act => s.within kernel act = true) log
      s) :
    ¬ s.Wedged kernel ∧ (s.load ≠ 0 → s.CanMove kernel socketId) := by
  obtain ⟨sound, below⟩ := load_lt_ring run
  have unwedged : ¬ s.Wedged kernel := fun wedged =>
    absurd (sound.ring_le_load wedged) (Nat.not_le_of_lt below)
  exact ⟨unwedged, sound.canMove unwedged⟩

/-- The writer task has a frame, 256 more fill its queue, and the engine waits with another one. -/
theorem echo_never_wedges_full_queue :
    ∃ log s, (Echo.system ⟨1, 1, Nat.one_pos, Nat.one_pos⟩ 7).Reaches
        (fun _ s act => s.within ⟨1, 1, Nat.one_pos, Nat.one_pos⟩ act = true) log s ∧
      s.place = .writing [9] ∧ s.queue.length = connWriteQueueDepth ∧
      ¬ s.Wedged ⟨1, 1, Nat.one_pos, Nat.one_pos⟩ ∧
      s.CanMove ⟨1, 1, Nat.one_pos, Nat.one_pos⟩ 7 := by
  obtain ⟨log, s, run, here⟩ : ∃ log s, (Echo.system ⟨1, 1, Nat.one_pos, Nat.one_pos⟩ 7).Reaches
      (fun _ s act => s.within ⟨1, 1, Nat.one_pos, Nat.one_pos⟩ act = true) log s ∧
        (s.place = .writing [9] && s.queue.length = connWriteQueueDepth && s.load ≠ 0) = true :=
    Transition.System.Reaches.exists_of_execute .start
      ([.take [5], .enqueue, .recv] ++ (List.replicate 256 [.take [5], .enqueue]).flatten ++
        [.take [9]]) (by decide +kernel)
  simp only [Bool.and_eq_true, decide_eq_true_eq] at here
  obtain ⟨⟨place, full⟩, loaded⟩ := here
  obtain ⟨unwedged, moves⟩ := echo_never_wedges run
  exact ⟨log, s, run, place, full, unwedged, moves loaded⟩

/-- With 64 KiB of kernel buffer in each direction the engine and the tasks of an echoing
destination come to stand still for good. -/
theorem echo_wedges_the_engine :
    ∃ log s, (Echo.system ⟨65536, 65536, by decide, by decide⟩ 7).Reachable log s ∧
      s.Wedged ⟨65536, 65536, by decide, by decide⟩ ∧
      ∀ act, s.step ⟨65536, 65536, by decide, by decide⟩ 7 act = none := by
  obtain ⟨log, s, run, wedged, drained⟩ :=
    wedged_reachable ⟨65536, 65536, by decide, by decide⟩ 7
  exact ⟨log, s, run, wedged, wedged.stuck drained⟩

end Forward

end Et
