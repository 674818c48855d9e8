import EtClient.Backed.Backup
import EtClient.Backed.Offline

/-!
# Rounds of the loop

A round starts and ends at the `select!` with nothing to deliver. The lemmas below say
which rounds there are: one for a write on the live socket, one for a write without it,
one for a kill, one for a recover and one for a frame. They put runs together that are
too long, or whose packets are too large, to be executed.
-/

namespace Et

namespace Backed

namespace Actor

/-- The task of an actor at the `select!`. -/
def rested (s : Actor) : Task := ⟨s, .select, none, true⟩

/-- Nothing is left to do behind an arm of the `select!`. -/
structure Calm (s : Actor) : Prop where
  up : s.shuttingDown = false
  told : s.socketDownPending = false
  empty : s.inbox = []

/-- A write that is handed to the live socket. -/
theorem write_of_live {box : SecretBox} {s : Actor} {socket : SocketId} {header : UInt8}
    {payload frame : Bytes} {crypto : CryptoHandler} (up : s.shuttingDown = false)
    (closed : s.disconnectedBytes = none) (live : s.live = some socket)
    (boxed : s.nextFrame box header payload = (crypto, frame)) (now : Instant) :
    s.write box now true header payload =
      ({ s.pushBackup crypto frame with lastActivity := now }, none,
        [.encrypted crypto.nonce header payload frame, .queued socket (framePacket frame),
          .wrote none]) := by
  have room : s.disconnectBufferFull payload = false := by rw [disconnectBufferFull, closed]
  obtain ⟨_, refused, _⟩ | ⟨_, _, crypto', frame', boxed', done⟩ :=
    write_cases box now true s header payload
  · exact absurd refused (by simp [up, room])
  · cases boxed.symm.trans boxed'
    rw [done, handOver_of_live ((s.pushBackup_live crypto frame).trans live)]
    rfl

/-- A write that is only buffered. -/
theorem write_of_offline {box : SecretBox} {s : Actor} {header : UInt8} {payload frame : Bytes}
    {crypto : CryptoHandler} (up : s.shuttingDown = false)
    (room : s.disconnectBufferFull payload = false) (offline : s.live = none)
    (boxed : s.nextFrame box header payload = (crypto, frame)) (now : Instant) :
    s.write box now true header payload =
      ((s.pushBackup crypto frame).chargeLedger frame, none,
        [.encrypted crypto.nonce header payload frame, .wrote none]) := by
  obtain ⟨_, refused, _⟩ | ⟨_, _, crypto', frame', boxed', done⟩ :=
    write_cases box now true s header payload
  · exact absurd refused (by simp [up, room])
  · cases boxed.symm.trans boxed'
    rw [done, handOver_of_offline ((s.pushBackup_live crypto frame).trans offline)]
    rfl

theorem Calm.pushBackup {s : Actor} (calm : s.Calm) (crypto : CryptoHandler) (frame : Bytes) :
    (s.pushBackup crypto frame).Calm := by
  rw [Actor.pushBackup]
  split <;> exact ⟨calm.up, calm.told, calm.empty⟩

end Actor

/-- A run comes to the `select!` with this actor and nothing to deliver. -/
structure Rests (box : SecretBox) (cfg : BackedConfig) (start : Instant) (s : Actor) : Prop where
  calm : s.Calm
  reached : ∃ log, (Task.system box cfg start).Reachable log s.rested

namespace Rests

variable {box : SecretBox} {cfg : BackedConfig} {start : Instant} {s : Actor}

theorem spawn : Rests box cfg start (Task.spawn cfg start 0).actor :=
  ⟨⟨rfl, rfl, rfl⟩, [], .start⟩

/-- The delivery loop finds nothing. -/
private theorem step_drained (up : s.shuttingDown = false) (empty : s.inbox = []) :
    (Task.system box cfg start).step ⟨s, .deliver, none, true⟩ (.deliver 0) =
      some (s.rested, []) := by
  simp [Task.system, Task.step, Task.delivered, Actor.deliverOne, empty, up, Actor.rested]

/-- Behind an arm the loop comes back to the `select!`. -/
theorem of_armDone (calm : s.Calm) {log : List Effect}
    (run : (Task.system box cfg start).Reachable log ⟨s, .armDone, none, true⟩) :
    Rests box cfg start s := by
  have settled : (Task.system box cfg start).step ⟨s, .armDone, none, true⟩ .settle =
      some (⟨s, .deliver, none, true⟩, []) := by
    simp [Task.system, Task.step, Task.settled, calm.up, calm.told]
  have ends := (run.next .settle trivial settled).next _ trivial (step_drained calm.up calm.empty)
  exact ⟨calm, _, ends⟩

theorem write_live {socket : SocketId} {header : UInt8} {payload frame : Bytes}
    {crypto : CryptoHandler} (rests : Rests box cfg start s) (closed : s.disconnectedBytes = none)
    (live : s.live = some socket) (boxed : s.nextFrame box header payload = (crypto, frame)) :
    Rests box cfg start { s.pushBackup crypto frame with lastActivity := 0 } := by
  obtain ⟨calm, log, run⟩ := rests
  have written := Actor.write_of_live calm.up closed live boxed 0
  have stepped : (Task.system box cfg start).step s.rested (.write 0 true header payload) =
      some (⟨{ s.pushBackup crypto frame with lastActivity := 0 }, .armDone, none, true⟩,
        [.encrypted crypto.nonce header payload frame, .queued socket (framePacket frame),
          .wrote none]) := by
    simp [Task.system, Task.step, Task.serves, Task.served, Actor.rested, written]
  have calm' := calm.pushBackup crypto frame
  exact of_armDone ⟨calm'.up, calm'.told, calm'.empty⟩ (run.next _ trivial stepped)

theorem write_offline {header : UInt8} {payload frame : Bytes} {crypto : CryptoHandler}
    (rests : Rests box cfg start s) (room : s.disconnectBufferFull payload = false)
    (offline : s.live = none) (boxed : s.nextFrame box header payload = (crypto, frame)) :
    Rests box cfg start ((s.pushBackup crypto frame).chargeLedger frame) := by
  obtain ⟨calm, log, run⟩ := rests
  have written := Actor.write_of_offline calm.up room offline boxed 0
  have stepped : (Task.system box cfg start).step s.rested (.write 0 true header payload) =
      some (⟨(s.pushBackup crypto frame).chargeLedger frame, .armDone, none, true⟩,
        [.encrypted crypto.nonce header payload frame, .wrote none]) := by
    simp [Task.system, Task.step, Task.serves, Task.served, Actor.rested, written]
  have calm' := calm.pushBackup crypto frame
  exact of_armDone ⟨calm'.up, calm'.told, calm'.empty⟩ (run.next _ trivial stepped)

theorem kill {socket : SocketId} (rests : Rests box cfg start s) (live : s.live = some socket) :
    Rests box cfg start { s.closeCurrentSocket with socketDownPending := false } := by
  obtain ⟨calm, log, run⟩ := rests
  have killed : (Task.system box cfg start).step s.rested .killSocket =
      some (⟨s.closeCurrentSocket, .armDone, none, true⟩, []) := rfl
  have settled : (Task.system box cfg start).step ⟨s.closeCurrentSocket, .armDone, none, true⟩
      .settle =
        some (⟨{ s.closeCurrentSocket with socketDownPending := false }, .notify, none, true⟩,
          []) := by
    simp [Task.system, Task.step, Task.settled, Actor.closeCurrentSocket, calm.up, live]
  have told := ((run.next _ trivial killed).next _ trivial settled).next .send trivial rfl
  exact ⟨⟨calm.up, rfl, calm.empty⟩, _, told.next _ trivial (step_drained calm.up calm.empty)⟩

/-- An exchange up to the number of the peer. -/
theorem ask (rests : Rests box cfg start s) (stream : SocketId) :
    ∃ log, (Task.system box cfg start).Reachable log
      ⟨{ s with live := none }, .select, some ⟨stream, s.live, .readSequence⟩, true⟩ := by
  obtain ⟨-, log, run⟩ := rests
  have asked : (Task.system box cfg start).step s.rested (.recover stream) =
      some (⟨{ s with live := none }, .select, some ⟨stream, s.live, .writeSequence⟩, true⟩,
        []) := rfl
  exact ⟨_, (run.next _ trivial asked).next .sequenceSent trivial rfl⟩

/-- An exchange up to our catch-up. -/
theorem answer {remote : SequenceHeader} {ours : CatchupBuffer} (rests : Rests box cfg start s)
    (chosen : s.catchup remote = .ok ours) (stream : SocketId) :
    ∃ log, .sentCatchup stream ours ∈ log ∧ (Task.system box cfg start).Reachable log
      ⟨{ s with live := none }, .select, some ⟨stream, s.live, .readCatchup⟩, true⟩ := by
  obtain ⟨log, run⟩ := rests.ask stream
  let under (phase : Phase) : Task :=
    ⟨{ s with live := none }, .select, some ⟨stream, s.live, phase⟩, true⟩
  have answered : (Task.system box cfg start).step (under .readSequence) (.sequenceRead remote) =
      some (under (.writeCatchup ours), []) :=
    (@Task.step_sequenceRead (under .readSequence) box _ rfl rfl remote).1 ours chosen
  refine ⟨_, ?_, (run.next _ trivial answered).next .catchupSent trivial rfl⟩
  exact List.mem_append_right _ List.mem_cons_self

theorem recover {remote : SequenceHeader} {ours : CatchupBuffer} (rests : Rests box cfg start s)
    (chosen : s.catchup remote = .ok ours) (stream : SocketId) :
    Rests box cfg start (s.revive 0 stream []) := by
  obtain ⟨log, -, answered⟩ := rests.answer chosen stream
  have revived : (s.revive 0 stream []).Calm := by
    refine ⟨rests.calm.up, rests.calm.told, ?_⟩
    rw [Actor.revive, rests.calm.empty]
    rfl
  exact of_armDone revived (answered.next (.catchupRead 0 ⟨[]⟩) trivial rfl)

/-- A frame arrives and its packet is delivered. -/
theorem frame {s' : Actor} {bytes : Bytes} {p : Packet} {effects : List Effect}
    (rests : Rests box cfg start s) (live : s.live.isSome = true) (calm' : s'.Calm)
    (opened : ({ s with inbox := [bytes] } : Actor).deliverOne box 0 = (s', .packet p, effects)) :
    Rests box cfg start s' := by
  obtain ⟨calm, log, run⟩ := rests
  let holding (pc : Pc) : Task := ⟨{ s with inbox := [bytes] }, pc, none, true⟩
  have arrived : (Task.system box cfg start).step s.rested (.frame bytes) =
      some (holding .armDone, []) := by
    simp [Task.system, Task.step, Actor.rested, live, calm.empty, holding]
  have settled : (Task.system box cfg start).step (holding .armDone) .settle =
      some (holding .deliver, []) := by
    simp [Task.system, Task.step, Task.settled, calm.up, calm.told, holding]
  have popped : (Task.system box cfg start).step (holding .deliver) (.deliver 0) =
      some (⟨s', .sending p, none, true⟩, effects) := by
    simp [Task.system, Task.step, Task.delivered, opened, holding]
  have ready := ((run.next _ trivial arrived).next _ trivial settled).next _ trivial popped
  have sent := ready.next .send trivial rfl
  exact ⟨calm', _, sent.next _ trivial (step_drained calm'.up calm'.empty)⟩

end Rests

end Backed

end Et
