import EtClient.Backed.Offline

/-!
# What the writer frames and what the reader takes

`write` frames every packet it accepts, of any size, and narrows the length to 32 bits. The
reader task refuses a length above `MAX_PACKET_LENGTH`. A packet that stays within that cap,
with the bytes of the authenticator and of the header, is received as it was serialized. A
larger one is written and enqueued all the same, and the peer's reader task gives up on it.
-/

namespace Et

namespace Backed

/-- Whatever a write enqueues is the frame of the packet that it serialized. -/
theorem Actor.frame_of_queued {box : SecretBox} {now : Instant} {accepts : Bool} {s : Actor}
    {header : UInt8} {payload : Bytes} {socket : SocketId} {frame : Bytes}
    (queued : .queued socket frame ∈ (s.write box now accepts header payload).2.2) :
    frame = framePacket (s.nextFrame box header payload).2 := by
  obtain ⟨failure, _, result⟩ | ⟨_, _, crypto, serialized, next, result⟩ :=
    s.write_cases box now accepts header payload
  · rw [result] at queued
    simp at queued
  · rw [result] at queued
    obtain ⟨_, _, _, _, effects⟩ | ⟨_, _, effects⟩ :=
      (s.pushBackup crypto serialized).handOver_effects now accepts serialized
    · rw [effects] at queued
      rw [next]
      simp_all
    · rw [effects] at queued
      simp at queued

/-- A write that succeeds on a live socket whose queue has room enqueues that frame. -/
theorem Actor.queued_of_write {box : SecretBox} {now : Instant} {s : Actor} {header : UInt8}
    {payload : Bytes} {socket : SocketId} (live : s.live = some socket)
    (wrote : (s.write box now true header payload).2.1 = none) :
    .queued socket (framePacket (s.nextFrame box header payload).2) ∈
      (s.write box now true header payload).2.2 := by
  obtain ⟨failure, _, result⟩ | ⟨_, _, crypto, serialized, next, result⟩ :=
    s.write_cases box now true header payload
  · rw [result] at wrote
    cases wrote
  · rw [result, next, handOver_of_live ((s.pushBackup_live crypto serialized).trans live)]
    exact List.mem_cons_of_mem _ (List.mem_append_left _ List.mem_cons_self)

/-- A packet that was enqueued is received as it was serialized, whatever follows its frame, just
when it is within the cap of the reader task. -/
theorem queued_frame_received {box : SecretBox} (lawful : box.Lawful) (now : Instant)
    (accepts : Bool) (s : Actor) (header : UInt8) (payload : Bytes) (socket : SocketId)
    (frame : Bytes) (queued : .queued socket frame ∈ (s.write box now accepts header payload).2.2)
    (rest : Bytes) :
    readFramed maxPacketLength (frame ++ rest) =
        some ((s.nextFrame box header payload).2, rest) ↔
      payload.length + macBytes + Packet.headerSize ≤ maxPacketLength := by
  have length : (s.nextFrame box header payload).2.length =
      payload.length + macBytes + Packet.headerSize := Actor.length_nextFrame lawful rfl
  rw [Actor.frame_of_queued queued, ← length]
  exact readFramed_framePacket_iff (by decide) _ rest

/-- The actor of a fresh connection on socket zero. -/
def freshActor : Actor := (Task.spawn (.client testKey none) 0 0).actor

theorem queued_frame_received_one_byte :
    readFramed maxPacketLength
        (framePacket (freshActor.nextFrame .naming terminalBuffer [7]).2 ++ [1, 2]) =
      some ((freshActor.nextFrame .naming terminalBuffer [7]).2, [1, 2]) :=
  (queued_frame_received SecretBox.naming_lawful 0 true freshActor terminalBuffer [7] 0 _
    (List.mem_cons_of_mem _ List.mem_cons_self) [1, 2]).2 (by decide)

/-- A packet of 128 MiB is accepted and enqueued, and the reader task gives up on its frame,
whatever follows. -/
theorem oversized_frame_refused : ∃ payload frame,
    (freshActor.write .naming 0 true terminalBuffer payload).2.1 = none ∧
    .queued 0 frame ∈ (freshActor.write .naming 0 true terminalBuffer payload).2.2 ∧
    ∀ rest, readFramed maxPacketLength (frame ++ rest) = none := by
  generalize sized : List.replicate (2 ^ 27) (0 : UInt8) = payload
  have length : payload.length = 2 ^ 27 := by
    rw [← sized]
    exact List.length_replicate
  have serialized : (freshActor.nextFrame .naming terminalBuffer payload).2.length =
      2 ^ 27 + macBytes + Packet.headerSize := by
    rw [← length]
    exact Actor.length_nextFrame SecretBox.naming_lawful rfl
  refine ⟨payload, framePacket (freshActor.nextFrame .naming terminalBuffer payload).2, rfl, ?_, ?_⟩
  · exact List.mem_cons_of_mem _ List.mem_cons_self
  · intro rest
    rw [readFramed_framePacket_append, serialized]
    rfl

end Backed

end Et
