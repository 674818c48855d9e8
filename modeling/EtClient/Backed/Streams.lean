import EtClient.Backed.Framing
import EtClient.Proto.Framing

/-!
# Streams of packets

Packets are framed in two places, by `write_framed_packet` and by the actor's `write`, and
frames are read in two places, by `read_framed_packet` and by the reader task, which leaves
the parsing to the actor. However the two are paired, a stream of frames yields the packets
that were written. When the stream is cut somewhere, be it inside a length, inside a packet or
between two frames, it yields those whose frames are whole, and then an error.

On bytes that nobody framed the two readers still agree: they find the same packets and stop
at the same frame. The frames of the handshake obey the law of the packet frames.
-/

namespace Et

namespace Backed

/-- A frame that `write_framed_packet` puts out, or one that the actor's `write` hands to the
socket for a packet it has encrypted. -/
inductive Framed (box : SecretBox) : Packet → Bytes → Prop
  | written (packet : Packet) (frame : Bytes) (w w' : Outlet) :
      writeFramedPacket packet w = .ok () w' → w'.written = w.written ++ frame →
      Framed box packet frame
  | queued (s : Actor) (now : Instant) (accepts : Bool) (header : UInt8) (payload : Bytes)
      (socket : SocketId) (frame : Bytes) :
      .queued socket frame ∈ (s.write box now accepts header payload).2.2 →
      Framed box ((Packet.new header payload).encrypt box s.writerCrypto
        (Packet.encrypted_new header payload)).2 frame

/-- A frame that `write_proto_frame` puts out. -/
def ProtoFramed (body frame : Bytes) : Prop :=
  ∃ w w', writeProtoFrame body w = .ok () w' ∧ w'.written = w.written ++ frame

theorem Framed.eq {box : SecretBox} {packet : Packet} {frame : Bytes}
    (framed : Framed box packet frame) : frame = framePacket packet.serialize := by
  cases framed with
  | written _ _ w w' done out => exact frame_of_writeFramedPacket done out
  | queued s now accepts header payload socket _ queued => exact Actor.frame_of_queued queued

/-- The frames of `reader_task`, up to the first error. -/
def frameReader : Frames.Reader Bytes UInt8 Unit where
  read stream :=
    match readFramed maxPacketLength stream with
    | some (buf, rest) => .ok buf rest
    | none => .error () []
  progress := by
    intro stream buf rest found
    dsimp only at found
    split at found
    · rename_i framed
      cases found
      simp only [readFramed] at framed
      split at framed
      · cases framed
      split at framed
      · cases framed
      split at framed
      · cases framed
      · cases framed
        rw [List.length_drop, List.length_drop]
        omega
    · cases found

/-- What `reader_task` sends to the actor: the frames, and the error that it stops at. -/
def readerTask (stream : Bytes) : List (Option Bytes) :=
  (frameReader.readAll stream).1.map some ++ [none]

theorem readerTask_of_some {stream buf rest : Bytes}
    (framed : readFramed maxPacketLength stream = some (buf, rest)) :
    readerTask stream = some buf :: readerTask rest := by
  have found : frameReader.read stream = .ok buf rest := by
    simp only [frameReader, framed]
  rw [readerTask, Frames.Reader.readAll_of_ok found]
  rfl

theorem readerTask_of_none {stream : Bytes} (refused : readFramed maxPacketLength stream = none) :
    readerTask stream = [none] := by
  have failed : frameReader.read stream = .error () [] := by
    simp only [frameReader, refused]
  rw [readerTask, Frames.Reader.readAll_of_error failed]
  rfl

/-- `Packet::parse` on what the reader task sends, up to the first error of either. -/
def parsePackets : List (Option Bytes) → List Packet
  | some buf :: items =>
      match Packet.parse buf with
      | some packet => packet :: parsePackets items
      | none => []
  | _ => []

/-- A loop of `read_framed_packet` with these packets and this error stops where the reader
task followed by `Packet::parse` does: at the same frame, which is refused by the reader or
else by the parser. -/
structure Agrees (items : List (Option Bytes)) (packets : List Packet) (error : FrameError) :
    Prop where
  parsed : parsePackets items = packets
  stop : ∃ item, items[packets.length]? = some item ∧ item.bind Packet.parse = none ∧
    (item = none ↔ error ≠ .invalidPacket)

theorem Agrees.cons {items : List (Option Bytes)} {packets : List Packet} {error : FrameError}
    (agrees : Agrees items packets error) {buf : Bytes} {packet : Packet}
    (parsed : Packet.parse buf = some packet) :
    Agrees (some buf :: items) (packet :: packets) error where
  parsed := by
    rw [parsePackets, parsed]
    exact congrArg (packet :: ·) agrees.parsed
  stop := by
    obtain ⟨item, there, stops⟩ := agrees.stop
    refine ⟨item, ?_, stops⟩
    rw [List.length_cons, List.getElem?_cons_succ]
    exact there

/-- Both readers take the same bytes for a frame, so they stop at the same one. -/
theorem readerTask_agrees (failure : IoError) (stream : Bytes) :
    Agrees (readerTask stream) ((packetReader failure maxPacketLength).readAll stream).1
      ((packetReader failure maxPacketLength).readAll stream).2 := by
  induction sized : stream.length using Nat.strong_induction_on generalizing stream with
  | _ n ih =>
      cases framed : readFramed maxPacketLength stream with
      | none =>
          obtain ⟨e, rest, unparsed, failed⟩ := readFramedPacket_of_none failure framed
          rw [readerTask_of_none framed, Frames.Reader.readAll_of_error failed]
          exact ⟨rfl, none, rfl, rfl, by simpa using unparsed⟩
      | some frame =>
          obtain ⟨buf, rest⟩ := frame
          have reads := readFramedPacket_of_some failure framed
          rw [readerTask_of_some framed]
          cases parsed : Packet.parse buf with
          | none =>
              rw [parsed] at reads
              rw [Frames.Reader.readAll_of_error reads]
              refine ⟨?_, some buf, rfl, parsed, by simp⟩
              rw [parsePackets, parsed]
          | some packet =>
              rw [parsed] at reads
              rw [Frames.Reader.readAll_of_ok reads]
              have shorter : rest.length < stream.length :=
                (packetReader failure maxPacketLength).progress _ _ _ reads
              exact (ih _ (sized ▸ shorter) rest rfl).cons parsed

theorem packets_of_cut {box : SecretBox} (failure : IoError) {maxLen : Nat}
    (narrow : maxLen < 2 ^ 32) {packets : List Packet} {frames : List Bytes}
    (framed : List.Forall₂ (Framed box) packets frames)
    (fits : ∀ packet ∈ packets, packet.serialize.length ≤ maxLen) (n : Nat) :
    (packetReader failure maxLen).readAll (frames.flatten.take n) =
      (packets.take (Frames.within n frames), .mapIo failure) := by
  refine Frames.readAll_take (Frames.Reader.readAll_of_error rfl) ?_ n
  induction framed with
  | nil => exact .nil
  | cons frame _ ih =>
      rw [List.forall_mem_cons] at fits
      refine .cons ?_ (ih fits.2)
      rw [frame.eq]
      exact reads_readFramedPacket narrow fits.1

theorem bodies_of_cut (failure : IoError) {maxLen : Int64} {bodies frames : List Bytes}
    (framed : List.Forall₂ ProtoFramed bodies frames)
    (fits : ∀ body ∈ bodies, (body.length : Int) ≤ maxLen.toInt) (n : Nat) :
    (protoReader failure maxLen).readAll (frames.flatten.take n) =
      (bodies.take (Frames.within n frames), .mapIo failure) := by
  refine Frames.readAll_take (Frames.Reader.readAll_of_error rfl) ?_ n
  induction framed with
  | nil => exact .nil
  | cons frame _ ih =>
      rw [List.forall_mem_cons] at fits
      obtain ⟨w, w', done, out⟩ := frame
      refine .cons ?_ (ih fits.2)
      rw [frame_of_writeProtoFrame done out]
      exact reads_readProtoFrame fits.1

/-- Each of the three writers returns `Ok` where there is room and puts out the frame of its
packet or message. A stream of packet frames, cut after any number of bytes, yields the packets
whose frames are whole, in order, and then the error behind the last byte. On every stream of
bytes `read_framed_packet` and the reader task with `Packet::parse` find the same packets and
stop at the same frame. A stream of handshake frames, cut after any number of bytes, yields the
messages whose frames are whole, and then the error. -/
theorem frame_streams_decode (box : SecretBox) (failure : IoError) :
    (∀ (packet : Packet) (w : Outlet), 4 + packet.serialize.length ≤ w.room →
      writeFramedPacket packet w = .ok () (w.put (framePacket packet.serialize))) ∧
    (∀ (s : Actor) (now : Instant) (header : UInt8) (payload : Bytes) (socket : SocketId),
      s.live = some socket → (s.write box now true header payload).2.1 = none →
      .queued socket (framePacket ((Packet.new header payload).encrypt box s.writerCrypto
          (Packet.encrypted_new header payload)).2.serialize) ∈
        (s.write box now true header payload).2.2) ∧
    (∀ (body : Bytes) (w : Outlet), 8 + body.length ≤ w.room →
      writeProtoFrame body w = .ok () (w.put (protoFrame body))) ∧
    (∀ (maxLen : Nat) (packets : List Packet) (frames : List Bytes) (n : Nat),
      maxLen < 2 ^ 32 → List.Forall₂ (Framed box) packets frames →
      (∀ packet ∈ packets, packet.serialize.length ≤ maxLen) →
      ∃ k, IsGreatest {k | k ≤ frames.length ∧ (frames.take k).flatten.length ≤ n} k ∧
        (packetReader failure maxLen).readAll (frames.flatten.take n) =
          (packets.take k, .mapIo failure)) ∧
    (∀ stream, Agrees (readerTask stream)
      ((packetReader failure maxPacketLength).readAll stream).1
      ((packetReader failure maxPacketLength).readAll stream).2) ∧
    (∀ (maxLen : Int64) (bodies frames : List Bytes) (n : Nat),
      List.Forall₂ ProtoFramed bodies frames →
      (∀ body ∈ bodies, (body.length : Int) ≤ maxLen.toInt) →
      ∃ k, IsGreatest {k | k ≤ frames.length ∧ (frames.take k).flatten.length ≤ n} k ∧
        (protoReader failure maxLen).readAll (frames.flatten.take n) =
          (bodies.take k, .mapIo failure)) := by
  refine ⟨?_, ?_, ?_, ?_, readerTask_agrees failure, ?_⟩
  · intro packet w room
    refine writeFramedPacket_of_room ?_
    rw [framePacket, List.length_append, List.length_reverse, LittleEndian.length_encode]
    exact room
  · intro s now header payload socket live wrote
    exact Actor.queued_of_write live wrote
  · intro body w room
    refine writeProtoFrame_of_room ?_
    rw [protoFrame, List.length_append, LittleEndian.length_encode]
    exact room
  · intro maxLen packets frames n narrow framed fits
    exact ⟨_, Frames.isGreatest_within n frames, packets_of_cut failure narrow framed fits n⟩
  · intro maxLen bodies frames n framed fits
    exact ⟨_, Frames.isGreatest_within n frames, bodies_of_cut failure framed fits n⟩

/-- Of two packets the second is cut inside its length, of two messages the second inside its
body. -/
theorem frame_streams_decode_cut_inside :
    writeFramedPacket (Packet.new terminalBuffer [7]) ⟨[1], 20, earlyEof⟩ =
      .ok () ⟨[1, 0, 0, 0, 3, 0, 1, 7], 13, earlyEof⟩ ∧
    .queued 0 (framePacket (freshActor.nextFrame .naming terminalBuffer [7]).2) ∈
      (freshActor.write .naming 0 true terminalBuffer [7]).2.2 ∧
    writeProtoFrame [5] ⟨[1], 20, earlyEof⟩ =
      .ok () ⟨[1, 1, 0, 0, 0, 0, 0, 0, 0, 5], 11, earlyEof⟩ ∧
    (packetReader earlyEof 100).readAll [0, 0, 0, 3, 0, 1, 7, 0, 0] =
      ([Packet.new terminalBuffer [7]], .closed) ∧
    Agrees (readerTask [0, 0, 0, 1, 9])
      ((packetReader earlyEof maxPacketLength).readAll [0, 0, 0, 1, 9]).1
      ((packetReader earlyEof maxPacketLength).readAll [0, 0, 0, 1, 9]).2 ∧
    (protoReader earlyEof 100).readAll [1, 0, 0, 0, 0, 0, 0, 0, 5, 2, 0, 0, 0, 0, 0, 0, 0, 6] =
      ([[5]], .closed) := by
  obtain ⟨written, queued, put, packets, readers, bodies⟩ :=
    frame_streams_decode .naming earlyEof
  refine ⟨written _ _ (by decide), queued freshActor 0 _ _ 0 rfl rfl, put _ _ (by decide), ?_,
    readers _, ?_⟩
  · obtain ⟨k, greatest, read⟩ := packets 100
      [Packet.new terminalBuffer [7], Packet.new keepAlive []]
      [[0, 0, 0, 3, 0, 1, 7], [0, 0, 0, 2, 0, 0]] 9 (by decide)
      (.cons (.written _ _ ⟨[], 20, earlyEof⟩ _ rfl rfl)
        (.cons (.written _ _ ⟨[], 20, earlyEof⟩ _ rfl rfl) .nil)) (by decide)
    rw [greatest.unique (Frames.isGreatest_within _ _)] at read
    exact read
  · obtain ⟨k, greatest, read⟩ := bodies 100 [[5], [6, 7]]
      [[1, 0, 0, 0, 0, 0, 0, 0, 5], [2, 0, 0, 0, 0, 0, 0, 0, 6, 7]] 18
      (.cons ⟨⟨[], 20, earlyEof⟩, _, rfl, rfl⟩ (.cons ⟨⟨[], 20, earlyEof⟩, _, rfl, rfl⟩ .nil))
      (by decide)
    rw [greatest.unique (Frames.isGreatest_within _ _)] at read
    exact read

end Backed

end Et
