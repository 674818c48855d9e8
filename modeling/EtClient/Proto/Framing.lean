import EtClient.Lib.Frames
import EtClient.Proto.Wire

/-!
# The two frame formats

Handshake messages are framed by a 64-bit little-endian length, packets on the TCP legs by a
32-bit big-endian one. Both writers put the length in front of the bytes; both readers refuse
a length that is out of bounds before they read on.

A reader is given the bytes that arrive and the error behind them: at the end of the stream
that is an unexpected end of file. A writer keeps the bytes that it has taken and fails when
its room is used up, in the middle of a buffer if need be.
-/

namespace Et

/-- The kinds of `std::io::Error` that are told apart. -/
inductive ErrorKind
  | unexpectedEof
  | other
  deriving DecidableEq

/-- `std::io::Error`, with the text that it displays. -/
structure IoError where
  kind : ErrorKind
  text : String
  deriving DecidableEq

inductive FrameError
  | closed
  | invalidLength (len : Int64)
  | invalidPacket
  | io (error : IoError)
  deriving DecidableEq

namespace FrameError

def mapIo (err : IoError) : FrameError :=
  if err.kind = .unexpectedEof then .closed else .io err

def message : FrameError → String
  | .closed => "connection closed"
  | .invalidLength len => s!"frame of {len} bytes exceeds the allowed maximum"
  | .invalidPacket => "truncated or malformed packet"
  | .io error => error.text

theorem mapIo_ne_invalidPacket (err : IoError) : mapIo err ≠ .invalidPacket := by
  rw [mapIo]
  split <;> simp

end FrameError

/-- `read_exact` on a stream that fails with `failure` behind its bytes. -/
def readExact (failure : IoError) (len : Nat) : EStateM IoError Bytes Bytes :=
  Frames.takeExact failure len

/-- The failure of `read_exact` at the end of a file. -/
def earlyEof : IoError := ⟨.unexpectedEof, "early eof"⟩

/-- `read_proto_frame`. -/
def readProtoFrame (failure : IoError) (maxLen : Int64) : EStateM FrameError Bytes Bytes := do
  let lenBuf ← (readExact failure 8).adaptExcept .mapIo
  let len := Int64.ofNat (LittleEndian.value lenBuf)
  if 0 ≤ len ∧ len ≤ maxLen then (readExact failure len.toNatClampNeg).adaptExcept .mapIo
  else throw (.invalidLength len)

/-- `read_framed_packet`. -/
def readFramedPacket (failure : IoError) (maxLen : Nat) : EStateM FrameError Bytes Packet := do
  let lenBuf ← (readExact failure 4).adaptExcept .mapIo
  let len := LittleEndian.value lenBuf.reverse
  if maxLen < len then throw (.invalidLength (Int64.ofNat len))
  else
    let buf ← (readExact failure len).adaptExcept .mapIo
    match Packet.parse buf with
    | some packet => pure packet
    | none => throw .invalidPacket

/-- The bytes that a writer has taken, and how many more it takes before a write fails. -/
structure Outlet where
  written : Bytes
  room : Nat
  failure : IoError
  deriving DecidableEq

/-- `write_all`: a write that fails has put out what there was room for. -/
def writeAll (bytes : Bytes) : EStateM IoError Outlet Unit := fun w =>
  if bytes.length ≤ w.room then
    .ok () { w with written := w.written ++ bytes, room := w.room - bytes.length }
  else .error w.failure { w with written := w.written ++ bytes.take w.room, room := 0 }

/-- `write_proto_frame`. -/
def writeProtoFrame (bytes : Bytes) : EStateM FrameError Outlet Unit := do
  (writeAll (LittleEndian.encode 8 bytes.length)).adaptExcept .io
  (writeAll bytes).adaptExcept .io

/-- `write_framed_packet`. -/
def writeFramedPacket (packet : Packet) : EStateM FrameError Outlet Unit := do
  let bytes := packet.serialize
  (writeAll (LittleEndian.encode 4 bytes.length).reverse).adaptExcept .io
  (writeAll bytes).adaptExcept .io

/-- Two writes are one. -/
theorem writeAll_append (xs ys : Bytes) :
    (do writeAll xs; writeAll ys) = writeAll (xs ++ ys) := by
  funext w
  by_cases first : xs.length ≤ w.room
  · by_cases second : ys.length ≤ w.room - xs.length
    · simp only [bind, EStateM.bind, writeAll, if_pos first, if_pos second, List.length_append,
        if_pos (show xs.length + ys.length ≤ w.room by omega), List.append_assoc, Nat.sub_sub]
    · simp only [bind, EStateM.bind, writeAll, if_pos first, if_neg second, List.length_append,
        if_neg (show ¬ xs.length + ys.length ≤ w.room by omega), List.append_assoc,
        List.take_append, List.take_of_length_le first]
  · have none : w.room - xs.length = 0 := by omega
    simp only [bind, EStateM.bind, writeAll, if_neg first, List.length_append,
      if_neg (show ¬ xs.length + ys.length ≤ w.room by omega), List.take_append, none,
      List.take_zero, List.append_nil]

theorem writeAll_nil : writeAll [] = pure () := by
  funext w
  simp [writeAll, pure, EStateM.pure]

theorem written_of_writeAll {bytes : Bytes} {w w' : Outlet}
    (done : writeAll bytes w = .ok () w') : w'.written = w.written ++ bytes := by
  rw [writeAll] at done
  split at done
  · cases done
    rfl
  · cases done

/-- The outlet that has taken some bytes more. -/
def Outlet.put (w : Outlet) (bytes : Bytes) : Outlet :=
  { w with written := w.written ++ bytes, room := w.room - bytes.length }

theorem writeAll_of_room {bytes : Bytes} {w : Outlet} (room : bytes.length ≤ w.room) :
    writeAll bytes w = .ok () (w.put bytes) :=
  if_pos room

/-- `[i64 LE length][bytes]`. -/
def protoFrame (bytes : Bytes) : Bytes := LittleEndian.encode 8 bytes.length ++ bytes

theorem writeProtoFrame_eq (bytes : Bytes) :
    writeProtoFrame bytes = (writeAll (protoFrame bytes)).adaptExcept .io := by
  rw [protoFrame, ← writeAll_append]
  exact Frames.adaptExcept_bind _ _ _

theorem writeFramedPacket_eq (packet : Packet) :
    writeFramedPacket packet = (writeAll (framePacket packet.serialize)).adaptExcept .io := by
  rw [framePacket, ← writeAll_append]
  exact Frames.adaptExcept_bind _ _ _

/-- With room for a frame, the writer puts out the frame. -/
theorem writeProtoFrame_of_room {bytes : Bytes} {w : Outlet}
    (room : (protoFrame bytes).length ≤ w.room) :
    writeProtoFrame bytes w = .ok () (w.put (protoFrame bytes)) := by
  rw [writeProtoFrame_eq, Frames.adaptExcept_eq_ok]
  exact writeAll_of_room room

theorem writeFramedPacket_of_room {packet : Packet} {w : Outlet}
    (room : (framePacket packet.serialize).length ≤ w.room) :
    writeFramedPacket packet w = .ok () (w.put (framePacket packet.serialize)) := by
  rw [writeFramedPacket_eq, Frames.adaptExcept_eq_ok]
  exact writeAll_of_room room

/-- A frame that is written is what it says: its length and its bytes. -/
theorem frame_of_writeProtoFrame {bytes frame : Bytes} {w w' : Outlet}
    (done : writeProtoFrame bytes w = .ok () w') (out : w'.written = w.written ++ frame) :
    frame = protoFrame bytes := by
  rw [writeProtoFrame_eq, Frames.adaptExcept_eq_ok] at done
  exact List.append_cancel_left (out.symm.trans (written_of_writeAll done))

theorem frame_of_writeFramedPacket {packet : Packet} {frame : Bytes} {w w' : Outlet}
    (done : writeFramedPacket packet w = .ok () w') (out : w'.written = w.written ++ frame) :
    frame = framePacket packet.serialize := by
  rw [writeFramedPacket_eq, Frames.adaptExcept_eq_ok] at done
  exact List.append_cancel_left (out.symm.trans (written_of_writeAll done))

section Reads

variable {failure : IoError}

theorem adaptExcept_readExact {ε : Type} (rename : IoError → ε) (len : Nat) (stream : Bytes) :
    (readExact failure len).adaptExcept rename stream =
      if stream.length < len then .error (rename failure) []
      else .ok (stream.take len) (stream.drop len) := by
  by_cases short : stream.length < len
  · simp only [EStateM.adaptExcept, readExact, Frames.takeExact, if_pos short]
  · simp only [EStateM.adaptExcept, readExact, Frames.takeExact, if_neg short]

theorem reads_readExact {len : Nat} {frame : Bytes} (sized : frame.length = len) :
    Frames.Reads (FrameError.mapIo failure) ((readExact failure len).adaptExcept .mapIo)
      frame frame := by
  rw [← sized]
  exact (Frames.Reads.takeExact failure frame).adaptExcept FrameError.mapIo

theorem consumes_readExact (len : Nat) :
    Frames.Consumes len ((readExact failure len).adaptExcept FrameError.mapIo) :=
  (Frames.Consumes.takeExact failure len).adaptExcept FrameError.mapIo

/-- A message whose length fits the cap is read back. -/
theorem reads_readProtoFrame {maxLen : Int64} {body : Bytes}
    (fits : (body.length : Int) ≤ maxLen.toInt) :
    Frames.Reads (FrameError.mapIo failure) (readProtoFrame failure maxLen) body
      (protoFrame body) := by
  have below : body.length < 2 ^ 63 := by
    have := maxLen.toInt_lt
    omega
  have len : Int64.ofNat (LittleEndian.value (LittleEndian.encode 8 body.length)) =
      Int64.ofNat body.length := by
    rw [LittleEndian.value_encode, Nat.mod_eq_of_lt (by omega)]
  have range : 0 ≤ Int64.ofNat body.length ∧ Int64.ofNat body.length ≤ maxLen := by
    rw [Int64.le_iff_toInt_le, Int64.le_iff_toInt_le, Int64.toInt_ofNat_of_lt below]
    exact ⟨Int.natCast_nonneg _, fits⟩
  refine (reads_readExact (LittleEndian.length_encode 8 _)).bind ?_
  rw [len, if_pos range]
  exact reads_readExact (Int64.toNatClampNeg_ofNat_of_lt below).symm

theorem readExact_eq_ok {ε : Type} {rename : IoError → ε} {len : Nat} {stream bytes rest : Bytes} :
    (readExact failure len).adaptExcept rename stream = .ok bytes rest ↔
      stream = bytes ++ rest ∧ bytes.length = len := by
  rw [adaptExcept_readExact]
  constructor
  · intro read
    split at read
    · cases read
    rename_i enough
    cases read
    exact ⟨(List.take_append_drop len stream).symm, List.length_take_of_le (by omega)⟩
  · rintro ⟨rfl, rfl⟩
    rw [if_neg (by simp), List.take_left, List.drop_left]

/-- A message that is read stands at the front of the stream, behind its length. -/
theorem readProtoFrame_eq_ok {maxLen : Int64} {stream body rest : Bytes} :
    readProtoFrame failure maxLen stream = .ok body rest ↔
      stream = protoFrame body ++ rest ∧ (body.length : Int) ≤ maxLen.toInt := by
  constructor
  · intro read
    obtain ⟨lenBuf, middle, first, second⟩ := Frames.ok_of_bind read
    obtain ⟨rfl, eight⟩ := readExact_eq_ok.mp first
    dsimp only at second
    split at second
    · rename_i range
      obtain ⟨rfl, sized⟩ := readExact_eq_ok.mp second
      -- The length is not negative, so it is the number that the eight bytes stand for.
      have wide : LittleEndian.value lenBuf < 2 ^ 64 := by
        have := LittleEndian.value_lt lenBuf
        rwa [eight] at this
      have value : (Int64.ofNat (LittleEndian.value lenBuf)).toInt =
          LittleEndian.value lenBuf := by
        have nonneg := Int64.le_iff_toInt_le.mp range.1
        have split := Int.bmod_def ((LittleEndian.value lenBuf : Nat) : Int) 18446744073709551616
        have size : Int64.size = 18446744073709551616 := rfl
        rw [Int64.toInt_ofNat', size] at nonneg ⊢
        rw [show (0 : Int64).toInt = 0 from rfl] at nonneg
        omega
      have length : body.length = LittleEndian.value lenBuf := by
        rw [sized, ← Int64.toNat_toInt, value, Int.toNat_natCast]
      refine ⟨?_, ?_⟩
      · rw [protoFrame, length, ← eight, LittleEndian.encode_value, List.append_assoc]
      · rw [length, ← value]
        exact Int64.le_iff_toInt_le.mp range.2
    · cases second
  · rintro ⟨rfl, fits⟩
    exact (reads_readProtoFrame fits).whole rest

theorem consumes_readProtoFrame (maxLen : Int64) :
    Frames.Consumes 8 (readProtoFrame failure maxLen) := by
  refine (consumes_readExact 8).bind fun lenBuf => ?_
  dsimp only
  split
  · exact (consumes_readExact _).mono (Nat.zero_le _)
  · exact .throw _

/-- A packet whose length fits the cap and 32 bits is read back. -/
theorem reads_readFramedPacket {maxLen : Nat} (narrow : maxLen < 2 ^ 32) {packet : Packet}
    (fits : packet.serialize.length ≤ maxLen) :
    Frames.Reads (FrameError.mapIo failure) (readFramedPacket failure maxLen) packet
      (framePacket packet.serialize) := by
  have sized : (LittleEndian.encode 4 packet.serialize.length).reverse.length = 4 := by
    rw [List.length_reverse, LittleEndian.length_encode]
  have len : LittleEndian.value
      (LittleEndian.encode 4 packet.serialize.length).reverse.reverse =
        packet.serialize.length := by
    rw [List.reverse_reverse, LittleEndian.value_encode, Nat.mod_eq_of_lt (by omega)]
  refine (reads_readExact sized).bind ?_
  rw [len, if_neg (Nat.not_lt.2 fits), ← List.append_nil packet.serialize]
  refine (reads_readExact (by rw [List.append_nil])).bind ?_
  rw [Packet.parse_serialize]
  exact .pure _ _

theorem consumes_readFramedPacket (maxLen : Nat) :
    Frames.Consumes 4 (readFramedPacket failure maxLen) := by
  refine (consumes_readExact 4).bind fun lenBuf => ?_
  dsimp only
  split
  · exact .throw _
  · refine ((consumes_readExact _).mono (Nat.zero_le _)).bind fun buf => ?_
    split
    · exact .pure _
    · exact .throw _

end Reads

/-- Where the framed reader finds a frame, `read_framed_packet` parses it. -/
theorem readFramedPacket_of_some {maxLen : Nat} {stream buf rest : Bytes} (failure : IoError)
    (framed : readFramed maxLen stream = some (buf, rest)) :
    readFramedPacket failure maxLen stream =
      (Packet.parse buf).elim (.error .invalidPacket rest) (.ok · rest) := by
  simp only [readFramed] at framed
  split at framed
  · cases framed
  rename_i long
  split at framed
  · cases framed
  rename_i capped
  split at framed
  · cases framed
  rename_i enough
  cases framed
  simp only [readFramedPacket, bind, EStateM.bind, adaptExcept_readExact, if_neg long,
    if_neg capped, if_neg enough]
  cases Packet.parse _ <;> rfl

/-- Where the framed reader finds none, `read_framed_packet` does not come to parse. -/
theorem readFramedPacket_of_none {maxLen : Nat} {stream : Bytes} (failure : IoError)
    (refused : readFramed maxLen stream = none) :
    ∃ e rest, e ≠ .invalidPacket ∧ readFramedPacket failure maxLen stream = .error e rest := by
  have ended := FrameError.mapIo_ne_invalidPacket failure
  simp only [readFramed] at refused
  split at refused
  · rename_i short
    refine ⟨_, [], ended, ?_⟩
    simp only [readFramedPacket, bind, EStateM.bind, adaptExcept_readExact, if_pos short]
  rename_i long
  split at refused
  · rename_i exceeds
    refine ⟨.invalidLength (Int64.ofNat (LittleEndian.value (stream.take 4).reverse)),
      stream.drop 4, by simp, ?_⟩
    simp only [readFramedPacket, bind, EStateM.bind, adaptExcept_readExact, if_neg long,
      if_pos exceeds]
    rfl
  rename_i capped
  split at refused
  · rename_i short
    refine ⟨_, [], ended, ?_⟩
    simp only [readFramedPacket, bind, EStateM.bind, adaptExcept_readExact, if_neg long,
      if_neg capped, if_pos short]
  · cases refused

/-- A loop of `read_proto_frame`. -/
def protoReader (failure : IoError) (maxLen : Int64) : Frames.Reader Bytes UInt8 FrameError where
  read := readProtoFrame failure maxLen
  progress := (consumes_readProtoFrame maxLen).mono (by decide)

/-- A loop of `read_framed_packet`. -/
def packetReader (failure : IoError) (maxLen : Nat) : Frames.Reader Packet UInt8 FrameError where
  read := readFramedPacket failure maxLen
  progress := (consumes_readFramedPacket maxLen).mono (by decide)

end Et
