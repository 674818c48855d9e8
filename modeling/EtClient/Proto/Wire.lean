import EtClient.Lib.Varint
import EtClient.Proto.Packet
import Mathlib.Algebra.BigOperators.Group.List.Basic

/-!
# Frames and handshake messages

Packets on the TCP legs are framed by a 32-bit big-endian length. The writer
narrows a `usize` length to 32 bits; the reader refuses a length above its cap
before reading on.

The recover exchange sends two protobuf messages. A sequence number crosses the
wire as a signed 32-bit field. Of the encoding of a catch-up only its size matters
here: a tag byte, a length and the bytes for every entry.
-/

namespace Et

/-- `CLIENT_SERVER_NONCE_MSB`. -/
def clientServerNonceMsb : UInt8 := 0

/-- `SERVER_CLIENT_NONCE_MSB`. -/
def serverClientNonceMsb : UInt8 := 1

def maxHandshakeProtoLength : Nat := 4 * 1024
def defaultMaxProtoLength : Nat := 128 * 1024 * 1024
def maxPacketLength : Nat := 128 * 1024 * 1024

/-- No protobuf message is longer. -/
def maxMessageBytes : Nat := 2 ^ 31 - 1

-- The header bytes of `terminal_packet_type` that steer the modelled code.
def keepAlive : UInt8 := 0
def terminalBuffer : UInt8 := 1
def portForwardDestinationRequest : UInt8 := 5
def portForwardDestinationResponse : UInt8 := 6
def portForwardData : UInt8 := 7

/-- `[u32 BE length][packet]`: the length is narrowed with `as u32`. -/
def framePacket (serialized : Bytes) : Bytes :=
  (LittleEndian.encode 4 serialized.length).reverse ++ serialized

/-- One round of the framed reader on the bytes up to the end of the stream: the
frame and what follows it, or `none` when the stream ends early or the length is
above the cap. -/
def readFramed (maxLen : Nat) (stream : Bytes) : Option (Bytes × Bytes) :=
  if stream.length < 4 then none
  else
    let len := LittleEndian.value (stream.take 4).reverse
    let rest := stream.drop 4
    if maxLen < len then none
    else if rest.length < len then none
    else some (rest.take len, rest.drop len)

theorem drop_framePacket (serialized : Bytes) : (framePacket serialized).drop 4 = serialized := by
  simp [framePacket]

/-- A frame that is read to its end is what stands behind the length, whatever that
says: a length that was narrowed does not reach the end of the frame. -/
theorem eq_drop_of_readFramed {maxLen : Nat} {framed body : Bytes}
    (read : readFramed maxLen framed = some (body, [])) : body = framed.drop 4 := by
  simp only [readFramed] at read
  split at read
  · cases read
  split at read
  · cases read
  split at read
  · cases read
  · simp only [Option.some.injEq, Prod.mk.injEq] at read
    obtain ⟨taken, left⟩ := read
    rw [← taken]
    exact List.take_of_length_le (List.drop_eq_nil_iff.mp left)

/-- How a framed packet is read: the reader takes as many bytes as the narrowed length
says, or none at all when that is above its cap. -/
theorem readFramed_framePacket_append (maxLen : Nat) (serialized rest : Bytes) :
    readFramed maxLen (framePacket serialized ++ rest) =
      if maxLen < serialized.length % 2 ^ 32 then none
      else some ((serialized ++ rest).take (serialized.length % 2 ^ 32),
        (serialized ++ rest).drop (serialized.length % 2 ^ 32)) := by
  have front : (framePacket serialized ++ rest).take 4 =
      (LittleEndian.encode 4 serialized.length).reverse := by
    simp [framePacket]
  have back : (framePacket serialized ++ rest).drop 4 = serialized ++ rest := by
    simp [framePacket]
  have long : ¬ (framePacket serialized ++ rest).length < 4 := by
    simp [framePacket]
  have len : LittleEndian.value (LittleEndian.encode 4 serialized.length) =
      serialized.length % 2 ^ 32 := LittleEndian.value_encode 4 serialized.length
  have there : ¬ (serialized ++ rest).length < serialized.length % 2 ^ 32 := by
    have narrowed := Nat.mod_le serialized.length (2 ^ 32)
    rw [List.length_append]
    omega
  simp only [readFramed, long, if_false, front, back, List.reverse_reverse, len, if_neg there]

/-- A packet whose length fits both the cap and 32 bits is read back, and the
reader stops right behind it. -/
theorem readFramed_framePacket {maxLen : Nat} {serialized : Bytes}
    (fits : serialized.length ≤ maxLen) (narrow : serialized.length < 2 ^ 32) (rest : Bytes) :
    readFramed maxLen (framePacket serialized ++ rest) = some (serialized, rest) := by
  rw [readFramed_framePacket_append, Nat.mod_eq_of_lt narrow, if_neg (by omega),
    List.take_left, List.drop_left]

/-- With a cap below `2^32` exactly the packets within the cap are read back: a length that was
narrowed is less than that of the packet. -/
theorem readFramed_framePacket_iff {maxLen : Nat} (small : maxLen < 2 ^ 32)
    (serialized rest : Bytes) :
    readFramed maxLen (framePacket serialized ++ rest) = some (serialized, rest) ↔
      serialized.length ≤ maxLen := by
  refine ⟨?_, fun fits => readFramed_framePacket fits (by omega) rest⟩
  intro read
  rw [readFramed_framePacket_append] at read
  split at read
  · cases read
  · have taken := congrArg (fun result => result.1.length) (Option.some.inj read)
    simp only [List.length_take, List.length_append] at taken
    omega

/-- `SequenceHeader`: what a peer says it has received. -/
structure SequenceHeader where
  sequenceNumber : Option Int32
  deriving DecidableEq

/-- The number a header says; a missing field reads as zero. -/
def SequenceHeader.value (h : SequenceHeader) : Int := (h.sequenceNumber.getD 0).toInt

/-- `CatchupBuffer`: serialized packets, oldest first. -/
structure CatchupBuffer where
  buffer : List Bytes
  deriving DecidableEq

/-- `CatchupBuffer::compute_size`. -/
def CatchupBuffer.encodedLen (c : CatchupBuffer) : Nat :=
  (c.buffer.map fun entry => 1 + (Varint.len entry.length + entry.length)).sum

theorem CatchupBuffer.two_mul_length_le (c : CatchupBuffer) :
    2 * c.buffer.length ≤ c.encodedLen := by
  obtain ⟨entries⟩ := c
  induction entries with
  | nil => simp [encodedLen]
  | cons entry entries ih =>
      simp only [encodedLen, List.map_cons, List.sum_cons, List.length_cons, Varint.len] at ih ⊢
      omega

/-- An `i64` counter written into the sequence field with `as i32`. -/
def SequenceHeader.of (count : Nat) : SequenceHeader := ⟨some (Int32.ofInt count)⟩

/-- A counter arrives as it is below `2^31`, and only there. -/
theorem SequenceHeader.value_of_iff (count : Nat) :
    (SequenceHeader.of count).value = count ↔ count < 2 ^ 31 := by
  show (Int32.ofInt count).toInt = count ↔ _
  rw [Int32.toInt_ofInt]
  have size : Int32.size = 4294967296 := rfl
  have split := Int.bmod_def (count : Int) 4294967296
  rw [size]
  omega

theorem SequenceHeader.value_of {count : Nat} (small : count < 2 ^ 31) :
    (SequenceHeader.of count).value = count :=
  (SequenceHeader.value_of_iff count).2 small

/-- A narrowed counter that is not negative is the counter itself, or at least
`2^32` below it. -/
theorem toInt_ofInt_narrow (count : Nat) (nonneg : 0 ≤ (Int32.ofInt count).toInt) :
    (Int32.ofInt count).toInt = count ∨ (Int32.ofInt count).toInt + 2 ^ 32 ≤ count := by
  rw [Int32.toInt_ofInt] at nonneg ⊢
  have size : Int32.size = 4294967296 := rfl
  have split := Int.bmod_def (count : Int) 4294967296
  rw [size] at nonneg ⊢
  omega

end Et
