import EtClient.Backed.Codec
import EtClient.Backed.Idle

/-!
# The socket of a recover exchange

A stream is what the socket of an exchange will do: what its writer takes, which bytes the peer
sends and how a read fails behind them, and the time limits that fire. Every frame that is read
or written goes through two loops, one for the length and one for the body, each with its own
time limits.
-/

namespace Et

namespace Backed

structure Stream where
  outlet : Outlet
  /-- The bytes that the peer sends, and how a read fails behind them. -/
  incoming : Bytes
  failure : IoError
  /-- The time limits of the loops to come; behind the end of the list none fires. -/
  timers : List Timer

namespace Stream

/-- The time limits of the loop after `k` others. -/
def timer (io : Stream) (k : Nat) : Timer := io.timers.getD k .never

def writeFrameIdle (io : Stream) (body : Bytes) : Except String Stream :=
  match Backed.writeFrameIdle (io.timer 0) (io.timer 1) body io.outlet with
  | .ok _ outlet => .ok { io with outlet := outlet, timers := io.timers.drop 2 }
  | .error e _ => .error e

def readFrameIdle (io : Stream) (maxLen : Nat) : Except String (Bytes × Stream) :=
  match Backed.readFrameIdle (io.timer 0) (io.timer 1) io.failure (Int64.ofNat maxLen)
      io.incoming with
  | .ok body rest => .ok (body, { io with incoming := rest, timers := io.timers.drop 2 })
  | .error e _ => .error e

/-- A stream whose writer takes nothing before the time limit fires. -/
def stalled : Stream where
  outlet := ⟨[], 0, earlyEof⟩
  incoming := []
  failure := earlyEof
  timers := [fun _ => some 0]

theorem writeFrameIdle_stalled (body : Bytes) : stalled.writeFrameIdle body = .error stallText := by
  have first : Backed.writeFrameIdle (stalled.timer 0) (stalled.timer 1) body stalled.outlet =
      .error stallText stalled.outlet := by
    simp only [Backed.writeFrameIdle, writeFrameWith, bind, EStateM.bind]
    unfold writeAllIdle
    rw [Chunks.run, LittleEndian.length_encode, if_pos (by decide)]
    rfl
  rw [writeFrameIdle, first]

/-- A frame that is read is no longer than the cap. -/
theorem length_le_of_readFrameIdle {io io' : Stream} {maxLen : Nat} (small : maxLen < 2 ^ 63)
    {body : Bytes} (read : io.readFrameIdle maxLen = .ok (body, io')) : body.length ≤ maxLen := by
  rw [readFrameIdle] at read
  split at read
  · rename_i body rest framed
    cases read
    obtain ⟨lenBuf, middle, _, second⟩ := Frames.ok_of_bind framed
    dsimp only at second
    split at second
    · rename_i range
      have cap := Int64.toInt_ofNat_of_lt small
      have upper := Int64.le_iff_toInt_le.mp range.2
      rw [length_of_readExactIdle second]
      exact Int.toNat_le.mpr (upper.trans (Int.le_of_eq cap))
    · cases second
  · cases read

end Stream

namespace HandshakeCodec

variable (codec : HandshakeCodec)

def readSequence (io : Stream) : Except String (SequenceHeader × Stream) := do
  let (bytes, io) ← io.readFrameIdle maxHandshakeProtoLength
  match codec.decodeSequence bytes with
  | .ok remote => .ok (remote, io)
  | .error e => .error s!"bad SequenceHeader: {e}"

def readCatchup (io : Stream) : Except String (CatchupBuffer × Stream) := do
  let (bytes, io) ← io.readFrameIdle defaultMaxProtoLength
  match codec.decodeCatchup bytes with
  | .ok theirs => .ok (theirs, io)
  | .error e => .error s!"bad CatchupBuffer: {e}"

/-- A catch-up that is read fits a frame. -/
theorem encodedLen_readCatchup {io io' : Stream} {theirs : CatchupBuffer}
    (read : codec.readCatchup io = .ok (theirs, io')) :
    theirs.encodedLen ≤ defaultMaxProtoLength := by
  simp only [readCatchup, bind, Except.bind] at read
  split at read
  · cases read
  · rename_i framed
    split at read
    · cases read
      exact (codec.encodedLen_le _ _ ‹_›).trans
        (Stream.length_le_of_readFrameIdle (by decide) framed)
    · cases read

end HandshakeCodec

end Backed

end Et
