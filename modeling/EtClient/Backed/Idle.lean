import EtClient.Lib.Chunks
import EtClient.Proto.Framing

/-!
# Frames with an idle window

The recover exchange has its own functions for the frames of the handshake, which go over a
buffer in chunks so that a time limit can be set for each of them. Here these functions are
modelled down to the bytes: what is put out, what is taken from the stream, and what a time
limit cuts off.

As long as no time limit fires, the chunks make no difference: what `write_frame_idle` puts
out is what `write_proto_frame` puts out, and `read_frame_idle` takes the same frames, of the
same length, and refuses the same ones as `read_proto_frame`.
-/

namespace Et

namespace Backed

/-- `RECOVER_IO_CHUNK`. -/
def recoverIoChunk : Nat := 64 * 1024

/-- The text of a time limit that fires. -/
def stallText : String := "recover exchange stalled (idle window exceeded)"

/-- The time limits of a loop, by the offset that a round starts at: a limit that fires finds
so many bytes of the chunk through. -/
def Timer := Nat → Option Nat

def Timer.never : Timer := fun _ => none

theorem recoverIoChunk_pos : 0 < recoverIoChunk := by decide

/-- `timeout_at` around the `write_all` of `buf[off..end]`. -/
def writeRound (timer : Timer) (buf : Bytes) (off stop : Nat) : EStateM String Outlet Unit :=
  let slice := (buf.take stop).drop off
  match timer off with
  | none => (writeAll slice).adaptExcept IoError.text
  | some pushed => do
      (writeAll (slice.take pushed)).adaptExcept IoError.text
      throw stallText

/-- `write_all_idle`. -/
def writeAllIdle (timer : Timer) (buf : Bytes) : EStateM String Outlet Unit :=
  Chunks.run recoverIoChunk recoverIoChunk_pos (writeRound timer buf) buf.length 0

/-- The body of `write_frame_idle`, for any two ways to write a buffer. -/
def writeFrameWith {m : Type → Type} [Monad m] (header body : Bytes → m Unit) (bytes : Bytes) :
    m Unit := do
  header (LittleEndian.encode 8 bytes.length)
  body bytes

/-- `write_frame_idle`. -/
def writeFrameIdle (header body : Timer) : Bytes → EStateM String Outlet Unit :=
  writeFrameWith (writeAllIdle header) (writeAllIdle body)

/-- `timeout_at` around the `read_exact` of `buf[off..end]`: the part of the buffer that is
filled, and the stream. An error drops the buffer. -/
def readRound (timer : Timer) (failure : IoError) (off stop : Nat) :
    EStateM String (Bytes × Bytes) Unit := fun (filled, stream) =>
  match timer off with
  | none =>
      match readExact failure (stop - off) stream with
      | .ok bytes rest => .ok () (filled ++ bytes, rest)
      | .error e rest => .error e.text ([], rest)
  | some taken => .error stallText ([], stream.drop (min taken (stop - off)))

/-- What the caller of the loop gets: the buffer, if all of it is filled. -/
def filledOf : EStateM.Result String (Bytes × Bytes) Unit → EStateM.Result String Bytes Bytes
  | .ok _ (filled, rest) => .ok filled rest
  | .error e (_, rest) => .error e rest

/-- `read_exact_idle`. -/
def readExactIdle (timer : Timer) (failure : IoError) (len : Nat) :
    EStateM String Bytes Bytes := fun stream =>
  filledOf (Chunks.run recoverIoChunk recoverIoChunk_pos (readRound timer failure) len 0
    ([], stream))

/-- The body of `read_frame_idle`, for any two ways to fill a buffer. -/
def readFrameWith {m : Type → Type} [Monad m] (header body : Nat → m Bytes)
    (refuse : String → m Bytes) (maxLen : Int64) : m Bytes := do
  let lenBuf ← header 8
  let len := Int64.ofNat (LittleEndian.value lenBuf)
  if 0 ≤ len ∧ len ≤ maxLen then body len.toNatClampNeg
  else refuse s!"recover exchange frame of {len} bytes exceeds the maximum"

/-- `read_frame_idle`. -/
def readFrameIdle (header body : Timer) (failure : IoError) (maxLen : Int64) :
    EStateM String Bytes Bytes :=
  readFrameWith (readExactIdle header failure) (readExactIdle body failure) throw maxLen

theorem writeRound_never (buf : Bytes) (off stop : Nat) :
    writeRound .never buf off stop =
      (writeAll ((buf.take stop).drop off)).adaptExcept IoError.text := rfl

/-- Two slices of a buffer that meet are one. -/
theorem slice_append {buf : Bytes} {a b c : Nat} (first : a ≤ b) (second : b ≤ c) :
    (buf.take b).drop a ++ (buf.take c).drop b = (buf.take c).drop a := by
  have front : ((buf.take c).drop a).take (b - a) = (buf.take b).drop a := by
    rw [List.take_drop, Nat.add_sub_cancel' first, List.take_take, Nat.min_eq_left second]
  have back : ((buf.take c).drop a).drop (b - a) = (buf.take c).drop b := by
    rw [List.drop_drop, Nat.add_sub_cancel' first]
  rw [← front, ← back, List.take_append_drop]

theorem writeAllIdle_never (buf : Bytes) :
    writeAllIdle .never buf = (writeAll buf).adaptExcept IoError.text := by
  have idle : ∀ off, writeRound .never buf off off = pure () := by
    intro off
    rw [writeRound_never, List.drop_of_length_le (List.length_take_le _ _), writeAll_nil]
    rfl
  have joined : ∀ {a b c}, a ≤ b → b ≤ c →
      (do writeRound .never buf a b; writeRound .never buf b c) = writeRound .never buf a c := by
    intro a b c first second
    rw [writeRound_never buf a c, ← slice_append first second, ← writeAll_append]
    exact Frames.adaptExcept_bind _ _ _
  rw [writeAllIdle, Chunks.run_eq_round idle joined (Nat.zero_le _), writeRound_never,
    List.take_length, List.drop_zero]

theorem writeFrameIdle_never (body : Bytes) :
    writeFrameIdle .never .never body = (writeAll (protoFrame body)).adaptExcept IoError.text := by
  rw [writeFrameIdle, writeFrameWith, writeAllIdle_never, writeAllIdle_never, protoFrame,
    ← writeAll_append]
  exact Frames.adaptExcept_bind _ _ _

theorem readRound_never (failure : IoError) (off stop : Nat) (filled stream : Bytes) :
    readRound .never failure off stop (filled, stream) =
      if stream.length < stop - off then .error failure.text ([], [])
      else .ok () (filled ++ stream.take (stop - off), stream.drop (stop - off)) := by
  by_cases short : stream.length < stop - off
  · simp only [readRound, Timer.never, readExact, Frames.takeExact, if_pos short]
  · simp only [readRound, Timer.never, readExact, Frames.takeExact, if_neg short]

theorem readRound_joined (failure : IoError) {a b c : Nat} (first : a ≤ b) (second : b ≤ c) :
    (do readRound .never failure a b; readRound .never failure b c) =
      readRound .never failure a c := by
  funext ⟨filled, stream⟩
  have sum : c - a = (b - a) + (c - b) := by omega
  simp only [bind, EStateM.bind, readRound_never]
  by_cases early : stream.length < b - a
  · rw [if_pos early, if_pos (by omega)]
  · rw [if_neg early]
    simp only [readRound_never, List.length_drop]
    by_cases late : stream.length - (b - a) < c - b
    · rw [if_pos late, if_pos (by omega)]
    · rw [if_neg late, if_neg (by omega), sum, List.take_add, List.drop_drop, List.append_assoc]

theorem readExactIdle_never (failure : IoError) (len : Nat) :
    readExactIdle .never failure len = (readExact failure len).adaptExcept IoError.text := by
  have idle : ∀ off, readRound .never failure off off = pure () := by
    intro off
    funext ⟨filled, stream⟩
    rw [readRound_never, Nat.sub_self, if_neg (Nat.not_lt_zero _), List.take_zero,
      List.append_nil]
    rfl
  funext stream
  rw [readExactIdle, Chunks.run_eq_round idle (readRound_joined failure) (Nat.zero_le _),
    readRound_never, Nat.sub_zero, List.nil_append, adaptExcept_readExact]
  split
  · rfl
  · rfl

/-- The text of the exchange for an error of `read_proto_frame`: it has its own for a length
out of bounds, and otherwise that of the stream. -/
def exchangeText (failure : IoError) : FrameError → String
  | .invalidLength len => s!"recover exchange frame of {len} bytes exceeds the maximum"
  | _ => failure.text

theorem exchangeText_mapIo (failure : IoError) :
    exchangeText failure (.mapIo failure) = failure.text := by
  rw [FrameError.mapIo]
  split <;> rfl

theorem readFrameIdle_never (failure : IoError) (maxLen : Int64) :
    readFrameIdle .never .never failure maxLen =
      (readProtoFrame failure maxLen).adaptExcept (exchangeText failure) := by
  have texts : ∀ len, ((readExact failure len).adaptExcept FrameError.mapIo).adaptExcept
      (exchangeText failure) = (readExact failure len).adaptExcept IoError.text := by
    intro len
    funext stream
    rw [Frames.adaptExcept_adaptExcept, adaptExcept_readExact, adaptExcept_readExact,
      Function.comp_apply, exchangeText_mapIo]
  rw [readFrameIdle, readFrameWith, readProtoFrame, ← Frames.adaptExcept_bind, texts,
    readExactIdle_never]
  refine congrArg _ (funext fun lenBuf => ?_)
  dsimp only
  split
  · rw [readExactIdle_never, texts]
  · rfl

/-- A buffer that is filled is filled to its end, whatever the time limits do. -/
theorem length_of_readExactIdle {timer : Timer} {failure : IoError} {len : Nat}
    {stream bytes rest : Bytes}
    (read : readExactIdle timer failure len stream = .ok bytes rest) : bytes.length = len := by
  rw [readExactIdle] at read
  cases ran : Chunks.run recoverIoChunk recoverIoChunk_pos (readRound timer failure) len 0
      ([], stream) with
  | error e left =>
      rw [ran] at read
      cases read
  | ok _ filled =>
      rw [ran] at read
      cases read
      refine Chunks.run_invariant (P := fun off filled => filled.1.length = off) ?_
        (Nat.zero_le len) rfl ran
      rintro off stop ⟨filled, stream⟩ after forward sized filling
      simp only [readRound] at filling
      split at filling
      · split at filling
        · rename_i taken
          cases filling
          have width := (readExact_eq_ok.mp
            (Frames.adaptExcept_eq_ok (f := IoError.text).mpr taken)).2
          dsimp only at sized
          rw [List.length_append]
          omega
        · cases filling
      · cases filling

/-- As long as no time limit fires, `write_frame_idle` does what `write_proto_frame` does: it
puts out the same bytes and fails at the same byte with the same text. A writer with room for
the frame has taken the length and the body. `read_frame_idle` reads what `read_proto_frame`
reads, up to the same byte of the stream, and refuses what that refuses. Whatever the time
limits do, both loops end: a buffer takes its length over the chunk, rounded up, in rounds. -/
theorem recover_frames_are_proto_frames :
    (∀ body, writeFrameIdle .never .never body =
      (writeProtoFrame body).adaptExcept FrameError.message) ∧
    (∀ (body : Bytes) (w : Outlet), (protoFrame body).length ≤ w.room →
      ∃ w', writeFrameIdle .never .never body w = .ok () w' ∧
        writeProtoFrame body w = .ok () w' ∧ w'.written = w.written ++ protoFrame body) ∧
    (∀ failure maxLen stream body rest,
      readFrameIdle .never .never failure maxLen stream = .ok body rest ↔
        readProtoFrame failure maxLen stream = .ok body rest) ∧
    (∀ failure maxLen stream e rest, readProtoFrame failure maxLen stream = .error e rest →
      readFrameIdle .never .never failure maxLen stream =
        .error (exchangeText failure e) rest) ∧
    (∀ timer buf, writeAllIdle timer buf =
      (List.range (Chunks.rounds recoverIoChunk buf.length)).forM fun k =>
        writeRound timer buf (k * recoverIoChunk)
          (min ((k + 1) * recoverIoChunk) buf.length)) ∧
    ∀ timer failure len stream, readExactIdle timer failure len stream =
      filledOf ((List.range (Chunks.rounds recoverIoChunk len)).forM
        (fun k => readRound timer failure (k * recoverIoChunk)
          (min ((k + 1) * recoverIoChunk) len)) ([], stream)) := by
  refine ⟨?_, ?_, ?_, ?_, fun timer buf => Chunks.run_eq_forM _, ?_⟩
  · intro body
    rw [writeFrameIdle_never, writeProtoFrame_eq, Frames.adaptExcept_adaptExcept]
    rfl
  · intro body w room
    have done : writeAll (protoFrame body) w = .ok () _ := if_pos room
    rw [writeFrameIdle_never, writeProtoFrame_eq]
    exact ⟨_, Frames.adaptExcept_eq_ok.2 done, Frames.adaptExcept_eq_ok.2 done, rfl⟩
  · intro failure maxLen stream body rest
    rw [readFrameIdle_never]
    exact Frames.adaptExcept_eq_ok
  · intro failure maxLen stream e rest refused
    rw [readFrameIdle_never, EStateM.adaptExcept, refused]
  · intro timer failure len stream
    rw [readExactIdle, Chunks.run_eq_forM]

/-- A frame of two bytes is written and read, and a negative length is refused. -/
theorem recover_frames_are_proto_frames_two_bytes :
    writeFrameIdle .never .never [5, 6] ⟨[], 20, earlyEof⟩ =
      .ok () ⟨[2, 0, 0, 0, 0, 0, 0, 0, 5, 6], 10, earlyEof⟩ ∧
    readFrameIdle .never .never earlyEof 100 [2, 0, 0, 0, 0, 0, 0, 0, 5, 6, 9] =
      .ok [5, 6] [9] ∧
    readFrameIdle .never .never earlyEof 100 (List.replicate 8 255) =
      .error (exchangeText earlyEof (.invalidLength (-1))) [] := by
  obtain ⟨writes, -, reads, refuses, -⟩ := recover_frames_are_proto_frames
  refine ⟨?_, (reads _ _ _ _ _).2 rfl, refuses _ _ _ _ _ rfl⟩
  rw [writes]
  rfl

end Backed

end Et
