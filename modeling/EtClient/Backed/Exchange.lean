import EtClient.Backed.Restore
import EtClient.Lib.Talk

/-!
# The bytes of a recover exchange

Both ends of a recover run the same program: write the sequence header, read the one of the peer,
write the catch-up that it asks for, read the peer's. Here the program is a talk that writes and
reads one byte after the other, so that the bytes of two ends can move in any order.

Fed with the bytes that a stream holds, the talk comes to the result of `exchange` on that stream.
So what holds of two talks at the ends of one connection holds of two actors.
-/

namespace Et

namespace Backed

/-- Something that is read and written byte by byte, with the errors of an exchange. -/
abbrev ByteTalk := Talk UInt8 UInt8 String

namespace ByteTalk

/-- `write_frame_idle`. -/
def writeFrameIdle : Bytes → ByteTalk Unit := writeFrameWith Talk.write Talk.write

/-- `read_frame_idle`. -/
def readFrameIdle (maxLen : Nat) : ByteTalk Bytes :=
  readFrameWith Talk.readExact Talk.readExact (fun e => Talk.lift (.error e)) (Int64.ofNat maxLen)

theorem writeFrameIdle_eq (body : Bytes) : writeFrameIdle body = Talk.write (protoFrame body) :=
  (Talk.write_append _ _).symm

variable (codec : HandshakeCodec)

def readSequence : ByteTalk SequenceHeader := do
  let bytes ← readFrameIdle maxHandshakeProtoLength
  Talk.lift ((codec.decodeSequence bytes).mapError (s!"bad SequenceHeader: {·}"))

def readCatchup : ByteTalk CatchupBuffer := do
  let bytes ← readFrameIdle defaultMaxProtoLength
  Talk.lift ((codec.decodeCatchup bytes).mapError (s!"bad CatchupBuffer: {·}"))

/-- The exchange of `recover_timed_actor`. -/
def exchange (s : Actor) : ByteTalk (List Bytes) := do
  writeFrameIdle (codec.encodeSequence s.sequenceHeader)
  let remote ← readSequence codec
  let ours ← Talk.lift (s.catchup remote)
  writeFrameIdle (codec.encodeCatchup ours)
  let theirs ← readCatchup codec
  pure theirs.buffer

end ByteTalk

/-- The stream when so much was written to it and this is left to read. -/
def Stream.after (io : Stream) (sent rest : Bytes) : Stream :=
  { io with
    outlet :=
      { io.outlet with
        written := io.outlet.written ++ sent
        room := io.outlet.room - sent.length }
    incoming := rest }

theorem Stream.after_after (io : Stream) (sent more rest left : Bytes) :
    (io.after sent rest).after more left = io.after (sent ++ more) left := by
  simp [after, Nat.sub_sub]

namespace ByteTalk

/-- On a stream without time limits that takes what it sends, the talk comes to this result. -/
def Gives {α : Type} (io : Stream) (t : ByteTalk α) (result : Except String (α × Stream)) : Prop :=
  io.timers = [] → (t.run io.incoming).1.length ≤ io.outlet.room →
    match t.run io.incoming with
    | (sent, some (.ok a, rest)) => result = .ok (a, io.after sent rest)
    | (_, some (.error e, _)) => result = .error e
    | (_, none) => result = .error io.failure.text

theorem Gives.bind {α β : Type} {io : Stream} {t : ByteTalk α} {f : α → ByteTalk β}
    {result : Except String (α × Stream)} {g : α × Stream → Except String (β × Stream)}
    (first : Gives io t result) (next : ∀ a io, Gives io (f a) (g (a, io))) :
    Gives io (t >>= f) (result >>= g) := by
  show Gives io (t.bind f) (result.bind g)
  rw [Gives, Talk.run_bind]
  rw [Gives] at first
  generalize t.run io.incoming = done at first
  obtain ⟨sent, _ | ⟨_ | a, rest⟩⟩ := done
  · intro calm enough
    rw [first calm enough]
    rfl
  · intro calm enough
    rw [first calm enough]
    rfl
  · dsimp only at first ⊢
    intro calm enough
    rw [List.length_append] at enough
    have later := next a (io.after sent rest) calm
    rw [first calm (by omega)]
    dsimp only [Stream.after] at later
    generalize (f a).run rest = done at later enough
    obtain ⟨more, _ | ⟨_ | b, left⟩⟩ := done
    · exact later (by omega)
    · exact later (by omega)
    · refine (later (by omega)).trans ?_
      exact congrArg (fun io => Except.ok (b, io)) (io.after_after sent more rest left)

theorem gives_lift {α : Type} (io : Stream) (result : Except String α) :
    Gives io (Talk.lift result) (result.map (·, io)) := by
  intro _ _
  cases result with
  | ok a =>
      have same : io.after [] io.incoming = io := by simp [Stream.after]
      exact congrArg (fun io => Except.ok (a, io)) same.symm
  | error e => rfl

theorem timer_eq_never {io : Stream} (calm : io.timers = []) (k : Nat) : io.timer k = .never := by
  rw [Stream.timer, calm]
  rfl

theorem gives_writeFrameIdle (io : Stream) (body : Bytes) :
    Gives io (writeFrameIdle body) ((io.writeFrameIdle body).map ((), ·)) := by
  rw [Gives, writeFrameIdle_eq, Talk.run_write]
  intro calm enough
  have written : (writeAll (protoFrame body)).adaptExcept IoError.text io.outlet =
      .ok () (io.after (protoFrame body) io.incoming).outlet :=
    Frames.adaptExcept_eq_ok.2 (if_pos enough)
  rw [Stream.writeFrameIdle, timer_eq_never calm, timer_eq_never calm, writeFrameIdle_never,
    written, calm]
  simp [Stream.after, Except.map, calm]

/-- A talk that only reads comes to what a reader comes to; a reader fails where the talk waits. -/
def ReadsAs {α : Type} (failure : IoError) (t : ByteTalk α) (read : EStateM String Bytes α) :
    Prop :=
  ∀ input, (t.run input).1 = [] ∧
    match (t.run input).2 with
    | some (.ok a, rest) => read input = .ok a rest
    | some (.error e, _) => ∃ left, read input = .error e left
    | none => ∃ left, read input = .error failure.text left

theorem ReadsAs.bind {α β : Type} {failure : IoError} {t : ByteTalk α} {f : α → ByteTalk β}
    {read : EStateM String Bytes α} {next : α → EStateM String Bytes β}
    (first : ReadsAs failure t read) (second : ∀ a, ReadsAs failure (f a) (next a)) :
    ReadsAs failure (t >>= f) (read >>= next) := by
  intro input
  obtain ⟨silent, result⟩ := first input
  have run : (t >>= f).run input = _ := Talk.run_bind t f input
  rw [run]
  generalize t.run input = done at silent result
  obtain ⟨sent, _ | ⟨_ | a, rest⟩⟩ := done
  · obtain ⟨left, failed⟩ := result
    exact ⟨silent, left, Frames.bind_of_error failed⟩
  · obtain ⟨left, failed⟩ := result
    exact ⟨silent, left, Frames.bind_of_error failed⟩
  · obtain rfl : sent = [] := silent
    rw [Frames.bind_of_ok result]
    exact second a rest

theorem readsAs_readExact (failure : IoError) (len : Nat) :
    ReadsAs failure (Talk.readExact len) (readExactIdle .never failure len) := by
  intro input
  rw [Talk.run_readExact, readExactIdle_never, adaptExcept_readExact]
  refine ⟨rfl, ?_⟩
  by_cases short : input.length < len
  · simp only [if_pos short]
    exact ⟨_, rfl⟩
  · simp only [if_neg short]

theorem readsAs_readFrameIdle (failure : IoError) (maxLen : Nat) :
    ReadsAs failure (readFrameIdle maxLen)
      (Backed.readFrameIdle .never .never failure (Int64.ofNat maxLen)) := by
  refine (readsAs_readExact failure 8).bind fun lenBuf => ?_
  dsimp only
  split
  · exact readsAs_readExact failure _
  · exact fun input => ⟨rfl, input, rfl⟩

theorem gives_readFrameIdle (io : Stream) (maxLen : Nat) :
    Gives io (readFrameIdle maxLen) (io.readFrameIdle maxLen) := by
  intro calm _
  obtain ⟨silent, result⟩ := readsAs_readFrameIdle io.failure maxLen io.incoming
  rw [Stream.readFrameIdle, timer_eq_never calm, timer_eq_never calm]
  generalize Talk.run (readFrameIdle maxLen) io.incoming = done at silent result
  obtain ⟨sent, _ | ⟨_ | body, rest⟩⟩ := done
  · obtain ⟨left, failed⟩ := result
    simp only [failed]
  · obtain ⟨left, failed⟩ := result
    simp only [failed]
  · obtain rfl : sent = [] := silent
    dsimp only at result
    simp only [result, calm, Stream.after, List.append_nil, List.length_nil, Nat.sub_zero]
    rfl

theorem gives_readSequence (codec : HandshakeCodec) (io : Stream) :
    Gives io (readSequence codec) (codec.readSequence io) := by
  refine (gives_readFrameIdle io maxHandshakeProtoLength).bind fun bytes io => ?_
  dsimp only
  cases codec.decodeSequence bytes with
  | ok remote => exact gives_lift io (.ok remote)
  | error e => exact gives_lift io (.error _)

theorem gives_readCatchup (codec : HandshakeCodec) (io : Stream) :
    Gives io (readCatchup codec) (codec.readCatchup io) := by
  refine (gives_readFrameIdle io defaultMaxProtoLength).bind fun bytes io => ?_
  dsimp only
  cases codec.decodeCatchup bytes with
  | ok theirs => exact gives_lift io (.ok theirs)
  | error e => exact gives_lift io (.error _)

/-- As `Gives`, when the stream is dropped at the end. -/
def Ends {α : Type} (io : Stream) (t : ByteTalk α) (result : Except String α) : Prop :=
  io.timers = [] → (t.run io.incoming).1.length ≤ io.outlet.room →
    result =
      match (t.run io.incoming).2 with
      | some (result, _) => result
      | none => .error io.failure.text

theorem ends_lift {α : Type} (io : Stream) (result : Except String α) :
    Ends io (Talk.lift result) result := fun _ _ => rfl

theorem Gives.ends {α β : Type} {io : Stream} {t : ByteTalk α} {f : α → ByteTalk β}
    {result : Except String (α × Stream)} {g : α × Stream → Except String β}
    (first : Gives io t result) (next : ∀ a io, Ends io (f a) (g (a, io))) :
    Ends io (t >>= f) (result >>= g) := by
  show Ends io (t.bind f) (result.bind g)
  rw [Ends, Talk.run_bind]
  rw [Gives] at first
  generalize t.run io.incoming = done at first
  obtain ⟨sent, _ | ⟨_ | a, rest⟩⟩ := done
  · intro calm enough
    rw [first calm enough]
    rfl
  · intro calm enough
    rw [first calm enough]
    rfl
  · dsimp only at first ⊢
    intro calm enough
    rw [List.length_append] at enough
    rw [first calm (by omega)]
    exact next a (io.after sent rest) calm (by
      show ((f a).run rest).1.length ≤ io.outlet.room - sent.length
      omega)

/-- A write has no result but the stream. -/
theorem ends_write {α : Type} {io : Stream} {body : Bytes} {t : ByteTalk α}
    {g : Stream → Except String α} (next : ∀ io, Ends io t (g io)) :
    Ends io (writeFrameIdle body >>= fun _ => t) (io.writeFrameIdle body >>= g) := by
  have same : ((io.writeFrameIdle body).map (((), ·) : Stream → Unit × Stream) >>= fun p => g p.2) =
      (io.writeFrameIdle body >>= g) := by
    cases io.writeFrameIdle body <;> rfl
  rw [← same]
  exact (gives_writeFrameIdle io body).ends fun _ => next

/-- The exchange of the actor on a stream is the talk fed with the bytes of the stream. -/
theorem ends_exchange (codec : HandshakeCodec) (s : Actor) (io : Stream) :
    Ends io (exchange codec s) (codec.exchange s io) := by
  refine ends_write fun io => (gives_readSequence codec io).ends fun remote io => ?_
  show Ends io _ (s.catchup remote >>= (codec.sendCatchup · io))
  cases s.catchup remote with
  | error e => exact ends_lift io (.error e)
  | ok ours =>
      refine ends_write fun io => (gives_readCatchup codec io).ends fun theirs io => ?_
      exact ends_lift io (.ok theirs.buffer)

end ByteTalk

/-- The stream takes what was sent, brings what was got, and has no time limit that fires. -/
structure Stream.Carries (io : Stream) (sent got : Bytes) : Prop where
  calm : io.timers = []
  takes : sent.length ≤ io.outlet.room
  brings : got <+: io.incoming

/-- An actor whose talk is through gets the same from `exchange` on a stream with these bytes. -/
theorem exchange_of_reach {codec : HandshakeCodec} {s : Actor} {sent got : Bytes}
    {entries : List Bytes}
    (reach : Talk.Reach (ByteTalk.exchange codec s) sent got (.ret (.ok entries))) {io : Stream}
    (carries : io.Carries sent got) : codec.exchange s io = .ok entries := by
  obtain ⟨rest, brings⟩ := carries.brings
  have run := reach.run_eq rest
  rw [brings] at run
  have ends := ByteTalk.ends_exchange codec s io carries.calm
  rw [run] at ends
  exact ends carries.takes

end Backed

end Et
