import EtClient.Backed.Exchange

/-!
# The phases of a recover exchange

An exchange writes its first frame, reads the one of the peer, writes the catch-up that it asks for
and reads the peer's. What an end has sent and what it has got decide in which of these phases it
is. At the other end stands the same program, so the frames that an end reads are the ones that the
other end writes: an end that comes through has the catch-up that the other end chose for it.
-/

namespace Et

namespace Backed

open Talk

/-- The length that eight bytes say, `i64::from_le_bytes`. -/
def frameLength (bytes : Bytes) : Int := (Int64.ofNat (LittleEndian.value bytes)).toInt

theorem frameLength_eq {bytes : Bytes} (sized : bytes.length = 8) :
    frameLength bytes =
      if LittleEndian.value bytes < 2 ^ 63 then (LittleEndian.value bytes : Int)
      else LittleEndian.value bytes - 2 ^ 64 := by
  have below := LittleEndian.value_lt bytes
  rw [sized] at below
  have size : Int64.size = 18446744073709551616 := rfl
  have wraps := Int.bmod_def (LittleEndian.value bytes : Int) 18446744073709551616
  rw [frameLength, Int64.toInt_ofNat', size]
  split <;> omega

theorem frameLength_encode {n : Nat} (small : n < 2 ^ 63) :
    frameLength (LittleEndian.encode 8 n) = n := by
  have value : LittleEndian.value (LittleEndian.encode 8 n) = n := by
    rw [LittleEndian.value_encode]
    exact Nat.mod_eq_of_lt (by omega)
  rw [frameLength_eq (LittleEndian.length_encode 8 n), value]
  exact if_pos small

/-- Eight bytes that say a length are those that are written for it. -/
theorem encode_of_frameLength {bytes : Bytes} {n : Nat} (sized : bytes.length = 8)
    (number : frameLength bytes = n) : bytes = LittleEndian.encode 8 n := by
  have bound := LittleEndian.value_lt bytes
  have value : LittleEndian.value bytes = n := by
    rw [frameLength_eq sized] at number
    rw [sized] at bound
    split at number <;> omega
  rw [← value, ← sized, LittleEndian.encode_value]

theorem length_protoFrame (body : Bytes) : (protoFrame body).length = 8 + body.length := by
  rw [protoFrame, List.length_append, LittleEndian.length_encode]

/-- No frame goes on as another one. -/
theorem protoFrame_inj {a b x y : Bytes} (smallA : a.length < 2 ^ 63) (smallB : b.length < 2 ^ 63)
    (same : protoFrame a ++ x = protoFrame b ++ y) : a = b ∧ x = y := by
  simp only [protoFrame, List.append_assoc] at same
  obtain ⟨lengths, rest⟩ := List.append_inj same (by simp)
  have equal : a.length = b.length := by
    have number := congrArg frameLength lengths
    rw [frameLength_encode smallA, frameLength_encode smallB] at number
    exact Int.ofNat_inj.mp number
  exact List.append_inj rest equal

/-- The bytes do not have a whole frame of an allowed length in front. -/
def NoFrame (maxLen : Nat) (got : Bytes) : Prop :=
  ∀ body rest, got = protoFrame body ++ rest → maxLen < body.length

/-- Whatever follows, there will be no such frame. -/
def Refused (maxLen : Nat) (got : Bytes) : Prop := ∀ more, NoFrame maxLen (got ++ more)

namespace ByteTalk

variable {α β : Type} {sent got : Bytes} {t : ByteTalk α}

/-- A talk that writes a frame first. -/
theorem reach_writeFrame {body : Bytes} {f : Unit → ByteTalk α}
    (reach : Reach (writeFrameIdle body >>= f) sent got t) :
    (∃ unsent, unsent ≠ [] ∧ sent ++ unsent = protoFrame body ∧ got = [] ∧ t.Writes) ∨
      ∃ more, sent = protoFrame body ++ more ∧ Reach (f ()) more got t := by
  rw [writeFrameIdle_eq] at reach
  exact Reach.write reach

/-- The first eight bytes of a frame say its length. -/
theorem frameLength_of_protoFrame {lenBuf rest body behind : Bytes} (sized : lenBuf.length = 8)
    (framed : lenBuf ++ rest = protoFrame body ++ behind) (small : body.length < 2 ^ 63) :
    frameLength lenBuf = body.length ∧ rest = body ++ behind := by
  rw [protoFrame, List.append_assoc] at framed
  obtain ⟨rfl, same⟩ := List.append_inj framed (by simp [sized])
  exact ⟨frameLength_encode small, same⟩

/-- What `read_frame_idle` does behind the length. -/
def readBody (maxLen : Nat) (lenBuf : Bytes) : ByteTalk Bytes :=
  let len := Int64.ofNat (LittleEndian.value lenBuf)
  if 0 ≤ len ∧ len ≤ Int64.ofNat maxLen then Talk.readExact len.toNatClampNeg
  else Talk.lift (.error s!"recover exchange frame of {len} bytes exceeds the maximum")

theorem readBody_eq {maxLen : Nat} (small : maxLen < 2 ^ 63) (lenBuf : Bytes) :
    (0 ≤ frameLength lenBuf ∧ frameLength lenBuf ≤ maxLen ∧
      readBody maxLen lenBuf = Talk.readExact (frameLength lenBuf).toNat) ∨
    (¬ (0 ≤ frameLength lenBuf ∧ frameLength lenBuf ≤ maxLen) ∧
      ∃ e, readBody maxLen lenBuf = Talk.lift (.error e)) := by
  have cap := Int64.toInt_ofNat_of_lt small
  have range : (0 ≤ Int64.ofNat (LittleEndian.value lenBuf) ∧
      Int64.ofNat (LittleEndian.value lenBuf) ≤ Int64.ofNat maxLen) ↔
      0 ≤ frameLength lenBuf ∧ frameLength lenBuf ≤ maxLen := by
    rw [Int64.le_iff_toInt_le, Int64.le_iff_toInt_le, cap]
    rfl
  by_cases inside : 0 ≤ frameLength lenBuf ∧ frameLength lenBuf ≤ maxLen
  · exact .inl ⟨inside.1, inside.2, if_pos (range.mpr inside)⟩
  · exact .inr ⟨inside, _, if_neg (mt range.mp inside)⟩

/-- A talk that reads a frame first. -/
theorem reach_readFrame {maxLen : Nat} (small : maxLen < 2 ^ 63) {f : Bytes → ByteTalk α}
    (reach : Reach (readFrameIdle maxLen >>= f) sent got t) :
    (sent = [] ∧ (t.Reads ∧ NoFrame maxLen got ∨ t.Fails ∧ Refused maxLen got)) ∨
      ∃ body rest, got = protoFrame body ++ rest ∧ body.length ≤ maxLen ∧
        Reach (f body) sent rest t := by
  have unfolded : readFrameIdle maxLen >>= f = (Talk.readExact 8).bind fun lenBuf =>
      (readBody maxLen lenBuf).bind f := bind_assoc _ _ _
  rw [unfolded] at reach
  obtain ⟨silent, few, reads⟩ | ⟨lenBuf, rest, sized, rfl, onward⟩ := Reach.read reach
  · refine .inl ⟨silent, .inl ⟨reads, fun body behind framed => ?_⟩⟩
    rw [framed, List.length_append, length_protoFrame] at few
    omega
  obtain ⟨positive, capped, reading⟩ | ⟨range, e, refusing⟩ := readBody_eq small lenBuf
  · rw [reading] at onward
    obtain ⟨silent, few, reads⟩ | ⟨body, rest, length, rfl, last⟩ := Reach.read onward
    · refine .inl ⟨silent, .inl ⟨reads, fun body behind framed => ?_⟩⟩
      by_contra short
      obtain ⟨number, rfl⟩ := frameLength_of_protoFrame sized framed (by omega)
      rw [List.length_append] at few
      omega
    · refine .inr ⟨body, rest, ?_, by omega, last⟩
      rw [protoFrame, encode_of_frameLength sized (n := body.length) (by omega), List.append_assoc]
  · rw [refusing] at onward
    obtain ⟨silent, rfl, rfl⟩ := Reach.ret onward
    refine .inl ⟨silent, .inr ⟨⟨_, rfl⟩, fun more body behind framed => ?_⟩⟩
    by_contra short
    rw [List.append_nil] at framed
    obtain ⟨number, _⟩ := frameLength_of_protoFrame sized framed (by omega)
    omega

/-- A talk that reads a message first. -/
theorem reach_readMessage {maxLen : Nat} (small : maxLen < 2 ^ 63)
    {decode : Bytes → Except String β} {f : β → ByteTalk α}
    (reach : Reach ((readFrameIdle maxLen >>= fun bytes => Talk.lift (decode bytes)) >>= f)
      sent got t) :
    (sent = [] ∧ (t.Reads ∧ NoFrame maxLen got ∨ t.Fails ∧ Refused maxLen got)) ∨
      ∃ body rest, got = protoFrame body ++ rest ∧ body.length ≤ maxLen ∧
        ((∃ e, decode body = .error e ∧ sent = [] ∧ rest = [] ∧ t = .ret (.error e)) ∨
          ∃ message, decode body = .ok message ∧ Reach (f message) sent rest t) := by
  have assoc : ((readFrameIdle maxLen >>= fun bytes => Talk.lift (decode bytes)) >>= f) =
      (readFrameIdle maxLen >>= fun bytes => (Talk.lift (decode bytes)).bind f) := bind_assoc _ _ _
  rw [assoc] at reach
  refine (reach_readFrame small reach).imp_right ?_
  rintro ⟨body, rest, framed, short, onward⟩
  refine ⟨body, rest, framed, short, ?_⟩
  cases decoded : decode body with
  | error e =>
      rw [decoded] at onward
      obtain ⟨silent, none, failed⟩ := Reach.ret onward
      exact .inl ⟨e, rfl, silent, none, failed⟩
  | ok message =>
      rw [decoded] at onward
      exact .inr ⟨message, rfl, onward⟩

end ByteTalk

section Position

variable (codec : HandshakeCodec) (s : Actor)

/-- The first frame that an actor writes. -/
def helloFrame : Bytes := protoFrame (codec.encodeSequence s.sequenceHeader)

/-- The second one. -/
def catchupFrame (ours : CatchupBuffer) : Bytes := protoFrame (codec.encodeCatchup ours)

/-- A peer whose first frame has this body gets this catch-up. -/
structure Asks (body : Bytes) (ours : CatchupBuffer) : Prop where
  short : body.length ≤ maxHandshakeProtoLength
  chosen : ∃ remote, codec.decodeSequence body = .ok remote ∧ s.catchup remote = .ok ours

/-- What the second frame of the peer is worth. -/
def received (body : Bytes) : Except String (List Bytes) :=
  ((codec.decodeCatchup body).mapError (s!"bad CatchupBuffer: {·}")).map (·.buffer)

/-- The phases of an exchange, by what was sent and got. -/
inductive Position : Bytes → Bytes → ByteTalk (List Bytes) → Prop
  | writesSequence {sent unsent : Bytes} {t : ByteTalk (List Bytes)} : unsent ≠ [] →
      sent ++ unsent = helloFrame codec s → t.Writes → Position sent [] t
  | readsSequence {got : Bytes} {t : ByteTalk (List Bytes)} :
      t.Reads ∧ NoFrame maxHandshakeProtoLength got ∨
        t.Fails ∧ Refused maxHandshakeProtoLength got → Position (helloFrame codec s) got t
  | refuses {body : Bytes} {t : ByteTalk (List Bytes)} :
      body.length ≤ maxHandshakeProtoLength → (∀ ours, ¬ Asks codec s body ours) → t.Fails →
      Position (helloFrame codec s) (protoFrame body) t
  | writesCatchup {body sent unsent : Bytes} {ours : CatchupBuffer} {t : ByteTalk (List Bytes)} :
      Asks codec s body ours → unsent ≠ [] → sent ++ unsent = catchupFrame codec ours → t.Writes →
      Position (helloFrame codec s ++ sent) (protoFrame body) t
  | readsCatchup {body got : Bytes} {ours : CatchupBuffer} {t : ByteTalk (List Bytes)} :
      Asks codec s body ours →
      t.Reads ∧ NoFrame defaultMaxProtoLength got ∨ t.Fails ∧ Refused defaultMaxProtoLength got →
      Position (helloFrame codec s ++ catchupFrame codec ours) (protoFrame body ++ got) t
  | ended {body body' : Bytes} {ours : CatchupBuffer} : Asks codec s body ours →
      body'.length ≤ defaultMaxProtoLength →
      Position (helloFrame codec s ++ catchupFrame codec ours)
        (protoFrame body ++ protoFrame body') (.ret (received codec body'))

variable {codec s}

theorem mapError_eq_ok {α : Type} {f : String → String} {result : Except String α} {a : α} :
    result.mapError f = .ok a ↔ result = .ok a := by
  cases result <;> simp [Except.mapError]

/-- Every place in the exchange is one of the phases. -/
theorem position_of_reach {sent got : Bytes} {t : ByteTalk (List Bytes)}
    (reach : Reach (ByteTalk.exchange codec s) sent got t) : Position codec s sent got t := by
  obtain ⟨unsent, some, sends, rfl, writes⟩ | ⟨more, rfl, reading⟩ :=
    ByteTalk.reach_writeFrame reach
  · exact .writesSequence some sends writes
  obtain ⟨rfl, waits⟩ | ⟨body, rest, rfl, short,
      ⟨e, bad, rfl, rfl, rfl⟩ | ⟨remote, heard, onward⟩⟩ :=
    ByteTalk.reach_readMessage (by decide) reading
  · rw [List.append_nil]
    exact .readsSequence waits
  · rw [List.append_nil, List.append_nil]
    refine .refuses short ?_ ⟨e, rfl⟩
    rintro ours ⟨_, remote, heard, _⟩
    rw [heard] at bad
    cases bad
  have heard := mapError_eq_ok.mp heard
  cases chosen : s.catchup remote with
  | error e =>
      rw [chosen] at onward
      obtain ⟨rfl, rfl, rfl⟩ := Reach.ret onward
      rw [List.append_nil, List.append_nil]
      refine .refuses short ?_ ⟨e, rfl⟩
      rintro ours ⟨_, other, heard', chosen'⟩
      cases heard.symm.trans heard'
      cases chosen.symm.trans chosen'
  | ok ours =>
      have asks : Asks codec s body ours := ⟨short, remote, heard, chosen⟩
      rw [chosen] at onward
      obtain ⟨unsent, some, sends, rfl, writes⟩ | ⟨more, rfl, awaiting⟩ :=
        ByteTalk.reach_writeFrame onward
      · rw [List.append_nil]
        exact .writesCatchup asks some sends writes
      obtain ⟨rfl, waits⟩ | ⟨body', rest, rfl, short',
          ⟨e, bad, rfl, rfl, rfl⟩ | ⟨theirs, read, last⟩⟩ :=
        ByteTalk.reach_readMessage (by decide) awaiting
      · rw [List.append_nil]
        exact .readsCatchup asks waits
      · rw [List.append_nil, List.append_nil]
        have result : received codec body' = .error e := by rw [received, bad]; rfl
        exact result ▸ .ended asks short'
      · obtain ⟨rfl, rfl, rfl⟩ := Reach.ret last
        rw [List.append_nil, List.append_nil]
        have result : received codec body' = .ok theirs.buffer := by rw [received, read]; rfl
        exact result ▸ .ended asks short'

end Position

namespace Position

variable {codec : HandshakeCodec} {s peer : Actor} {sent got heard : Bytes}
variable {t : ByteTalk (List Bytes)}

/-- A frame that an end reads first is the first frame of the other end. -/
theorem hello (lawful : codec.Lawful) (position : Position codec s sent got t) {body rest : Bytes}
    (flow : sent = protoFrame body ++ rest) (short : body.length ≤ maxHandshakeProtoLength) :
    body = codec.encodeSequence s.sequenceHeader ∧ sent = helloFrame codec s ++ rest := by
  have small : body.length < 2 ^ 63 := Nat.lt_of_le_of_lt short (by decide)
  have smallHello : (codec.encodeSequence s.sequenceHeader).length < 2 ^ 63 :=
    Nat.lt_of_le_of_lt (lawful.short _) (by decide)
  have behind (more : Bytes) (begun : sent = helloFrame codec s ++ more) :
      body = codec.encodeSequence s.sequenceHeader ∧ sent = helloFrame codec s ++ rest := by
    obtain ⟨equal, rfl⟩ := protoFrame_inj smallHello small (begun.symm.trans flow)
    exact ⟨equal.symm, begun⟩
  cases position with
  | writesSequence some sends _ =>
      -- The frame would end before all of it is sent.
      rw [flow, List.append_assoc, ← List.append_nil (helloFrame codec s)] at sends
      have none := (protoFrame_inj small smallHello sends).2
      exact absurd (List.append_eq_nil_iff.mp none).2 some
  | readsSequence _ => exact behind [] (List.append_nil _).symm
  | refuses _ _ _ => exact behind [] (List.append_nil _).symm
  | writesCatchup _ _ _ _ => exact behind _ rfl
  | readsCatchup _ _ => exact behind _ rfl
  | ended _ _ => exact behind _ rfl

/-- Behind its first frame an end sends the catch-up that it was asked for. -/
theorem answer (position : Position codec s sent got t) {rest : Bytes}
    (flow : sent = helloFrame codec s ++ rest) (some : rest ≠ []) :
    ∃ body behind ours unsent, got = protoFrame body ++ behind ∧ Asks codec s body ours ∧
      rest ++ unsent = catchupFrame codec ours := by
  have nothing (same : helloFrame codec s = helloFrame codec s ++ rest) : False :=
    some (List.append_cancel_left ((List.append_nil _).trans same)).symm
  cases position with
  | writesSequence more sends _ =>
      have length := congrArg List.length sends
      rw [flow, List.length_append, List.length_append] at length
      have positive := List.length_pos_iff.mpr more
      omega
  | readsSequence _ => exact (nothing flow).elim
  | refuses _ _ _ => exact (nothing flow).elim
  | writesCatchup asks _ sends _ =>
      cases List.append_cancel_left flow
      exact ⟨_, [], _, _, (List.append_nil _).symm, asks, sends⟩
  | readsCatchup asks _ =>
      cases List.append_cancel_left flow
      exact ⟨_, _, _, [], rfl, asks, List.append_nil _⟩
  | ended asks _ =>
      cases List.append_cancel_left flow
      exact ⟨_, _, _, [], rfl, asks, List.append_nil _⟩

/-- An end that is through has sent both of its frames and got two. -/
theorem of_through (position : Position codec s sent got t) {entries : List Bytes}
    (through : t = .ret (.ok entries)) :
    ∃ body body' ours, Asks codec s body ours ∧ body'.length ≤ defaultMaxProtoLength ∧
      sent = helloFrame codec s ++ catchupFrame codec ours ∧
      got = protoFrame body ++ protoFrame body' ∧ received codec body' = .ok entries := by
  have waits {t : ByteTalk (List Bytes)} {P Q : Prop} (waiting : t.Reads ∧ P ∨ t.Fails ∧ Q) :
      t ≠ .ret (.ok entries) := by
    rintro rfl
    obtain ⟨⟨_, reads⟩, _⟩ | ⟨⟨_, fails⟩, _⟩ := waiting
    · cases reads
    · cases fails
  have writes {t : ByteTalk (List Bytes)} (writing : t.Writes) : t ≠ .ret (.ok entries) := by
    rintro rfl
    obtain ⟨_, _, writes⟩ := writing
    cases writes
  cases position with
  | writesSequence _ _ writing => exact absurd through (writes writing)
  | readsSequence waiting => exact absurd through (waits waiting)
  | refuses _ _ fails => exact absurd through (waits (.inr ⟨fails, trivial⟩ : _ ∧ True ∨ _))
  | writesCatchup _ _ _ writing => exact absurd through (writes writing)
  | readsCatchup _ waiting => exact absurd through (waits waiting)
  | ended asks short => exact ⟨_, _, _, asks, short, rfl, rfl, Talk.ret.inj through⟩

end Position

/-- The first frame of the peer asks for what the sequence number of the peer leaves out. -/
theorem Asks.catchup {codec : HandshakeCodec} {s peer : Actor} {ours : CatchupBuffer}
    (asks : Asks codec s (codec.encodeSequence peer.sequenceHeader) ours) (lawful : codec.Lawful) :
    s.catchup peer.sequenceHeader = .ok ours := by
  obtain ⟨remote, heard, chosen⟩ := asks.chosen
  cases (lawful.sequence _).symm.trans heard
  exact chosen

/-- What an end that comes through has read is what the other end chose for it. -/
theorem received_of_position {codec : HandshakeCodec} (lawful : codec.Lawful) {s peer : Actor}
    {sent got sent' got' onWay onWay' : Bytes} {t t' : ByteTalk (List Bytes)}
    {entries : List Bytes} (position : Position codec s sent got t)
    (position' : Position codec peer sent' got' t') (through : t = .ret (.ok entries))
    (flow : sent = got' ++ onWay) (flow' : sent' = got ++ onWay')
    (encodable : ∀ theirs, peer.catchup s.sequenceHeader = .ok theirs →
      (codec.encodeCatchup theirs).length < 2 ^ 63) :
    ∃ theirs, peer.catchup s.sequenceHeader = .ok theirs ∧ entries = theirs.buffer := by
  obtain ⟨body, body', ours, asks, short, rfl, rfl, read⟩ := position.of_through through
  rw [List.append_assoc] at flow'
  obtain ⟨rfl, begun⟩ := position'.hello lawful flow' asks.short
  have some : protoFrame body' ++ onWay' ≠ [] := by simp [protoFrame, LittleEndian.encode]
  obtain ⟨asked, behind, theirs, unsent, rfl, asks', sends⟩ := position'.answer begun some
  rw [List.append_assoc] at flow
  obtain ⟨rfl, _⟩ := position.hello lawful flow asks'.short
  have chosen := asks'.catchup lawful
  rw [List.append_assoc, ← List.append_nil (catchupFrame codec theirs)] at sends
  obtain ⟨rfl, _⟩ := protoFrame_inj (Nat.lt_of_le_of_lt short (by decide))
    (encodable theirs chosen) sends
  have result : received codec (codec.encodeCatchup theirs) = .ok theirs.buffer := by
    rw [received, lawful.catchup theirs short]
    rfl
  cases result.symm.trans read
  exact ⟨theirs, chosen, rfl⟩

end Backed

end Et
