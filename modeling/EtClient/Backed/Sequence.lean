import EtClient.Backed.Nonce
import EtClient.Backed.Rounds

/-!
# The sequence number on the wire

Both ends count packets without a bound that matters, but the recover exchange sends the
count as a signed 32-bit field. Up to `2^31` received packets the other end reads the
number that was sent, and the span it resends is the difference of the two counts. From
there on the number arrives as a negative one, and a peer that has missed nothing is
turned away as too far behind.
-/

namespace Et

namespace Backed

/-- The number an exchange sends is that of the packets received. -/
theorem Task.Moves.sentSequence {box : SecretBox} {t t' : Task} {socket : SocketId}
    {header : SequenceHeader}
    (moves : Task.Moves box t .sequenceSent t' [.sentSequence socket header]) :
    header = .of t.actor.readerSeq := by
  cases moves
  rfl

section Runs

variable {box : SecretBox} {cfg : BackedConfig} {now : Instant} {log : List Effect}
  {t peer peer' : Task} {e : Exchange} {socket : SocketId} {header : SequenceHeader}

/-- For a peer that has received all but a part of the backup, the number it sends gives the true
gap, and the exchange goes on to resend exactly what is missing, just when it has received fewer
than `2^31` packets. The exchange then ends well just when the catch-up of the peer fits its
frame. -/
theorem gap_resent_below_narrowing (run : (Task.system box cfg now).Reachable log t)
    (under : t.exchange = some e) (reading : e.phase = .readSequence)
    (sent : peer.step box .sequenceSent = some (peer', [.sentSequence socket header]))
    (received : peer.actor.readerSeq ≤ t.actor.writerSeq)
    (within : t.actor.writerSeq ≤ peer.actor.readerSeq + t.actor.backup.length) :
    ((t.actor.writerSeq : Int) - header.value = t.actor.writerSeq - peer.actor.readerSeq ↔
        peer.actor.readerSeq < 2 ^ 31) ∧
      ((∃ ours, t.AnswersWith box header ours ∧
          ours.buffer.length = t.actor.writerSeq - peer.actor.readerSeq) ↔
        peer.actor.readerSeq < 2 ^ 31) ∧
      (peer.actor.readerSeq < 2 ^ 31 →
        ∃ ours u v, t.step box (.sequenceRead header) = some (u, []) ∧
          u.step box .catchupSent = some (v, [.sentCatchup e.stream ours]) ∧
          ours.buffer.length = t.actor.writerSeq - peer.actor.readerSeq ∧
          ours.buffer = (framesOf log).drop peer.actor.readerSeq ∧
          ∀ now theirs, v.step box (.catchupRead now theirs) =
            if theirs.encodedLen ≤ defaultMaxProtoLength then
              some (t.served (t.actor.revive now e.stream theirs.buffer), [.recovered true])
            else some (t.restored e, [.recovered false])) := by
  obtain rfl := (Task.step_moves sent).sentSequence
  have narrows := SequenceHeader.value_of_iff peer.actor.readerSeq
  have window := backupOf_reachable run
  have answers := Task.answersWith_iff box under reading (.of peer.actor.readerSeq)
  have chosen (narrow : peer.actor.readerSeq < 2 ^ 31) :
      t.actor.catchup (.of peer.actor.readerSeq) =
        .ok ⟨(framesOf log).drop peer.actor.readerSeq⟩ := by
    have number : ((SequenceHeader.of peer.actor.readerSeq).sequenceNumber.getD 0).toInt =
        peer.actor.readerSeq := narrows.2 narrow
    have picked := (window.catchup (.of peer.actor.readerSeq)).1
    rw [number, Int.toNat_natCast] at picked
    exact picked (by omega)
  have missing : ((framesOf log).drop peer.actor.readerSeq).length =
      t.actor.writerSeq - peer.actor.readerSeq := by rw [List.length_drop, ← window.seq]
  refine ⟨by omega, ⟨?_, fun narrow => ⟨_, (answers _).2 (chosen narrow), missing⟩⟩, ?_⟩
  · rintro ⟨ours, answered, length⟩
    -- What is resent begins behind the number that was read, so that number is the one meant.
    obtain ⟨k, value, inside, buffer⟩ := window.of_catchup_eq_ok ((answers ours).1 answered)
    rw [buffer, List.length_drop, ← window.seq] at length
    rw [← window.seq] at inside
    exact narrows.1 (by omega)
  · intro narrow
    refine ⟨_, _, _, (Task.step_sequenceRead box under reading _).1 _ (chosen narrow), rfl,
      missing, rfl, ?_⟩
    intro now theirs
    simp only [Task.step, Option.bind_some, Task.exchangeStep]
    split <;> rfl

/-- One write, which the peer has not received. -/
theorem gap_resent_below_narrowing_one_missing :
    ∃ (log : List Effect) (t peer peer' u v : Task) (header : SequenceHeader)
        (ours : CatchupBuffer),
      (Task.system .naming (.client testKey none) 0).Reachable log t ∧
      t.exchange = some ⟨1, some 0, .readSequence⟩ ∧ t.actor.writerSeq = 1 ∧
      peer.actor.readerSeq = 0 ∧
      peer.step .naming .sequenceSent = some (peer', [.sentSequence 1 header]) ∧
      t.step .naming (.sequenceRead header) = some (u, []) ∧
      u.step .naming .catchupSent = some (v, [.sentCatchup 1 ours]) ∧ ours.buffer.length = 1 := by
  obtain ⟨log, t, run, under, one, stored⟩ : ∃ log t,
      (Task.system .naming (.client testKey none) 0).Reachable log t ∧
        t.exchange = some ⟨1, some 0, .readSequence⟩ ∧ t.actor.writerSeq = 1 ∧
        t.actor.backup.length = 1 :=
    ⟨_, _, .execute .start
      [.write 0 true terminalBuffer [1], .settle, .deliver 0, .recover 1, .sequenceSent] rfl,
      by decide, by decide, by decide⟩
  let peer : Task :=
    ⟨Actor.new (.server testKey) 0, .select, some ⟨1, some 0, .writeSequence⟩, true⟩
  obtain ⟨peer', sent⟩ : ∃ peer', peer.step .naming .sequenceSent =
      some (peer', [.sentSequence 1 (.of 0)]) := ⟨_, rfl⟩
  have none : peer.actor.readerSeq = 0 := rfl
  obtain ⟨-, -, resent⟩ := gap_resent_below_narrowing run under rfl sent (by omega) (by omega)
  obtain ⟨ours, u, v, read, answered, length, -⟩ := resent (by omega)
  rw [one, none] at length
  exact ⟨log, t, peer, peer', u, v, _, ours, run, under, one, none, sent, read, answered, length⟩

end Runs

namespace Rests

variable {box : SecretBox} {cfg : BackedConfig} {start : Instant}

/-- A session can write any number of packets. -/
theorem writes (n : Nat) : ∃ s, Rests box cfg start s ∧ s.disconnectedBytes = none ∧
    s.live = some 0 ∧ s.writerSeq = n := by
  induction n with
  | zero => exact ⟨_, .spawn, rfl, rfl, rfl⟩
  | succ n ih =>
      obtain ⟨s, rests, closed, live, count⟩ := ih
      obtain ⟨crypto, frame, boxed⟩ : ∃ crypto frame,
          s.nextFrame box terminalBuffer [] = (crypto, frame) := ⟨_, _, rfl⟩
      refine ⟨_, rests.write_live closed live boxed, ?_, ?_, ?_⟩
      · exact (s.pushBackup_disconnectedBytes crypto frame).trans closed
      · exact (s.pushBackup_live crypto frame).trans live
      · exact (s.pushBackup_seq crypto frame).trans (by rw [count])

/-- A session can read any number of packets. -/
theorem reads (lawful : box.Lawful) (n : Nat) : ∃ s, Rests box cfg start s ∧
    s.live = some 0 ∧ s.readerSeq = n := by
  suffices ∃ s, Rests box cfg start s ∧ s.live = some 0 ∧ s.readerSeq = n ∧
      s.readerCrypto = .after cfg.key cfg.readerMsb n by
    obtain ⟨s, rests, live, count, -⟩ := this
    exact ⟨s, rests, live, count⟩
  induction n with
  | zero => exact ⟨_, .spawn, rfl, rfl, rfl⟩
  | succ n ih =>
      obtain ⟨s, rests, live, count, crypto⟩ := ih
      obtain ⟨p, parsed, flag, opened⟩ :=
        Packet.decrypt_boxed lawful cfg.key cfg.readerMsb n terminalBuffer []
      let bytes := Packet.boxed box cfg.key cfg.readerMsb n terminalBuffer []
      let after : Actor := { s with
        inbox := []
        readerCrypto := .after cfg.key cfg.readerMsb (n + 1)
        lastActivity := 0
        readerSeq := s.readerSeq + 1 }
      have popped : ({ s with inbox := [bytes] } : Actor).deliverOne box 0 =
          (after, .packet (.new terminalBuffer []),
            Actor.cipherCall box s.readerCrypto p.payload ++
              [.opened bytes (.new terminalBuffer [])]) := by
        simp only [Actor.deliverOne, bytes, parsed, dif_pos flag, crypto, opened]
        rfl
      refine ⟨after, rests.frame (by simp [live]) ⟨rests.calm.up, rests.calm.told, rfl⟩ popped,
        live, ?_, rfl⟩
      exact congrArg (· + 1) count

end Rests

/-- A peer that has received all of `2^31` packets is taken for one that is too far
behind, whatever is backed up. -/
theorem gap_lost_past_narrowing :
    ∃ (log peerLog : List Effect) (t peer peer' : Task) (e : Exchange) (header : SequenceHeader),
      (Task.system .naming (.client testKey none) 0).Reachable log t ∧
      (Task.system .naming (.server testKey) 0).Reachable peerLog peer ∧
      t.exchange = some e ∧ e.phase = .readSequence ∧
      peer.step .naming .sequenceSent = some (peer', [.sentSequence 1 header]) ∧
      peer.actor.readerSeq = 2 ^ 31 ∧ t.actor.writerSeq = 2 ^ 31 ∧
      t.step .naming (.sequenceRead header) = some (t.restored e, [.recovered false]) := by
  obtain ⟨s, rests, -, -, written⟩ : ∃ s, Rests .naming (.client testKey none) 0 s ∧
    s.disconnectedBytes = none ∧ s.live = some 0 ∧ s.writerSeq = 2 ^ 31 := Rests.writes (2 ^ 31)
  obtain ⟨r, ⟨-, peerLog, peerRun⟩, -, received⟩ : ∃ r, Rests .naming (.server testKey) 0 r ∧
    r.live = some 0 ∧ r.readerSeq = 2 ^ 31 := Rests.reads SecretBox.naming_lawful (2 ^ 31)
  obtain ⟨log, run⟩ := rests.ask 1
  have asked : (Task.system .naming (.server testKey) 0).step r.rested (.recover 1) =
      some (⟨{ r with live := none }, .select, some ⟨1, r.live, .writeSequence⟩, true⟩, []) := rfl
  have window := backupOf_reachable run
  have bound := window.length_le
  have narrowed : ((SequenceHeader.of r.readerSeq).sequenceNumber.getD 0).toInt = - 2 ^ 31 := by
    rw [received]
    decide
  -- The gap is read as `2^32`, and at most `2^31` frames were ever written.
  obtain ⟨message, failed⟩ := (window.catchup (.of r.readerSeq)).2 (by
    rw [narrowed]
    rintro ⟨-, small⟩
    have count : ({ s with live := none } : Actor).writerSeq = 2 ^ 31 := written
    omega)
  exact ⟨log, _, _, _, _, _, .of r.readerSeq, run, peerRun.next _ trivial asked, rfl, rfl, rfl,
    received, written, (Task.step_sequenceRead .naming rfl rfl _).2 message failed⟩

end Backed

end Et
