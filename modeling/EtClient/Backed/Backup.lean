import EtClient.Backed.Steps

/-!
# The backup and the catch-up

The backup is a window of the newest frames that `write` ever produced, with a
running total of their lengths. It is pushed at one end by every successful write,
trimmed at the other end on a live socket, and left alone by everything else, so
the window survives refused writes, lost sockets and exchanges of any outcome.

A catch-up is cut out of that window by the number a peer reports. It is exactly
the missing span, or there is none.
-/

namespace Et

namespace Backed

/-- The backup is the newest part of the frames produced so far. -/
structure BackupOf (frames : List Bytes) (s : Actor) : Prop where
  suffix : s.backup.reverse <:+ frames
  size : s.backupSize = Window.total List.length s.backup.reverse
  seq : s.writerSeq = frames.length

namespace BackupOf

variable {frames : List Bytes} {s s' : Actor}

theorem of_same (h : BackupOf frames s) (same : SameWriter s s') : BackupOf frames s' where
  suffix := by
    rw [same.backup]
    exact h.suffix
  size := by
    rw [same.size, same.backup]
    exact h.size
  seq := same.seq.trans h.seq

theorem length_le (h : BackupOf frames s) : s.backup.length ≤ s.writerSeq := by
  rw [h.seq, ← List.length_reverse]
  exact h.suffix.length_le

theorem size_cons (h : BackupOf frames s) (frame : Bytes) :
    s.backupSize + frame.length = Window.total List.length (frame :: s.backup).reverse := by
  rw [List.reverse_cons, Window.total_append, h.size]
  simp

/-- Pushing a frame, with or without the trim that follows on a live socket. -/
theorem pushBackup (h : BackupOf frames s) (crypto : CryptoHandler) (frame : Bytes) :
    BackupOf (frames ++ [frame]) (s.pushBackup crypto frame) := by
  have grown : (frame :: s.backup).reverse <:+ frames ++ [frame] := by
    rw [List.reverse_cons]
    obtain ⟨front, eq⟩ := h.suffix
    exact ⟨front, by rw [← List.append_assoc, eq]⟩
  have size := h.size_cons frame
  rw [Actor.pushBackup]
  split
  · refine ⟨?_, ?_, ?_⟩
    · simp only [Actor.trimBackup, List.reverse_reverse]
      exact (Window.trim_suffix ..).trans grown
    · simp only [Actor.trimBackup, List.reverse_reverse, size]
      exact Window.trim_total ..
    · simp [Actor.trimBackup, h.seq]
  · exact ⟨grown, size, by simp [h.seq]⟩

theorem step {box : SecretBox} {accepts : Bool} {effects : List Effect} (h : BackupOf frames s)
    (stepped : WriterStep box accepts s s' effects) : BackupOf (frames ++ framesOf effects) s' := by
  obtain ⟨same, quiet⟩ | ⟨_, _, crypto, frame, handed, _, same, rfl, given⟩ := stepped
  · rw [framesOf, quiet.encryptions, List.map_nil, List.append_nil]
    exact h.of_same same
  · rw [framesOf, (given.boxed ..).1]
    exact (h.pushBackup crypto frame).of_same same

/-- Front to back, the backup is the reverse of the newest frames. -/
theorem backup_eq (h : BackupOf frames s) :
    s.backup = (frames.drop (frames.length - s.backup.length)).reverse := by
  have cut := List.suffix_iff_eq_drop.mp h.suffix
  rw [List.length_reverse] at cut
  rw [← cut, List.reverse_reverse]

/-- The newest `n` frames of the backup, oldest first. -/
theorem reverse_take_backup (h : BackupOf frames s) {n : Nat} (le : n ≤ s.backup.length) :
    (s.backup.take n).reverse = frames.drop (frames.length - n) := by
  have bound := h.length_le
  rw [h.seq] at bound
  rw [h.backup_eq, List.take_reverse, List.reverse_reverse, List.drop_drop, List.length_drop]
  congr 1
  omega

/-- `recover`'s selection, for every number a peer may report. -/
theorem catchup (h : BackupOf frames s) (remote : SequenceHeader) :
    (0 ≤ (s.writerSeq : Int) - (remote.sequenceNumber.getD 0).toInt ∧
      (s.writerSeq : Int) - (remote.sequenceNumber.getD 0).toInt ≤ s.backup.length →
        s.catchup remote = .ok ⟨frames.drop (remote.sequenceNumber.getD 0).toInt.toNat⟩) ∧
    (¬ (0 ≤ (s.writerSeq : Int) - (remote.sequenceNumber.getD 0).toInt ∧
      (s.writerSeq : Int) - (remote.sequenceNumber.getD 0).toInt ≤ s.backup.length) →
        ∃ message, s.catchup remote = .error message) := by
  have bound := h.length_le
  have seq := h.seq
  simp only [Actor.catchup]
  generalize (remote.sequenceNumber.getD 0).toInt = r
  constructor
  · rintro ⟨nonneg, within⟩
    rw [if_neg (by omega)]
    split
    · rw [if_neg (by omega), h.reverse_take_backup (by omega)]
      congr 3
      omega
    · rw [List.drop_of_length_le (by omega)]
  · intro outside
    split
    · exact ⟨_, rfl⟩
    · rw [if_pos (by omega), if_pos (by omega)]
      exact ⟨_, rfl⟩

/-- A catch-up that was chosen is the span behind a number that makes sense. -/
theorem of_catchup_eq_ok (h : BackupOf frames s) {remote : SequenceHeader} {ours : CatchupBuffer}
    (chosen : s.catchup remote = .ok ours) :
    ∃ k : Nat, remote.value = k ∧ k ≤ frames.length ∧ ours.buffer = frames.drop k := by
  obtain ⟨within, outside⟩ := h.catchup remote
  have bound := h.length_le
  have seq := h.seq
  by_cases span : 0 ≤ (s.writerSeq : Int) - (remote.sequenceNumber.getD 0).toInt ∧
      (s.writerSeq : Int) - (remote.sequenceNumber.getD 0).toInt ≤ s.backup.length
  · rw [within span] at chosen
    cases chosen
    refine ⟨(remote.sequenceNumber.getD 0).toInt.toNat, ?_, ?_, rfl⟩
    · rw [SequenceHeader.value]
      omega
    · omega
  · obtain ⟨message, failed⟩ := outside span
    rw [failed] at chosen
    cases chosen

end BackupOf

section Runs

variable {box : SecretBox} {cfg : BackedConfig} {now : Instant} {log : List Effect} {t : Task}

/-- In every reachable state the backup is the window of the run's frames. -/
theorem backupOf_reachable (run : (Task.system box cfg now).Reachable log t) :
    BackupOf (framesOf log) t.actor := by
  refine run.invariant (P := fun log t => BackupOf (framesOf log) t.actor) ?_ ?_
  · exact ⟨List.suffix_refl _, rfl, rfl⟩
  · intro log t act t' effects window _ stepped
    rw [framesOf_append]
    exact window.step (Task.step_writer stepped)

/-- The exchange of `t` goes on to send `ours` when the peer has reported `remote`. -/
def Task.AnswersWith (box : SecretBox) (t : Task) (remote : SequenceHeader)
    (ours : CatchupBuffer) : Prop :=
  ∃ e u v, t.exchange = some e ∧ t.step box (.sequenceRead remote) = some (u, []) ∧
    u.step box .catchupSent = some (v, [.sentCatchup e.stream ours])

/-- Reading the peer's number either moves on to sending the catch-up, or ends the
exchange with the old socket in place. -/
theorem Task.step_sequenceRead (box : SecretBox) {e : Exchange} (under : t.exchange = some e)
    (reading : e.phase = .readSequence) (remote : SequenceHeader) :
    (∀ ours, t.actor.catchup remote = .ok ours →
      t.step box (.sequenceRead remote) =
        some ({ t with exchange := some { e with phase := .writeCatchup ours } }, [])) ∧
    (∀ message, t.actor.catchup remote = .error message →
      t.step box (.sequenceRead remote) = some (t.restored e, [.recovered false])) := by
  constructor <;> intro result outcome <;>
    simp only [Task.step, under, Option.bind_some, Task.exchangeStep, reading, outcome]

/-- What an exchange answers with is the selection of `recover`. -/
theorem Task.answersWith_iff (box : SecretBox) {e : Exchange} (under : t.exchange = some e)
    (reading : e.phase = .readSequence) (remote : SequenceHeader) (ours : CatchupBuffer) :
    t.AnswersWith box remote ours ↔ t.actor.catchup remote = .ok ours := by
  obtain ⟨proceeds, fails⟩ := Task.step_sequenceRead box under reading remote
  constructor
  · rintro ⟨e', u, v, same, read, sent⟩
    cases outcome : t.actor.catchup remote with
    | ok chosen =>
        rw [proceeds chosen outcome] at read
        cases read
        simp only [Task.step, Option.bind_some, Task.exchangeStep, Option.some.injEq,
          Prod.mk.injEq, List.cons.injEq, Effect.sentCatchup.injEq, and_true] at sent
        rw [sent.2.2]
    | error message =>
        rw [fails message outcome] at read
        cases read
  · intro outcome
    exact ⟨e, _, _, under, proceeds ours outcome, rfl⟩

/-- In every reachable state the backup is the newest part of the frames written so
far, and for every number a peer may report the exchange answers with exactly the
frames the peer is missing, or sends nothing and fails. -/
theorem catchup_exactly_missing_span (run : (Task.system box cfg now).Reachable log t) :
    t.actor.backup =
        ((framesOf log).drop ((framesOf log).length - t.actor.backup.length)).reverse ∧
      t.actor.backupSize = (t.actor.backup.map fun frame => (frame.length : Int)).sum ∧
      t.actor.writerSeq = (framesOf log).length ∧
      t.actor.backup.length ≤ t.actor.writerSeq ∧
      ∀ e, t.exchange = some e → e.phase = .readSequence → ∀ remote : SequenceHeader,
        let r := (remote.sequenceNumber.getD 0).toInt
        let missing : Int := t.actor.writerSeq - r
        ((∃ ours, t.AnswersWith box remote ours) ↔
            0 ≤ missing ∧ missing ≤ t.actor.backup.length) ∧
          (∀ ours, t.AnswersWith box remote ours →
            0 ≤ r ∧ ours.buffer = (framesOf log).drop r.toNat) ∧
          (¬ (0 ≤ missing ∧ missing ≤ t.actor.backup.length) →
            t.step box (.sequenceRead remote) = some (t.restored e, [.recovered false])) := by
  have window := backupOf_reachable run
  refine ⟨window.backup_eq, ?_, window.seq, window.length_le, ?_⟩
  · rw [window.size, Window.total, List.map_reverse, List.sum_reverse]
  · intro e under reading remote r missing
    obtain ⟨within, outside⟩ := window.catchup remote
    have answers := Task.answersWith_iff box under reading remote
    have bound := window.length_le
    by_cases span : 0 ≤ missing ∧ missing ≤ t.actor.backup.length
    · have chosen := within span
      refine ⟨⟨fun _ => span, fun _ => ⟨_, (answers _).mpr chosen⟩⟩, ?_, fun off => absurd span off⟩
      intro ours answered
      have same := (answers ours).mp answered
      rw [chosen] at same
      cases same
      exact ⟨by omega, rfl⟩
    · obtain ⟨message, failed⟩ := outside span
      have silent : ∀ ours, ¬ t.AnswersWith box remote ours := by
        intro ours answered
        rw [(answers ours).mp answered] at failed
        cases failed
      refine ⟨⟨?_, fun inside => absurd inside span⟩, ?_, ?_⟩
      · rintro ⟨ours, answered⟩
        exact absurd answered (silent ours)
      · intro ours answered
        exact absurd answered (silent ours)
      · intro _
        exact (Task.step_sequenceRead box under reading remote).2 message failed

/-- One packet written, and a peer that has none of it: the catch-up is that packet. -/
theorem catchup_exactly_missing_span_first_packet :
    ∃ log t, (Task.system .naming (.client testKey none) 0).Reachable log t ∧
      framesOf log ≠ [] ∧ t.AnswersWith .naming ⟨some 0⟩ ⟨framesOf log⟩ := by
  have run := Transition.System.Reaches.execute
    (.start : (Task.system .naming (.client testKey none) 0).Reachable [] _)
    [.write 0 true 5 [1, 2], .settle, .deliver 0, .recover 1, .sequenceSent] rfl
  refine ⟨_, _, run, by decide, ?_⟩
  obtain ⟨_, _, _, _, exchange⟩ := catchup_exactly_missing_span run
  obtain ⟨proceeds, span, _⟩ := exchange _ rfl rfl ⟨some 0⟩
  obtain ⟨ours, answered⟩ := proceeds.mpr (by decide)
  obtain ⟨_, all⟩ := span ours answered
  obtain ⟨buffer⟩ := ours
  cases all
  exact answered

end Runs

end Backed

end Et
