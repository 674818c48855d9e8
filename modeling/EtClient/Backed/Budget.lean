import EtClient.Backed.Nonce
import EtClient.Backed.Rounds

/-!
# The size of the backup

Two limits bound the backup: a write on a live socket trims it, and a write without one
is skipped when the ledger is full. Neither bounds it alone, and together they do so only
if every socket that is lost has trimmed the backup first. A socket on which nothing was
written leaves the backup as the ledger of the last outage has filled it, and the next
outage has a ledger of its own.

The same sum decides whether a catch-up can be read. Every entry costs a tag and a length
next to its bytes, and the peer reads no frame above `DEFAULT_MAX_PROTO_LENGTH`.
-/

namespace Et

namespace Backed

/-- A write on a live socket trims the backup. -/
theorem BackupOf.pushBackup_le {frames : List Bytes} {s : Actor} (window : BackupOf frames s)
    (live : s.live.isSome = true) (crypto : CryptoHandler) (frame : Bytes) :
    (s.pushBackup crypto frame).backupSize ≤ maxBackupBytes := by
  have size := window.size_cons frame
  rw [Actor.pushBackup, if_pos live]
  simp only [Actor.trimBackup, size]
  rw [Window.trim_total]
  exact Window.trim_total_le List.length maxBackupBytes (by decide) _

/-- A backup within its limit is not trimmed. -/
theorem Actor.pushBackup_of_fits {s : Actor} {frame : Bytes}
    (fits : s.backupSize + frame.length ≤ maxBackupBytes) (crypto : CryptoHandler) :
    (s.pushBackup crypto frame).backup = frame :: s.backup ∧
      (s.pushBackup crypto frame).backupSize = s.backupSize + frame.length := by
  have untrimmed (xs : List Bytes) :
      Window.trim List.length maxBackupBytes xs (s.backupSize + frame.length) =
        (xs, s.backupSize + frame.length) := by
    cases xs with
    | nil => rfl
    | cons x xs => rw [Window.trim, if_neg (by omega)]
  rw [pushBackup]
  split
  · simp only [trimBackup, untrimmed, List.reverse_reverse, and_self]
  · exact ⟨rfl, rfl⟩

/-- The sizes while every lost socket has trimmed the backup. -/
structure BudgetOf (t : Task) : Prop where
  bound : t.actor.backupSize ≤ maxBackupBytes + disconnectBufferBytes + 18
  online : t.pc ≠ .ended → t.socket.isSome = true → t.actor.disconnectedBytes = none
  offline : t.pc ≠ .ended → t.socket = none → ∃ buffered,
    t.actor.disconnectedBytes = some buffered ∧ 0 ≤ buffered ∧
      t.actor.backupSize ≤ maxBackupBytes + buffered ∧
      (t.actor.backupSize ≤ maxBackupBytes ∨ buffered ≤ disconnectBufferBytes + 18)

/-- A live socket is closed, by anything but a write, only when the backup is within its
limit. -/
def Task.Trimmed (t : Task) (act : Act) : Prop :=
  t.closes act = true → t.actor.backupSize ≤ maxBackupBytes

namespace BudgetOf

variable {box : SecretBox} {t t' : Task} {act : Act} {notes : List LedgerNote}
  {frames : List Bytes}

theorem step (budget : BudgetOf t) (lawful : box.Lawful) (window : BackupOf frames t.actor)
    (running : t.pc ≠ .ended) (trimmed : t.Trimmed act)
    (stepped : LedgerStep box t act t' notes) : BudgetOf t' := by
  cases stepped with
  | quiet same ledger writer =>
      refine ⟨writer.size ▸ budget.bound, ?_, ?_⟩
      · rw [same, ledger]
        exact fun _ => budget.online running
      · rw [same, ledger, writer.size]
        exact fun _ => budget.offline running
  | again gone gone' ledger writer =>
      obtain ⟨buffered, before, rest⟩ := budget.offline running gone
      refine ⟨writer.size ▸ budget.bound, ?_, fun _ _ => ⟨buffered, ?_, ?_⟩⟩
      · rw [gone']
        exact nofun
      · rw [ledger, before]
        rfl
      · rw [writer.size]
        exact rest
  | ended _ finished writer noted =>
      refine ⟨writer.size ▸ budget.bound, ?_, ?_⟩
      · exact fun here => absurd finished here
      · exact fun here => absurd finished here
  | lost closes there gone' ledger writer =>
      have small := trimmed closes
      refine ⟨writer.size ▸ budget.bound, ?_, fun _ _ => ⟨0, ?_, le_rfl, ?_, .inl ?_⟩⟩
      · rw [gone']
        exact nofun
      · rw [ledger, budget.online running there]
        rfl
      · rw [writer.size]
        simpa using small
      · rw [writer.size]
        exact small
  | buffered header payload crypto frame gone gone' dead room boxed writer ledger =>
      obtain ⟨buffered, before, nonneg, size, -⟩ := budget.offline running gone
      have fits := Actor.le_of_room room before
      have length := Actor.length_nextFrame lawful boxed
      have grown := writer.size.trans (Actor.pushBackup_of_offline dead crypto frame).2
      simp only [macBytes, Packet.headerSize] at length
      refine ⟨?_, ?_, fun _ _ => ⟨buffered + frame.length, ?_, ?_, ?_, .inr ?_⟩⟩
      · omega
      · rw [gone']
        exact nofun
      · rw [ledger, before]
        rfl
      · omega
      · omega
      · omega
  | queued crypto frame there same live ledger writer =>
      have small := window.pushBackup_le live crypto frame
      rw [← writer.size] at small
      refine ⟨small.trans (by decide), ?_, ?_⟩
      · rw [same, ledger]
        exact fun _ => budget.online running
      · intro _ gone'
        rw [← same, gone'] at there
        cases there
  | refused crypto frame there gone' live ledger writer =>
      have small := window.pushBackup_le live crypto frame
      rw [← writer.size] at small
      refine ⟨small.trans (by decide), ?_, fun _ _ => ⟨frame.length, ?_, ?_, ?_, .inl small⟩⟩
      · rw [gone']
        exact nofun
      · rw [ledger, budget.online running there]
        exact congrArg some (Int.zero_add _)
      · omega
      · omega
  | revived there ledger writer =>
      refine ⟨writer.size ▸ budget.bound, fun _ _ => ledger, ?_⟩
      intro _ gone'
      rw [gone'] at there
      cases there

end BudgetOf

section Runs

variable {box : SecretBox} {cfg : BackedConfig} {now : Instant} {log : List Effect} {t : Task}

theorem budgetOf_reaches (lawful : box.Lawful)
    (run : (Task.system box cfg now).Reaches (fun _ t => t.Trimmed) log t) :
    t.Placed ∧ BackupOf (framesOf log) t.actor ∧ BudgetOf t := by
  refine run.invariant
    (P := fun log t => t.Placed ∧ BackupOf (framesOf log) t.actor ∧ BudgetOf t) ?_ ?_
  · have empty : (0 : Int) ≤ maxBackupBytes + disconnectBufferBytes + 18 := by decide
    refine ⟨.inl rfl, ⟨List.suffix_refl _, rfl, rfl⟩, ⟨empty, fun _ _ => rfl, ?_⟩⟩
    exact fun _ gone => nomatch gone
  · rintro log t act t' effects ⟨placed, window, budget⟩ trimmed stepped
    have moves := Task.step_moves stepped
    have window' := window.step (Task.step_writer stepped)
    rw [← framesOf_append] at window'
    refine ⟨Task.step_placed placed stepped, window', ?_⟩
    by_cases finished : t.pc = .ended
    · rw [moves.ended placed finished]
      exact ⟨budget.bound, fun here => absurd finished here, fun here => absurd finished here⟩
    · exact budget.step lawful window finished trimmed (moves.ledgerStep placed)

/-- The backup is bounded in every run whose live sockets are closed, other than by a
write, only with a backup that is within `MAX_BACKUP_BYTES`. -/
theorem backup_bounded_when_trimmed (lawful : box.Lawful)
    (run : (Task.system box cfg now).Reaches (fun _ t => t.Trimmed) log t) :
    t.actor.backupSize ≤ maxBackupBytes + disconnectBufferBytes + 18 :=
  (budgetOf_reaches lawful run).2.2.bound

instance (t : Task) (act : Act) : Decidable (t.Trimmed act) :=
  inferInstanceAs (Decidable (t.closes act = true → t.actor.backupSize ≤ maxBackupBytes))

/-- A write on the socket, its loss, and a write without it. -/
theorem backup_bounded_when_trimmed_outage :
    ∃ log t, (Task.system .naming (.client testKey none) 0).Reaches (fun _ t => t.Trimmed) log t ∧
      t.actor.live = none ∧ t.actor.backup.length = 2 ∧
      t.actor.backupSize ≤ maxBackupBytes + disconnectBufferBytes + 18 := by
  obtain ⟨log, t, run, offline, two⟩ : ∃ log t,
      (Task.system .naming (.client testKey none) 0).Reaches (fun _ t => t.Trimmed) log t ∧
      t.actor.live = none ∧ t.actor.backup.length = 2 :=
    ⟨_, _, .execute .start
      [.write 0 true terminalBuffer [1], .settle, .deliver 0, .killSocket, .settle,
        .write 0 true terminalBuffer [2]] rfl, by decide, by decide⟩
  exact ⟨log, t, run, offline, two, backup_bounded_when_trimmed SecretBox.naming_lawful run⟩

end Runs

/-- A frame that fits is written on a live socket, which is then killed, and a payload
that fits the ledger is written without it. -/
theorem Rests.outage {box : SecretBox} {cfg : BackedConfig} {start : Instant} {s : Actor}
    {socket : SocketId} {frames : List Bytes} (lawful : box.Lawful) (rests : Rests box cfg start s)
    (window : BackupOf frames s) (closed : s.disconnectedBytes = none)
    (live : s.live = some socket) (earlier later : Bytes)
    (fits : s.backupSize + earlier.length + 18 ≤ maxBackupBytes)
    (room : later.length ≤ disconnectBufferBytes) :
    ∃ s' first second, Rests box cfg start s' ∧ BackupOf (frames ++ [first] ++ [second]) s' ∧
      s'.backup = second :: first :: s.backup ∧ s'.live = none ∧
      first.length = earlier.length + 18 ∧ second.length = later.length + 18 := by
  obtain ⟨crypto, first, boxed⟩ : ∃ crypto first,
      s.nextFrame box terminalBuffer earlier = (crypto, first) := ⟨_, _, rfl⟩
  have length := Actor.length_nextFrame lawful boxed
  have written := rests.write_live closed live boxed
  have killed := written.kill ((s.pushBackup_live crypto first).trans live)
  have small : s.backupSize + first.length ≤ maxBackupBytes := by
    rw [length]
    simp only [macBytes, Packet.headerSize]
    omega
  have kept := (Actor.pushBackup_of_fits small crypto).1
  have opened : (s.pushBackup crypto first).disconnectedBytes = none :=
    (s.pushBackup_disconnectedBytes crypto first).trans closed
  -- From here on only what the first frame has left behind matters.
  have before : BackupOf (frames ++ [first])
      { { s.pushBackup crypto first with lastActivity := 0 }.closeCurrentSocket with
        socketDownPending := false } := (window.pushBackup crypto first).of_same {}
  generalize eq : ({ { s.pushBackup crypto first with lastActivity := 0 }.closeCurrentSocket with
    socketDownPending := false } : Actor) = s' at killed before
  have offline : s'.live = none := by rw [← eq]; rfl
  have ledger : s'.disconnectedBytes = some 0 := by
    rw [← eq]
    exact congrArg (some <| Option.getD · 0) opened
  have backup : s'.backup = first :: s.backup := by rw [← eq]; exact kept
  obtain ⟨crypto', second, boxed'⟩ : ∃ crypto second,
      s'.nextFrame box terminalBuffer later = (crypto, second) := ⟨_, _, rfl⟩
  have free : s'.disconnectBufferFull later = false := by
    rw [Actor.disconnectBufferFull, ledger]
    simpa using room
  refine ⟨_, first, second, killed.write_offline free offline boxed',
    (before.pushBackup crypto' second).of_same {}, ?_, ?_, length,
    Actor.length_nextFrame lawful boxed'⟩
  · rw [← backup]
    exact (Actor.pushBackup_of_offline offline crypto' second).1
  · exact (s'.pushBackup_live crypto' second).trans offline

/-- One outage can fill the backup to its bound: a frame of 64 MiB on the live socket and
a payload of 64 MiB without it. -/
theorem filled_backup :
    ∃ s first second, Rests .naming (.client testKey none) 0 s ∧ BackupOf [first, second] s ∧
      s.backup = [second, first] ∧ s.live = none ∧
      first.length = 2 ^ 26 ∧ second.length = 2 ^ 26 + 18 := by
  have length (n : Nat) : (List.replicate n (0 : UInt8)).length = n := List.length_replicate
  have window : BackupOf [] (Task.spawn (.client testKey none) 0 0).actor :=
    ⟨List.suffix_refl _, rfl, rfl⟩
  obtain ⟨s, first, second, rests, full, backup, offline, long, long'⟩ :=
    Rests.spawn.outage SecretBox.naming_lawful window rfl rfl
      (List.replicate (2 ^ 26 - 18) 0) (List.replicate (2 ^ 26) 0)
      (by rw [length]; decide) (by rw [length]; decide)
  rw [length] at long long'
  exact ⟨s, first, second, rests, full, backup, offline, long, long'⟩

/-- The peer has every frame, and the recover succeeds. The new socket is killed before
anything is written on it, so that nothing has trimmed the backup, and the smallest packet
is written behind it. -/
theorem backup_outgrows_its_bound :
    ∃ log t, (Task.system .naming (.client testKey none) 0).Reachable log t ∧
      maxBackupBytes + disconnectBufferBytes + 18 < t.actor.backupSize := by
  obtain ⟨s, first, second, rests, window, backup, -, length, length'⟩ := filled_backup
  have size : s.backupSize = 2 ^ 27 + 18 := by
    rw [window.size, backup]
    simp [Window.total, length, length']
  have chosen : s.catchup ⟨some 2⟩ = .ok ⟨[]⟩ := by
    have range : (0 : Int) ≤ s.writerSeq - (2 : Int32).toInt ∧
        (s.writerSeq : Int) - (2 : Int32).toInt ≤ s.backup.length := by
      rw [window.seq, backup]
      show (0 : Int) ≤ 2 - 2 ∧ (2 : Int) - 2 ≤ 2
      decide
    exact (window.catchup ⟨some 2⟩).1 range
  let after : Actor := { (s.revive 0 1 []).closeCurrentSocket with socketDownPending := false }
  have killed : Rests .naming (.client testKey none) 0 after := (rests.recover chosen 1).kill rfl
  obtain ⟨crypto, third, boxed⟩ : ∃ crypto third,
      after.nextFrame .naming terminalBuffer [] = (crypto, third) := ⟨_, _, rfl⟩
  obtain ⟨-, log, run⟩ := killed.write_offline rfl rfl boxed
  have grown : ((after.pushBackup crypto third).chargeLedger third).rested.actor.backupSize =
      s.backupSize + third.length := (Actor.pushBackup_of_offline (s := after) rfl crypto third).2
  refine ⟨log, _, run, ?_⟩
  rw [grown, size, Actor.length_nextFrame SecretBox.naming_lawful boxed]
  decide


theorem len_le_four {n : Nat} (small : n ≤ defaultMaxProtoLength) : Varint.len n ≤ 4 := by
  have log : n.log2 < 28 := by
    rcases Nat.eq_zero_or_pos n with rfl | pos
    · decide
    · have cap : defaultMaxProtoLength < 2 ^ 28 := by decide
      exact (Nat.log2_lt pos.ne').2 (by omega)
  rw [Varint.len]
  omega

/-- Within the cap, an entry costs at most five bytes next to its own. -/
theorem encodedLen_le (entries : List Bytes)
    (small : Window.total List.length entries ≤ defaultMaxProtoLength) :
    ((⟨entries⟩ : CatchupBuffer).encodedLen : Int) ≤
      Window.total List.length entries + 5 * entries.length := by
  induction entries with
  | nil => simp [CatchupBuffer.encodedLen, Window.total]
  | cons entry entries ih =>
      have rest := Window.total_nonneg List.length entries
      have total := Window.total_cons List.length entry entries
      have ih := ih (by omega)
      have tag := @len_le_four entry.length (by omega)
      have cost : (⟨entry :: entries⟩ : CatchupBuffer).encodedLen =
          1 + (Varint.len entry.length + entry.length) +
            (⟨entries⟩ : CatchupBuffer).encodedLen := by
        simp [CatchupBuffer.encodedLen]
      rw [cost, total, List.length_cons]
      omega

/-- What `recover` selects lies in the backup. -/
theorem Actor.catchup_suffix {s : Actor} {remote : SequenceHeader} {ours : CatchupBuffer}
    (chosen : s.catchup remote = .ok ours) : ours.buffer <:+ s.backup.reverse := by
  simp only [catchup] at chosen
  split at chosen
  · cases chosen
  split at chosen
  · split at chosen
    · cases chosen
    · cases chosen
      rw [List.reverse_suffix]
      exact List.take_prefix _ _
  · cases chosen
    exact List.nil_suffix

def Act.readsSequence : Act → Bool
  | .sequenceRead _ => true
  | _ => false

/-- A peer's number is answered only from a backup that fits a frame, with five bytes for
every entry. -/
def Task.Compact (t : Task) (act : Act) : Prop :=
  act.readsSequence = true →
    t.actor.backupSize + 5 * t.actor.backup.length ≤ defaultMaxProtoLength

instance (t : Task) (act : Act) : Decidable (t.Compact act) :=
  inferInstanceAs (Decidable (act.readsSequence = true →
    t.actor.backupSize + 5 * t.actor.backup.length ≤ defaultMaxProtoLength))

theorem BackupOf.encodedLen_catchup {frames : List Bytes} {s : Actor} {remote : SequenceHeader}
    {ours : CatchupBuffer} (window : BackupOf frames s) (chosen : s.catchup remote = .ok ours)
    (compact : s.backupSize + 5 * s.backup.length ≤ defaultMaxProtoLength) :
    ours.encodedLen ≤ defaultMaxProtoLength := by
  have part := Actor.catchup_suffix chosen
  have size := Window.total_le_of_suffix List.length part
  have count := part.length_le
  rw [List.length_reverse] at count
  rw [← window.size] at size
  have cost := encodedLen_le ours.buffer (by omega)
  have same : (⟨ours.buffer⟩ : CatchupBuffer).encodedLen = ours.encodedLen := rfl
  omega

theorem Actor.sentCatchup_deliverOne (box : SecretBox) (now : Instant) (s : Actor)
    (socket : SocketId) (ours : CatchupBuffer) :
    .sentCatchup socket ours ∉ (s.deliverOne box now).2.2 := by
  intro mem
  cases deliverOne_effects box now s _ mem

namespace Task

variable {box : SecretBox} {t t' : Task} {act : Act} {effects : List Effect}

/-- A catch-up is sent in a phase of its own. -/
theorem Moves.sentCatchup (moves : Moves box t act t' effects) {socket : SocketId}
    {ours : CatchupBuffer} (sent : .sentCatchup socket ours ∈ effects) :
    ∃ e, t.exchange = some e ∧ e.phase = .writeCatchup ours := by
  cases moves with
  | catchupSent e ours' under phase =>
      rw [List.mem_singleton] at sent
      cases sent
      exact ⟨e, under, phase⟩
  | write now accepts header payload actor effects ready writes =>
      cases writes <;> simp at sent
  | tick now accepts actor effects place idle ticks =>
      cases ticks with
      | pinged period actor effects keepalive live up elapsed silent writes =>
          cases writes <;> simp at sent
      | idle | closed => cases sent
  | rejected now actor effects place found | opened now actor p effects place found =>
      have silent := t.actor.sentCatchup_deliverOne box now socket ours
      rw [found] at silent
      exact absurd sent silent
  | sendDead taken place | finish taken place =>
      split at sent <;> simp at sent
  | send event | sequenceSent e | denied _ e | revived _ _ e | oversized _ _ e
  | exchangeFails e => simp at sent
  | killSocket | recover | shutdown | frame | socketLost | close | notice | proceed
  | noticeFails | sendFails | drained | dropConsumer | answered => cases sent

/-- Only the number of a peer starts that phase. -/
theorem Moves.writeCatchup (moves : Moves box t act t' effects) {e' : Exchange}
    {ours : CatchupBuffer} (under : t'.exchange = some e') (phase : e'.phase = .writeCatchup ours) :
    t.exchange = some e' ∨
      ∃ remote, act = .sequenceRead remote ∧ t.actor.catchup remote = .ok ours := by
  cases moves with
  | answered remote e ours' _ _ chosen =>
      cases under
      cases phase
      exact .inr ⟨remote, rfl, chosen⟩
  | recover | sequenceSent | catchupSent =>
      cases under
      cases phase
  | write | killSocket | shutdown | denied | revived | oversized | exchangeFails => cases under
  | frame | socketLost | tick | close | notice | proceed | send | noticeFails | sendFails
  | drained | rejected | opened | sendDead | finish | dropConsumer => exact .inl under

end Task

section Runs

variable {box : SecretBox} {cfg : BackedConfig} {now : Instant} {log : List Effect} {t : Task}

/-- No frame that the exchange writes is above the cap of its reader. -/
theorem encodedLen_reaches
    (run : (Task.system box cfg now).Reaches (fun _ t => t.Compact) log t) :
    (∀ socket ours, .sentCatchup socket ours ∈ log → ours.encodedLen ≤ defaultMaxProtoLength) ∧
      ∀ e ours, t.exchange = some e → e.phase = .writeCatchup ours →
        ours.encodedLen ≤ defaultMaxProtoLength := by
  induction run with
  | start => exact ⟨fun _ _ sent => absurd sent List.not_mem_nil, fun _ _ under => nomatch under⟩
  | next act run compact stepped ih =>
      obtain ⟨before, chosen⟩ := ih
      have moves := Task.step_moves stepped
      have window := backupOf_reachable run.reachable
      constructor
      · intro socket ours sent
        rcases List.mem_append.1 sent with earlier | new
        · exact before socket ours earlier
        · obtain ⟨e, under, phase⟩ := moves.sentCatchup new
          exact chosen e ours under phase
      · intro e ours under phase
        rcases moves.writeCatchup under phase with same | ⟨remote, rfl, picked⟩
        · exact chosen e ours same phase
        · exact window.encodedLen_catchup picked (compact rfl)

/-- Every catch-up is one that the reading end of the exchange accepts, in every run that
answers a peer's number only from a backup that fits a frame with five bytes for every
entry. -/
theorem catchups_accepted_when_compact
    (run : (Task.system box cfg now).Reaches (fun _ t => t.Compact) log t) {socket : SocketId}
    {ours : CatchupBuffer} (sent : .sentCatchup socket ours ∈ log) :
    ours.encodedLen ≤ defaultMaxProtoLength ∧
      ∀ (peer : Task) (e : Exchange) (now : Instant), peer.exchange = some e →
        e.phase = .readCatchup → peer.step box (.catchupRead now ours) =
          some (peer.served (peer.actor.revive now e.stream ours.buffer), [.recovered true]) := by
  have fits := (encodedLen_reaches run).1 socket ours sent
  refine ⟨fits, ?_⟩
  intro peer e now under reading
  simp only [Task.step, under, Option.bind_some, Task.exchangeStep, reading, if_pos fits]

/-- A write, and a peer that has missed it. -/
theorem catchups_accepted_when_compact_one_missing :
    ∃ log t, (Task.system .naming (.client testKey none) 0).Reaches (fun _ t => t.Compact) log t ∧
      (framesOf log).length = 1 ∧ .sentCatchup 1 ⟨framesOf log⟩ ∈ log ∧
      (⟨framesOf log⟩ : CatchupBuffer).encodedLen ≤ defaultMaxProtoLength := by
  obtain ⟨log, t, run, one, sent⟩ : ∃ log t,
      (Task.system .naming (.client testKey none) 0).Reaches (fun _ t => t.Compact) log t ∧
        (framesOf log).length = 1 ∧ .sentCatchup 1 ⟨framesOf log⟩ ∈ log :=
    ⟨_, _, .execute .start
      [.write 0 true terminalBuffer [1], .settle, .deliver 0, .recover 1, .sequenceSent,
        .sequenceRead ⟨some 0⟩, .catchupSent] rfl, by decide, by decide⟩
  exact ⟨log, t, run, one, sent, (catchups_accepted_when_compact run sent).1⟩

end Runs

/-- The outage that fills the backup, and a peer that has missed all of it. -/
theorem catchup_outgrows_the_frame_cap :
    ∃ log t socket ours, (Task.system .naming (.client testKey none) 0).Reachable log t ∧
      .sentCatchup socket ours ∈ log ∧ defaultMaxProtoLength < ours.encodedLen := by
  obtain ⟨s, first, second, rests, window, backup, -, length, length'⟩ := filled_backup
  have chosen : s.catchup ⟨some 0⟩ = .ok ⟨[first, second]⟩ := by
    have range : (0 : Int) ≤ s.writerSeq - (0 : Int32).toInt ∧
        (s.writerSeq : Int) - (0 : Int32).toInt ≤ s.backup.length := by
      rw [window.seq, backup]
      show (0 : Int) ≤ 2 - 0 ∧ (2 : Int) - 0 ≤ 2
      decide
    exact (window.catchup ⟨some 0⟩).1 range
  obtain ⟨log, sent, run⟩ := rests.answer chosen 1
  refine ⟨log, _, 1, _, run, sent, ?_⟩
  simp only [CatchupBuffer.encodedLen, List.map_cons, List.map_nil, List.sum_cons, List.sum_nil,
    length, length']
  decide

end Backed

end Et
