import EtClient.Backed.Backup
import EtClient.Backed.Nonce
import EtClient.Backed.Sockets

/-!
# The backup and the write queue

The frames of a socket wait in a queue for the socket's writer task. The queue is
bounded in frames, the backup in bytes, and the backup is trimmed before the queue is
asked, so the two windows are unrelated: a frame can leave the backup while the writer
task has not taken it yet.

The outbox is the task together with that queue. `held` are the frames that no queue
took since the last successful recover: written offline, refused, or left in the queue
of a writer task that ended. A successful recover starts over with a new queue, since
everything written before has been accepted by the peer or was just sent to it.
-/

namespace Et

namespace Backed

structure Outbox where
  task : Task
  /-- Taken by the write queue and not yet by the writer task, oldest first, without
  their length prefix. -/
  queue : List Bytes
  held : List Bytes
  /-- The writer task still receives. -/
  writing : Bool

inductive OutboxAct
  | task (act : Act)
  /-- The writer task takes a frame from its queue. -/
  | take
  /-- A write to the socket failed, and `writer_task` returned. -/
  | writerEnds

/-- The payload of the packet that an action makes the actor write: a command's, or the empty one
of a ping that is due. -/
def Actor.written? (s : Actor) : Act → Option Bytes
  | .write _ _ _ payload => some payload
  | .tick now _ =>
      match s.cfg.keepalive with
      | some period =>
          if period ≤ now - s.lastActivity ∧ s.waitingOnKeepalive = false then some [] else none
      | none => none
  | _ => none

namespace Outbox

/-- Written with `Ok` and not taken by a writer task. -/
def unsent (s : Outbox) : List Bytes := s.queue ++ s.held

/-- Where the frames of a step of the task end up. -/
def noted (s : Outbox) (task : Task) (effects : List Effect) : Outbox :=
  if .recovered true ∈ effects then ⟨task, [], [], true⟩
  else if effects.any fun e => e matches .queued _ _ then
    { s with task := task, queue := s.queue ++ framesOf effects }
  else { s with task := task, held := s.held ++ framesOf effects }

/-- The queue takes a frame only while the writer task receives and a slot is free. -/
def canAccept (s : Outbox) : Bool := s.writing && s.queue.length < writeQueueDepth

def step (box : SecretBox) (s : Outbox) : OutboxAct → Option (Outbox × List Effect)
  | .task act =>
      if act.accepts && !s.canAccept then none
      else (s.task.step box act).map fun (task, effects) => (s.noted task effects, effects)
  | .take =>
      match s.queue with
      | [] => none
      | _ :: rest => some ({ s with queue := rest }, [])
  | .writerEnds =>
      if s.writing then
        some ({ s with queue := [], held := s.queue ++ s.held, writing := false }, [])
      else none

def system (box : SecretBox) (cfg : BackedConfig) (now : Instant) :
    Transition.System Outbox OutboxAct Effect where
  start := ⟨.spawn cfg now 0, [], [], true⟩
  step := step box

/-- A packet that is written on a live socket fits, with its authenticator and its header, into
the backup's limit beside what is unsent. -/
def Fits (s : Outbox) : OutboxAct → Prop
  | .task act => ∀ payload ∈ s.task.actor.written? act, s.task.actor.live.isSome = true →
      Window.total List.length s.unsent + payload.length + macBytes + Packet.headerSize ≤
        maxBackupBytes
  | .take | .writerEnds => True

instance (s : Outbox) : (act : OutboxAct) → Decidable (s.Fits act)
  | .task act => inferInstanceAs (Decidable (∀ payload ∈ s.task.actor.written? act, _ → _))
  | .take | .writerEnds => .isTrue trivial

end Outbox

theorem Actor.Writes.encryption {box : SecretBox} {now : Instant} {accepts : Bool} {s s' : Actor}
    {header : UInt8} {payload : Bytes} {effects : List Effect}
    (writes : s.Writes box now accepts header payload s' effects) {e : Encryption}
    (boxed : e ∈ encryptionsOf effects) : (s.nextFrame box header payload).2 = e.frame := by
  cases writes with
  | shutdown | skipped => cases boxed
  | buffered crypto frame _ _ next | queued crypto frame _ _ _ next
  | killed crypto frame _ _ _ next =>
      cases List.mem_singleton.1 boxed
      exact congrArg Prod.snd next

/-- What a step boxes is the packet of its action. -/
theorem Task.written_of_step {box : SecretBox} (lawful : box.Lawful) {t t' : Task} {act : Act}
    {effects : List Effect} (stepped : t.step box act = some (t', effects)) {e : Encryption}
    (boxed : e ∈ encryptionsOf effects) :
    ∃ payload ∈ t.actor.written? act,
      e.frame.length = payload.length + macBytes + Packet.headerSize := by
  cases step_moves stepped with
  | write _ _ _ payload _ _ _ writes =>
      exact ⟨payload, rfl,
        Actor.length_nextFrame lawful (Prod.ext rfl (writes.encryption boxed))⟩
  | tick now _ _ _ _ _ ticks =>
      cases ticks with
      | idle | closed => cases boxed
      | pinged period _ _ enforced _ _ elapsed waiting writes =>
          refine ⟨[], ?_,
            Actor.length_nextFrame lawful (Prod.ext rfl (writes.encryption boxed))⟩
          simp only [Actor.written?, enforced, if_pos (And.intro elapsed waiting)]
          rfl
  | rejected now _ _ _ popped | opened now _ _ _ _ popped =>
      have quiet := (Actor.deliverOne_writer box now t.actor).2.2
      rw [popped] at quiet
      rw [quiet.encryptions] at boxed
      cases boxed
  | sendDead | finish => split at boxed <;> cases boxed
  | killSocket | recover | shutdown | frame | socketLost | close | notice | proceed | send
  | noticeFails | sendFails | drained | dropConsumer | sequenceSent | answered | denied
  | catchupSent | revived | oversized | exchangeFails => cases boxed

/-- The unsent frames are the newest part of the backup. Frames are held only when the
queue takes no more, so the queue's frames are the older ones. -/
structure KeepsUnsent (log : List Effect) (s : Outbox) : Prop where
  placed : s.task.Placed
  window : BackupOf (framesOf log) s.task.actor
  kept : s.unsent <:+ s.task.actor.backup.reverse
  order : s.held ≠ [] → s.writing = false ∨ s.task.socket = none

namespace KeepsUnsent

variable {box : SecretBox} {log effects : List Effect} {s : Outbox} {t' : Task}

/-- A step of the task that writes nothing. -/
theorem of_quiet (h : KeepsUnsent log s) {act : Act}
    (stepped : s.task.step box act = some (t', effects)) (same : SameWriter s.task.actor t'.actor)
    (quiet : WriterQuiet effects) : KeepsUnsent (log ++ effects) (s.noted t' effects) := by
  have placed := Task.step_placed h.placed stepped
  have frames : framesOf effects = [] := by rw [framesOf, quiet.encryptions]; rfl
  have window : BackupOf (framesOf (log ++ effects)) t'.actor := by
    rw [framesOf_append, frames, List.append_nil]
    exact h.window.of_same same
  by_cases fresh : .recovered true ∈ effects
  · rw [Outbox.noted, if_pos fresh]
    exact ⟨placed, window, List.nil_suffix, fun some => absurd rfl some⟩
  · have unchanged : s.noted t' effects = { s with task := t' } := by
      rw [Outbox.noted, if_neg fresh, frames, List.append_nil, List.append_nil, ite_self]
    rw [unchanged]
    refine ⟨placed, window, ?_, ?_⟩
    · show s.unsent <:+ t'.actor.backup.reverse
      rw [same.backup]
      exact h.kept
    · intro some
      obtain new | kept | dropped := Task.step_socket h.placed stepped
      · exact absurd new fresh
      · exact (h.order some).imp_right kept.trans
      · exact .inr dropped

/-- Pushing a frame keeps everything unsent exactly when that fits the limit, or when
there is no live socket and nothing is trimmed. -/
theorem pushBackup_kept_iff {s : Actor} {frames unsent : List Bytes} (window : BackupOf frames s)
    (kept : unsent <:+ s.backup.reverse) (crypto : CryptoHandler) (frame : Bytes) :
    unsent ++ [frame] <:+ (s.pushBackup crypto frame).backup.reverse ↔
      (s.live.isSome = true → Window.total List.length (unsent ++ [frame]) ≤ maxBackupBytes) := by
  have grown : unsent ++ [frame] <:+ (frame :: s.backup).reverse := by
    rw [List.reverse_cons]
    obtain ⟨front, eq⟩ := kept
    exact ⟨front, by rw [← List.append_assoc, eq]⟩
  have size := window.size_cons frame
  rw [Actor.pushBackup]
  split
  · rename_i live
    simp only [Actor.trimBackup, List.reverse_reverse, size]
    constructor
    · intro survived _
      exact (Window.total_le_of_suffix List.length survived).trans
        (Window.trim_total_le List.length maxBackupBytes (by decide) _)
    · intro fits
      exact Window.suffix_trim List.length maxBackupBytes grown (fits live)
  · rename_i offline
    exact ⟨fun _ live => absurd live offline, fun _ => grown⟩

/-- A step that writes a frame appends it to the unsent ones, whether a queue took it
or not, and keeps the order. -/
theorem of_written (h : KeepsUnsent log s) {act : Act}
    (stepped : s.task.step box act = some (t', effects))
    (accepted : act.accepts = true → s.canAccept = true) (wrote : framesOf effects ≠ []) :
    ∃ crypto frame, framesOf effects = [frame] ∧
      SameWriter (s.task.actor.pushBackup crypto frame) t'.actor ∧
      (s.noted t' effects).task = t' ∧ (s.noted t' effects).unsent = s.unsent ++ [frame] ∧
      ((s.noted t' effects).held ≠ [] →
        (s.noted t' effects).writing = false ∨ t'.socket = none) := by
  have encrypted : encryptionsOf effects ≠ [] := by
    intro none
    rw [framesOf, none] at wrote
    exact wrote rfl
  obtain ⟨idle, idle'⟩ := Task.step_idle_of_encrypted stepped encrypted
  obtain ⟨_, quiet⟩ | ⟨header, payload, crypto, frame, handed, _, same, rfl, given⟩ :=
    Task.step_writer stepped
  · exact absurd quiet.encryptions encrypted
  have frames := congrArg (List.map Encryption.frame) (given.boxed crypto.nonce header payload).1
  change framesOf _ = [frame] at frames
  refine ⟨crypto, frame, frames, same, ?_⟩
  obtain ⟨offline, rfl⟩ | ⟨socket, accepts, live, _, rfl⟩ := given
  · have noted : s.noted t' (.encrypted crypto.nonce header payload frame :: [] ++ [.wrote none]) =
        { s with task := t', held := s.held ++ [frame] } := by
      rw [Outbox.noted, if_neg (by simp), if_neg (by simp), frames]
    rw [noted]
    refine ⟨rfl, ?_, ?_⟩
    · exact (List.append_assoc _ _ _).symm
    · intro _
      exact .inr ((Task.socket_of_idle t' idle').trans offline)
  · have noted : s.noted t' (.encrypted crypto.nonce header payload frame ::
        [.queued socket (framePacket frame)] ++ [.wrote none]) =
        { s with task := t', queue := s.queue ++ [frame] } := by
      rw [Outbox.noted, if_neg (by simp), if_pos (by simp), frames]
    -- The queue took the frame, so its writer task runs and the socket is live.
    have open' := accepted accepts
    rw [Outbox.canAccept, Bool.and_eq_true] at open'
    have none : s.held = [] := by
      by_contra some
      obtain stopped | gone := h.order some
      · rw [stopped] at open'
        cases open'.1
      · rw [Task.socket_of_idle s.task idle, live] at gone
        cases gone
    rw [noted]
    refine ⟨rfl, ?_, ?_⟩
    · simp [Outbox.unsent, none]
    · intro some
      exact absurd none some

/-- What fits before the write is within the limit behind it. -/
theorem total_of_fits (lawful : box.Lawful) {act : Act} (fits : s.Fits (.task act))
    (stepped : s.task.step box act = some (t', effects)) {frame : Bytes}
    (frames : framesOf effects = [frame]) (live : s.task.actor.live.isSome = true) :
    Window.total List.length (s.unsent ++ [frame]) ≤ maxBackupBytes := by
  have boxed : frame ∈ framesOf effects := by
    rw [frames]
    exact List.mem_singleton_self frame
  obtain ⟨e, logged, rfl⟩ := List.mem_map.1 boxed
  obtain ⟨payload, written, length⟩ := Task.written_of_step lawful stepped logged
  have limit := fits payload written live
  rw [Window.total_concat, length]
  push_cast
  omega

theorem step {act : OutboxAct} {s' : Outbox} (h : KeepsUnsent log s) (lawful : box.Lawful)
    (fits : s.Fits act) (stepped : s.step box act = some (s', effects)) :
    KeepsUnsent (log ++ effects) s' := by
  cases act with
  | task act =>
      simp only [Outbox.step] at stepped
      split at stepped
      · cases stepped
      rename_i accepted
      obtain ⟨⟨t', emitted⟩, inner, done⟩ := Option.map_eq_some_iff.mp stepped
      cases done
      by_cases wrote : framesOf emitted = []
      · obtain ⟨same, quiet⟩ | ⟨header, payload, crypto, frame, handed, _, _, rfl, given⟩ :=
          Task.step_writer inner
        · exact h.of_quiet inner same quiet
        · rw [framesOf, (given.boxed crypto.nonce header payload).1] at wrote
          cases wrote
      · obtain ⟨crypto, frame, frames, same, task, unsent, order⟩ :=
          h.of_written inner (by simpa using accepted) wrote
        refine ⟨?_, ?_, ?_, ?_⟩
        · rw [task]
          exact Task.step_placed h.placed inner
        · rw [task, framesOf_append]
          exact h.window.step (Task.step_writer inner)
        · rw [task, unsent, same.backup]
          exact (pushBackup_kept_iff h.window h.kept crypto frame).mpr
            (total_of_fits lawful fits inner frames)
        · rw [task]
          exact order
  | take =>
      simp only [Outbox.step] at stepped
      split at stepped <;> cases stepped
      rename_i frame rest queue
      rw [List.append_nil]
      refine ⟨h.placed, h.window, ?_, h.order⟩
      have kept := h.kept
      rw [Outbox.unsent, queue] at kept
      exact (List.suffix_cons frame (rest ++ s.held)).trans kept
  | writerEnds =>
      simp only [Outbox.step] at stepped
      split at stepped <;> cases stepped
      rw [List.append_nil]
      exact ⟨h.placed, h.window, h.kept, fun _ => .inl rfl⟩

end KeepsUnsent

section Runs

variable {box : SecretBox} {cfg : BackedConfig} {now : Instant} {log : List Effect} {s : Outbox}

theorem keepsUnsent_reaches (lawful : box.Lawful)
    (run : (Outbox.system box cfg now).Reaches (fun _ s act => s.Fits act) log s) :
    KeepsUnsent log s := by
  refine run.invariant (P := fun log s => KeepsUnsent log s) ?_ ?_
  · exact ⟨.inl rfl, ⟨List.suffix_refl _, rfl, rfl⟩, List.nil_suffix, fun some => absurd rfl some⟩
  · intro log s act s' effects kept fits stepped
    exact kept.step lawful fits stepped

/-- As long as every packet that is written on a live socket fits into the backup's limit beside
the unsent bytes, every frame whose write returned `Ok` and that the writer task has not taken is
in the backup. The limit is exact: the write that first leaves more drops one of them. -/
theorem unsent_frames_backed_up (lawful : box.Lawful)
    (run : (Outbox.system box cfg now).Reaches (fun _ s act => s.Fits act) log s) :
    (∀ frame ∈ s.unsent, frame ∈ s.task.actor.backup) ∧
      s.unsent <:+ s.task.actor.backup.reverse ∧
      ∀ act s' effects, s.step box act = some (s', effects) → framesOf effects ≠ [] →
        s.task.actor.live.isSome = true →
        (s'.unsent <:+ s'.task.actor.backup.reverse ↔
          Window.total List.length s'.unsent ≤ maxBackupBytes) := by
  have kept := keepsUnsent_reaches lawful run
  refine ⟨?_, kept.kept, ?_⟩
  · intro frame unsent
    exact List.mem_reverse.mp (kept.kept.subset unsent)
  · intro act s' effects stepped wrote live
    cases act with
    | task act =>
        simp only [Outbox.step] at stepped
        split at stepped
        · cases stepped
        rename_i accepted
        obtain ⟨⟨t', _⟩, inner, done⟩ := Option.map_eq_some_iff.mp stepped
        cases done
        obtain ⟨crypto, frame, _, same, task, unsent, _⟩ :=
          kept.of_written inner (by simpa using accepted) wrote
        rw [task, unsent, same.backup]
        exact (KeepsUnsent.pushBackup_kept_iff kept.window kept.kept crypto frame).trans
          ⟨fun fits => fits live, fun fits _ => fits⟩
    | take =>
        simp only [Outbox.step] at stepped
        split at stepped <;> cases stepped
        exact absurd rfl wrote
    | writerEnds =>
        simp only [Outbox.step] at stepped
        split at stepped <;> cases stepped
        exact absurd rfl wrote

/-- Two frames in the queue and one that was refused, all of them in the backup. -/
theorem unsent_frames_backed_up_refused :
    ∃ log s, (Outbox.system .naming (.client testKey none) 0).Reaches
        (fun _ s act => s.Fits act) log s ∧
      s.unsent.length = 3 ∧ ∀ frame ∈ s.unsent, frame ∈ s.task.actor.backup := by
  obtain ⟨log, s, run, three⟩ :
      ∃ log s, (Outbox.system .naming (.client testKey none) 0).Reaches
        (fun _ s act => s.Fits act) log s ∧ s.unsent.length = 3 :=
    ⟨_, _, .execute .start
      [.task (.write 0 true terminalBuffer [1]), .task .settle, .task (.deliver 0),
        .task (.write 0 true terminalBuffer [2]), .task .settle, .task (.deliver 0),
        .task (.write 0 false terminalBuffer [3])] rfl, by decide⟩
  exact ⟨log, s, run, three, (unsent_frames_backed_up SecretBox.naming_lawful run).1⟩

end Runs

/-- A frame longer than the backup's limit does not survive its own write on a live
socket. -/
theorem oversized_not_backed_up {s : Actor} {frames : List Bytes} (window : BackupOf frames s)
    (live : s.live.isSome = true) (crypto : CryptoHandler) (frame : Bytes)
    (large : maxBackupBytes < frame.length) : frame ∉ (s.pushBackup crypto frame).backup := by
  have size := window.size_cons frame
  intro member
  rw [Actor.pushBackup, if_pos live] at member
  simp only [Actor.trimBackup, size, List.mem_reverse] at member
  have bound := (Window.size_le_total_of_mem List.length member).trans
    (Window.trim_total_le List.length maxBackupBytes (by decide) _)
  omega

/-- The socket of a fresh actor after its writer task has ended. -/
def Outbox.stopped : Outbox := ⟨.spawn (.client testKey none) 0 0, [], [], false⟩

theorem Outbox.reachable_stopped :
    (Outbox.system .naming (.client testKey none) 0).Reachable [] Outbox.stopped :=
  .execute .start [.writerEnds] rfl

/-- A packet above the limit is written there: the queue refuses the frame, and the
backup does not have it either. -/
theorem oversized_write_lost (payload : Bytes)
    (large : maxBackupBytes < (payload.length : Int) + macBytes + Packet.headerSize) :
    ∃ log s, (Outbox.system .naming (.client testKey none) 0).Reachable log s ∧
      .wrote none ∈ log ∧ (∃ frame ∈ s.unsent, frame ∉ s.task.actor.backup) ∧
      ∃ message, s.task.actor.catchup ⟨some 0⟩ = .error message := by
  have window : BackupOf [] Outbox.stopped.task.actor := ⟨List.suffix_refl _, rfl, rfl⟩
  have writer : WriterOf .naming (.client testKey none) [] Outbox.stopped.task.actor :=
    ⟨rfl, rfl, rfl, rfl⟩
  obtain ⟨failure, refused, _⟩ | ⟨_, _, crypto, frame, next, done⟩ :=
    Actor.write_cases .naming 0 false Outbox.stopped.task.actor terminalBuffer payload
  · obtain down | full := refused
    · cases down
    · cases full
  rw [writer.nextFrame] at next
  obtain ⟨_, boxed⟩ := Prod.mk.inj next
  have long : maxBackupBytes < (frame.length : Int) := by
    rw [← boxed, Packet.length_boxed SecretBox.naming_lawful]
    push_cast
    exact large
  have lost := oversized_not_backed_up window rfl crypto frame long
  obtain ⟨_, _, taken, _⟩ | ⟨_, _, silent⟩ := Actor.handOver_effects 0 false
    (Outbox.stopped.task.actor.pushBackup crypto frame) frame
  · cases taken
  have same := (Actor.handOver_same 0 false
    (Outbox.stopped.task.actor.pushBackup crypto frame) frame).1
  have window' := (window.pushBackup crypto frame).of_same same
  rw [← same.backup] at lost
  generalize ((Outbox.stopped.task.actor.pushBackup crypto frame).handOver 0 false frame).1 =
    actor at done lost window'
  rw [silent] at done
  have stepped : Outbox.stopped.step .naming (.task (.write 0 false terminalBuffer payload)) =
      some (⟨Outbox.stopped.task.served actor, [], [frame], false⟩,
        [.encrypted crypto.nonce terminalBuffer payload frame, .wrote none]) := by
    have serves : Outbox.stopped.task.serves = true := rfl
    simp only [Outbox.step, Act.accepts, Bool.false_and, Bool.false_eq_true, if_false, Task.step,
      serves, if_true, done]
    rfl
  have gone : actor.backup = [] := by
    cases backup : actor.backup with
    | nil => rfl
    | cons oldest rest =>
        have front : oldest ∈ actor.backup.reverse := by simp [backup]
        have inside := window'.suffix.subset front
        rw [List.nil_append, List.mem_singleton] at inside
        rw [backup, inside] at lost
        simp at lost
  have run := Outbox.reachable_stopped.next
    (OutboxAct.task (.write 0 false terminalBuffer payload)) trivial stepped
  refine ⟨_, _, run, by simp, ⟨frame, ?_, lost⟩, ?_⟩
  · exact List.mem_singleton.mpr rfl
  · apply (window'.catchup ⟨some 0⟩).2
    rw [window'.seq, gone]
    show ¬ ((0 : Int) ≤ 1 - 0 ∧ (1 : Int) - 0 ≤ 0)
    decide

/-- A packet of 64 MiB: its frame is 18 bytes above the limit. -/
theorem refused_frame_not_backed_up :
    ∃ log s, (Outbox.system .naming (.client testKey none) 0).Reachable log s ∧
      .wrote none ∈ log ∧ (∃ frame ∈ s.unsent, frame ∉ s.task.actor.backup) ∧
      ∃ message, s.task.actor.catchup ⟨some 0⟩ = .error message := by
  have length : (List.replicate (2 ^ 26) (0 : UInt8)).length = 2 ^ 26 := List.length_replicate
  apply oversized_write_lost (List.replicate (2 ^ 26) 0)
  rw [length]
  decide

end Backed

end Et
