import Mathlib.Data.List.TakeWhile
import EtClient.Client.Serving

/-!
# Writes behind the end of the session

The owner learns of the end from `Event::Dead`. When the actor has ended the session by
itself, no command behind it is served, and a write fails. When the supervisor ends it,
because the server refused the key or lost its state, the event is sent first and the
shutdown command second: until that command is in the actor's queue, a write of an owner
that already knows is buffered and returns `Ok`.

With the shutdown ahead of it in the queue, such a write is never served. It is dropped
with the queue or finds no actor, and both are `Err(Shutdown)`.
-/

namespace Et

namespace Client

open Backed

/-- The owner is told that the session is over. -/
def HubNote.isDead : HubNote → Bool
  | .received (.dead _) => true
  | _ => false

/-- The history from the first `Event::Dead` on that the owner has received. -/
def sinceDead (log : List HubNote) : List HubNote := log.dropWhile fun note => !note.isDead

theorem sinceDead_append (log notes : List HubNote) :
    sinceDead (log ++ notes) =
      if (sinceDead log).isEmpty then sinceDead notes else sinceDead log ++ notes :=
  List.dropWhile_append

/-- A step that starts no call makes none late. -/
theorem late_of_append {log notes : List HubNote} {call : Nat}
    (late : .started call ∈ sinceDead (log ++ notes)) (other : .started call ∉ notes) :
    .started call ∈ sinceDead log := by
  rw [sinceDead_append] at late
  split at late
  · exact absurd ((List.dropWhile_sublist _).subset late) other
  · exact (List.mem_append.mp late).resolve_right other

/-- Every call that meets `late` has a shutdown ahead of it. -/
def Covered (late : Nat → Prop) : List Cmd → Prop
  | [] => True
  | cmd :: rest =>
      cmd = .shutdown ∨ (∀ call, cmd.call? = some call → ¬ late call) ∧ Covered late rest

namespace Covered

variable {late late' : Nat → Prop} {cmds : List Cmd} {cmd : Cmd}

theorem append (covered : Covered late cmds)
    (last : .shutdown ∈ cmds ∨ ∀ call, cmd.call? = some call → ¬ late call) :
    Covered late (cmds ++ [cmd]) := by
  induction cmds with
  | nil =>
      refine .inr ⟨?_, trivial⟩
      exact last.resolve_left List.not_mem_nil
  | cons first rest ih =>
      rcases covered with here | ⟨early, covered⟩
      · exact .inl here
      by_cases here : first = .shutdown
      · exact .inl here
      refine .inr ⟨early, ih covered (last.imp_left ?_)⟩
      intro ahead
      exact (List.mem_cons.mp ahead).resolve_left (Ne.symm here)

theorem tail (covered : Covered late (cmd :: cmds)) (other : cmd ≠ .shutdown) :
    Covered late cmds :=
  (covered.resolve_left other).2

theorem mono (covered : Covered late cmds)
    (same : ∀ cmd ∈ cmds, ∀ call, cmd.call? = some call → late' call → late call) :
    Covered late' cmds := by
  induction cmds with
  | nil => trivial
  | cons first rest ih =>
      refine covered.imp_right ?_
      rintro ⟨early, covered⟩
      refine ⟨fun call carries behind => early call carries ?_, ih covered ?_⟩
      · exact same first List.mem_cons_self call carries behind
      · exact fun cmd queued => same cmd (List.mem_cons_of_mem _ queued)

end Covered

namespace Hub

/-- The session is over, or a shutdown is on its way. -/
def Ending (h : Hub) : Prop := h.task.finished = true ∨ .shutdown ∈ h.cmds

/-- A write that the owner starts behind `Event::Dead` gets its slot only when the
supervisor's own shutdown has got one. -/
def orderly (h : Hub) (log : List HubNote) : HubAct → Bool
  | .submit (.write call _ _) => .started call ∉ sinceDead log || h.supervisor = .returned
  | _ => true

/-- The calls of the owner that have not returned. -/
def pending (h : Hub) : List Cmd := h.cmds ++ h.calls

/-- The owner knows, or is about to know, that the session is over. -/
def Known (log : List HubNote) (h : Hub) : Prop :=
  (∃ reason, .dead reason ∈ h.events) ∨ sinceDead log ≠ []

/-- What the owner's calls, the queue and the end of the session have to do with each
other. -/
structure DeadOf (log : List HubNote) (h : Hub) : Prop where
  sound : h.Sound
  /-- A number is given to one call only. -/
  fresh : ∀ call, .started call ∈ log ∨ (∃ failure, .returned call failure ∈ log) ∨
    (∃ cmd ∈ h.pending, cmd.call? = some call) → call < h.started
  /-- The actor's last event is sent behind its loop. -/
  last : (∃ reason, .dead reason ∈ h.backedEvents) ∨
    (∃ reason, h.supervisor = .reporting reason false) → h.task.pc.terminal = true
  told : Known log h → h.supervisor = .shuttingDown ∨ h.supervisor = .returned ∧ h.Ending
  behind : h.task.finished = true ∨ Covered (fun call => .started call ∈ sinceDead log) h.cmds
  failed : ∀ call failure, .started call ∈ sinceDead log → .returned call failure ∈ log →
    failure = some .shutdown
  tracked : ∀ call, .started call ∈ log →
    (∃ failure, .returned call failure ∈ log) ∨ ∃ cmd ∈ h.pending, cmd.call? = some call

variable {box : SecretBox} {h h' : Hub} {a : HubAct} {log notes : List HubNote}

/-- Only the actor moves its task. -/
theorem Moves.task (moves : Moves box h a h' notes) :
    h'.task = h.task ∨ ∃ act effects, h.task.step box act = some (h'.task, effects) := by
  cases moves with
  | actor act task effects _ stepped => exact .inr ⟨act, effects, stepped⟩
  | _ => exact .inl rfl

theorem Moves.finished (moves : Moves box h a h' notes) (sound : h.Sound)
    (finished : h.task.finished = true) : h'.task.finished = true := by
  obtain same | ⟨act, effects, stepped⟩ := moves.task
  · rwa [same]
  · exact Task.step_finished sound.placed stepped finished

theorem Moves.terminal (moves : Moves box h a h' notes) (sound : h.Sound)
    (ended : h.task.pc.terminal = true) : h'.task.pc.terminal = true := by
  obtain same | ⟨act, effects, stepped⟩ := moves.task
  · rwa [same]
  · by_contra running
    have before := Task.step_running sound.placed stepped (Bool.eq_false_of_not_eq_true running)
    cases before.symm.trans ended

theorem finished_of_terminal (ended : h.task.pc.terminal = true) : h.task.finished = true := by
  rw [Task.finished, ended, Bool.or_true]

/-- A served shutdown ends the session. -/
theorem finished_of_shutdown {t t' : Backed.Task} {effects : List Effect}
    (stepped : t.step box .shutdown = some (t', effects)) : t'.finished = true := by
  cases Task.step_moves stepped with
  | shutdown =>
      rw [Task.finished, Task.served_actor]
      rfl

/-- What a step does to the queue. -/
theorem Moves.queue (moves : Moves box h a h' notes) :
    h'.cmds = h.cmds ∨
      (∃ cmd, h.cmds = cmd :: h'.cmds ∧ (cmd = .shutdown → h'.task.finished = true)) ∨
      ∃ cmd, h'.cmds = h.cmds ++ [cmd] ∧ (cmd.call? = none ∨ a = .submit cmd) := by
  cases moves with
  | actor act task effects offered stepped =>
      obtain same | ⟨cmd, queue, ends, _⟩ := taking_cases offered
      · exact .inl same
      · refine .inr (.inl ⟨cmd, queue, ?_⟩)
        intro last
        rw [ends last] at stepped
        exact finished_of_shutdown stepped
  | asked stream => exact .inr (.inr ⟨_, rfl, .inl rfl⟩)
  | shutdownSent => exact .inr (.inr ⟨_, rfl, .inl rfl⟩)
  | submit cmd => exact .inr (.inr ⟨cmd, rfl, .inr rfl⟩)
  | lose cmd rest queue finished =>
      refine .inr (.inl ⟨cmd, queue, fun _ => finished_of_terminal ?_⟩)
      dsimp only
      rw [finished]
      rfl
  | _ => exact .inl rfl

theorem Moves.ending (moves : Moves box h a h' notes) (sound : h.Sound) (ending : h.Ending) :
    h'.Ending := by
  rcases ending with finished | ahead
  · exact .inl (moves.finished sound finished)
  obtain same | ⟨cmd, queue, ends⟩ | ⟨cmd, queue, _⟩ := moves.queue
  · exact .inr (same ▸ ahead)
  · rw [queue, List.mem_cons] at ahead
    rcases ahead with rfl | ahead
    · exact .inl (ends rfl)
    · exact .inr ahead
  · right
    rw [queue]
    exact List.mem_append_left _ ahead

theorem mem_replies {act : Act} {effects : List Effect} {note : HubNote}
    (told : note ∈ h.replies act effects) :
    ∃ now accepts header payload cmd call failure, act = .write now accepts header payload ∧
      h.cmds.head? = some cmd ∧ cmd.call? = some call ∧ note = .returned call failure := by
  cases act with
  | write now accepts header payload =>
      simp only [replies, List.mem_flatMap, Option.mem_toList, List.mem_filterMap] at told
      obtain ⟨call, carries, effect, _, eq⟩ := told
      obtain ⟨cmd, head, carries⟩ := Option.bind_eq_some_iff.mp carries
      split at eq <;> cases eq
      exact ⟨now, accepts, header, payload, cmd, call, _, rfl, head, carries, rfl⟩
  | _ => cases told

/-- What a step does to the calls of the owner. -/
structure Answers (h h' : Hub) (notes : List HubNote) : Prop where
  grows : h.started ≤ h'.started
  begins : ∀ call, .started call ∈ notes → call = h.started ∧ call < h'.started ∧
    ∃ cmd ∈ h'.pending, cmd.call? = some call
  /-- A call waits on, or it returns. -/
  kept : ∀ cmd ∈ h.pending, ∀ call, cmd.call? = some call →
    cmd ∈ h'.pending ∨ ∃ failure, .returned call failure ∈ notes
  /-- A call waited before, or it is the one that begins. -/
  old : ∀ cmd ∈ h'.pending, ∀ call, cmd.call? = some call → cmd ∈ h.pending ∨ call < h'.started
  /-- A call that returns has waited; only one that the actor serves gets an answer of its
  own. -/
  ends : ∀ call failure, .returned call failure ∈ notes →
    (∃ cmd ∈ h.pending, cmd.call? = some call) ∧
      (failure = some .shutdown ∨ h.task.serves = true ∧
        ∃ cmd, h.cmds.head? = some cmd ∧ cmd.call? = some call)

theorem mem_pending_of_head {cmd : Cmd} (head : h.cmds.head? = some cmd) : cmd ∈ h.pending :=
  List.mem_append_left _ (List.mem_of_mem_head? head)

theorem answers_actor {act : Act} {task : Backed.Task} {effects : List Effect}
    (offered : h.offers act = true) (stepped : h.task.step box act = some (task, effects)) :
    Answers h
      { h with
        task := task
        cmds := h.taking act
        backedEvents := h.backedEvents ++ eventsOf effects
        supervisor := h.supervisor.after (.actor act) effects }
      (effects.map .backed ++ h.replies act effects) := by
  have moves := Task.step_moves stepped
  have fewer : ∀ cmd ∈ h.taking act, cmd ∈ h.cmds := by
    obtain same | ⟨cmd, queue, _⟩ := taking_cases offered
    · rw [same]
      exact fun _ => id
    · rw [queue]
      exact fun _ => List.mem_cons_of_mem _
  refine ⟨Nat.le_refl _, ?_, ?_, ?_, ?_⟩
  · intro call told
    rcases List.mem_append.mp told with inner | answer
    · simp at inner
    · obtain ⟨_, _, _, _, _, _, _, _, _, _, eq⟩ := mem_replies answer
      cases eq
  · intro cmd waits call carries
    rcases List.mem_append.mp waits with queued | waiting
    · obtain same | ⟨first, queue, _, write⟩ := taking_cases offered
      · exact .inl (List.mem_append_left _ (same ▸ queued))
      · rw [queue, List.mem_cons] at queued
        rcases queued with rfl | later
        · right
          obtain ⟨now, accepts, header, payload, rfl, rfl⟩ := write call carries
          obtain ⟨failure, told⟩ := replies_write queue moves
          exact ⟨failure, List.mem_append_right _ told⟩
        · exact .inl (List.mem_append_left _ later)
    · exact .inl (List.mem_append_right _ waiting)
  · intro cmd waits call _
    left
    rcases List.mem_append.mp waits with queued | waiting
    · exact List.mem_append_left _ (fewer cmd queued)
    · exact List.mem_append_right _ waiting
  · intro call failure told
    rcases List.mem_append.mp told with inner | answer
    · simp at inner
    · obtain ⟨_, _, _, _, cmd, _, _, rfl, head, carries, eq⟩ := mem_replies answer
      cases eq
      refine ⟨⟨cmd, mem_pending_of_head head, carries⟩, .inr ⟨?_, cmd, head, carries⟩⟩
      cases moves with
      | write _ _ _ _ _ _ ready => exact ready

/-- A step that answers no call. -/
theorem Answers.of_quiet
    (kept : ∀ cmd ∈ h.pending, ∀ call, cmd.call? = some call → cmd ∈ h'.pending)
    (old : ∀ cmd ∈ h'.pending, ∀ call, cmd.call? = some call → cmd ∈ h.pending)
    (started : h'.started = h.started)
    (silent : ∀ call, .started call ∉ notes ∧ ∀ failure, .returned call failure ∉ notes) :
    Answers h h' notes where
  grows := started ▸ Nat.le_refl _
  begins := fun call told => absurd told (silent call).1
  kept := fun cmd waits call carries => .inl (kept cmd waits call carries)
  old := fun cmd waits call carries => .inl (old cmd waits call carries)
  ends := fun call failure told => absurd told ((silent call).2 failure)

theorem answers_start {cmd : Cmd} (next : h.starts cmd = true) :
    Answers h
      { h with
        calls := h.calls ++ [cmd]
        started := h.started + cmd.call?.toList.length }
      (cmd.call?.toList.map .started) := by
  have numbered : ∀ call, cmd.call? = some call → call = h.started := by
    intro call carries
    cases cmd with
    | write call' => 
        cases carries
        exact of_decide_eq_true next
    | killSocket | recover | shutdown => cases carries
  refine ⟨Nat.le_add_right _ _, ?_, ?_, ?_, ?_⟩
  · intro call told
    obtain ⟨call', carries, eq⟩ := List.mem_map.mp told
    cases eq
    rw [Option.mem_toList] at carries
    refine ⟨numbered call carries, ?_, cmd, ?_, carries⟩
    · rw [numbered call carries]
      simp [Option.mem_def.mp carries]
    · simp [pending]
  · intro other waits call _
    left
    rw [pending, ← List.append_assoc]
    exact List.mem_append_left _ waits
  · intro other waits call carries
    rw [pending, ← List.append_assoc] at waits
    rcases List.mem_append.mp waits with before | new
    · exact .inl before
    · right
      rw [List.mem_singleton.mp new] at carries
      rw [numbered call carries]
      simp [carries]
  · intro call failure told
    simp at told

/-- A call that is given up when the actor has ended. -/
theorem Answers.of_given_up {cmd : Cmd} (waited : cmd ∈ h.pending)
    (kept : ∀ other ∈ h.pending, other = cmd ∨ other ∈ h'.pending)
    (old : ∀ other ∈ h'.pending, other ∈ h.pending) (started : h'.started = h.started) :
    Answers h h' (cmd.call?.toList.map (.returned · (some .shutdown))) := by
  refine ⟨started ▸ Nat.le_refl _, ?_, ?_, fun other waits _ _ => .inl (old other waits), ?_⟩
  · intro call told
    simp at told
  · intro other waits call carries
    rcases kept other waits with rfl | still
    · exact .inr ⟨some .shutdown, by simp [carries]⟩
    · exact .inl still
  · intro call failure told
    obtain ⟨call', carries, eq⟩ := List.mem_map.mp told
    cases eq
    exact ⟨⟨cmd, waited, Option.mem_toList.mp carries⟩, .inl rfl⟩

theorem Moves.answers (moves : Moves box h a h' notes) : Answers h h' notes := by
  have same (waiting : h'.pending = h.pending) (started : h'.started = h.started)
      (silent : ∀ call, .started call ∉ notes ∧ ∀ failure, .returned call failure ∉ notes) :
      Answers h h' notes :=
    .of_quiet (fun _ waits _ _ => waiting ▸ waits) (fun _ waits _ _ => waiting ▸ waits) started
      silent
  -- A command of the supervisor is no call of the owner.
  have sent {cmd : Cmd} (queue : h'.cmds = h.cmds ++ [cmd]) (calls : h'.calls = h.calls)
      (other : cmd.call? = none) (started : h'.started = h.started) : Answers h h' [] := by
    refine .of_quiet ?_ ?_ started (by simp)
    · intro found waits _ _
      rw [pending, queue, calls, List.append_assoc]
      exact (List.mem_append.mp waits).elim (List.mem_append_left _)
        fun waiting => List.mem_append_right _ (List.mem_append_right _ waiting)
    · intro found waits call carries
      simp only [pending, queue, calls, List.mem_append, List.mem_singleton] at waits ⊢
      rcases waits with (queued | rfl) | waiting
      · exact .inl queued
      · cases other.symm.trans carries
      · exact .inr waiting
  cases moves with
  | actor act task effects offered stepped => exact answers_actor offered stepped
  | recv event =>
      apply same rfl rfl
      intro call
      cases event <;> simp [entering, Supervisor.receive]
  | asked | shutdownSent => exact sent rfl rfl rfl rfl
  | start cmd _ next => exact answers_start next
  | submit cmd waits =>
      refine .of_quiet ?_ ?_ rfl (by simp)
      · intro other waiting _ _
        simp only [pending, List.mem_append, List.mem_singleton] at waiting ⊢
        by_cases here : other = cmd
        · exact .inl (.inr here)
        · exact waiting.imp .inl (List.mem_erase_of_ne here).mpr
      · intro other waiting _ _
        simp only [pending, List.mem_append, List.mem_singleton] at waiting ⊢
        rcases waiting with (queued | rfl) | waiting
        · exact .inl queued
        · exact .inr waits
        · exact .inr (List.mem_of_mem_erase waiting)
  | refuse cmd waits =>
      refine .of_given_up (List.mem_append_right _ waits) ?_ ?_ rfl
      · intro other waiting
        by_cases here : other = cmd
        · exact .inl here
        · right
          simp only [pending, List.mem_append] at waiting ⊢
          exact waiting.imp_right (List.mem_erase_of_ne here).mpr
      · intro other waiting
        simp only [pending, List.mem_append] at waiting ⊢
        exact waiting.imp_right List.mem_of_mem_erase
  | lose cmd rest queue =>
      refine .of_given_up ?_ ?_ ?_ rfl
      · simp [pending, queue]
      · intro other waiting
        simpa [pending, queue, or_assoc] using waiting
      · intro other waiting
        simp only [pending, queue, List.cons_append]
        exact List.mem_cons_of_mem _ waiting
  | slept | receive => exact same rfl rfl (by simp)
  | recvEnd | ownerGone | forwarded | forwardFails | reported | reportFails | handshake
  | recoverLost | shutdownLost | drop => exact same rfl rfl (by simp)

theorem Moves.returned (moves : Moves box h a h' notes) (sound : h.Sound)
    (returned : h.supervisor = .returned) : h'.supervisor = .returned := by
  cases moves with
  | actor act task effects offered stepped =>
      rcases sound.after offered stepped with same | ⟨waits, _⟩
      · exact same.trans returned
      · cases waits.symm.trans returned
  | recv _ _ here | recvEnd here | forwarded _ here | forwardFails _ here | reported _ _ here
  | reportFails _ _ here | handshake _ here | asked _ here | slept here | shutdownLost here
  | shutdownSent here => cases here.symm.trans returned
  | ownerGone | start | submit | refuse | lose | receive | drop => first | rfl | exact returned
  | recoverLost here =>
      obtain ⟨stream, here⟩ | here := here <;> cases here.symm.trans returned

theorem Moves.closing (moves : Moves box h a h' notes) (sound : h.Sound)
    (closing : h.supervisor = .shuttingDown) :
    h'.supervisor = .shuttingDown ∨ h'.supervisor = .returned ∧ h'.Ending := by
  cases moves with
  | actor act task effects offered stepped =>
      rcases sound.after offered stepped with same | ⟨waits, _⟩
      · exact .inl (same.trans closing)
      · cases waits.symm.trans closing
  | shutdownLost _ finished =>
      exact .inr ⟨rfl, .inl (finished_of_terminal (by dsimp only; rw [finished]; rfl))⟩
  | shutdownSent => exact .inr ⟨rfl, .inr (List.mem_append_right _ (List.mem_singleton_self _))⟩
  | recv _ _ here | recvEnd here | forwarded _ here | forwardFails _ here | reported _ _ here
  | reportFails _ _ here | handshake _ here | asked _ here | slept here =>
      cases here.symm.trans closing
  | ownerGone _ here =>
      rcases here with here | here <;> cases here.symm.trans closing
  | recoverLost here =>
      obtain ⟨stream, here⟩ | here := here <;> cases here.symm.trans closing
  | start | submit | refuse | lose | receive | drop => exact .inl closing

theorem known_of_append (news : sinceDead (log ++ notes) ≠ []) :
    sinceDead log ≠ [] ∨ ∃ note ∈ notes, note.isDead = true := by
  by_contra old
  rw [not_or, not_not, not_exists] at old
  obtain ⟨empty, none⟩ := old
  rw [sinceDead_append, empty] at news
  apply news
  rw [List.isEmpty_nil, if_pos rfl, sinceDead, List.dropWhile_eq_nil_iff]
  intro note told
  rw [Bool.not_eq_true']
  exact Bool.eq_false_of_not_eq_true fun dead => none note ⟨told, dead⟩

/-- Only the supervisor's report makes it known. -/
theorem Moves.known (moves : Moves box h a h' notes) (known : Known (log ++ notes) h') :
    Known log h ∨ ∃ reason shutdown, h.supervisor = .reporting reason shutdown ∧
      h'.supervisor = if shutdown then .shuttingDown else .returned := by
  have kept (events : h'.events = h.events) (silent : ∀ note ∈ notes, note.isDead = false) :
      Known log h := by
    rcases known with ⟨reason, sent⟩ | news
    · exact .inl ⟨reason, events ▸ sent⟩
    · rcases known_of_append news with old | ⟨note, told, dead⟩
      · exact .inr old
      · cases (silent note told).symm.trans dead
  cases moves with
  | actor act task effects =>
      refine .inl (kept rfl ?_)
      intro note told
      rcases List.mem_append.mp told with inner | answer
      · obtain ⟨effect, _, rfl⟩ := List.mem_map.mp inner
        rfl
      · obtain ⟨_, _, _, _, _, _, _, _, _, _, rfl⟩ := mem_replies answer
        rfl
  | recv event =>
      refine .inl (kept rfl ?_)
      cases event <;> simp [entering, Supervisor.receive, HubNote.isDead]
  | forwarded p =>
      left
      rcases known with ⟨reason, sent⟩ | news
      · left
        refine ⟨reason, (List.mem_append.mp sent).resolve_right ?_⟩
        rw [List.mem_singleton]
        nofun
      · right
        rwa [List.append_nil] at news
  | reported reason shutdown here => exact .inr ⟨reason, shutdown, here, rfl⟩
  | receive event rest queue =>
      left
      rcases known with ⟨reason, sent⟩ | news
      · exact .inl ⟨reason, by rw [queue]; exact List.mem_cons_of_mem _ sent⟩
      · rcases known_of_append news with old | ⟨note, told, dead⟩
        · exact .inr old
        · rw [List.mem_singleton.mp told] at dead
          cases event with
          | packet => cases dead
          | dead reason => exact .inl ⟨reason, by rw [queue]; exact List.mem_cons_self⟩
  | start cmd => exact .inl (kept rfl (by simp [HubNote.isDead]))
  | refuse cmd | lose cmd => exact .inl (kept rfl (by simp [HubNote.isDead]))
  | slept => exact .inl (kept rfl (by simp [HubNote.isDead]))
  | recvEnd | ownerGone | forwardFails | reportFails | handshake | asked | recoverLost
  | shutdownLost | shutdownSent | submit | drop => exact .inl (kept rfl (by simp))

theorem Moves.last (moves : Moves box h a h' notes) (before : DeadOf log h)
    (ended : (∃ reason, .dead reason ∈ h'.backedEvents) ∨
      ∃ reason, h'.supervisor = .reporting reason false) : h'.task.pc.terminal = true := by
  have kept (reports : (∃ reason, .dead reason ∈ h.backedEvents) ∨
      ∃ reason, h.supervisor = .reporting reason false) : h'.task.pc.terminal = true :=
    moves.terminal before.sound (before.last reports)
  cases moves with
  | actor act task effects offered stepped =>
      rcases ended with ⟨reason, sent⟩ | ⟨reason, reports⟩
      · rcases List.mem_append.mp sent with old | new
        · exact kept (.inl ⟨reason, old⟩)
        obtain none | ⟨event, _, out, only⟩ | ⟨_, terminal, _⟩ := (Task.step_moves stepped).events
        · rw [none] at new
          cases new
        · -- What `send_event` sends is no last event.
          rw [only, List.mem_singleton] at new
          rw [← new, Task.outgoing] at out
          split at out <;> cases out
        · exact terminal
      · rcases before.sound.after offered stepped with same | ⟨_, watching | sleeping⟩
        · exact kept (.inr ⟨reason, same.symm.trans reports⟩)
        · cases watching.symm.trans reports
        · cases sleeping.symm.trans reports
  | recv event rest here queue =>
      rcases ended with ⟨reason, sent⟩ | ⟨reason, reports⟩
      · exact kept (.inl ⟨reason, by rw [queue]; exact List.mem_cons_of_mem _ sent⟩)
      · cases event with
        | packet | socketDown => cases reports
        | dead why => exact kept (.inl ⟨why, by rw [queue]; exact List.mem_cons_self⟩)
  | handshake outcome =>
      rcases ended with sent | ⟨reason, reports⟩
      · exact kept (.inl sent)
      · cases outcome <;> cases reports
  | reported _ shutdown | reportFails _ shutdown =>
      rcases ended with sent | ⟨reason, reports⟩
      · exact kept (.inl sent)
      · cases shutdown <;> cases reports
  | recvEnd | ownerGone | forwarded | forwardFails | asked | recoverLost | slept | shutdownLost
  | shutdownSent =>
      rcases ended with sent | ⟨reason, reports⟩
      · exact kept (.inl sent)
      · cases reports
  | start | submit | refuse | lose | receive | drop => exact kept ended

/-- A late write gets its slot behind a shutdown. -/
theorem DeadOf.ending_of_submit {cmd : Cmd} {call : Nat} (before : DeadOf log h)
    (orderly : h.orderly log (.submit cmd) = true) (carries : cmd.call? = some call)
    (late : .started call ∈ sinceDead log) : h.Ending := by
  have returned : h.supervisor = .returned := by
    cases cmd with
    | write =>
        cases carries
        exact of_decide_eq_true (((Bool.or_eq_true _ _).mp orderly).resolve_left
          fun early => of_decide_eq_true early late)
    | killSocket | recover | shutdown => cases carries
  rcases before.told (.inr (List.ne_nil_of_mem late)) with closing | ⟨_, ending⟩
  · cases closing.symm.trans returned
  · exact ending

/-- One step of a run in which no late write overtakes the supervisor's shutdown. -/
theorem DeadOf.step (before : DeadOf log h) (moves : Moves box h a h' notes)
    (orderly : h.orderly log a = true) : DeadOf (log ++ notes) h' := by
  have sound := before.sound
  have answers := moves.answers
  -- A call with an older number was late before if it is late now.
  have late_before {call : Nat} (older : call < h.started)
      (late : .started call ∈ sinceDead (log ++ notes)) : .started call ∈ sinceDead log :=
    late_of_append late fun begins =>
      absurd (answers.begins call begins).1 (Nat.ne_of_lt older)
  have waited {cmd : Cmd} {call : Nat} (waits : cmd ∈ h.pending) (carries : cmd.call? = some call) :
      call < h.started := before.fresh call (.inr (.inr ⟨cmd, waits, carries⟩))
  refine ⟨moves.sound sound, ?_, moves.last before, ?_, ?_, ?_, ?_⟩
  · rintro call (began | ⟨failure, told⟩ | ⟨cmd, waits, carries⟩)
    · rcases List.mem_append.mp began with old | new
      · exact lt_of_lt_of_le (before.fresh call (.inl old)) answers.grows
      · exact (answers.begins call new).2.1
    · apply lt_of_lt_of_le _ answers.grows
      rcases List.mem_append.mp told with old | new
      · exact before.fresh call (.inr (.inl ⟨failure, old⟩))
      · exact before.fresh call (.inr (.inr (answers.ends call failure new).1))
    · rcases answers.old cmd waits call carries with old | new
      · exact lt_of_lt_of_le (waited old carries) answers.grows
      · exact new
  · intro known
    obtain known | ⟨reason, shutdown, reports, next⟩ := moves.known known
    · rcases before.told known with closing | ⟨returned, ending⟩
      · exact moves.closing sound closing
      · exact .inr ⟨moves.returned sound returned, moves.ending sound ending⟩
    · cases shutdown with
      | true => exact .inl next
      | false =>
          have ended := moves.terminal sound (before.last (.inr ⟨reason, reports⟩))
          exact .inr ⟨next, .inl (finished_of_terminal ended)⟩
  · by_cases finished : h'.task.finished = true
    · exact .inl finished
    right
    have going : ¬ h.task.finished = true := fun before => finished (moves.finished sound before)
    have covered := (before.behind.resolve_left going).mono fun cmd queued call carries =>
      @late_before call (waited (List.mem_append_left _ queued) carries)
    obtain same | ⟨cmd, queue, ends⟩ | ⟨cmd, queue, other⟩ := moves.queue
    · rwa [same]
    · rw [queue] at covered
      exact covered.tail fun last => finished (ends last)
    · rw [queue]
      apply covered.append
      rcases other with none | rfl
      · exact .inr fun call carries => nomatch none.symm.trans carries
      cases moves with
      | submit _ waits =>
          by_cases ahead : .shutdown ∈ h.cmds
          · exact .inl ahead
          right
          intro call carries late
          have late := late_before (waited (List.mem_append_right _ waits) carries) late
          exact (before.ending_of_submit orderly carries late).elim going ahead
  · intro call failure late told
    rcases List.mem_append.mp told with old | new
    · exact before.failed call failure
        (late_before (before.fresh call (.inr (.inl ⟨failure, old⟩))) late) old
    obtain ⟨_, given_up | ⟨ready, cmd, head, carries⟩⟩ := answers.ends call failure new
    · exact given_up
    · -- A late call is never served.
      have late := late_before (waited (mem_pending_of_head head) carries) late
      obtain ⟨rest, queue⟩ := List.head?_eq_some_iff.mp head
      have covered := before.behind.resolve_left
        (Bool.eq_false_iff.mp (not_finished_of_serves sound ready))
      rw [queue] at covered
      rcases covered with rfl | ⟨early, _⟩
      · cases carries
      · exact absurd late (early call carries)
  · intro call began
    rcases List.mem_append.mp began with old | new
    · rcases before.tracked call old with ⟨failure, told⟩ | ⟨cmd, waits, carries⟩
      · exact .inl ⟨failure, List.mem_append_left _ told⟩
      · rcases answers.kept cmd waits call carries with still | ⟨failure, told⟩
        · exact .inr ⟨cmd, still, carries⟩
        · exact .inl ⟨failure, List.mem_append_right _ told⟩
    · exact .inr (answers.begins call new).2.2

variable {cfg : BackedConfig} {now : Instant}

/-- The runs in which no late write overtakes the supervisor's shutdown. -/
abbrev Orderly (box : SecretBox) (cfg : BackedConfig) (now : Instant) :
    List HubNote → Hub → Prop :=
  (system box cfg now).Reaches fun log h a => h.orderly log a = true

theorem deadOf_reaches (run : Orderly box cfg now log h) : DeadOf log h := by
  induction run with
  | start =>
      refine ⟨sound_connected cfg now, ?_, ?_, ?_, .inr trivial, nofun, nofun⟩
      · rintro call (began | ⟨_, told⟩ | ⟨_, waits, _⟩)
        · cases began
        · cases told
        · cases waits
      · rintro (⟨_, sent⟩ | ⟨_, reports⟩)
        · cases sent
        · cases reports
      · rintro (⟨_, sent⟩ | news)
        · cases sent
        · exact absurd rfl news
  | next _ _ orderly stepped ih => exact ih.step (step_moves stepped) orderly

/-- The queue of an actor that has ended is dropped. -/
theorem loses (finished : h.task.pc = .ended) {cmd : Cmd} {call : Nat} (queued : cmd ∈ h.cmds)
    (carries : cmd.call? = some call) :
    ∃ more h', (system box cfg now).Leads (· = .lose) h more h' ∧
      ∃ failure, .returned call failure ∈ more := by
  let Waits (more : List HubNote) (s : Hub) : Prop := s.task.pc = .ended ∧
    (cmd ∈ s.cmds ∨ ∃ failure, .returned call failure ∈ more)
  have emptied : ∃ more h', (system box cfg now).Leads (· = .lose) h more h' ∧ Waits more h' ∧
      h'.cmds = [] := by
    apply Transition.System.leads_of_progress (fun s => s.cmds.length)
    · rintro more s ⟨finished, waits⟩ busy
      cases queue : s.cmds with
      | nil => exact absurd queue busy
      | cons first rest =>
          refine ⟨.lose, { s with cmds := rest },
            first.call?.toList.map (.returned · (some .shutdown)),
            rfl, ?_, ⟨finished, ?_⟩, ?_⟩
          · simp only [system, step, queue, if_pos finished]
          · rcases waits with here | ⟨failure, told⟩
            · rw [queue, List.mem_cons] at here
              rcases here with rfl | later
              · exact .inr ⟨some .shutdown, by simp [carries]⟩
              · exact .inl later
            · exact .inr ⟨failure, List.mem_append_left _ told⟩
          · simp
    · exact ⟨finished, .inl queued⟩
  obtain ⟨more, h', run, ⟨_, waits⟩, empty⟩ := emptied
  rw [empty] at waits
  exact ⟨more, h', run, waits.resolve_left List.not_mem_nil⟩

/-- Behind the end of the actor every call returns. -/
theorem gives_up (finished : h.task.pc = .ended) {cmd : Cmd} {call : Nat} (waits : cmd ∈ h.pending)
    (carries : cmd.call? = some call) :
    ∃ more h', (system box cfg now).Leads (fun a => ∀ cmd, a ≠ .submit cmd) h more h' ∧
      ∃ failure, .returned call failure ∈ more := by
  rcases List.mem_append.mp waits with queued | waiting
  · obtain ⟨more, h', run, told⟩ := @loses box h cfg now finished cmd call queued carries
    refine ⟨more, h', run.mono ?_, told⟩
    rintro _ _ _ rfl _ ⟨⟩
  · have stepped : (system box cfg now).step h (.refuse cmd) = some
        ({ h with calls := h.calls.erase cmd }, [.returned call (some .shutdown)]) := by
      simp only [system, step, if_pos (And.intro waiting finished), carries]
      rfl
    refine ⟨_, _, Transition.System.Reaches.start.next (.refuse cmd) ?_ stepped, some .shutdown,
      by simp⟩
    rintro _ ⟨⟩

theorem late_append {call : Nat} (late : .started call ∈ sinceDead log) (more : List HubNote) :
    .started call ∈ sinceDead (log ++ more) := by
  have known := List.ne_nil_of_mem late
  rw [sinceDead_append, if_neg (by rwa [List.isEmpty_iff])]
  exact List.mem_append_left _ late

theorem known_append (known : sinceDead log ≠ []) (more : List HubNote) :
    sinceDead (log ++ more) ≠ [] := by
  rw [sinceDead_append, if_neg (by rwa [List.isEmpty_iff])]
  exact List.append_ne_nil_of_left_ne_nil known more

/-- Behind `Event::Dead` the actor comes to its end, or it has served everything and the
supervisor is about to queue its shutdown. -/
theorem drains_known (run : Orderly box cfg now log h) (known : sinceDead log ≠ []) :
    ∃ more h', Orderly box cfg now (log ++ more) h' ∧ h'.supervisor = h.supervisor ∧
      (h'.task.pc = .ended ∨ h'.supervisor = .shuttingDown ∧ h'.cmds = []) := by
  have state := deadOf_reaches run
  obtain ⟨more, h', onward, ⟨sound, served⟩, goal⟩ := @Sound.drains box h cfg now state.sound
  have run' : Orderly box cfg now (log ++ more) h' := by
    refine run.leads ?_ onward
    intro _ _ a own
    cases a <;> first | rfl | cases own
  refine ⟨more, h', run', ?_, goal.imp_right ?_⟩
  · obtain same | ⟨waits, _⟩ := served.supervisor
    · exact same
    · rcases state.told (.inr known) with closing | ⟨returned, _⟩
      · cases closing.symm.trans waits
      · cases returned.symm.trans waits
  · rintro ⟨empty, ready⟩
    rcases (deadOf_reaches run').told (.inr (known_append known more)) with closing | ⟨_, ending⟩
    · exact ⟨closing, empty⟩
    · rcases ending with finished | ahead
      · cases (not_finished_of_serves sound ready).symm.trans finished
      · rw [empty] at ahead
        cases ahead

/-- Behind `Event::Dead` the actor comes to its end. -/
theorem ends_known (run : Orderly box cfg now log h) (known : sinceDead log ≠ []) :
    ∃ more h', Orderly box cfg now (log ++ more) h' ∧ h'.task.pc = .ended := by
  obtain ⟨more, h₁, run₁, _, ended | ⟨closing, empty⟩⟩ := drains_known run known
  · exact ⟨more, h₁, run₁, ended⟩
  by_cases running : h₁.task.pc = .ended
  · exact ⟨more, h₁, run₁, running⟩
  let h₂ : Hub := { h₁ with cmds := h₁.cmds ++ [.shutdown], supervisor := .returned }
  have stepped : (system box cfg now).step h₁ .shutdownSent = some (h₂, []) := by
    have room : h₁.cmds.length < cmdQueueDepth := by
      rw [empty]
      decide
    simp only [system, step, closing, if_neg running, if_pos room, h₂]
  have run₂ : Orderly box cfg now (log ++ more ++ []) h₂ := run₁.next .shutdownSent rfl stepped
  rw [List.append_nil] at run₂
  obtain ⟨rest, h₃, run₃, same, ended | ⟨closing, _⟩⟩ :=
    drains_known run₂ (known_append known more)
  · rw [List.append_assoc] at run₃
    exact ⟨more ++ rest, h₃, run₃, ended⟩
  · cases closing.symm.trans same

end Hub

open Hub

/-- A write that the owner starts behind `Event::Dead` never returns anything but
`Err(Shutdown)`, and it returns, as long as such writes get their slots behind the
supervisor's shutdown. -/
theorem writes_behind_dead_fail {box : SecretBox} {cfg : BackedConfig} {now : Instant}
    {log : List HubNote} {h : Hub} {call : Nat}
    (run : (Hub.system box cfg now).Reaches (fun log h a => h.orderly log a = true) log h)
    (late : .started call ∈ sinceDead log) :
    (∀ failure, .returned call failure ∈ log → failure = some .shutdown) ∧
      ∃ more h', (Hub.system box cfg now).Reaches (fun log h a => h.orderly log a = true)
        (log ++ more) h' ∧ .returned call (some .shutdown) ∈ log ++ more := by
  refine ⟨fun failure => (deadOf_reaches run).failed call failure late, ?_⟩
  have still := late_append late
  obtain ⟨more, h', run', ended⟩ := ends_known run (List.ne_nil_of_mem late)
  have state := deadOf_reaches run'
  have began : .started call ∈ log ++ more := (List.dropWhile_sublist _).subset (still more)
  obtain ⟨failure, told⟩ | ⟨cmd, waits, carries⟩ := state.tracked call began
  · have failed := state.failed call failure (still more) told
    exact ⟨more, h', run', failed ▸ told⟩
  · obtain ⟨rest, h'', onward, failure, told⟩ :=
      @gives_up box h' cfg now ended cmd call waits carries
    have run'' : Hub.Orderly box cfg now (log ++ more ++ rest) h'' := by
      refine run'.leads ?_ onward
      intro _ _ a other
      cases a with
      | submit cmd => exact absurd rfl (other cmd)
      | _ => rfl
    rw [List.append_assoc] at run''
    have told : .returned call failure ∈ log ++ (more ++ rest) := by
      rw [← List.append_assoc]
      exact List.mem_append_right _ told
    have failed := (deadOf_reaches run'').failed call failure (still _) told
    exact ⟨more ++ rest, h'', run'', failed ▸ told⟩

/-- The socket is lost, the server refuses the key, and the owner writes once more behind
`Event::Dead` and behind the supervisor's shutdown. -/
theorem writes_behind_dead_fail_invalid_key :
    ∃ log h, (Hub.system .naming (.client testKey none) 0).Reaches
        (fun log h a => h.orderly log a = true) log h ∧
      .started 0 ∈ sinceDead log ∧
      (∀ failure, .returned 0 failure ∈ log → failure = some .shutdown) ∧
      ∃ more h', (Hub.system .naming (.client testKey none) 0).Reaches
        (fun log h a => h.orderly log a = true) (log ++ more) h' ∧
          .returned 0 (some .shutdown) ∈ log ++ more := by
  obtain ⟨log, h, run, late⟩ : ∃ log h, (Hub.system .naming (.client testKey none) 0).Reaches
      (fun log h a => h.orderly log a = true) log h ∧ .started 0 ∈ sinceDead log :=
    ⟨_, _, .execute .start
      [.actor .socketLost, .actor .settle, .actor .send, .actor (.deliver 0), .recv,
        .handshake .invalidKey, .sent, .receive, .shutdownSent,
        .start (.write 0 terminalBuffer [1]), .submit (.write 0 terminalBuffer [1])] rfl,
      by decide⟩
  exact ⟨log, h, run, late, writes_behind_dead_fail run late⟩

/-- The same session, but the write overtakes the shutdown: it returns `Ok`. -/
theorem write_behind_dead_returns_ok :
    ∃ log h, (Hub.system .naming (.client testKey none) 0).Reachable log h ∧
      .started 0 ∈ sinceDead log ∧ .returned 0 none ∈ log ∧ h.supervisor = .shuttingDown :=
  ⟨_, _, .execute .start
    [.actor .socketLost, .actor .settle, .actor .send, .actor (.deliver 0), .recv,
      .handshake .invalidKey, .sent, .receive, .start (.write 0 terminalBuffer [1]),
      .submit (.write 0 terminalBuffer [1]), .actor (.write 0 true terminalBuffer [1])] rfl,
    by decide, by decide, rfl⟩

end Client

end Et
