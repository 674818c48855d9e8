import EtClient.Forward.Commands
import EtClient.Lib.Trace

/-!
# A call of `add_sources` that fails

A call fails as a whole when the queue is full, when the engine does not run, when it has
stopped before it came to the command, when a shutdown is seen or when the time bound is
over. In the first three cases the engine has no such command, and never gets it. In the
other two the caller only stops waiting: the command stays where it is, and the engine
binds the sources later.

So the sources of a failed call stay unbound when a caller gives up only on a command that
is neither queued nor being bound.
-/

namespace Et

namespace Forward

variable {π : Type}

def HandleEffect.Fails (call : Nat) (effect : HandleEffect) : Prop :=
  ∃ error, effect = .failed call error

/-- A source of the call is bound, or its batch is added to the table. -/
def HandleEffect.Acts (call : Nat) (effect : HandleEffect) : Prop :=
  (∃ listener, effect = .bound (some call) listener) ∨
    ∃ sources, effect = .added (some call) sources

namespace Handle

/-- A caller gives up only when the engine does not have its command. -/
def Settled (s : Handle) : HandleAct π → Prop
  | .seeShutdown call | .sleep call => ¬s.Pending call
  | _ => True

instance (s : Handle) (act : HandleAct π) : Decidable (s.Settled act) :=
  match act with
  | .seeShutdown call | .sleep call => inferInstanceAs (Decidable (¬s.Pending call))
  | .addSources _ | .isClosed _ | .reply _ | .shutdown | .sendShutdown | .recv | .bind _
  | .extend | .accept _ | .engine _ | .stop => isTrue trivial

/-- The calls have been counted, and an engine that has stopped has no command. -/
structure Counted (s : Handle) : Prop where
  pending : ∀ {call}, s.Pending call → call < s.calls
  checking : ∀ call ∈ s.checking, call < s.calls
  waiting : ∀ call ∈ s.waiting, call < s.calls
  stopped : s.engine.running = false → s.cmds = [] ∧ s.binding = none

/-- The engine has nothing to do for the call, and will get nothing. -/
structure Quiet (call : Nat) (s : Handle) : Prop where
  counted : call < s.calls
  idle : ¬s.Pending call

variable {codec : Codec π} {s s' : Handle} {act : HandleAct π} {effects : List HandleEffect}

theorem Moves.calls (moves : s.Moves codec act s' effects) : s.calls ≤ s'.calls := by
  cases moves with
  | queued _ _ | full _ | closed _ _ => exact Nat.le_succ _
  | runs _ _ | notRunning _ _ _ | returns _ _ _ _ _ | lost _ _ _ | seesShutdown _ _ | sleeps _ _
  | shutdown | sendsShutdown _ | takes _ _ _ _ _ _ | stops _ _ _ _ _ | binds _ _ _ _
  | adds _ _ _ _ _ _ | accepts _ _ _ _ _ | engine _ _ _ _ _ => exact Nat.le_refl _

/-- The engine gets a command only from the call itself. -/
theorem Moves.pending (moves : s.Moves codec act s' effects) {call : Nat}
    (has : s'.Pending call) : s.Pending call ∨ call = s.calls ∧ s'.calls = s.calls + 1 := by
  cases moves with
  | queued sources running =>
      rcases has with queued | busy
      · rw [List.filterMap_append, List.mem_append] at queued
        rcases queued with old | new
        · exact .inl (.inl old)
        · exact .inr ⟨List.mem_singleton.1 new, rfl⟩
      · exact .inl (.inr busy)
  | full _ | closed _ _ | runs _ _ | notRunning _ _ _ | returns _ _ _ _ _ | lost _ _ _
  | seesShutdown _ _ | sleeps _ _ | shutdown | accepts _ _ _ _ _ | engine _ _ _ _ _ =>
      exact .inl has
  | sendsShutdown running =>
      rcases has with queued | busy
      · rw [List.filterMap_append, List.mem_append] at queued
        rcases queued with old | new
        · exact .inl (.inl old)
        · cases new
      · exact .inl (.inr busy)
  | takes other sources cmds running idle queue =>
      refine .inl (.inl ?_)
      rw [queue]
      rcases has with queued | busy
      · exact List.mem_cons_of_mem _ queued
      · exact List.mem_cons.2 (.inl (Option.some.inj busy).symm)
  | stops _ engine raw idle stopped =>
      rcases has with queued | busy
      · cases queued
      · exact .inl (.inr busy)
  | binds outcome b busy more =>
      rcases has with queued | binding
      · exact .inl (.inl queued)
      · obtain ⟨_, _, round⟩ := b.next_spec outcome
        rw [round] at binding
        refine .inl (.inr ?_)
        rw [busy]
        exact binding
  | adds b engine raw busy done stepped =>
      rcases has with queued | binding
      · exact .inl (.inl queued)
      · cases binding

theorem Moves.checking (moves : s.Moves codec act s' effects) {call : Nat}
    (there : call ∈ s'.checking) :
    call ∈ s.checking ∨ call = s.calls ∧ s'.calls = s.calls + 1 := by
  cases moves with
  | queued _ _ | closed _ _ =>
      rcases List.mem_append.1 there with old | new
      · exact .inl old
      · exact .inr ⟨List.mem_singleton.1 new, rfl⟩
  | runs _ _ | notRunning _ _ _ => exact .inl (List.mem_of_mem_erase there)
  | full _ | returns _ _ _ _ _ | lost _ _ _ | seesShutdown _ _ | sleeps _ _ | shutdown
  | sendsShutdown _ | takes _ _ _ _ _ _ | stops _ _ _ _ _ | binds _ _ _ _ | adds _ _ _ _ _ _
  | accepts _ _ _ _ _ | engine _ _ _ _ _ => exact .inl there

theorem Moves.waiting (moves : s.Moves codec act s' effects) {call : Nat}
    (there : call ∈ s'.waiting) : call ∈ s.waiting ∨ call ∈ s.checking := by
  cases moves with
  | runs other checked =>
      rcases List.mem_append.1 there with old | new
      · exact .inl old
      · rw [List.mem_singleton.1 new]
        exact .inr checked
  | returns _ _ _ _ _ | lost _ _ _ | seesShutdown _ _ | sleeps _ _ =>
      exact .inl (List.mem_of_mem_erase there)
  | queued _ _ | full _ | closed _ _ | notRunning _ _ _ | shutdown | sendsShutdown _
  | takes _ _ _ _ _ _ | stops _ _ _ _ _ | binds _ _ _ _ | adds _ _ _ _ _ _
  | accepts _ _ _ _ _ | engine _ _ _ _ _ => exact .inl there

/-- An engine that does not run stays without commands. -/
theorem Counted.stopped_step (counted : s.Counted) (moves : s.Moves codec act s' effects)
    (stopped : s'.engine.running = false) : s'.cmds = [] ∧ s'.binding = none := by
  cases moves with
  | queued _ running | sendsShutdown running | takes _ _ _ running _ _ =>
      cases running.symm.trans stopped
  | full _ | closed _ _ | runs _ _ | notRunning _ _ _ | returns _ _ _ _ _ | lost _ _ _
  | seesShutdown _ _ | sleeps _ _ | shutdown => exact counted.stopped stopped
  | stops _ engine raw idle _ => exact ⟨rfl, idle⟩
  | binds outcome b busy more => cases busy.symm.trans (counted.stopped stopped).2
  | adds b engine raw busy done stepped =>
      rw [(Engine.step_moves stepped).running (by simp)] at stopped
      cases busy.symm.trans (counted.stopped stopped).2
  | accepts listener engine raw there stepped =>
      rw [(Engine.step_moves stepped).running (by simp)] at stopped
      exact counted.stopped stopped
  | engine act engine raw allowed stepped =>
      have going : act ≠ .stop := by
        rintro rfl
        rcases allowed with reader | ⟨own, -⟩
        · cases reader
        · cases own
      rw [(Engine.step_moves stepped).running going] at stopped
      exact counted.stopped stopped

theorem Counted.step (counted : s.Counted) (moves : s.Moves codec act s' effects) :
    s'.Counted := by
  have calls := moves.calls
  refine ⟨?_, ?_, ?_, counted.stopped_step moves⟩
  · intro call has
    rcases moves.pending has with old | ⟨rfl, more⟩
    · exact (counted.pending old).trans_le calls
    · omega
  · intro call there
    rcases moves.checking there with old | ⟨rfl, more⟩
    · exact (counted.checking call old).trans_le calls
    · omega
  · intro call there
    rcases moves.waiting there with old | checked
    · exact (counted.waiting call old).trans_le calls
    · exact (counted.checking call checked).trans_le calls

theorem counted_reachable {sources : List PortForwardSourceRequest} {answer : Bool}
    {outcomes : Nat → BindOutcome} {log : List HandleEffect}
    (run : (system codec sources answer outcomes).Reachable log s) : s.Counted := by
  refine run.invariant (P := fun _ s => s.Counted) ?_ ?_
  · refine ⟨?_, List.forall_mem_nil _, List.forall_mem_nil _, fun _ => ⟨rfl, rfl⟩⟩
    rintro call (queued | busy)
    · cases queued
    · cases busy
  · intro log s act s' effects counted _ stepped
    exact counted.step (step_moves stepped)

theorem Quiet.step {call : Nat} (quiet : s.Quiet call) (moves : s.Moves codec act s' effects) :
    s'.Quiet call := by
  refine ⟨quiet.counted.trans_le moves.calls, fun has => ?_⟩
  rcases moves.pending has with old | ⟨new, -⟩
  · exact quiet.idle old
  · exact quiet.counted.ne new

/-- A call that fails leaves the engine without its command. -/
theorem Moves.fails (moves : s.Moves codec act s' effects) (counted : s.Counted)
    (settled : s.Settled act) {call : Nat} {effect : HandleEffect} (there : effect ∈ effects)
    (fails : effect.Fails call) : s'.Quiet call := by
  obtain ⟨error, rfl⟩ := fails
  cases moves with
  | queued _ _ | closed _ _ | runs _ _ | shutdown | sendsShutdown _ | takes _ _ _ _ _ _ =>
      cases there
  | full sources =>
      cases List.mem_singleton.1 there
      exact ⟨Nat.lt_succ_self _, fun has => (counted.pending has).false⟩
  | notRunning other checked stopped =>
      cases List.mem_singleton.1 there
      refine ⟨counted.checking _ checked, ?_⟩
      obtain ⟨empty, idle⟩ := counted.stopped stopped
      simp [Pending, empty, idle]
  | lost other waits unpending =>
      cases List.mem_singleton.1 there
      exact ⟨counted.waiting _ waits, unpending⟩
  | seesShutdown other waits | sleeps other waits =>
      cases List.mem_singleton.1 there
      exact ⟨counted.waiting _ waits, settled⟩
  | returns _ _ _ _ _ | adds _ _ _ _ _ _ => cases List.mem_singleton.1 there
  | stops _ _ _ _ _ | binds _ _ _ _ | accepts _ _ _ _ _ | engine _ _ _ _ _ =>
      obtain ⟨_, -, same⟩ := List.mem_map.1 there
      cases same

/-- The engine acts for a call only when it has its command, and then nothing fails. -/
theorem Moves.acts (moves : s.Moves codec act s' effects) {call : Nat} {effect : HandleEffect}
    (there : effect ∈ effects) (acts : effect.Acts call) :
    s.Pending call ∧ ∀ other ∈ effects, ∀ failed, ¬other.Fails failed := by
  cases moves with
  | queued _ _ | closed _ _ | runs _ _ | shutdown | sendsShutdown _ | takes _ _ _ _ _ _ =>
      cases there
  | full _ | notRunning _ _ _ | returns _ _ _ _ _ | lost _ _ _ | seesShutdown _ _ | sleeps _ _ =>
      rw [List.mem_singleton.1 there] at acts
      obtain ⟨_, same⟩ | ⟨_, same⟩ := acts <;> cases same
  | stops _ _ _ _ _ | accepts _ _ _ _ _ | engine _ _ _ _ _ =>
      obtain ⟨_, -, rfl⟩ := List.mem_map.1 there
      obtain ⟨_, same⟩ | ⟨_, same⟩ := acts <;> cases same
  | binds outcome b busy more =>
      refine ⟨.inr ?_, ?_⟩
      · obtain ⟨listener, -, rfl⟩ := List.mem_map.1 there
        rw [busy]
        obtain ⟨_, same⟩ | ⟨_, same⟩ := acts
        · exact (HandleEffect.bound.inj same).1
        · cases same
      · rintro other among failed ⟨error, rfl⟩
        obtain ⟨_, -, same⟩ := List.mem_map.1 among
        cases same
  | adds b engine raw busy done stepped =>
      refine ⟨.inr ?_, ?_⟩
      · rw [List.mem_singleton.1 there] at acts
        rw [busy]
        obtain ⟨_, same⟩ | ⟨_, same⟩ := acts
        · cases same
        · exact (HandleEffect.added.inj same).1
      · rintro other among failed ⟨error, rfl⟩
        cases List.mem_singleton.1 among

end Handle

/-- In every run in which callers give up only on commands that the engine does not have: once
a call has failed as a whole, none of its sources is bound and its batch is not added. -/
theorem failed_call_adds_nothing {codec : Codec π} {sources : List PortForwardSourceRequest}
    {answer : Bool} {outcomes : Nat → BindOutcome} {log : List HandleEffect} {t : Handle}
    (run : (Handle.system codec sources answer outcomes).Reaches (fun _ s => s.Settled) log t)
    {before after : List HandleEffect} {effect : HandleEffect} {call : Nat}
    (split : log = before ++ effect :: after) (acts : effect.Acts call)
    (error : AddSourcesError) : .failed call error ∉ before := by
  intro failed
  have silent : ¬Transition.Since (HandleEffect.Fails call) (fun _ => False) before := by
    refine run.silent (Handle.Quiet call) ?_ ?_ ?_ split acts
    · intro log s act s' effects reached settled stepped since
      obtain ⟨event, there, fails⟩ := since.exists_mem
      have counted := Handle.counted_reachable reached.reachable
      exact (Handle.step_moves stepped).fails counted settled there fails
    · intro log s act s' effects _ _ stepped quiet _
      exact quiet.step (Handle.step_moves stepped)
    · intro log s act s' effects front event rest _ _ stepped split acts
      obtain ⟨pending, unfailed⟩ := (Handle.step_moves stepped).acts
        (split ▸ List.mem_append_right _ List.mem_cons_self) acts
      refine ⟨fun quiet => quiet.idle pending, fun earlier there => unfailed earlier ?_ call⟩
      rw [split]
      exact List.mem_append_left _ there
  obtain ⟨first, later, rfl⟩ := List.append_of_mem failed
  exact silent ⟨first, _, later, rfl, ⟨error, rfl⟩, fun _ _ => id⟩

/-- A source on a fixed port. -/
def fixedSource : PortForwardSourceRequest := ⟨some ⟨none, some 8080⟩, some ⟨none, some 80⟩⟩

/-- The queue is full for the last of 17 calls. The batch of the first one is bound behind that
failure. -/
theorem failed_call_adds_nothing_bound :
    ∃ log t, (Handle.system .plain [] true fun _ => .ok 0).Reaches (fun _ s => s.Settled) log t ∧
      ∃ before after, log = before ++ .bound (some 0) ⟨0, "localhost", 8080⟩ :: after ∧
        .failed 16 .full ∈ before ∧ ∀ error, .failed 0 error ∉ before := by
  obtain ⟨log, t, run, before, after, split, full⟩ :
      ∃ log t, (Handle.system .plain [] true fun _ => .ok 0).Reaches
          (fun _ s => s.Settled) log t ∧
        ∃ before after, log = before ++ .bound (some 0) ⟨0, "localhost", 8080⟩ :: after ∧
          .failed 16 .full ∈ before :=
    ⟨_, _, .execute .start
      (List.replicate 17 (.addSources [fixedSource]) ++
        [.isClosed 0, .recv, .bind (.ok 0), .extend, .reply 0]) rfl,
      [.failed 16 .full], _, rfl, List.mem_singleton_self _⟩
  refine ⟨log, t, run, before, after, split, full, ?_⟩
  exact failed_call_adds_nothing run split (.inl ⟨_, rfl⟩)

/-- The time bound of a call is over, or it sees a shutdown, while its command is queued; the
engine then binds the source and adds the batch. -/
theorem failed_call_binds_later :
    (∃ log t, (Handle.system .plain [] true fun _ => .ok 0).Reachable log t ∧
      log = [.failed 0 .timedOut, .bound (some 0) ⟨0, "localhost", 8080⟩,
        .added (some 0) [fixedSource]]) ∧
    ∃ log t, (Handle.system .plain [] true fun _ => .ok 0).Reachable log t ∧
      log = [.failed 0 .shuttingDown, .bound (some 0) ⟨0, "localhost", 8080⟩,
        .added (some 0) [fixedSource]] :=
  ⟨⟨_, _, .execute .start
      [.addSources [fixedSource], .isClosed 0, .sleep 0, .recv, .bind (.ok 0), .extend] rfl, rfl⟩,
    _, _, .execute .start
      [.addSources [fixedSource], .isClosed 0, .shutdown, .seeShutdown 0, .recv, .bind (.ok 0),
        .extend] rfl, rfl⟩

end Forward

end Et
