import EtClient.Forward.Commands
import EtClient.Forward.Echo

/-!
# How an engine stops

An engine is told to stop by `shutdown`, or by the end of its last handle. The clones of a handle
count themselves, and the one that counts down to zero raises a watch. The watch preempts a handler
that waits for room somewhere, so that the engine gets back to its commands; it is also what the
accept tasks listen to. An accept task looks at it only while it waits for a connection. It does not
while it waits for room in the event queue, or to try again after an error.

A receiver of a watch is woken by a value that it has not seen. The accept tasks of `add_sources`
are given a copy of the engine's receiver with what that has seen, and a preempted handler has seen
the watch raised. For such a task the engine raises the watch once more when it ends.
-/

namespace Et

namespace Forward

/-- The value of a watch and how often one was sent. -/
structure Watch where
  value : Bool
  version : Nat
  deriving DecidableEq

/-- `send(true)`. What is sent while nobody receives is not stored. -/
def Watch.raise (w : Watch) (receivers : Nat) : Watch :=
  if receivers = 0 then w else ⟨true, w.version + 1⟩

/-- A clone of the handle. -/
inductive CloneState
  | live
  /-- Behind `fetch_sub`, with what it returned. -/
  | dropping (previous : Nat)
  /-- Behind the `if`; its senders are still there. -/
  | closing
  | gone
  deriving DecidableEq

/-- Where an accept task waits. -/
inductive AcceptPlace
  | select
  /-- For room in the event queue, with a connection. -/
  | sending
  /-- `ACCEPT_RETRY_DELAY`. -/
  | sleeping
  | returned
  deriving DecidableEq

structure Accepter where
  place : AcceptPlace
  /-- The version that its receiver has seen. -/
  seen : Nat
  deriving DecidableEq

/-- Where the engine's task is. -/
inductive RunPlace
  | select
  | handling
  /-- In `create_destination`, whose connects nothing abandons. -/
  | connecting
  | ended
  deriving DecidableEq

/-- What the engine takes from its data path. -/
inductive HaltWork
  | packet
  /-- A request for a destination. -/
  | request
  | event
  deriving DecidableEq

inductive HaltCmd
  /-- With as many sources as can be bound. -/
  | addSources (listeners : Nat)
  | shutdown
  deriving DecidableEq

structure Halting where
  clones : List CloneState
  handleCount : Nat
  watch : Watch
  /-- Calls of `shutdown` that wait for room in the command queue. -/
  sending : Nat
  cmds : List HaltCmd
  run : RunPlace
  /-- The version that the engine's receiver has seen. -/
  seen : Nat
  /-- How many events are queued. -/
  events : Nat
  accepters : List Accepter

inductive HaltAct
  | clone (h : Nat)
  /-- `handle_count.fetch_sub`. -/
  | drop (h : Nat)
  /-- The `if` behind it. -/
  | settle (h : Nat)
  /-- The senders of a clone are dropped. -/
  | release (h : Nat)
  /-- `shutdown` raises the watch. -/
  | shutdown (h : Nat)
  /-- Its command is queued, or there is no engine. -/
  | sendShutdown
  /-- The future of `shutdown` is dropped before. -/
  | cancelShutdown
  | addSources (h : Nat) (listeners : Nat)
  /-- `cmd_rx.recv()` returns in the engine. -/
  | recv
  /-- A packet of the peer, or an event, is handled from now on. -/
  | work (taken : HaltWork)
  /-- `create_destination` returns. -/
  | connected
  /-- A send of the handler is abandoned for the watch. -/
  | preempt
  /-- The handler comes to its end. -/
  | handled
  /-- `shutdown.changed()` returns in an accept task. -/
  | changed (i : Nat)
  | accept (i : Nat) (ok : Bool)
  | slept (i : Nat)
  /-- The event queue takes the connection, or is closed. -/
  | sent (i : Nat)

inductive HaltNote
  | shutdown
  /-- A drop raised the watch. -/
  | last
  deriving DecidableEq

namespace Halting

def receivers (s : Halting) : Nat :=
  (if s.run = .ended then 0 else 1) + (s.accepters.filter (·.place ≠ .returned)).length

/-- Every clone has dropped its senders. -/
def allGone (s : Halting) : Bool := s.clones.all (· = .gone)

def raised (s : Halting) : Halting := { s with watch := s.watch.raise s.receivers }

/-- Behind the loop of `run`: the watch is raised, and then all ends of its channels are dropped. -/
def finish (s : Halting) : Halting := { s.raised with run := .ended, cmds := [] }

def become (s : Halting) (i : Nat) (a : Accepter) : Halting :=
  { s with accepters := s.accepters.set i a }

def cloned (s : Halting) (h : Nat) (c : CloneState) : Halting :=
  { s with clones := s.clones.set h c }

/-- A step of an accept task. -/
def acceptStep (s : Halting) (i : Nat) (a : Accepter) : HaltAct → Option Halting
  | .changed _ =>
      if a.place = .select ∧ (a.seen ≠ s.watch.version ∨ s.run = .ended ∧ s.allGone) then
        some (s.become i ⟨if s.watch.value then .returned else .select, s.watch.version⟩)
      else none
  | .accept _ ok =>
      if a.place = .select then
        some (s.become i ⟨if ok then .sending else .sleeping, a.seen⟩)
      else none
  | .slept _ => if a.place = .sleeping then some (s.become i ⟨.select, a.seen⟩) else none
  | .sent _ =>
      if a.place = .sending then
        if s.run = .ended then some (s.become i ⟨.returned, a.seen⟩)
        else if s.events < eventQueueDepth then
          some { s.become i ⟨.select, a.seen⟩ with events := s.events + 1 }
        else none
      else none
  | _ => none

def step (s : Halting) (act : HaltAct) : Option (Halting × List HaltNote) :=
  match act with
  | .clone h =>
      if s.clones[h]? = some .live then
        some ({ s with clones := s.clones ++ [.live], handleCount := s.handleCount + 1 }, [])
      else none
  | .drop h =>
      if s.clones[h]? = some .live then
        some ({ s.cloned h (.dropping s.handleCount) with
          handleCount := s.handleCount - 1 }, [])
      else none
  | .settle h =>
      match s.clones[h]? with
      | some (.dropping previous) =>
          if previous = 1 then some (s.raised.cloned h .closing, [.last])
          else some (s.cloned h .closing, [])
      | _ => none
  | .release h => if s.clones[h]? = some .closing then some (s.cloned h .gone, []) else none
  | .shutdown h =>
      if s.clones[h]? = some .live then
        some ({ s.raised with sending := s.sending + 1 }, [.shutdown])
      else none
  | .sendShutdown =>
      if s.sending = 0 then none
      else if s.run = .ended then some ({ s with sending := s.sending - 1 }, [])
      else if s.cmds.length < commandQueueDepth then
        some ({ s with sending := s.sending - 1, cmds := s.cmds ++ [.shutdown] }, [])
      else none
  | .cancelShutdown =>
      if s.sending = 0 then none else some ({ s with sending := s.sending - 1 }, [])
  | .addSources h listeners =>
      if s.clones[h]? = some .live ∧ s.run ≠ .ended ∧ s.cmds.length < commandQueueDepth then
        some ({ s with cmds := s.cmds ++ [.addSources listeners] }, [])
      else none
  | .recv =>
      if s.run = .select then
        match s.cmds with
        | .addSources listeners :: cmds =>
            some ({ s with
              cmds := cmds
              accepters := s.accepters ++ List.replicate listeners ⟨.select, s.seen⟩ }, [])
        | .shutdown :: _ => some (s.finish, [])
        | [] => if s.allGone then some (s.finish, []) else none
      else none
  | .work taken =>
      -- The commands come first.
      if s.run = .select ∧ s.cmds = [] ∧ ¬ s.allGone then
        match taken with
        | .packet => some ({ s with run := .handling }, [])
        | .request => some ({ s with run := .connecting }, [])
        | .event =>
            if s.events = 0 then none
            else some ({ s with run := .handling, events := s.events - 1 }, [])
      else none
  | .connected => if s.run = .connecting then some ({ s with run := .handling }, []) else none
  | .preempt =>
      -- `wait_for` marks what it has waited for as seen.
      if s.run = .handling ∧ s.watch.value then
        some ({ s with run := .select, seen := s.watch.version }, [])
      else none
  | .handled => if s.run = .handling then some ({ s with run := .select }, []) else none
  | .changed i | .accept i _ | .slept i | .sent i =>
      (s.accepters[i]?.bind fun a => s.acceptStep i a act).map fun s => (s, [])

/-- `EngineHandle::spawn`, with as many listeners as could be bound. -/
def spawn (listeners : Nat) : Halting where
  clones := [.live]
  handleCount := 1
  watch := ⟨false, 0⟩
  sending := 0
  cmds := []
  run := .select
  seen := 0
  events := 0
  accepters := List.replicate listeners ⟨.select, 0⟩

def system (listeners : Nat) : Transition.System Halting HaltAct HaltNote where
  start := spawn listeners
  step := step

/-- What a step of an accept task comes to: it returns, for the watch or for the end of the engine,
or it goes on and has seen what it had, or a watch that is not raised. -/
inductive Goes (s : Halting) (a : Accepter) : Accepter → Prop
  | returned (seen : Nat) : s.watch.value = true ∨ s.run = .ended → Goes s a ⟨.returned, seen⟩
  | same (place : AcceptPlace) : place ≠ .returned → Goes s a ⟨place, a.seen⟩
  | looked : s.watch.value = false → Goes s a ⟨.select, s.watch.version⟩

/-- What each step does. -/
inductive Moves (s : Halting) : HaltAct → Halting → List HaltNote → Prop
  | clone (h : Nat) : s.clones[h]? = some .live →
      Moves s (.clone h)
        { s with clones := s.clones ++ [.live], handleCount := s.handleCount + 1 } []
  | drop (h : Nat) : s.clones[h]? = some .live →
      Moves s (.drop h)
        { s.cloned h (.dropping s.handleCount) with handleCount := s.handleCount - 1 } []
  | last (h : Nat) : s.clones[h]? = some (.dropping 1) →
      Moves s (.settle h) (s.raised.cloned h .closing) [.last]
  | settle (h previous : Nat) : s.clones[h]? = some (.dropping previous) → previous ≠ 1 →
      Moves s (.settle h) (s.cloned h .closing) []
  | release (h : Nat) : s.clones[h]? = some .closing →
      Moves s (.release h) (s.cloned h .gone) []
  | shutdown (h : Nat) : s.clones[h]? = some .live →
      Moves s (.shutdown h) { s.raised with sending := s.sending + 1 } [.shutdown]
  | sentShutdown : 0 < s.sending → s.run ≠ .ended →
      Moves s .sendShutdown
        { s with sending := s.sending - 1, cmds := s.cmds ++ [.shutdown] } []
  | unsentShutdown (a : HaltAct) : 0 < s.sending →
      Moves s a { s with sending := s.sending - 1 } []
  | addSources (h listeners : Nat) : s.clones[h]? = some .live →
      Moves s (.addSources h listeners) { s with cmds := s.cmds ++ [.addSources listeners] } []
  | extended (listeners : Nat) (cmds : List HaltCmd) : s.run = .select →
      s.cmds = .addSources listeners :: cmds →
      Moves s .recv
        { s with
          cmds := cmds
          accepters := s.accepters ++ List.replicate listeners ⟨.select, s.seen⟩ } []
  | finished : s.run = .select → .shutdown ∈ s.cmds ∨ s.allGone = true →
      Moves s .recv s.finish []
  | work (act : HaltAct) (place : RunPlace) (events : Nat) : s.run ≠ .ended → place ≠ .ended →
      Moves s act { s with run := place, events := events } []
  | preempt : s.run = .handling → s.watch.value = true →
      Moves s .preempt { s with run := .select, seen := s.watch.version } []
  | accepter (act : HaltAct) (i : Nat) (a a' : Accepter) (events : Nat) :
      s.accepters[i]? = some a → a.place ≠ .returned → Goes s a a' →
      Moves s act { s.become i a' with events := events } []

variable {s s' : Halting} {act : HaltAct} {log notes : List HaltNote}

theorem acceptStep_goes {i : Nat} {a : Accepter} (stepped : s.acceptStep i a act = some s') :
    a.place ≠ .returned ∧ ∃ a' events, Goes s a a' ∧
      s' = { s.become i a' with events := events } := by
  unfold acceptStep at stepped
  split at stepped
  · split at stepped <;> cases stepped
    rename_i ready
    refine ⟨by simp [ready.1], _, s.events, ?_, rfl⟩
    cases raised : s.watch.value with
    | true => exact .returned _ (.inl raised)
    | false => exact .looked raised
  · split at stepped <;> cases stepped
    rename_i ok here
    exact ⟨by simp [here], _, s.events, .same _ (by cases ok <;> simp), rfl⟩
  · split at stepped <;> cases stepped
    rename_i here
    exact ⟨by simp [here], _, s.events, .same _ (by simp), rfl⟩
  · split at stepped
    · rename_i here
      split at stepped
      · cases stepped
        exact ⟨by simp [here], _, s.events, .returned _ (.inr ‹_›), rfl⟩
      · split at stepped <;> cases stepped
        exact ⟨by simp [here], _, _, .same _ (by simp), rfl⟩
    · cases stepped
  · cases stepped

theorem moves_of_accepter {i : Nat}
    (stepped : (s.accepters[i]?.bind fun a => s.acceptStep i a act).map (fun s => (s, [])) =
      some (s', notes)) : Moves s act s' notes := by
  obtain ⟨_, taken, done⟩ := Option.map_eq_some_iff.mp stepped
  cases done
  obtain ⟨a, found, taken⟩ := Option.bind_eq_some_iff.mp taken
  obtain ⟨going, a', events, goes, rfl⟩ := acceptStep_goes taken
  exact .accepter act i a a' events found going goes

theorem step_moves (stepped : s.step act = some (s', notes)) : Moves s act s' notes := by
  cases act with
  | clone h =>
      simp only [step] at stepped
      split at stepped <;> cases stepped
      exact .clone h ‹_›
  | drop h =>
      simp only [step] at stepped
      split at stepped <;> cases stepped
      exact .drop h ‹_›
  | settle h =>
      simp only [step] at stepped
      split at stepped
      · rename_i here
        split at stepped <;> cases stepped
        · rename_i first
          rw [first] at here
          exact .last h here
        · exact .settle h _ here ‹_›
      · cases stepped
  | release h =>
      simp only [step] at stepped
      split at stepped <;> cases stepped
      exact .release h ‹_›
  | shutdown h =>
      simp only [step] at stepped
      split at stepped <;> cases stepped
      exact .shutdown h ‹_›
  | sendShutdown =>
      simp only [step] at stepped
      split at stepped
      · cases stepped
      · rename_i some
        split at stepped
        · cases stepped
          exact .unsentShutdown _ (Nat.pos_of_ne_zero some)
        · split at stepped <;> cases stepped
          exact .sentShutdown (Nat.pos_of_ne_zero some) ‹_›
  | cancelShutdown =>
      simp only [step] at stepped
      split at stepped <;> cases stepped
      exact .unsentShutdown _ (Nat.pos_of_ne_zero ‹_›)
  | addSources h listeners =>
      simp only [step] at stepped
      split at stepped <;> cases stepped
      rename_i open'
      exact .addSources h listeners open'.1
  | recv =>
      simp only [step] at stepped
      split at stepped
      · rename_i here
        split at stepped
        · rename_i queue
          cases stepped
          exact .extended _ _ here queue
        · rename_i queue
          cases stepped
          exact .finished here (.inl (by simp [queue]))
        · split at stepped <;> cases stepped
          exact .finished here (.inr ‹_›)
      · cases stepped
  | work taken =>
      simp only [step] at stepped
      split at stepped
      · rename_i here
        have going : s.run ≠ .ended := by simp [here.1]
        cases taken with
        | packet =>
            cases stepped
            exact .work _ _ s.events going (by simp)
        | request =>
            cases stepped
            exact .work _ _ s.events going (by simp)
        | event =>
            dsimp only at stepped
            split at stepped <;> cases stepped
            exact .work _ _ _ going (by simp)
      · cases stepped
  | connected =>
      simp only [step] at stepped
      split at stepped <;> cases stepped
      exact .work _ _ s.events (by simp [*]) (by simp)
  | preempt =>
      simp only [step] at stepped
      split at stepped <;> cases stepped
      rename_i here
      exact .preempt here.1 here.2
  | handled =>
      simp only [step] at stepped
      split at stepped <;> cases stepped
      exact .work _ _ s.events (by simp [*]) (by simp)
  | changed i => exact moves_of_accepter stepped
  | accept i ok => exact moves_of_accepter stepped
  | slept i => exact moves_of_accepter stepped
  | sent i => exact moves_of_accepter stepped

/-- How many clones are live. -/
def live (s : Halting) : Nat := s.clones.count .live

theorem count_set {clones : List CloneState} {h : Nat} {c : CloneState}
    (here : clones[h]? = some c) (c' x : CloneState) :
    (clones.set h c').count x + (if c = x then 1 else 0) =
      clones.count x + if c' = x then 1 else 0 := by
  induction clones generalizing h with
  | nil => cases here
  | cons first rest ih =>
      cases h with
      | zero =>
          cases here
          simp only [List.set_cons_zero, List.count_cons, beq_iff_eq]
          omega
      | succ h =>
          have others := ih here
          simp only [List.set_cons_succ, List.count_cons]
          omega

/-- The clones count themselves, and one of them is the last. -/
structure Counted (log : List HaltNote) (s : Halting) : Prop where
  count : s.handleCount = s.live
  /-- While a clone is live, none was the last. -/
  early : 0 < s.live → log.count .last + s.clones.count (.dropping 1) = 0
  once : s.live = 0 → log.count .last + s.clones.count (.dropping 1) = 1

theorem live_pos {h : Nat} (here : s.clones[h]? = some .live) : 0 < s.live :=
  List.count_pos_iff.mpr (List.mem_of_getElem? here)

theorem Counted.of_same (counted : Counted log s) (clones : s'.clones = s.clones)
    (handleCount : s'.handleCount = s.handleCount) (other : HaltNote.last ∉ notes) :
    Counted (log ++ notes) s' := by
  obtain ⟨count, early, once⟩ := counted
  have none : notes.count .last = 0 := List.count_eq_zero.mpr other
  refine ⟨?_, ?_, ?_⟩ <;>
    simp only [live, clones, handleCount, List.count_append, none, Nat.add_zero] at * <;>
    assumption

theorem Counted.step (counted : Counted log s) (moves : Moves s act s' notes) :
    Counted (log ++ notes) s' := by
  have count := counted.count
  have early := counted.early
  have once := counted.once
  cases moves with
  | clone h here =>
      have some := live_pos here
      refine ⟨?_, fun _ => ?_, fun none => ?_⟩ <;> simp_all [live]
  | drop h here =>
      have some := live_pos here
      have live := count_set here (.dropping s.handleCount) .live
      have dropping := count_set here (.dropping s.handleCount) (.dropping 1)
      refine ⟨?_, ?_, ?_⟩ <;>
        simp only [Halting.live, cloned, List.append_nil, CloneState.dropping.injEq, reduceCtorEq,
          if_false, if_true] at * <;> grind
  | last h here =>
      have live := count_set here .closing .live
      have dropping := count_set here .closing (.dropping 1)
      refine ⟨?_, ?_, ?_⟩ <;>
        simp only [Halting.live, cloned, raised, List.count_append, List.count_singleton_self,
          reduceCtorEq, if_false, if_true] at * <;> grind
  | settle h previous here other =>
      have live := count_set here .closing .live
      have dropping := count_set here .closing (.dropping 1)
      refine ⟨?_, ?_, ?_⟩ <;>
        simp only [Halting.live, cloned, List.append_nil, CloneState.dropping.injEq, other,
          reduceCtorEq, if_false] at * <;> grind
  | release h here =>
      have live := count_set here .gone .live
      have dropping := count_set here .gone (.dropping 1)
      refine ⟨?_, ?_, ?_⟩ <;>
        simp only [Halting.live, cloned, List.append_nil, reduceCtorEq, if_false] at * <;> grind
  | _ => exact counted.of_same rfl rfl (by simp)

/-- What holds of handles, watch and tasks together. -/
structure Sound (log : List HaltNote) (s : Halting) : Prop extends Counted log s where
  raised : HaltNote.last ∈ log ∨ HaltNote.shutdown ∈ log ∨ s.run = .ended → s.watch.value = true
  told : s.watch.value = true → HaltNote.shutdown ∈ log ∨ s.live = 0
  asked : 0 < s.sending ∨ HaltCmd.shutdown ∈ s.cmds → HaltNote.shutdown ∈ log
  seen : s.seen ≤ s.watch.version
  /-- What the engine raised at its end, no accept task that goes on has seen. -/
  heard : ∀ a ∈ s.accepters, a.place ≠ .returned →
    a.seen ≤ s.watch.version ∧ (s.run = .ended → a.seen < s.watch.version)
  returned : ∀ a ∈ s.accepters, a.place = .returned → s.watch.value = true

theorem receivers_pos (going : s.run ≠ .ended) : s.receivers ≠ 0 := by
  simp [receivers, going]

theorem Sound.value_raised (sound : Sound log s) : s.raised.watch.value = true := by
  by_cases ended : s.run = .ended
  · have value := sound.raised (.inr (.inr ended))
    simp only [Halting.raised, Watch.raise]
    split <;> simp [value]
  · simp [Halting.raised, Watch.raise, receivers_pos ended]

theorem version_le_raised : s.watch.version ≤ s.raised.watch.version := by
  simp only [raised, Watch.raise]
  split <;> simp

theorem version_lt_raised (going : s.run ≠ .ended) :
    s.watch.version < s.raised.watch.version := by
  simp [raised, Watch.raise, receivers_pos going]

theorem Sound.live_eq_zero {h : Nat} (sound : Sound log s)
    (here : s.clones[h]? = some (.dropping 1)) : s.live = 0 := by
  by_contra some
  have none := sound.early (Nat.pos_of_ne_zero some)
  have one : 0 < s.clones.count (.dropping 1) :=
    List.count_pos_iff.mpr (List.mem_of_getElem? here)
  omega

/-- No clone is live once all are gone. -/
theorem live_of_allGone (gone : s.allGone = true) : s.live = 0 := by
  refine List.count_eq_zero.mpr fun live => ?_
  have := List.all_eq_true.mp gone _ live
  simp at this

/-- A clone does not come to life again. -/
theorem live_cloned_le {h : Nat} {c c' : CloneState} (here : s.clones[h]? = some c)
    (dead : c' ≠ .live) : (s.cloned h c').live ≤ s.live := by
  have counts := count_set here c' .live
  simp only [dead, if_false] at counts
  simp only [live, cloned]
  omega

/-- To what was raised meanwhile, every accept task that goes on still has to listen. -/
theorem Sound.heard_raised (sound : Sound log s) {a : Accepter} (mem : a ∈ s.accepters)
    (going : a.place ≠ .returned) :
    a.seen ≤ s.raised.watch.version ∧ (s.run = .ended → a.seen < s.raised.watch.version) := by
  obtain ⟨le, lt⟩ := sound.heard a mem going
  exact ⟨le.trans version_le_raised, fun ended => (lt ended).trans_le version_le_raised⟩

theorem Sound.of_clones (sound : Sound log s) {clones : List CloneState} {handleCount : Nat}
    (counted : Counted log { s with clones := clones, handleCount := handleCount })
    (fewer : clones.count .live ≤ s.live) :
    Sound log { s with clones := clones, handleCount := handleCount } where
  toCounted := counted
  raised := sound.raised
  told value := by
    refine (sound.told value).imp_right fun none => ?_
    rw [none] at fewer
    exact Nat.eq_zero_of_le_zero fewer
  asked := sound.asked
  seen := sound.seen
  heard := sound.heard
  returned := sound.returned

theorem Sound.step (sound : Sound log s) (moves : Moves s act s' notes) :
    Sound (log ++ notes) s' := by
  have counted := sound.toCounted.step moves
  have raised := sound.raised
  have told := sound.told
  have asked := sound.asked
  have seen := sound.seen
  have heard := sound.heard
  have returned := sound.returned
  cases moves with
  | clone h here =>
      rw [List.append_nil] at counted ⊢
      refine ⟨counted, raised, fun value => .inl ?_, asked, seen, heard, returned⟩
      exact (told value).resolve_right (live_pos here).ne'
  | drop h here =>
      rw [List.append_nil] at counted ⊢
      exact sound.of_clones counted (live_cloned_le here (by simp))
  | last h here =>
      have fewer : (s.cloned h .closing).live ≤ s.live := live_cloned_le here (by simp)
      rw [sound.live_eq_zero here] at fewer
      refine ⟨counted, fun _ => sound.value_raised, fun _ => .inr (Nat.eq_zero_of_le_zero fewer),
        fun pending => ?_, seen.trans version_le_raised, fun _ => sound.heard_raised,
        fun _ _ _ => sound.value_raised⟩
      exact List.mem_append_left _ (asked pending)
  | settle h previous here other =>
      rw [List.append_nil] at counted ⊢
      exact sound.of_clones counted (live_cloned_le here (by simp))
  | release h here =>
      rw [List.append_nil] at counted ⊢
      exact sound.of_clones counted (live_cloned_le here (by simp))
  | shutdown h here =>
      exact ⟨counted, fun _ => sound.value_raised, fun _ => .inl (by simp), fun _ => by simp,
        seen.trans version_le_raised, fun _ => sound.heard_raised,
        fun _ _ _ => sound.value_raised⟩
  | sentShutdown some going =>
      rw [List.append_nil] at counted ⊢
      exact ⟨counted, raised, told, fun _ => asked (.inl some), seen, heard, returned⟩
  | unsentShutdown _ some =>
      rw [List.append_nil] at counted ⊢
      exact ⟨counted, raised, told, fun _ => asked (.inl some), seen, heard, returned⟩
  | addSources h listeners here =>
      rw [List.append_nil] at counted ⊢
      exact ⟨counted, raised, told, by simpa using asked, seen, heard, returned⟩
  | extended listeners cmds here queue =>
      rw [List.append_nil] at counted ⊢
      refine ⟨counted, raised, told, fun pending => ?_, seen, ?_, ?_⟩
      · exact asked (pending.imp_right fun mem => by simp [queue, mem])
      · intro a mem going
        cases List.mem_append.mp mem with
        | inl old => exact heard a old going
        | inr new =>
            rw [List.eq_of_mem_replicate new]
            exact ⟨seen, fun ended => by simp [here] at ended⟩
      · intro a mem back
        cases List.mem_append.mp mem with
        | inl old => exact returned a old back
        | inr new => simp [List.eq_of_mem_replicate new] at back
  | finished here stop =>
      have going : s.run ≠ .ended := by simp [here]
      rw [List.append_nil] at counted ⊢
      refine ⟨counted, fun _ => sound.value_raised, fun _ => ?_, fun pending => ?_,
        seen.trans version_le_raised, fun a mem on => ?_, fun _ _ _ => sound.value_raised⟩
      · exact stop.imp (fun queued => asked (.inr queued)) live_of_allGone
      · exact asked (.inl (pending.resolve_right (by simp [finish])))
      · have lt := (heard a mem on).1.trans_lt (version_lt_raised going)
        exact ⟨lt.le, fun _ => lt⟩
  | work _ place events going other =>
      rw [List.append_nil] at counted ⊢
      refine ⟨counted, fun known => ?_, told, asked, seen, fun a mem on => ?_, returned⟩
      · exact raised (known.imp_right fun known => .inl (known.resolve_right other))
      · exact ⟨(heard a mem on).1, fun ended => absurd ended other⟩
  | preempt here value =>
      rw [List.append_nil] at counted ⊢
      refine ⟨counted, fun _ => value, told, asked, le_rfl, fun a mem on => ?_, returned⟩
      exact ⟨(heard a mem on).1, fun ended => by cases ended⟩
  | accepter _ i a a' events found going goes =>
      have mem := List.mem_of_getElem? found
      rw [List.append_nil] at counted ⊢
      refine ⟨counted, raised, told, asked, seen, fun b memb on => ?_, fun b memb back => ?_⟩
      · cases List.mem_or_eq_of_mem_set memb with
        | inl old => exact heard b old on
        | inr new =>
            subst new
            cases goes with
            | returned seen stop => exact absurd rfl on
            | same place other => exact heard a mem going
            | looked down =>
                have going : s.run ≠ .ended := fun ended => by simp [raised, ended] at down
                exact ⟨le_rfl, fun ended => absurd ended going⟩
      · cases List.mem_or_eq_of_mem_set memb with
        | inl old => exact returned b old back
        | inr new =>
            subst new
            cases goes with
            | returned seen stop => exact stop.elim id fun ended => raised (.inr (.inr ended))
            | same place other => exact absurd back other
            | looked down => cases back

theorem sound_spawn (listeners : Nat) : Sound [] (spawn listeners) where
  count := by simp [spawn, live]
  early _ := by simp [spawn]
  once none := by simp [spawn, live] at none
  raised := by simp [spawn]
  told := by simp [spawn]
  asked := by simp [spawn]
  seen := by simp [spawn]
  heard a mem _ := by
    rw [List.eq_of_mem_replicate mem]
    simp [spawn]
  returned a mem back := by simp [List.eq_of_mem_replicate mem] at back

theorem sound_reachable {listeners : Nat} (run : (system listeners).Reachable log s) :
    Sound log s :=
  run.invariant (sound_spawn listeners) fun sound _ stepped => sound.step (step_moves stepped)

/-- While a handle is live and nobody has asked the engine to stop, the engine runs and so does
every accept task, whatever errors accepting has given. -/
theorem sources_open_until_stopped {listeners : Nat} (run : (system listeners).Reachable log s)
    (handle : 0 < s.live) (unasked : HaltNote.shutdown ∉ log) :
    s.run ≠ .ended ∧ s.watch.value = false ∧ ∀ a ∈ s.accepters, a.place ≠ .returned := by
  have sound := sound_reachable run
  have down : s.watch.value ≠ true := fun raised =>
    (sound.told raised).elim unasked fun none => handle.ne' none
  exact ⟨fun ended => down (sound.raised (.inr (.inr ended))), Bool.eq_false_of_not_eq_true down,
    fun a mem back => down (sound.returned a mem back)⟩

/-- A clone was dropped and accepting failed twice. -/
theorem sources_open_until_stopped_erring :
    ∃ log s, (system 1).Reachable log s ∧ s.clones = [.gone, .live] ∧
      (s.run ≠ .ended ∧ s.watch.value = false ∧ ∀ a ∈ s.accepters, a.place ≠ .returned) := by
  have erring : ∃ log s, (system 1).Reachable log s ∧ s.clones = [.gone, .live] ∧ log = [] :=
    ⟨_, _, .execute .start
      [.clone 0, .accept 0 false, .drop 0, .slept 0, .settle 0, .accept 0 false, .release 0] rfl,
      rfl, rfl⟩
  obtain ⟨log, s, run, clones, quiet⟩ := erring
  exact ⟨log, s, run, clones, sources_open_until_stopped run (by simp [live, clones])
    (by simp [quiet])⟩

theorem Sound.last_of_allGone (sound : Sound log s) (gone : s.allGone = true) :
    log.count .last = 1 := by
  have one := sound.once (live_of_allGone gone)
  have none : s.clones.count (.dropping 1) = 0 := by
    refine List.count_eq_zero.mpr fun dropping => ?_
    have := List.all_eq_true.mp gone _ dropping
    simp at this
  omega

/-- However the drops of the clones interleave, none of them raises the watch while a clone is live,
and one of them does when all have come to their end. -/
theorem one_drop_is_last {listeners : Nat} (run : (system listeners).Reachable log s) :
    log.count .last ≤ 1 ∧ (0 < s.live → HaltNote.last ∉ log) ∧
      (s.allGone = true → log.count .last = 1 ∧ s.watch.value = true) := by
  have sound := sound_reachable run
  refine ⟨?_, fun handle => ?_, fun gone => ?_⟩
  · cases Nat.eq_zero_or_pos s.live with
    | inl none =>
        have := sound.once none
        omega
    | inr some =>
        have := sound.early some
        omega
  · exact List.count_eq_zero.mp (Nat.eq_zero_of_add_eq_zero_right (sound.early handle))
  · have one := sound.last_of_allGone gone
    have mem : HaltNote.last ∈ log := List.count_pos_iff.mp (by omega)
    exact ⟨one, sound.raised (.inl mem)⟩

/-- Two clones are dropped at once, and the one that counted first gets to its end last. -/
theorem one_drop_is_last_crossed :
    ∃ log s, (system 0).Reachable log s ∧ s.allGone = true ∧
      (log.count .last ≤ 1 ∧ (0 < s.live → HaltNote.last ∉ log) ∧
        (s.allGone = true → log.count .last = 1 ∧ s.watch.value = true)) := by
  have crossed : ∃ log s, (system 0).Reachable log s ∧ s.allGone = true :=
    ⟨_, _, .execute .start
      [.clone 0, .drop 1, .drop 0, .settle 0, .release 0, .settle 1, .release 1] rfl, rfl⟩
  obtain ⟨log, s, run, gone⟩ := crossed
  exact ⟨log, s, run, gone, one_drop_is_last run⟩

/-- The engine has been told to stop, or will be without anyone's help. -/
def Stopping (s : Halting) : Prop :=
  s.run = .ended ∨ HaltCmd.shutdown ∈ s.cmds ∨ 0 < s.sending ∨ s.allGone = true

/-- Steps that nobody outside has to make. That a handler comes to its end is not among them. -/
def Winds : HaltAct → Prop
  | .sendShutdown | .recv | .connected | .preempt | .changed _ | .slept _ | .sent _ => True
  | _ => False

/-- The engine and all its accept tasks have come to their end. -/
def Stopped (s : Halting) : Prop := s.run = .ended ∧ ∀ a ∈ s.accepters, a.place = .returned

/-- How many steps a task may still make. -/
def acceptLeft (a : Accepter) : Nat :=
  match a.place with
  | .returned => 0
  | .select | .sending => 1
  | .sleeping => 2

def cmdLeft : HaltCmd → Nat
  | .addSources listeners => listeners + 1
  | .shutdown => 1

def runLeft : RunPlace → Nat
  | .ended => 0
  | .select => 1
  | .handling => 2
  | .connecting => 3

def left (s : Halting) : Nat :=
  runLeft s.run + (s.cmds.map cmdLeft).sum + 2 * s.sending + (s.accepters.map acceptLeft).sum

theorem left_become {i : Nat} {a a' : Accepter} (found : s.accepters[i]? = some a)
    (less : acceptLeft a' < acceptLeft a) : (s.become i a').left < s.left := by
  suffices ((s.accepters.set i a').map acceptLeft).sum < (s.accepters.map acceptLeft).sum by
    simp only [left, become]
    omega
  generalize s.accepters = accepters at found
  induction accepters generalizing i with
  | nil => cases found
  | cons first rest ih =>
      cases i with
      | zero =>
          cases found
          simpa using less
      | succ i => simpa using ih found

/-- The watch is raised once the engine is to stop. -/
theorem Sound.value_of_stopping (sound : Sound log s) (stopping : s.Stopping) :
    s.watch.value = true := by
  obtain ended | queued | waits | gone := stopping
  · exact sound.raised (.inr (.inr ended))
  · exact sound.raised (.inr (.inl (sound.asked (.inr queued))))
  · exact sound.raised (.inr (.inl (sound.asked (.inl waits))))
  · have one := sound.last_of_allGone gone
    exact sound.raised (.inl (List.count_pos_iff.mp (by omega)))

/-- An accept task gets on once the engine has ended: the watch is raised, and it has not seen
that. -/
theorem Sound.accepter_progress (sound : Sound log s) (ended : s.run = .ended) {i : Nat}
    {a : Accepter} (found : s.accepters[i]? = some a) (going : a.place ≠ .returned) :
    ∃ act a', Winds act ∧ s.step act = some (s.become i a', []) ∧ acceptLeft a' < acceptLeft a := by
  have value := sound.raised (.inr (.inr ended))
  have lt := (sound.heard a (List.mem_of_getElem? found) going).2 ended
  cases place : a.place with
  | select =>
      refine ⟨.changed i, ⟨.returned, s.watch.version⟩, trivial, ?_, by simp [acceptLeft, place]⟩
      simp [Halting.step, found, acceptStep, place, lt.ne, value]
  | sending =>
      refine ⟨.sent i, ⟨.returned, a.seen⟩, trivial, ?_, by simp [acceptLeft, place]⟩
      simp [Halting.step, found, acceptStep, place, ended]
  | sleeping =>
      refine ⟨.slept i, ⟨.select, a.seen⟩, trivial, ?_, by simp [acceptLeft, place]⟩
      simp [Halting.step, found, acceptStep, place]
  | returned => exact absurd place going

/-- The engine gets on once it is to stop. What waits for room in its command queue has it when the
queue is empty. -/
theorem Sound.engine_progress (sound : Sound log s) (stopping : s.Stopping)
    (going : s.run ≠ .ended) :
    ∃ act t, Winds act ∧ s.step act = some (t, []) ∧ t.Stopping ∧ t.left < s.left := by
  have value := sound.value_of_stopping stopping
  cases place : s.run with
  | ended => exact absurd place going
  | connecting =>
      refine ⟨.connected, _, trivial, if_pos place, ?_, ?_⟩
      · exact .inr (stopping.resolve_left going)
      · simp [left, place, runLeft]
  | handling =>
      refine ⟨.preempt, _, trivial, if_pos ⟨place, value⟩, ?_, ?_⟩
      · exact .inr (stopping.resolve_left going)
      · simp [left, place, runLeft]
  | select =>
      cases queue : s.cmds with
      | nil =>
          obtain ended | queued | waits | gone := stopping
          · exact absurd ended going
          · simp [queue] at queued
          · refine ⟨.sendShutdown, { s with sending := s.sending - 1, cmds := [.shutdown] },
              trivial, ?_, .inr (.inl (by simp)), ?_⟩
            · simp [Halting.step, waits.ne', going, queue, commandQueueDepth]
            · simp only [left, queue, List.map_cons, List.map_nil, List.sum_cons, List.sum_nil,
                cmdLeft]
              omega
          · refine ⟨.recv, s.finish, trivial, ?_, .inl rfl, ?_⟩
            · simp [Halting.step, place, queue, gone]
            · simp [left, finish, Halting.raised, place, runLeft]
      | cons cmd cmds =>
          cases cmd with
          | shutdown =>
              refine ⟨.recv, s.finish, trivial, ?_, .inl rfl, ?_⟩
              · simp [Halting.step, place, queue]
              · simp [left, finish, Halting.raised, place, runLeft]
          | addSources listeners =>
              refine ⟨.recv, { s with
                  cmds := cmds
                  accepters := s.accepters ++ List.replicate listeners ⟨.select, s.seen⟩ },
                trivial, ?_, ?_, ?_⟩
              · simp [Halting.step, place, queue]
              · obtain ended | queued | rest := stopping
                · exact .inl ended
                · exact .inr (.inl (by simpa [queue] using queued))
                · exact .inr (.inr rest)
              · simp only [left, queue, List.map_append, List.map_replicate, acceptLeft,
                  List.sum_append, List.sum_replicate, nsmul_eq_mul, Nat.cast_id, List.map_cons,
                  cmdLeft, List.sum_cons]
                omega

/-- Until all have stopped, one of them gets on. -/
theorem Sound.progress (sound : Sound log s) (stopping : s.Stopping) (going : ¬ s.Stopped) :
    ∃ act t, Winds act ∧ s.step act = some (t, []) ∧ t.Stopping ∧ t.left < s.left := by
  by_cases ended : s.run = .ended
  · obtain ⟨a, mem, on⟩ : ∃ a ∈ s.accepters, a.place ≠ .returned := by
      by_contra none
      push Not at none
      exact going ⟨ended, none⟩
    obtain ⟨i, found⟩ := List.mem_iff_getElem?.mp mem
    obtain ⟨act, a', chosen, stepped, less⟩ := sound.accepter_progress ended found on
    exact ⟨act, _, chosen, stepped, .inl ended, left_become found less⟩
  · exact sound.engine_progress stopping ended

/-- An engine that is to stop does, with all of its accept tasks, even if no handler came to its end
by itself: a task that was added behind a preempted handler, too, is woken. -/
theorem engine_winds_down {listeners : Nat} (run : (system listeners).Reachable log s)
    (stopping : s.Stopping) :
    ∃ more t, (system listeners).Leads Winds s more t ∧ t.Stopped := by
  have led : ∃ more t, (system listeners).Leads Winds s more t ∧
      (Sound (log ++ more) t ∧ t.Stopping) ∧ t.Stopped := by
    apply Transition.System.leads_of_progress left
    · intro more s kept going
      obtain ⟨act, t, chosen, stepped, still, less⟩ := kept.1.progress kept.2 going
      refine ⟨act, t, [], chosen, stepped, ⟨?_, still⟩, less⟩
      rw [← List.append_assoc]
      exact kept.1.step (step_moves stepped)
    · rw [List.append_nil]
      exact ⟨sound_reachable run, stopping⟩
  obtain ⟨more, t, leads, _, stopped⟩ := led
  exact ⟨more, t, leads, stopped⟩

/-- A handler that waits for room is preempted by `shutdown`, and sources are added behind it. The
task of such a source has seen the watch raised, and is woken by the end of the engine. -/
theorem engine_winds_down_added :
    ∃ log s, (system 1).Reachable log s ∧ s.accepters.map (·.seen) = [0, 1] ∧
      ∃ more t, (system 1).Leads Winds s more t ∧ t.Stopped := by
  have halted : ∃ log s, (system 1).Reachable log s ∧ 0 < s.sending ∧
      s.accepters.map (·.seen) = [0, 1] :=
    ⟨_, _, .execute .start
      [.accept 0 false, .work .packet, .addSources 0 1, .shutdown 0, .preempt, .recv] rfl,
      by decide, rfl⟩
  obtain ⟨log, s, run, waits, seen⟩ := halted
  exact ⟨log, s, run, seen, engine_winds_down run (.inr (.inr (.inl waits)))⟩

end Halting

end Forward

end Et
