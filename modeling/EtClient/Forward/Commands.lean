import EtClient.Forward.Steps

/-!
# The handle of the engine

`EngineHandle::spawn` binds the first sources and starts the engine. `add_sources` puts a
command into a bounded queue and waits for the reply, for a shutdown or for its time bound,
whichever it sees first. The engine takes the commands between its other work. It binds the
sources of a batch one after the other, and only then adds the batch to its table and
starts the accept tasks.

The caller and the engine decide independently. So the call, its check that the engine still
runs, each way to return, each bind and the end of a batch are steps of their own.
-/

namespace Et

namespace Forward

variable {π : Type}

/-- A bound listener. Its accept task knows the index of its source. -/
structure Listener where
  sourceIdx : Nat
  host : String
  port : UInt16
  deriving DecidableEq

/-- What the system answers to a bind: an error, or the port that it picks for port zero. -/
abbrev BindOutcome := Except String UInt16

/-- The port that `TcpListener::bind` binds. -/
def bindPort (port : UInt16) (outcome : BindOutcome) : BindOutcome :=
  outcome.map fun picked => if port = 0 then picked else port

/-- `bind_source_listeners` between two rounds of its loop. -/
structure Binding where
  /-- The call that waits for the reply; there is none for `spawn`. -/
  call : Option Nat
  sources : List PortForwardSourceRequest
  baseIdx : Nat
  /-- How many sources are behind the loop. -/
  done : Nat
  bound : List Listener
  bindErrors : List String

namespace Binding

def new (call : Option Nat) (sources : List PortForwardSourceRequest) (baseIdx : Nat) : Binding :=
  ⟨call, sources, baseIdx, 0, [], []⟩

/-- One round of the loop. -/
def next (b : Binding) (outcome : BindOutcome) : Binding :=
  let after := { b with done := b.done + 1 }
  match b.sources[b.done]?.bind PortForwardSourceRequest.source with
  | none => after
  | some source =>
      match source.port with
      | none => after
      | some port =>
          let host := source.name.getD "localhost"
          -- `port as u16`
          match bindPort port.toUInt32.toUInt16 outcome with
          | .ok bound => { after with bound := b.bound ++ [⟨b.baseIdx + b.done, host, bound⟩] }
          | .error e => { after with bindErrors := b.bindErrors ++ [s!"{host}:{port}: {e}"] }

end Binding

/-- The loop as a whole, given the system's answer for each source. -/
def bindSourceListeners (sources : List PortForwardSourceRequest) (baseIdx : Nat)
    (outcomes : Nat → BindOutcome) : Binding :=
  (List.range sources.length).foldl (fun b i => b.next (outcomes i)) (.new none sources baseIdx)

/-- `Cmd`. -/
inductive EngineCmd
  /-- The call stands for its reply channel. -/
  | addSources (call : Nat) (sources : List PortForwardSourceRequest)
  | shutdown

def EngineCmd.call? : EngineCmd → Option Nat
  | .addSources call _ => some call
  | .shutdown => none

def commandQueueDepth : Nat := 16

/-- Why `add_sources` fails as a whole. -/
inductive AddSourcesError
  | full
  | notRunning
  | stopped
  | shuttingDown
  | timedOut
  deriving DecidableEq

structure Handle where
  engine : Engine
  /-- The batch that the engine is binding. -/
  binding : Option Binding
  cmds : List EngineCmd
  /-- How many calls of `add_sources` there have been. -/
  calls : Nat
  /-- The calls behind `try_send`. -/
  checking : List Nat
  /-- The calls in their `select!`. -/
  waiting : List Nat
  listeners : List Listener
  /-- The batches that were bound, which is what the callers are told. -/
  batches : List Binding

inductive HandleAct (π : Type)
  | addSources (sources : List PortForwardSourceRequest)
  /-- A caller asks whether the engine is gone. -/
  | isClosed (call : Nat)
  /-- The reply channel of a caller has a reply, or is closed. -/
  | reply (call : Nat)
  /-- A caller sees the shutdown watch. -/
  | seeShutdown (call : Nat)
  /-- The time bound of a caller is over. -/
  | sleep (call : Nat)
  /-- `shutdown` raises the watch. -/
  | shutdown
  /-- The command of `shutdown` finds room in the queue. -/
  | sendShutdown
  /-- The engine takes a command. -/
  | recv
  /-- The engine binds the next source of its batch. -/
  | bind (outcome : BindOutcome)
  /-- The engine adds the batch to its sources, starts the accept tasks and replies. -/
  | extend
  /-- An accept task queues a connection. -/
  | accept (listener : Listener)
  /-- The engine handles a packet or an event, or a read task goes on. -/
  | engine (act : EngineAct π)
  /-- A channel of the engine is closed. -/
  | stop

inductive HandleEffect
  | engine (effect : EngineEffect)
  /-- A source of the batch of a call is bound. -/
  | bound (call : Option Nat) (listener : Listener)
  | added (call : Option Nat) (sources : List PortForwardSourceRequest)
  /-- `add_sources` returns the errors of its batch. -/
  | returned (call : Nat) (bindErrors : List String)
  /-- `add_sources` returns an error of its own. -/
  | failed (call : Nat) (error : AddSourcesError)
  deriving DecidableEq

/-- The task of `run` does this itself. -/
def EngineAct.ofRun : EngineAct π → Bool
  | .event _ | .peer _ _ => true
  | _ => false

def EngineAct.ofReader : EngineAct π → Bool
  | .read _ _ _ | .abort _ _ => true
  | _ => false

namespace Handle

/-- The command of a call is queued, or its sources are being bound. -/
def Pending (s : Handle) (call : Nat) : Prop :=
  call ∈ s.cmds.filterMap EngineCmd.call? ∨ s.binding.bind Binding.call = some call

instance (s : Handle) (call : Nat) : Decidable (s.Pending call) :=
  inferInstanceAs (Decidable (_ ∨ _))

/-- The loop of `run` ends; the queue is dropped, and with it the reply channels. -/
def stopped (s : Handle) (codec : Codec π) : Option (Handle × List HandleEffect) :=
  (s.engine.step codec .stop).map fun (engine, effects) =>
    ({ s with engine := engine, cmds := [] }, effects.map .engine)

def step (codec : Codec π) (s : Handle) : HandleAct π → Option (Handle × List HandleEffect)
  | .addSources sources =>
      if s.engine.running then
        if s.cmds.length < commandQueueDepth then
          some ({ s with
            cmds := s.cmds ++ [.addSources s.calls sources]
            calls := s.calls + 1
            checking := s.checking ++ [s.calls] }, [])
        else some ({ s with calls := s.calls + 1 }, [.failed s.calls .full])
      -- A closed channel is found by the check.
      else some ({ s with calls := s.calls + 1, checking := s.checking ++ [s.calls] }, [])
  | .isClosed call =>
      if call ∈ s.checking then
        if s.engine.running then
          some ({ s with checking := s.checking.erase call, waiting := s.waiting ++ [call] }, [])
        else some ({ s with checking := s.checking.erase call }, [.failed call .notRunning])
      else none
  | .reply call =>
      if call ∈ s.waiting then
        match s.batches.find? fun b => b.call = some call with
        | some b =>
            some ({ s with waiting := s.waiting.erase call }, [.returned call b.bindErrors])
        | none =>
            if s.Pending call then none
            else some ({ s with waiting := s.waiting.erase call }, [.failed call .stopped])
      else none
  | .seeShutdown call =>
      if call ∈ s.waiting ∧ s.engine.shutdown then
        some ({ s with waiting := s.waiting.erase call }, [.failed call .shuttingDown])
      else none
  | .sleep call =>
      if call ∈ s.waiting then
        some ({ s with waiting := s.waiting.erase call }, [.failed call .timedOut])
      else none
  | .shutdown => some ({ s with engine := { s.engine with shutdown := true } }, [])
  | .sendShutdown =>
      if s.engine.running ∧ s.engine.shutdown ∧ s.cmds.length < commandQueueDepth then
        some ({ s with cmds := s.cmds ++ [.shutdown] }, [])
      else none
  | .recv =>
      if s.engine.running ∧ s.binding.isNone then
        match s.cmds with
        | [] => none
        | .addSources call sources :: cmds =>
            some ({ s with
              cmds := cmds
              binding := some (.new (some call) sources s.engine.state.sources.length) }, [])
        | .shutdown :: _ => s.stopped codec
      else none
  | .bind outcome =>
      match s.binding with
      | none => none
      | some b =>
          if b.done < b.sources.length then
            some ({ s with binding := some (b.next outcome) },
              ((b.next outcome).bound.drop b.bound.length).map (.bound b.call))
          else none
  | .extend =>
      match s.binding with
      | none => none
      | some b =>
          if b.done = b.sources.length then
            (s.engine.step codec (.addSources b.sources)).map fun (engine, _) =>
              ({ s with
                engine := engine
                binding := none
                listeners := s.listeners ++ b.bound
                batches := s.batches ++ [b] }, [.added b.call b.sources])
          else none
  | .accept listener =>
      if listener ∈ s.listeners then
        (s.engine.step codec (.accept listener.sourceIdx)).map fun (engine, effects) =>
          ({ s with engine := engine }, effects.map .engine)
      else none
  | .engine act =>
      if act.ofReader ∨ act.ofRun ∧ s.binding.isNone then
        (s.engine.step codec act).map fun (engine, effects) =>
          ({ s with engine := engine }, effects.map .engine)
      else none
  | .stop => if s.engine.running ∧ s.binding.isNone then s.stopped codec else none

/-- `EngineHandle::spawn`. -/
def spawn (sources : List PortForwardSourceRequest) (answerDestinations : Bool)
    (outcomes : Nat → BindOutcome) : Handle where
  engine := .spawn sources answerDestinations
  binding := none
  cmds := []
  calls := 0
  checking := []
  waiting := []
  listeners := (bindSourceListeners sources 0 outcomes).bound
  batches := [bindSourceListeners sources 0 outcomes]

def system (codec : Codec π) (sources : List PortForwardSourceRequest)
    (answerDestinations : Bool) (outcomes : Nat → BindOutcome) :
    Transition.System Handle (HandleAct π) HandleEffect where
  start := spawn sources answerDestinations outcomes
  step := step codec

end Handle

/-- A round passes a source over, binds it or reports it. -/
theorem Binding.next_spec (b : Binding) (outcome : BindOutcome) :
    ∃ bound bindErrors, b.next outcome =
      { b with
        done := b.done + 1
        bound := b.bound ++ bound
        bindErrors := b.bindErrors ++ bindErrors } := by
  rw [next]
  split
  · exact ⟨[], [], by simp⟩
  · split
    · exact ⟨[], [], by simp⟩
    · rename_i source _ _ port _
      split
      · rename_i bound _
        refine ⟨[⟨b.baseIdx + b.done, source.name.getD "localhost", bound⟩], [], ?_⟩
        rw [List.append_nil]
      · rename_i e _
        let host := source.name.getD "localhost"
        refine ⟨[], [s!"{host}:{port}: {e}"], ?_⟩
        rw [List.append_nil]

namespace Handle

/-- What a step does. -/
inductive Moves (codec : Codec π) (s : Handle) :
    HandleAct π → Handle → List HandleEffect → Prop
  | queued (sources : List PortForwardSourceRequest) : s.engine.running = true →
      Moves codec s (.addSources sources)
        { s with
          cmds := s.cmds ++ [.addSources s.calls sources]
          calls := s.calls + 1
          checking := s.checking ++ [s.calls] } []
  | full (sources : List PortForwardSourceRequest) :
      Moves codec s (.addSources sources) { s with calls := s.calls + 1 } [.failed s.calls .full]
  | closed (sources : List PortForwardSourceRequest) : s.engine.running = false →
      Moves codec s (.addSources sources)
        { s with calls := s.calls + 1, checking := s.checking ++ [s.calls] } []
  | runs (call : Nat) : call ∈ s.checking →
      Moves codec s (.isClosed call)
        { s with checking := s.checking.erase call, waiting := s.waiting ++ [call] } []
  | notRunning (call : Nat) : call ∈ s.checking → s.engine.running = false →
      Moves codec s (.isClosed call) { s with checking := s.checking.erase call }
        [.failed call .notRunning]
  | returns (call : Nat) (b : Binding) : call ∈ s.waiting → b ∈ s.batches →
      b.call = some call →
      Moves codec s (.reply call) { s with waiting := s.waiting.erase call }
        [.returned call b.bindErrors]
  | lost (call : Nat) : call ∈ s.waiting → ¬s.Pending call →
      Moves codec s (.reply call) { s with waiting := s.waiting.erase call }
        [.failed call .stopped]
  | seesShutdown (call : Nat) : call ∈ s.waiting →
      Moves codec s (.seeShutdown call) { s with waiting := s.waiting.erase call }
        [.failed call .shuttingDown]
  | sleeps (call : Nat) : call ∈ s.waiting →
      Moves codec s (.sleep call) { s with waiting := s.waiting.erase call }
        [.failed call .timedOut]
  | shutdown : Moves codec s .shutdown { s with engine := { s.engine with shutdown := true } } []
  | sendsShutdown : s.engine.running = true →
      Moves codec s .sendShutdown { s with cmds := s.cmds ++ [.shutdown] } []
  | takes (call : Nat) (sources : List PortForwardSourceRequest) (cmds : List EngineCmd) :
      s.engine.running = true → s.binding = none → s.cmds = .addSources call sources :: cmds →
      Moves codec s .recv
        { s with
          cmds := cmds
          binding := some (.new (some call) sources s.engine.state.sources.length) } []
  | stops (act : HandleAct π) (engine : Engine) (effects : List EngineEffect) :
      s.binding = none → s.engine.step codec .stop = some (engine, effects) →
      Moves codec s act { s with engine := engine, cmds := [] } (effects.map .engine)
  | binds (outcome : BindOutcome) (b : Binding) : s.binding = some b →
      b.done < b.sources.length →
      Moves codec s (.bind outcome) { s with binding := some (b.next outcome) }
        (((b.next outcome).bound.drop b.bound.length).map (.bound b.call))
  | adds (b : Binding) (engine : Engine) (effects : List EngineEffect) :
      s.binding = some b → b.done = b.sources.length →
      s.engine.step codec (.addSources b.sources) = some (engine, effects) →
      Moves codec s .extend
        { s with
          engine := engine
          binding := none
          listeners := s.listeners ++ b.bound
          batches := s.batches ++ [b] } [.added b.call b.sources]
  | accepts (listener : Listener) (engine : Engine) (effects : List EngineEffect) :
      listener ∈ s.listeners →
      s.engine.step codec (.accept listener.sourceIdx) = some (engine, effects) →
      Moves codec s (.accept listener) { s with engine := engine } (effects.map .engine)
  | engine (act : EngineAct π) (engine : Engine) (effects : List EngineEffect) :
      (act.ofReader = true ∨ act.ofRun = true ∧ s.binding = none) →
      s.engine.step codec act = some (engine, effects) →
      Moves codec s (.engine act) { s with engine := engine } (effects.map .engine)

variable {codec : Codec π} {s s' : Handle} {act : HandleAct π} {effects : List HandleEffect}

theorem stopped_moves (idle : s.binding = none)
    (stepped : s.stopped codec = some (s', effects)) : s.Moves codec act s' effects := by
  obtain ⟨⟨engine, raw⟩, moved, same⟩ := Option.map_eq_some_iff.1 stepped
  cases same
  exact .stops act engine raw idle moved

theorem addSources_moves {sources : List PortForwardSourceRequest}
    (stepped : s.step codec (.addSources sources) = some (s', effects)) :
    s.Moves codec (.addSources sources) s' effects := by
  simp only [step] at stepped
  split at stepped
  · rename_i running
    split at stepped
    · cases stepped
      exact .queued sources running
    · cases stepped
      exact .full sources
  · rename_i stopped
    cases stepped
    exact .closed sources (Bool.not_eq_true _ ▸ stopped)

theorem isClosed_moves {call : Nat} (stepped : s.step codec (.isClosed call) = some (s', effects)) :
    s.Moves codec (.isClosed call) s' effects := by
  simp only [step] at stepped
  split at stepped
  · rename_i there
    split at stepped
    · cases stepped
      exact .runs call there
    · rename_i stopped
      cases stepped
      exact .notRunning call there (Bool.not_eq_true _ ▸ stopped)
  · cases stepped

/-- A reply is that of the batch of the call; without a batch the command has been dropped. -/
theorem reply_moves {call : Nat} (stepped : s.step codec (.reply call) = some (s', effects)) :
    s.Moves codec (.reply call) s' effects := by
  simp only [step] at stepped
  split at stepped
  · rename_i there
    split at stepped
    · rename_i b found
      cases stepped
      have named := List.find?_some found
      exact .returns call b there (List.mem_of_find?_eq_some found) (of_decide_eq_true named)
    · split at stepped
      · cases stepped
      · rename_i lost
        cases stepped
        exact .lost call there lost
  · cases stepped

theorem recv_moves (stepped : s.step codec .recv = some (s', effects)) :
    s.Moves codec .recv s' effects := by
  simp only [step] at stepped
  split at stepped
  · rename_i free
    have idle := Option.isNone_iff_eq_none.1 free.2
    split at stepped
    · cases stepped
    · rename_i call sources cmds queue
      cases stepped
      exact .takes call sources cmds free.1 idle queue
    · exact stopped_moves idle stepped
  · cases stepped

theorem bind_moves {outcome : BindOutcome}
    (stepped : s.step codec (.bind outcome) = some (s', effects)) :
    s.Moves codec (.bind outcome) s' effects := by
  simp only [step] at stepped
  split at stepped
  · cases stepped
  · rename_i b busy
    split at stepped
    · rename_i more
      cases stepped
      exact .binds outcome b busy more
    · cases stepped

theorem extend_moves (stepped : s.step codec .extend = some (s', effects)) :
    s.Moves codec .extend s' effects := by
  simp only [step] at stepped
  split at stepped
  · cases stepped
  · rename_i b busy
    split at stepped
    · rename_i done
      obtain ⟨⟨engine, raw⟩, moved, same⟩ := Option.map_eq_some_iff.1 stepped
      cases same
      exact .adds b engine raw busy done moved
    · cases stepped

theorem accept_moves {listener : Listener}
    (stepped : s.step codec (.accept listener) = some (s', effects)) :
    s.Moves codec (.accept listener) s' effects := by
  simp only [step] at stepped
  split at stepped
  · rename_i there
    obtain ⟨⟨engine, raw⟩, moved, same⟩ := Option.map_eq_some_iff.1 stepped
    cases same
    exact .accepts listener engine raw there moved
  · cases stepped

theorem engine_moves {inner : EngineAct π}
    (stepped : s.step codec (.engine inner) = some (s', effects)) :
    s.Moves codec (.engine inner) s' effects := by
  simp only [step] at stepped
  split at stepped
  · rename_i allowed
    obtain ⟨⟨engine, raw⟩, moved, same⟩ := Option.map_eq_some_iff.1 stepped
    cases same
    rw [Option.isNone_iff_eq_none] at allowed
    exact .engine inner engine raw allowed moved
  · cases stepped

theorem step_moves (stepped : s.step codec act = some (s', effects)) :
    s.Moves codec act s' effects := by
  cases act with
  | addSources sources => exact addSources_moves stepped
  | isClosed call => exact isClosed_moves stepped
  | reply call => exact reply_moves stepped
  | seeShutdown call =>
      simp only [step] at stepped
      split at stepped <;> cases stepped
      exact .seesShutdown call ‹_ ∧ _›.1
  | sleep call =>
      simp only [step] at stepped
      split at stepped <;> cases stepped
      exact .sleeps call ‹_›
  | shutdown =>
      cases stepped
      exact .shutdown
  | sendShutdown =>
      simp only [step] at stepped
      split at stepped <;> cases stepped
      exact .sendsShutdown ‹_ ∧ _›.1
  | recv => exact recv_moves stepped
  | bind outcome => exact bind_moves stepped
  | extend => exact extend_moves stepped
  | accept listener => exact accept_moves stepped
  | engine inner => exact engine_moves stepped
  | stop =>
      simp only [step] at stepped
      split at stepped
      · exact stopped_moves (Option.isNone_iff_eq_none.1 ‹_ ∧ _›.2) stepped
      · cases stepped

end Handle

end Forward

end Et
