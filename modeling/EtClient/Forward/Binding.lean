import EtClient.Forward.Commands

/-!
# Every source is bound as asked, or reported

`bind_source_listeners` passes over a request whose source is not set or has no port, binds
the low sixteen bits of the port, and a connection for a request without a destination is
dropped. Such requests are neither served as asked nor reported.

Every request of every batch with a source, a port from 1 to 65535 and a destination has its
listener or its entry among the errors, whatever binds fail and whatever requests are passed
over in between. The indices stay aligned: a listener's index is that of its request in the
engine's table, for the table grows by whole batches and a batch is bound at the length that
the table has.
-/

namespace Et

namespace Forward

variable {π : Type}

namespace PortForwardSourceRequest

/-- The host that the source is to be bound on. -/
def host (r : PortForwardSourceRequest) : String :=
  (r.source.bind SocketEndpoint.name).getD "localhost"

def port? (r : PortForwardSourceRequest) : Option Int32 := r.source.bind SocketEndpoint.port

/-- A request that can be served as it is asked for. -/
def Exact (r : PortForwardSourceRequest) : Prop :=
  r.destination.isSome = true ∧ ∃ port ∈ r.port?, 0 < port.toInt ∧ port.toInt ≤ 65535

instance (r : PortForwardSourceRequest) : Decidable r.Exact :=
  @instDecidableAnd _ _ inferInstance (Option.decidableExistsMem r.port?)

/-- The errors have an entry for the request. -/
def Reported (r : PortForwardSourceRequest) (bindErrors : List String) : Prop :=
  ∃ (host : String) (port : Int32) (e : String), r.host = host ∧ r.port? = some port ∧
    s!"{host}:{port}: {e}" ∈ bindErrors

end PortForwardSourceRequest

/-- The listener is bound to the host and the port of a request. -/
def Listener.Serves (l : Listener) (r : PortForwardSourceRequest) : Prop :=
  l.host = r.host ∧ ∃ port, r.port? = some port ∧ (l.port.toNat : Int) = port.toInt

theorem toNat_port {port : Int32} (positive : 0 < port.toInt) (small : port.toInt ≤ 65535) :
    (port.toUInt32.toUInt16.toNat : Int) = port.toInt := by
  have bits : port.toUInt32.toNat = port.toBitVec.toNat := rfl
  rw [UInt32.toNat_toUInt16, bits]
  rw [← Int32.toInt_toBitVec, BitVec.toInt_eq_toNat_cond] at *
  split at * <;> omega

namespace Binding

/-- What the loop has done about a request: it has a listener, or an entry. -/
def Settles (b : Binding) (i : Nat) (r : PortForwardSourceRequest) : Prop :=
  (∃ l ∈ b.bound, l.sourceIdx = b.baseIdx + i ∧ l.Serves r) ∨ r.Reported b.bindErrors

/-- The invariant of the loop, whatever requests it has passed over. -/
def Aligned (b : Binding) : Prop :=
  ∀ i r, i < b.done → b.sources[i]? = some r → r.Exact → b.Settles i r

/-- The round of a request settles it. -/
theorem settles_next {b : Binding} {r : PortForwardSourceRequest}
    (here : b.sources[b.done]? = some r) (exact : r.Exact) (outcome : BindOutcome) :
    (b.next outcome).Settles b.done r := by
  obtain ⟨-, port, asked, positive, small⟩ := exact
  obtain ⟨source, set, numbered⟩ := Option.bind_eq_some_iff.1 asked
  have host : r.host = source.name.getD "localhost" := by
    rw [PortForwardSourceRequest.host, set]
    rfl
  have whole := toNat_port positive small
  have nonzero : port.toUInt32.toUInt16 ≠ 0 := by
    intro zero
    rw [zero] at whole
    exact positive.ne whole
  cases outcome with
  | ok picked =>
      have round : b.next (.ok picked) =
          { b with
            done := b.done + 1
            bound := b.bound ++ [⟨b.baseIdx + b.done, r.host, port.toUInt32.toUInt16⟩] } := by
        simp [next, here, set, numbered, bindPort, Except.map, nonzero, host]
      rw [round]
      refine .inl ⟨_, List.mem_append_right _ List.mem_cons_self, rfl, rfl, port, asked, whole⟩
  | error e =>
      have round : b.next (.error e) =
          { b with
            done := b.done + 1
            bindErrors := b.bindErrors ++
              [let host := source.name.getD "localhost"; s!"{host}:{port}: {e}"] } := by
        simp [next, here, set, numbered, bindPort, Except.map]
      rw [round]
      exact .inr ⟨_, port, e, host, asked, List.mem_append_right _ List.mem_cons_self⟩

/-- What is settled stays settled. -/
theorem Settles.next {b : Binding} {i : Nat} {r : PortForwardSourceRequest}
    (settles : b.Settles i r) (outcome : BindOutcome) : (b.next outcome).Settles i r := by
  obtain ⟨bound, bindErrors, round⟩ := b.next_spec outcome
  rw [round]
  rcases settles with ⟨l, there, serves⟩ | ⟨host, port, e, named, asked, there⟩
  · exact .inl ⟨l, List.mem_append_left _ there, serves⟩
  · exact .inr ⟨host, port, e, named, asked, List.mem_append_left _ there⟩

theorem Aligned.next {b : Binding} (aligned : b.Aligned) (outcome : BindOutcome) :
    (b.next outcome).Aligned := by
  obtain ⟨bound, bindErrors, round⟩ := b.next_spec outcome
  have sources : (b.next outcome).sources = b.sources := by rw [round]
  have done : (b.next outcome).done = b.done + 1 := by rw [round]
  intro i r behind here exact
  rw [sources] at here
  rw [done] at behind
  rcases Nat.lt_succ_iff_lt_or_eq.1 behind with before | rfl
  · exact (aligned i r before here exact).next outcome
  · exact settles_next here exact outcome

end Binding

/-- The loop settles every request of its batch. -/
theorem bindSourceListeners_aligned (sources : List PortForwardSourceRequest) (baseIdx : Nat)
    (outcomes : Nat → BindOutcome) :
    (bindSourceListeners sources baseIdx outcomes).Aligned ∧
      (bindSourceListeners sources baseIdx outcomes).sources = sources ∧
      (bindSourceListeners sources baseIdx outcomes).baseIdx = baseIdx ∧
      (bindSourceListeners sources baseIdx outcomes).done = sources.length := by
  rw [bindSourceListeners]
  generalize sources.length = n
  induction n with
  | zero => exact ⟨fun _ _ behind => absurd behind (Nat.not_lt_zero _), rfl, rfl, rfl⟩
  | succ n ih =>
      rw [List.range_succ, List.foldl_append, List.foldl_cons, List.foldl_nil]
      obtain ⟨aligned, same, base, done⟩ := ih
      refine ⟨aligned.next _, ?_⟩
      obtain ⟨_, _, round⟩ := Binding.next_spec _ (outcomes n)
      rw [round]
      exact ⟨same, base, congrArg (· + 1) done⟩

namespace Engine

variable {codec : Codec π} {e e' : Engine} {act : EngineAct π} {effects : List EngineEffect}

/-- Only a batch changes the sources. -/
theorem Moves.sources (moves : e.Moves codec act e' effects)
    (other : ∀ sources, act ≠ .addSources sources) : e'.state.sources = e.state.sources := by
  cases moves with
  | accept _ | read _ _ _ _ | abort _ _ | skip _ _ _ | shutdown | stop => rfl
  | addSources sources => exact absurd rfl (other sources)
  | take sends sourceIdx stream events state raw ready queue handled =>
      rcases EngineState.handleAccepted_cases handled with ⟨rfl, -⟩ | ⟨_, -, rfl, -⟩ <;> rfl
  | relay sends connId stream result events state raw ready queue read => cases read <;> rfl
  | receive p chance m state raw ready decoded peer => cases peer <;> rfl

theorem Moves.addedSources {sources : List PortForwardSourceRequest}
    (moves : e.Moves codec (.addSources sources) e' effects) :
    e'.state.sources = e.state.sources ++ sources := by
  cases moves
  rfl

end Engine

namespace Handle

/-- A batch is behind its loop, its listeners are there, and its requests stand in the table
at their indices. -/
structure Bound (s : Handle) (b : Binding) : Prop where
  aligned : b.Aligned
  done : b.done = b.sources.length
  listeners : ∀ l ∈ b.bound, l ∈ s.listeners
  table : ∀ {i r}, b.sources[i]? = some r → s.engine.state.sources[b.baseIdx + i]? = some r

/-- The invariant over whole runs. -/
structure Aligned (s : Handle) : Prop where
  binding : ∀ {b}, s.binding = some b → b.Aligned ∧ b.baseIdx = s.engine.state.sources.length
  batches : ∀ b ∈ s.batches, s.Bound b

variable {codec : Codec π} {s s' : Handle} {act : HandleAct π} {effects : List HandleEffect}

theorem Bound.mono {b : Binding} (bound : s.Bound b)
    (listeners : ∀ l ∈ s.listeners, l ∈ s'.listeners)
    (sources : s.engine.state.sources <+: s'.engine.state.sources) : s'.Bound b := by
  refine ⟨bound.aligned, bound.done, fun l there => listeners l (bound.listeners l there), ?_⟩
  intro i r here
  obtain ⟨more, whole⟩ := sources
  have found := bound.table here
  rw [← whole, List.getElem?_append_left (List.getElem?_eq_some_iff.1 found).1]
  exact found

/-- A step that leaves the table and the batches alone. -/
theorem Aligned.of_same (aligned : s.Aligned)
    (binding : s'.binding = s.binding) (listeners : s'.listeners = s.listeners)
    (batches : s'.batches = s.batches)
    (sources : s'.engine.state.sources = s.engine.state.sources) : s'.Aligned := by
  refine ⟨?_, ?_⟩
  · intro b busy
    rw [binding] at busy
    rw [sources]
    exact aligned.binding busy
  · intro b there
    rw [batches] at there
    exact (aligned.batches b there).mono (fun l => listeners ▸ id) (sources ▸ List.prefix_rfl)

theorem Aligned.step (aligned : s.Aligned) (moves : s.Moves codec act s' effects) :
    s'.Aligned := by
  cases moves with
  | queued _ _ | full _ | closed _ _ | runs _ _ | notRunning _ _ _ | returns _ _ _ _ _ | lost _ _ _
  | seesShutdown _ _ | sleeps _ _ | shutdown | sendsShutdown _ =>
      exact aligned.of_same rfl rfl rfl rfl
  | takes call sources cmds running idle queue =>
      refine ⟨?_, fun b there => (aligned.batches b there).mono (fun _ => id) List.prefix_rfl⟩
      rintro b ⟨⟩
      exact ⟨fun _ _ behind => absurd behind (Nat.not_lt_zero _), rfl⟩
  | stops _ engine raw idle stepped =>
      have same := (Engine.step_moves stepped).sources (by simp)
      exact aligned.of_same rfl rfl rfl same
  | binds outcome b busy more =>
      obtain ⟨inside, base⟩ := aligned.binding busy
      refine ⟨?_, fun b there => (aligned.batches b there).mono (fun _ => id) List.prefix_rfl⟩
      rintro b' ⟨⟩
      refine ⟨inside.next outcome, ?_⟩
      obtain ⟨_, _, round⟩ := b.next_spec outcome
      rw [round]
      exact base
  | adds b engine raw busy done stepped =>
      obtain ⟨inside, base⟩ := aligned.binding busy
      have more : engine.state.sources = s.engine.state.sources ++ b.sources :=
        (Engine.step_moves stepped).addedSources
      refine ⟨?_, ?_⟩
      · rintro _ ⟨⟩
      intro b' there
      rcases List.mem_append.1 there with old | new
      · refine (aligned.batches b' old).mono (fun l => List.mem_append_left _) ?_
        exact ⟨b.sources, more.symm⟩
      · rw [List.mem_singleton.1 new]
        refine ⟨inside, done, fun l => List.mem_append_right _, ?_⟩
        intro i r here
        rw [base]
        show engine.state.sources[_]? = some r
        rw [more, List.getElem?_append_right (Nat.le_add_right _ _), Nat.add_sub_cancel_left]
        exact here
  | accepts listener engine raw there stepped =>
      have same := (Engine.step_moves stepped).sources (by simp)
      exact aligned.of_same rfl rfl rfl same
  | engine act engine raw allowed stepped =>
      refine aligned.of_same rfl rfl rfl ((Engine.step_moves stepped).sources ?_)
      rintro sources rfl
      rcases allowed with reader | ⟨own, -⟩
      · cases reader
      · cases own

theorem aligned_spawn (sources : List PortForwardSourceRequest) (answer : Bool)
    (outcomes : Nat → BindOutcome) : (spawn sources answer outcomes).Aligned := by
  obtain ⟨aligned, same, base, done⟩ := bindSourceListeners_aligned sources 0 outcomes
  refine ⟨?_, ?_⟩
  · rintro _ ⟨⟩
  intro b there
  rw [List.mem_singleton.1 there]
  refine ⟨aligned, done.trans (congrArg List.length same.symm), fun _ => id, ?_⟩
  intro i r here
  rw [same] at here
  rw [base, Nat.zero_add]
  exact here

/-- Batches stay, those that were bound by `spawn` among them. -/
theorem Moves.batches (moves : s.Moves codec act s' effects) {b : Binding}
    (there : b ∈ s.batches) : b ∈ s'.batches := by
  cases moves with
  | adds _ _ _ _ _ _ => exact List.mem_append_left _ there
  | queued _ _ | full _ | closed _ _ | runs _ _ | notRunning _ _ _ | returns _ _ _ _ _ | lost _ _ _
  | seesShutdown _ _ | sleeps _ _ | shutdown | sendsShutdown _ | takes _ _ _ _ _ _
  | stops _ _ _ _ _ | binds _ _ _ _ | accepts _ _ _ _ _ | engine _ _ _ _ _ => exact there

/-- What a step tells a caller is what a batch says. -/
def Tells (s : Handle) : HandleEffect → Prop
  | .returned call bindErrors => ∃ b ∈ s.batches, b.call = some call ∧ b.bindErrors = bindErrors
  | .added call sources => ∃ b ∈ s.batches, b.call = call ∧ b.sources = sources
  | _ => True

theorem Tells.mono {effect : HandleEffect} (tells : s.Tells effect)
    (more : ∀ {b}, b ∈ s.batches → b ∈ s'.batches) : s'.Tells effect := by
  cases effect with
  | returned call bindErrors =>
      obtain ⟨b, there, same⟩ := tells
      exact ⟨b, more there, same⟩
  | added call sources =>
      obtain ⟨b, there, same⟩ := tells
      exact ⟨b, more there, same⟩
  | engine _ | bound _ _ | failed _ _ => trivial

theorem Moves.tells (moves : s.Moves codec act s' effects) :
    ∀ effect ∈ effects, s'.Tells effect := by
  intro effect there
  cases moves with
  | queued _ _ | closed _ _ | runs _ _ | shutdown | sendsShutdown _ | takes _ _ _ _ _ _ =>
      cases there
  | full _ | notRunning _ _ _ | lost _ _ _ | seesShutdown _ _ | sleeps _ _ =>
      rw [List.mem_singleton.1 there]
      trivial
  | stops _ _ _ _ _ | binds _ _ _ _ | accepts _ _ _ _ _ | engine _ _ _ _ _ =>
      obtain ⟨_, -, rfl⟩ := List.mem_map.1 there
      trivial
  | returns call b waits bound named =>
      rw [List.mem_singleton.1 there]
      exact ⟨b, bound, named, rfl⟩
  | adds b engine raw busy done stepped =>
      rw [List.mem_singleton.1 there]
      exact ⟨b, List.mem_append_right _ List.mem_cons_self, rfl, rfl⟩

/-- A connection of the listener is answered with a request for the destination, when the
engine comes to its event. -/
def Requests (codec : Codec π) (s : Handle) (l : Listener) (r : PortForwardSourceRequest) :
    Prop :=
  ∀ {stream events sends}, s.engine.events = .accepted l.sourceIdx stream :: events →
    s.engine.running = true → s.binding = none → sends.all id = true →
    ∃ s', s.step codec (.engine (.event sends)) = some (s',
        [.engine (.sent none
          (.request ⟨r.destination, some s.engine.state.nextConnId.toInt32⟩))]) ∧
      s'.engine.state.pending.lookup s.engine.state.nextConnId = some stream

theorem requests_of_table {l : Listener} {r : PortForwardSourceRequest}
    (found : s.engine.state.sources[l.sourceIdx]? = some r) (exact : r.Exact) :
    s.Requests codec l r := by
  intro stream events sends queue running idle all
  obtain ⟨destination, set⟩ := Option.isSome_iff_exists.1 exact.1
  have ready : s.engine.ready sends = true := by simp [Engine.ready, running, all]
  have handled : s.engine.state.handleAccepted l.sourceIdx stream =
      ({ s.engine.state with
          nextConnId := s.engine.state.nextConnId + 1
          pending := s.engine.state.pending.insert s.engine.state.nextConnId stream },
        [.sent none (.request ⟨r.destination, some s.engine.state.nextConnId.toInt32⟩)]) := by
    rw [EngineState.handleAccepted, found, Option.bind_some, set]
  have allowed : EngineAct.ofReader (.event sends : EngineAct π) = true ∨
      EngineAct.ofRun (.event sends : EngineAct π) = true ∧ s.binding.isNone = true :=
    .inr ⟨rfl, idle ▸ rfl⟩
  rw [step, if_pos allowed, Engine.step, if_pos ready, queue]
  simp only [handled, sendOrShutdown_of_all all]
  exact ⟨_, rfl, AList.lookup_insert _⟩

end Handle

/-- In every run, every request of every batch, of `spawn` and of the later ones, that has a source,
a port from 1 to 65535 and a destination has a listener on its host and its port whose connections
lead to requests for its destination, or the errors of its batch have an entry for it, whatever the
other requests are. The errors of a batch are what its caller is told, and every batch that was
added is among them. -/
theorem sources_bound_or_reported {codec : Codec π} {sources : List PortForwardSourceRequest}
    {answer : Bool} {outcomes : Nat → BindOutcome} {log : List HandleEffect} {t : Handle}
    (run : (Handle.system codec sources answer outcomes).Reachable log t) :
    (∀ b ∈ t.batches, ∀ {i r}, b.sources[i]? = some r → r.Exact →
      (∃ l ∈ t.listeners, l.sourceIdx = b.baseIdx + i ∧ l.Serves r ∧ t.Requests codec l r) ∨
        r.Reported b.bindErrors) ∧
    (∃ b ∈ t.batches, b.sources = sources ∧
      b.bindErrors = (bindSourceListeners sources 0 outcomes).bindErrors) ∧
    (∀ {call bindErrors}, .returned call bindErrors ∈ log →
      ∃ b ∈ t.batches, b.call = some call ∧ b.bindErrors = bindErrors) ∧
    ∀ {call batch}, .added call batch ∈ log →
      ∃ b ∈ t.batches, b.call = call ∧ b.sources = batch := by
  obtain ⟨aligned, spawned, told⟩ : t.Aligned ∧
      bindSourceListeners sources 0 outcomes ∈ t.batches ∧ ∀ effect ∈ log, t.Tells effect := by
    refine run.invariant (P := fun log t => t.Aligned ∧
      bindSourceListeners sources 0 outcomes ∈ t.batches ∧ ∀ effect ∈ log, t.Tells effect) ?_ ?_
    · exact ⟨Handle.aligned_spawn sources answer outcomes, List.mem_cons_self,
        List.forall_mem_nil _⟩
    · rintro log t act t' effects ⟨aligned, spawned, told⟩ _ stepped
      have moves := Handle.step_moves stepped
      refine ⟨aligned.step moves, moves.batches spawned, ?_⟩
      intro effect there
      rcases List.mem_append.1 there with old | new
      · exact (told effect old).mono moves.batches
      · exact moves.tells effect new
  refine ⟨?_, ⟨_, spawned, ?_, rfl⟩, fun there => told _ there, fun there => told _ there⟩
  · intro b there i r here exact
    have bound := aligned.batches b there
    have behind : i < b.done := bound.done ▸ (List.getElem?_eq_some_iff.1 here).1
    rcases bound.aligned i r behind here exact with ⟨l, listed, index, serves⟩ | reported
    · refine .inl ⟨l, bound.listeners l listed, index, serves, ?_⟩
      refine Handle.requests_of_table ?_ exact
      rw [index]
      exact bound.table here
    · exact .inr reported
  · exact (bindSourceListeners_aligned sources 0 outcomes).2.1

/-- One source of `spawn`, and a batch of three: the first is passed over, the second is bound at
its own index, and the third cannot be bound. -/
theorem sources_bound_or_reported_mixed :
    ∃ log t, (Handle.system .plain [⟨some ⟨none, some 8080⟩, some ⟨none, some 80⟩⟩] true
        fun _ => .ok 0).Reachable log t ∧
      t.listeners = [⟨0, "localhost", 8080⟩, ⟨2, "::1", 65535⟩] ∧
      .returned 0 ["localhost:8080: in use"] ∈ log ∧
      ∃ b ∈ t.batches, b.call = some 0 ∧ b.bindErrors = ["localhost:8080: in use"] := by
  obtain ⟨log, t, run, listeners, returned⟩ :
      ∃ log t, (Handle.system .plain [⟨some ⟨none, some 8080⟩, some ⟨none, some 80⟩⟩] true
          fun _ => .ok 0).Reachable log t ∧
        t.listeners = [⟨0, "localhost", 8080⟩, ⟨2, "::1", 65535⟩] ∧
        .returned 0 ["localhost:8080: in use"] ∈ log := by
    refine ⟨_, _, .execute .start
      [.addSources [⟨none, some ⟨none, some 22⟩⟩,
          ⟨some ⟨some "::1", some 65535⟩, some ⟨none, some 22⟩⟩,
          ⟨some ⟨none, some 8080⟩, some ⟨none, some 22⟩⟩], .isClosed 0, .recv, .bind (.ok 0),
        .bind (.ok 0), .bind (.error "in use"), .extend, .reply 0] rfl, ?_⟩
    decide
  refine ⟨log, t, run, listeners, returned, ?_⟩
  exact (sources_bound_or_reported run).2.2.1 returned

/-- A handle with one source, on a system that picks port 5 and refuses no bind. -/
def spawnedWith (source : Option SocketEndpoint) : Handle :=
  .spawn [⟨source, some ⟨none, some 22⟩⟩] true fun _ => .ok 5

/-- Requests that are neither served as asked nor reported: the port 65616 is bound as 80, the
port -1 as 65535, the port 0 as the one that the system picks; a request without a port or
without a source is passed over; and a connection for one without a destination is dropped
without a request. -/
theorem inexact_sources_unserved :
    ((spawnedWith (some ⟨none, some 65616⟩)).listeners = [⟨0, "localhost", 80⟩] ∧
      (spawnedWith (some ⟨none, some (-1)⟩)).listeners = [⟨0, "localhost", 65535⟩] ∧
      (spawnedWith (some ⟨none, some 0⟩)).listeners = [⟨0, "localhost", 5⟩] ∧
      (spawnedWith (some ⟨none, none⟩)).listeners = [] ∧ (spawnedWith none).listeners = []) ∧
    (∀ source ∈ [some ⟨none, some 65616⟩, some ⟨none, some (-1)⟩, some ⟨none, some 0⟩,
        some ⟨none, none⟩, none],
      (spawnedWith source).batches.map Binding.bindErrors = [[]]) ∧
    ∃ t, (Handle.system .plain [⟨some ⟨none, some 8080⟩, none⟩] true fun _ => .ok 0).Reachable
        [] t ∧
      t.listeners = [⟨0, "localhost", 8080⟩] ∧ t.engine.streams = 1 ∧ t.engine.events = [] := by
  refine ⟨by decide, by decide, _, .execute .start
    [.accept ⟨0, "localhost", 8080⟩, .engine (.event [])] rfl, ?_⟩
  decide

end Forward

end Et
