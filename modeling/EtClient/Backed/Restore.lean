import EtClient.Backed.Inbound

/-!
# A recover that fails

An exchange reads the actor and writes nothing but its own phase. So whatever makes it
fail, and wherever, the actor that is left behind is the one that was there before, with
the socket that had been set aside. Only the reader task of that socket has gone on in the
meantime, and the frames it has queued stand behind the ones it had queued before.

`exchange` is what `recover_timed_actor` computes from its stream. The steps of the task
come to the same result, one read or write after the other.
-/

namespace Et

namespace Backed

namespace HandshakeCodec

variable (codec : HandshakeCodec)

/-- The last read of an exchange: the entries of the peer. -/
def receiveCatchup (io : Stream) : Except String (List Bytes) := do
  let (theirs, _) ← codec.readCatchup io
  return theirs.buffer

def sendCatchup (ours : CatchupBuffer) (io : Stream) : Except String (List Bytes) := do
  let io ← io.writeFrameIdle (codec.encodeCatchup ours)
  codec.receiveCatchup io

def receiveSequence (s : Actor) (io : Stream) : Except String (List Bytes) := do
  let (remote, io) ← codec.readSequence io
  let ours ← s.catchup remote
  codec.sendCatchup ours io

/-- The exchange of `recover_timed_actor`. -/
def exchange (s : Actor) (io : Stream) : Except String (List Bytes) := do
  let io ← io.writeFrameIdle (codec.encodeSequence s.sequenceHeader)
  codec.receiveSequence s io

/-- What is left of an exchange. -/
def rest (s : Actor) : Phase → Stream → Except String (List Bytes)
  | .writeSequence => codec.exchange s
  | .readSequence => codec.receiveSequence s
  | .writeCatchup ours => codec.sendCatchup ours
  | .readCatchup => codec.receiveCatchup

end HandshakeCodec

/-- `recover_timed_actor`, with the value it returns. -/
def Actor.recoverTimedActor (codec : HandshakeCodec) (now : Instant) (s : Actor)
    (stream : SocketId) (io : Stream) : Actor × Bool :=
  let old := s.live
  let s := { s with live := none }
  match codec.exchange s io with
  | .ok entries => (s.revive now stream entries, true)
  | .error _ => ({ s with live := old }, false)

/-- Whatever fails, the actor is as it was. -/
theorem Actor.recoverTimedActor_of_error {codec : HandshakeCodec} {s : Actor} {io : Stream}
    {message : String} (failing : codec.exchange s io = .error message) (now : Instant)
    (stream : SocketId) : s.recoverTimedActor codec now stream io = (s, false) := by
  have failing' : codec.exchange { s with live := none } io = .error message := failing
  simp only [recoverTimedActor, failing']

/-- The reads and writes before the end of an exchange. -/
def Phase.rank : Phase → Nat
  | .writeSequence => 4
  | .readSequence => 3
  | .writeCatchup _ => 2
  | .readCatchup => 1

/-- One read or write of an exchange with this much left to do. -/
inductive Exchanges (codec : HandshakeCodec) (w : Inbound) (e : Exchange) (now : Instant) :
    Inbound → List InboundEffect → Prop
  | goesOn (phase : Phase) (io : Stream) (effects : List Effect) : phase.rank < e.phase.rank →
      codec.rest w.task.actor phase io = codec.rest w.task.actor e.phase w.io →
      (∀ live, .recovered live ∉ effects) →
      Exchanges codec w e now
        { w with
          task := { w.task with exchange := some { e with phase := phase } }
          io := io
          clock := now } (effects.map (.did now))
  | succeeds (entries : List Bytes) (io : Stream) :
      codec.rest w.task.actor e.phase w.io = .ok entries →
      Exchanges codec w e now
        { w with
          task := w.task.served (w.task.actor.revive now e.stream entries)
          io := io
          clock := now } [.did now (.recovered true)]
  | fails (message : String) (io : Stream) :
      codec.rest w.task.actor e.phase w.io = .error message →
      Exchanges codec w e now { w with task := w.task.restored e, io := io, clock := now }
        [.did now (.recovered false)]

namespace Inbound

variable {w : Inbound} {e : Exchange} {now : Instant}

private theorem step_exchange_eq {box : SecretBox} {codec : HandshakeCodec} {act : Act}
    {io : Stream} {task : Task} {effects : List Effect} (under : w.task.exchange = some e)
    (later : w.clock ≤ now) (decided : w.exchangeAct codec e now = (act, io))
    (taken : w.task.step box act = some (task, effects)) :
    w.step box codec (.exchange now) =
      some ({ w with task := task, io := io, clock := now }, effects.map (.did now)) := by
  have now_eq : InboundAct.now (.exchange now) = now := rfl
  rw [step, now_eq, if_pos later]
  simp only [Inbound.act, under, Option.bind_some, decided, taken, Option.map_some]

section Phases

variable {box : SecretBox} {codec : HandshakeCodec} (under : w.task.exchange = some e)
  (later : w.clock ≤ now)
include under later

/-- An exchange that fails ends. -/
private theorem step_exchangeFails {message : String}
    (decided : w.exchangeAct codec e now = (.exchangeFails, w.io))
    (left : codec.rest w.task.actor e.phase w.io = .error message) :
    ∃ w' notes, w.step box codec (.exchange now) = some (w', notes) ∧
      Exchanges codec w e now w' notes := by
  have failing : w.task.step box .exchangeFails = some (w.task.restored e, [.recovered false]) := by
    simp only [Task.step, under, Option.bind_some, Task.exchangeStep]
  exact ⟨_, _, step_exchange_eq under later decided failing, .fails message w.io left⟩

private theorem step_writeSequence (phase : e.phase = .writeSequence) :
    ∃ w' notes, w.step box codec (.exchange now) = some (w', notes) ∧
      Exchanges codec w e now w' notes := by
  cases wrote : w.io.writeFrameIdle (codec.encodeSequence w.task.actor.sequenceHeader) with
  | error message =>
      apply step_exchangeFails under later
      · simp only [exchangeAct, phase, wrote]
      · simp only [phase, HandshakeCodec.rest, HandshakeCodec.exchange, wrote]
        rfl
  | ok io =>
      have decided : w.exchangeAct codec e now = (.sequenceSent, io) := by
        simp only [exchangeAct, phase, wrote]
      have sent : w.task.step box .sequenceSent =
          some ({ w.task with exchange := some { e with phase := .readSequence } },
            [.sentSequence e.stream w.task.actor.sequenceHeader]) := by
        simp only [Task.step, under, Option.bind_some, Task.exchangeStep, phase]
      refine ⟨_, _, step_exchange_eq under later decided sent, .goesOn _ io _ ?_ ?_ (by simp)⟩
      · rw [phase]
        decide
      · simp only [phase, HandshakeCodec.rest, HandshakeCodec.exchange, wrote]
        rfl

private theorem step_readSequence (phase : e.phase = .readSequence) :
    ∃ w' notes, w.step box codec (.exchange now) = some (w', notes) ∧
      Exchanges codec w e now w' notes := by
  cases read : codec.readSequence w.io with
  | error message =>
      apply step_exchangeFails under later
      · simp only [exchangeAct, phase, read]
      · simp only [phase, HandshakeCodec.rest, HandshakeCodec.receiveSequence, read]
        rfl
  | ok result =>
      obtain ⟨remote, io⟩ := result
      have decided : w.exchangeAct codec e now = (.sequenceRead remote, io) := by
        simp only [exchangeAct, phase, read]
      have left : codec.rest w.task.actor e.phase w.io =
          (w.task.actor.catchup remote).bind fun ours => codec.sendCatchup ours io := by
        simp only [phase, HandshakeCodec.rest, HandshakeCodec.receiveSequence, read]
        rfl
      cases chosen : w.task.actor.catchup remote with
      | error message =>
          have denied : w.task.step box (.sequenceRead remote) =
              some (w.task.restored e, [.recovered false]) := by
            simp only [Task.step, under, Option.bind_some, Task.exchangeStep, phase, chosen]
          refine ⟨_, _, step_exchange_eq under later decided denied, .fails message io ?_⟩
          rw [left, chosen]
          rfl
      | ok ours =>
          have answered : w.task.step box (.sequenceRead remote) =
              some ({ w.task with exchange := some { e with phase := .writeCatchup ours } },
                []) := by
            simp only [Task.step, under, Option.bind_some, Task.exchangeStep, phase, chosen]
          refine ⟨_, _, step_exchange_eq under later decided answered,
            .goesOn _ io _ ?_ ?_ (by simp)⟩
          · rw [phase]
            exact (by decide : 2 < 3)
          · rw [left, chosen]
            rfl

private theorem step_writeCatchup {ours : CatchupBuffer} (phase : e.phase = .writeCatchup ours) :
    ∃ w' notes, w.step box codec (.exchange now) = some (w', notes) ∧
      Exchanges codec w e now w' notes := by
  cases wrote : w.io.writeFrameIdle (codec.encodeCatchup ours) with
  | error message =>
      apply step_exchangeFails under later
      · simp only [exchangeAct, phase, wrote]
      · simp only [phase, HandshakeCodec.rest, HandshakeCodec.sendCatchup, wrote]
        rfl
  | ok io =>
      have decided : w.exchangeAct codec e now = (.catchupSent, io) := by
        simp only [exchangeAct, phase, wrote]
      have sent : w.task.step box .catchupSent =
          some ({ w.task with exchange := some { e with phase := .readCatchup } },
            [.sentCatchup e.stream ours]) := by
        simp only [Task.step, under, Option.bind_some, Task.exchangeStep, phase]
      refine ⟨_, _, step_exchange_eq under later decided sent, .goesOn _ io _ ?_ ?_ (by simp)⟩
      · rw [phase]
        exact (by decide : 1 < 2)
      · simp only [phase, HandshakeCodec.rest, HandshakeCodec.sendCatchup, wrote]
        rfl

private theorem step_readCatchup (phase : e.phase = .readCatchup) :
    ∃ w' notes, w.step box codec (.exchange now) = some (w', notes) ∧
      Exchanges codec w e now w' notes := by
  cases read : codec.readCatchup w.io with
  | error message =>
      apply step_exchangeFails under later
      · simp only [exchangeAct, phase, read]
      · simp only [phase, HandshakeCodec.rest, HandshakeCodec.receiveCatchup, read]
        rfl
  | ok result =>
      obtain ⟨theirs, io⟩ := result
      have decided : w.exchangeAct codec e now = (.catchupRead now theirs, io) := by
        simp only [exchangeAct, phase, read]
      have revived : w.task.step box (.catchupRead now theirs) =
          some (w.task.served (w.task.actor.revive now e.stream theirs.buffer),
            [.recovered true]) := by
        simp only [Task.step, under, Option.bind_some, Task.exchangeStep, phase,
          if_pos (codec.encodedLen_readCatchup read)]
      refine ⟨_, _, step_exchange_eq under later decided revived, .succeeds _ io ?_⟩
      simp only [phase, HandshakeCodec.rest, HandshakeCodec.receiveCatchup, read]
      rfl

end Phases

/-- An exchange is never stuck, and what it does next agrees with `rest`. -/
theorem step_exchange (box : SecretBox) (codec : HandshakeCodec)
    (under : w.task.exchange = some e) (later : w.clock ≤ now) :
    ∃ w' notes, w.step box codec (.exchange now) = some (w', notes) ∧
      Exchanges codec w e now w' notes := by
  cases phase : e.phase with
  | writeSequence => exact step_writeSequence under later phase
  | readSequence => exact step_readSequence under later phase
  | writeCatchup ours => exact step_writeCatchup under later phase
  | readCatchup => exact step_readCatchup under later phase

end Inbound

/-- What the reader task of a socket has queued, in order. -/
def arrivals (socket : SocketId) (notes : List InboundEffect) : List (Option Bytes) :=
  notes.filterMap fun
    | .arrived _ s item => if s = socket then some item else none
    | .did _ _ => none

theorem arrivals_append (socket : SocketId) (notes more : List InboundEffect) :
    arrivals socket (notes ++ more) = arrivals socket notes ++ arrivals socket more :=
  List.filterMap_append

@[simp] theorem arrivals_did (socket : SocketId) (now : Instant) (effects : List Effect) :
    arrivals socket (effects.map (.did now)) = [] := by
  simp [arrivals]

/-- The exchange that `w` has started on `stream` is under way in `w'`. -/
structure Attempted (codec : HandshakeCodec) (w : Inbound) (stream : SocketId) (io : Stream)
    (notes : List InboundEffect) (phase : Phase) (w' : Inbound) : Prop where
  task : w'.task =
    { w.task with
      actor := { w.task.actor with live := none }
      exchange := some ⟨stream, w.task.actor.live, phase⟩
      consumer := w'.task.consumer }
  left : codec.rest w.task.actor phase w'.io = codec.exchange w.task.actor io
  queued : ∀ socket, w'.ioRx socket = w.ioRx socket ++ arrivals socket notes

/-- `w'` is `w` again, but for the frames that have arrived. -/
structure Untouched (w : Inbound) (notes : List InboundEffect) (w' : Inbound) : Prop where
  actor : w'.task.actor = w.task.actor
  pc : w'.task.pc = (w.task.served w.task.actor).pc
  idle : w'.task.exchange = none
  queued : ∀ socket, w'.ioRx socket = w.ioRx socket ++ arrivals socket notes

/-- While an exchange runs, the task can only go on with it or lose its consumer. -/
theorem Inbound.step_exchanging {box : SecretBox} {w : Inbound} {now : Instant} {act : Act}
    {task : Task} {effects : List Effect} {e : Exchange} (under : w.task.exchange = some e)
    (serving : w.task.pc.serving = true) (offered : w.offers now act = true)
    (stepped : w.task.step box act = some (task, effects)) :
    act = .dropConsumer ∧ task = { w.task with consumer := false } ∧ effects = [] := by
  have busy : w.task.serves = false := by simp [Task.serves, under]
  cases Task.step_moves stepped with
  | dropConsumer => exact ⟨rfl, rfl, rfl⟩
  | write _ _ _ _ _ _ ready _ | killSocket ready | recover _ ready | shutdown ready =>
      cases ready.symm.trans busy
  | frame _ _ idle _ | socketLost _ idle _ | tick _ _ _ _ _ idle _ | send _ idle _ _
  | noticeFails idle _ _ | sendFails _ idle _ _ => cases under.symm.trans idle
  | close place _ | notice place _ _ | proceed place _ _ | drained _ place _
  | rejected _ _ _ place _ | opened _ _ _ _ place _ | sendDead _ place | finish _ place =>
      rw [place] at serving
      cases serving
  | sequenceSent | answered | denied | catchupSent | revived | oversized | exchangeFails =>
      cases offered

namespace Attempted

variable {box : SecretBox} {codec : HandshakeCodec} {w w' w'' : Inbound} {stream : SocketId}
  {io : Stream} {notes more : List InboundEffect} {phase : Phase} {a : InboundAct}

theorem start {now : Instant}
    (asked : w.step box codec (.recover now stream io) = some (w', notes)) :
    w.task.pc.serving = true ∧ Attempted codec w stream io [] .writeSequence w' := by
  obtain ⟨-, -, moves⟩ := Inbound.step_moves asked
  cases moves with
  | recover now stream io task effects fresh stepped =>
      cases Task.step_moves stepped with
      | recover stream ready =>
          refine ⟨(Task.serving_of_serves ready).2, rfl, rfl, fun socket => ?_⟩
          simp [arrivals]

/-- The exchange reads nothing of the live socket. -/
theorem rest_live (codec : HandshakeCodec) (s : Actor) (live : Option SocketId) (phase : Phase) :
    codec.rest { s with live := live } phase = codec.rest s phase := by
  cases phase <;> rfl

theorem under (attempted : Attempted codec w stream io notes phase w') :
    w'.task.exchange = some ⟨stream, w.task.actor.live, phase⟩ := by
  rw [attempted.task]

theorem rest_eq (attempted : Attempted codec w stream io notes phase w') :
    codec.rest w'.task.actor phase w'.io = codec.exchange w.task.actor io := by
  rw [attempted.task, rest_live]
  exact attempted.left

/-- A step goes on with the exchange, or ends it as `recover_timed_actor` does. -/
theorem step (attempted : Attempted codec w stream io notes phase w')
    (serving : w.task.pc.serving = true) (stepped : w'.step box codec a = some (w'', more)) :
    (∃ phase', Attempted codec w stream io (notes ++ more) phase' w'' ∧
        ∀ now live, .did now (.recovered live) ∉ more) ∨
      ∃ now actor live, w.task.actor.recoverTimedActor codec now stream io = (actor, live) ∧
        more = [.did now (.recovered live)] ∧
        w''.task = { w.task.served actor with consumer := w''.task.consumer } ∧
        ∀ socket, w''.ioRx socket = w.ioRx socket ++ arrivals socket (notes ++ more) := by
  have under := attempted.under
  have left := attempted.rest_eq
  have kept (effects : List Effect) (now : Instant) (socket : SocketId) : w'.ioRx socket =
      w.ioRx socket ++ arrivals socket (notes ++ effects.map (.did now)) := by
    rw [arrivals_append, arrivals_did, List.append_nil]
    exact attempted.queued socket
  obtain ⟨later, -, moves⟩ := Inbound.step_moves stepped
  cases a with
  | exchange now =>
      obtain ⟨_, _, same, exchanges⟩ := Inbound.step_exchange box codec under later
      cases stepped.symm.trans same
      cases exchanges with
      | goesOn phase' io' effects smaller agrees quiet =>
          refine .inl ⟨phase', ⟨?_, ?_, kept effects now⟩, ?_⟩
          · rw [attempted.task]
          · rw [← rest_live codec w.task.actor none phase', ← left, ← agrees, attempted.task]
          · intro moment live told
            obtain ⟨effect, member, same⟩ := List.mem_map.1 told
            cases same
            exact quiet live member
      | succeeds entries io' done =>
          have result : w.task.actor.recoverTimedActor codec now stream io =
              (w'.task.actor.revive now stream entries, true) := by
            have fine : codec.exchange { w.task.actor with live := none } io = .ok entries :=
              left.symm.trans done
            simp only [Actor.recoverTimedActor, fine]
            rw [attempted.task]
          refine .inr ⟨now, _, true, result, rfl, ?_, kept [.recovered true] now⟩
          rw [attempted.task]
          rfl
      | fails message io' failed =>
          have result := Actor.recoverTimedActor_of_error (left.symm.trans failed) now stream
          refine .inr ⟨now, _, false, result, rfl, ?_, kept [.recovered false] now⟩
          rw [attempted.task]
          rfl
  | recover now stream' io' =>
      cases moves with
      | recover _ _ _ task effects fresh taken =>
          cases Task.step_moves taken with
          | recover _ ready => simp [Task.serves, under] at ready
  | actor now act =>
      cases moves with
      | actor _ _ task effects offered taken =>
          have serving' : w'.task.pc.serving = true := by
            rw [attempted.task]
            exact serving
          obtain ⟨rfl, rfl, rfl⟩ := Inbound.step_exchanging under serving' offered taken
          refine .inl ⟨phase, ⟨?_, attempted.left, kept [] now⟩, by simp⟩
          rw [attempted.task]
  | arrive now socket item =>
      cases moves with
      | arrive _ _ _ current =>
          refine .inl ⟨phase, ⟨attempted.task, attempted.left, fun other => ?_⟩, by simp⟩
          rw [arrivals_append, ← List.append_assoc, ← attempted.queued other]
          by_cases here : other = socket
          · subst here
            simp [arrivals]
          · simp [arrivals, here, Ne.symm here]

/-- What holds while an exchange runs, in every run from where it has started. -/
theorem run {cfg : BackedConfig} {start : Instant}
    (attempted : Attempted codec w stream io [] .writeSequence w')
    (serving : w.task.pc.serving = true)
    (during : ((Inbound.system box codec cfg start).restart w').Reachable notes w'')
    (going : ∀ now live, .did now (.recovered live) ∉ notes) :
    ∃ phase, Attempted codec w stream io notes phase w'' := by
  induction during with
  | start => exact ⟨_, attempted⟩
  | next action _ _ stepped ih =>
      obtain ⟨phase, before⟩ := ih fun now live told =>
        going now live (List.mem_append_left _ told)
      rcases before.step serving stepped with ⟨phase', after, -⟩ | ⟨now, _, live, -, told, -⟩
      · exact ⟨phase', after⟩
      · exact absurd (List.mem_append_right _ (told ▸ List.mem_cons_self)) (going now live)

end Attempted

section Runs

variable {box : SecretBox} {codec : HandshakeCodec} {cfg : BackedConfig} {start : Instant}

/-- At most four reads and writes end an exchange that fails. -/
theorem Inbound.exchange_ends {w : Inbound} {e : Exchange} {message : String}
    (under : w.task.exchange = some e)
    (failing : codec.rest w.task.actor e.phase w.io = .error message) :
    ∃ more w' now, ((system box codec cfg start).restart w).Reachable more w' ∧
      .did now (.recovered false) ∈ more := by
  generalize rank : e.phase.rank = n
  induction n using Nat.strong_induction_on generalizing w e with
  | h n ih =>
      obtain ⟨w', notes, stepped, exchanges⟩ := step_exchange box codec under (le_refl w.clock)
      have next : ((system box codec cfg start).restart w).Reachable ([] ++ notes) w' :=
        Transition.System.Reaches.start.next _ trivial stepped
      cases exchanges with
      | goesOn phase io effects smaller agrees quiet =>
          let after : Inbound := { w with
            task := { w.task with exchange := some { e with phase := phase } }, io := io }
          obtain ⟨more, w'', now, onward, told⟩ :=
            @ih phase.rank (rank ▸ smaller) after _ rfl (agrees.trans failing) rfl
          exact ⟨_, w'', now, next.trans onward, List.mem_append_right _ told⟩
      | succeeds entries io done => cases done.symm.trans failing
      | fails message' io failed => exact ⟨_, _, _, next, List.mem_cons_self⟩

/-- A recover whose stream makes the exchange fail, in whatever way, returns `false`. It
leaves the actor as it found it, with the socket it had set aside, and what the reader
task of that socket has queued meanwhile stands behind what was queued before. -/
theorem failed_recover_changes_nothing {w w₁ w₂ : Inbound} {now : Instant} {stream : SocketId}
    {io : Stream} {message : String} {began notes : List InboundEffect}
    (asked : w.step box codec (.recover now stream io) = some (w₁, began))
    (failing : codec.exchange w.task.actor io = .error message)
    (during : ((Inbound.system box codec cfg start).restart w₁).Reachable notes w₂)
    (going : ∀ moment live, .did moment (.recovered live) ∉ notes) :
    (∃ more w₃ moment, ((Inbound.system box codec cfg start).restart w₂).Reachable more w₃ ∧
        .did moment (.recovered false) ∈ more) ∧
      ∀ a w₃ outcome moment live, w₂.step box codec a = some (w₃, outcome) →
        .did moment (.recovered live) ∈ outcome →
        live = false ∧ Untouched w (notes ++ outcome) w₃ := by
  obtain ⟨serving, started⟩ := Attempted.start asked
  obtain ⟨phase, attempted⟩ := started.run serving during going
  refine ⟨Inbound.exchange_ends attempted.under (attempted.rest_eq.trans failing), ?_⟩
  intro a w₃ outcome moment live stepped told
  rcases attempted.step serving stepped with ⟨_, -, quiet⟩ |
    ⟨_, actor, live', result, rfl, back, queued⟩
  · exact absurd told (quiet moment live)
  · rw [Actor.recoverTimedActor_of_error failing] at result
    cases result
    rw [List.mem_singleton] at told
    cases told
    refine ⟨rfl, (congrArg Task.actor back).trans rfl, (congrArg Task.pc back).trans rfl,
      (congrArg Task.exchange back).trans rfl, queued⟩

end Runs

/-- A recover on a live session whose first write stalls. One frame was queued before it
and one arrives meanwhile. -/
theorem failed_recover_changes_nothing_stalled :
    ∃ (log : List InboundEffect) (w w₁ w₂ w₃ : Inbound),
      (Inbound.system .naming .records (.client testKey none) 0).Reachable log w ∧
      w.step .naming .records (.recover 1 1 .stalled) = some (w₁, []) ∧
      w₁.step .naming .records (.arrive 2 0 (some [8])) = some (w₂, [.arrived 2 0 (some [8])]) ∧
      w₂.step .naming .records (.exchange 3) = some (w₃, [.did 3 (.recovered false)]) ∧
      w₃.task.actor = w.task.actor ∧ w₃.task.actor.live = some 0 ∧
      w₃.ioRx 0 = [some [7], some [8]] := by
  obtain ⟨log, w, w₁, w₂, e, run, live, queued, asked, arrived, under, phase, io, clock⟩ :
      ∃ (log : List InboundEffect) (w w₁ w₂ : Inbound) (e : Exchange),
        (Inbound.system .naming .records (.client testKey none) 0).Reachable log w ∧
        w.task.actor.live = some 0 ∧ w.ioRx 0 = [some [7]] ∧
        w.step .naming .records (.recover 1 1 .stalled) = some (w₁, []) ∧
        w₁.step .naming .records (.arrive 2 0 (some [8])) =
          some (w₂, [.arrived 2 0 (some [8])]) ∧
        w₂.task.exchange = some e ∧ e.phase = .writeSequence ∧ w₂.io = .stalled ∧ w₂.clock = 2 :=
    ⟨_, _, _, _, _, .execute .start [.arrive 0 0 (some [7])] rfl, rfl, rfl, rfl, rfl, rfl, rfl,
      rfl, rfl⟩
  have failing : HandshakeCodec.records.exchange w.task.actor .stalled = .error stallText := by
    rw [HandshakeCodec.exchange, Stream.writeFrameIdle_stalled]
    rfl
  have decided : w₂.exchangeAct .records e 3 = (.exchangeFails, w₂.io) := by
    simp only [Inbound.exchangeAct, phase, io, Stream.writeFrameIdle_stalled]
  have taken : w₂.task.step .naming .exchangeFails =
      some (w₂.task.restored e, [.recovered false]) := by
    simp only [Task.step, under, Option.bind_some, Task.exchangeStep]
  have ended : w₂.step .naming .records (.exchange 3) = _ :=
    Inbound.step_exchange_eq under (clock ▸ by decide) decided taken
  have during : ((Inbound.system .naming .records (.client testKey none) 0).restart w₁).Reachable
      ([] ++ [.arrived 2 0 (some [8])]) w₂ :=
    Transition.System.Reaches.start.next _ trivial arrived
  obtain ⟨-, ends⟩ := failed_recover_changes_nothing asked failing during (by simp)
  obtain ⟨-, untouched⟩ := ends _ _ _ 3 false ended List.mem_cons_self
  refine ⟨log, w, w₁, w₂, _, run, asked, arrived, ended, untouched.actor, ?_, ?_⟩
  · rw [untouched.actor]
    exact live
  · rw [untouched.queued, queued]
    rfl

end Backed

end Et
