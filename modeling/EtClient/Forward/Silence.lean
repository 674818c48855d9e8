import EtClient.Forward.Isolation
import EtClient.Lib.Trace

/-!
# A closed tunnel is silent

A tunnel is closed by a frame of the peer or by a closed frame of its own. From then on no
data frame may carry its socket id and direction until a connection is opened under that id
again.

Frames are sent when a queued read is handled. A destination's read finds its connection by
its socket id, so a destination that was closed is silent whatever is still queued. A
source's read finds its socket id in a table that a frame of the peer does not touch. A
source is silent when nothing of it is queued as it is closed, when its read task queues
nothing once its connection is gone, and when no other connection that is still read shares
its socket id.
-/

namespace Et

namespace Forward

variable {π : Type}

/-- The effect closes the tunnel with this socket id, whose own frames go in this
direction. -/
def EngineEffect.Closes (socketId : UInt32) (direction : Bool) : EngineEffect → Prop
  | .received (.data d) =>
      d.socketid.map Int32.toUInt32 = some socketId ∧
        d.sourcetodestination.getD false = !direction ∧
        (d.closed.getD false || d.error.isSome) = true
  | .sent _ m => m = closedPacket socketId direction
  | _ => False

def EngineEffect.Opens (socketId : UInt32) (direction : Bool) (effect : EngineEffect) : Prop :=
  ∃ stream connId, effect = .opened stream connId socketId direction

/-- A data frame with this socket id and direction. -/
def EngineEffect.Sends (socketId : UInt32) (direction : Bool) (effect : EngineEffect) : Prop :=
  ∃ origin m, effect = .sent origin m ∧ m.Carries socketId direction

/-- The tunnel was closed and has not been opened since. -/
def Silenced (socketId : UInt32) (direction : Bool) (log : List EngineEffect) : Prop :=
  Transition.Since (EngineEffect.Closes socketId direction) (EngineEffect.Opens socketId direction)
    log

/-- The reads that wait in the queue. -/
def Engine.reads (e : Engine) : List (UInt32 × StreamId) := e.events.filterMap Event.name?

/-- The message leaves no read behind that leads to a tunnel which is closed. A number that
is drawn for a destination is not the connection id of a mapped source. A response assigns
a socket id of no connection that is still read. A frame that closes a source tunnel comes
when no read of it is queued. -/
def Engine.HushesMessage (e : Engine) (chance : Chance) : Message → Prop
  | .request _ =>
      ∀ drawn ∈ chance.draws.find? (fun drawn => (e.state.destinations.lookup drawn).isNone),
        e.state.sourceConnIds.lookup drawn = none
  | .response response =>
      ∀ connId ∈ response.clientfd.map Int32.toUInt32,
        ∀ socketId ∈ response.socketid.map Int32.toUInt32,
          (e.state.pending.lookup connId).isSome = true →
            ∀ name ∈ e.names, e.state.sourceConnIds.lookup name.1 ≠ some socketId
  | .data d =>
      d.sourcetodestination.getD false = false →
        (d.closed.getD false || d.error.isSome) = true →
          ∀ socketId ∈ d.socketid.map Int32.toUInt32,
            ∀ name ∈ e.reads, e.state.sourceConnIds.lookup name.1 ≠ some socketId

/-- A read task whose connection is gone from the table queues nothing any more. -/
def Engine.Hushes (codec : Codec π) (e : Engine) : EngineAct π → Prop
  | .read connId _ _ =>
      ∀ socketId ∈ e.state.sourceConnIds.lookup connId,
        (e.state.sourceSockets.lookup socketId).isSome = true
  | .peer p chance => ∀ m ∈ codec.read p, e.HushesMessage chance m
  | _ => True

instance (e : Engine) (chance : Chance) (m : Message) : Decidable (e.HushesMessage chance m) :=
  match m with
  | .request _ => Option.decidableForallMem _
  | .response _ => @Option.decidableForallMem _ _ (fun _ => Option.decidableForallMem _) _
  | .data _ => @instDecidableForall _ _ inferInstance
      (@instDecidableForall _ _ inferInstance (Option.decidableForallMem _))

instance (codec : Codec π) (e : Engine) (act : EngineAct π) : Decidable (e.Hushes codec act) :=
  match act with
  | .read _ _ _ => Option.decidableForallMem _
  | .peer p _ => Option.decidableForallMem (codec.read p)
  | .accept _ | .abort _ _ | .event _ | .addSources _ | .shutdown | .stop => isTrue trivial

/-- Connections that are read and have the same socket id have the same connection id. -/
def Engine.Unshared (e : Engine) : Prop :=
  ∀ name ∈ e.names, ∀ name' ∈ e.names, ∀ {socketId},
    e.state.sourceConnIds.lookup name.1 = some socketId →
    e.state.sourceConnIds.lookup name'.1 = some socketId → name'.1 = name.1

namespace Engine

variable {codec : Codec π} {e e' : Engine} {act : EngineAct π} {effects : List EngineEffect}

theorem Unshared.of_opens (unshared : e.Unshared) (hushes : e.Hushes codec act)
    (opens : e.Opens codec act e' effects) : e'.Unshared := by
  intro name named name' named' id mapped mapped'
  cases opens with
  | destination p chance request socketId decoded drawn =>
      have unmapped := hushes _ decoded socketId drawn
      have old : ∀ {other : UInt32 × StreamId}, other ∈ e.names ∨ other = (socketId, e.streams) →
          e.state.sourceConnIds.lookup other.1 = some id → other ∈ e.names := by
        rintro other (there | rfl) found
        · exact there
        · rw [unmapped] at found
          cases found
      exact unshared name (old (names_opened named) mapped) name'
        (old (names_opened named') mapped') mapped mapped'
  | source p chance response connId socketId conn decoded fd assigned waits =>
      have foreign := hushes _ decoded connId fd socketId assigned (waits ▸ rfl)
      have old : ∀ {other : UInt32 × StreamId}, other ∈ e.names ∨ other = (connId, conn) →
          other.1 ≠ connId → other ∈ e.names := by
        rintro other (there | rfl) different
        · exact there
        · exact absurd rfl different
      rcases Table.lookup_insert_cases mapped with ⟨same, rfl⟩ | ⟨different, before⟩
      · rcases Table.lookup_insert_cases mapped' with ⟨same', -⟩ | ⟨different', before'⟩
        · rw [same, same']
        · exact absurd before' (foreign name' (old (names_opened named') different'))
      · rcases Table.lookup_insert_cases mapped' with ⟨-, rfl⟩ | ⟨different', before'⟩
        · exact absurd before (foreign name (old (names_opened named) different))
        · exact unshared name (old (names_opened named) different) name'
            (old (names_opened named') different') before before'

theorem Unshared.step (unshared : e.Unshared) (hushes : e.Hushes codec act)
    (moves : e.Moves codec act e' effects) : e'.Unshared := by
  rcases moves.opens_or_shrinks with opens | shrinks
  · exact unshared.of_opens hushes opens
  · intro name named name' named' socketId mapped mapped'
    exact unshared name (shrinks.names name named) name' (shrinks.names name' named')
      (shrinks.tables.sourceConnIds mapped) (shrinks.tables.sourceConnIds mapped')

theorem unshared_reaches {sources : List PortForwardSourceRequest} {answer : Bool}
    {log : List EngineEffect}
    (run : (system codec sources answer).Reaches (fun _ e => e.Hushes codec) log e) :
    e.Unshared := by
  refine run.invariant (P := fun _ e => e.Unshared) ?_ ?_
  · rintro name ⟨⟩
  · intro log e act e' effects unshared hushes stepped
    exact unshared.step hushes (step_moves stepped)

/-- Nothing in the queue leads to the tunnel. -/
def Quiet (e : Engine) (socketId : UInt32) : Bool → Prop
  | true =>
      e.state.sourceSockets.lookup socketId = none ∧
        ∀ name ∈ e.reads, e.state.sourceConnIds.lookup name.1 ≠ some socketId
  | false => e.state.destinations.lookup socketId = none

/-- A read comes into the queue only from a read task. -/
theorem Moves.reads (moves : e.Moves codec act e' effects) {name : UInt32 × StreamId}
    (waits : name ∈ e'.reads) :
    name ∈ e.reads ∨ ∃ result, act = .read name.1 name.2 result := by
  cases moves with
  | accept sourceIdx =>
      refine .inl ?_
      rwa [Engine.reads, List.filterMap_append, List.filterMap_cons_none rfl,
        List.filterMap_nil, List.append_nil] at waits
  | read connId stream result _ =>
      rw [Engine.reads, List.filterMap_append] at waits
      rcases List.mem_append.1 waits with old | new
      · exact .inl old
      · rw [List.mem_singleton.1 new]
        exact .inr ⟨result, rfl⟩
  | take sends sourceIdx stream events state raw ready queue handled =>
      refine .inl ?_
      rw [Engine.reads, queue]
      exact waits
  | relay sends connId stream result events state raw ready queue read =>
      refine .inl ?_
      rw [Engine.reads, queue]
      exact List.mem_cons_of_mem _ waits
  | abort _ _ | skip _ _ _ | receive _ _ _ _ _ _ _ _ | addSources _ | shutdown | stop =>
      exact .inl waits

theorem Quiet.of_opens {socketId : UInt32} {direction : Bool}
    (quiet : e.Quiet socketId direction) (opens : e.Opens codec act e' effects)
    (unopened : ∀ effect ∈ effects, ¬effect.Opens socketId direction) :
    e'.Quiet socketId direction := by
  cases opens with
  | destination p chance request drawn decoded free =>
      cases direction with
      | true => exact quiet
      | false =>
          have different : socketId ≠ drawn := by
            rintro rfl
            refine unopened _ ?_ ⟨e.streams, socketId, rfl⟩
            exact (mem_opened Opens.silent_destination).2 ⟨rfl, rfl, rfl, rfl⟩
          exact (AList.lookup_insert_ne different).trans quiet
  | source p chance response connId assigned conn decoded fd named waits =>
      cases direction with
      | true =>
          have different : socketId ≠ assigned := by
            rintro rfl
            refine unopened _ ?_ ⟨conn, connId, rfl⟩
            exact (mem_opened Opens.silent_source).2 ⟨rfl, rfl, rfl, rfl⟩
          refine ⟨(AList.lookup_insert_ne different).trans quiet.1, ?_⟩
          intro name there mapped
          rcases Table.lookup_insert_cases mapped with ⟨-, same⟩ | ⟨-, before⟩
          · exact different same
          · exact quiet.2 name there before
      | false => exact quiet

/-- A quiet tunnel stays quiet until it is opened again. -/
theorem Quiet.step {socketId : UInt32} {direction : Bool} (quiet : e.Quiet socketId direction)
    (hushes : e.Hushes codec act) (moves : e.Moves codec act e' effects)
    (unopened : ∀ effect ∈ effects, ¬effect.Opens socketId direction) :
    e'.Quiet socketId direction := by
  rcases moves.opens_or_shrinks with opens | shrinks
  · exact quiet.of_opens opens unopened
  · cases direction with
    | true =>
        refine ⟨lookup_none_of_within shrinks.tables.sourceSockets quiet.1, ?_⟩
        intro name there mapped
        have before := shrinks.tables.sourceConnIds mapped
        obtain old | ⟨result, rfl⟩ := moves.reads there
        · exact quiet.2 name old before
        · have tracked := hushes socketId before
          rw [quiet.1] at tracked
          cases tracked
    | false => exact lookup_none_of_within shrinks.tables.destinations quiet

end Engine

/-- Nothing is sent behind a closed frame. -/
def EngineEffect.Last (effect later : EngineEffect) : Prop :=
  ∀ socketId direction, effect.Closes socketId direction → ∀ origin m, later ≠ .sent origin m

theorem readFrames_last (socketId : UInt32) (direction : Bool) (result : ReadResult)
    (stream : StreamId) {rest : List EngineEffect}
    (unsent : ∀ effect ∈ rest, ∀ origin m, effect ≠ .sent origin m) :
    ((readFrames socketId direction result).map (EngineEffect.sent (some stream)) ++
      rest).Pairwise EngineEffect.Last := by
  have frames : ((readFrames socketId direction result).map
      (EngineEffect.sent (some stream))).Pairwise EngineEffect.Last := by
    rcases result with text | ⟨_ | ⟨byte, bytes⟩⟩
    · simp [readFrames, EngineEffect.Last, EngineEffect.Closes, errorPacket, closedPacket]
    · simp [readFrames]
    · simp [readFrames]
  rw [List.pairwise_append]
  refine ⟨frames, List.pairwise_of_forall_mem_list ?_, ?_⟩
  · intro _ _ later mem _ _ _ origin m
    exact unsent later mem origin m
  · intro _ _ later mem _ _ _ origin m
    exact unsent later mem origin m

namespace ReadStep

variable {s s' : EngineState} {connId : UInt32} {stream : StreamId} {result : ReadResult}
  {raw : List EngineEffect}

theorem last (read : ReadStep s connId stream result s' raw) :
    raw.Pairwise EngineEffect.Last := by
  cases read with
  | source socketId _ _ =>
      have pairs := @readFrames_last socketId true result stream [] (by simp)
      rwa [List.append_nil] at pairs
  | sourceEnd socketId _ _ =>
      rw [List.append_assoc]
      refine readFrames_last socketId true result stream ?_
      intro effect there origin m
      rcases List.mem_append.1 there with removed | unmapped
      · obtain ⟨conn, -, rfl⟩ := List.mem_map.1 removed
        rintro ⟨⟩
      · rw [List.mem_singleton.1 unmapped]
        rintro ⟨⟩
  | destination _ _ _ _ =>
      have pairs := @readFrames_last connId false result stream [] (by simp)
      rwa [List.append_nil] at pairs
  | destinationEnd conn _ _ _ => exact readFrames_last connId false result stream (by simp)
  | trailing _ _ => exact .nil

/-- The frames about a read carry the socket id that its connection id leads to. -/
theorem sends (read : ReadStep s connId stream result s' raw) {origin : Option StreamId}
    {m : Message} (sent : .sent origin m ∈ raw) :
    (∃ socketId, s.sourceConnIds.lookup connId = some socketId ∧
        m ∈ readFrames socketId true result) ∨
      ∃ conn, s.sourceConnIds.lookup connId = none ∧
        s.destinations.lookup connId = some conn ∧ m ∈ readFrames connId false result := by
  have framed : ∀ {socketId direction}, EngineEffect.sent origin m ∈
      (readFrames socketId direction result).map (EngineEffect.sent (some stream)) →
      m ∈ readFrames socketId direction result := by
    intro socketId direction there
    obtain ⟨frame, framed, same⟩ := List.mem_map.1 there
    cases same
    exact framed
  cases read with
  | source socketId mapped _ => exact .inl ⟨socketId, mapped, framed sent⟩
  | sourceEnd socketId mapped _ =>
      simp only [List.mem_append, List.mem_map, List.mem_singleton, reduceCtorEq, and_false,
        exists_false, or_false] at sent
      exact .inl ⟨socketId, mapped, framed (List.mem_map.2 sent)⟩
  | destination conn unmapped found _ => exact .inr ⟨conn, unmapped, found, framed sent⟩
  | destinationEnd conn unmapped found _ =>
      rcases List.mem_append.1 sent with frames | removed
      · exact .inr ⟨conn, unmapped, found, framed frames⟩
      · cases List.mem_singleton.1 removed
  | trailing _ _ => cases sent

end ReadStep

namespace Engine

variable {codec : Codec π} {e e' : Engine} {act : EngineAct π} {effects : List EngineEffect}
  {socketId : UInt32} {direction : Bool}

/-- A data frame is sent for a tunnel that is not quiet, and no closed frame of the same step
is before it. -/
theorem Moves.sends (moves : e.Moves codec act e' effects) {front rest : List EngineEffect}
    {effect : EngineEffect} (split : effects = front ++ effect :: rest)
    (sends : effect.Sends socketId direction) :
    ¬e.Quiet socketId direction ∧ ∀ earlier ∈ front, ¬earlier.Closes socketId direction := by
  obtain ⟨origin, m, rfl, carries⟩ := sends
  have sent : .sent origin m ∈ effects := by simp [split]
  obtain ⟨d, rfl, -⟩ := id carries
  obtain ⟨sends, connId, stream, result, events, state, raw, queue, read, rfl, rfl⟩ :=
    moves.relays sent
  refine ⟨?_, ?_⟩
  · intro quiet
    have raw := (sendOrShutdown_sublist _ _).subset sent
    obtain ⟨assigned, mapped, framed⟩ | ⟨conn, -, found, framed⟩ := read.sends raw
    · obtain ⟨rfl, rfl⟩ := carries.unique (carries_of_readFrames framed)
      refine quiet.2 (connId, stream) ?_ mapped
      rw [Engine.reads, queue]
      exact List.mem_cons_self
    · obtain ⟨rfl, rfl⟩ := carries.unique (carries_of_readFrames framed)
      rw [Quiet, found] at quiet
      cases quiet
  · intro earlier there closes
    have pairs := read.last.sublist (sendOrShutdown_sublist sends raw)
    rw [split, List.pairwise_append] at pairs
    exact pairs.2.2 earlier there _ List.mem_cons_self _ _ closes _ _ rfl

/-- A frame of the peer that closes the tunnel. -/
theorem Moves.closes_received (moves : e.Moves codec act e' effects)
    (hushes : e.Hushes codec act) {d : PortForwardData} (there : .received (.data d) ∈ effects)
    (named : d.socketid.map Int32.toUInt32 = some socketId)
    (towards : d.sourcetodestination.getD false = !direction)
    (closed : (d.closed.getD false || d.error.isSome) = true) : e'.Quiet socketId direction := by
  have gone : ∀ {table table' : Table StreamId} {effects : List EngineEffect},
      DataStep table socketId (d.closed.getD false || d.error.isSome) d.buffer table' effects →
      table'.lookup socketId = none := by
    intro table table' effects data
    cases data with
    | unknown missing => exact missing
    | torn _ _ => exact AList.lookup_erase _ _
    | kept _ _ unclosed =>
        rw [closed] at unclosed
        cases unclosed
  cases moves.emits there with
  | received p chance _ state raw decoded peer =>
      cases peer with
      | ignored _ _ unnamed =>
          rw [unnamed d rfl] at named
          cases named
      | toDestination _ key table effects keyed destined data =>
          obtain rfl := Option.some.inj (keyed.symm.trans named)
          rw [destined] at towards
          cases direction with
          | true => cases towards
          | false => exact gone data
      | toSource _ key table effects keyed back data =>
          obtain rfl := Option.some.inj (keyed.symm.trans named)
          rw [back] at towards
          cases direction with
          | true => exact ⟨gone data, hushes _ decoded back closed _ named⟩
          | false => cases towards
  | relayed _ _ _ _ _ _ _ _ read raws =>
      obtain ⟨_, same⟩ | ⟨_, same⟩ | ⟨_, same⟩ := read.effect_cases _ raws <;> cases same
  | handled _ _ _ _ _ _ peer raws =>
      obtain ⟨_, same⟩ | ⟨_, _, _, _, same⟩ | ⟨_, same | ⟨_, same⟩⟩ :=
        peer.effect_cases _ raws <;> cases same

/-- A closed frame of the tunnel itself. -/
theorem Moves.closes_sent (moves : e.Moves codec act e' effects) (unshared : e.Unshared)
    {origin : Option StreamId} (there : .sent origin (closedPacket socketId direction) ∈ effects) :
    e'.Quiet socketId direction := by
  obtain ⟨sends, connId, stream, result, events, state, raw, queue, read, rfl, rfl⟩ :=
    moves.relays there
  have sent := (sendOrShutdown_sublist _ _).subset there
  have carries : (closedPacket socketId direction).Carries socketId direction :=
    ⟨_, rfl, rfl, rfl⟩
  have ends : ∀ {id flag}, closedPacket socketId direction ∈ readFrames id flag result →
      isEnd result = true := by
    intro id flag framed
    rcases result with text | ⟨_ | ⟨byte, bytes⟩⟩
    · rfl
    · rfl
    · cases List.mem_singleton.1 framed
  have waits : (connId, stream) ∈ e.names := by
    rw [Engine.names, queue]
    exact List.mem_append_right _ List.mem_cons_self
  obtain ⟨assigned, mapped, framed⟩ | ⟨conn, unmapped, found, framed⟩ := read.sends sent
  · obtain ⟨rfl, rfl⟩ := carries.unique (carries_of_readFrames framed)
    cases read with
    | source _ _ goes =>
        rw [ends framed] at goes
        cases goes
    | sourceEnd id mapped' _ =>
        obtain rfl := Option.some.inj (mapped'.symm.trans mapped)
        refine ⟨AList.lookup_erase _ _, ?_⟩
        intro name later mapped''
        have before := Table.lookup_of_erase mapped''
        have named : name ∈ e.names := by
          rw [Engine.names, queue]
          exact List.mem_append_right _ (List.mem_cons_of_mem _ later)
        rw [unshared _ waits _ named mapped before, AList.lookup_erase] at mapped''
        cases mapped''
    | destination _ missing _ _ | destinationEnd _ missing _ _ | trailing missing _ =>
        rw [missing] at mapped
        cases mapped
  · obtain ⟨rfl, rfl⟩ := carries.unique (carries_of_readFrames framed)
    cases read with
    | source _ mapped _ | sourceEnd _ mapped _ =>
        rw [unmapped] at mapped
        cases mapped
    | destination _ _ _ goes =>
        rw [ends framed] at goes
        cases goes
    | destinationEnd _ _ _ _ => exact AList.lookup_erase _ _
    | trailing _ missing => exact missing

/-- A tunnel that a step closes is quiet behind it. -/
theorem Moves.closes (moves : e.Moves codec act e' effects) (unshared : e.Unshared)
    (hushes : e.Hushes codec act) {effect : EngineEffect} (there : effect ∈ effects)
    (closes : effect.Closes socketId direction) : e'.Quiet socketId direction := by
  cases effect with
  | received m =>
      cases m with
      | data d => exact moves.closes_received hushes there closes.1 closes.2.1 closes.2.2
      | request _ | response _ => cases closes
  | sent origin m =>
      obtain rfl : m = closedPacket socketId direction := closes
      exact moves.closes_sent unshared there
  | read _ _ | opened _ _ _ _ | enqueued _ _ | tornDown _ | removed _ _ | unmapped _ _ _ =>
      cases closes

end Engine

/-- In every run that leaves no read behind for a tunnel that is closed, no data frame carries
the socket id and the direction of a tunnel that was closed and not opened again. -/
theorem closed_tunnels_silent {codec : Codec π} {sources : List PortForwardSourceRequest}
    {answer : Bool} {log : List EngineEffect} {e : Engine}
    (run : (Engine.system codec sources answer).Reaches (fun _ e => e.Hushes codec) log e)
    {before after : List EngineEffect} {origin : Option StreamId} {m : Message}
    (split : log = before ++ .sent origin m :: after) {socketId : UInt32} {direction : Bool}
    (carries : m.Carries socketId direction) : ¬Silenced socketId direction before := by
  have sends : EngineEffect.Sends socketId direction (.sent origin m) := ⟨origin, m, rfl, carries⟩
  refine run.silent (fun e => e.Quiet socketId direction) ?_ ?_ ?_ split sends
  · intro log e act e' effects run hushes stepped since
    obtain ⟨effect, there, closes⟩ := since.exists_mem
    exact (Engine.step_moves stepped).closes (Engine.unshared_reaches run) hushes there closes
  · intro log e act e' effects run hushes stepped quiet unopened
    exact quiet.step hushes (Engine.step_moves stepped) unopened
  · intro log e act e' effects front effect rest run hushes stepped split sends
    exact (Engine.step_moves stepped).sends split sends

/-- A connection that is accepted, mapped to socket 7 and read. -/
def mappedRead : List (EngineAct Message) :=
  [.accept 0, .event [], .peer (.response { clientfd := some 1, socketid := some 7 }) calm,
    .read 1 0 (.ok [42])]

/-- The history of `mappedRead`. -/
def mappedLog : List EngineEffect :=
  [.sent none (.request ⟨some ⟨none, some 80⟩, some 1⟩),
    .received (.response { clientfd := some 1, socketid := some 7 }), .opened 0 1 7 true,
    .read 0 (.ok [42])]

/-- What was read is sent before the peer closes the tunnel. -/
theorem closed_tunnels_silent_drained :
    ∃ log e, (Engine.system .plain oneSource true).Reaches (fun _ e => e.Hushes .plain) log e ∧
      log = mappedLog ++ .sent (some 0) (dataPacket 7 true [42]) ::
        [.received (closedPacket 7 false), .tornDown 0] ∧
      Silenced 7 true log ∧ ¬Silenced 7 true mappedLog := by
  obtain ⟨log, e, run, split⟩ : ∃ log e,
      (Engine.system .plain oneSource true).Reaches (fun _ e => e.Hushes .plain) log e ∧
        log = mappedLog ++ .sent (some 0) (dataPacket 7 true [42]) ::
          [.received (closedPacket 7 false), .tornDown 0] :=
    ⟨_, _, .execute .start (mappedRead ++ [.event [], .peer (closedPacket 7 false) calm]) rfl, rfl⟩
  refine ⟨log, e, run, split, ?_, closed_tunnels_silent run split ⟨_, rfl, rfl, rfl⟩⟩
  refine ⟨mappedLog ++ [.sent (some 0) (dataPacket 7 true [42])], .received (closedPacket 7 false),
    [.tornDown 0], split, ⟨rfl, rfl, rfl⟩, ?_⟩
  intro later mem
  rw [List.mem_singleton.1 mem]
  rintro ⟨_, _, ⟨⟩⟩

/-- The peer closes a source tunnel while a read of it is queued. The read is sent as data of
the tunnel behind the frame that closed it. -/
theorem closed_tunnel_sends :
    ∃ log e, (Engine.system .plain oneSource true).Reachable log e ∧
      ∃ before after, log = before ++ .sent (some 0) (dataPacket 7 true [42]) :: after ∧
        (dataPacket 7 true [42]).Carries 7 true ∧ Silenced 7 true before := by
  refine ⟨_, _, .execute .start (mappedRead ++ [.peer (closedPacket 7 false) calm, .event []]) rfl,
    mappedLog ++ [.received (closedPacket 7 false), .tornDown 0], [], rfl, ⟨_, rfl, rfl, rfl⟩,
    mappedLog, .received (closedPacket 7 false), [.tornDown 0], rfl, ⟨rfl, rfl, rfl⟩, ?_⟩
  intro later mem
  rw [List.mem_singleton.1 mem]
  rintro ⟨_, _, ⟨⟩⟩

end Forward

end Et
