import EtClient.Forward.Ledger

/-!
# Two engines and the link between them

One engine has sources only and the other destinations only. Each puts its frames on a
link to the other, which delivers them in order. A tunnel is a connection of each engine
with the same socket id: the destination's engine draws the id, and the source's engine
learns it from the response.

As long as the drawn ids do not repeat, and the counter of the sources does not come back
to an id that is still read, both engines run as they need to: their ids stay apart, and
no data frame arrives before its connection is there to take it. So each engine is a
sending end and a receiving end of every tunnel, and the link joins them.
-/

namespace Et

namespace Forward

open Pipe

variable {π : Type}

theorem heardOf_eq_nil {log : List EngineEffect} {socketId : UInt32} {flag : Bool}
    (unheard : ∀ m ∈ receivedOf log, ∀ item, m.itemFor socketId flag ≠ some item) :
    heardOf socketId flag log = [] :=
  List.filterMap_eq_nil_iff.2 fun m there =>
    Option.eq_none_iff_forall_ne_some.2 (unheard m there)

/-- Ids stay apart, there is no shutdown, and a new connection has not been heard of. -/
structure Engine.Proper (codec : Codec π) (log : List EngineEffect) (e : Engine)
    (act : EngineAct π) : Prop where
  apart : e.Apart codec act
  steady : act.Steady
  unheard : e.Unheard codec log act

structure Account (log : List EngineEffect) (e : Engine) : Prop where
  streams : StreamsOf log e
  isolated : Isolated log e
  sending : Sending log e
  receiving : Receiving log e
  ledger : Ledger log e

namespace Account

variable {codec : Codec π} {log effects : List EngineEffect} {e e' : Engine} {act : EngineAct π}

theorem start (sources : List PortForwardSourceRequest) (answer : Bool) :
    Account [] (.spawn sources answer) where
  streams := @streamsOf_reachable _ .plain sources answer _ _ .start
  isolated := @isolated_reaches _ .plain sources answer _ _ .start
  sending := ⟨rfl, nofun⟩
  receiving := by
    refine ⟨?_, nofun, nofun⟩
    intro direction socketId stream found
    cases direction <;> cases found
  ledger := by
    refine ⟨nofun, nofun, List.Sublist.refl _, rfl, nofun, nofun, ?_⟩
    intro before m after socketId split _
    exact absurd split.symm (List.append_ne_nil_of_right_ne_nil _ (List.cons_ne_nil _ _))

theorem step (account : Account log e) (proper : e.Proper codec log act)
    (moves : e.Moves codec act e' effects) : Account (log ++ effects) e' where
  streams := account.streams.step moves
  isolated := account.isolated.step proper.apart moves
  sending :=
    account.sending.step account.isolated account.streams proper.apart proper.steady moves
  receiving := account.receiving.step account.streams proper.unheard account.sending.up moves
  ledger := account.ledger.step account.isolated account.sending.up moves

/-- A piece of a stream is sent for the connection it names. -/
theorem of_item (account : Account log e) {m : Message} (sent : m ∈ sentOf log)
    {socketId : UInt32} {flag : Bool} {item : Item UInt8}
    (found : m.itemFor socketId flag = some item) :
    m.Carries socketId flag ∧ ∃ stream connId, .opened stream connId socketId flag ∈ log := by
  obtain ⟨d, rfl, named, towards⟩ := itemFor_eq_some found
  obtain ⟨origin, there⟩ := mem_sentOf.1 sent
  cases origin with
  | none => exact absurd there (account.isolated.origin d)
  | some cause =>
      obtain ⟨connId, socketId', direction, opened, -, carries⟩ :=
        account.isolated.about _ there cause rfl
      obtain ⟨_, same, named', towards'⟩ := id carries
      cases same
      rw [named', Option.map_some, UInt32.toUInt32_toInt32] at named
      rw [towards'] at towards
      obtain rfl := Option.some.inj named
      obtain rfl : direction = flag := towards
      exact ⟨carries, cause, connId, opened⟩

/-- The pieces that carry a socket id are those of its connection. -/
theorem items_eq (account : Account log e) {stream : StreamId} {connId socketId : UInt32}
    {direction : Bool} (opened : .opened stream connId socketId direction ∈ log)
    (unique : ∀ {other connId'}, .opened other connId' socketId direction ∈ log →
      other = stream) :
    (sentOf log).filterMap (Message.itemFor socketId direction) = itemsSent stream log := by
  rw [sentOf, List.filterMap_filterMap, itemsSent]
  refine List.filterMap_congr fun effect there => ?_
  rcases effect with _ | _ | ⟨origin, m⟩ | _ | _ | _ | _ | _
  case sent =>
    rcases m with _ | _ | d
    case data =>
      cases origin with
      | none => exact absurd there (account.isolated.origin d)
      | some cause =>
          obtain ⟨key, socketId', direction', opened', -, _, same, named, towards⟩ :=
            account.isolated.about _ there cause rfl
          cases same
          change (if d.socketid.map Int32.toUInt32 = some socketId ∧
            d.sourcetodestination.getD false = direction then d.item? else none) =
              if cause = stream then d.item? else none
          refine if_congr ?_ rfl rfl
          rw [named, towards, Option.map_some, UInt32.toUInt32_toInt32, Option.some.injEq]
          constructor
          · rintro ⟨rfl, rfl⟩
            exact unique opened'
          · rintro rfl
            exact (account.streams.once opened opened').2
    all_goals cases origin <;> rfl
  all_goals rfl

end Account

inductive Side
  | source
  | destination
  deriving DecidableEq

namespace Side

def other : Side → Side
  | source => destination
  | destination => source

/-- The direction of the frames that a side sends. -/
def direction : Side → Bool
  | source => true
  | destination => false

theorem other_ne (side : Side) : side.other ≠ side := by
  cases side <;> exact nofun

theorem other_other (side : Side) : side.other.other = side := by
  cases side <;> rfl

theorem not_direction (side : Side) : (!side.other.direction) = side.direction := by
  cases side <;> rfl

theorem eq_or_other (side side' : Side) : side' = side ∨ side' = side.other := by
  cases side <;> cases side' <;> simp [other]

/-- A side's own acts: there is no shutdown, and destinations have no sources. -/
def Permits : Side → EngineAct π → Prop
  | _, .shutdown | _, .stop | _, .peer _ _ | .destination, .addSources _ => False
  | _, _ => True

instance (side : Side) (act : EngineAct π) : Decidable (side.Permits act) :=
  match side, act with
  | .source, .accept _ | .source, .read _ _ _ | .source, .abort _ _ | .source, .event _
  | .source, .addSources _ | .destination, .accept _ | .destination, .read _ _ _
  | .destination, .abort _ _ | .destination, .event _ => isTrue trivial
  | .source, .shutdown | .source, .stop | .source, .peer _ _ | .destination, .shutdown
  | .destination, .stop | .destination, .peer _ _ | .destination, .addSources _ => isFalse id

end Side

structure Pair (π : Type) where
  engine : Side → Engine
  /-- The packets on their way to a side, oldest first. -/
  link : Side → List π

inductive PairAct (π : Type)
  | own (side : Side) (act : EngineAct π)
  /-- A side handles the next packet on its way. -/
  | deliver (side : Side) (chance : Chance)

/-- What happened at a side. -/
def sideLog (side : Side) (log : List (Side × EngineEffect)) : List EngineEffect :=
  log.filterMap fun entry => if entry.1 = side then some entry.2 else none

theorem mem_sideLog {side : Side} {log : List (Side × EngineEffect)} {effect : EngineEffect} :
    effect ∈ sideLog side log ↔ (side, effect) ∈ log := by
  simp only [sideLog, List.mem_filterMap, Option.ite_none_right_eq_some, Option.some.injEq,
    Prod.exists]
  constructor
  · rintro ⟨_, _, there, rfl, rfl⟩
    exact there
  · exact fun there => ⟨side, effect, there, rfl, rfl⟩

theorem sideLog_self (side : Side) (log : List (Side × EngineEffect))
    (effects : List EngineEffect) :
    sideLog side (log ++ effects.map (side, ·)) = sideLog side log ++ effects := by
  simp [sideLog]

theorem sideLog_of_ne {side side' : Side} (different : side' ≠ side)
    (log : List (Side × EngineEffect)) (effects : List EngineEffect) :
    sideLog side (log ++ effects.map (side', ·)) = sideLog side log := by
  simp [sideLog, different]

namespace Pair

/-- A side acts and puts its frames on the link. -/
def advance (codec : Codec π) (w : Pair π) (side : Side) (act : EngineAct π) :
    Option (Pair π × List (Side × EngineEffect)) :=
  ((w.engine side).step codec act).map fun (e, effects) =>
    ({ engine := Function.update w.engine side e
       link := Function.update w.link side.other
        (w.link side.other ++ (sentOf effects).map codec.packet) },
      effects.map (side, ·))

def step (codec : Codec π) (w : Pair π) : PairAct π → Option (Pair π × List (Side × EngineEffect))
  | .own side act => w.advance codec side act
  | .deliver side chance =>
      match w.link side with
      | [] => none
      | p :: rest =>
          { w with link := Function.update w.link side rest }.advance codec side (.peer p chance)

/-- The ids that the destinations draw do not repeat. -/
def Sound (log : List (Side × EngineEffect)) (w : Pair π) : PairAct π → Prop
  | .own side act => side.Permits act
  | .deliver .source _ => True
  | .deliver .destination chance =>
      ∀ drawn ∈ chance.draws.find? fun drawn =>
          ((w.engine .destination).state.destinations.lookup drawn).isNone,
        drawn ∉ createdOf (sideLog .destination log)

instance (log : List (Side × EngineEffect)) (w : Pair π) (act : PairAct π) :
    Decidable (w.Sound log act) :=
  match act with
  | .own side act => inferInstanceAs (Decidable (side.Permits act))
  | .deliver .source _ => isTrue trivial
  | .deliver .destination _ => Option.decidableForallMem _

/-- No accepted connection gets an id that the wrapping counter has given to one that is still
read. -/
def Unused (w : Pair π) : PairAct π → Prop
  | .own side act => (w.engine side).Unused act
  | .deliver _ _ => True

instance (w : Pair π) (act : PairAct π) : Decidable (w.Unused act) :=
  match act with
  | .own side act => inferInstanceAs (Decidable ((w.engine side).Unused act))
  | .deliver _ _ => isTrue trivial

/-- The steps of the pair with both conditions. -/
def Orderly (log : List (Side × EngineEffect)) (w : Pair π) (act : PairAct π) : Prop :=
  w.Sound log act ∧ w.Unused act

instance (log : List (Side × EngineEffect)) (w : Pair π) (act : PairAct π) :
    Decidable (w.Orderly log act) :=
  inferInstanceAs (Decidable (_ ∧ _))

def system (codec : Codec π) (sources : List PortForwardSourceRequest)
    (answer : Side → Bool) :
    Transition.System (Pair π) (PairAct π) (Side × EngineEffect) where
  start :=
    { engine := fun
        | .source => .spawn sources (answer .source)
        | .destination => .spawn [] (answer .destination)
      link := fun _ => [] }
  step := step codec

/-- A side has acted: it has taken packets off its link, and its frames are on the link
of the other side. -/
structure Acted (codec : Codec π) (w : Pair π) (side : Side) (act : EngineAct π)
    (effects : List EngineEffect) (w' : Pair π) : Prop where
  moves : (w.engine side).Moves codec act (w'.engine side) effects
  other : w'.engine side.other = w.engine side.other
  took : (w.link side).filterMap codec.read =
    (act.message? codec).toList ++ (w'.link side).filterMap codec.read
  put : w'.link side.other = w.link side.other ++ (sentOf effects).map codec.packet

theorem acted_of_advance {codec : Codec π} {w w' : Pair π} {side : Side} {act : EngineAct π}
    {log : List (Side × EngineEffect)} (stepped : w.advance codec side act = some (w', log)) :
    ∃ effects, log = effects.map (side, ·) ∧ w'.link side = w.link side ∧
      (w.engine side).Moves codec act (w'.engine side) effects ∧
      w'.engine side.other = w.engine side.other ∧
      w'.link side.other = w.link side.other ++ (sentOf effects).map codec.packet := by
  obtain ⟨⟨e, effects⟩, moved, same⟩ := Option.map_eq_some_iff.1 stepped
  obtain ⟨rfl, rfl⟩ := Prod.mk.inj same
  refine ⟨effects, rfl, ?_, ?_, ?_, ?_⟩
  · exact Function.update_of_ne side.other_ne.symm _ _
  · have moves := Engine.step_moves moved
    simpa only [Function.update_self] using moves
  · exact Function.update_of_ne side.other_ne _ _
  · exact Function.update_self _ _ _

/-- One step of the pair. -/
theorem step_acted {codec : Codec π} {w w' : Pair π} {pairAct : PairAct π}
    {log log' : List (Side × EngineEffect)} (sound : w.Sound log pairAct)
    (stepped : w.step codec pairAct = some (w', log')) :
    ∃ side act effects, log' = effects.map (side, ·) ∧ w.Acted codec side act effects w' ∧
      (pairAct = .own side act ∨ ∃ p rest chance, pairAct = .deliver side chance ∧
        w.link side = p :: rest ∧ act = .peer p chance) := by
  cases pairAct with
  | own side act =>
      obtain ⟨effects, rfl, same, moves, other, put⟩ := acted_of_advance stepped
      have silent : act.message? codec = none := by
        cases act with
        | peer _ _ => cases side <;> exact sound.elim
        | _ => rfl
      refine ⟨side, act, effects, rfl, ⟨moves, other, ?_, put⟩, .inl rfl⟩
      rw [silent, same]
      rfl
  | deliver side chance =>
      rw [step] at stepped
      split at stepped
      · cases stepped
      · rename_i p rest queue
        obtain ⟨effects, rfl, same, moves, other, put⟩ := acted_of_advance stepped
        have taken : w'.link side = rest := same.trans (Function.update_self _ _ _)
        have kept := Function.update_of_ne side.other_ne rest w.link
        refine ⟨side, .peer p chance, effects, rfl,
          ⟨moves, other, ?_, put.trans (congrArg (· ++ _) kept)⟩,
          .inr ⟨p, rest, chance, rfl, queue, rfl⟩⟩
        rw [queue, taken]
        cases decoded : codec.read p <;> simp [EngineAct.message?, decoded]

end Pair

/-- What holds of two engines that are joined by a link. -/
structure Joined (codec : Codec π) (log : List (Side × EngineEffect)) (w : Pair π) : Prop where
  account : ∀ side, Account (sideLog side log) (w.engine side)
  wire : ∀ side, sentOf (sideLog side.other log) =
    receivedOf (sideLog side log) ++ (w.link side).filterMap codec.read
  unique : (createdOf (sideLog .destination log)).Nodup
  bare : (w.engine .destination).state.sources = []
  waits : (w.engine .source).WaitsApart

namespace Joined

variable {codec : Codec π} {log : List (Side × EngineEffect)} {w : Pair π}

theorem sent_of_received (joined : Joined codec log w) {side : Side} {m : Message}
    (there : m ∈ receivedOf (sideLog side log)) : m ∈ sentOf (sideLog side.other log) := by
  rw [joined.wire side]
  exact List.mem_append_left _ there

/-- The destinations ask for nothing. -/
theorem request_not_received (joined : Joined codec log w)
    (request : PortForwardDestinationRequest) :
    .request request ∉ sentOf (sideLog .destination log) :=
  fun sent => (joined.account .destination).ledger.asked sent joined.bare

/-- The sources answer nothing. -/
theorem response_not_received (joined : Joined codec log w)
    (response : PortForwardDestinationResponse) :
    .response response ∉ sentOf (sideLog .source log) := by
  intro sent
  obtain ⟨request, there⟩ := (joined.account .source).ledger.answered sent
  exact joined.request_not_received request (joined.sent_of_received there)

/-- Each side opens connections of its own direction only. -/
theorem direction_eq (joined : Joined codec log w) {side : Side} {stream : StreamId}
    {connId socketId : UInt32} {direction : Bool}
    (opened : .opened stream connId socketId direction ∈ sideLog side log) :
    direction = side.direction := by
  cases side with
  | source =>
      cases direction with
      | true => rfl
      | false =>
          obtain ⟨-, request, there⟩ := (joined.account .source).ledger.requested opened
          exact absurd (joined.sent_of_received there) (joined.request_not_received request)
  | destination =>
      cases direction with
      | false => rfl
      | true =>
          have assigned := (joined.account .destination).ledger.assigned
          obtain ⟨response, there, -⟩ := mem_socketsOf.1 (assigned.subset (mem_assignedOf opened))
          exact absurd (joined.sent_of_received there) (joined.response_not_received response)

/-- The sources hear of the ids of the destinations in order. -/
theorem created_eq (joined : Joined codec log w) :
    createdOf (sideLog .destination log) =
      socketsOf (receivedOf (sideLog .source log)) ++
        socketsOf ((w.link .source).filterMap codec.read) := by
  rw [← (joined.account .destination).ledger.created, ← socketsOf_append]
  exact congrArg socketsOf (joined.wire .source)

theorem assigned_sublist (joined : Joined codec log w) :
    (assignedOf (sideLog .source log)).Sublist (createdOf (sideLog .destination log)) := by
  refine (joined.account .source).ledger.assigned.trans ?_
  rw [joined.created_eq]
  exact List.sublist_append_left _ _

/-- A response on its way names an id that the sources do not know yet. -/
theorem not_assigned (joined : Joined codec log w) {p : π} {rest : List π}
    (queue : w.link .source = p :: rest) {response : PortForwardDestinationResponse}
    (decoded : codec.read p = some (.response response)) {socketId : UInt32}
    (assigned : response.socketid.map Int32.toUInt32 = some socketId) :
    socketId ∉ socketsOf (receivedOf (sideLog .source log)) := by
  have unique := joined.unique
  rw [joined.created_eq, queue, List.filterMap_cons_some decoded] at unique
  intro known
  refine (List.nodup_append.1 unique).2.2 _ known _ ?_ rfl
  exact mem_socketsOf.2 ⟨response, List.mem_cons_self, assigned⟩

/-- A message on its way was sent. -/
theorem sent_of_queue (joined : Joined codec log w) {side : Side} {p : π} {rest : List π}
    (queue : w.link side = p :: rest) {m : Message} (decoded : codec.read p = some m) :
    m ∈ sentOf (sideLog side.other log) := by
  rw [joined.wire side, queue, List.filterMap_cons_some decoded]
  exact List.mem_append_right _ List.mem_cons_self

theorem admits_source (joined : Joined codec log w) {p : π} {rest : List π}
    (queue : w.link .source = p :: rest) (chance : Chance)
    {response : PortForwardDestinationResponse}
    (decoded : codec.read p = some (.response response)) :
    (w.engine .source).Admits chance (.response response) := by
  have account := joined.account .source
  intro connId _ socketId assigned waits
  obtain ⟨conn, pending⟩ := Option.isSome_iff_exists.1 waits
  refine ⟨?_, fun name named => ⟨?_, ?_⟩⟩
  · refine Option.eq_none_iff_forall_ne_some.2 fun stream found => ?_
    obtain ⟨key, opened⟩ := @Receiving.table _ _ account.receiving false connId stream found
    cases joined.direction_eq opened
  · exact joined.waits connId conn pending name named
  · intro known
    obtain ⟨stream, opened⟩ := account.ledger.mapped known
    refine joined.not_assigned queue decoded assigned ?_
    exact account.ledger.assigned.subset (mem_assignedOf opened)

/-- The frames of a destination come behind its response. -/
theorem unheard_source (joined : Joined codec log w) {p : π} {rest : List π}
    (queue : w.link .source = p :: rest) {response : PortForwardDestinationResponse}
    (decoded : codec.read p = some (.response response)) {socketId : UInt32}
    (assigned : response.socketid.map Int32.toUInt32 = some socketId) :
    heardOf socketId false (sideLog .source log) = [] := by
  refine heardOf_eq_nil fun m there item found => ?_
  have account := joined.account .destination
  obtain ⟨carries, -⟩ := account.of_item (joined.sent_of_received there) found
  obtain ⟨before, after, split⟩ := List.append_of_mem there
  have sent : sentOf (sideLog .destination log) =
      before ++ m :: (after ++ (w.link .source).filterMap codec.read) := by
    refine (joined.wire .source).trans ?_
    rw [split, List.append_assoc, List.cons_append]
  refine joined.not_assigned queue decoded assigned ?_
  rw [split, socketsOf_append]
  exact List.mem_append_left _ (account.ledger.order _ _ _ _ sent carries)

theorem proper_source (joined : Joined codec log w) {p : π} {rest : List π}
    (queue : w.link .source = p :: rest) (chance : Chance) :
    (w.engine .source).Proper codec (sideLog .source log) (.peer p chance) where
  apart := by
    intro m decoded
    cases m with
    | request request =>
        exact absurd (joined.sent_of_queue queue decoded) (joined.request_not_received request)
    | response response => exact joined.admits_source queue chance decoded
    | data d => exact trivial
  steady := trivial
  unheard := by
    refine ⟨fun request decoded => ?_, fun response decoded socketId assigned => ?_⟩
    · exact absurd (joined.sent_of_queue queue decoded) (joined.request_not_received request)
    · exact joined.unheard_source queue decoded assigned

/-- A connection of the sources has an id that was drawn. -/
theorem created_of_source (joined : Joined codec log w) {stream : StreamId}
    {connId socketId : UInt32}
    (opened : .opened stream connId socketId true ∈ sideLog .source log) :
    socketId ∈ createdOf (sideLog .destination log) :=
  joined.assigned_sublist.subset (mem_assignedOf opened)

theorem proper_destination (joined : Joined codec log w) {p : π} {rest : List π}
    (queue : w.link .destination = p :: rest) {chance : Chance}
    (sound : w.Sound log (.deliver .destination chance)) :
    (w.engine .destination).Proper codec (sideLog .destination log) (.peer p chance) where
  apart := by
    have account := joined.account .destination
    intro m decoded
    cases m with
    | request request =>
        intro drawn found
        refine ⟨?_, ?_⟩
        · refine Option.eq_none_iff_forall_ne_some.2 fun socketId known => ?_
          obtain ⟨stream, opened⟩ := account.ledger.mapped known
          cases joined.direction_eq opened
        · rintro name named rfl
          obtain ⟨socketId, direction, opened, -⟩ := account.isolated.owned name named
          obtain rfl := joined.direction_eq opened
          obtain ⟨same, -⟩ := account.ledger.requested opened
          exact sound _ found (same ▸ mem_createdOf.2 ⟨_, _, opened⟩)
    | response response =>
        exact absurd (joined.sent_of_queue queue decoded) (joined.response_not_received response)
    | data d => exact trivial
  steady := trivial
  unheard := by
    refine ⟨fun request decoded drawn found => ?_, fun response decoded => ?_⟩
    · refine heardOf_eq_nil fun m there item named => ?_
      obtain ⟨-, stream, connId, opened⟩ :=
        (joined.account .source).of_item (joined.sent_of_received there) named
      exact sound drawn found (joined.created_of_source opened)
    · exact absurd (joined.sent_of_queue queue decoded) (joined.response_not_received response)

/-- Without packets a side has nothing to be apart from. -/
theorem proper_own {side : Side} {act : EngineAct π} (permits : side.Permits act)
    {log : List EngineEffect} {e : Engine} : e.Proper codec log act := by
  cases act with
  | accept _ | read _ _ _ | abort _ _ | event _ | addSources _ => exact ⟨trivial, trivial, trivial⟩
  | peer _ _ | shutdown | stop => cases side <;> exact permits.elim

theorem moved (joined : Joined codec log w) (lawful : codec.Lawful) {w' : Pair π} {side : Side}
    {act : EngineAct π} {effects : List EngineEffect}
    (proper : (w.engine side).Proper codec (sideLog side log) act)
    (acted : w.Acted codec side act effects w')
    (fresh : side = .destination → (createdOf (sideLog .destination log ++ effects)).Nodup)
    (bare : (w'.engine .destination).state.sources = [])
    (waits : (w'.engine .source).WaitsApart) :
    Joined codec (log ++ effects.map (side, ·)) w' where
  account := by
    intro side'
    rcases side.eq_or_other side' with rfl | rfl
    · rw [sideLog_self]
      exact (joined.account _).step proper acted.moves
    · rw [sideLog_of_ne side.other_ne.symm, acted.other]
      exact joined.account _
  wire := by
    intro side'
    rcases side.eq_or_other side' with rfl | rfl
    · rw [sideLog_of_ne side'.other_ne.symm, sideLog_self, joined.wire, acted.took,
        receivedOf_append, acted.moves.receivedOf_eq, List.append_assoc]
    · have read : ((sentOf effects).map codec.packet).filterMap codec.read = sentOf effects := by
        rw [List.filterMap_map]
        exact (List.filterMap_congr fun m _ => lawful m).trans List.filterMap_some
      have before := joined.wire side.other
      rw [side.other_other] at before ⊢
      rw [sideLog_self, sideLog_of_ne side.other_ne.symm, acted.put, sentOf_append, before,
        List.filterMap_append, read, List.append_assoc]
  unique := by
    by_cases here : side = .destination
    · obtain rfl := here
      rw [sideLog_self]
      exact fresh rfl
    · rw [sideLog_of_ne here]
      exact joined.unique
  bare := bare
  waits := waits

/-- The ids of the destinations stay different. -/
private theorem created_nodup (joined : Joined codec log w) {act : EngineAct π}
    {e : Engine} {effects : List EngineEffect}
    (moves : (w.engine .destination).Moves codec act e effects)
    (sound : ∀ p chance, act = .peer p chance → w.Sound log (.deliver .destination chance)) :
    (createdOf (sideLog .destination log ++ effects)).Nodup := by
  rw [createdOf_append]
  rcases moves.created_cases (joined.account .destination).sending.up with
    none | ⟨p, chance, socketId, same, found, one⟩
  · rw [none, List.append_nil]
    exact joined.unique
  · rw [one]
    exact List.nodup_append.2 ⟨joined.unique, List.nodup_singleton _,
      fun known there _ new => by
        rintro rfl
        obtain rfl := List.mem_singleton.1 new
        exact sound p chance same _ found there⟩

/-- The sources get no requests. -/
private theorem waits_step (joined : Joined codec log w) {w' : Pair π} {side : Side}
    {act : EngineAct π} {effects : List EngineEffect} (acted : w.Acted codec side act effects w')
    (unused : side = .source → (w.engine .source).Unused act)
    (unasked : ∀ p chance request, act = .peer p chance → side = .source →
      codec.read p ≠ some (.request request)) : (w'.engine .source).WaitsApart := by
  cases side with
  | source =>
      refine joined.waits.step (unused rfl) acted.moves fun request received => ?_
      obtain ⟨p, chance, raw, same, -, decoded, -⟩ := acted.moves.of_received received
      exact unasked p chance request same rfl decoded
  | destination =>
      have same : w'.engine .source = w.engine .source := acted.other
      rw [same]
      exact joined.waits

theorem step (joined : Joined codec log w) (lawful : codec.Lawful) {w' : Pair π}
    {pairAct : PairAct π} {effects : List (Side × EngineEffect)} (orderly : w.Orderly log pairAct)
    (stepped : w.step codec pairAct = some (w', effects)) :
    Joined codec (log ++ effects) w' := by
  obtain ⟨sound, unused⟩ := orderly
  obtain ⟨side, act, effects, rfl, acted, origin⟩ := Pair.step_acted sound stepped
  have bare (quiet : side = .destination → ∀ more, act ≠ .addSources more) :
      (w'.engine .destination).state.sources = [] := by
    rcases side.eq_or_other .destination with rfl | here
    · rcases acted.moves.sources_cases with same | ⟨more, added, -⟩
      · exact same.trans joined.bare
      · exact absurd added (quiet rfl more)
    · have other := acted.other
      rw [← here] at other
      rw [other]
      exact joined.bare
  rcases origin with rfl | ⟨p, rest, chance, rfl, queue, rfl⟩
  · refine joined.moved lawful (proper_own sound) acted ?_ (bare ?_) ?_
    · rintro rfl
      refine joined.created_nodup acted.moves ?_
      rintro p chance rfl
      exact sound.elim
    · rintro rfl more rfl
      exact sound
    · refine joined.waits_step acted (fun here => here ▸ unused) fun p chance request same => ?_
      cases same
      cases side <;> exact sound.elim
  · refine joined.moved lawful ?_ acted ?_ (bare nofun) ?_
    · cases side with
      | source => exact joined.proper_source queue chance
      | destination => exact joined.proper_destination queue sound
    · rintro rfl
      refine joined.created_nodup acted.moves ?_
      rintro _ _ same
      cases same
      exact sound
    · refine joined.waits_step acted (fun _ => trivial) fun _ _ request same here decoded => ?_
      cases same
      cases here
      exact joined.request_not_received request (joined.sent_of_queue queue decoded)

end Joined

theorem joined_reaches {codec : Codec π} (lawful : codec.Lawful)
    {sources : List PortForwardSourceRequest} {answer : Side → Bool}
    {log : List (Side × EngineEffect)} {w : Pair π}
    (run : (Pair.system codec sources answer).Reaches (fun log w => w.Orderly log) log w) :
    Joined codec log w := by
  refine run.invariant ?_ fun joined orderly stepped => joined.step lawful orderly stepped
  refine ⟨fun side => ?_, fun _ => rfl, List.nodup_nil, rfl, nofun⟩
  cases side <;> exact Account.start _ _

end Forward

end Et
