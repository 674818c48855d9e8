import EtClient.Forward.Protobuf
import EtClient.Forward.Tunnel

/-!
# The frames as bytes

Two engines whose frames are packets run as two engines that hand each other the messages
themselves: the packets on the links are the encodings of the messages, and whatever happens at a
side over bytes happens over messages, and the other way round. The one condition is that every
frame can be encoded at all, which protobuf refuses for more than 2 GiB.
-/

namespace Et

namespace Forward

variable {π : Type}

/-- An act of a side that handles no packet is one over any packets. -/
theorem Side.Permits.transfer {π' : Type} (codec : Codec π) (codec' : Codec π') {side : Side}
    {act : EngineAct π} (permitted : side.Permits act) :
    ∃ act' : EngineAct π', side.Permits act' ∧
      ∀ e : Engine, e.step codec act = e.step codec' act' := by
  cases act with
  | accept sourceIdx => exact ⟨.accept sourceIdx, by cases side <;> trivial, fun _ => rfl⟩
  | read connId stream result =>
      exact ⟨.read connId stream result, by cases side <;> trivial, fun _ => rfl⟩
  | abort connId stream => exact ⟨.abort connId stream, by cases side <;> trivial, fun _ => rfl⟩
  | event sends => exact ⟨.event sends, by cases side <;> trivial, fun _ => rfl⟩
  | addSources sources =>
      cases side with
      | source => exact ⟨.addSources sources, trivial, fun _ => rfl⟩
      | destination => exact permitted.elim
  | peer _ _ | shutdown | stop => cases side <;> exact permitted.elim

namespace Pair

/-- The same engines, with the packets of the messages on the links. -/
def encoded (codec : Codec π) (v : Pair Message) : Pair π where
  engine := v.engine
  link side := (v.link side).map codec.packet

@[simp] theorem encoded_engine (codec : Codec π) (v : Pair Message) :
    (v.encoded codec).engine = v.engine := rfl

@[simp] theorem encoded_link (codec : Codec π) (v : Pair Message) (side : Side) :
    (v.encoded codec).link side = (v.link side).map codec.packet := rfl

/-- A side that acts alike over packets and over messages puts the packets of its messages on the
link. -/
theorem advance_encoded {codec : Codec π} {v : Pair Message} {side : Side} {act : EngineAct π}
    {act' : EngineAct Message}
    (alike : (v.engine side).step codec act = (v.engine side).step .plain act') :
    (v.encoded codec).advance codec side act =
      (v.advance .plain side act').map fun (v', log) => (v'.encoded codec, log) := by
  have put (frames : List Message) :
      Function.update (v.encoded codec).link side.other
          ((v.encoded codec).link side.other ++ frames.map codec.packet) =
        fun side' => (Function.update v.link side.other
          (v.link side.other ++ frames) side').map codec.packet := by
    funext side'
    rw [Function.apply_update fun _ => List.map codec.packet, List.map_append]
    rfl
  simp only [advance, Option.map_map, Function.comp_def]
  rw [encoded_engine, alike]
  refine congrArg (Option.map · _) (funext fun stepped => ?_)
  rw [put]
  simp only [Codec.plain, List.map_id]
  rfl

/-- A packet that is read as its message is handled as the message. -/
theorem deliver_encoded {codec : Codec π} {v : Pair Message} {side : Side} (chance : Chance)
    (carried : ∀ m ∈ v.link side, codec.read (codec.packet m) = some m) :
    (v.encoded codec).step codec (.deliver side chance) =
      (v.step .plain (.deliver side chance)).map fun (v', log) => (v'.encoded codec, log) := by
  cases queue : v.link side with
  | nil => simp [step, encoded, queue]
  | cons m rest =>
      have read := carried m (by simp [queue])
      have taken :
          Pair.mk v.engine (Function.update (v.encoded codec).link side (rest.map codec.packet)) =
            (Pair.mk v.engine (Function.update v.link side rest)).encoded codec := by
        refine congrArg (Pair.mk v.engine) (funext fun side' => ?_)
        rw [Function.apply_update fun _ => List.map codec.packet]
        rfl
      have handled : (v.engine side).step codec (.peer (codec.packet m) chance) =
          (v.engine side).step .plain (.peer m chance) := by
        simp only [Engine.step, read, Codec.plain]
      have packed : (v.encoded codec).link side = codec.packet m :: rest.map codec.packet := by
        rw [encoded_link, queue, List.map_cons]
      simp only [step, packed, queue, encoded_engine, taken]
      exact advance_encoded handled

theorem sound_encoded {codec : Codec π} {v : Pair Message} {log : List (Side × EngineEffect)}
    {side : Side} {chance : Chance} :
    (v.encoded codec).Sound log (.deliver side chance) ↔ v.Sound log (.deliver side chance) := by
  cases side <;> exact Iff.rfl

end Pair

/-- The messages that are on their way have been sent. -/
def Sent (log : List (Side × EngineEffect)) (v : Pair Message) : Prop :=
  ∀ side, ∀ m ∈ v.link side, m ∈ sentOf (log.map Prod.snd)

/-- A step of a side takes at most a message from its link and puts what it sends on the other. -/
theorem Sent.advance {log effects : List (Side × EngineEffect)} {v v' : Pair Message} {side : Side}
    {act : EngineAct Message} (sent : Sent log v)
    (stepped : v.advance .plain side act = some (v', effects)) : Sent (log ++ effects) v' := by
  obtain ⟨⟨e, sideEffects⟩, _, done⟩ := Option.map_eq_some_iff.1 stepped
  cases done
  have same : (sideEffects.map (side, ·)).map Prod.snd = sideEffects := by
    rw [List.map_map]
    exact List.map_id _
  intro side' m there
  rw [List.map_append, same, sentOf_append, List.mem_append]
  dsimp only at there
  by_cases here : side' = side.other
  · subst here
    simp only [Function.update_self, Codec.plain, List.map_id, List.mem_append] at there
    exact there.imp_left (sent _ m)
  · rw [Function.update_of_ne here] at there
    exact .inl (sent side' m there)

theorem Sent.step {log effects : List (Side × EngineEffect)} {v v' : Pair Message}
    {act : PairAct Message} (sent : Sent log v)
    (stepped : v.step .plain act = some (v', effects)) : Sent (log ++ effects) v' := by
  cases act with
  | own side act => exact sent.advance stepped
  | deliver side chance =>
      simp only [Pair.step] at stepped
      split at stepped
      · cases stepped
      · rename_i m rest queue
        refine Sent.advance (v := ⟨v.engine, Function.update v.link side rest⟩) ?_ stepped
        intro side' m' there
        dsimp only at there
        by_cases here : side' = side
        · subst here
          rw [Function.update_self] at there
          exact sent side' m' (queue ▸ List.mem_cons_of_mem _ there)
        · rw [Function.update_of_ne here] at there
          exact sent side' m' there

section Runs

variable {codec : Codec π} {sources : List PortForwardSourceRequest} {answer : Side → Bool}
  {log : List (Side × EngineEffect)}

/-- Every frame of a history is read as what it was made from. -/
def Carried (codec : Codec π) (log : List (Side × EngineEffect)) : Prop :=
  ∀ m ∈ sentOf (log.map Prod.snd), codec.read (codec.packet m) = some m

theorem sent_reaches {v : Pair Message} {allowed : List (Side × EngineEffect) → Pair Message →
    PairAct Message → Prop} (run : (Pair.system .plain sources answer).Reaches allowed log v) :
    Sent log v :=
  run.invariant (P := Sent) (fun _ _ there => by cases there) fun sent _ => sent.step

theorem Carried.of_append {more : List (Side × EngineEffect)}
    (carried : Carried codec (log ++ more)) : Carried codec log := by
  intro m there
  apply carried m
  rw [List.map_append, sentOf_append]
  exact List.mem_append_left _ there

/-- What two engines do over messages they do over packets. -/
theorem Pair.encoded_reaches {v : Pair Message}
    (run : (Pair.system .plain sources answer).Reaches (fun log v => v.Sound log) log v)
    (carried : Carried codec log) :
    (Pair.system codec sources answer).Reaches (fun log w => w.Sound log) log
      (v.encoded codec) := by
  induction run with
  | start => exact .start
  | @next log effects v v' act run sound stepped ih =>
      have before := ih carried.of_append
      cases act with
      | own side act =>
          obtain ⟨act', permitted, alike⟩ := Side.Permits.transfer .plain codec sound
          refine .next (.own side act') before permitted ?_
          have gave := advance_encoded (alike (v.engine side)).symm
          rw [show v.advance .plain side act = some (v', effects) from stepped] at gave
          exact gave
      | deliver side chance =>
          have read (m : Message) (there : m ∈ v.link side) :=
            carried.of_append m (sent_reaches run side m there)
          have gave := deliver_encoded chance read
          rw [show v.step .plain (.deliver side chance) = some (v', effects) from stepped] at gave
          exact .next (.deliver side chance) before (sound_encoded.2 sound) gave

/-- What two engines do over packets they do over messages. -/
theorem Pair.exists_of_reaches {w : Pair π}
    (run : (Pair.system codec sources answer).Reaches (fun log w => w.Sound log) log w)
    (carried : Carried codec log) :
    ∃ v, (Pair.system .plain sources answer).Reaches (fun log v => v.Sound log) log v ∧
      w = v.encoded codec := by
  induction run with
  | start => exact ⟨_, .start, rfl⟩
  | @next log effects w w' act run sound stepped ih =>
      obtain ⟨v, before, rfl⟩ := ih carried.of_append
      have moved (act' : PairAct Message) (permitted : v.Sound log act')
          (gave : (v.encoded codec).step codec act =
            (v.step .plain act').map fun (v', log) => (v'.encoded codec, log)) :
          ∃ v', (Pair.system .plain sources answer).Reaches (fun log v => v.Sound log)
            (log ++ effects) v' ∧ w' = v'.encoded codec := by
        obtain ⟨⟨v', _⟩, stepped', same⟩ := Option.map_eq_some_iff.1 (gave.symm.trans stepped)
        obtain ⟨rfl, rfl⟩ := Prod.mk.inj same
        exact ⟨v', .next act' before permitted stepped', rfl⟩
      cases act with
      | own side act =>
          obtain ⟨act', permitted, alike⟩ := Side.Permits.transfer codec .plain sound
          exact moved (.own side act') permitted (advance_encoded (alike _))
      | deliver side chance =>
          refine moved (.deliver side chance) (sound_encoded.1 sound) (deliver_encoded chance ?_)
          exact fun m there => carried.of_append m (sent_reaches before side m there)

end Runs

/-- Two engines over bytes have exactly the runs of two engines over messages, as long as no frame
is too large to encode: the same things happen at each side, and the packets on the links are those
of the messages. -/
theorem frames_carry_messages {proto : Protobuf} (lawful : proto.Lawful)
    {sources : List PortForwardSourceRequest} {answer : Side → Bool}
    {log : List (Side × EngineEffect)} {w : Pair Packet}
    (fits : ∀ m ∈ sentOf (log.map Prod.snd), (proto.encodeToVec m).length ≤ maxMessageBytes) :
    (Pair.system proto.codec sources answer).Reaches (fun log w => w.Sound log) log w ↔
      ∃ v, (Pair.system .plain sources answer).Reaches (fun log v => v.Sound log) log v ∧
        w = v.encoded proto.codec := by
  have carried : Carried proto.codec log := fun m sent => lawful.read_packet (fits m sent)
  constructor
  · intro run
    exact Pair.exists_of_reaches run carried
  · rintro ⟨v, run, rfl⟩
    exact Pair.encoded_reaches run carried

/-- A tunnel is opened and carries a byte. -/
theorem frames_carry_messages_opening :
    ∃ log v, (Pair.system .plain oneSource fun _ => true).Reaches (fun log v => v.Sound log) log v ∧
      (v.link .destination).length = 1 ∧
      (Pair.system Protobuf.records.codec oneSource fun _ => true).Reaches
        (fun log w => w.Sound log) log (v.encoded Protobuf.records.codec) := by
  obtain ⟨log, v, run, queue, fits⟩ : ∃ log v,
      (Pair.system .plain oneSource fun _ => true).Reaches (fun log v => v.Sound log) log v ∧
      (v.link .destination).length = 1 ∧
      ∀ m ∈ sentOf (log.map Prod.snd),
        (Protobuf.records.encodeToVec m).length ≤ maxMessageBytes :=
    ⟨_, _, .execute .start
      [.own .source (.accept 0), .own .source (.event [true]),
        .deliver .destination ⟨[true], true, [7], true⟩,
        .deliver .source ⟨[], true, [], true⟩,
        .own .source (.read 1 0 (.ok [42])), .own .source (.event [true])] rfl,
      rfl, by decide +kernel⟩
  exact ⟨log, v, run, queue, (frames_carry_messages Protobuf.lawful_records fits).2 ⟨v, run, rfl⟩⟩

end Forward

end Et
