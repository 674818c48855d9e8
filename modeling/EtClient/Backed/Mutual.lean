import EtClient.Backed.Backup
import EtClient.Backed.Waiting

/-!
# Two actors that recover from each other

Both ends of a new connection run the exchange of `recover_timed_actor`. The sockets between them
hold a bounded number of bytes in each direction; a byte is written when there is room and read when
there is one, in any order, and each end may give up at any time.

However the bytes move, an end that comes through has exactly the frames that the other end has
written and it has not received. Whether both come through depends on the room. If at least one of
the two catch-ups fits its direction, every run that goes on comes to its end; if neither does,
both ends wait for the other to read, and no run succeeds.
-/

namespace Et

namespace Backed

open Talk

/-- Two actors at the ends of a connection that holds so many bytes in each direction. -/
def recovering (codec : HandshakeCodec) (room back : Nat) (left right : Actor) :
    Transition.System (Pair UInt8 UInt8 String (List Bytes) (List Bytes)) (PairAct String)
      (PairNote UInt8 UInt8 String) :=
  Pair.system room back (ByteTalk.exchange codec left) (ByteTalk.exchange codec right)

section Runs

open PairNote

variable {codec : HandshakeCodec} {room back : Nat} {left right : Actor}
variable {moves : List (PairNote UInt8 UInt8 String)}
variable {p : Pair UInt8 UInt8 String (List Bytes) (List Bytes)}

/-- Both ends are in some phase, wherever they have failed. -/
theorem positions (run : (recovering codec room back left right).Reachable moves p) :
    (∃ t, Position codec left (sentLeft moves) (gotLeft moves) t) ∧
      ∃ t, Position codec right (sentRight moves) (gotRight moves) t := by
  have balanced := Pair.balanced_reachable run
  obtain ⟨t, reach, _⟩ := balanced.left
  obtain ⟨t', reach', _⟩ := balanced.right
  exact ⟨⟨t, position_of_reach reach⟩, ⟨t', position_of_reach reach'⟩⟩

/-- Whoever comes through has got what the other end chose. -/
theorem received_of_run (lawful : codec.Lawful)
    (run : (recovering codec room back left right).Reachable moves p) :
    (∀ entries, p.left = .ret (.ok entries) →
      (∀ theirs, right.catchup left.sequenceHeader = .ok theirs →
        (codec.encodeCatchup theirs).length < 2 ^ 63) →
      right.catchup left.sequenceHeader = .ok ⟨entries⟩) ∧
    (∀ entries, p.right = .ret (.ok entries) →
      (∀ theirs, left.catchup right.sequenceHeader = .ok theirs →
        (codec.encodeCatchup theirs).length < 2 ^ 63) →
      left.catchup right.sequenceHeader = .ok ⟨entries⟩) := by
  have balanced := Pair.balanced_reachable run
  obtain ⟨⟨t, position⟩, ⟨t', position'⟩⟩ := positions run
  constructor
  · intro entries through encodable
    have there := position_of_reach (Stands.reach_ok (through ▸ balanced.left))
    obtain ⟨theirs, chosen, rfl⟩ := received_of_position lawful there position' rfl
      balanced.toRight balanced.toLeft encodable
    exact chosen
  · intro entries through encodable
    have there := position_of_reach (Stands.reach_ok (through ▸ balanced.right))
    obtain ⟨theirs, chosen, rfl⟩ := received_of_position lawful there position rfl
      balanced.toLeft balanced.toRight encodable
    exact chosen

/-- The number of bytes that an end sends. -/
def totalBytes (codec : HandshakeCodec) (s : Actor) (ours : CatchupBuffer) : Nat :=
  (helloFrame codec s).length + (catchupFrame codec ours).length

variable {ours theirs : CatchupBuffer}

/-- A run without a failure is not longer than the bytes of both ends, each written and read. -/
theorem length_le_of_calm (lawful : codec.Lawful)
    (run : (recovering codec room back left right).Reachable moves p) (calm : Calm moves)
    (chosen : left.catchup right.sequenceHeader = .ok ours)
    (chosen' : right.catchup left.sequenceHeader = .ok theirs) :
    moves.length ≤ 2 * (totalBytes codec left ours + totalBytes codec right theirs) := by
  have balanced := Pair.balanced_reachable run
  obtain ⟨⟨t, position⟩, ⟨t', position'⟩⟩ := positions run
  have sent := position.sent_le position' lawful balanced.toLeft chosen
  have sent' := position'.sent_le position lawful balanced.toRight chosen'
  have got := congrArg List.length balanced.toRight
  have got' := congrArg List.length balanced.toLeft
  rw [List.length_append] at got got'
  rw [Pair.length_of_calm calm, totalBytes, totalBytes]
  omega

/-- Both ends have bytes of their catch-up to send. -/
structure Unfinished (codec : HandshakeCodec) (left right : Actor) (ours theirs : CatchupBuffer)
    (moves : List (PairNote UInt8 UInt8 String)) : Prop where
  left : (sentLeft moves).length < totalBytes codec left ours
  right : (sentRight moves).length < totalBytes codec right theirs

/-- Where no direction has room for its catch-up, no step lets an end send the last byte: its peer
has read no more than the first frame. -/
theorem Unfinished.step (unfinished : Unfinished codec left right ours theirs moves)
    (lawful : codec.Lawful) (run : (recovering codec room back left right).Reachable moves p)
    (chosen : left.catchup right.sequenceHeader = .ok ours)
    (chosen' : right.catchup left.sequenceHeader = .ok theirs)
    (narrow : room < (catchupFrame codec ours).length)
    (narrow' : back < (catchupFrame codec theirs).length) {act : PairAct String}
    {p' : Pair UInt8 UInt8 String (List Bytes) (List Bytes)}
    {notes : List (PairNote UInt8 UInt8 String)}
    (stepped : (recovering codec room back left right).step p act = some (p', notes)) :
    Unfinished codec left right ours theirs (moves ++ notes) := by
  have next := run.next act trivial stepped
  have balanced := Pair.balanced_reachable next
  obtain ⟨⟨t, position⟩, ⟨t', position'⟩⟩ := positions next
  have leftNext (same : sentRight (moves ++ notes) = sentRight moves) :
      Unfinished codec left right ours theirs (moves ++ notes) := by
    have right' := unfinished.right
    rw [← same] at right'
    have few := position'.got_le position lawful balanced.toRight chosen' right'
    have flow := congrArg List.length balanced.toRight
    have room := balanced.room
    rw [List.length_append] at flow
    exact ⟨by rw [totalBytes]; omega, right'⟩
  have rightNext (same : sentLeft (moves ++ notes) = sentLeft moves) :
      Unfinished codec left right ours theirs (moves ++ notes) := by
    have left' := unfinished.left
    rw [← same] at left'
    have few := position.got_le position' lawful balanced.toLeft chosen left'
    have flow := congrArg List.length balanced.toLeft
    have room := balanced.back
    rw [List.length_append] at flow
    exact ⟨left', by rw [totalBytes]; omega⟩
  cases act with
  | left =>
      obtain ⟨⟨_, moved, _, _⟩, _, same⟩ := Option.map_eq_some_iff.mp stepped
      cases same
      exact leftNext (append_left moves moved).2.2.1
  | right =>
      obtain ⟨⟨_, moved, _, _⟩, _, same⟩ := Option.map_eq_some_iff.mp stepped
      cases same
      exact rightNext (append_right moves moved).2.2.1
  | leftFails e =>
      obtain ⟨_, _, same⟩ := Option.map_eq_some_iff.mp stepped
      cases same
      exact leftNext (append_failed moves (.leftFailed e) (.inl rfl)).2.2.1
  | rightFails e =>
      obtain ⟨_, _, same⟩ := Option.map_eq_some_iff.mp stepped
      cases same
      exact leftNext (append_failed moves (.rightFailed e) (.inr rfl)).2.2.1

theorem unfinished_reachable (lawful : codec.Lawful)
    (run : (recovering codec room back left right).Reachable moves p)
    (chosen : left.catchup right.sequenceHeader = .ok ours)
    (chosen' : right.catchup left.sequenceHeader = .ok theirs)
    (narrow : room < (catchupFrame codec ours).length)
    (narrow' : back < (catchupFrame codec theirs).length) :
    Unfinished codec left right ours theirs moves := by
  induction run with
  | start =>
      have some := helloFrame_pos codec left
      have some' := helloFrame_pos codec right
      exact ⟨Nat.lt_of_lt_of_le some (Nat.le_add_right _ _),
        Nat.lt_of_lt_of_le some' (Nat.le_add_right _ _)⟩
  | next act run _ stepped ih => exact ih.step lawful run chosen chosen' narrow narrow' stepped

/-- Where nobody can move, both ends are through. -/
theorem through_of_run (lawful : codec.Lawful)
    (run : (recovering codec room back left right).Reachable moves p) (calm : Calm moves)
    (stuck : p.Stuck room back)
    (hello : (helloFrame codec left).length ≤ room)
    (hello' : (helloFrame codec right).length ≤ back)
    (chosen : left.catchup right.sequenceHeader = .ok ours)
    (chosen' : right.catchup left.sequenceHeader = .ok theirs)
    (fits : (codec.encodeCatchup ours).length ≤ defaultMaxProtoLength)
    (fits' : (codec.encodeCatchup theirs).length ≤ defaultMaxProtoLength)
    (roomy : (catchupFrame codec ours).length ≤ room ∨
      (catchupFrame codec theirs).length ≤ back) :
    p.left = .ret (.ok theirs.buffer) ∧ p.right = .ret (.ok ours.buffer) := by
  have balanced := Pair.balanced_reachable run
  have position := position_of_reach (balanced.left.reach fun e => (calm e).1)
  have position' := position_of_reach (balanced.right.reach fun e => (calm e).2)
  exact through_of_stuck lawful position position' balanced.toRight balanced.toLeft stuck.1 stuck.2
    hello hello' chosen chosen' fits fits' roomy

end Runs

section Sized

open PairNote

variable {codec : HandshakeCodec} {room back : Nat} {left right : Actor}
variable {moves : List (PairNote UInt8 UInt8 String)}
variable {p : Pair UInt8 UInt8 String (List Bytes) (List Bytes)} {ours theirs : CatchupBuffer}

theorem length_helloFrame (sized : codec.Sized) (s : Actor) :
    (helloFrame codec s).length ≤ 19 := by
  have short := sized.sequenceLen s.sequenceHeader
  rw [helloFrame, length_protoFrame]
  omega

theorem length_catchupFrame (sized : codec.Sized) (encodable : ours.encodedLen ≤ maxMessageBytes) :
    (catchupFrame codec ours).length = 8 + ours.encodedLen := by
  rw [catchupFrame, length_protoFrame, sized.catchupLen ours encodable]

/-- A run in which both ends come through. -/
theorem exists_through (sized : codec.Sized)
    (chosen : left.catchup right.sequenceHeader = .ok ours)
    (chosen' : right.catchup left.sequenceHeader = .ok theirs)
    (fits : ours.encodedLen + 8 ≤ 100) (fits' : theirs.encodedLen + 8 ≤ 100) :
    ∃ moves p, (recovering codec 100 100 left right).Reachable moves p ∧
      p.left = .ret (.ok theirs.buffer) ∧ p.right = .ret (.ok ours.buffer) := by
  have short := length_helloFrame sized left
  have short' := length_helloFrame sized right
  have cap : 100 ≤ defaultMaxProtoLength := by decide
  have limit : 100 ≤ maxMessageBytes := by decide
  obtain ⟨moves, p, run, calm, stuck⟩ := Pair.exists_stuck fun moves p run calm =>
    length_le_of_calm sized.toLawful run calm chosen chosen'
  refine ⟨moves, p, run, through_of_run sized.toLawful run calm stuck (by omega) (by omega) chosen
    chosen' ?_ ?_ (.inl ?_)⟩
  · rw [sized.catchupLen _ (by omega)]
    omega
  · rw [sized.catchupLen _ (by omega)]
    omega
  · rw [length_catchupFrame sized (by omega)]
    omega

/-- A catch-up for the number of another actor is the span that it has not received. -/
theorem missing_of_catchup {box : SecretBox} {cfg : BackedConfig} {now : Instant}
    {log : List Effect} {task : Task} (run : (Task.system box cfg now).Reachable log task)
    {peer : Actor} (narrow : peer.readerSeq < 2 ^ 31) {entries : List Bytes}
    (chosen : task.actor.catchup peer.sequenceHeader = .ok ⟨entries⟩) :
    entries = (framesOf log).drop peer.readerSeq ∧
      peer.readerSeq + entries.length = task.actor.writerSeq := by
  have window := backupOf_reachable run
  obtain ⟨k, value, bound, span⟩ := window.of_catchup_eq_ok chosen
  have number : k = peer.readerSeq :=
    Int.ofNat_inj.mp (value.symm.trans (SequenceHeader.value_of narrow))
  dsimp only at span
  rw [span, number, window.seq, List.length_drop]
  exact ⟨rfl, by omega⟩

/-- Two actors that recover from each other, over sockets that hold any number of bytes, with
their bytes moving in any order and either of them failing at any time: an end that comes through
has exactly the frames that the other end has written and it has not received. They are what its
`exchange` returns on any stream that takes the bytes it has sent and brings those it has got. -/
theorem exchange_hands_over_what_is_missing {box box' : SecretBox} {cfg cfg' : BackedConfig}
    {now now' : Instant} {log log' : List Effect} {task task' : Task} (lawful : codec.Lawful)
    (leftRun : (Task.system box cfg now).Reachable log task)
    (rightRun : (Task.system box' cfg' now').Reachable log' task')
    (narrow : task.actor.readerSeq < 2 ^ 31) (narrow' : task'.actor.readerSeq < 2 ^ 31)
    (encodable : ∀ ours, task.actor.catchup task'.actor.sequenceHeader = .ok ours →
      (codec.encodeCatchup ours).length < 2 ^ 63)
    (encodable' : ∀ theirs, task'.actor.catchup task.actor.sequenceHeader = .ok theirs →
      (codec.encodeCatchup theirs).length < 2 ^ 63)
    (run : (recovering codec room back task.actor task'.actor).Reachable moves p) :
    (∀ entries, p.left = .ret (.ok entries) →
      entries = (framesOf log').drop task.actor.readerSeq ∧
      task.actor.readerSeq + entries.length = task'.actor.writerSeq ∧
      ∀ io : Stream, io.Carries (sentLeft moves) (gotLeft moves) →
        codec.exchange task.actor io = .ok entries) ∧
    (∀ entries, p.right = .ret (.ok entries) →
      entries = (framesOf log).drop task'.actor.readerSeq ∧
      task'.actor.readerSeq + entries.length = task.actor.writerSeq ∧
      ∀ io : Stream, io.Carries (sentRight moves) (gotRight moves) →
        codec.exchange task'.actor io = .ok entries) := by
  have balanced := Pair.balanced_reachable run
  obtain ⟨leftGets, rightGets⟩ := received_of_run lawful run
  constructor
  · intro entries through
    obtain ⟨missing, count⟩ := missing_of_catchup rightRun narrow
      (leftGets entries through encodable')
    exact ⟨missing, count, fun io carries =>
      exchange_of_reach (Stands.reach_ok (through ▸ balanced.left)) carries⟩
  · intro entries through
    obtain ⟨missing, count⟩ := missing_of_catchup leftRun narrow'
      (rightGets entries through encodable)
    exact ⟨missing, count, fun io carries =>
      exchange_of_reach (Stands.reach_ok (through ▸ balanced.right)) carries⟩

/-- A client that has received nothing. -/
def idleClient : Task := Task.spawn (.client testKey none) 0 0

/-- A server that has written one packet. -/
theorem exists_busy : ∃ log task,
    (Task.system .naming (.server testKey) 0).Reachable log task ∧ task.actor.readerSeq = 0 ∧
    task.actor.catchup idleClient.actor.sequenceHeader = .ok ⟨framesOf log⟩ ∧
    idleClient.actor.catchup task.actor.sequenceHeader = .ok ⟨[]⟩ ∧
    (⟨framesOf log⟩ : CatchupBuffer).encodedLen ≤ 92 :=
  ⟨_, _, .execute .start [.write 0 true terminalBuffer [1]] rfl, rfl, rfl, rfl, by decide⟩

/-- The client gets the packet, also from its `exchange` on a stream with the bytes of the run. -/
theorem exchange_hands_over_what_is_missing_one_packet :
    ∃ log task moves p entries io,
      (Task.system .naming (.server testKey) 0).Reachable log task ∧
      (recovering .records 100 100 idleClient.actor task.actor).Reachable moves p ∧
      p.left = .ret (.ok entries) ∧ entries = framesOf log ∧
      entries.length = task.actor.writerSeq ∧
      io.incoming = gotLeft moves ∧
      HandshakeCodec.records.exchange idleClient.actor io = .ok entries := by
  obtain ⟨log, task, busy, unread, asked, empty, small⟩ := exists_busy
  have sized := HandshakeCodec.sized_records
  obtain ⟨moves, p, run, through, _⟩ := exists_through sized empty asked (by decide) (by omega)
  have idle : (Task.system .naming (.client testKey none) 0).Reachable [] idleClient := .start
  have received := (exchange_hands_over_what_is_missing sized.toLawful idle busy (by decide)
    (by omega)
    (fun ours chosen => by
      cases empty.symm.trans chosen
      decide)
    (fun theirs chosen => by
      cases asked.symm.trans chosen
      rw [sized.catchupLen _ (small.trans (by decide))]
      omega) run).1 _ through
  obtain ⟨all, count, same⟩ := received
  have carries : Stream.Carries
      ⟨⟨[], (sentLeft moves).length, earlyEof⟩, gotLeft moves, earlyEof, []⟩
      (sentLeft moves) (gotLeft moves) := ⟨rfl, Nat.le_refl _, List.prefix_refl _⟩
  exact ⟨log, task, moves, p, _, _, busy, run, through, all, (Nat.zero_add _).symm.trans count, rfl,
    same _ carries⟩

/-- When one of the two catch-ups fits into the sockets of its direction, both ends come through:
as long as nobody gives up, a run has at most so many steps, and it does not stop before both
have their frames. -/
theorem exchange_comes_through (sized : codec.Sized)
    (chosen : left.catchup right.sequenceHeader = .ok ours)
    (chosen' : right.catchup left.sequenceHeader = .ok theirs)
    (fits : ours.encodedLen ≤ defaultMaxProtoLength)
    (fits' : theirs.encodedLen ≤ defaultMaxProtoLength) (hello : 19 ≤ room) (hello' : 19 ≤ back)
    (roomy : 8 + ours.encodedLen ≤ room ∨ 8 + theirs.encodedLen ≤ back) :
    ∀ moves p, (recovering codec room back left right).Reachable moves p → Calm moves →
      moves.length ≤ 2 * (ours.encodedLen + theirs.encodedLen + 54) ∧
      (p.Stuck room back →
        p.left = .ret (.ok theirs.buffer) ∧ p.right = .ret (.ok ours.buffer)) := by
  intro moves p run calm
  have cap : defaultMaxProtoLength ≤ maxMessageBytes := by decide
  have frame := length_catchupFrame sized (fits.trans cap)
  have frame' := length_catchupFrame sized (fits'.trans cap)
  have short := length_helloFrame sized left
  have short' := length_helloFrame sized right
  rw [← sized.catchupLen _ (fits.trans cap)] at fits
  rw [← sized.catchupLen _ (fits'.trans cap)] at fits'
  rw [← frame, ← frame'] at roomy
  refine ⟨?_, fun stuck => through_of_run sized.toLawful run calm stuck (by omega) (by omega) chosen
    chosen' fits fits' roomy⟩
  have bound := length_le_of_calm sized.toLawful run calm chosen chosen'
  rw [totalBytes, totalBytes, frame, frame'] at bound
  omega

/-- The packet of the server fits, and the client has nothing to send. -/
theorem exchange_comes_through_one_packet :
    ∃ log task, (Task.system .naming (.server testKey) 0).Reachable log task ∧
      ∀ moves p, (recovering .records 19 100 idleClient.actor task.actor).Reachable moves p →
        Calm moves → p.Stuck 19 100 →
        p.left = .ret (.ok (framesOf log)) ∧ p.right = .ret (.ok []) := by
  obtain ⟨log, task, busy, unread, asked, empty, small⟩ := exists_busy
  have cap : 92 ≤ defaultMaxProtoLength := by decide
  have through := exchange_comes_through HandshakeCodec.sized_records empty asked (by decide)
    (by omega) (Nat.le_refl 19) (show 19 ≤ 100 by decide) (.inr (by omega))
  exact ⟨log, task, busy, fun moves p run calm => (through moves p run calm).2⟩

end Sized

end Backed

end Et
