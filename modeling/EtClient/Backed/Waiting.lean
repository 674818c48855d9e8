import EtClient.Backed.Phases

/-!
# Ends that wait for each other

Each end of a recover writes its whole catch-up before it reads the other one. Two ends of which
none can move are both through, or both write into a full pipe. An end that has bytes of its
catch-up left has read no more than the first frame of its peer.
-/

namespace Et

namespace Backed

open Talk

section Waiting

variable {codec : HandshakeCodec} {s peer : Actor} {sent got sent' got' onWay onWay' : Bytes}
variable {t t' : ByteTalk (List Bytes)} {ours theirs : CatchupBuffer}

/-- The catch-up of an end is the one for the number that its peer has sent. -/
theorem Position.asked (position' : Position codec peer sent' got' t') (lawful : codec.Lawful)
    {body behind : Bytes} {given : CatchupBuffer} (asks : Asks codec s body given)
    (flow' : sent' = protoFrame body ++ behind ++ onWay')
    (chosen : s.catchup peer.sequenceHeader = .ok ours) :
    protoFrame body = helloFrame codec peer ∧ given = ours := by
  rw [List.append_assoc] at flow'
  obtain ⟨rfl, _⟩ := position'.hello lawful flow' asks.short
  cases (asks.catchup lawful).symm.trans chosen
  exact ⟨rfl, rfl⟩

/-- All that an end sends. -/
theorem Position.sent_le (position : Position codec s sent got t)
    (position' : Position codec peer sent' got' t') (lawful : codec.Lawful)
    (flow' : sent' = got ++ onWay') (chosen : s.catchup peer.sequenceHeader = .ok ours) :
    sent.length ≤ (helloFrame codec s).length + (catchupFrame codec ours).length := by
  cases position with
  | writesSequence _ sends _ =>
      have length := congrArg List.length sends
      rw [List.length_append] at length
      omega
  | readsSequence _ => exact Nat.le_add_right _ _
  | refuses _ _ _ => exact Nat.le_add_right _ _
  | writesCatchup asks _ sends _ =>
      obtain ⟨_, rfl⟩ := position'.asked lawful asks (flow'.trans (by rw [List.append_nil])) chosen
      have length := congrArg List.length sends
      rw [List.length_append] at length ⊢
      omega
  | readsCatchup asks _ =>
      obtain ⟨_, rfl⟩ := position'.asked lawful asks flow' chosen
      rw [List.length_append]
  | ended asks _ =>
      obtain ⟨_, rfl⟩ := position'.asked lawful asks flow' chosen
      rw [List.length_append]

/-- An end that is through has sent everything. -/
theorem Position.length_of_through (position : Position codec s sent got t)
    (position' : Position codec peer sent' got' t') (lawful : codec.Lawful)
    (flow' : sent' = got ++ onWay') (chosen : s.catchup peer.sequenceHeader = .ok ours)
    {entries : List Bytes} (through : t = .ret (.ok entries)) :
    sent.length = (helloFrame codec s).length + (catchupFrame codec ours).length := by
  obtain ⟨body, body', given, asks, _, rfl, rfl, _⟩ := position.of_through through
  obtain ⟨_, rfl⟩ := position'.asked lawful asks flow' chosen
  exact List.length_append

/-- An end is past its first frames: it writes its catch-up, reads that of the peer, or is
through. -/
inductive Late (codec : HandshakeCodec) (s peer : Actor) (ours : CatchupBuffer) :
    Bytes → Bytes → ByteTalk (List Bytes) → Prop
  | writes {part unsent : Bytes} {t : ByteTalk (List Bytes)} : unsent ≠ [] →
      part ++ unsent = catchupFrame codec ours → t.Writes →
      Late codec s peer ours (helloFrame codec s ++ part) (helloFrame codec peer) t
  | reads {part : Bytes} {t : ByteTalk (List Bytes)} :
      t.Reads ∧ NoFrame defaultMaxProtoLength part ∨ t.Fails ∧ Refused defaultMaxProtoLength part →
      Late codec s peer ours (helloFrame codec s ++ catchupFrame codec ours)
        (helloFrame codec peer ++ part) t
  | ended {body : Bytes} : body.length ≤ defaultMaxProtoLength →
      Late codec s peer ours (helloFrame codec s ++ catchupFrame codec ours)
        (helloFrame codec peer ++ protoFrame body) (.ret (received codec body))

/-- An end that has sent its first frame, and has nothing to read although the peer has sent its
own, is past them. -/
theorem Position.late (position : Position codec s sent got t)
    (position' : Position codec peer sent' got' t') (lawful : codec.Lawful)
    (flow' : sent' = got ++ onWay') (chosen : s.catchup peer.sequenceHeader = .ok ours)
    {more more' : Bytes} (begun : sent = helloFrame codec s ++ more)
    (begun' : sent' = helloFrame codec peer ++ more') (waits : t.Reads → onWay' = []) :
    Late codec s peer ours sent got t := by
  have short := lawful.short peer.sequenceHeader
  cases position with
  | writesSequence some sends _ =>
      rw [begun, List.append_assoc] at sends
      have none := List.append_cancel_left (sends.trans (List.append_nil _).symm)
      exact absurd (List.append_eq_nil_iff.mp none).2 some
  | readsSequence waiting =>
      obtain ⟨reads, noFrame⟩ | ⟨_, refused⟩ := waiting
      · rw [waits reads, List.append_nil] at flow'
        have long := noFrame _ _ (flow'.symm.trans begun')
        omega
      · have long := refused onWay' _ _ (flow'.symm.trans begun')
        omega
  | @refuses body _ short' refused _ =>
      obtain ⟨rfl, _⟩ := position'.hello lawful flow' short'
      exact absurd ⟨short', _, lawful.sequence _, chosen⟩ (refused ours)
  | writesCatchup asks some sends writes =>
      obtain ⟨same, rfl⟩ :=
        position'.asked lawful asks (flow'.trans (by rw [List.append_nil])) chosen
      rw [same]
      exact .writes some sends writes
  | readsCatchup asks waiting =>
      obtain ⟨same, rfl⟩ := position'.asked lawful asks flow' chosen
      rw [same]
      exact .reads waiting
  | ended asks short' =>
      obtain ⟨same, rfl⟩ := position'.asked lawful asks flow' chosen
      rw [same]
      exact .ended short'

namespace Late

/-- What an end past its first frame has sent of its catch-up. -/
theorem sends (late : Late codec s peer ours sent got t) :
    ∃ part unsent, sent = helloFrame codec s ++ part ∧ part ++ unsent = catchupFrame codec ours ∧
      (unsent ≠ [] → t.Writes) := by
  cases late with
  | writes some sends writes => exact ⟨_, _, rfl, sends, fun _ => writes⟩
  | reads _ => exact ⟨_, [], rfl, List.append_nil _, (absurd rfl ·)⟩
  | ended _ => exact ⟨_, [], rfl, List.append_nil _, (absurd rfl ·)⟩

/-- When nobody can move, an end that is past its first frame writes or is through: it does not
wait for a catch-up that fits its frame. -/
theorem writes_or_ended (late : Late codec s peer ours sent got t)
    (late' : Late codec peer s theirs sent' got' t') (lawful : codec.Lawful)
    (flow' : sent' = got ++ onWay')
    (fits : (codec.encodeCatchup theirs).length ≤ defaultMaxProtoLength)
    (empty : t.Reads → onWay' = []) (full : t'.Writes → onWay' ≠ []) :
    (∃ part unsent, unsent ≠ [] ∧ part ++ unsent = catchupFrame codec ours ∧ t.Writes ∧
        sent = helloFrame codec s ++ part ∧ got = helloFrame codec peer) ∨
      t = .ret (.ok theirs.buffer) ∧
        got = helloFrame codec peer ++ catchupFrame codec theirs := by
  obtain ⟨part', unsent', sent_eq, sends', writes'⟩ := late'.sends
  have small : (codec.encodeCatchup theirs).length < 2 ^ 63 := Nat.lt_of_le_of_lt fits (by decide)
  cases late with
  | writes some sends writes => exact .inl ⟨_, _, some, sends, writes, rfl, rfl⟩
  | @reads part _ waiting =>
      -- What the peer has sent behind its first frame is this part and what is on its way.
      have flow := flow'.symm.trans sent_eq
      rw [List.append_assoc] at flow
      have behind := List.append_cancel_left flow
      rw [← behind, List.append_assoc] at sends'
      have framed := sends'.trans (List.append_nil (catchupFrame codec theirs)).symm
      obtain ⟨reads, noFrame⟩ | ⟨_, refused⟩ := waiting
      · have none := empty reads
        have all : unsent' = [] := by
          by_contra some
          exact full (writes' some) none
        rw [none, all, List.append_nil, List.append_nil] at framed
        have long := noFrame _ _ framed
        omega
      · have long := refused _ _ _ framed
        omega
  | @ended body short =>
      have flow := flow'.symm.trans sent_eq
      rw [List.append_assoc] at flow
      have behind := List.append_cancel_left flow
      rw [← behind, List.append_assoc] at sends'
      have framed := sends'.trans (List.append_nil (catchupFrame codec theirs)).symm
      obtain ⟨rfl, _⟩ := protoFrame_inj (Nat.lt_of_le_of_lt short (by decide)) small framed
      refine .inr ⟨?_, rfl⟩
      rw [received, lawful.catchup theirs short]
      rfl

end Late

/-- An end that waits to write has sent its first frame when that fits the pipe. -/
theorem Position.begun (position : Position codec s sent got t) (flow : sent = got' ++ onWay)
    {room : Nat} (full : t.Writes → room ≤ onWay.length)
    (fits : (helloFrame codec s).length ≤ room) : ∃ more, sent = helloFrame codec s ++ more := by
  cases position with
  | writesSequence some sends writes =>
      have length := congrArg List.length sends
      rw [flow, List.length_append, List.length_append] at length
      have positive := List.length_pos_iff.mpr some
      have behind := full writes
      omega
  | readsSequence _ => exact ⟨[], (List.append_nil _).symm⟩
  | refuses _ _ _ => exact ⟨[], (List.append_nil _).symm⟩
  | writesCatchup _ _ _ _ => exact ⟨_, rfl⟩
  | readsCatchup _ _ => exact ⟨_, rfl⟩
  | ended _ _ => exact ⟨_, rfl⟩

theorem helloFrame_pos (codec : HandshakeCodec) (s : Actor) : 0 < (helloFrame codec s).length := by
  rw [helloFrame, length_protoFrame]
  omega

/-- A peer has not got more of a catch-up than was sent of it. -/
theorem unsent_of_got {hello part unsent frame : Bytes} (sends : part ++ unsent = frame)
    (flow : hello ++ part = hello ++ frame ++ onWay) : unsent = [] := by
  rw [List.append_assoc] at flow
  have length := congrArg List.length sends
  rw [List.append_cancel_left flow, List.length_append, List.length_append] at length
  exact List.eq_nil_of_length_eq_zero (by omega)

/-- Two ends of which none can move are through, when the catch-up of one of them fits its
direction. -/
theorem through_of_stuck (lawful : codec.Lawful) (position : Position codec s sent got t)
    (position' : Position codec peer sent' got' t') (flow : sent = got' ++ onWay)
    (flow' : sent' = got ++ onWay') {room back : Nat}
    (stuck : t.advance room onWay' onWay = none) (stuck' : t'.advance back onWay onWay' = none)
    (hello : (helloFrame codec s).length ≤ room) (hello' : (helloFrame codec peer).length ≤ back)
    (chosen : s.catchup peer.sequenceHeader = .ok ours)
    (chosen' : peer.catchup s.sequenceHeader = .ok theirs)
    (fits : (codec.encodeCatchup ours).length ≤ defaultMaxProtoLength)
    (fits' : (codec.encodeCatchup theirs).length ≤ defaultMaxProtoLength)
    (roomy : (catchupFrame codec ours).length ≤ room ∨ (catchupFrame codec theirs).length ≤ back) :
    t = .ret (.ok theirs.buffer) ∧ t' = .ret (.ok ours.buffer) := by
  have full (writes : t.Writes) : room ≤ onWay.length := writes.full stuck
  have full' (writes : t'.Writes) : back ≤ onWay'.length := writes.full stuck'
  have positive := Nat.lt_of_lt_of_le (helloFrame_pos codec s) hello
  have positive' := Nat.lt_of_lt_of_le (helloFrame_pos codec peer) hello'
  obtain ⟨more, begun⟩ := position.begun flow full hello
  obtain ⟨more', begun'⟩ := position'.begun flow' full' hello'
  have late := position.late position' lawful flow' chosen begun begun' (·.empty stuck)
  have late' := position'.late position lawful flow chosen' begun' begun (·.empty stuck')
  have some (writes : t.Writes) : onWay ≠ [] := fun none => by
    have behind := full writes
    rw [none, List.length_nil] at behind
    omega
  have some' (writes : t'.Writes) : onWay' ≠ [] := fun none => by
    have behind := full' writes
    rw [none, List.length_nil] at behind
    omega
  obtain ⟨part, unsent, left, sends, writes, rfl, rfl⟩ | ⟨through, rfl⟩ :=
      late.writes_or_ended late' lawful flow' fits' (·.empty stuck) some' <;>
    obtain ⟨part', unsent', left', sends', writes', rfl, rfl⟩ | ⟨through', rfl⟩ :=
      late'.writes_or_ended late lawful flow fits (·.empty stuck') some
  · -- Both write, and what they have written is what the pipes hold.
    have behind := full writes
    have behind' := full' writes'
    have length := congrArg List.length sends
    have length' := congrArg List.length sends'
    rw [List.length_append, List.append_cancel_left flow] at length
    rw [List.length_append, List.append_cancel_left flow'] at length'
    have pos := List.length_pos_iff.mpr left
    have pos' := List.length_pos_iff.mpr left'
    omega
  · exact absurd (unsent_of_got sends flow) left
  · exact absurd (unsent_of_got sends' flow') left'
  · exact ⟨through, through'⟩

/-- What an end sends begins with its first frame. -/
theorem Position.begins (position : Position codec s sent got t) :
    ∃ unsent more, sent ++ unsent = helloFrame codec s ++ more := by
  cases position with
  | writesSequence _ sends _ => exact ⟨_, [], sends.trans (List.append_nil _).symm⟩
  | readsSequence _ => exact ⟨[], [], rfl⟩
  | refuses _ _ _ => exact ⟨[], [], rfl⟩
  | writesCatchup _ _ _ _ => exact ⟨[], _, List.append_nil _⟩
  | readsCatchup _ _ => exact ⟨[], _, List.append_nil _⟩
  | ended _ _ => exact ⟨[], _, List.append_nil _⟩

/-- An end that has not sent all of its catch-up has read at most the first frame of the peer. -/
theorem Position.got_le (position : Position codec s sent got t)
    (position' : Position codec peer sent' got' t') (lawful : codec.Lawful)
    (flow' : sent' = got ++ onWay') (chosen : s.catchup peer.sequenceHeader = .ok ours)
    (unfinished : sent.length <
      (helloFrame codec s).length + (catchupFrame codec ours).length) :
    got.length ≤ (helloFrame codec peer).length := by
  have short := lawful.short peer.sequenceHeader
  cases position with
  | writesSequence _ _ _ => exact Nat.zero_le _
  | readsSequence waiting =>
      obtain ⟨unsent, more, stream⟩ := position'.begins
      rw [flow', List.append_assoc] at stream
      obtain ⟨_, noFrame⟩ | ⟨_, refused⟩ := waiting
      · by_contra long
        obtain ⟨rest, whole⟩ := List.prefix_of_prefix_length_le ⟨more, rfl⟩ ⟨_, stream⟩
          (Nat.le_of_not_le long)
        have refused := noFrame _ _ whole.symm
        omega
      · have long := refused _ _ _ stream
        omega
  | @refuses body _ short' _ _ =>
      obtain ⟨rfl, _⟩ := position'.hello lawful flow' short'
      exact Nat.le_refl _
  | writesCatchup asks _ _ _ =>
      obtain ⟨same, _⟩ :=
        position'.asked lawful asks (flow'.trans (by rw [List.append_nil])) chosen
      exact Nat.le_of_eq (congrArg List.length same)
  | readsCatchup asks _ =>
      obtain ⟨_, rfl⟩ := position'.asked lawful asks flow' chosen
      rw [List.length_append] at unfinished
      exact absurd unfinished (Nat.lt_irrefl _)
  | ended asks _ =>
      obtain ⟨_, rfl⟩ := position'.asked lawful asks flow' chosen
      rw [List.length_append] at unfinished
      exact absurd unfinished (Nat.lt_irrefl _)

end Waiting

end Backed

end Et
