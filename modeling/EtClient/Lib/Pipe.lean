import Mathlib.Data.List.Basic

/-!
# Byte streams in pieces

A byte stream that crosses queues and wires is cut into chunks, and its end is a close.
At the sending end a reader cuts the stream, its pieces wait in a queue, and a relay
sends them on or drops them. At the receiving end the pieces are taken as long as the
stream is tracked there, and ignored afterwards.

Neither end knows the other. The sending end guarantees that what it has sent, up to the
first close, is a part of what it has read, and all of it once a close was sent. The
receiving end guarantees that it has taken a part of what it heard before the first
close, and all of it while it tracks the stream. Any first-in first-out wire between
them then carries the stream unchanged.
-/

namespace Pipe

universe u

inductive Item (α : Type u)
  | chunk (xs : List α)
  | close
  deriving DecidableEq

variable {α : Type u}

/-- What all chunks hold. -/
def payload : List (Item α) → List α
  | [] => []
  | .chunk xs :: items => xs ++ payload items
  | .close :: items => payload items

/-- What the chunks before the first close hold. -/
def lead : List (Item α) → List α
  | [] => []
  | .chunk xs :: items => xs ++ lead items
  | .close :: _ => []

theorem payload_append (items more : List (Item α)) :
    payload (items ++ more) = payload items ++ payload more := by
  induction items with
  | nil => rfl
  | cons item items ih =>
      cases item with
      | chunk xs => simp only [List.cons_append, payload, ih, List.append_assoc]
      | close => simpa only [List.cons_append, payload] using ih

theorem lead_append_of_open {items : List (Item α)} (unclosed : Item.close ∉ items)
    (more : List (Item α)) : lead (items ++ more) = payload items ++ lead more := by
  induction items with
  | nil => rfl
  | cons item items ih =>
      rw [List.mem_cons, not_or] at unclosed
      cases item with
      | chunk xs => simp only [List.cons_append, lead, payload, ih unclosed.2, List.append_assoc]
      | close => exact absurd rfl unclosed.1

theorem lead_eq_payload {items : List (Item α)} (unclosed : Item.close ∉ items) :
    lead items = payload items := by
  simpa [lead] using lead_append_of_open unclosed []

/-- More pieces do not change what came before the first close. -/
theorem lead_mono (items more : List (Item α)) : lead items <+: lead (items ++ more) := by
  induction items with
  | nil => exact List.nil_prefix
  | cons item items ih =>
      cases item with
      | chunk xs => exact (List.prefix_append_right_inj xs).2 ih
      | close => exact List.prefix_refl _

/-- `read` is what the reader has read, `queue` what waits for the relay and `sent` what
the relay has sent. More may come while the end is `reading`, and the relay sends on what
waits only while the stream is `routed`. -/
structure Source (read : List α) (queue sent : List (Item α)) (reading routed : Prop) :
    Prop where
  /-- A reader stops at its close. -/
  last : Item.close ∉ queue.dropLast
  ended : Item.close ∈ queue → ¬ reading
  part : lead sent <+: read
  closed : Item.close ∈ sent → lead sent = read ∧ queue = [] ∧ ¬ reading
  whole : routed → reading ∨ queue ≠ [] →
    Item.close ∉ sent ∧ payload sent ++ payload queue = read

namespace Source

variable {read : List α} {queue sent : List (Item α)} {item : Item α} {reading routed : Prop}

theorem start : Source ([] : List α) [] [] reading routed where
  last := List.not_mem_nil
  ended := fun closing => absurd closing List.not_mem_nil
  part := List.prefix_refl _
  closed := fun closing => absurd closing List.not_mem_nil
  whole := fun _ _ => ⟨List.not_mem_nil, rfl⟩

/-- A reader may stop and a route may go. A route may come back only behind the last
piece of the stream. -/
theorem weaken {reading' routed' : Prop} (source : Source read queue sent reading routed)
    (stops : reading' → reading) (reroutes : routed' → reading' ∨ queue ≠ [] → routed) :
    Source read queue sent reading' routed' where
  last := source.last
  ended := fun closing still => source.ended closing (stops still)
  part := source.part
  closed := by
    intro closing
    obtain ⟨whole, empty, ended⟩ := source.closed closing
    exact ⟨whole, empty, fun still => ended (stops still)⟩
  whole := fun routed waits =>
    source.whole (reroutes routed waits) (waits.imp_left stops)

theorem readChunk (source : Source read queue sent reading routed) (still : reading)
    (xs : List α) : Source (read ++ xs) (queue ++ [.chunk xs]) sent reading routed where
  last := by
    rw [List.dropLast_concat]
    exact fun closing => source.ended closing still
  ended := by
    intro closing
    rcases List.mem_append.1 closing with queued | new
    · exact source.ended queued
    · simp at new
  part := source.part.trans (List.prefix_append _ _)
  closed := fun closing => absurd still (source.closed closing).2.2
  whole := by
    intro routed _
    obtain ⟨unclosed, whole⟩ := source.whole routed (.inl still)
    refine ⟨unclosed, ?_⟩
    rw [payload_append, ← List.append_assoc, whole]
    simp [payload]

theorem readClose (source : Source read queue sent reading routed) (still : reading) :
    Source read (queue ++ [.close]) sent False routed where
  last := by
    rw [List.dropLast_concat]
    exact fun closing => source.ended closing still
  ended := fun _ => id
  part := source.part
  closed := fun closing => absurd still (source.closed closing).2.2
  whole := by
    intro routed _
    obtain ⟨unclosed, whole⟩ := source.whole routed (.inl still)
    refine ⟨unclosed, ?_⟩
    rw [payload_append, ← List.append_assoc, whole]
    simp [payload]

/-- Behind a close there is nothing. -/
theorem close_last (source : Source read (.close :: queue) sent reading routed) : queue = [] := by
  cases queue with
  | nil => rfl
  | cons item queue => exact absurd List.mem_cons_self source.last

private theorem last_tail (source : Source read (item :: queue) sent reading routed) :
    Item.close ∉ queue.dropLast := by
  cases queue with
  | nil => exact List.not_mem_nil
  | cons next queue => exact fun closing => source.last (List.mem_cons_of_mem _ closing)

/-- What waits without a route is dropped. -/
theorem drop (source : Source read (item :: queue) sent reading routed) :
    Source read queue sent reading False where
  last := source.last_tail
  ended := fun closing => source.ended (List.mem_cons_of_mem _ closing)
  part := source.part
  closed := fun closing => absurd (source.closed closing).2.1 (List.cons_ne_nil _ _)
  whole := False.elim

theorem relayChunk {xs : List α} (source : Source read (.chunk xs :: queue) sent reading routed)
    (route : routed) : Source read queue (sent ++ [.chunk xs]) reading routed := by
  obtain ⟨unclosed, whole⟩ := source.whole route (.inr (List.cons_ne_nil _ _))
  have still_open : Item.close ∉ sent ++ [.chunk xs] := by
    simpa using unclosed
  have moved : payload (sent ++ [.chunk xs]) ++ payload queue = read := by
    rw [payload_append, List.append_assoc, ← whole]
    simp [payload]
  refine ⟨source.last_tail, ?_, ?_, fun closing => absurd closing still_open,
    fun _ _ => ⟨still_open, moved⟩⟩
  · exact fun closing => source.ended (List.mem_cons_of_mem _ closing)
  · rw [lead_eq_payload still_open, ← moved]
    exact List.prefix_append _ _

/-- A close is sent behind everything that was read, and nothing follows. -/
theorem relayClose (source : Source read (.close :: queue) sent reading routed) (route : routed)
    (more : List (Item α)) : Source read queue (sent ++ .close :: more) reading False := by
  have empty := source.close_last
  obtain ⟨unclosed, whole⟩ := source.whole route (.inr (List.cons_ne_nil _ _))
  have everything : lead (sent ++ .close :: more) = read := by
    rw [lead_append_of_open unclosed, ← whole, empty]
    rfl
  refine ⟨source.last_tail, ?_, ?_, fun _ => ⟨everything, empty, ?_⟩, False.elim⟩
  · exact fun closing => source.ended (List.mem_cons_of_mem _ closing)
  · exact everything ▸ List.prefix_refl _
  · exact source.ended List.mem_cons_self

end Source

/-- `heard` is what has arrived for the stream and `taken` what was taken from it. -/
structure Sink (heard : List (Item α)) (taken : List α) (tracked : Prop) : Prop where
  part : taken <+: lead heard
  whole : tracked → Item.close ∉ heard ∧ taken = payload heard

namespace Sink

variable {heard : List (Item α)} {taken : List α} {tracked : Prop}

theorem start : Sink ([] : List (Item α)) [] tracked :=
  ⟨List.prefix_refl _, fun _ => ⟨List.not_mem_nil, rfl⟩⟩

theorem weaken {tracked' : Prop} (sink : Sink heard taken tracked) (loses : tracked' → tracked) :
    Sink heard taken tracked' :=
  ⟨sink.part, fun still => sink.whole (loses still)⟩

theorem take (sink : Sink heard taken tracked) (track : tracked) (xs : List α) :
    Sink (heard ++ [.chunk xs]) (taken ++ xs) tracked := by
  obtain ⟨unclosed, whole⟩ := sink.whole track
  have still_open : Item.close ∉ heard ++ [.chunk xs] := by
    simpa using unclosed
  have grown : taken ++ xs = payload (heard ++ [.chunk xs]) := by
    rw [payload_append, whole]
    simp [payload]
  have same : lead (heard ++ [.chunk xs]) = taken ++ xs :=
    (lead_eq_payload still_open).trans grown.symm
  exact ⟨same ▸ List.prefix_refl _, fun _ => ⟨still_open, grown⟩⟩

/-- What arrives for a stream that is not tracked any more is ignored. -/
theorem ignore (sink : Sink heard taken tracked) (more : List (Item α)) :
    Sink (heard ++ more) taken False :=
  ⟨sink.part.trans (lead_mono _ _), False.elim⟩

end Sink

section Wire

variable {read taken : List α} {queue sent heard waiting more : List (Item α)}
  {reading routed tracked : Prop}

/-- What is taken at one end was read at the other, in order and once. -/
theorem taken_of_read (source : Source read queue sent reading routed)
    (sink : Sink heard taken tracked) (wire : sent = heard ++ waiting) : taken <+: read := by
  have before : lead heard <+: lead sent := wire ▸ lead_mono heard waiting
  exact sink.part.trans (before.trans source.part)

/-- When the close arrives at an end that tracks the stream, everything was taken. -/
theorem taken_eq_read (source : Source read queue sent reading routed)
    (sink : Sink heard taken tracked) (wire : sent = heard ++ .close :: more)
    (track : tracked) : taken = read := by
  obtain ⟨unclosed, whole⟩ := sink.whole track
  have closing : Item.close ∈ sent := by
    rw [wire]
    exact List.mem_append_right _ List.mem_cons_self
  rw [← (source.closed closing).1, wire, lead_append_of_open unclosed, whole]
  exact (List.append_nil _).symm

end Wire

end Pipe
