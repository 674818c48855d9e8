import Mathlib.Data.List.Basic
import Mathlib.Order.Basic

/-!
# Lanes of a resumable sequence

A sender owns a growing sequence, and a receiver takes its elements in order over
connections that come and go. A lane is one direction of one connection: the receiver
asks from the number of elements it has, the sender answers with a catch-up, and then
goes on with further elements.

A lane carries the sequence when the catch-up and what follows it are the elements
behind the number asked, and it is current when that is all of them. A receiver that
stands somewhere on a lane that carries the sequence is handed the sequence's own next
element, whatever has happened on other lanes.
-/

universe u

structure Lane (α : Type u) where
  /-- How many elements the receiver said it has. -/
  asked : Option Int
  catchup : Option (List α)
  /-- What the sender put behind the catch-up. -/
  sent : List α
  /-- How many elements of `sent` the receiver has taken. -/
  taken : Nat

namespace Lane

variable {α : Type u} {seq seq' : List α} {lane : Lane α}

/-- The lane holds elements of the sequence, in order and without a gap. -/
structure Carries (seq : List α) (lane : Lane α) : Prop where
  /-- Nothing is sent before the answer. -/
  silent : lane.catchup = none → lane.sent = [] ∧ lane.taken = 0
  span : ∀ entries, lane.catchup = some entries →
    ∃ k : Nat, lane.asked = some (k : Int) ∧ k ≤ seq.length ∧ entries ++ lane.sent <+: seq.drop k

/-- The lane holds the whole sequence behind the number asked. -/
def Current (seq : List α) (lane : Lane α) : Prop :=
  ∃ (k : Nat) (entries : List α), lane.asked = some (k : Int) ∧ lane.catchup = some entries ∧
    k ≤ seq.length ∧ entries ++ lane.sent = seq.drop k

/-- A receiver that took the catch-up and went on stands behind element `n`. -/
def StandsAt (lane : Lane α) (n : Nat) : Prop :=
  ∃ (k : Nat) (entries : List α), lane.asked = some (k : Int) ∧ lane.catchup = some entries ∧
    n = k + entries.length + lane.taken

theorem eq_of_asked {j k : Nat} (first : lane.asked = some (j : Int))
    (second : lane.asked = some (k : Int)) : j = k := by
  rw [first] at second
  exact Int.ofNat.inj (Option.some.inj second)

/-- A sequence that grows keeps every span. -/
theorem prefix_drop_of_prefix {xs : List α} {k : Nat} (span : xs <+: seq.drop k)
    (grows : seq <+: seq') : xs <+: seq'.drop k := by
  obtain ⟨more, rfl⟩ := grows
  rw [List.drop_append]
  exact span.trans (List.prefix_append _ _)

/-- The next element of a span. -/
theorem getElem?_of_prefix_drop {xs : List α} {k i : Nat} {x : α} (span : xs <+: seq.drop k)
    (found : xs[i]? = some x) : seq[k + i]? = some x := by
  obtain ⟨more, eq⟩ := span
  obtain ⟨below, _⟩ := List.getElem?_eq_some_iff.mp found
  rw [← List.getElem?_drop, ← eq, List.getElem?_append_left below]
  exact found

/-- A span followed by the sequence's next element. -/
theorem append_prefix_drop {xs : List α} {k : Nat} {x : α} (span : xs <+: seq.drop k)
    (next : seq[k + xs.length]? = some x) : xs ++ [x] <+: seq.drop k := by
  obtain ⟨more, eq⟩ := span
  rw [← List.getElem?_drop, ← eq, List.getElem?_append_right (Nat.le_refl _), Nat.sub_self] at next
  cases more with
  | nil => cases next
  | cons head more =>
      cases next
      exact ⟨more, by rw [← eq, List.append_assoc]; rfl⟩

/-- What a receiver has, followed by the span behind it. -/
theorem append_prefix {xs ys : List α} (front : xs <+: seq) (span : ys <+: seq.drop xs.length) :
    xs ++ ys <+: seq := by
  obtain ⟨more, rfl⟩ := front
  rw [List.drop_left] at span
  exact (List.prefix_append_right_inj xs).mpr span

theorem Carries.grow (h : Carries seq lane) (grows : seq <+: seq') : Carries seq' lane where
  silent := h.silent
  span entries answered := by
    obtain ⟨k, asked, within, span⟩ := h.span entries answered
    exact ⟨k, asked, Nat.le_trans within grows.length_le, prefix_drop_of_prefix span grows⟩

theorem Current.carries (h : Current seq lane) : Carries seq lane := by
  obtain ⟨k, entries, asked, answered, within, all⟩ := h
  refine ⟨?_, ?_⟩
  · intro none
    rw [none] at answered
    cases answered
  · intro other same
    rw [answered] at same
    cases same
    exact ⟨k, asked, within, all ▸ List.prefix_refl _⟩

/-- A current lane stays current when the sequence's new element is put on it. -/
theorem Current.push (h : Current seq lane) (x : α) :
    Current (seq ++ [x]) { lane with sent := lane.sent ++ [x] } := by
  obtain ⟨k, entries, asked, answered, within, all⟩ := h
  refine ⟨k, entries, asked, answered, ?_, ?_⟩
  · rw [List.length_append]
    omega
  · rw [List.drop_append_of_le_length within, ← all, List.append_assoc]

/-- Answer with everything behind the number asked. -/
theorem Carries.answer (h : Carries seq lane) (unanswered : lane.catchup = none) {k : Nat}
    (asked : lane.asked = some (k : Int)) (within : k ≤ seq.length) :
    Carries seq { lane with catchup := some (seq.drop k) } where
  silent none := by cases none
  span entries answered := by
    obtain ⟨empty, _⟩ := h.silent unanswered
    cases answered
    exact ⟨k, asked, within, by simp [empty]⟩

/-- Send the element behind everything the lane holds. -/
theorem Carries.send (h : Carries seq lane) {entries : List α}
    (answered : lane.catchup = some entries) {k : Nat} (asked : lane.asked = some (k : Int)) {x : α}
    (next : seq[k + entries.length + lane.sent.length]? = some x) :
    Carries seq { lane with sent := lane.sent ++ [x] } where
  silent none := by
    change lane.catchup = _ at none
    rw [answered] at none
    cases none
  span other same := by
    change lane.catchup = _ at same
    obtain ⟨j, asked', within, span⟩ := h.span other same
    rw [answered] at same
    cases same
    obtain rfl := eq_of_asked asked asked'
    refine ⟨k, asked, within, ?_⟩
    change entries ++ (lane.sent ++ [x]) <+: _
    rw [← List.append_assoc]
    apply append_prefix_drop span
    rw [List.length_append, ← Nat.add_assoc]
    exact next

/-- The element a receiver takes is the sequence's own. -/
theorem Carries.next (h : Carries seq lane) {n : Nat} (stands : lane.StandsAt n) {x : α}
    (found : lane.sent[lane.taken]? = some x) : seq[n]? = some x := by
  obtain ⟨k, entries, asked, answered, rfl⟩ := stands
  obtain ⟨j, asked', _, span⟩ := h.span entries answered
  obtain rfl := eq_of_asked asked asked'
  rw [Nat.add_assoc]
  apply getElem?_of_prefix_drop span
  rw [List.getElem?_append_right (Nat.le_add_right _ _), Nat.add_sub_cancel_left]
  exact found

theorem Carries.take (h : Carries seq lane) {n : Nat} (stands : lane.StandsAt n) :
    Carries seq { lane with taken := lane.taken + 1 } where
  silent unanswered := by
    obtain ⟨_, entries, _, answered, _⟩ := stands
    exact absurd (answered.symm.trans unanswered) nofun
  span := h.span

theorem StandsAt.take {n : Nat} (stands : lane.StandsAt n) :
    { lane with taken := lane.taken + 1 }.StandsAt (n + 1) := by
  obtain ⟨k, entries, asked, answered, rfl⟩ := stands
  exact ⟨k, entries, asked, answered, rfl⟩

end Lane
