import Mathlib.Data.List.Basic
import Mathlib.Logic.Equiv.Basic

/-!
# Relabelling what a sampler accepts

A sampler that rejects some of its draws turns the accepted ones into letters. Two of its results
are equally likely when there is a one-to-one map between the draws that lead to them. Such a map
applies a permutation to every accepted draw, its own one to each, and leaves the rejected ones
alone: what is accepted stays accepted, at the same place.
-/

namespace Relabel

universe u

variable {α : Type u} (accepts : α → Bool)

/-- The `k`-th accepted item and those behind it, each under its permutation. -/
def relabel (perm : Nat → Equiv.Perm α) : Nat → List α → List α
  | _, [] => []
  | k, a :: rest =>
      if accepts a then perm k a :: relabel perm (k + 1) rest else a :: relabel perm k rest

variable {accepts} {perm : Nat → Equiv.Perm α}

@[simp] theorem length_relabel (k : Nat) (items : List α) :
    (relabel accepts perm k items).length = items.length := by
  induction items generalizing k with
  | nil => rfl
  | cons a rest ih =>
      rw [relabel]
      split <;> rw [List.length_cons, ih, List.length_cons]

theorem take_relabel (accepts : α → Bool) (perm : Nat → Equiv.Perm α) (k n : Nat)
    (items : List α) :
    (relabel accepts perm k items).take n = relabel accepts perm k (items.take n) := by
  induction items generalizing k n with
  | nil => simp [relabel]
  | cons a rest ih =>
      cases n with
      | zero => rfl
      | succ n =>
          rw [List.take_succ_cons, relabel, relabel]
          split <;> rw [List.take_succ_cons, ih]

variable (keeps : ∀ k a, accepts (perm k a) = accepts a)

include keeps

theorem filter_relabel (k : Nat) (items : List α) :
    (relabel accepts perm k items).filter accepts =
      (items.filter accepts).mapIdx fun i a => perm (k + i) a := by
  induction items generalizing k with
  | nil => rfl
  | cons a rest ih =>
      rw [relabel]
      cases accepted : accepts a with
      | true =>
          rw [if_pos rfl, List.filter_cons_of_pos ((keeps k a).trans accepted),
            List.filter_cons_of_pos accepted, List.mapIdx_cons, ih]
          simp only [Nat.add_zero, Nat.add_right_comm k 1, Nat.add_assoc]
      | false =>
          have off : ¬ accepts a = true := by simp [accepted]
          rw [if_neg (by simp), List.filter_cons_of_neg off, List.filter_cons_of_neg off, ih]

/-- The inverse permutations lead back. -/
theorem relabel_symm (k : Nat) (items : List α) :
    relabel accepts (fun k => (perm k).symm) k (relabel accepts perm k items) = items := by
  induction items generalizing k with
  | nil => rfl
  | cons a rest ih =>
      rw [relabel]
      cases accepted : accepts a with
      | true =>
          rw [if_pos rfl, relabel, if_pos ((keeps k a).trans accepted), ih, Equiv.symm_apply_apply]
      | false => rw [if_neg (by simp), relabel, if_neg (by simp [accepted]), ih]

end Relabel
