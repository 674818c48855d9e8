import Mathlib.Data.List.Basic
import Mathlib.Order.Nat

/-!
# Loops over the chunks of a buffer

A buffer is worked off in rounds, `chunk` elements at a time: a round begins where the last
one ended, and its end is clamped to the end of the buffer. The loop stops at the end of the
buffer or at the first round that fails.

Every buffer takes its length divided by the chunk, rounded up, in rounds. When rounds can be
joined, so that two of them do what one over both ranges does, the loop is a single round over
the whole buffer.
-/

namespace Chunks

variable {σ ε : Type}

/-- Rounds from `off` up to `len`, the end of each clamped to `len`. -/
def run (chunk : Nat) (positive : 0 < chunk) (round : Nat → Nat → EStateM ε σ Unit)
    (len off : Nat) : EStateM ε σ Unit :=
  if off < len then do
    round off (min (off + chunk) len)
    run chunk positive round len (min (off + chunk) len)
  else pure ()
  termination_by len - off
  decreasing_by omega

/-- How many rounds a buffer takes. -/
def rounds (chunk len : Nat) : Nat := (len + chunk - 1) / chunk

variable {chunk : Nat} {positive : 0 < chunk} {round : Nat → Nat → EStateM ε σ Unit}

theorem lt_rounds (positive : 0 < chunk) {k len : Nat} :
    k < rounds chunk len ↔ k * chunk < len := by
  rw [rounds, Nat.lt_div_iff_mul_lt positive]
  omega

/-- The rounds from the `k`-th on. -/
theorem run_eq_forM_range' (k : Nat) {len left : Nat} (count : k + left = rounds chunk len) :
    run chunk positive round len (min (k * chunk) len) =
      (List.range' k left).forM fun k => round (k * chunk) (min ((k + 1) * chunk) len) := by
  induction left generalizing k with
  | zero =>
      have done : ¬ k * chunk < len := by
        rw [← lt_rounds positive]
        omega
      rw [run, if_neg (by omega)]
      rfl
  | succ left ih =>
      have more : k * chunk < len := by
        rw [← lt_rounds positive]
        omega
      rw [run, Nat.min_eq_left (Nat.le_of_lt more), if_pos more, ← Nat.succ_mul,
        ih (k + 1) (by omega)]
      rfl

theorem run_eq_forM (len : Nat) :
    run chunk positive round len 0 =
      (List.range (rounds chunk len)).forM fun k =>
        round (k * chunk) (min ((k + 1) * chunk) len) := by
  have all : run chunk positive round len (min (0 * chunk) len) = _ :=
    run_eq_forM_range' 0 (Nat.zero_add _)
  rwa [Nat.zero_mul, Nat.zero_min, ← List.range_eq_range'] at all

/-- Rounds that can be joined make one round. -/
theorem run_eq_round (idle : ∀ off, round off off = pure ())
    (joined : ∀ {a b c}, a ≤ b → b ≤ c → (do round a b; round b c) = round a c) {len off : Nat}
    (inside : off ≤ len) : run chunk positive round len off = round off len := by
  fun_induction run chunk positive round len off with
  | case1 off more ih =>
      rw [ih (Nat.min_le_right _ _)]
      exact joined (by omega) (Nat.min_le_right _ _)
  | case2 off done =>
      rw [Nat.le_antisymm inside (Nat.le_of_not_lt done), idle]

/-- What every round keeps up holds at the end of the buffer. -/
theorem run_invariant {P : Nat → σ → Prop}
    (keeps : ∀ {off stop : Nat} {s s' : σ}, off ≤ stop → P off s →
      round off stop s = .ok () s' → P stop s')
    {len off : Nat} (inside : off ≤ len) {s s' : σ} (before : P off s)
    (done : run chunk positive round len off s = .ok () s') : P len s' := by
  fun_induction run chunk positive round len off generalizing s with
  | case1 off more ih =>
      simp only [bind, EStateM.bind] at done
      split at done
      · rename_i between first
        exact ih (Nat.min_le_right _ _) (keeps (by omega) before first) done
      · cases done
  | case2 off ended =>
      cases done
      rwa [Nat.le_antisymm inside (Nat.le_of_not_lt ended)] at before

end Chunks
