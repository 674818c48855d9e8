import Mathlib.Algebra.BigOperators.Group.List.Basic
import Mathlib.Algebra.Order.Group.Int
import Mathlib.Algebra.Ring.Int.Defs

/-!
# Windows of the newest elements

A window keeps the newest elements of a growing sequence, oldest first, next to a
running total of their sizes. Trimming drops the oldest element and subtracts its
size while the running total is above a limit. As long as the total is right, what
remains is a suffix, its total is right again and at most the limit, and every
suffix that fits the limit has survived.
-/

namespace Window

universe u

variable {α : Type u} (size : α → Nat) (limit : Int)

/-- The sum of the sizes, as a signed number. -/
def total (xs : List α) : Int := (xs.map fun x => (size x : Int)).sum

@[simp] theorem total_nil : total size ([] : List α) = 0 := rfl

@[simp] theorem total_cons (x : α) (xs : List α) :
    total size (x :: xs) = size x + total size xs := by
  simp [total]

theorem total_cons_sub (x : α) (xs : List α) :
    total size (x :: xs) - size x = total size xs := by
  rw [total_cons]
  omega

@[simp] theorem total_append (xs ys : List α) :
    total size (xs ++ ys) = total size xs + total size ys := by
  simp [total]

theorem total_concat (xs : List α) (x : α) :
    total size (xs ++ [x]) = total size xs + size x := by
  simp [total]

theorem total_nonneg (xs : List α) : 0 ≤ total size xs := by
  induction xs with
  | nil => simp
  | cons x xs ih => rw [total_cons]; omega

theorem total_le_of_suffix {xs ys : List α} (suffix : xs <:+ ys) :
    total size xs ≤ total size ys := by
  obtain ⟨front, rfl⟩ := suffix
  rw [total_append]
  have := total_nonneg size front
  omega

theorem size_le_total_of_mem {x : α} {xs : List α} (member : x ∈ xs) :
    (size x : Int) ≤ total size xs := by
  obtain ⟨front, back, rfl⟩ := List.append_of_mem member
  rw [total_append, total_cons]
  have := total_nonneg size front
  have := total_nonneg size back
  omega

/-- Drop from the old end while the running total is above the limit. -/
def trim : List α → Int → List α × Int
  | [], running => ([], running)
  | x :: xs, running =>
      if limit < running then trim xs (running - size x) else (x :: xs, running)

theorem trim_suffix (xs : List α) (running : Int) : (trim size limit xs running).1 <:+ xs := by
  induction xs generalizing running with
  | nil => exact List.suffix_refl _
  | cons x xs ih =>
      rw [trim]
      split
      · exact (ih _).trans (List.suffix_cons x xs)
      · exact List.suffix_refl _

/-- A right running total stays right. -/
theorem trim_total (xs : List α) :
    (trim size limit xs (total size xs)).2 = total size (trim size limit xs (total size xs)).1 := by
  induction xs with
  | nil => rfl
  | cons x xs ih =>
      rw [trim]
      split
      · rw [total_cons_sub]
        exact ih
      · rfl

theorem trim_total_le (nonneg : 0 ≤ limit) (xs : List α) :
    total size (trim size limit xs (total size xs)).1 ≤ limit := by
  induction xs with
  | nil => simpa [trim] using nonneg
  | cons x xs ih =>
      rw [trim]
      split
      · rw [total_cons_sub]
        exact ih
      · rename_i within
        exact not_lt.mp within

/-- What fits the limit is never trimmed. -/
theorem suffix_trim {xs ys : List α} (suffix : ys <:+ xs) (fits : total size ys ≤ limit) :
    ys <:+ (trim size limit xs (total size xs)).1 := by
  induction xs with
  | nil => simpa [trim] using suffix
  | cons x xs ih =>
      rw [trim]
      split
      · rename_i above
        rw [total_cons_sub]
        rcases List.suffix_cons_iff.mp suffix with whole | proper
        · rw [whole] at fits
          omega
        · exact ih proper
      · exact suffix

end Window
