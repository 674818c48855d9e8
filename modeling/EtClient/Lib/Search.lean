import Mathlib.Data.List.Basic
import Mathlib.Data.List.Infix

/-!
# Searching a pattern in a text

`scan` tries the positions of a text from the left and returns the first one where a pattern
stands. What it finds is the first occurrence of the pattern, and a text that is written around
an occurrence shows whether that one is the first: the pattern does not stand in what comes
before the occurrence's last element.

Two texts are blurs of each other when they differ in nothing but runs of noise, each of which
stands for some run of noise in the other one. A pattern without noise stands in a text exactly
where it stands in its blurs, so a search that looks for such a pattern is not disturbed by
them.
-/

namespace Search

variable {α : Type}

/-- The first of the positions where the whole pattern still fits and where it stands. -/
def scan [DecidableEq α] (pattern text : List α) : Option Nat :=
  (List.range (text.length - (pattern.length - 1))).find? fun i =>
    (text.drop i).take pattern.length = pattern

/-- The pattern stands in the text at `i` and nowhere before. -/
structure FirstAt (pattern text : List α) (i : Nat) : Prop where
  here : pattern <+: text.drop i
  before : ∀ j < i, ¬ pattern <+: text.drop j

/-- The word stands right behind the first occurrence of the pattern. -/
def Behind (pattern text word : List α) : Prop :=
  ∃ i, FirstAt pattern text i ∧ word <+: text.drop (i + pattern.length)

section Scan

variable {pattern text : List α}

theorem length_of_prefix_drop (nonempty : pattern ≠ []) {i : Nat}
    (stands : pattern <+: text.drop i) : i + pattern.length ≤ text.length := by
  have fits := stands.length_le
  have positive := List.length_pos_of_ne_nil nonempty
  rw [List.length_drop] at fits
  omega

theorem scan_eq_some [DecidableEq α] (nonempty : pattern ≠ []) {i : Nat} :
    scan pattern text = some i ↔ FirstAt pattern text i := by
  simp only [scan, List.find?_range_eq_some, decide_eq_true_eq, List.mem_range,
    Bool.not_eq_true', decide_eq_false_iff_not, eq_comm (b := pattern),
    ← List.prefix_iff_eq_take]
  constructor
  · rintro ⟨here, -, before⟩
    exact ⟨here, before⟩
  · intro first
    have fits := length_of_prefix_drop nonempty first.here
    have positive := List.length_pos_of_ne_nil nonempty
    exact ⟨first.here, by omega, first.before⟩

/-- An occurrence is the first one when the pattern does not stand in what is before its last
element. -/
theorem firstAt_append (nonempty : pattern ≠ []) {pre post : List α} :
    FirstAt pattern (pre ++ pattern ++ post) pre.length ↔
      ¬ pattern <:+: pre ++ pattern.dropLast := by
  have positive := List.length_pos_of_ne_nil nonempty
  have front : pre ++ pattern.dropLast <+: pre ++ pattern ++ post :=
    ((List.prefix_append_right_inj pre).mpr pattern.dropLast_prefix).trans
      (List.prefix_append _ _)
  constructor
  · rintro first ⟨left, right, split⟩
    have lengths := congrArg List.length split
    rw [List.length_append, List.length_append, List.length_append, List.length_dropLast]
      at lengths
    refine first.before left.length (by omega) ?_
    obtain ⟨more, whole⟩ := front
    rw [← whole, ← split, List.append_assoc, List.append_assoc, List.drop_left]
    exact List.prefix_append _ _
  · intro absent
    refine ⟨by rw [List.append_assoc, List.drop_left]; exact List.prefix_append _ _, ?_⟩
    intro j earlier stands
    obtain ⟨more, rest⟩ := stands
    have taken : (pre ++ pattern ++ post).take j ++ pattern <+: pre ++ pattern ++ post :=
      ⟨more, by rw [List.append_assoc, rest, List.take_append_drop]⟩
    have short : ((pre ++ pattern ++ post).take j ++ pattern).length ≤
        (pre ++ pattern.dropLast).length := by
      rw [List.length_append, List.length_append, List.length_take, List.length_dropLast]
      omega
    have inside := List.prefix_of_prefix_length_le taken front short
    exact absent ((List.suffix_append _ _).isInfix.trans inside.isInfix)

theorem behind_iff (nonempty : pattern ≠ []) {word : List α} :
    Behind pattern text word ↔ ∃ pre post,
      text = pre ++ (pattern ++ word) ++ post ∧ ¬ pattern <:+: pre ++ pattern.dropLast := by
  constructor
  · rintro ⟨i, first, post, rest⟩
    have fits := length_of_prefix_drop nonempty first.here
    have whole : text = text.take i ++ pattern ++ (word ++ post) := by
      obtain ⟨tail, stands⟩ := first.here
      have behind : tail = word ++ post := by
        rw [rest, ← List.drop_drop, ← stands, List.drop_left]
      rw [← behind, List.append_assoc, stands, List.take_append_drop]
    have place : (text.take i).length = i := List.length_take_of_le (by omega)
    refine ⟨text.take i, post, by simpa only [List.append_assoc] using whole, ?_⟩
    apply (firstAt_append nonempty).mp
    · rw [← whole, place]
      exact first
  · rintro ⟨pre, post, rfl, absent⟩
    refine ⟨pre.length, ?_, ?_⟩
    · rw [← List.append_assoc, List.append_assoc]
      exact (firstAt_append nonempty).mpr absent
    · rw [← List.length_append, ← List.append_assoc, List.append_assoc, List.drop_left]
      exact List.prefix_append _ _

end Scan

/-- The texts differ in runs of noise only: each run on one side stands for one on the other. -/
inductive Blurs (noise : α → Prop) : List α → List α → Prop
  | nil : Blurs noise [] []
  | keep (x : α) {xs ys : List α} : Blurs noise xs ys → Blurs noise (x :: xs) (x :: ys)
  | run {r s xs ys : List α} : r ≠ [] → s ≠ [] → (∀ x ∈ r, noise x) → (∀ x ∈ s, noise x) →
      Blurs noise xs ys → Blurs noise (r ++ xs) (s ++ ys)

namespace Blurs

variable {noise : α → Prop} {xs ys us vs : List α}

theorem refl (noise : α → Prop) : ∀ xs : List α, Blurs noise xs xs
  | [] => .nil
  | x :: xs => .keep x (refl noise xs)

theorem symm (blurs : Blurs noise xs ys) : Blurs noise ys xs := by
  induction blurs with
  | nil => exact .nil
  | keep x _ ih => exact .keep x ih
  | run left right noiseLeft noiseRight _ ih => exact .run right left noiseRight noiseLeft ih

theorem append (blurs : Blurs noise xs ys) (more : Blurs noise us vs) :
    Blurs noise (xs ++ us) (ys ++ vs) := by
  induction blurs with
  | nil => exact more
  | keep x _ ih => exact .keep x ih
  | run left right noiseLeft noiseRight _ ih =>
      rw [List.append_assoc, List.append_assoc]
      exact .run left right noiseLeft noiseRight ih

/-- What is not noise stands in both texts, between blurs. -/
theorem split {c : α} (clean : ¬ noise c) (blurs : Blurs noise (xs ++ c :: us) ys) :
    ∃ before after, ys = before ++ c :: after ∧ Blurs noise xs before ∧ Blurs noise us after := by
  generalize whole : xs ++ c :: us = text at blurs
  induction blurs generalizing xs with
  | nil => simp at whole
  | keep x rest ih =>
      cases xs with
      | nil =>
          obtain ⟨rfl, rfl⟩ := List.cons.inj whole
          exact ⟨[], _, rfl, .nil, rest⟩
      | cons head tail =>
          obtain ⟨rfl, same⟩ := List.cons.inj whole
          obtain ⟨before, after, rfl, left, right⟩ := ih same
          exact ⟨head :: before, after, rfl, .keep head left, right⟩
  | @run r s ts zs nonempty nonempty' noiseLeft noiseRight _ ih =>
      -- The run ends before `c`, since `c` is no noise.
      rcases List.append_eq_append_iff.mp whole with ⟨mid, rEq, tail⟩ | ⟨mid, rfl, tail⟩
      · cases mid with
        | nil =>
            rw [List.append_nil] at rEq
            subst rEq
            obtain ⟨before, after, rfl, left, right⟩ := @ih [] tail
            refine ⟨s ++ before, after, (List.append_assoc ..).symm, ?_, right⟩
            simpa using Blurs.run nonempty nonempty' noiseLeft noiseRight left
        | cons head mid =>
            obtain ⟨rfl, -⟩ := List.cons.inj tail
            exact absurd (noiseLeft c (by simp [rEq])) clean
      · obtain ⟨before, after, rfl, left, right⟩ := ih tail.symm
        exact ⟨s ++ before, after, (List.append_assoc ..).symm,
          .run nonempty nonempty' noiseLeft noiseRight left, right⟩

theorem eq_nil (blurs : Blurs noise [] ys) : ys = [] := by
  generalize empty : [] = text at blurs
  cases blurs with
  | nil => rfl
  | keep x _ => cases empty
  | run nonempty _ _ _ _ => exact absurd (List.append_eq_nil_iff.mp empty.symm).1 nonempty

theorem split_front {p : List α} (clean : ∀ x ∈ p, ¬ noise x)
    (blurs : Blurs noise (p ++ us) ys) : ∃ after, ys = p ++ after ∧ Blurs noise us after := by
  induction p generalizing ys with
  | nil => exact ⟨ys, rfl, blurs⟩
  | cons c p ih =>
      have ⟨cleanHead, cleanTail⟩ := List.forall_mem_cons.mp clean
      obtain ⟨before, rest, rfl, empty, tail⟩ := @split _ _ [] _ _ _ cleanHead blurs
      obtain ⟨after, rfl, right⟩ := ih cleanTail tail
      exact ⟨after, by rw [empty.eq_nil, List.nil_append, List.cons_append], right⟩

/-- A pattern without noise stands in both texts, between blurs. -/
theorem split_append {p : List α} (nonempty : p ≠ []) (clean : ∀ x ∈ p, ¬ noise x)
    (blurs : Blurs noise (xs ++ p ++ us) ys) :
    ∃ before after, ys = before ++ p ++ after ∧ Blurs noise xs before ∧ Blurs noise us after := by
  obtain ⟨c, p, rfl⟩ := List.exists_cons_of_ne_nil nonempty
  have ⟨cleanHead, cleanTail⟩ := List.forall_mem_cons.mp clean
  rw [List.append_assoc, List.cons_append] at blurs
  obtain ⟨before, rest, rfl, left, tail⟩ := blurs.split cleanHead
  obtain ⟨after, rfl, right⟩ := tail.split_front cleanTail
  exact ⟨before, after, by rw [List.append_assoc, List.cons_append], left, right⟩

theorem isInfix {p : List α} (nonempty : p ≠ []) (clean : ∀ x ∈ p, ¬ noise x)
    (blurs : Blurs noise xs ys) (stands : p <:+: xs) : p <:+: ys := by
  obtain ⟨left, right, rfl⟩ := stands
  obtain ⟨before, after, rfl, -, -⟩ := blurs.split_append nonempty clean
  exact ⟨before, after, rfl⟩

/-- What is behind the first occurrence of a pattern is behind it in every blur, when neither of
the two is noise. -/
theorem behind {pattern word : List α} (nonempty : pattern ≠ [])
    (cleanPattern : ∀ x ∈ pattern, ¬ noise x) (cleanWord : ∀ x ∈ word, ¬ noise x)
    (blurs : Blurs noise xs ys) (stands : Behind pattern xs word) : Behind pattern ys word := by
  obtain ⟨pre, post, rfl, absent⟩ := (behind_iff nonempty).mp stands
  have cleanBoth : ∀ x ∈ pattern ++ word, ¬ noise x :=
    List.forall_mem_append.mpr ⟨cleanPattern, cleanWord⟩
  obtain ⟨before, after, rfl, left, -⟩ :=
    blurs.split_append (List.append_ne_nil_of_left_ne_nil nonempty _) cleanBoth
  refine (behind_iff nonempty).mpr ⟨before, after, rfl, ?_⟩
  intro earlier
  exact absent ((left.symm.append (refl noise _)).isInfix nonempty cleanPattern earlier)

end Blurs

end Search
