import Mathlib.Data.List.AList

/-!
# One relation in two tables

An index gives every key an id, and a table holds an entry for every id. They describe one
relation when no two keys have the same id and the ids of the index are those of the table.
Such a pair stays one as long as a key and its entry come together, under an id that is not
in use, and go together.
-/

namespace Index

universe u v w

variable {κ : Type u} {ι : Type v} {α : Type w} [DecidableEq κ] [DecidableEq ι]

/-- The index is injective, and its values are the keys of the table. -/
structure Paired (index : AList fun _ : κ => ι) (table : AList fun _ : ι => α) : Prop where
  injective : ∀ {key key' id}, index.lookup key = some id → index.lookup key' = some id →
    key' = key
  values : ∀ id, (∃ key, index.lookup key = some id) ↔ (table.lookup id).isSome = true

namespace Paired

variable {index : AList fun _ : κ => ι} {table table' : AList fun _ : ι => α}

theorem empty : Paired (∅ : AList fun _ : κ => ι) (∅ : AList fun _ : ι => α) where
  injective found := by cases found
  values id := by
    constructor
    · rintro ⟨key, found⟩
      cases found
    · intro there
      cases there

/-- Only the ids of the table matter. -/
theorem congr (paired : Paired index table)
    (same : ∀ id, table'.lookup id = table.lookup id) : Paired index table' where
  injective := paired.injective
  values id := by
    rw [same id]
    exact paired.values id

/-- A key that had no id gets one that was not in use, with its entry. -/
theorem insert (paired : Paired index table) {key : κ} {id : ι}
    (unmapped : index.lookup key = none) (unused : table.lookup id = none) (entry : α) :
    Paired (index.insert key id) (table.insert id entry) := by
  have elsewhere : ∀ {other}, index.lookup other ≠ some id := by
    intro other found
    have there := (paired.values id).mp ⟨other, found⟩
    rw [unused] at there
    cases there
  refine ⟨?_, ?_⟩
  · intro first second target found found'
    by_cases same : first = key
    · by_cases same' : second = key
      · rw [same, same']
      · subst same
        rw [AList.lookup_insert] at found
        rw [AList.lookup_insert_ne same', ← found] at found'
        exact absurd found' elsewhere
    · rw [AList.lookup_insert_ne same] at found
      by_cases same' : second = key
      · subst same'
        rw [AList.lookup_insert] at found'
        rw [← found'] at found
        exact absurd found elsewhere
      · rw [AList.lookup_insert_ne same'] at found'
        exact paired.injective found found'
  · intro target
    by_cases same : target = id
    · subst same
      rw [AList.lookup_insert]
      exact ⟨fun _ => rfl, fun _ => ⟨key, AList.lookup_insert index⟩⟩
    · rw [AList.lookup_insert_ne same, ← paired.values target]
      constructor
      · rintro ⟨other, found⟩
        refine ⟨other, ?_⟩
        rwa [AList.lookup_insert_ne] at found
        rintro rfl
        rw [AList.lookup_insert] at found
        exact same (Option.some.inj found).symm
      · rintro ⟨other, found⟩
        refine ⟨other, ?_⟩
        rwa [AList.lookup_insert_ne]
        rintro rfl
        rw [unmapped] at found
        cases found

/-- A key leaves together with its entry. -/
theorem erase (paired : Paired index table) {key : κ} {id : ι}
    (mapped : index.lookup key = some id) : Paired (index.erase key) (table.erase id) := by
  have kept : ∀ {other target}, (index.erase key).lookup other = some target ↔
      other ≠ key ∧ index.lookup other = some target := by
    intro other target
    by_cases same : other = key
    · subst same
      rw [AList.lookup_erase]
      simp
    · rw [AList.lookup_erase_ne same]
      simp [same]
  refine ⟨?_, ?_⟩
  · intro first second target found found'
    exact paired.injective (kept.mp found).2 (kept.mp found').2
  · intro target
    by_cases same : target = id
    · subst same
      rw [AList.lookup_erase]
      constructor
      · rintro ⟨other, found⟩
        exact absurd (paired.injective mapped (kept.mp found).2) (kept.mp found).1
      · intro there
        cases there
    · rw [AList.lookup_erase_ne same, ← paired.values target]
      constructor
      · rintro ⟨other, found⟩
        exact ⟨other, (kept.mp found).2⟩
      · rintro ⟨other, found⟩
        refine ⟨other, kept.mpr ⟨?_, found⟩⟩
        rintro rfl
        rw [mapped] at found
        exact same (Option.some.inj found).symm

end Paired

end Index
