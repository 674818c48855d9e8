import EtClient.Lib.Transition

/-!
# What holds since an event

Histories in which one kind of event forbids another one until a third kind comes: after a
closing event nothing is sent until the next opening one. `Since` says that a closing event
is in force at the end of a history.

The rule for whole runs, `Reaches.silent`, needs a property of states that stands for the
closing event. It holds behind a step that closes, it stays as long as no step opens, and a
step that sends begins without it.
-/

namespace Transition

universe u v w

variable {σ : Type u} {α : Type v} {ε : Type w} {closes opens sends : ε → Prop}

/-- A closing event has come, and no opening one since. -/
def Since (closes opens : ε → Prop) (log : List ε) : Prop :=
  ∃ before event after, log = before ++ event :: after ∧ closes event ∧
    ∀ later ∈ after, ¬opens later

theorem not_since_nil : ¬Since closes opens [] := by
  rintro ⟨before, event, after, split, -⟩
  cases before <;> cases split

/-- Where an event of a longer history is. -/
theorem split_append {log more before after : List ε} {event : ε}
    (split : log ++ more = before ++ event :: after) :
    (∃ rest, log = before ++ event :: rest ∧ after = rest ++ more) ∨
      ∃ front, before = log ++ front ∧ more = front ++ event :: after := by
  rcases List.append_eq_append_iff.mp split with ⟨front, rfl, rest⟩ | ⟨front, rfl, rest⟩
  · exact .inr ⟨front, rfl, rest⟩
  · cases front with
    | nil => exact .inr ⟨[], by simp, by simpa using rest.symm⟩
    | cons first front =>
        cases rest
        exact .inl ⟨front, rfl, rfl⟩

theorem Since.of_append {log more : List ε} (since : Since closes opens (log ++ more)) :
    Since closes opens more ∨ Since closes opens log ∧ ∀ event ∈ more, ¬opens event := by
  obtain ⟨before, event, after, split, closed, unopened⟩ := since
  obtain ⟨rest, rfl, rfl⟩ | ⟨front, rfl, rfl⟩ := split_append split
  · refine .inr ⟨⟨before, event, rest, rfl, closed, ?_⟩, ?_⟩
    · intro later mem
      exact unopened later (List.mem_append_left more mem)
    · intro later mem
      exact unopened later (List.mem_append_right rest mem)
  · exact .inl ⟨front, event, after, rfl, closed, unopened⟩

/-- A closing event that is in force is there. -/
theorem Since.exists_mem {log : List ε} (since : Since closes opens log) :
    ∃ event ∈ log, closes event := by
  obtain ⟨before, event, after, rfl, closed, -⟩ := since
  exact ⟨event, by simp, closed⟩

namespace System

variable {M : System σ α ε} {allowed : List ε → σ → α → Prop}

/-- Nothing is sent while a closing event is in force. -/
theorem Reaches.silent (quiet : σ → Prop)
    (closing : ∀ {log s action t effects}, M.Reaches allowed log s → allowed log s action →
      M.step s action = some (t, effects) → Since closes opens effects → quiet t)
    (staying : ∀ {log s action t effects}, M.Reaches allowed log s → allowed log s action →
      M.step s action = some (t, effects) → quiet s → (∀ event ∈ effects, ¬opens event) → quiet t)
    (sending : ∀ {log s action t effects front event rest}, M.Reaches allowed log s →
      allowed log s action → M.step s action = some (t, effects) →
      effects = front ++ event :: rest → sends event →
      ¬quiet s ∧ ∀ earlier ∈ front, ¬closes earlier)
    {log : List ε} {s : σ} (run : M.Reaches allowed log s) {before after : List ε} {event : ε}
    (split : log = before ++ event :: after) (sent : sends event) :
    ¬Since closes opens before := by
  -- The closing events of the history so far are carried by the state.
  have carried : (Since closes opens log → quiet s) ∧
      ∀ before event after, log = before ++ event :: after → sends event →
        ¬Since closes opens before := by
    clear split
    induction run with
    | start =>
        refine ⟨fun since => absurd since not_since_nil, ?_⟩
        intro before event after split
        cases before <;> cases split
    | next action run permitted stepped ih =>
        refine ⟨?_, ?_⟩
        · intro since
          obtain now | ⟨before, unopened⟩ := since.of_append
          · exact closing run permitted stepped now
          · exact staying run permitted stepped (ih.1 before) unopened
        · intro before event after split sent since
          obtain ⟨rest, inside, -⟩ | ⟨front, rfl, inside⟩ := split_append split
          · exact ih.2 before event rest inside sent since
          · obtain ⟨loud, unclosed⟩ := sending run permitted stepped inside sent
            obtain now | ⟨since, -⟩ := since.of_append
            · obtain ⟨earlier, mem, closed⟩ := now.exists_mem
              exact unclosed earlier mem closed
            · exact loud (ih.1 since)
  exact carried.2 before event after split sent

end System

end Transition
