import Mathlib.Logic.Basic

/-!
# Transition systems with observable effects

A system is a start state and a partial step function: an action that is not
possible in a state has no step there. Every step may leave observable effects,
and a run is described by the effects of its steps in order together with the
state it ends in. The history is part of the run, not of the state, so a model's
state stays the state of the program it embeds.

A condition on steps may read the history so far. Results about all runs take the
condition that always holds; results about the runs whose steps all meet some
condition take that condition. An invariant is a property of history and state.
-/

namespace Transition

universe u v w x y z

/-- A partial step function from a start state. The list holds the effects of the
step in the order in which they happen. -/
structure System (σ : Type u) (α : Type v) (ε : Type w) where
  start : σ
  step : σ → α → Option (σ × List ε)

namespace System

variable {σ : Type u} {α : Type v} {ε : Type w}

/-- The runs whose every step is allowed at its history, source state and action. -/
inductive Reaches (M : System σ α ε) (allowed : List ε → σ → α → Prop) :
    List ε → σ → Prop
  | start : Reaches M allowed [] M.start
  | next {log effects : List ε} {s t : σ} (action : α) :
      Reaches M allowed log s → allowed log s action →
      M.step s action = some (t, effects) → Reaches M allowed (log ++ effects) t

/-- Every run, without a condition on its steps. -/
abbrev Reachable (M : System σ α ε) : List ε → σ → Prop :=
  M.Reaches fun _ _ _ => True

variable {M : System σ α ε} {allowed : List ε → σ → α → Prop}

/-- One induction over runs: a property of history and state that holds at the
start and is kept by every allowed step holds throughout. -/
theorem Reaches.invariant {P : List ε → σ → Prop} {log : List ε} {s : σ}
    (initial : P [] M.start)
    (preserved : ∀ {log s action t effects}, P log s → allowed log s action →
      M.step s action = some (t, effects) → P (log ++ effects) t)
    (run : M.Reaches allowed log s) : P log s := by
  induction run with
  | start => exact initial
  | next _ _ permitted stepped ih => exact preserved ih permitted stepped

/-- Runs under a condition are runs under every weaker one. -/
theorem Reaches.mono {allowed' : List ε → σ → α → Prop} {log : List ε} {s : σ}
    (weaker : ∀ {log s action}, allowed log s action → allowed' log s action)
    (run : M.Reaches allowed log s) : M.Reaches allowed' log s := by
  induction run with
  | start => exact .start
  | next action _ permitted stepped ih => exact .next action ih (weaker permitted) stepped

theorem Reaches.reachable {log : List ε} {s : σ} (run : M.Reaches allowed log s) :
    M.Reachable log s :=
  run.mono fun _ => trivial

section Restart

/-- The same steps from another state. -/
def restart (M : System σ α ε) (s : σ) : System σ α ε := { M with start := s }

/-- A run goes on where another one has ended. -/
theorem Reaches.trans {log log' : List ε} {r s t : σ} (run : (M.restart r).Reachable log s)
    (onward : (M.restart s).Reachable log' t) : (M.restart r).Reachable (log ++ log') t := by
  induction onward with
  | start =>
      rw [List.append_nil]
      exact run
  | next action _ _ stepped ih =>
      rw [← List.append_assoc]
      exact ih.next action trivial stepped

/-- From `s` steps by some of the actions lead to `t`. -/
abbrev Leads (M : System σ α ε) (via : α → Prop) (s : σ) : List ε → σ → Prop :=
  (M.restart s).Reaches fun _ _ action => via action

variable {via : α → Prop}

/-- A run goes on by actions that its condition allows. -/
theorem Reaches.leads {log more : List ε} {s t : σ} (run : M.Reaches allowed log s)
    (permits : ∀ log s action, via action → allowed log s action)
    (onward : M.Leads via s more t) : M.Reaches allowed (log ++ more) t := by
  induction onward with
  | start =>
      rw [List.append_nil]
      exact run
  | next action _ chosen stepped ih =>
      rw [← List.append_assoc]
      exact ih.next action (permits _ _ _ chosen) stepped

/-- What can always come closer to its goal comes to it. The property may speak of the
effects since the first state. -/
theorem leads_of_progress {P : List ε → σ → Prop} {goal : σ → Prop} (rank : σ → Nat)
    (progress : ∀ log s, P log s → ¬ goal s → ∃ action t effects, via action ∧
      M.step s action = some (t, effects) ∧ P (log ++ effects) t ∧ rank t < rank s)
    {s : σ} (initial : P [] s) : ∃ log t, M.Leads via s log t ∧ P log t ∧ goal t := by
  classical
  -- The run so far is kept, and the induction is on the rank of the state it has come to.
  have onward : ∀ n log t, rank t = n → M.Leads via s log t → P log t →
      ∃ log t, M.Leads via s log t ∧ P log t ∧ goal t := by
    intro n
    induction n using Nat.strongRecOn with
    | ind n ih =>
        intro log t here run holds
        by_cases done : goal t
        · exact ⟨log, t, run, holds, done⟩
        obtain ⟨action, t', effects, chosen, stepped, kept, less⟩ := progress log t holds done
        exact ih (rank t') (here ▸ less) _ t' rfl (run.next action chosen stepped) kept
  exact onward (rank s) [] s rfl .start initial

end Restart

section Observation

variable {δ : Type x}

/-- The same steps, each seen through what `view` says of it. -/
def observe (M : System σ α ε) (view : σ → σ → List ε → List δ) : System σ α δ where
  start := M.start
  step s action := (M.step s action).map fun (t, effects) => (t, view s t effects)

theorem step_of_observe {view : σ → σ → List ε → List δ} {s t : σ} {action : α}
    {notes : List δ} (stepped : (M.observe view).step s action = some (t, notes)) :
    ∃ effects, M.step s action = some (t, effects) ∧ notes = view s t effects := by
  obtain ⟨⟨t, effects⟩, taken, same⟩ := Option.map_eq_some_iff.1 stepped
  cases same
  exact ⟨effects, taken, rfl⟩

end Observation

section Execution

variable [∀ log s action, Decidable (allowed log s action)]

/-- Execute a list of actions, stopping with `none` at the first one that is not
allowed or has no step. -/
def execute (M : System σ α ε) (allowed : List ε → σ → α → Prop)
    [∀ log s action, Decidable (allowed log s action)] :
    List ε → σ → List α → Option (List ε × σ)
  | log, s, [] => some (log, s)
  | log, s, action :: actions =>
      if allowed log s action then
        match M.step s action with
        | some (t, effects) => execute M allowed (log ++ effects) t actions
        | none => none
      else none

/-- A completed execution from a reached state is a run. -/
theorem Reaches.execute {log log' : List ε} {s t : σ} (run : M.Reaches allowed log s)
    (actions : List α) (done : M.execute allowed log s actions = some (log', t)) :
    M.Reaches allowed log' t := by
  induction actions generalizing log s with
  | nil =>
      simp only [System.execute, Option.some.injEq, Prod.mk.injEq] at done
      obtain ⟨rfl, rfl⟩ := done
      exact run
  | cons action actions ih =>
      rw [System.execute] at done
      split at done
      · rename_i permitted
        split at done
        · rename_i middle effects stepped
          exact ih (run.next action permitted stepped) done
        · cases done
      · cases done

/-- An execution whose outcome passes a test reaches a state that passes it. -/
theorem Reaches.exists_of_execute {log : List ε} {s : σ} (run : M.Reaches allowed log s)
    (actions : List α) {test : List ε → σ → Bool}
    (passed : ((M.execute allowed log s actions).any fun r => test r.1 r.2) = true) :
    ∃ log' t, M.Reaches allowed log' t ∧ test log' t = true := by
  obtain ⟨⟨log', t⟩, done, holds⟩ := (Option.any_eq_true _ _).1 passed
  exact ⟨log', t, run.execute actions done, holds⟩

end Execution

end System

end Transition
