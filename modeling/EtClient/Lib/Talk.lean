import EtClient.Lib.Transition
import Mathlib.Data.List.Infix
import Mathlib.Tactic.Common

/-!
# Programs that talk over bounded pipes

A talk is a sequential program that writes and reads one symbol after the other and in the end
returns or fails. What it has sent and what it has got determine where it is.

A pair of talks stands at the two ends of two pipes, one for each direction, which hold a bounded
number of symbols. A write waits for room and a read for a symbol, and each end may fail at any
time. In every state of every run, what one end has sent is what the other end has got followed by
what the pipe holds. So the two ends agree whatever the interleaving was, and a state in which
nobody can move is one in which every end that is not through waits for a full or an empty pipe.
-/

universe u v w x y z

/-- A program that reads symbols of `ι` and writes symbols of `ο`. -/
inductive Talk (ι : Type u) (ο : Type v) (ε : Type w) (α : Type x)
  | ret (result : Except ε α)
  | put (symbol : ο) (next : Talk ι ο ε α)
  | get (next : ι → Talk ι ο ε α)

namespace Talk

variable {ι : Type u} {ο : Type v} {ε : Type w} {α : Type x} {β : Type y} {γ : Type z}

protected def bind : Talk ι ο ε α → (α → Talk ι ο ε β) → Talk ι ο ε β
  | .ret (.ok a), f => f a
  | .ret (.error e), _ => .ret (.error e)
  | .put symbol next, f => .put symbol (next.bind f)
  | .get next, f => .get fun symbol => (next symbol).bind f

instance : Monad (Talk ι ο ε) where
  pure a := .ret (.ok a)
  bind := Talk.bind

/-- A computation that needs no symbols. -/
def lift (result : Except ε α) : Talk ι ο ε α := .ret result

def write : List ο → Talk ι ο ε PUnit
  | [] => .ret (.ok ⟨⟩)
  | symbol :: symbols => .put symbol (write symbols)

/-- Read this number of symbols. -/
def readExact : Nat → Talk ι ο ε (List ι)
  | 0 => .ret (.ok [])
  | n + 1 => .get fun symbol => (readExact n).bind fun symbols => .ret (.ok (symbol :: symbols))

theorem write_append (first second : List ο) :
    (write (first ++ second) : Talk ι ο ε PUnit) = (write first).bind fun _ => write second := by
  induction first with
  | nil => rfl
  | cons symbol first ih => exact congrArg (Talk.put symbol) ih

theorem bind_assoc (t : Talk ι ο ε α) (f : α → Talk ι ο ε β) (g : β → Talk ι ο ε γ) :
    (t.bind f).bind g = t.bind fun a => (f a).bind g := by
  induction t with
  | ret result => cases result <;> rfl
  | put symbol next ih => exact congrArg (Talk.put symbol) ih
  | get next ih => exact congrArg Talk.get (funext ih)

/-- What a talk sends when this is all that comes in, and its result with the symbols behind it,
unless it waits for more. -/
def run : Talk ι ο ε α → List ι → List ο × Option (Except ε α × List ι)
  | .ret result, input => ([], some (result, input))
  | .put symbol next, input =>
      let (sent, result) := next.run input
      (symbol :: sent, result)
  | .get _, [] => ([], none)
  | .get next, symbol :: input => (next symbol).run input

theorem run_write (symbols : List ο) (input : List ι) :
    (write symbols : Talk ι ο ε PUnit).run input = (symbols, some (.ok ⟨⟩, input)) := by
  induction symbols with
  | nil => rfl
  | cons symbol symbols ih =>
      show (symbol :: ((write symbols : Talk ι ο ε PUnit).run input).1, _) = _
      rw [ih]

theorem run_bind (t : Talk ι ο ε α) (f : α → Talk ι ο ε β) (input : List ι) :
    (t.bind f).run input =
      match t.run input with
      | (sent, some (.ok a, rest)) => (sent ++ ((f a).run rest).1, ((f a).run rest).2)
      | (sent, some (.error e, rest)) => (sent, some (.error e, rest))
      | (sent, none) => (sent, none) := by
  induction t generalizing input with
  | ret result => cases result <;> rfl
  | put symbol next ih =>
      show (symbol :: ((next.bind f).run input).1, ((next.bind f).run input).2) = _
      rw [ih]
      simp only [run]
      generalize next.run input = done
      obtain ⟨sent, _ | ⟨_ | _, _⟩⟩ := done <;> rfl
  | get next ih =>
      cases input with
      | nil => rfl
      | cons symbol input => exact ih symbol input

theorem run_readExact (n : Nat) (input : List ι) :
    (readExact n : Talk ι ο ε (List ι)).run input =
      ([], if input.length < n then none else some (.ok (input.take n), input.drop n)) := by
  induction n generalizing input with
  | zero => rfl
  | succ n ih =>
      cases input with
      | nil => rfl
      | cons symbol input =>
          show ((readExact n).bind _ : Talk ι ο ε (List ι)).run input = _
          rw [run_bind, ih, List.length_cons]
          by_cases short : input.length < n
          · rw [if_pos short, if_pos (Nat.succ_lt_succ short)]
          · rw [if_neg short, if_neg (mt Nat.lt_of_succ_lt_succ short)]
            rfl

/-- The talk waits to write. -/
def Writes (t : Talk ι ο ε α) : Prop := ∃ symbol next, t = .put symbol next

/-- The talk waits to read. -/
def Reads (t : Talk ι ο ε α) : Prop := ∃ next, t = .get next

def Fails (t : Talk ι ο ε α) : Prop := ∃ e, t = .ret (.error e)

/-- With these symbols sent and those got, the talk has become another one. -/
inductive Reach : Talk ι ο ε α → List ο → List ι → Talk ι ο ε α → Prop
  | here (t : Talk ι ο ε α) : Reach t [] [] t
  | put (symbol : ο) {next t : Talk ι ο ε α} {sent : List ο} {got : List ι} :
      Reach next sent got t → Reach (.put symbol next) (symbol :: sent) got t
  | get {next : ι → Talk ι ο ε α} (symbol : ι) {t : Talk ι ο ε α} {sent : List ο} {got : List ι} :
      Reach (next symbol) sent got t → Reach (.get next) sent (symbol :: got) t

namespace Reach

variable {t t' : Talk ι ο ε α} {sent : List ο} {got : List ι}

theorem sends {symbol : ο} (reach : Reach t sent got (.put symbol t')) :
    Reach t (sent ++ [symbol]) got t' := by
  generalize ends : Talk.put symbol t' = u at reach
  induction reach with
  | here => exact ends ▸ .put symbol (.here t')
  | put first _ ih => exact .put first (ih ends)
  | get first _ ih => exact .get first (ih ends)

theorem takes {next : ι → Talk ι ο ε α} (reach : Reach t sent got (.get next)) (symbol : ι) :
    Reach t sent (got ++ [symbol]) (next symbol) := by
  generalize ends : Talk.get next = u at reach
  induction reach with
  | here => exact ends ▸ .get symbol (.here _)
  | put first _ ih => exact .put first (ih ends)
  | get first _ ih => exact .get first (ih ends)

/-- A talk that is through, alone with the symbols that it has got, sends the same and comes to
the same result. -/
theorem run_eq {result : Except ε α} (reach : Reach t sent got (.ret result)) (rest : List ι) :
    t.run (got ++ rest) = (sent, some (result, rest)) := by
  generalize ends : Talk.ret result = u at reach
  induction reach with
  | here => exact ends ▸ rfl
  | put symbol _ ih =>
      rw [run, ih ends]
  | get symbol _ ih =>
      rw [List.cons_append, run, ih ends]

theorem ret {result : Except ε α} (reach : Reach (.ret result) sent got t) :
    sent = [] ∧ got = [] ∧ t = .ret result := by
  cases reach
  exact ⟨rfl, rfl, rfl⟩

/-- A talk that writes first is at the write, or behind it. -/
theorem write {f : PUnit → Talk ι ο ε α} {symbols : List ο}
    (reach : Reach ((Talk.write symbols).bind f) sent got t) :
    (∃ unsent, unsent ≠ [] ∧ sent ++ unsent = symbols ∧ got = [] ∧ t.Writes) ∨
      ∃ more, sent = symbols ++ more ∧ Reach (f ⟨⟩) more got t := by
  induction symbols generalizing sent with
  | nil => exact .inr ⟨sent, rfl, reach⟩
  | cons symbol symbols ih =>
      have unfolded : (Talk.write (symbol :: symbols)).bind f =
          .put symbol ((Talk.write symbols).bind f) := rfl
      rw [unfolded] at reach
      cases reach with
      | here => exact .inl ⟨symbol :: symbols, List.cons_ne_nil _ _, rfl, rfl, symbol, _, rfl⟩
      | put _ reach =>
          refine (ih reach).imp ?_ ?_
          · rintro ⟨unsent, some, rfl, none, waits⟩
            exact ⟨unsent, some, rfl, none, waits⟩
          · rintro ⟨more, rfl, behind⟩
            exact ⟨more, rfl, behind⟩

/-- A talk that reads first is at the read, or behind it. -/
theorem read {n : Nat} {f : List ι → Talk ι ο ε α}
    (reach : Reach ((readExact n).bind f) sent got t) :
    (sent = [] ∧ got.length < n ∧ t.Reads) ∨
      ∃ taken rest, taken.length = n ∧ got = taken ++ rest ∧ Reach (f taken) sent rest t := by
  induction n generalizing got f with
  | zero => exact .inr ⟨[], got, rfl, rfl, reach⟩
  | succ n ih =>
      have unfolded : (readExact (n + 1)).bind f = (.get fun symbol =>
          (readExact n).bind fun symbols => f (symbol :: symbols) : Talk ι ο ε α) :=
        congrArg Talk.get (funext fun symbol => bind_assoc _ _ _)
      rw [unfolded] at reach
      cases reach with
      | here => exact .inl ⟨rfl, Nat.succ_pos n, _, rfl⟩
      | get symbol reach =>
          refine (ih reach).imp ?_ ?_
          · rintro ⟨none, few, waits⟩
            exact ⟨none, Nat.succ_lt_succ few, waits⟩
          · rintro ⟨taken, rest, length, rfl, behind⟩
            exact ⟨symbol :: taken, rest, congrArg (· + 1) length, rfl, behind⟩

end Reach

/-- The next symbol is written, if there is room for it, or read, if there is one. -/
def advance (room : Nat) (incoming : List ι) (outgoing : List ο) :
    Talk ι ο ε α → Option (Talk ι ο ε α × (ο ⊕ ι) × List ι × List ο)
  | .ret _ => none
  | .put symbol next =>
      if outgoing.length < room then some (next, .inl symbol, incoming, outgoing ++ [symbol])
      else none
  | .get next =>
      match incoming with
      | [] => none
      | symbol :: rest => some (next symbol, .inr symbol, rest, outgoing)

/-- The talk fails, wherever it is. -/
def abandon (e : ε) : Talk ι ο ε α → Option (Talk ι ο ε α)
  | .ret _ => none
  | _ => some (.ret (.error e))

theorem Writes.full {t : Talk ι ο ε α} {room : Nat} {incoming : List ι} {outgoing : List ο}
    (writes : t.Writes) (stuck : t.advance room incoming outgoing = none) :
    room ≤ outgoing.length := by
  obtain ⟨symbol, next, rfl⟩ := writes
  simp only [advance] at stuck
  split at stuck
  · cases stuck
  · exact Nat.le_of_not_lt ‹_›

theorem Reads.empty {t : Talk ι ο ε α} {room : Nat} {incoming : List ι} {outgoing : List ο}
    (reads : t.Reads) (stuck : t.advance room incoming outgoing = none) : incoming = [] := by
  obtain ⟨next, rfl⟩ := reads
  cases incoming with
  | nil => rfl
  | cons symbol rest => cases stuck

/-- Two talks, and what has been sent and not been read in each direction. -/
structure Pair (ι : Type u) (ο : Type v) (ε : Type w) (α : Type x) (β : Type y) where
  left : Talk ι ο ε α
  right : Talk ο ι ε β
  toRight : List ο
  toLeft : List ι

inductive PairAct (ε : Type w)
  | left
  | right
  | leftFails (e : ε)
  | rightFails (e : ε)

/-- What a step has done: a symbol was written or read at one end, or the end has failed. -/
inductive PairNote (ι : Type u) (ο : Type v) (ε : Type w)
  | left (moved : ο ⊕ ι)
  | right (moved : ι ⊕ ο)
  | leftFailed (e : ε)
  | rightFailed (e : ε)

namespace Pair

def step (room back : Nat) (p : Pair ι ο ε α β) :
    PairAct ε → Option (Pair ι ο ε α β × List (PairNote ι ο ε))
  | .left =>
      (p.left.advance room p.toLeft p.toRight).map fun (left, moved, toLeft, toRight) =>
        (⟨left, p.right, toRight, toLeft⟩, [.left moved])
  | .right =>
      (p.right.advance back p.toRight p.toLeft).map fun (right, moved, toRight, toLeft) =>
        (⟨p.left, right, toRight, toLeft⟩, [.right moved])
  | .leftFails e =>
      (p.left.abandon e).map fun left => ({ p with left := left }, [.leftFailed e])
  | .rightFails e =>
      (p.right.abandon e).map fun right => ({ p with right := right }, [.rightFailed e])

/-- Both talks at their start and empty pipes. The pipe to the right has room for `room`
symbols, the one to the left for `back`. -/
def system (room back : Nat) (left : Talk ι ο ε α) (right : Talk ο ι ε β) :
    Transition.System (Pair ι ο ε α β) (PairAct ε) (PairNote ι ο ε) where
  start := ⟨left, right, [], []⟩
  step := step room back

/-- Nobody can move. -/
def Stuck (room back : Nat) (p : Pair ι ο ε α β) : Prop :=
  p.left.advance room p.toLeft p.toRight = none ∧ p.right.advance back p.toRight p.toLeft = none

end Pair

namespace PairNote

def sentLeft (log : List (PairNote ι ο ε)) : List ο :=
  log.filterMap fun
    | .left (.inl symbol) => some symbol
    | _ => none

def gotLeft (log : List (PairNote ι ο ε)) : List ι :=
  log.filterMap fun
    | .left (.inr symbol) => some symbol
    | _ => none

def sentRight (log : List (PairNote ι ο ε)) : List ι :=
  log.filterMap fun
    | .right (.inl symbol) => some symbol
    | _ => none

def gotRight (log : List (PairNote ι ο ε)) : List ο :=
  log.filterMap fun
    | .right (.inr symbol) => some symbol
    | _ => none

/-- No end has failed. -/
def Calm (log : List (PairNote ι ο ε)) : Prop :=
  ∀ e, .leftFailed e ∉ log ∧ .rightFailed e ∉ log

end PairNote

/-- The symbol that was written, if one was. -/
def written (moved : ο ⊕ ι) : List ο := moved.getLeft?.toList

/-- The symbol that was read, if one was. -/
def taken (moved : ο ⊕ ι) : List ι := moved.getRight?.toList

section Append

open PairNote

variable (log : List (PairNote ι ο ε))

/-- A step of the left end in the history. -/
theorem append_left (moved : ο ⊕ ι) :
    sentLeft (log ++ [.left moved]) = sentLeft log ++ written moved ∧
      gotLeft (log ++ [.left moved]) = gotLeft log ++ taken moved ∧
      sentRight (log ++ [.left moved]) = sentRight log ∧
      gotRight (log ++ [.left moved]) = gotRight log := by
  cases moved <;> simp [sentLeft, gotLeft, sentRight, gotRight, written, taken]

/-- A step of the right end in the history. -/
theorem append_right (moved : ι ⊕ ο) :
    sentRight (log ++ [.right moved]) = sentRight log ++ written moved ∧
      gotRight (log ++ [.right moved]) = gotRight log ++ taken moved ∧
      sentLeft (log ++ [.right moved]) = sentLeft log ∧
      gotLeft (log ++ [.right moved]) = gotLeft log := by
  cases moved <;> simp [sentLeft, gotLeft, sentRight, gotRight, written, taken]

/-- Failures move nothing. -/
theorem append_failed (note : PairNote ι ο ε) {e : ε}
    (failed : note = .leftFailed e ∨ note = .rightFailed e) :
    sentLeft (log ++ [note]) = sentLeft log ∧ gotLeft (log ++ [note]) = gotLeft log ∧
      sentRight (log ++ [note]) = sentRight log ∧ gotRight (log ++ [note]) = gotRight log := by
  obtain rfl | rfl := failed <;> simp [sentLeft, gotLeft, sentRight, gotRight]

end Append

/-- A talk is where its symbols have taken it, or it has failed there. -/
def Stands (start now : Talk ι ο ε α) (sent : List ο) (got : List ι) (failed : ε → Prop) : Prop :=
  ∃ t, Reach start sent got t ∧ (now = t ∨ ∃ e, failed e ∧ now = .ret (.error e))

namespace Stands

variable {start now now' : Talk ι ο ε α} {sent : List ο} {got : List ι} {failed failed' : ε → Prop}
variable {incoming incoming' : List ι} {outgoing outgoing' : List ο} {room : Nat} {moved : ο ⊕ ι}

theorem mono (stands : Stands start now sent got failed) (more : ∀ e, failed e → failed' e) :
    Stands start now sent got failed' := by
  obtain ⟨t, reach, same | ⟨e, told, gone⟩⟩ := stands
  · exact ⟨t, reach, .inl same⟩
  · exact ⟨t, reach, .inr ⟨e, more e told, gone⟩⟩

theorem abandon (stands : Stands start now sent got failed) {e : ε}
    (gave : now.abandon e = some now') (told : failed e) : Stands start now' sent got failed := by
  obtain ⟨t, reach, _⟩ := stands
  refine ⟨t, reach, .inr ⟨e, told, ?_⟩⟩
  cases now <;> cases gave <;> rfl

/-- One symbol goes from the talk into the pipe, or from the pipe into the talk. -/
theorem advance (stands : Stands start now sent got failed)
    (step : now.advance room incoming outgoing = some (now', moved, incoming', outgoing')) :
    Stands start now' (sent ++ written moved) (got ++ taken moved) failed ∧
      outgoing' = outgoing ++ written moved ∧ incoming = taken moved ++ incoming' ∧
      (outgoing.length ≤ room → outgoing'.length ≤ room) := by
  obtain ⟨t, reach, rfl | ⟨e, _, rfl⟩⟩ := stands
  · cases now with
    | ret result => cases step
    | put symbol next =>
        simp only [Talk.advance] at step
        split at step <;> cases step
        refine ⟨⟨_, ?_, .inl rfl⟩, rfl, rfl, fun _ => ?_⟩
        · rw [taken, Sum.getRight?, Option.toList_none, List.append_nil]
          exact reach.sends
        · rw [List.length_append]
          exact ‹_ < _›
    | get next =>
        cases incoming with
        | nil => cases step
        | cons symbol rest =>
            cases step
            refine ⟨⟨_, ?_, .inl rfl⟩, (List.append_nil _).symm, rfl, id⟩
            rw [written, Sum.getLeft?, Option.toList_none, List.append_nil]
            exact reach.takes symbol
  · cases step

/-- A talk that has not failed stands where its symbols have taken it. -/
theorem reach (stands : Stands start now sent got failed) (calm : ∀ e, ¬ failed e) :
    Reach start sent got now := by
  obtain ⟨t, reach, rfl | ⟨e, told, _⟩⟩ := stands
  · exact reach
  · exact absurd told (calm e)

/-- A talk that has returned has not failed. -/
theorem reach_ok {a : α} (stands : Stands start (.ret (.ok a)) sent got failed) :
    Reach start sent got (.ret (.ok a)) := by
  obtain ⟨t, reach, rfl | ⟨e, _, gone⟩⟩ := stands
  · exact reach
  · cases gone

end Stands

namespace Pair

open PairNote

/-- Both ends stand where their symbols have taken them, and what one end has sent is what the
other end has got and what the pipe holds. -/
structure Balanced (room back : Nat) (left : Talk ι ο ε α) (right : Talk ο ι ε β)
    (log : List (PairNote ι ο ε)) (p : Pair ι ο ε α β) : Prop where
  left : Stands left p.left (sentLeft log) (gotLeft log) fun e => .leftFailed e ∈ log
  right : Stands right p.right (sentRight log) (gotRight log) fun e => .rightFailed e ∈ log
  toRight : sentLeft log = gotRight log ++ p.toRight
  toLeft : sentRight log = gotLeft log ++ p.toLeft
  room : p.toRight.length ≤ room
  back : p.toLeft.length ≤ back

variable {room back : Nat} {left : Talk ι ο ε α} {right : Talk ο ι ε β}
variable {log notes : List (PairNote ι ο ε)} {p p' : Pair ι ο ε α β} {act : PairAct ε}

theorem Balanced.step (balanced : Balanced room back left right log p)
    (stepped : p.step room back act = some (p', notes)) :
    Balanced room back left right (log ++ notes) p' := by
  have kept {note : PairNote ι ο ε} (old : note ∈ log) : note ∈ log ++ notes :=
    List.mem_append_left _ old
  have leftStands := balanced.left.mono fun e => kept
  have rightStands := balanced.right.mono fun e => kept
  have last (note : PairNote ι ο ε) : note ∈ log ++ [note] :=
    List.mem_append_right _ (List.mem_singleton_self note)
  cases act with
  | left =>
      obtain ⟨⟨now, moved, toLeft, toRight⟩, step, same⟩ := Option.map_eq_some_iff.mp stepped
      cases same
      obtain ⟨stands, outgoing, incoming, fits⟩ := leftStands.advance step
      obtain ⟨sent, got, sentOther, gotOther⟩ := append_left log moved
      have length := balanced.back
      rw [incoming, List.length_append] at length
      refine ⟨?_, ?_, ?_, ?_, fits balanced.room, Nat.le_trans (Nat.le_add_left _ _) length⟩
      · rw [sent, got]
        exact stands
      · rw [sentOther, gotOther]
        exact rightStands
      · rw [sent, gotOther, balanced.toRight, List.append_assoc, outgoing]
      · rw [sentOther, got, balanced.toLeft, List.append_assoc, incoming]
  | right =>
      obtain ⟨⟨now, moved, toRight, toLeft⟩, step, same⟩ := Option.map_eq_some_iff.mp stepped
      cases same
      obtain ⟨stands, outgoing, incoming, fits⟩ := rightStands.advance step
      obtain ⟨sent, got, sentOther, gotOther⟩ := append_right log moved
      have length := balanced.room
      rw [incoming, List.length_append] at length
      refine ⟨?_, ?_, ?_, ?_, Nat.le_trans (Nat.le_add_left _ _) length, fits balanced.back⟩
      · rw [sentOther, gotOther]
        exact leftStands
      · rw [sent, got]
        exact stands
      · rw [sentOther, got, balanced.toRight, List.append_assoc, incoming]
      · rw [sent, gotOther, balanced.toLeft, List.append_assoc, outgoing]
  | leftFails e =>
      obtain ⟨now, gave, same⟩ := Option.map_eq_some_iff.mp stepped
      cases same
      obtain ⟨sent, got, sentOther, gotOther⟩ := append_failed log (.leftFailed e) (.inl rfl)
      refine ⟨?_, ?_, ?_, ?_, balanced.room, balanced.back⟩
      · rw [sent, got]
        exact leftStands.abandon gave (last _)
      · rw [sentOther, gotOther]
        exact rightStands
      · rw [sent, gotOther, balanced.toRight]
      · rw [sentOther, got, balanced.toLeft]
  | rightFails e =>
      obtain ⟨now, gave, same⟩ := Option.map_eq_some_iff.mp stepped
      cases same
      obtain ⟨sentOther, gotOther, sent, got⟩ := append_failed log (.rightFailed e) (.inr rfl)
      refine ⟨?_, ?_, ?_, ?_, balanced.room, balanced.back⟩
      · rw [sentOther, gotOther]
        exact leftStands
      · rw [sent, got]
        exact rightStands.abandon gave (last _)
      · rw [sentOther, got, balanced.toRight]
      · rw [sent, gotOther, balanced.toLeft]

/-- In every run the two ends and the pipes are in balance. -/
theorem balanced_reachable (run : (system room back left right).Reachable log p) :
    Balanced room back left right log p := by
  refine run.invariant (P := Balanced room back left right) ?_ ?_
  · exact ⟨⟨left, .here left, .inl rfl⟩, ⟨right, .here right, .inl rfl⟩, rfl, rfl, Nat.zero_le _,
      Nat.zero_le _⟩
  · intro log p act p' notes balanced _ stepped
    exact balanced.step stepped

/-- Every step moves one symbol or is a failure. -/
theorem length_of_calm (calm : Calm log) :
    log.length = (sentLeft log).length + (gotLeft log).length +
      ((sentRight log).length + (gotRight log).length) := by
  induction log using List.reverseRecOn with
  | nil => rfl
  | append_singleton log note ih =>
      have before : Calm log := fun e =>
        ⟨mt (List.mem_append_left _) (calm e).1, mt (List.mem_append_left _) (calm e).2⟩
      have one := ih before
      cases note with
      | left moved =>
          obtain ⟨sent, got, sentOther, gotOther⟩ := append_left log moved
          rw [sent, got, sentOther, gotOther]
          cases moved <;> simp [written, taken] <;> omega
      | right moved =>
          obtain ⟨sent, got, sentOther, gotOther⟩ := append_right log moved
          rw [sent, got, sentOther, gotOther]
          cases moved <;> simp [written, taken] <;> omega
      | leftFailed e => exact absurd (by simp) (calm e).1
      | rightFailed e => exact absurd (by simp) (calm e).2

/-- When the runs without a failure do not go on forever, one of them comes to where nobody can
move. -/
theorem exists_stuck {bound : Nat} (bounded : ∀ log p,
      (system room back left right).Reachable log p → Calm log → log.length ≤ bound) :
    ∃ log p, (system room back left right).Reachable log p ∧ Calm log ∧ p.Stuck room back := by
  have onward : ∀ n log p, (system room back left right).Reachable log p → Calm log →
      bound < log.length + n →
      ∃ log p, (system room back left right).Reachable log p ∧ Calm log ∧ p.Stuck room back := by
    intro n
    induction n with
    | zero =>
        intro log p run calm long
        exact absurd (bounded log p run calm) (Nat.not_le_of_lt long)
    | succ n ih =>
        intro log p run calm long
        have goes {act : PairAct ε} {note : PairNote ι ο ε} {p' : Pair ι ο ε α β}
            (stepped : p.step room back act = some (p', [note]))
            (quiet : ∀ e, note ≠ .leftFailed e ∧ note ≠ .rightFailed e) :
            ∃ log p, (system room back left right).Reachable log p ∧ Calm log ∧
              p.Stuck room back := by
          refine ih (log ++ [note]) p' (run.next act trivial stepped) (fun e => ?_) ?_
          · simp [calm e, (quiet e).1.symm, (quiet e).2.symm]
          · rw [List.length_append, List.length_singleton]
            omega
        cases moveLeft : p.left.advance room p.toLeft p.toRight with
        | some moved =>
            have stepped : p.step room back .left =
                some (⟨moved.1, p.right, moved.2.2.2, moved.2.2.1⟩, [.left moved.2.1]) :=
              congrArg (Option.map _) moveLeft
            exact goes stepped (by simp)
        | none =>
            cases moveRight : p.right.advance back p.toRight p.toLeft with
            | some moved =>
                have stepped : p.step room back .right =
                    some (⟨p.left, moved.1, moved.2.2.1, moved.2.2.2⟩, [.right moved.2.1]) :=
                  congrArg (Option.map _) moveRight
                exact goes stepped (by simp)
            | none => exact ⟨log, p, run, calm, moveLeft, moveRight⟩
  exact onward (bound + 1) [] _ .start (fun e => by simp) (by simp)

end Pair

end Talk
