import Mathlib.Data.List.Basic
import Mathlib.Data.List.Forall2
import Mathlib.Order.Bounds.Basic

/-!
# Streams of frames

A reader takes an item from the front of a stream, or it fails. What was written for an
item is a frame of it when the reader finds the item again, whatever follows, and runs into
the end of the stream in every proper beginning. Frames of this kind can be put together
from parts, each read by a reader of its own.

Items are read from a stream of frames until the first error. When the stream is cut
somewhere, these are the items whose frames are still whole, and the error says that the
stream has ended.
-/

namespace Frames

universe u

variable {α β γ ε δ : Type u}

section Errors

variable {σ : Type u} {x : EStateM ε σ α}

theorem adaptExcept_bind (f : ε → δ) (x : EStateM ε σ α) (next : α → EStateM ε σ γ) :
    (x.adaptExcept f >>= fun a => (next a).adaptExcept f) = (x >>= next).adaptExcept f := by
  funext s
  simp only [bind, EStateM.bind, EStateM.adaptExcept]
  cases x s <;> rfl

theorem adaptExcept_adaptExcept (f : ε → δ) (g : δ → γ) (x : EStateM ε σ α) :
    (x.adaptExcept f).adaptExcept g = x.adaptExcept (g ∘ f) := by
  funext s
  simp only [EStateM.adaptExcept]
  cases x s <;> rfl

theorem adaptExcept_eq_ok {f : ε → δ} {s s' : σ} {item : α} :
    x.adaptExcept f s = .ok item s' ↔ x s = .ok item s' := by
  simp only [EStateM.adaptExcept]
  cases x s <;> simp

end Errors

/-- Read `len` elements; a stream that ends before them is used up. -/
def takeExact (ended : ε) (len : Nat) : EStateM ε (List β) (List β) := fun stream =>
  if stream.length < len then .error ended []
  else .ok (stream.take len) (stream.drop len)

section Bind

variable {read : EStateM ε (List β) α} {next : α → EStateM ε (List β) γ} {stream rest : List β}

theorem bind_of_ok {item : α} (found : read stream = .ok item rest) :
    (read >>= next) stream = next item rest := by
  simp only [bind, EStateM.bind, found]

theorem bind_of_error {e : ε} (failed : read stream = .error e rest) :
    (read >>= next) stream = .error e rest := by
  simp only [bind, EStateM.bind, failed]

theorem ok_of_bind {item : γ} (found : (read >>= next) stream = .ok item rest) :
    ∃ first middle, read stream = .ok first middle ∧ next first middle = .ok item rest := by
  cases first : read stream with
  | ok first middle =>
      rw [bind_of_ok first] at found
      exact ⟨_, _, rfl, found⟩
  | error e middle =>
      rw [bind_of_error first] at found
      cases found

end Bind

/-- An item takes at least `n` elements from the stream. -/
def Consumes (n : Nat) (read : EStateM ε (List β) α) : Prop :=
  ∀ stream item rest, read stream = .ok item rest → rest.length + n ≤ stream.length

namespace Consumes

variable {m n : Nat} {read : EStateM ε (List β) α} {next : α → EStateM ε (List β) γ}

theorem takeExact (ended : ε) (len : Nat) :
    Consumes len (Frames.takeExact ended len : EStateM ε (List β) (List β)) := by
  intro stream item rest found
  rw [Frames.takeExact] at found
  split at found
  · cases found
  · cases found
    rw [List.length_drop]
    omega

theorem pure (item : α) : Consumes 0 (Pure.pure item : EStateM ε (List β) α) := by
  intro stream item rest found
  cases found
  exact Nat.le_refl _

theorem throw (e : ε) : Consumes n (MonadExcept.throw e : EStateM ε (List β) α) := by
  intro stream item rest found
  cases found

theorem bind (first : Consumes n read) (second : ∀ item, Consumes 0 (next item)) :
    Consumes n (read >>= next) := by
  intro stream item rest found
  obtain ⟨_, middle, early, late⟩ := ok_of_bind found
  have before := first _ _ _ early
  have behind := second _ _ _ _ late
  omega

theorem adaptExcept (consumes : Consumes n read) (f : ε → δ) :
    Consumes n (read.adaptExcept f) := by
  intro stream item rest found
  exact consumes _ _ _ (adaptExcept_eq_ok.1 found)

theorem mono (consumes : Consumes n read) (fewer : m ≤ n) : Consumes m read :=
  fun _ _ _ found => Nat.le_trans (Nat.add_le_add_left fewer _) (consumes _ _ _ found)

end Consumes

/-- The reader finds the item in its frame, whatever follows, and it comes to the end of the
stream in every proper beginning of the frame. -/
structure Reads (ended : ε) (read : EStateM ε (List β) α) (item : α) (frame : List β) :
    Prop where
  whole : ∀ rest, read (frame ++ rest) = .ok item rest
  cut : ∀ k < frame.length, ∃ rest, read (frame.take k) = .error ended rest

namespace Reads

variable {ended : ε} {read : EStateM ε (List β) α} {item : α} {frame : List β}

theorem takeExact (ended : ε) (frame : List β) :
    Reads ended (Frames.takeExact ended frame.length) frame frame where
  whole rest := by
    rw [Frames.takeExact, if_neg (by simp), List.take_left, List.drop_left]
  cut k short := by
    refine ⟨[], ?_⟩
    rw [Frames.takeExact, if_pos]
    rw [List.length_take]
    omega

theorem pure (ended : ε) (item : α) :
    Reads ended (Pure.pure item : EStateM ε (List β) α) item [] where
  whole _ := rfl
  cut _ short := absurd short (Nat.not_lt_zero _)

/-- One part behind the other. -/
theorem bind {next : α → EStateM ε (List β) γ} {item' : γ} {frame' : List β}
    (first : Reads ended read item frame) (second : Reads ended (next item) item' frame') :
    Reads ended (read >>= next) item' (frame ++ frame') where
  whole rest := by
    rw [List.append_assoc, bind_of_ok (first.whole _)]
    exact second.whole rest
  cut k short := by
    rw [List.take_append]
    by_cases early : k < frame.length
    · obtain ⟨rest, failed⟩ := first.cut k early
      rw [Nat.sub_eq_zero_of_le (Nat.le_of_lt early), List.take_zero, List.append_nil]
      exact ⟨rest, bind_of_error failed⟩
    · have later : k - frame.length < frame'.length := by
        rw [List.length_append] at short
        omega
      obtain ⟨rest, failed⟩ := second.cut _ later
      rw [List.take_of_length_le (Nat.le_of_not_lt early), bind_of_ok (first.whole _)]
      exact ⟨rest, failed⟩

theorem adaptExcept (reads : Reads ended read item frame) (f : ε → δ) :
    Reads (f ended) (read.adaptExcept f) item frame where
  whole rest := adaptExcept_eq_ok.2 (reads.whole rest)
  cut k short := by
    obtain ⟨rest, failed⟩ := reads.cut k short
    refine ⟨rest, ?_⟩
    rw [EStateM.adaptExcept, failed]

end Reads

/-- A reader whose items take something from the stream, so that it can be repeated. -/
structure Reader (α β ε : Type u) where
  read : EStateM ε (List β) α
  progress : Consumes 1 read

namespace Reader

variable {r : Reader α β ε} {stream rest : List β}

/-- The items up to the first error, and that error. -/
def readAll (r : Reader α β ε) (stream : List β) : List α × ε :=
  match _found : r.read stream with
  | .error e _ => ([], e)
  | .ok item rest =>
      let later := r.readAll rest
      (item :: later.1, later.2)
  termination_by stream.length
  decreasing_by exact r.progress _ _ _ _found

theorem readAll_of_error {e : ε} (failed : r.read stream = .error e rest) :
    r.readAll stream = ([], e) := by
  rw [readAll]
  split
  · rename_i again
    cases failed.symm.trans again
    rfl
  · rename_i again
    cases failed.symm.trans again

theorem readAll_of_ok {item : α} (found : r.read stream = .ok item rest) :
    r.readAll stream = (item :: (r.readAll rest).1, (r.readAll rest).2) := by
  rw [readAll]
  split
  · rename_i again
    cases found.symm.trans again
  · rename_i again
    cases found.symm.trans again
    rfl

end Reader

/-- How many of the frames lie wholly within the first `n` elements. -/
def within : Nat → List (List β) → Nat
  | _, [] => 0
  | n, frame :: frames => if frame.length ≤ n then within (n - frame.length) frames + 1 else 0

theorem lt_within {n i : Nat} {frames : List (List β)} :
    i < within n frames ↔
      i < frames.length ∧ (frames.take (i + 1)).flatten.length ≤ n := by
  induction frames generalizing n i with
  | nil => simp [within]
  | cons frame frames ih =>
      rw [within, List.take_succ_cons, List.flatten_cons, List.length_append, List.length_cons]
      split
      · cases i with
        | zero =>
            rw [List.take_zero, List.flatten_nil, List.length_nil]
            omega
        | succ i =>
            rw [Nat.succ_lt_succ_iff, ih]
            omega
      · omega

/-- No more frames lie within the first `n` elements than that. -/
theorem isGreatest_within (n : Nat) (frames : List (List β)) :
    IsGreatest {k | k ≤ frames.length ∧ (frames.take k).flatten.length ≤ n} (within n frames) := by
  constructor
  · cases fitting : within n frames with
    | zero => exact ⟨Nat.zero_le _, Nat.zero_le _⟩
    | succ i => exact lt_within.1 (show i < within n frames by omega)
  · rintro k ⟨inside, fits⟩
    cases k with
    | zero => exact Nat.zero_le _
    | succ i => exact lt_within.2 ⟨inside, fits⟩

/-- A stream of frames that is cut yields the items whose frames are whole, and then the end
of the stream. -/
theorem readAll_take {r : Reader α β ε} {ended : ε} {items : List α} {frames : List (List β)}
    (empty : r.readAll [] = ([], ended)) (framed : List.Forall₂ (Reads ended r.read) items frames)
    (n : Nat) : r.readAll (frames.flatten.take n) = (items.take (within n frames), ended) := by
  induction framed generalizing n with
  | nil =>
      rw [List.flatten_nil, List.take_nil, empty]
      rfl
  | @cons item frame items frames reads _ ih =>
      rw [List.flatten_cons, List.take_append, within]
      split
      · rename_i fits
        rw [List.take_of_length_le fits, Reader.readAll_of_ok (reads.whole _), ih,
          List.take_succ_cons]
      · rename_i short
        obtain ⟨rest, failed⟩ := reads.cut n (Nat.lt_of_not_le short)
        rw [Nat.sub_eq_zero_of_le (Nat.le_of_not_le short), List.take_zero, List.append_nil,
          Reader.readAll_of_error failed, List.take_zero]

end Frames
