import Mathlib.Data.List.DropRight

/-!
# Texts

A text is its list of characters. This module says how such a text is trimmed, how it is
cut at a separator, and how a decimal number with an optional sign is read from it.

`Decimal` is the plain meaning of a number: one or more ASCII digits and the value they
denote. `Signed` lets a sign stand before them. A reader of signed numbers accepts exactly
these texts, as far as the value is in its range.
-/

namespace Text

/-- The characters with the Unicode property `White_Space`. -/
def isWhitespace (c : Char) : Bool :=
  (9 ≤ c.toNat && c.toNat ≤ 13) || (0x2000 ≤ c.toNat && c.toNat ≤ 0x200A) ||
    [0x20, 0x85, 0xA0, 0x1680, 0x2028, 0x2029, 0x202F, 0x205F, 0x3000].contains c.toNat

theorem isWhitespace_digit {c : Char} (digit : c.isDigit) : isWhitespace c = false := by
  have bounds : 48 ≤ c.toNat ∧ c.toNat ≤ 57 := by
    rw [Char.isDigit, Bool.and_eq_true, decide_eq_true_iff, decide_eq_true_iff] at digit
    exact ⟨UInt32.le_iff_toNat_le.mp digit.1, UInt32.le_iff_toNat_le.mp digit.2⟩
  simp [isWhitespace]
  omega

def trim (s : List Char) : List Char :=
  (s.dropWhile isWhitespace).rdropWhile isWhitespace

/-- A text that white space does not border. -/
def Trimmed (s : List Char) : Prop :=
  (∀ c ∈ s.head?, isWhitespace c = false) ∧ ∀ c ∈ s.getLast?, isWhitespace c = false

theorem trim_of_blank {s : List Char} (blank : ∀ c ∈ s, isWhitespace c) : trim s = [] := by
  rw [trim, List.rdropWhile_eq_nil_iff]
  intro c mem
  exact blank c (List.dropWhile_subset _ mem)

theorem trim_pad {left s right : List Char} (before : ∀ c ∈ left, isWhitespace c)
    (after : ∀ c ∈ right, isWhitespace c) (trimmed : Trimmed s) :
    trim (left ++ s ++ right) = s := by
  cases s with
  | nil =>
      apply trim_of_blank
      intro c mem
      rw [List.append_nil, List.mem_append] at mem
      exact mem.elim (before c) (after c)
  | cons first rest =>
      have front : (left ++ (first :: rest) ++ right).dropWhile isWhitespace =
          (first :: rest) ++ right := by
        rw [List.append_assoc, List.dropWhile_append_of_pos before, List.cons_append,
          List.dropWhile_cons_of_neg]
        simp [trimmed.1 first rfl]
      have back : (first :: rest).reverse.dropWhile isWhitespace = (first :: rest).reverse := by
        cases last : (first :: rest).reverse with
        | nil => rfl
        | cons c init =>
            apply List.dropWhile_cons_of_neg
            have ends : (first :: rest).getLast? = some c := by
              rw [← List.head?_reverse, last, List.head?_cons]
            simp [trimmed.2 c ends]
      have blank : ∀ c ∈ right.reverse, isWhitespace c := by
        intro c mem
        exact after c (List.mem_reverse.mp mem)
      rw [trim, front, List.rdropWhile, List.reverse_append,
        List.dropWhile_append_of_pos blank, back, List.reverse_reverse]

/-- The pieces of a text between the separators. -/
theorem mem_splitOn {sep : Char} {s part : List Char} (mem : part ∈ s.splitOn sep) :
    sep ∉ part ∧ part ⊆ s := by
  rw [List.splitOn_eq_splitOnP] at mem
  induction s generalizing part with
  | nil =>
      rw [List.splitOnP_nil, List.mem_singleton] at mem
      simp [mem]
  | cons c s ih =>
      rw [List.splitOnP_cons_eq_if_modifyHead] at mem
      split at mem
      · rcases List.mem_cons.mp mem with rfl | mem
        · simp
        · exact ⟨(ih mem).1, List.subset_cons_of_subset c (ih mem).2⟩
      · rename_i other
        cases parts : s.splitOnP (· == sep) with
        | nil => exact absurd parts (List.splitOnP_ne_nil _ _)
        | cons head tail =>
            rw [parts] at mem ih
            rcases List.mem_cons.mp mem with rfl | mem
            · obtain ⟨apart, within⟩ := ih List.mem_cons_self
              have unlike : sep ≠ c := by
                rintro rfl
                exact other (beq_self_eq_true sep)
              exact ⟨by simp [unlike, apart], List.cons_subset_cons c within⟩
            · obtain ⟨apart, within⟩ := ih (List.mem_cons_of_mem _ mem)
              exact ⟨apart, List.subset_cons_of_subset c within⟩

theorem eq_of_splitOn_eq_pair {sep : Char} {s first second : List Char}
    (parts : s.splitOn sep = [first, second]) : s = first ++ sep :: second := by
  rw [← @List.intercalate_splitOn _ s _ _ sep, parts, List.intercalate_cons_cons,
    List.intercalate_singleton, List.append_assoc, List.singleton_append]

theorem splitOn_append_cons {sep : Char} {first : List Char} (apart : sep ∉ first)
    (rest : List Char) : (first ++ sep :: rest).splitOn sep = first :: rest.splitOn sep := by
  rw [List.splitOn_append_cons_self, List.splitOn_eq_singleton apart, List.singleton_append]

theorem splitOn_pair {sep : Char} {first second : List Char}
    (apart : sep ∉ first ∧ sep ∉ second) :
    (first ++ sep :: second).splitOn sep = [first, second] := by
  rw [splitOn_append_cons apart.1, List.splitOn_eq_singleton apart.2]

/-- The text of a natural number: one or more ASCII digits. -/
structure Decimal (s : List Char) (n : Nat) : Prop where
  nonempty : s ≠ []
  digits : ∀ c ∈ s, c.isDigit
  value : Nat.ofDigitChars 10 s 0 = n

namespace Decimal

variable {s : List Char} {n : Nat}

theorem toDigits (n : Nat) : Decimal (Nat.toDigits 10 n) n where
  nonempty := Nat.toDigits_ne_nil
  digits _ mem := Nat.isDigit_of_mem_toDigits (by decide) (by decide) mem
  value := Nat.ofDigitChars_toDigits (by decide) (by decide)

theorem not_mem (decimal : Decimal s n) {c : Char} (other : c.isDigit = false) : c ∉ s := by
  intro mem
  have digit := decimal.digits c mem
  rw [other] at digit
  cases digit

end Decimal

def readDigits (s : List Char) : Option Nat :=
  if s ≠ [] ∧ s.all Char.isDigit then some (Nat.ofDigitChars 10 s 0) else none

theorem readDigits_eq_some {s : List Char} {n : Nat} : readDigits s = some n ↔ Decimal s n := by
  constructor
  · intro read
    rw [readDigits, Option.ite_none_right_eq_some] at read
    obtain ⟨⟨nonempty, digits⟩, value⟩ := read
    exact ⟨nonempty, List.all_eq_true.mp digits, Option.some.inj value⟩
  · intro decimal
    rw [readDigits, if_pos ⟨decimal.nonempty, List.all_eq_true.mpr decimal.digits⟩,
      decimal.value]

/-- The text of an integer: a decimal text behind an optional sign. -/
inductive Signed : List Char → Int → Prop
  | plain {s : List Char} {n : Nat} (decimal : Decimal s n) : Signed s n
  | plus {s : List Char} {n : Nat} (decimal : Decimal s n) : Signed ('+' :: s) n
  | minus {s : List Char} {n : Nat} (decimal : Decimal s n) : Signed ('-' :: s) (-n)

def readSigned : List Char → Option Int
  | '+' :: digits => (readDigits digits).map fun n : Nat => (n : Int)
  | '-' :: digits => (readDigits digits).map fun n : Nat => -(n : Int)
  | digits => (readDigits digits).map fun n : Nat => (n : Int)

theorem readSigned_eq_some {s : List Char} {value : Int} :
    readSigned s = some value ↔ Signed s value := by
  constructor
  · intro read
    unfold readSigned at read
    split at read <;> obtain ⟨n, digits, rfl⟩ := Option.map_eq_some_iff.mp read
    · exact .plus (readDigits_eq_some.mp digits)
    · exact .minus (readDigits_eq_some.mp digits)
    · exact .plain (readDigits_eq_some.mp digits)
  · intro signed
    cases signed with
    | plus decimal | minus decimal =>
        simp only [readSigned, readDigits_eq_some.mpr decimal, Option.map_some]
    | plain decimal =>
        unfold readSigned
        split
        · exact absurd List.mem_cons_self (decimal.not_mem (c := '+') rfl)
        · exact absurd List.mem_cons_self (decimal.not_mem (c := '-') rfl)
        · rw [readDigits_eq_some.mpr decimal, Option.map_some]

/-- `FromStr` of the integers from `least` to `most`: an optional sign, then digits. -/
def parseSigned (least most : Int) (s : List Char) : Option Int :=
  (readSigned s).filter fun value => least ≤ value ∧ value ≤ most

theorem parseSigned_eq_some {least most value : Int} {s : List Char} :
    parseSigned least most s = some value ↔ Signed s value ∧ least ≤ value ∧ value ≤ most := by
  rw [parseSigned, Option.filter_eq_some_iff, readSigned_eq_some, decide_eq_true_iff]

namespace Signed

variable {s : List Char} {value : Int}

theorem not_mem (signed : Signed s value) {c : Char} (other : c.isDigit = false)
    (plus : c ≠ '+') (minus : c ≠ '-') : c ∉ s := by
  cases signed with
  | plain decimal => exact decimal.not_mem other
  | plus decimal => simp [plus, decimal.not_mem other]
  | minus decimal => simp [minus, decimal.not_mem other]

theorem nonempty (signed : Signed s value) : s ≠ [] := by
  cases signed with
  | plain decimal => exact decimal.nonempty
  | plus _ | minus _ => nofun

/-- Without a sign it is a decimal text. -/
theorem decimal (signed : Signed s value) (digits : ∀ c ∈ s, c.isDigit) :
    ∃ n : Nat, Decimal s n ∧ value = n := by
  cases signed with
  | plain decimal => exact ⟨_, decimal, rfl⟩
  | plus _ | minus _ => exact absurd (digits _ List.mem_cons_self) (by decide)

end Signed

/-- A reader of two steps succeeds when both do. -/
theorem bind_eq_ok {ε α β : Type} {x : Except ε α} {f : α → Except ε β} {b : β} :
    (x >>= f) = .ok b ↔ ∃ a, x = .ok a ∧ f a = .ok b := by
  constructor
  · intro ok
    cases x with
    | error e => cases ok
    | ok a => exact ⟨a, rfl, ok⟩
  · rintro ⟨a, rfl, ok⟩
    exact ok

end Text
