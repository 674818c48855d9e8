import Mathlib.Data.Nat.Digits.Lemmas

/-!
# Byte strings as numbers

Little-endian byte strings of a fixed length are numbers below a power of 256.
`increment` is the usual in-place loop: add one to a byte with wrap-around and go
on to the next byte only when this one became zero. It is addition of one modulo
the range of the string, so a counter kept in bytes can be read as a number.

`encode` writes a number into a given count of bytes and drops what does not fit.
Big-endian strings are the reverse of little-endian ones.
-/

namespace LittleEndian

/-- The number a little-endian byte string stands for. -/
def value (bs : List UInt8) : Nat := Nat.ofDigits 256 (bs.map UInt8.toNat)

@[simp] theorem value_nil : value [] = 0 := rfl

@[simp] theorem value_cons (b : UInt8) (bs : List UInt8) :
    value (b :: bs) = b.toNat + 256 * value bs := by
  simp [value, Nat.ofDigits_cons]

theorem value_append (xs ys : List UInt8) :
    value (xs ++ ys) = value xs + 256 ^ xs.length * value ys := by
  simp [value, Nat.ofDigits_append]

@[simp] theorem value_replicate_zero (n : Nat) : value (List.replicate n 0) = 0 := by
  simp [value, Nat.ofDigits_replicate_zero]

theorem value_lt (bs : List UInt8) : value bs < 256 ^ bs.length := by
  have bounded := Nat.ofDigits_lt_base_pow_length (b := 256) (l := bs.map UInt8.toNat)
    (by decide) (by
      intro digit member
      obtain ⟨b, _, rfl⟩ := List.mem_map.mp member
      exact b.toNat_lt)
  simpa [value] using bounded

/-- Add one with carry, lowest byte first; the carry out of the last byte is lost. -/
def increment : List UInt8 → List UInt8
  | [] => []
  | b :: bs => if b + 1 ≠ 0 then (b + 1) :: bs else (b + 1) :: increment bs

@[simp] theorem length_increment (bs : List UInt8) : (increment bs).length = bs.length := by
  induction bs with
  | nil => rfl
  | cons b bs ih =>
      rw [increment]
      split <;> simp [ih]

/-- The carry loop is addition of one modulo the range of the string. -/
theorem value_increment (bs : List UInt8) :
    value (increment bs) = (value bs + 1) % 256 ^ bs.length := by
  induction bs with
  | nil => simp [increment]
  | cons b bs ih =>
      have hb := b.toNat_lt
      have hv := value_lt bs
      have step : (b + 1).toNat = (b.toNat + 1) % 256 := by simp
      have carry : b + 1 = 0 ↔ b.toNat = 255 := by
        rw [← UInt8.toNat_inj, step]
        simp only [UInt8.toNat_zero]
        omega
      rw [increment, List.length_cons, Nat.pow_succ']
      split
      · rename_i stop
        have below : b.toNat + 1 < 256 := by
          have : b.toNat ≠ 255 := fun h => stop (carry.mpr h)
          omega
        have fits : b.toNat + 256 * value bs + 1 < 256 * 256 ^ bs.length := by omega
        rw [value_cons, value_cons, step, Nat.mod_eq_of_lt below, Nat.mod_eq_of_lt fits]
        omega
      · rename_i again
        have wraps : b.toNat = 255 := carry.mp (not_not.mp again)
        have shifted : b.toNat + 256 * value bs + 1 = 256 * (value bs + 1) := by omega
        rw [value_cons, value_cons, step, ih, shifted, Nat.mul_mod_mul_left, wraps]
        simp

@[simp] theorem length_iterate_increment (bs : List UInt8) (n : Nat) :
    (increment^[n] bs).length = bs.length := by
  induction n with
  | zero => rfl
  | succ n ih => rw [Function.iterate_succ_apply', length_increment, ih]

/-- Counting `n` times from a string adds `n` modulo its range. -/
theorem value_iterate_increment (bs : List UInt8) (n : Nat) :
    value (increment^[n] bs) = (value bs + n) % 256 ^ bs.length := by
  induction n with
  | zero => simp [Nat.mod_eq_of_lt (value_lt bs)]
  | succ n ih =>
      rw [Function.iterate_succ_apply', value_increment, ih, length_iterate_increment,
        Nat.mod_add_mod, Nat.add_assoc]

/-- The lowest `width` bytes of a number, little-endian. -/
def encode : Nat → Nat → List UInt8
  | 0, _ => []
  | width + 1, n => UInt8.ofNat n :: encode width (n / 256)

@[simp] theorem length_encode (width n : Nat) : (encode width n).length = width := by
  induction width generalizing n with
  | zero => rfl
  | succ width ih => simp [encode, ih]

theorem value_encode (width n : Nat) : value (encode width n) = n % 256 ^ width := by
  induction width generalizing n with
  | zero => simp [encode, Nat.mod_one]
  | succ width ih =>
      rw [encode, value_cons, ih, Nat.pow_succ', Nat.mod_mul]
      simp

/-- The bytes of a number are written again. -/
theorem encode_value (bs : List UInt8) : encode bs.length (value bs) = bs := by
  induction bs with
  | nil => rfl
  | cons b bs ih =>
      have low := b.toNat_lt
      have high : (b.toNat + 256 * value bs) / 256 = value bs := by omega
      have byte : UInt8.ofNat (b.toNat + 256 * value bs) = b := by
        apply UInt8.toNat_inj.mp
        rw [UInt8.toNat_ofNat']
        omega
      rw [List.length_cons, value_cons, encode, high, ih, byte]

end LittleEndian
