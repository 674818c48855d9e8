import Mathlib.Algebra.Group.Nat.Defs
import Mathlib.Data.Nat.Log
import EtClient.Lib.Frames

/-!
# Variable-length numbers

A number is written with seven bits a byte, the lowest first, and every byte but the last has
its high bit set. A reader that allows for enough bytes finds the number again, whatever
follows it.
-/

namespace Varint

universe u

/-- The bytes of a number. -/
def encode (n : Nat) : List UInt8 :=
  if n < 128 then [UInt8.ofNat n] else UInt8.ofNat (n % 128 + 128) :: encode (n / 128)

/-- How many bytes a number takes. -/
def len (n : Nat) : Nat := n.log2 / 7 + 1

theorem length_encode (n : Nat) : (encode n).length = len n := by
  fun_induction encode n with
  | case1 n small =>
      have short : n.log2 < 7 := by
        rw [Nat.log2_eq_log_two]
        exact Nat.log_lt_of_lt_pow' (by decide) small
      rw [len, Nat.div_eq_of_lt short]
      rfl
  | case2 n large ih =>
      have shorter : (n / 128).log2 = n.log2 - 7 := by
        rw [Nat.log2_eq_log_two, Nat.log2_eq_log_two]
        exact Nat.log_div_base_pow 2 n 7
      have long : 7 ≤ n.log2 := by
        rw [Nat.log2_eq_log_two]
        exact Nat.le_log_of_pow_le (by decide) (Nat.le_of_not_lt large)
      rw [List.length_cons, ih, len, len, shorter]
      omega

theorem lt_pow_len (n : Nat) : n < 128 ^ len n := by
  have bits : n < 2 ^ (n.log2 + 1) := Nat.lt_log2_self
  have bytes : (128 : Nat) ^ len n = 2 ^ (7 * len n) := (Nat.pow_mul 2 7 (len n)).symm
  rw [bytes]
  refine Nat.lt_of_lt_of_le bits (Nat.pow_le_pow_right (by decide) ?_)
  rw [len]
  omega

/-- A number of 64 bits takes at most ten bytes. -/
theorem len_le_ten {n : Nat} (fits : n < 2 ^ 64) : len n ≤ 10 := by
  have short : n.log2 < 64 := by
    rw [Nat.log2_eq_log_two]
    exact Nat.log_lt_of_lt_pow' (by decide) fits
  rw [len]
  omega

section Read

variable {ε : Type} {ended tooLong : ε}

/-- The number at the front of a stream, in at most `room` bytes. -/
def read (ended tooLong : ε) : Nat → EStateM ε (List UInt8) Nat
  | 0 => throw tooLong
  | room + 1 => fun stream =>
      match stream with
      | [] => .error ended []
      | b :: rest =>
        if b.toNat < 128 then .ok b.toNat rest
        else
          match read ended tooLong room rest with
          | .ok high rest => .ok (b.toNat - 128 + 128 * high) rest
          | .error e rest => .error e rest

theorem read_encode {n room : Nat} (fits : n < 128 ^ (room + 1)) (rest : List UInt8) :
    read ended tooLong (room + 1) (encode n ++ rest) = .ok n rest := by
  induction room generalizing n with
  | zero =>
      have byte : (UInt8.ofNat n).toNat = n := UInt8.toNat_ofNat_of_lt' (by
        show n < 256
        omega)
      rw [encode, if_pos (by omega), List.singleton_append, read]
      simp only [byte, if_pos (show n < 128 by omega)]
  | succ room ih =>
      rw [encode]
      split
      · have byte : (UInt8.ofNat n).toNat = n := UInt8.toNat_ofNat_of_lt' (by
          show n < 256
          omega)
        rw [List.singleton_append, read]
        simp only [byte, if_pos (show n < 128 by omega)]
      · have byte : (UInt8.ofNat (n % 128 + 128)).toNat = n % 128 + 128 :=
          UInt8.toNat_ofNat_of_lt' (by
            show _ < 256
            omega)
        have high : n / 128 < 128 ^ (room + 1) := by
          rw [Nat.pow_succ] at fits
          exact Nat.div_lt_of_lt_mul (by rwa [Nat.mul_comm])
        rw [List.cons_append, read]
        simp only [byte, if_neg (show ¬ n % 128 + 128 < 128 by omega), ih high]
        congr 1
        omega

/-- Seven more bits take at most one more byte. -/
theorem len_add_le {low : Nat} (small : low < 128) (high : Nat) :
    len (low + 128 * high) ≤ len high + 1 := by
  rw [← length_encode, ← length_encode, encode]
  split
  · exact Nat.succ_le_succ (Nat.zero_le _)
  · rw [List.length_cons, Nat.add_mul_div_left _ _ (by decide), Nat.div_eq_of_lt small,
      Nat.zero_add]

/-- No number is read from fewer bytes than it takes. -/
theorem len_le_of_read {room n : Nat} {stream rest : List UInt8}
    (found : read ended tooLong room stream = .ok n rest) :
    len n + rest.length ≤ stream.length := by
  induction room generalizing n stream with
  | zero => cases found
  | succ room ih =>
      cases stream with
      | nil => cases found
      | cons b tail =>
          simp only [read] at found
          split at found
          · cases found
            have single : len b.toNat = 1 := by
              rw [← length_encode, encode, if_pos ‹_›]
              rfl
            rw [single, List.length_cons, Nat.add_comm]
          · split at found
            · rename_i high rest' later
              cases found
              have byte := b.toNat_lt
              have shorter := ih later
              have one := len_add_le (show b.toNat - 128 < 128 by omega) high
              rw [List.length_cons]
              omega
            · cases found

end Read

end Varint
