import EtClient.Lib.LittleEndian

/-!
# Per-direction symmetric crypto

The cipher is the XSalsa20-Poly1305 crate, which is not part of the repository:
`SecretBox` takes it as a parameter. What is modelled here is the handler around
it, whose 24-byte nonce starts as the direction byte in the last position and is
incremented before every encryption and every decryption.

The handler counts operations. `CryptoHandler.after` is the handler of a direction
after a number of operations, and its nonce is the number
`msb * 2^184 + operations` as long as the count stays below `2^184`.
-/

namespace Et

def keyBytes : Nat := 32
def nonceBytes : Nat := 24
def macBytes : Nat := 16

abbrev Bytes := List UInt8

/-- The key is fixed for a session; nothing in the model looks inside it. -/
structure Key where
  bytes : Bytes
  length_eq : bytes.length = keyBytes

/-- `TEST_KEY` of the source's tests. -/
def testKey : Key := ⟨List.replicate keyBytes 0x5a, List.length_replicate⟩

/-- The 24 bytes that the handler counts in. -/
@[ext] structure Nonce where
  bytes : Bytes
  length_eq : bytes.length = nonceBytes
  deriving DecidableEq

/-- What the cipher is given to encrypt or to open. -/
structure Payload where
  msg : Bytes
  aad : Bytes

/-- The secretbox crate: encryption cannot fail, opening may. -/
structure SecretBox where
  encrypt : Key → Nonce → Payload → Bytes
  decrypt : Key → Nonce → Payload → Option Bytes

/-- The documented behaviour of the crate that the protocol relies on: the box is
the message with a 16-byte MAC, and opening a box under its own key and nonce
gives the message back. -/
structure SecretBox.Lawful (box : SecretBox) : Prop where
  length_encrypt : ∀ key nonce p, (box.encrypt key nonce p).length = p.msg.length + macBytes
  decrypt_encrypt : ∀ key nonce p,
    box.decrypt key nonce ⟨box.encrypt key nonce p, p.aad⟩ = some p.msg

namespace SecretBox

/-- A box whose MAC spells the nonce. It is lawful, and it opens under no nonce
that differs in the direction or in the low bytes of the counter. -/
def naming : SecretBox where
  encrypt _ nonce p := nonce.bytes.take 15 ++ nonce.bytes.drop 23 ++ p.msg
  decrypt _ nonce p :=
    if p.msg.take macBytes = nonce.bytes.take 15 ++ nonce.bytes.drop 23 then
      some (p.msg.drop macBytes)
    else none

theorem naming_lawful : naming.Lawful := by
  have mac : ∀ nonce : Nonce, (nonce.bytes.take 15 ++ nonce.bytes.drop 23).length = macBytes := by
    intro nonce
    rw [List.length_append, List.length_take, List.length_drop, nonce.length_eq]
    rfl
  constructor
  · intro key nonce p
    change (nonce.bytes.take 15 ++ nonce.bytes.drop 23 ++ p.msg).length = _
    rw [List.length_append, mac, Nat.add_comm]
  · intro key nonce p
    exact (if_pos (List.take_left' (mac nonce))).trans
      (congrArg some (List.drop_left' (mac nonce)))

end SecretBox

inductive CryptoError
  | invalidKeyLength (got : Nat)
  | ciphertextTooShort (length : Nat)
  | decryptFailed
  deriving DecidableEq

namespace Nonce

/-- The little-endian number of the nonce. -/
def value (n : Nonce) : Nat := LittleEndian.value n.bytes

/-- All zero except the last byte, which is the direction. -/
def initial (nonceMsb : UInt8) : Nonce :=
  ⟨List.replicate (nonceBytes - 1) 0 ++ [nonceMsb], rfl⟩

theorem value_initial (nonceMsb : UInt8) : (initial nonceMsb).value = nonceMsb.toNat * 2 ^ 184 := by
  rw [value, initial, LittleEndian.value_append, LittleEndian.value_replicate_zero,
    List.length_replicate, LittleEndian.value_cons, LittleEndian.value_nil]
  simp only [nonceBytes]
  omega

/-- `increment_nonce`: add one to the bytes in place, carrying upward. -/
def increment (n : Nonce) : Nonce :=
  ⟨LittleEndian.increment n.bytes, (LittleEndian.length_increment n.bytes).trans n.length_eq⟩

theorem bytes_iterate_increment (n : Nonce) (count : Nat) :
    (increment^[count] n).bytes = LittleEndian.increment^[count] n.bytes := by
  induction count with
  | zero => rfl
  | succ count ih =>
      rw [Function.iterate_succ_apply', Function.iterate_succ_apply', ← ih]
      rfl

theorem value_iterate_increment (n : Nonce) (count : Nat) :
    (increment^[count] n).value = (n.value + count) % 2 ^ 192 := by
  rw [value, bytes_iterate_increment, LittleEndian.value_iterate_increment, n.length_eq]
  rfl

end Nonce

/-- One direction of one endpoint: the keyed cipher and its running nonce. -/
structure CryptoHandler where
  cipher : Key
  nonce : Nonce

namespace CryptoHandler

def new (key : Key) (nonceMsb : UInt8) : CryptoHandler :=
  ⟨key, .initial nonceMsb⟩

def incrementNonce (h : CryptoHandler) : CryptoHandler :=
  { h with nonce := h.nonce.increment }

/-- Increment, then box the plaintext without associated data. -/
def encrypt (box : SecretBox) (h : CryptoHandler) (plaintext : Bytes) :
    CryptoHandler × Bytes :=
  let h := h.incrementNonce
  (h, box.encrypt h.cipher h.nonce ⟨plaintext, []⟩)

/-- Increment, then open. A ciphertext shorter than the MAC is refused before the
nonce advances. -/
def decrypt (box : SecretBox) (h : CryptoHandler) (ciphertext : Bytes) :
    CryptoHandler × Except CryptoError Bytes :=
  if ciphertext.length < macBytes then
    (h, .error (.ciphertextTooShort ciphertext.length))
  else
    let h := h.incrementNonce
    match box.decrypt h.cipher h.nonce ⟨ciphertext, []⟩ with
    | some plaintext => (h, .ok plaintext)
    | none => (h, .error .decryptFailed)

/-- The handler of a direction after a number of operations. -/
def after (key : Key) (nonceMsb : UInt8) (operations : Nat) : CryptoHandler :=
  ⟨key, Nonce.increment^[operations] (.initial nonceMsb)⟩

@[simp] theorem after_zero (key : Key) (nonceMsb : UInt8) :
    after key nonceMsb 0 = new key nonceMsb := rfl

@[simp] theorem incrementNonce_after (key : Key) (nonceMsb : UInt8) (operations : Nat) :
    (after key nonceMsb operations).incrementNonce = after key nonceMsb (operations + 1) := by
  simp only [after, incrementNonce, Function.iterate_succ_apply']

@[simp] theorem cipher_after (key : Key) (nonceMsb : UInt8) (operations : Nat) :
    (after key nonceMsb operations).cipher = key := rfl

/-- Below `2^184` operations the counter never reaches the direction byte. -/
theorem value_nonce_after (key : Key) (nonceMsb : UInt8) {operations : Nat}
    (bound : operations < 2 ^ 184) :
    (after key nonceMsb operations).nonce.value = nonceMsb.toNat * 2 ^ 184 + operations := by
  have direction := nonceMsb.toNat_lt
  rw [after, Nonce.value_iterate_increment, Nonce.value_initial, Nat.mod_eq_of_lt]
  omega

/-- The nonces of a direction in the order in which an endpoint goes through them. -/
def nonces (key : Key) (nonceMsb : UInt8) (count : Nat) : List Nonce :=
  (List.range count).map fun k => (after key nonceMsb (k + 1)).nonce

theorem nonces_succ (key : Key) (nonceMsb : UInt8) (count : Nat) :
    nonces key nonceMsb (count + 1) =
      nonces key nonceMsb count ++ [(after key nonceMsb (count + 1)).nonce] := by
  rw [nonces, nonces, List.range_succ, List.map_append, List.map_cons, List.map_nil]

theorem eq_of_nonces_getElem? {key : Key} {nonceMsb : UInt8} {count k : Nat} {nonce : Nonce}
    (h : (nonces key nonceMsb count)[k]? = some nonce) :
    nonce = (after key nonceMsb (k + 1)).nonce := by
  obtain ⟨_, eq⟩ := List.getElem?_eq_some_iff.mp h
  simp only [nonces, List.getElem_map, List.getElem_range] at eq
  exact eq.symm

/-- Below `2^184` they are the numbers behind the direction byte, starting at one. -/
theorem map_value_nonces (key : Key) (nonceMsb : UInt8) {count : Nat} (bound : count < 2 ^ 184) :
    (nonces key nonceMsb count).map Nonce.value =
      (List.range count).map fun k => nonceMsb.toNat * 2 ^ 184 + (k + 1) := by
  rw [nonces, List.map_map]
  apply List.map_congr_left
  intro k member
  have below := List.mem_range.mp member
  exact value_nonce_after key nonceMsb (by omega)

theorem nonces_nodup (key : Key) (nonceMsb : UInt8) {count : Nat} (bound : count < 2 ^ 184) :
    (nonces key nonceMsb count).Nodup := by
  apply List.Nodup.of_map Nonce.value
  rw [map_value_nonces key nonceMsb bound]
  apply List.Nodup.map _ List.nodup_range
  intro a b same
  simp only at same
  omega

/-- Two directions do not meet below `2^184` operations each. -/
theorem nonces_disjoint (key : Key) {a b : UInt8} (apart : a ≠ b) {m n : Nat}
    (m_lt : m < 2 ^ 184) (n_lt : n < 2 ^ 184) :
    (nonces key a m).Disjoint (nonces key b n) := by
  intro nonce left right
  obtain ⟨i, i_mem, rfl⟩ := List.mem_map.mp left
  obtain ⟨j, j_mem, same⟩ := List.mem_map.mp right
  have i_lt := List.mem_range.mp i_mem
  have j_lt := List.mem_range.mp j_mem
  have values := congrArg Nonce.value same
  rw [value_nonce_after key b (by omega), value_nonce_after key a (by omega)] at values
  apply apart
  apply UInt8.toNat_inj.mp
  omega

theorem value_nonce_after_mod (key : Key) (nonceMsb : UInt8) (operations : Nat) :
    (after key nonceMsb operations).nonce.value =
      (nonceMsb.toNat * 2 ^ 184 + operations) % 2 ^ 192 := by
  rw [after, Nonce.value_iterate_increment, Nonce.value_initial]

/-- Within one direction the nonce tells the number of the operation. -/
theorem eq_of_nonce_after_eq {key : Key} {nonceMsb : UInt8} {m n : Nat} (m_le : m ≤ 2 ^ 184)
    (n_le : n ≤ 2 ^ 184)
    (same : (after key nonceMsb m).nonce = (after key nonceMsb n).nonce) : m = n := by
  have values := congrArg Nonce.value same
  rw [value_nonce_after_mod, value_nonce_after_mod] at values
  omega

/-- Across directions it tells them apart, even for the first operation that is one
too many. -/
theorem nonce_after_ne {key : Key} {a b : UInt8} (apart : a ≠ b) {m n : Nat} (m_pos : 0 < m)
    (m_le : m ≤ 2 ^ 184) (n_pos : 0 < n) (n_lt : n < 2 ^ 184) :
    (after key a m).nonce ≠ (after key b n).nonce := by
  intro same
  have values := congrArg Nonce.value same
  rw [value_nonce_after_mod, value_nonce_after_mod] at values
  have a_lt := a.toNat_lt
  have b_lt := b.toNat_lt
  apply apart
  apply UInt8.toNat_inj.mp
  omega

theorem encrypt_after (box : SecretBox) (key : Key) (nonceMsb : UInt8) (operations : Nat)
    (plaintext : Bytes) :
    (after key nonceMsb operations).encrypt box plaintext =
      (after key nonceMsb (operations + 1),
        box.encrypt key (after key nonceMsb (operations + 1)).nonce ⟨plaintext, []⟩) := by
  simp only [encrypt, incrementNonce_after, cipher_after]

/-- Endpoints of one direction that did equally many operations agree. -/
theorem decrypt_encrypt {box : SecretBox} (lawful : box.Lawful) (key : Key) (nonceMsb : UInt8)
    (operations : Nat) (plaintext : Bytes) :
    (after key nonceMsb operations).decrypt box
        ((after key nonceMsb operations).encrypt box plaintext).2 =
      (after key nonceMsb (operations + 1), .ok plaintext) := by
  have enough : ¬ (box.encrypt key (after key nonceMsb (operations + 1)).nonce
      ⟨plaintext, []⟩).length < macBytes := by
    rw [lawful.length_encrypt]
    omega
  have opens := lawful.decrypt_encrypt key (after key nonceMsb (operations + 1)).nonce
    ⟨plaintext, []⟩
  rw [encrypt_after, decrypt, if_neg enough]
  simp only [incrementNonce_after, cipher_after, opens]

end CryptoHandler

end Et
