import EtClient.Proto.Crypto

/-!
# The protocol packet

A packet is one flag byte, one header byte and a payload. The payload of an
encrypted packet is ciphertext; the flag and the header travel in the clear, and
the cipher is given neither of them.

The two assertions of the source ("already encrypted", "wasn't encrypted") are
proof obligations here: encrypting needs a plaintext packet and decrypting an
encrypted one, so a caller that could panic cannot be written down.
-/

namespace Et

structure Packet where
  encrypted : Bool
  header : UInt8
  payload : Bytes
  deriving DecidableEq

namespace Packet

def headerSize : Nat := 2

/-- A decrypted, unencrypted packet. -/
def new (header : UInt8) (payload : Bytes) : Packet := ⟨false, header, payload⟩

theorem encrypted_new (header : UInt8) (payload : Bytes) :
    (new header payload).encrypted = false := rfl

/-- Fewer than two bytes are not a packet; every flag byte but zero says encrypted. -/
def parse : Bytes → Option Packet
  | flags :: header :: payload => some ⟨flags != 0, header, payload⟩
  | _ => none

def serialize (p : Packet) : Bytes :=
  (if p.encrypted then 1 else 0) :: p.header :: p.payload

@[simp] theorem length_serialize (p : Packet) :
    p.serialize.length = p.payload.length + headerSize := rfl

@[simp] theorem parse_serialize (p : Packet) : parse p.serialize = some p := by
  obtain ⟨encrypted, header, payload⟩ := p
  cases encrypted <;> rfl

/-- What parses as an encrypted packet starts with some nonzero flag byte. -/
theorem parse_eq_encrypted {bytes payload : Bytes} {header : UInt8} :
    parse bytes = some ⟨true, header, payload⟩ ↔
      ∃ flags, flags ≠ 0 ∧ bytes = flags :: header :: payload := by
  constructor
  · intro parsed
    match bytes, parsed with
    | flags :: _ :: _, parsed =>
        simp only [parse, Option.some.injEq, Packet.mk.injEq, bne_iff_ne] at parsed
        obtain ⟨nonzero, rfl, rfl⟩ := parsed
        exact ⟨flags, nonzero, rfl⟩
  · rintro ⟨flags, nonzero, rfl⟩
    simp [parse, nonzero]

/-- Encrypt the payload in place; the flag changes and the header does not. -/
def encrypt (box : SecretBox) (crypto : CryptoHandler) (p : Packet)
    (_plain : p.encrypted = false) : CryptoHandler × Packet :=
  let (crypto, ciphertext) := crypto.encrypt box p.payload
  (crypto, { p with encrypted := true, payload := ciphertext })

/-- Decrypt the payload in place; a failure leaves the packet unused. -/
def decrypt (box : SecretBox) (crypto : CryptoHandler) (p : Packet)
    (_boxed : p.encrypted = true) : CryptoHandler × Except CryptoError Packet :=
  match crypto.decrypt box p.payload with
  | (crypto, .ok plaintext) => (crypto, .ok { p with encrypted := false, payload := plaintext })
  | (crypto, .error e) => (crypto, .error e)

/-- The bytes that enter the backup and the wire for a packet encrypted as
operation number `operations + 1` of its direction. -/
def boxed (box : SecretBox) (key : Key) (nonceMsb : UInt8) (operations : Nat)
    (header : UInt8) (payload : Bytes) : Bytes :=
  serialize ⟨true, header,
    box.encrypt key (CryptoHandler.after key nonceMsb (operations + 1)).nonce ⟨payload, []⟩⟩

theorem serialize_encrypt_after (box : SecretBox) (key : Key) (nonceMsb : UInt8)
    (operations : Nat) (header : UInt8) (payload : Bytes) :
    (new header payload).encrypt box (.after key nonceMsb operations) rfl =
      (.after key nonceMsb (operations + 1), ⟨true, header,
        box.encrypt key (CryptoHandler.after key nonceMsb (operations + 1)).nonce
          ⟨payload, []⟩⟩) := by
  simp only [encrypt, new, CryptoHandler.encrypt_after]

theorem length_boxed {box : SecretBox} (lawful : box.Lawful) (key : Key) (nonceMsb : UInt8)
    (operations : Nat) (header : UInt8) (payload : Bytes) :
    (boxed box key nonceMsb operations header payload).length =
      payload.length + macBytes + headerSize := by
  rw [boxed, length_serialize, lawful.length_encrypt]

/-- The bytes of a whole sequence of packets of one direction. -/
def stream (box : SecretBox) (key : Key) (nonceMsb : UInt8) (packets : List (UInt8 × Bytes)) :
    List Bytes :=
  packets.mapIdx fun k p => boxed box key nonceMsb k p.1 p.2

@[simp] theorem length_stream (box : SecretBox) (key : Key) (nonceMsb : UInt8)
    (packets : List (UInt8 × Bytes)) :
    (stream box key nonceMsb packets).length = packets.length := List.length_mapIdx

theorem stream_concat (box : SecretBox) (key : Key) (nonceMsb : UInt8)
    (packets : List (UInt8 × Bytes)) (p : UInt8 × Bytes) :
    stream box key nonceMsb (packets ++ [p]) =
      stream box key nonceMsb packets ++ [boxed box key nonceMsb packets.length p.1 p.2] := by
  simp only [stream, List.mapIdx_concat]

/-- The other end of a direction, after the same number of operations, opens a
boxed packet to the packet that was boxed. -/
theorem decrypt_boxed {box : SecretBox} (lawful : box.Lawful) (key : Key) (nonceMsb : UInt8)
    (operations : Nat) (header : UInt8) (payload : Bytes) :
    ∃ p, parse (boxed box key nonceMsb operations header payload) = some p ∧
      ∃ flag : p.encrypted = true,
        p.decrypt box (.after key nonceMsb operations) flag =
          (.after key nonceMsb (operations + 1), .ok (new header payload)) := by
  refine ⟨_, parse_serialize _, rfl, ?_⟩
  have opened := CryptoHandler.decrypt_encrypt lawful key nonceMsb operations payload
  rw [CryptoHandler.encrypt_after] at opened
  simp only [decrypt, opened, new]

end Packet

end Et
