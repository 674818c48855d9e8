import EtClient.Lib.Utf8
import EtClient.Lib.Varint
import Mathlib.Algebra.Group.Int.Defs
import Mathlib.Algebra.GroupWithZero.Nat

/-!
# Messages as records

A message is a list of records, each of them a field with a number or with bytes. A record is
written as a tag byte, which names the field and which of the two it has, and the value; bytes
have their length in front of them.

The reader takes one record after the other. It finds what was written, and no record is read
from fewer bytes than it takes.
-/

namespace Records

inductive Value
  | number (n : Nat)
  | bytes (content : List UInt8)
  deriving DecidableEq

-- Every module that writes a field as a literal uses this one instance.
instance instNeZeroFields : NeZero 32 := ⟨by decide⟩

structure Record where
  field : Fin 32
  value : Value
  deriving DecidableEq

def Value.wireType : Value → Nat
  | .number _ => 0
  | .bytes _ => 2

def Value.encode : Value → List UInt8
  | .number n => Varint.encode n
  | .bytes content => Varint.encode content.length ++ content

def Record.encode (r : Record) : List UInt8 :=
  UInt8.ofNat (8 * r.field + r.value.wireType) :: r.value.encode

/-- The number at the front of a stream, of any size. -/
def takeNumber (stream : List UInt8) : Option (Nat × List UInt8) :=
  match Varint.read () () stream.length stream with
  | .ok n rest => some (n, rest)
  | .error _ _ => none

def takeValue (wireType : Nat) (stream : List UInt8) : Option (Value × List UInt8) := do
  let (n, rest) ← takeNumber stream
  if wireType = 0 then some (.number n, rest)
  else if wireType = 2 ∧ n ≤ rest.length then some (.bytes (rest.take n), rest.drop n)
  else none

def takeRecord : List UInt8 → Option (Record × List UInt8)
  | [] => none
  | tag :: stream =>
      (takeValue (tag.toNat % 8) stream).map fun (value, rest) =>
        (⟨⟨tag.toNat / 8, Nat.div_lt_of_lt_mul tag.toNat_lt⟩, value⟩, rest)

/-- The records of a stream, at most so many. -/
def takeAll : Nat → List UInt8 → Option (List Record)
  | _, [] => some []
  | 0, _ :: _ => none
  | count + 1, byte :: bytes => do
      let (record, rest) ← takeRecord (byte :: bytes)
      let records ← takeAll count rest
      some (record :: records)

def encode (records : List Record) : List UInt8 := records.flatMap Record.encode

def decode (bytes : List UInt8) : Option (List Record) := takeAll bytes.length bytes

theorem takeNumber_encode (n : Nat) (rest : List UInt8) :
    takeNumber (Varint.encode n ++ rest) = some (n, rest) := by
  have size : (Varint.encode n ++ rest).length = Varint.len n - 1 + rest.length + 1 := by
    have length := Varint.length_encode n
    have positive : 0 < Varint.len n := Nat.succ_pos _
    rw [List.length_append]
    omega
  have fits : n < 128 ^ (Varint.len n - 1 + rest.length + 1) := by
    refine Nat.lt_of_lt_of_le (Varint.lt_pow_len n) (Nat.pow_le_pow_right (by decide) ?_)
    omega
  simp only [takeNumber, size, Varint.read_encode fits]

theorem takeValue_encode (value : Value) (rest : List UInt8) :
    takeValue value.wireType (value.encode ++ rest) = some (value, rest) := by
  cases value with
  | number n =>
      show takeValue 0 (Varint.encode n ++ rest) = _
      simp only [takeValue, takeNumber_encode, Option.bind_eq_bind, Option.bind_some, if_true]
  | bytes content =>
      show takeValue 2 (Varint.encode content.length ++ content ++ rest) = _
      simp [takeValue, List.append_assoc, takeNumber_encode]

theorem takeRecord_encode (r : Record) (rest : List UInt8) :
    takeRecord (r.encode ++ rest) = some (r, rest) := by
  obtain ⟨⟨field, below⟩, value⟩ := r
  have wire : value.wireType < 8 := by cases value <;> simp [Value.wireType]
  have tag : (UInt8.ofNat (8 * field + value.wireType)).toNat = 8 * field + value.wireType :=
    UInt8.toNat_ofNat_of_lt' (by
      show _ < 256
      omega)
  have low : (8 * field + value.wireType) % 8 = value.wireType := by omega
  have high : (8 * field + value.wireType) / 8 = field := by omega
  simp only [Record.encode, List.cons_append, takeRecord, tag, low, takeValue_encode,
    Option.map_some, high]

theorem Record.encode_pos (r : Record) : 0 < r.encode.length := Nat.succ_pos _

/-- What was written is read. -/
theorem decode_encode (records : List Record) : decode (encode records) = some records := by
  have enough : ∀ count, (encode records).length ≤ count →
      takeAll count (encode records) = some records := by
    induction records with
    | nil =>
        intro count _
        cases count <;> rfl
    | cons r records ih =>
        intro count fits
        have split : encode (r :: records) = r.encode ++ encode records := rfl
        have positive := r.encode_pos
        rw [split, List.length_append] at fits
        obtain ⟨tag, value, shape⟩ : ∃ tag value, r.encode = tag :: value := ⟨_, _, rfl⟩
        cases count with
        | zero => omega
        | succ count =>
            have taken := takeRecord_encode r (encode records)
            rw [split]
            rw [shape, List.cons_append] at taken ⊢
            simp only [takeAll, taken, Option.bind_eq_bind, Option.bind_some,
              ih count (by omega)]
  exact enough _ (Nat.le_refl _)

/-- The message that the records of a stream make, if they make one. -/
def read {α : Type} (message : List Record → Option α) (bytes : List UInt8) : Except String α :=
  match (decode bytes).bind message with
  | some m => .ok m
  | none => .error "malformed message"

theorem read_encode {α : Type} {message : List Record → Option α} {records : List Record} {m : α}
    (makes : message records = some m) : read message (encode records) = .ok m := by
  simp only [read, decode_encode, Option.bind_some, makes]

theorem read_eq_ok {α : Type} {message : List Record → Option α} {bytes : List UInt8} {m : α}
    (found : read message bytes = .ok m) :
    ∃ records, decode bytes = some records ∧ message records = some m := by
  simp only [read] at found
  split at found
  · rename_i made
    cases found
    exact Option.bind_eq_some_iff.mp made
  · cases found

/-- A signed number of 32 bits is written as an unsigned one of 64. -/
def ofInt32 (v : Int32) : Nat := (v.toInt % 2 ^ 64).toNat

/-- The low 32 bits of a number. -/
def toInt32 (n : Nat) : Int32 := Int32.ofInt n

theorem ofInt32_lt (v : Int32) : ofInt32 v < 2 ^ 64 := by
  rw [ofInt32]
  omega

@[simp] theorem toInt32_ofInt32 (v : Int32) : toInt32 (ofInt32 v) = v := by
  have low := v.le_toInt
  have high := v.toInt_lt
  have split := Int.bmod_def ((ofInt32 v : Nat) : Int) 4294967296
  have size : Int32.size = 4294967296 := rfl
  have value : ((ofInt32 v : Nat) : Int) = v.toInt % 2 ^ 64 := by
    rw [ofInt32]
    omega
  apply Int32.toInt_inj.mp
  rw [toInt32, Int32.toInt_ofInt, size, split, value]
  omega

def Record.int32 (field : Fin 32) (v : Int32) : Record := ⟨field, .number (ofInt32 v)⟩

def Record.flag (field : Fin 32) (b : Bool) : Record := ⟨field, .number b.toNat⟩

def Record.bytes (field : Fin 32) (content : List UInt8) : Record := ⟨field, .bytes content⟩

def Record.text (field : Fin 32) (s : String) : Record := .bytes field (Utf8.bytes s)

theorem length_le_of_takeValue {wireType : Nat} {stream rest : List UInt8} {value : Value}
    (found : takeValue wireType stream = some (value, rest)) :
    value.encode.length + rest.length ≤ stream.length := by
  obtain ⟨⟨n, left⟩, number, kept⟩ := Option.bind_eq_some_iff.mp found
  have shorter : Varint.len n + left.length ≤ stream.length := by
    simp only [takeNumber] at number
    split at number
    · cases number
      exact Varint.len_le_of_read ‹_›
    · cases number
  dsimp only at kept
  split at kept
  · cases kept
    rwa [Value.encode, Varint.length_encode]
  · split at kept
    · cases kept
      have room : n ≤ left.length := (by assumption : _ ∧ n ≤ left.length).2
      rw [Value.encode, List.length_append, Varint.length_encode, List.length_take,
        List.length_drop, Nat.min_eq_left room]
      omega
    · cases kept

/-- No records are read from fewer bytes than they take. -/
theorem length_encode_le_of_decode {bytes : List UInt8} {records : List Record}
    (found : decode bytes = some records) : (encode records).length ≤ bytes.length := by
  have all : ∀ count bytes records, takeAll count bytes = some records →
      (encode records).length ≤ bytes.length := by
    intro count bytes
    fun_induction takeAll count bytes with
    | case1 count =>
        intro records found
        cases found
        exact Nat.le_refl _
    | case2 byte bytes => exact nofun
    | case3 count byte bytes ih =>
        intro records found
        obtain ⟨⟨r, rest⟩, taken, later⟩ := Option.bind_eq_some_iff.mp found
        obtain ⟨more, next, done⟩ := Option.bind_eq_some_iff.mp later
        cases done
        obtain ⟨⟨value, left⟩, valued, same⟩ := Option.map_eq_some_iff.mp taken
        cases same
        have shorter := length_le_of_takeValue valued
        have behind := ih rest more next
        show (_ ++ encode more).length ≤ _
        simp only [List.length_append, Record.encode, List.length_cons]
        omega
  exact all _ _ _ found

end Records
