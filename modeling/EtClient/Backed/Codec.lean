import EtClient.Lib.Records
import EtClient.Proto.Wire

/-!
# The messages of a recover exchange

The exchange sends two protobuf messages. How they are encoded is a parameter: the runtime of the
generated code is not modelled, and the results rest on its laws only. A message that fits its
frame is read as it was written, no catch-up is read from fewer bytes than `compute_size` counts
for it, and where lengths matter it is written in as many.

The records of the wire format have these laws.
-/

namespace Et

namespace Backed

/-- The protobuf encoding of the two messages of an exchange. -/
structure HandshakeCodec where
  encodeSequence : SequenceHeader → Bytes
  decodeSequence : Bytes → Except String SequenceHeader
  encodeCatchup : CatchupBuffer → Bytes
  decodeCatchup : Bytes → Except String CatchupBuffer
  /-- No encoding of a message is shorter than the one `compute_size` counts. -/
  encodedLen_le : ∀ bytes theirs, decodeCatchup bytes = .ok theirs →
    theirs.encodedLen ≤ bytes.length

namespace HandshakeCodec

/-- Every message that fits its frame is read as it was written. -/
structure Lawful (codec : HandshakeCodec) : Prop where
  short : ∀ h, (codec.encodeSequence h).length ≤ maxHandshakeProtoLength
  sequence : ∀ h, codec.decodeSequence (codec.encodeSequence h) = .ok h
  catchup : ∀ c, (codec.encodeCatchup c).length ≤ defaultMaxProtoLength →
    codec.decodeCatchup (codec.encodeCatchup c) = .ok c

/-- A sequence header takes at most a tag byte and a number of 64 bits, a catch-up as many bytes
as `compute_size` counts. -/
structure Sized (codec : HandshakeCodec) : Prop extends codec.Lawful where
  sequenceLen : ∀ h, (codec.encodeSequence h).length ≤ 11
  catchupLen : ∀ c, c.encodedLen ≤ maxMessageBytes →
    (codec.encodeCatchup c).length = c.encodedLen

open Records

def sequenceRecords (h : SequenceHeader) : List Record :=
  h.sequenceNumber.toList.map (.int32 1)

def toSequence : List Record → Option SequenceHeader
  | [] => some ⟨none⟩
  | [⟨1, .number n⟩] => some ⟨some (toInt32 n)⟩
  | _ => none

def catchupRecords (c : CatchupBuffer) : List Record :=
  c.buffer.map (.bytes 1)

def toEntries : List Record → Option (List Bytes)
  | [] => some []
  | ⟨1, .bytes entry⟩ :: rest => (toEntries rest).map (entry :: ·)
  | _ :: _ => none

def toCatchup (records : List Record) : Option CatchupBuffer := (toEntries records).map (⟨·⟩)

theorem toSequence_records (h : SequenceHeader) : toSequence (sequenceRecords h) = some h := by
  obtain ⟨_ | n⟩ := h
  · rfl
  · show some (SequenceHeader.mk (some (toInt32 (ofInt32 n)))) = _
    rw [toInt32_ofInt32]

theorem toCatchup_records (c : CatchupBuffer) : toCatchup (catchupRecords c) = some c := by
  obtain ⟨entries⟩ := c
  have all : toEntries (catchupRecords ⟨entries⟩) = some entries := by
    induction entries with
    | nil => rfl
    | cons entry entries ih =>
        show (toEntries (catchupRecords ⟨entries⟩)).map (entry :: ·) = _
        rw [ih]
        rfl
  rw [toCatchup, all]
  rfl

/-- The records of a catch-up are as long as `compute_size` counts. -/
theorem length_catchupRecords (c : CatchupBuffer) :
    (Records.encode (catchupRecords c)).length = c.encodedLen := by
  rw [Records.encode, catchupRecords, List.flatMap_map, List.length_flatMap,
    CatchupBuffer.encodedLen]
  refine congrArg List.sum (List.map_congr_left fun entry _ => ?_)
  rw [Record.bytes, Record.encode, List.length_cons, Value.encode, List.length_append,
    Varint.length_encode, Nat.add_comm]

theorem catchupRecords_of_toEntries {records : List Record} {entries : List Bytes}
    (made : toEntries records = some entries) : records = catchupRecords ⟨entries⟩ := by
  fun_induction toEntries records generalizing entries with
  | case1 =>
      cases made
      rfl
  | case2 entry rest ih =>
      obtain ⟨more, later, same⟩ := Option.map_eq_some_iff.mp made
      cases same
      rw [ih later]
      rfl
  | case3 => cases made

/-- Both messages as their records. -/
def records : HandshakeCodec where
  encodeSequence h := Records.encode (sequenceRecords h)
  decodeSequence := Records.read toSequence
  encodeCatchup c := Records.encode (catchupRecords c)
  decodeCatchup := Records.read toCatchup
  encodedLen_le bytes theirs decoded := by
    obtain ⟨found, read, made⟩ := Records.read_eq_ok decoded
    obtain ⟨entries, all, same⟩ := Option.map_eq_some_iff.mp made
    cases same
    have length := Records.length_encode_le_of_decode read
    rwa [catchupRecords_of_toEntries all, length_catchupRecords] at length

theorem sized_records : records.Sized := by
  have sequenceLen (h : SequenceHeader) : (records.encodeSequence h).length ≤ 11 := by
    obtain ⟨_ | n⟩ := h
    · exact Nat.zero_le _
    · have short := Varint.len_le_ten (ofInt32_lt n)
      show ((Record.int32 1 n).encode ++ []).length ≤ 11
      rw [List.append_nil, Record.int32, Record.encode, List.length_cons, Value.encode,
        Varint.length_encode]
      omega
  refine ⟨⟨fun h => (sequenceLen h).trans (by decide), fun h => ?_, fun c _ => ?_⟩, sequenceLen,
    fun c _ => length_catchupRecords c⟩
  · exact Records.read_encode (toSequence_records h)
  · exact Records.read_encode (toCatchup_records c)

end HandshakeCodec

end Backed

end Et
