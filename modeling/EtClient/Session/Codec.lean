import EtClient.Lib.Records
import EtClient.Proto.Wire

/-!
# The encoding of the terminal's messages

The terminal has two messages: the bytes that it shows or that were typed, and its size. How they
are encoded is a parameter, and what a session and its server need of it is that a message which
can be encoded at all is read as it was written. The records of the wire format have this law.
-/

namespace Et

namespace Session

structure TerminalInfo where
  id : Option String := none
  row : Option Int32 := none
  column : Option Int32 := none
  width : Option Int32 := none
  height : Option Int32 := none
  deriving DecidableEq

/-- The protobuf encoding of the messages of the terminal; a `TerminalBuffer` is what its field
holds. -/
structure TerminalCodec where
  encodeBuffer : Bytes → Bytes
  decodeBuffer : Bytes → Option (Option Bytes)
  encodeInfo : TerminalInfo → Bytes
  decodeInfo : Bytes → Option TerminalInfo

/-- Every message that can be encoded is read as it was written. -/
structure TerminalCodec.Lawful (codec : TerminalCodec) : Prop where
  buffer : ∀ data, (codec.encodeBuffer data).length ≤ maxMessageBytes →
    codec.decodeBuffer (codec.encodeBuffer data) = some (some data)
  info : ∀ m, (codec.encodeInfo m).length ≤ maxMessageBytes →
    codec.decodeInfo (codec.encodeInfo m) = some m

namespace TerminalCodec

open Records

def toBuffer : List Record → Option (Option Bytes)
  | [] => some none
  | [⟨1, .bytes data⟩] => some (some data)
  | _ => none

def infoRecords (m : TerminalInfo) : List Record :=
  m.id.toList.map (.text 1) ++ m.row.toList.map (.int32 2) ++ m.column.toList.map (.int32 3) ++
    m.width.toList.map (.int32 4) ++ m.height.toList.map (.int32 5)

def mergeInfo (m : TerminalInfo) : Record → Option TerminalInfo
  | ⟨1, .bytes id⟩ => (Utf8.decode? id).map fun id => { m with id := some id }
  | ⟨2, .number n⟩ => some { m with row := some (toInt32 n) }
  | ⟨3, .number n⟩ => some { m with column := some (toInt32 n) }
  | ⟨4, .number n⟩ => some { m with width := some (toInt32 n) }
  | ⟨5, .number n⟩ => some { m with height := some (toInt32 n) }
  | _ => none

/-- The messages as the records of the wire format. -/
def records : TerminalCodec where
  encodeBuffer data := encode [.bytes 1 data]
  decodeBuffer bytes := (decode bytes).bind toBuffer
  encodeInfo m := encode (infoRecords m)
  decodeInfo bytes := (decode bytes).bind (·.foldlM mergeInfo {})

theorem lawful_records : records.Lawful where
  buffer data _ := by
    show (decode (encode _)).bind toBuffer = _
    rw [decode_encode]
    rfl
  info m _ := by
    show (decode (encode _)).bind _ = _
    rw [decode_encode]
    obtain ⟨id, row, column, width, height⟩ := m
    cases id <;> cases row <;> cases column <;> cases width <;> cases height <;>
      simp [infoRecords, Record.text, Record.bytes, Record.int32, mergeInfo]

end TerminalCodec

end Session

end Et
