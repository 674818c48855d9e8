import EtClient.Forward.Engine
import EtClient.Lib.Records

/-!
# The encoding of the port-forward messages

How the messages are encoded is a parameter of the engine. What two engines need of it is that a
message which can be encoded at all is read as it was written. The records of the wire format have
this law, and their endpoints are also those of the initial payload.
-/

namespace Et

namespace Forward

namespace Protobuf

/-- Every message that can be encoded is read as it was written. -/
structure Lawful (proto : Protobuf) : Prop where
  request : ∀ r, (proto.encodeToVec (.request r)).length ≤ maxMessageBytes →
    proto.decodeRequest (proto.encodeToVec (.request r)) = some r
  response : ∀ r, (proto.encodeToVec (.response r)).length ≤ maxMessageBytes →
    proto.decodeResponse (proto.encodeToVec (.response r)) = some r
  data : ∀ d, (proto.encodeToVec (.data d)).length ≤ maxMessageBytes →
    proto.decodeData (proto.encodeToVec (.data d)) = some d

/-- The engines understand each other's frames. -/
theorem Lawful.read_packet {proto : Protobuf} (lawful : proto.Lawful) {m : Message}
    (fits : (proto.encodeToVec m).length ≤ maxMessageBytes) :
    proto.codec.read (proto.codec.packet m) = some m := by
  cases m with
  | request r => exact congrArg (Option.map Message.request) (lawful.request r fits)
  | response r => exact congrArg (Option.map Message.response) (lawful.response r fits)
  | data d => exact congrArg (Option.map Message.data) (lawful.data d fits)

open Records

def endpointRecords (e : SocketEndpoint) : List Record :=
  e.name.toList.map (.text 1) ++ e.port.toList.map (.int32 2)

def mergeEndpoint (e : SocketEndpoint) : Record → Option SocketEndpoint
  | ⟨1, .bytes name⟩ => (Utf8.decode? name).map fun name => { e with name := some name }
  | ⟨2, .number port⟩ => some { e with port := some (toInt32 port) }
  | _ => none

def endpointRecord (field : Fin 32) (e : SocketEndpoint) : Record :=
  .bytes field (encode (endpointRecords e))

def toEndpoint (bytes : Bytes) : Option SocketEndpoint :=
  (decode bytes).bind (·.foldlM mergeEndpoint ⟨none, none⟩)

theorem toEndpoint_encode (e : SocketEndpoint) :
    toEndpoint (encode (endpointRecords e)) = some e := by
  rw [toEndpoint, decode_encode]
  obtain ⟨name, port⟩ := e
  cases name <;> cases port <;>
    simp [endpointRecords, Record.text, Record.bytes, Record.int32, mergeEndpoint]

def messageRecords : Message → List Record
  | .request r => r.destination.toList.map (endpointRecord 1) ++ r.fd.toList.map (.int32 2)
  | .response r =>
      r.clientfd.toList.map (.int32 1) ++ r.socketid.toList.map (.int32 2) ++
        r.error.toList.map (.text 3)
  | .data d =>
      d.sourcetodestination.toList.map (.flag 1) ++ d.socketid.toList.map (.int32 2) ++
        d.buffer.toList.map (.bytes 3) ++ d.error.toList.map (.text 4) ++
        d.closed.toList.map (.flag 5)

def mergeRequest (r : PortForwardDestinationRequest) :
    Record → Option PortForwardDestinationRequest
  | ⟨1, .bytes bytes⟩ => (toEndpoint bytes).map fun e => { r with destination := some e }
  | ⟨2, .number fd⟩ => some { r with fd := some (toInt32 fd) }
  | _ => none

def mergeResponse (r : PortForwardDestinationResponse) :
    Record → Option PortForwardDestinationResponse
  | ⟨1, .number fd⟩ => some { r with clientfd := some (toInt32 fd) }
  | ⟨2, .number id⟩ => some { r with socketid := some (toInt32 id) }
  | ⟨3, .bytes text⟩ => (Utf8.decode? text).map fun text => { r with error := some text }
  | _ => none

def mergeData (d : PortForwardData) : Record → Option PortForwardData
  | ⟨1, .number flag⟩ => some { d with sourcetodestination := some (flag != 0) }
  | ⟨2, .number id⟩ => some { d with socketid := some (toInt32 id) }
  | ⟨3, .bytes bytes⟩ => some { d with buffer := some bytes }
  | ⟨4, .bytes text⟩ => (Utf8.decode? text).map fun text => { d with error := some text }
  | ⟨5, .number flag⟩ => some { d with closed := some (flag != 0) }
  | _ => none

/-- The messages as the records of the wire format. -/
def records : Protobuf where
  encodeToVec m := encode (messageRecords m)
  decodeRequest bytes := (decode bytes).bind (·.foldlM mergeRequest ⟨none, none⟩)
  decodeResponse bytes := (decode bytes).bind (·.foldlM mergeResponse {})
  decodeData bytes := (decode bytes).bind (·.foldlM mergeData {})

theorem lawful_records : records.Lawful where
  request r _ := by
    show (decode (encode _)).bind _ = _
    rw [decode_encode]
    obtain ⟨destination, fd⟩ := r
    cases destination <;> cases fd <;>
      simp [messageRecords, endpointRecord, Record.bytes, Record.int32, mergeRequest,
        toEndpoint_encode]
  response r _ := by
    show (decode (encode _)).bind _ = _
    rw [decode_encode]
    obtain ⟨fd, id, error⟩ := r
    cases fd <;> cases id <;> cases error <;>
      simp [messageRecords, Record.int32, Record.text, Record.bytes, mergeResponse]
  data d _ := by
    show (decode (encode _)).bind _ = _
    rw [decode_encode]
    obtain ⟨direction, id, buffer, error, closed⟩ := d
    cases direction <;> cases id <;> cases buffer <;> cases error <;> cases closed <;>
      simp [messageRecords, Record.int32, Record.text, Record.flag, Record.bytes, mergeData]

end Protobuf

end Forward

end Et
