import EtClient.Client.Hub
import EtClient.Lib.Records
import EtClient.Proto.Framing
import EtClient.Ssh.Credentials

/-!
# Connecting

A client dials, sends its id and the version of its protocol, and reads one response. Both
messages are plain text in the frames of the handshake. A server is what it does on one
connection: it may refuse it, take only a part of the request, and send any bytes. Where it
stops, the socket fails or nothing happens until the time is over. How the messages are encoded
is a parameter.

A server responds when it takes the whole request and a frame of at most
`MAX_HANDSHAKE_PROTO_LENGTH` bytes with that response stands in front of all that it sends.
Nothing else makes a session, ends one or rejects one. What stands behind the response is left
for the session.
-/

namespace Et

namespace Connect

open Backed

inductive ConnectStatus
  | newClient
  | returningClient
  | invalidKey
  | mismatchedProtocol
  deriving DecidableEq

structure ConnectRequest where
  clientId : Option String := none
  version : Option Int32 := none
  deriving DecidableEq

structure ConnectResponse where
  status : Option ConnectStatus := none
  error : Option String := none
  deriving DecidableEq

/-- The protobuf encoding of the two messages, with the codec of its errors, and what `Debug` prints
for a response. -/
structure ConnectCodec where
  encodeRequest : ConnectRequest → Bytes
  decodeRequest : Bytes → Except String ConnectRequest
  encodeResponse : ConnectResponse → Bytes
  decodeResponse : Bytes → Except String ConnectResponse
  debugResponse : ConnectResponse → String

/-- Every message that fits the frame of a handshake is read as it was written. -/
structure ConnectCodec.Lawful (codec : ConnectCodec) : Prop where
  request : ∀ m, (codec.encodeRequest m).length ≤ maxHandshakeProtoLength →
    codec.decodeRequest (codec.encodeRequest m) = .ok m
  response : ∀ m, (codec.encodeResponse m).length ≤ maxHandshakeProtoLength →
    codec.decodeResponse (codec.encodeResponse m) = .ok m

def protocolVersion : Int32 := 6

inductive ConnectFailure
  | io (error : IoError)
  | timeout
  | protocol (text : String)
  | rejected (status : ConnectStatus) (error : String)
  deriving DecidableEq

def frameErrorToConnectFailure : FrameError → ConnectFailure
  | .io error => .io error
  | other => .protocol other.message

/-- How a wait for the socket ends. -/
inductive Ending
  | failed (error : IoError)
  /-- Nothing happens until the time is over. -/
  | silent
  deriving DecidableEq

namespace Ending

/-- The error that a read or write runs into; in silence none of them is seen. -/
def error : Ending → IoError
  | .failed error => error
  | .silent => earlyEof

/-- What the end of the stream is for the handshake. A length that is out of range is refused
before anything is waited for. -/
def failure (ending : Ending) (e : FrameError) : ConnectFailure :=
  match ending, e with
  | .silent, .closed | .silent, .io _ => .timeout
  | _, e => frameErrorToConnectFailure e

end Ending

/-- What a server does on one connection. -/
structure Server where
  /-- The connection is not made. -/
  refuses : Option Ending
  /-- The bytes of the request that are taken, and what comes then. -/
  room : Nat
  full : Ending
  /-- The bytes that arrive, and what comes then. -/
  arrives : Bytes
  behind : Ending
  deriving DecidableEq

/-- A socket: what has not been read from it. -/
structure TcpStream where
  unread : Bytes
  behind : Ending
  deriving DecidableEq

/-- Outcome of the plaintext handshake on a fresh socket. -/
inductive Handshake
  | newClient (stream : TcpStream)
  | returning (stream : TcpStream)
  deriving DecidableEq

/-- One call of `handshake_request`: what was written and what it returned. -/
structure Attempt where
  written : Bytes
  outcome : Except ConnectFailure Handshake

/-- The request of a client. -/
def request (id : String) : ConnectRequest :=
  { clientId := some id, version := some protocolVersion }

def ConnectCodec.requestBytes (codec : ConnectCodec) (id : String) : Bytes :=
  codec.encodeRequest (request id)

/-- The last `match` of `handshake_request`. -/
def judge (codec : ConnectCodec) (response : ConnectResponse) (stream : TcpStream) :
    Except ConnectFailure Handshake :=
  match response.status with
  | some .newClient => .ok (.newClient stream)
  | some .returningClient => .ok (.returning stream)
  | some status => .error (.rejected status (response.error.getD ""))
  | none => .error (.protocol s!"ConnectResponse without status: {codec.debugResponse response}")

/-- The part of `handshake_request` behind the write. -/
def awaitResponse (codec : ConnectCodec) (server : Server) : Except ConnectFailure Handshake :=
  match readProtoFrame server.behind.error (Int64.ofNat maxHandshakeProtoLength) server.arrives with
  | .error e _ => .error (server.behind.failure e)
  | .ok body unread =>
    match codec.decodeResponse body with
    | .error e => .error (.protocol s!"bad ConnectResponse: {e}")
    | .ok response => judge codec response ⟨unread, server.behind⟩

def handshakeRequest (codec : ConnectCodec) (id : String) (server : Server) : Attempt :=
  match server.refuses with
  | some ending => ⟨[], .error (ending.failure (.io ending.error))⟩
  | none =>
    match writeProtoFrame (codec.requestBytes id) ⟨[], server.room, server.full.error⟩ with
    | .error e w => ⟨w.written, .error (server.full.failure e)⟩
    | .ok () w => ⟨w.written, awaitResponse codec server⟩

/-- The server takes the whole request and answers with this response. -/
structure Server.Responds (codec : ConnectCodec) (server : Server) (id : String)
    (response : ConnectResponse) (stream : TcpStream) : Prop where
  connects : server.refuses = none
  takes : (protoFrame (codec.requestBytes id)).length ≤ server.room
  answers : ∃ body, server.arrives = protoFrame body ++ stream.unread ∧
    body.length ≤ maxHandshakeProtoLength ∧
    codec.decodeResponse body = .ok response
  behind : stream.behind = server.behind

section Handshake

variable {codec : ConnectCodec} {id : String} {server : Server} {response : ConnectResponse}
variable {stream : TcpStream}

theorem readHandshake_eq_ok (failure : IoError) {arrives body unread : Bytes} :
    readProtoFrame failure (Int64.ofNat maxHandshakeProtoLength) arrives = .ok body unread ↔
      arrives = protoFrame body ++ unread ∧ body.length ≤ maxHandshakeProtoLength := by
  have cap : (Int64.ofNat maxHandshakeProtoLength).toInt = maxHandshakeProtoLength :=
    Int64.toInt_ofNat_of_lt (by decide)
  rw [readProtoFrame_eq_ok, cap, Int.ofNat_le]

theorem write_request (fits : (protoFrame (codec.requestBytes id)).length ≤ server.room) :
    ∃ w, writeProtoFrame (codec.requestBytes id) ⟨[], server.room, server.full.error⟩ = .ok () w ∧
      w.written = protoFrame (codec.requestBytes id) := by
  rw [writeProtoFrame_eq]
  refine ⟨_, Frames.adaptExcept_eq_ok.mpr (if_pos fits), ?_⟩
  exact List.nil_append _

/-- The request is on the wire, and the response decides. -/
theorem handshakeRequest_of_responds (codec : ConnectCodec)
    (responds : server.Responds codec id response stream) :
    (handshakeRequest codec id server).written = protoFrame (codec.requestBytes id) ∧
      (handshakeRequest codec id server).outcome = judge codec response stream := by
  obtain ⟨body, arrives, short, decoded⟩ := responds.answers
  obtain ⟨w, wrote, written⟩ := write_request responds.takes
  have read := (readHandshake_eq_ok server.behind.error).mpr ⟨arrives, short⟩
  have whole : stream = ⟨stream.unread, server.behind⟩ := by rw [← responds.behind]
  rw [handshakeRequest]
  simp only [responds.connects, wrote, awaitResponse, read, decoded]
  exact ⟨written, by rw [← whole]⟩

theorem Ending.failure_ne_rejected (ending : Ending) (e : FrameError) (status : ConnectStatus)
    (error : String) : ending.failure e ≠ .rejected status error := by
  cases ending <;> cases e <;> simp [failure, frameErrorToConnectFailure]

/-- A server that does not respond makes the handshake fail, and not by a rejection. -/
theorem handshakeRequest_cases (codec : ConnectCodec) (id : String) (server : Server) :
    (∃ response stream, server.Responds codec id response stream) ∨
      ∃ failure, (handshakeRequest codec id server).outcome = .error failure ∧
        ∀ status error, failure ≠ .rejected status error := by
  rw [handshakeRequest]
  cases connects : server.refuses with
  | some ending => exact .inr ⟨_, rfl, ending.failure_ne_rejected _⟩
  | none =>
      dsimp only
      cases wrote : writeProtoFrame (codec.requestBytes id)
          ⟨[], server.room, server.full.error⟩ with
      | error e w => exact .inr ⟨_, rfl, server.full.failure_ne_rejected e⟩
      | ok done w =>
          have takes : (protoFrame (codec.requestBytes id)).length ≤ server.room := by
            rw [writeProtoFrame_eq, Frames.adaptExcept_eq_ok, writeAll] at wrote
            split at wrote
            · assumption
            · cases wrote
          dsimp only
          rw [awaitResponse]
          cases read : readProtoFrame server.behind.error
              (Int64.ofNat maxHandshakeProtoLength) server.arrives with
          | error e unread => exact .inr ⟨_, rfl, server.behind.failure_ne_rejected e⟩
          | ok body unread =>
              obtain ⟨arrives, short⟩ := (readHandshake_eq_ok _).mp read
              dsimp only
              cases decoded : codec.decodeResponse body with
              | error e => exact .inr ⟨_, rfl, by simp⟩
              | ok response =>
                  exact .inl ⟨response, ⟨unread, server.behind⟩, connects, takes,
                    ⟨body, arrives, short, decoded⟩, rfl⟩

theorem judge_eq_newClient {t : TcpStream} : judge codec response stream = .ok (.newClient t) ↔
    response.status = some .newClient ∧ stream = t := by
  rw [judge]
  cases response.status with
  | none => simp
  | some given => cases given <;> simp

theorem judge_eq_returning {t : TcpStream} : judge codec response stream = .ok (.returning t) ↔
    response.status = some .returningClient ∧ stream = t := by
  rw [judge]
  cases response.status with
  | none => simp
  | some given => cases given <;> simp

theorem judge_eq_rejected {status : ConnectStatus} {error : String} :
    judge codec response stream = .error (.rejected status error) ↔
      (status = .invalidKey ∨ status = .mismatchedProtocol) ∧ response.status = some status ∧
        response.error.getD "" = error := by
  rw [judge]
  cases response.status with
  | none => simp
  | some given => cases given <;> cases status <;> simp

/-- A result that only a response can give. -/
theorem outcome_iff {result : Except ConnectFailure Handshake}
    (told : ∀ failure, result = .error failure → ∃ status error, failure = .rejected status error) :
    (handshakeRequest codec id server).outcome = result ↔
      ∃ response stream, server.Responds codec id response stream ∧
        judge codec response stream = result := by
  constructor
  · intro outcome
    obtain ⟨response, stream, responds⟩ | ⟨failure, failed, untold⟩ :=
      handshakeRequest_cases codec id server
    · exact ⟨response, stream, responds, (handshakeRequest_of_responds codec responds).2 ▸ outcome⟩
    · obtain ⟨status, error, rejected⟩ := told failure (outcome ▸ failed)
      exact absurd rejected (untold status error)
  · rintro ⟨response, stream, responds, same⟩
    rw [(handshakeRequest_of_responds codec responds).2, same]

theorem outcome_eq_newClient :
    (handshakeRequest codec id server).outcome = .ok (.newClient stream) ↔
      ∃ response, server.Responds codec id response stream ∧ response.status = some .newClient := by
  rw [outcome_iff (by simp)]
  simp only [judge_eq_newClient]
  constructor
  · rintro ⟨response, _, responds, status, rfl⟩
    exact ⟨response, responds, status⟩
  · rintro ⟨response, responds, status⟩
    exact ⟨response, stream, responds, status, rfl⟩

theorem outcome_eq_returning :
    (handshakeRequest codec id server).outcome = .ok (.returning stream) ↔
      ∃ response, server.Responds codec id response stream ∧
        response.status = some .returningClient := by
  rw [outcome_iff (by simp)]
  simp only [judge_eq_returning]
  constructor
  · rintro ⟨response, _, responds, status, rfl⟩
    exact ⟨response, responds, status⟩
  · rintro ⟨response, responds, status⟩
    exact ⟨response, stream, responds, status, rfl⟩

theorem outcome_eq_rejected {status : ConnectStatus} {error : String} :
    (handshakeRequest codec id server).outcome = .error (.rejected status error) ↔
      (status = .invalidKey ∨ status = .mismatchedProtocol) ∧
      ∃ response stream, server.Responds codec id response stream ∧
        response.status = some status ∧ response.error.getD "" = error := by
  rw [outcome_iff (by simp)]
  simp only [judge_eq_rejected]
  constructor
  · rintro ⟨response, stream, responds, kind, status, text⟩
    exact ⟨kind, response, stream, responds, status, text⟩
  · rintro ⟨kind, response, stream, responds, status, text⟩
    exact ⟨response, stream, responds, kind, status, text⟩

/-- Whatever bytes a server sends, the handshake accepts or rejects exactly what a well-formed
response at their front says, and what stands behind the response is left unread. -/
theorem handshake_decides_by_response (codec : ConnectCodec) (id : String) (server : Server) :
    (∀ stream, (handshakeRequest codec id server).outcome = .ok (.newClient stream) ↔
      ∃ response, server.Responds codec id response stream ∧ response.status = some .newClient) ∧
    (∀ stream, (handshakeRequest codec id server).outcome = .ok (.returning stream) ↔
      ∃ response, server.Responds codec id response stream ∧
        response.status = some .returningClient) ∧
    (∀ status error,
      (handshakeRequest codec id server).outcome = .error (.rejected status error) ↔
        (status = .invalidKey ∨ status = .mismatchedProtocol) ∧
        ∃ response stream, server.Responds codec id response stream ∧
          response.status = some status ∧ response.error.getD "" = error) :=
  ⟨fun _ => outcome_eq_newClient, fun _ => outcome_eq_returning, fun _ _ => outcome_eq_rejected⟩

end Handshake

/-- A server that sends a response and goes on with the session. -/
def Server.answering (codec : ConnectCodec) (response : ConnectResponse) (rest : Bytes)
    (room : Nat) (full behind : Ending) : Server :=
  ⟨none, room, full, protoFrame (codec.encodeResponse response) ++ rest, behind⟩

/-- Such a server responds when both messages are of a size that a handshake allows. -/
theorem Server.responds_answering {codec : ConnectCodec} (lawful : codec.Lawful) {id : String}
    {response : ConnectResponse} {room : Nat} (rest : Bytes) (full behind : Ending)
    (responseFits : (codec.encodeResponse response).length ≤ maxHandshakeProtoLength)
    (roomFits : (protoFrame (codec.requestBytes id)).length ≤ room) :
    (Server.answering codec response rest room full behind).Responds codec id response
      ⟨rest, behind⟩ where
  connects := rfl
  takes := roomFits
  answers := ⟨_, rfl, responseFits, lawful.response response responseFits⟩
  behind := rfl

/-- Both sides of a handshake understand each other: whoever reads what the client has written
finds its id and version and nothing more, and the client decides by the response that the server
has sent and leaves to the session what follows it. -/
theorem handshake_understood (codec : ConnectCodec) (lawful : codec.Lawful) (id : String)
    (response : ConnectResponse) (rest : Bytes) (room : Nat) (full behind : Ending)
    (requestFits : (codec.requestBytes id).length ≤ maxHandshakeProtoLength)
    (responseFits : (codec.encodeResponse response).length ≤ maxHandshakeProtoLength)
    (roomFits : (protoFrame (codec.requestBytes id)).length ≤ room) :
    let attempt := handshakeRequest codec id (.answering codec response rest room full behind)
    (∀ failure more, ∃ body,
      readProtoFrame failure (Int64.ofNat maxHandshakeProtoLength) (attempt.written ++ more) =
        .ok body more ∧
      codec.decodeRequest body = .ok (request id)) ∧
    attempt.outcome = judge codec response ⟨rest, behind⟩ := by
  have responds := Server.responds_answering lawful rest full behind responseFits roomFits
  obtain ⟨written, outcome⟩ := handshakeRequest_of_responds codec responds
  refine ⟨fun failure more => ⟨codec.requestBytes id, ?_, ?_⟩, outcome⟩
  · rw [written, readHandshake_eq_ok]
    exact ⟨rfl, requestFits⟩
  · exact lawful.request _ requestFits

namespace ConnectCodec

open Records

def requestRecords (m : ConnectRequest) : List Record :=
  m.clientId.toList.map (.text 1) ++ m.version.toList.map (.int32 2)

def mergeRequest (m : ConnectRequest) : Record → Option ConnectRequest
  | ⟨1, .bytes id⟩ => (Utf8.decode? id).map fun id => { m with clientId := some id }
  | ⟨2, .number v⟩ => some { m with version := some (toInt32 v) }
  | _ => none

def statusNumber : ConnectStatus → Nat
  | .newClient => 1
  | .returningClient => 2
  | .invalidKey => 3
  | .mismatchedProtocol => 4

def toStatus : Nat → Option ConnectStatus
  | 1 => some .newClient
  | 2 => some .returningClient
  | 3 => some .invalidKey
  | 4 => some .mismatchedProtocol
  | _ => none

def responseRecords (m : ConnectResponse) : List Record :=
  m.status.toList.map (fun status => ⟨1, .number (statusNumber status)⟩) ++
    m.error.toList.map (.text 2)

def mergeResponse (m : ConnectResponse) : Record → Option ConnectResponse
  | ⟨1, .number n⟩ => some { m with status := toStatus n }
  | ⟨2, .bytes text⟩ => (Utf8.decode? text).map fun text => { m with error := some text }
  | _ => none

/-- Both messages as the records of the wire format. -/
def records : ConnectCodec where
  encodeRequest m := encode (requestRecords m)
  decodeRequest := read (·.foldlM mergeRequest {})
  encodeResponse m := encode (responseRecords m)
  decodeResponse := read (·.foldlM mergeResponse {})
  debugResponse _ := "ConnectResponse"

theorem lawful_records : records.Lawful where
  request := by
    rintro ⟨id, version⟩ _
    apply read_encode
    cases id <;> cases version <;>
      simp [requestRecords, Record.text, Record.bytes, Record.int32, mergeRequest]
  response := by
    rintro ⟨status, error⟩ _
    apply read_encode
    rcases status with _ | ⟨⟨⟩⟩ <;> cases error <;>
      simp [responseRecords, Record.text, Record.bytes, mergeResponse, statusNumber, toStatus]

end ConnectCodec

/-- A server that takes the client and sends two bytes of its own. -/
theorem handshake_understood_newClient :
    (∀ failure more, ∃ body,
      readProtoFrame failure (Int64.ofNat maxHandshakeProtoLength)
        ((handshakeRequest .records "id" (.answering .records { status := some .newClient } [1, 2]
          4096 .silent .silent)).written ++ more) = .ok body more ∧
      ConnectCodec.records.decodeRequest body = .ok (request "id")) ∧
    (handshakeRequest .records "id" (.answering .records { status := some .newClient } [1, 2]
      4096 .silent .silent)).outcome = .ok (.newClient ⟨[1, 2], .silent⟩) :=
  handshake_understood .records ConnectCodec.lawful_records "id" { status := some .newClient }
    [1, 2] 4096 .silent .silent (by decide +kernel) (by decide +kernel) (by decide +kernel)

/-- A client that is connected: its actor's configuration and its socket. -/
structure Connected where
  cfg : BackedConfig
  stream : TcpStream

/-- The `match` of `connect_with` on what the handshake returned. -/
def accept (key : Key) (keepalive : Option Nat) :
    Except ConnectFailure Handshake → Except ConnectFailure Connected
  | .ok (.newClient stream) => .ok ⟨.client key keepalive, stream⟩
  | .ok (.returning _) => .error (.protocol
      ("this id already has a live session on the server and a fresh client cannot " ++
        "resume it; rerun the ssh handshake to get a new id"))
  | .error e => .error e

/-- `connect_with` up to the spawn of the actor, and what was written on the way, if anything
was dialed. -/
def connectWith (codec : ConnectCodec) (id passkey : String) (keepalive : Option Nat)
    (server : Server) :
    Option Bytes × Except ConnectFailure Connected :=
  match Key.keyBytes passkey with
  | none => (none, .error (.protocol "passkey must be 32 bytes"))
  | some key =>
    let attempt := handshakeRequest codec id server
    (some attempt.written, accept key keepalive attempt.outcome)

theorem accept_eq_ok {key : Key} {keepalive : Option Nat} {client : Connected}
    {outcome : Except ConnectFailure Handshake} :
    accept key keepalive outcome = .ok client ↔
      client.cfg = .client key keepalive ∧ outcome = .ok (.newClient client.stream) := by
  obtain ⟨cfg, stream⟩ := client
  cases outcome with
  | error e => simp [accept]
  | ok done => cases done <;> simp [accept, eq_comm]

theorem accept_eq_rejected {key : Key} {keepalive : Option Nat} {status : ConnectStatus}
    {error : String} {outcome : Except ConnectFailure Handshake} :
    accept key keepalive outcome = .error (.rejected status error) ↔
      outcome = .error (.rejected status error) := by
  cases outcome with
  | error e => simp [accept]
  | ok done => cases done <;> simp [accept]

section ConnectWith

variable {codec : ConnectCodec} {id passkey : String} {keepalive : Option Nat} {server : Server}

theorem connectWith_eq_ok {client : Connected} :
    (connectWith codec id passkey keepalive server).2 = .ok client ↔
      ∃ key response, Key.keyBytes passkey = some key ∧ client.cfg = .client key keepalive ∧
        server.Responds codec id response client.stream ∧ response.status = some .newClient := by
  rw [connectWith]
  cases read : Key.keyBytes passkey with
  | none => simp
  | some key =>
      rw [accept_eq_ok, outcome_eq_newClient]
      simp

theorem connectWith_eq_rejected {status : ConnectStatus} {error : String} :
    (connectWith codec id passkey keepalive server).2 = .error (.rejected status error) ↔
      (Key.keyBytes passkey).isSome ∧ (status = .invalidKey ∨ status = .mismatchedProtocol) ∧
      ∃ response stream, server.Responds codec id response stream ∧
        response.status = some status ∧ response.error.getD "" = error := by
  rw [connectWith]
  cases read : Key.keyBytes passkey with
  | none => simp
  | some key =>
      rw [accept_eq_rejected, outcome_eq_rejected]
      simp

end ConnectWith

/-- A client connects with a key of 32 bytes, on a server that answers `NEW_CLIENT`, and in no
other case. Its actor has that key and the first byte behind the response. Without a key
nothing is dialed. -/
theorem connect_with_iff (codec : ConnectCodec) (id passkey : String) (keepalive : Option Nat)
    (server : Server) :
    (∀ client, (connectWith codec id passkey keepalive server).2 = .ok client ↔
      ∃ key response, Key.keyBytes passkey = some key ∧ client.cfg = .client key keepalive ∧
        server.Responds codec id response client.stream ∧ response.status = some .newClient) ∧
    ((connectWith codec id passkey keepalive server).1 = none ↔
      (Utf8.bytes passkey).length ≠ keyBytes) := by
  refine ⟨fun client => connectWith_eq_ok, ?_⟩
  rw [connectWith]
  cases read : Key.keyBytes passkey with
  | none => simpa [read] using Key.isSome_keyBytes.not.mp (by simp [read])
  | some key =>
      have whole : (Utf8.bytes passkey).length = keyBytes :=
        Key.isSome_keyBytes.mp (by simp [read])
      simp [whole]

end Connect

end Et
