import EtClient.Client.Connect
import EtClient.Forward.Protobuf
import EtClient.Session.Pump

/-!
# The start of a session

`start` connects, sends the initial payload and waits for the response to it. A server that does not
know the key yet is dialed again for a while, because the terminal may still be registering there;
every other failure is returned at once. While the response is awaited, packets with another header
are skipped.

Each step happens at a time that never goes back, measured in milliseconds. Which servers are
dialed, what the client's calls return and when, is up to the environment. How the messages are
encoded is a parameter.
-/

namespace Et

namespace Session

open Backed Client Connect
open Forward (PortForwardSourceRequest)

/-- `INITIAL_RESPONSE_TIMEOUT`. -/
def initialResponseTimeout : Nat := 30000

/-- `INITIAL_INVALID_KEY_RETRY`. -/
def initialInvalidKeyRetry : Nat := 3000

/-- The sleep between two dials. -/
def redialDelay : Nat := 200

def initialResponse : UInt8 := 252
def initialPayload : UInt8 := 253

inductive StartError
  | connect (e : ConnectFailure)
  | write (e : WriteError)
  | timeout
  | unexpectedPacket
  | server (text : String)
  deriving DecidableEq

/-- What `Debug` prints. -/
def debugReason : ClientDeadReason → String
  | .invalidKey => "InvalidKey"
  | .serverStateLost => "ServerStateLost"
  | .other .shutdown => "Other(Shutdown)"
  | .other .cryptoMismatch => "Other(CryptoMismatch)"

/-- The variables are in the order in which their map gives them. -/
structure InitialPayload where
  jumphost : Option Bool := none
  reversetunnels : List PortForwardSourceRequest := []
  environmentvariables : List (String × String) := []

structure InitialResponse where
  error : Option String := none

/-- The protobuf encoding of the messages of `start`; why a response is not one is not told. -/
structure StartCodec where
  connect : ConnectCodec
  encodePayload : InitialPayload → Bytes
  decodeResponse : Bytes → Option InitialResponse

/-- The arguments of `start`. -/
structure StartCall where
  codec : StartCodec
  id : String
  passkey : String
  payload : InitialPayload
  keepalive : Nat

namespace StartCall

/-- `EtClient::connect`. -/
def connect (call : StartCall) (server : Server) : Except ConnectFailure Connected :=
  (connectWith call.codec.connect call.id call.passkey (some call.keepalive) server).2

def payloadBytes (call : StartCall) : Bytes := call.codec.encodePayload call.payload

/-- The session that is returned. With reverse tunnels it has an engine from the start. -/
def session (call : StartCall) : TerminalSession :=
  let engine := !call.payload.reversetunnels.isEmpty
  ⟨.idle, engine, engine, engine, false⟩

end StartCall

/-- Where `start` waits. -/
inductive Stage
  | connecting
  | sleeping (wake : Nat)
  | writing (client : Connected)
  | waiting (client : Connected) (deadline : Nat)
  | returned

structure Starting where
  stage : Stage
  clock : Nat
  /-- Until then a refused key is tried again. -/
  deadline : Nat

inductive StartAct
  /-- `EtClient::connect` comes back from this server. -/
  | connect (now : Nat) (server : Server)
  | slept (now : Nat)
  /-- `client.write` returns. -/
  | wrote (now : Nat) (failure : Option WriteError)
  /-- `client.next_event` returns. -/
  | event (now : Nat) (e : Option Event)
  | timeUp (now : Nat)

inductive StartNote
  | dialed (server : Server)
  | wrote (header : UInt8) (payload : Bytes) (failure : Option WriteError)
  | received (e : Option Event)
  | returned (result : Except StartError TerminalSession)

def StartAct.now : StartAct → Nat
  | .connect now _ | .slept now | .wrote now _ | .event now _ | .timeUp now => now

/-- What `start` makes of an event: `none` is `continue`. -/
def StartCall.judge (call : StartCall) : Option Event → Option (Except StartError TerminalSession)
  | some (.packet p) =>
      if p.header = initialResponse then
        match call.codec.decodeResponse p.payload with
        | none => some (.error .unexpectedPacket)
        | some response =>
            match response.error with
            | some error => some (.error (.server error))
            | none => some (.ok call.session)
      else none
  | some (.dead reason) => some (.error (.server s!"session died: {debugReason reason}"))
  | none => some (.error .unexpectedPacket)

namespace Starting

/-- The last step. -/
def finish (s : Starting) (note : List StartNote) (result : Except StartError TerminalSession) :
    Option (Starting × List StartNote) :=
  some ({ s with stage := .returned }, note ++ [.returned result])

/-- One step at its time. -/
def act (call : StartCall) (s : Starting) : StartAct → Option (Starting × List StartNote)
  | .connect now server =>
      match s.stage with
      | .connecting =>
          match call.connect server with
          | .ok client => some ({ s with stage := .writing client }, [.dialed server])
          | .error (.rejected .invalidKey error) =>
              if now < s.deadline then
                some ({ s with stage := .sleeping (now + redialDelay) }, [.dialed server])
              else s.finish [.dialed server] (.error (.connect (.rejected .invalidKey error)))
          | .error e => s.finish [.dialed server] (.error (.connect e))
      | _ => none
  | .slept now =>
      match s.stage with
      | .sleeping wake => if wake ≤ now then some ({ s with stage := .connecting }, []) else none
      | _ => none
  | .wrote now failure =>
      match s.stage with
      | .writing client =>
          let note := .wrote initialPayload call.payloadBytes failure
          match failure with
          | none =>
              some ({ s with stage := .waiting client (now + initialResponseTimeout) }, [note])
          | some e => s.finish [note] (.error (.write e))
      | _ => none
  | .event _ e =>
      match s.stage with
      | .waiting _ _ =>
          match call.judge e with
          | none => some (s, [.received e])
          | some result => s.finish [.received e] result
      | _ => none
  | .timeUp now =>
      match s.stage with
      | .waiting _ deadline => if deadline ≤ now then s.finish [] (.error .timeout) else none
      | _ => none

def step (call : StartCall) (s : Starting) (a : StartAct) : Option (Starting × List StartNote) :=
  if s.clock ≤ a.now then { s with clock := a.now }.act call a else none

def system (call : StartCall) (now : Nat) : Transition.System Starting StartAct StartNote where
  start := ⟨.connecting, now, now + initialInvalidKeyRetry⟩
  step := step call

/-- What each step does. -/
inductive Moves (call : StartCall) (s : Starting) : StartAct → Starting → List StartNote → Prop
  | connected (now : Nat) (server : Server) (client : Connected) : s.stage = .connecting →
      call.connect server = .ok client →
      Moves call s (.connect now server) { s with stage := .writing client, clock := now }
        [.dialed server]
  | refused (now : Nat) (server : Server) (error : String) : s.stage = .connecting →
      call.connect server = .error (.rejected .invalidKey error) → now < s.deadline →
      Moves call s (.connect now server)
        { s with stage := .sleeping (now + redialDelay), clock := now } [.dialed server]
  | failed (now : Nat) (server : Server) (e : ConnectFailure) : s.stage = .connecting →
      call.connect server = .error e → (∀ error, e = .rejected .invalidKey error →
        s.deadline ≤ now) →
      Moves call s (.connect now server) { s with stage := .returned, clock := now }
        [.dialed server, .returned (.error (.connect e))]
  | slept (now wake : Nat) : s.stage = .sleeping wake → wake ≤ now →
      Moves call s (.slept now) { s with stage := .connecting, clock := now } []
  | sent (now : Nat) (client : Connected) : s.stage = .writing client →
      Moves call s (.wrote now none)
        { s with stage := .waiting client (now + initialResponseTimeout), clock := now }
        [.wrote initialPayload call.payloadBytes none]
  | unsent (now : Nat) (client : Connected) (e : WriteError) : s.stage = .writing client →
      Moves call s (.wrote now (some e)) { s with stage := .returned, clock := now }
        [.wrote initialPayload call.payloadBytes (some e), .returned (.error (.write e))]
  | skipped (now deadline : Nat) (client : Connected) (e : Option Event) :
      s.stage = .waiting client deadline → call.judge e = none →
      Moves call s (.event now e) { s with clock := now } [.received e]
  | judged (now deadline : Nat) (client : Connected) (e : Option Event)
      (result : Except StartError TerminalSession) : s.stage = .waiting client deadline →
      call.judge e = some result →
      Moves call s (.event now e) { s with stage := .returned, clock := now }
        [.received e, .returned result]
  | timedOut (now deadline : Nat) (client : Connected) : s.stage = .waiting client deadline →
      deadline ≤ now →
      Moves call s (.timeUp now) { s with stage := .returned, clock := now }
        [.returned (.error .timeout)]

variable {call : StartCall} {s s' : Starting} {a : StartAct} {log notes : List StartNote}

theorem step_moves (stepped : s.step call a = some (s', notes)) :
    s.clock ≤ a.now ∧ Moves call s a s' notes := by
  rw [step] at stepped
  split at stepped
  · refine ⟨‹_›, ?_⟩
    cases a with
    | connect now server =>
        simp only [act, StartAct.now] at stepped
        split at stepped
        · split at stepped
          · cases stepped
            exact .connected now server _ ‹_› ‹_›
          · split at stepped
            · cases stepped
              exact .refused now server _ ‹_› ‹_› ‹_›
            · cases stepped
              exact .failed now server _ ‹_› ‹_› fun _ _ => Nat.le_of_not_lt ‹_›
          · rename_i other _
            cases stepped
            exact .failed now server _ ‹_› ‹_› fun error same => absurd same (other error)
        · cases stepped
    | slept now =>
        simp only [act, StartAct.now] at stepped
        split at stepped
        · split at stepped <;> cases stepped
          exact .slept now _ ‹_› ‹_›
        · cases stepped
    | wrote now failure =>
        simp only [act, StartAct.now] at stepped
        split at stepped
        · cases failure <;> cases stepped
          · exact .sent now _ ‹_›
          · exact .unsent now _ _ ‹_›
        · cases stepped
    | event now e =>
        simp only [act, StartAct.now] at stepped
        split at stepped
        · split at stepped <;> cases stepped
          · exact .skipped now _ _ e ‹_› ‹_›
          · exact .judged now _ _ e _ ‹_› ‹_›
        · cases stepped
    | timeUp now =>
        simp only [act, StartAct.now] at stepped
        split at stepped
        · split at stepped <;> cases stepped
          exact .timedOut now _ _ ‹_› ‹_›
        · cases stepped
  · cases stepped

end Starting

/-- The servers that were dialed. -/
def dialsOf (log : List StartNote) : List Server :=
  log.filterMap fun
    | .dialed server => some server
    | _ => none

theorem dialsOf_append (log notes : List StartNote) :
    dialsOf (log ++ notes) = dialsOf log ++ dialsOf notes := List.filterMap_append

/-- A dial behind `n` others is at least so late, and the last of them was before the deadline. -/
def Paced (now : Nat) (n : Nat) : Stage → Nat → Prop
  | .connecting, clock => now + redialDelay * n ≤ clock ∧ n ≤ 15
  | .sleeping wake, _ => now + redialDelay * n ≤ wake ∧ n ≤ 15
  | _, _ => n ≤ 16

section Runs

variable {call : StartCall} {now : Nat} {s s' : Starting} {a : StartAct}
variable {log notes : List StartNote}

theorem Paced.step {n : Nat} (paced : Paced now n s.stage s.clock)
    (deadline : s.deadline = now + initialInvalidKeyRetry) (later : s.clock ≤ a.now)
    (moves : Starting.Moves call s a s' notes) :
    Paced now (n + (dialsOf notes).length) s'.stage s'.clock ∧ s'.deadline = s.deadline := by
  cases moves with
  | connected clock server client stage _ =>
      rw [stage] at paced
      exact ⟨Nat.succ_le_succ paced.2, rfl⟩
  | refused clock server error stage _ early =>
      rw [stage] at paced
      obtain ⟨begun, few⟩ := paced
      have begun : now + redialDelay * n ≤ clock := Nat.le_trans begun later
      rw [deadline] at early
      refine ⟨show now + redialDelay * (n + 1) ≤ clock + redialDelay ∧ n + 1 ≤ 15 from ?_, rfl⟩
      simp only [redialDelay, initialInvalidKeyRetry] at begun early ⊢
      omega
  | failed clock server e stage _ _ =>
      rw [stage] at paced
      exact ⟨Nat.succ_le_succ paced.2, rfl⟩
  | slept clock wake stage awake =>
      rw [stage] at paced
      exact ⟨⟨Nat.le_trans paced.1 awake, paced.2⟩, rfl⟩
  | sent clock client stage =>
      rw [stage] at paced
      exact ⟨paced, rfl⟩
  | unsent clock client e stage =>
      rw [stage] at paced
      exact ⟨paced, rfl⟩
  | skipped clock deadline client e stage _ =>
      rw [stage] at paced ⊢
      exact ⟨paced, rfl⟩
  | judged clock deadline client e result stage _ =>
      rw [stage] at paced
      exact ⟨paced, rfl⟩
  | timedOut clock deadline client stage _ =>
      rw [stage] at paced
      exact ⟨paced, rfl⟩

/-- A refused key is returned when the time for it is up. -/
def Overdue (now : Nat) (log : List StartNote) (clock : Nat) : Prop :=
  ∀ error, .returned (.error (.connect (.rejected .invalidKey error))) ∈ log →
    now + initialInvalidKeyRetry ≤ clock

theorem StartCall.judge_ne_connect (call : StartCall) (e : Option Event)
    (failure : ConnectFailure) : call.judge e ≠ some (.error (.connect failure)) := by
  unfold StartCall.judge
  grind

theorem Overdue.step (before : Overdue now log s.clock)
    (deadline : s.deadline = now + initialInvalidKeyRetry) (later : s.clock ≤ a.now)
    (moves : Starting.Moves call s a s' notes) : Overdue now (log ++ notes) s'.clock := by
  intro error returned
  rcases List.mem_append.mp returned with old | new
  · have late := Nat.le_trans (before error old) later
    cases moves <;> exact late
  · cases moves with
    | failed clock server e _ _ overdue =>
        rw [← deadline]
        obtain rfl : .rejected .invalidKey error = e := by simpa using new
        exact overdue error rfl
    | judged clock _ _ e result _ judged =>
        obtain rfl : _ = result := by simpa using new
        exact absurd judged (call.judge_ne_connect e _)
    | _ => simp at new

theorem paced_reachable (run : (Starting.system call now).Reachable log s) :
    Paced now (dialsOf log).length s.stage s.clock ∧ Overdue now log s.clock ∧
      s.deadline = now + initialInvalidKeyRetry := by
  refine run.invariant (P := fun log s => Paced now (dialsOf log).length s.stage s.clock ∧
    Overdue now log s.clock ∧ s.deadline = now + initialInvalidKeyRetry) ?_ ?_
  · refine ⟨⟨Nat.le_refl _, by decide⟩, ?_, rfl⟩
    intro error returned
    cases returned
  · intro log s a s' notes before _ stepped
    obtain ⟨paced, overdue, deadline⟩ := before
    obtain ⟨later, moves⟩ := Starting.step_moves stepped
    obtain ⟨after, same⟩ := paced.step deadline later moves
    rw [dialsOf_append, List.length_append]
    exact ⟨after, overdue.step deadline later moves, same.trans deadline⟩

end Runs

/-- A server that refuses the key. -/
def StartCall.Refuses (call : StartCall) (server : Server) : Prop :=
  ∃ error, call.connect server = .error (.rejected .invalidKey error)

/-- The dials up to one that is not repeated. -/
def dialing (refused : List Server) (server : Server) : List StartNote :=
  (refused ++ [server]).map .dialed

/-- Connected, with the payload sent and these events skipped. -/
def StartCall.awaiting (call : StartCall) (refused : List Server) (server : Server)
    (skipped : List (Option Event)) : List StartNote :=
  dialing refused server ++ .wrote initialPayload call.payloadBytes none :: skipped.map .received

/-- Why `start` returns what it returns. -/
inductive Verdict (call : StartCall) :
    List StartNote → Except StartError TerminalSession → Prop
  | connect {refused : List Server} {server : Server} {e : ConnectFailure} :
      (∀ server ∈ refused, call.Refuses server) → call.connect server = .error e →
      Verdict call (dialing refused server) (.error (.connect e))
  | write {refused : List Server} {server : Server} {client : Connected} {e : WriteError} :
      (∀ server ∈ refused, call.Refuses server) → call.connect server = .ok client →
      Verdict call (dialing refused server ++ [.wrote initialPayload call.payloadBytes (some e)])
        (.error (.write e))
  | event {refused : List Server} {server : Server} {client : Connected}
      {skipped : List (Option Event)} {e : Option Event}
      {result : Except StartError TerminalSession} :
      (∀ server ∈ refused, call.Refuses server) → call.connect server = .ok client →
      (∀ e ∈ skipped, call.judge e = none) → call.judge e = some result →
      Verdict call (call.awaiting refused server skipped ++ [.received e]) result
  | timeout {refused : List Server} {server : Server} {client : Connected}
      {skipped : List (Option Event)} :
      (∀ server ∈ refused, call.Refuses server) → call.connect server = .ok client →
      (∀ e ∈ skipped, call.judge e = none) →
      Verdict call (call.awaiting refused server skipped) (.error .timeout)

/-- The history of a run, by its stage. -/
inductive Trail (call : StartCall) : List StartNote → Stage → Prop
  | connecting {refused : List Server} : (∀ server ∈ refused, call.Refuses server) →
      Trail call (refused.map .dialed) .connecting
  | sleeping {refused : List Server} {wake : Nat} : (∀ server ∈ refused, call.Refuses server) →
      Trail call (refused.map .dialed) (.sleeping wake)
  | writing {refused : List Server} {server : Server} {client : Connected} :
      (∀ server ∈ refused, call.Refuses server) → call.connect server = .ok client →
      Trail call (dialing refused server) (.writing client)
  | waiting {refused : List Server} {server : Server} {client : Connected}
      {skipped : List (Option Event)} {deadline : Nat} :
      (∀ server ∈ refused, call.Refuses server) → call.connect server = .ok client →
      (∀ e ∈ skipped, call.judge e = none) →
      Trail call (call.awaiting refused server skipped) (.waiting client deadline)
  | returned {notes : List StartNote} {result : Except StartError TerminalSession} :
      Verdict call notes result → Trail call (notes ++ [.returned result]) .returned

section Trails

variable {call : StartCall} {now : Nat} {s s' : Starting} {a : StartAct}
variable {log notes : List StartNote}

theorem map_dialed_append (refused : List Server) (server : Server) :
    refused.map StartNote.dialed ++ [.dialed server] = dialing refused server := by
  rw [dialing, List.map_append]
  rfl

theorem StartCall.awaiting_append (call : StartCall) (refused : List Server) (server : Server)
    (skipped : List (Option Event)) (e : Option Event) :
    call.awaiting refused server skipped ++ [.received e] =
      call.awaiting refused server (skipped ++ [e]) := by
  simp [awaiting]

theorem Trail.step (trail : Trail call log s.stage) (moves : Starting.Moves call s a s' notes) :
    Trail call (log ++ notes) s'.stage := by
  cases moves with
  | connected clock server client stage connects =>
      rw [stage] at trail
      cases trail with
      | connecting refused =>
          rw [map_dialed_append]
          exact .writing refused connects
  | refused clock server error stage refuses _ =>
      rw [stage] at trail
      cases trail with
      | connecting refused =>
          rw [map_dialed_append]
          exact .sleeping (List.forall_mem_append.mpr
            ⟨refused, List.forall_mem_singleton.mpr ⟨error, refuses⟩⟩)
  | failed clock server e stage fails _ =>
      rw [stage] at trail
      cases trail with
      | connecting refused =>
          rw [List.append_cons, map_dialed_append]
          exact .returned (.connect refused fails)
  | slept clock wake stage _ =>
      rw [stage] at trail
      cases trail with
      | sleeping refused =>
          rw [List.append_nil]
          exact .connecting refused
  | sent clock client stage =>
      rw [stage] at trail
      cases trail with
      | writing refused connects => exact .waiting refused connects (List.forall_mem_nil _)
  | unsent clock client e stage =>
      rw [stage] at trail
      cases trail with
      | writing refused connects =>
          rw [List.append_cons]
          exact .returned (.write refused connects)
  | skipped clock deadline client e stage passed =>
      rw [stage] at trail ⊢
      cases trail with
      | waiting refused connects skipped =>
          rw [StartCall.awaiting_append]
          exact .waiting refused connects (List.forall_mem_append.mpr
            ⟨skipped, List.forall_mem_singleton.mpr passed⟩)
  | judged clock deadline client e result stage judged =>
      rw [stage] at trail
      cases trail with
      | waiting refused connects skipped =>
          rw [List.append_cons]
          exact .returned (.event refused connects skipped judged)
  | timedOut clock deadline client stage _ =>
      rw [stage] at trail
      cases trail with
      | waiting refused connects skipped => exact .returned (.timeout refused connects skipped)

theorem trail_reachable (run : (Starting.system call now).Reachable log s) :
    Trail call log s.stage := by
  refine run.invariant (P := fun log s => Trail call log s.stage) ?_ ?_
  · exact .connecting (List.forall_mem_nil _)
  · intro log s a s' notes trail _ stepped
    exact trail.step (Starting.step_moves stepped).2

/-- Nothing is returned before the end. -/
theorem Trail.of_returned {stage : Stage} (trail : Trail call log stage)
    {result : Except StartError TerminalSession} (returned : .returned result ∈ log) :
    ∃ notes, log = notes ++ [.returned result] ∧ Verdict call notes result := by
  cases trail with
  | connecting _ => simp at returned
  | sleeping _ => simp at returned
  | writing _ _ => simp [dialing] at returned
  | waiting _ _ _ => simp [dialing, StartCall.awaiting] at returned
  | returned verdict =>
      rename_i notes last
      have unsaid : .returned result ∉ notes := by
        cases verdict <;> simp [dialing, StartCall.awaiting]
      obtain rfl : result = last := by simpa [unsaid] using returned
      exact ⟨notes, rfl, verdict⟩

theorem dialsOf_map_dialed (servers : List Server) : dialsOf (servers.map .dialed) = servers := by
  simp [dialsOf]

theorem dialsOf_awaiting (refused : List Server) (server : Server)
    (skipped : List (Option Event)) :
    dialsOf (call.awaiting refused server skipped) = refused ++ [server] := by
  rw [StartCall.awaiting, dialsOf_append, dialing, dialsOf_map_dialed]
  simp [dialsOf]

/-- All dials but the last are refused. -/
theorem Trail.refuses {stage : Stage} (trail : Trail call log stage) :
    ∀ server ∈ (dialsOf log).dropLast, call.Refuses server := by
  cases trail with
  | connecting refused =>
      rw [dialsOf_map_dialed]
      exact fun server dialed => refused server (List.mem_of_mem_dropLast dialed)
  | sleeping refused =>
      rw [dialsOf_map_dialed]
      exact fun server dialed => refused server (List.mem_of_mem_dropLast dialed)
  | writing refused _ => rwa [dialing, dialsOf_map_dialed, List.dropLast_concat]
  | waiting refused _ _ => rwa [dialsOf_awaiting, List.dropLast_concat]
  | returned verdict =>
      rw [dialsOf_append, show dialsOf [.returned _] = [] from rfl, List.append_nil]
      cases verdict with
      | connect refused _ => rwa [dialing, dialsOf_map_dialed, List.dropLast_concat]
      | write refused _ =>
          rwa [dialsOf_append, dialing, dialsOf_map_dialed,
            show dialsOf [.wrote _ _ _] = [] from rfl, List.append_nil, List.dropLast_concat]
      | event refused _ _ _ =>
          rwa [StartCall.awaiting_append, dialsOf_awaiting, List.dropLast_concat]
      | timeout refused _ _ => rwa [dialsOf_awaiting, List.dropLast_concat]

/-- A response that opens the session. -/
def Accepts (codec : StartCodec) (p : Packet) : Prop :=
  p.header = initialResponse ∧
    ∃ response, codec.decodeResponse p.payload = some response ∧ response.error = none

theorem StartCall.judge_eq_ok {e : Option Event} {session : TerminalSession} :
    call.judge e = some (.ok session) ↔
      ∃ p, e = some (.packet p) ∧ Accepts call.codec p ∧ session = call.session := by
  unfold StartCall.judge Accepts
  grind

theorem StartCall.judge_eq_none {e : Option Event} :
    call.judge e = none ↔ ∃ p, e = some (.packet p) ∧ p.header ≠ initialResponse := by
  unfold StartCall.judge
  grind

theorem StartCall.Refuses.responds {server : Server} (refuses : call.Refuses server) :
    ∃ response stream, server.Responds call.codec.connect call.id response stream ∧
      response.status = some .invalidKey := by
  obtain ⟨_, rejected⟩ := refuses
  obtain ⟨_, _, response, stream, responds, status, _⟩ := connectWith_eq_rejected.mp rejected
  exact ⟨response, stream, responds, status⟩

/-- Events that are skipped are packets with another header. -/
theorem StartCall.packets_of_skipped : {skipped : List (Option Event)} →
    (∀ e ∈ skipped, call.judge e = none) →
    ∃ packets : List Packet, skipped = packets.map (some ∘ .packet) ∧
      ∀ p ∈ packets, p.header ≠ initialResponse
  | [], _ => ⟨[], rfl, List.forall_mem_nil _⟩
  | e :: skipped, passed => by
      obtain ⟨first, others⟩ := List.forall_mem_cons.mp passed
      obtain ⟨p, rfl, other⟩ := judge_eq_none.mp first
      obtain ⟨packets, rfl, headers⟩ := packets_of_skipped others
      exact ⟨p :: packets, rfl, List.forall_mem_cons.mpr ⟨other, headers⟩⟩

theorem Accepts.judge {p : Packet} (accepts : Accepts call.codec p) :
    call.judge (some (.packet p)) = some (.ok call.session) :=
  StartCall.judge_eq_ok.mpr ⟨p, rfl, accepts, rfl⟩

theorem StartCall.received_mem_awaiting {refused : List Server} {server : Server}
    {skipped : List (Option Event)} {e : Option Event} :
    .received e ∈ call.awaiting refused server skipped ↔ e ∈ skipped := by
  simp [awaiting, dialing]

theorem Verdict.ok_iff {result : Except StartError TerminalSession}
    (verdict : Verdict call log result) :
    (∃ session, result = .ok session) ↔
      ∃ p, .received (some (.packet p)) ∈ log ∧ Accepts call.codec p := by
  cases verdict with
  | connect _ _ => simp [dialing]
  | write _ _ => simp [dialing]
  | event _ _ passed judged =>
      constructor
      · rintro ⟨session, rfl⟩
        obtain ⟨p, rfl, accepts, _⟩ := StartCall.judge_eq_ok.mp judged
        exact ⟨p, List.mem_concat_self, accepts⟩
      · rintro ⟨p, received, accepts⟩
        rw [StartCall.awaiting_append, StartCall.received_mem_awaiting, List.mem_append,
          List.mem_singleton] at received
        rcases received with earlier | rfl
        · cases (passed _ earlier).symm.trans accepts.judge
        · exact ⟨_, Option.some.inj (judged.symm.trans accepts.judge)⟩
  | timeout _ _ passed =>
      refine iff_of_false (by simp) ?_
      rintro ⟨p, received, accepts⟩
      cases (passed _ (StartCall.received_mem_awaiting.mp received)).symm.trans accepts.judge

end Trails

/-- A server is dialed again only when it has answered INVALID_KEY, for three seconds and no more
than sixteen times in all. A refused key is given up no earlier than after these three seconds. -/
theorem start_dials_again_only_after_invalid_key (call : StartCall) (now : Nat)
    (log : List StartNote) (s : Starting) (run : (Starting.system call now).Reachable log s) :
    (dialsOf log).length ≤ 16 ∧
    (∀ server ∈ (dialsOf log).dropLast, ∃ response stream,
      server.Responds call.codec.connect call.id response stream ∧
        response.status = some .invalidKey) ∧
    (∀ error, .returned (.error (.connect (.rejected .invalidKey error))) ∈ log →
      now + 3000 ≤ s.clock) := by
  obtain ⟨paced, overdue, _⟩ := paced_reachable run
  refine ⟨?_, fun server dialed => ((trail_reachable run).refuses server dialed).responds, overdue⟩
  cases stage : s.stage <;> rw [stage] at paced <;> simp only [Paced] at paced <;> omega

namespace StartCodec

open Records

def tunnelRecords (r : PortForwardSourceRequest) : List Record :=
  r.source.toList.map (Forward.Protobuf.endpointRecord 1) ++
    r.destination.toList.map (Forward.Protobuf.endpointRecord 2)

def payloadRecords (m : InitialPayload) : List Record :=
  m.jumphost.toList.map (.flag 1) ++
    m.reversetunnels.map (fun r => .bytes 2 (encode (tunnelRecords r))) ++
    m.environmentvariables.map fun entry => .bytes 3 (encode [.text 1 entry.1, .text 2 entry.2])

def toResponse : List Record → Option InitialResponse
  | [] => some {}
  | [⟨1, .bytes text⟩] => (Utf8.decode? text).map fun text => ⟨some text⟩
  | _ => none

/-- The messages as the records of the wire format. -/
def records : StartCodec where
  connect := .records
  encodePayload m := encode (payloadRecords m)
  decodeResponse bytes := (decode bytes).bind toResponse

end StartCodec

/-- The call of the runs below. -/
def StartCall.sample : StartCall :=
  ⟨.records, "id", "0123456789abcdefghijklmnopqrstuv",
    { jumphost := some false, reversetunnels := [⟨some ⟨some "localhost", some 8080⟩, none⟩] },
    5000⟩

/-- A server that gives this answer and nothing else. -/
def saying (status : ConnectStatus) : Server :=
  .answering .records { status := some status } [] 4096 .silent .silent

theorem responds_saying (status : ConnectStatus) :
    (saying status).Responds .records "id" { status := some status } ⟨[], .silent⟩ :=
  Server.responds_answering ConnectCodec.lawful_records [] .silent .silent
    (by cases status <;> decide +kernel) (by decide +kernel)

theorem connect_newClient :
    ∃ client, StartCall.sample.connect (saying .newClient) = .ok client := by
  have read : ∃ key, Key.keyBytes StartCall.sample.passkey = some key :=
    Option.isSome_iff_exists.mp (Key.isSome_keyBytes.mpr (by decide))
  obtain ⟨key, read⟩ := read
  exact ⟨⟨.client key (some 5000), ⟨[], .silent⟩⟩, connectWith_eq_ok.mpr
    ⟨key, _, read, rfl, responds_saying .newClient, rfl⟩⟩

theorem refuses_invalidKey : StartCall.sample.Refuses (saying .invalidKey) :=
  ⟨"", connectWith_eq_rejected.mpr ⟨Key.isSome_keyBytes.mpr (by decide), .inl rfl, _, _,
    responds_saying .invalidKey, rfl, rfl⟩⟩

/-- A run that is refused once and then connects. -/
theorem redialed : ∃ client, (Starting.system .sample 0).Reachable
    [.dialed (saying .invalidKey), .dialed (saying .newClient)] ⟨.writing client, 200, 3000⟩ := by
  obtain ⟨error, refused⟩ := refuses_invalidKey
  obtain ⟨client, connects⟩ := connect_newClient
  have first : (Starting.system .sample 0).Reachable [.dialed (saying .invalidKey)]
      ⟨.sleeping 200, 0, 3000⟩ :=
    .next (.connect 0 (saying .invalidKey)) .start trivial (by
      simp [Starting.system, Starting.step, Starting.act, StartAct.now, refused,
        initialInvalidKeyRetry, redialDelay])
  have second : (Starting.system .sample 0).Reachable [.dialed (saying .invalidKey)]
      ⟨.connecting, 200, 3000⟩ :=
    .next (.slept 200) first trivial rfl
  exact ⟨client, .next (.connect 200 (saying .newClient)) second trivial (by
    simp [Starting.system, Starting.step, Starting.act, StartAct.now, connects])⟩

theorem start_dials_again_only_after_invalid_key_unaware :
    ∃ log s, (Starting.system .sample 0).Reachable log s ∧
      dialsOf log = [saying .invalidKey, saying .newClient] ∧ (dialsOf log).length ≤ 16 ∧
      ∃ response stream, (saying .invalidKey).Responds .records "id" response stream ∧
        response.status = some .invalidKey := by
  obtain ⟨client, run⟩ := redialed
  obtain ⟨few, answers, _⟩ := start_dials_again_only_after_invalid_key _ _ _ _ run
  exact ⟨_, _, run, rfl, few, answers (saying .invalidKey) (.head _)⟩

/-- `start` opens a session exactly when a response without an error came, and then it has done
nothing else: a server that took the client as a new one was sent the initial payload, once, and all
packets before the response had another header. The session has an engine exactly when there are
tunnels for the server to open. -/
theorem start_opens_session_iff_accepted (call : StartCall) (now : Nat) (log : List StartNote)
    (s : Starting) (result : Except StartError TerminalSession)
    (run : (Starting.system call now).Reachable log s) (returned : .returned result ∈ log) :
    ((∃ session, result = .ok session) ↔
      ∃ p, .received (some (.packet p)) ∈ log ∧ Accepts call.codec p) ∧
    ∀ session, result = .ok session →
      session.pfInbound = !call.payload.reversetunnels.isEmpty ∧
      ∃ refused server skipped p, log = (refused ++ [server]).map .dialed ++
          [.wrote initialPayload (call.codec.encodePayload call.payload) none] ++
          (skipped ++ [p]).map (.received ∘ some ∘ .packet) ++ [.returned (.ok session)] ∧
        (∃ response stream, server.Responds call.codec.connect call.id response stream ∧
          response.status = some .newClient) ∧
        (∀ q ∈ skipped, q.header ≠ initialResponse) ∧ Accepts call.codec p := by
  obtain ⟨notes, rfl, verdict⟩ := (trail_reachable run).of_returned returned
  refine ⟨by simpa using verdict.ok_iff, ?_⟩
  rintro session rfl
  cases verdict with
  | event refuses connects passed judged =>
      rename_i refused server client skipped e
      obtain ⟨p, rfl, accepts, rfl⟩ := StartCall.judge_eq_ok.mp judged
      obtain ⟨packets, rfl, headers⟩ := StartCall.packets_of_skipped passed
      obtain ⟨_, response, _, _, responds, status⟩ := connectWith_eq_ok.mp connects
      refine ⟨rfl, refused, server, packets, p, ?_, ⟨response, _, responds, status⟩, headers,
        accepts⟩
      simp [StartCall.awaiting, dialing, StartCall.payloadBytes]

/-- The same run, opened by a response without fields behind a keepalive. -/
theorem start_opens_session_iff_accepted_redialed :
    ∃ log s, (Starting.system .sample 0).Reachable log s ∧
      .returned (.ok StartCall.sample.session) ∈ log ∧ StartCall.sample.session.pfInbound = true ∧
      .wrote initialPayload StartCall.sample.payloadBytes none ∈ log := by
  obtain ⟨client, run⟩ := redialed
  have accepts : Accepts .records (Packet.new initialResponse []) := ⟨rfl, {}, rfl, rfl⟩
  have opened : (Starting.system .sample 0).Reachable ([.dialed (saying .invalidKey),
      .dialed (saying .newClient)] ++
      [.wrote initialPayload StartCall.sample.payloadBytes none] ++
      [.received (some (.packet (Packet.new keepAlive [])))] ++
      [.received (some (.packet (Packet.new initialResponse []))),
        .returned (.ok StartCall.sample.session)]) ⟨.returned, 200, 3000⟩ := by
    refine .next (.event 200 (some (.packet (Packet.new initialResponse []))))
      ((run.next (.wrote 200 none) trivial rfl).next
        (.event 200 (some (.packet (Packet.new keepAlive [])))) trivial rfl) trivial ?_
    simp [Starting.system, Starting.step, Starting.act, StartAct.now,
      @Accepts.judge .sample _ accepts, Starting.finish]
  obtain ⟨_, opens⟩ := start_opens_session_iff_accepted _ _ _ _ (.ok _) opened
    (List.mem_append_right _ (.tail _ (.head _)))
  obtain ⟨engine, _⟩ := opens _ rfl
  exact ⟨_, _, opened, List.mem_append_right _ (.tail _ (.head _)), engine, by simp⟩

end Session

end Et
