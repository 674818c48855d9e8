import EtClient.Client.Connect
import EtClient.Client.Dead

/-!
# Why a session ends

The supervisor dials until a server takes the client back. Of all that can go wrong with a
handshake, two outcomes end the session: a server that does not know the key, and one that
takes the client for a new one. Here each handshake of a run is one on some server, so that the
reason which the owner is told can be followed back to the bytes of that server.
-/

namespace Et

namespace Connect

open Backed Client

/-- What the inner loop of the supervisor sees of a handshake. -/
def classify (socket : SocketId) : Except ConnectFailure Handshake → Client.Handshake
  | .ok (.returning _) => .returning socket
  | .ok (.newClient _) => .newClient
  | .error (.rejected .invalidKey _) => .invalidKey
  | .error _ => .failed

/-- Each handshake is with one of these servers. -/
def Dials (codec : ConnectCodec) (id : String) (meets : Server → Prop) : HubAct → Prop
  | .handshake outcome => ∃ server socket, meets server ∧
      outcome = classify socket (handshakeRequest codec id server).outcome
  | _ => True

/-- One of the servers gave a response with this status. -/
def Told (codec : ConnectCodec) (id : String) (meets : Server → Prop) (status : ConnectStatus) :
    Prop :=
  ∃ server response stream, meets server ∧ server.Responds codec id response stream ∧
    response.status = some status

/-- What has to be true for the supervisor to end the session for this reason. -/
def Justified (codec : ConnectCodec) (id : String) (meets : Server → Prop) : ClientDeadReason → Prop
  | .invalidKey => Told codec id meets .invalidKey
  | .serverStateLost => Told codec id meets .newClient
  | .other _ => True

section Runs

variable {codec : ConnectCodec} {id : String} {meets : Server → Prop} {server : Server}
variable {box : SecretBox} {h h' : Hub} {a : HubAct} {log notes : List HubNote}

theorem classify_eq_newClient {socket : SocketId} {outcome : Except ConnectFailure Handshake} :
    classify socket outcome = .newClient ↔ ∃ stream, outcome = .ok (.newClient stream) := by
  unfold classify
  split <;> simp_all

theorem classify_eq_invalidKey {socket : SocketId} {outcome : Except ConnectFailure Handshake} :
    classify socket outcome = .invalidKey ↔
      ∃ error, outcome = .error (.rejected .invalidKey error) := by
  unfold classify
  split <;> simp_all

/-- A handshake that ends the session has met a server that gave the reason. -/
theorem justified_of_dialed {outcome : Client.Handshake} {reason : ClientDeadReason}
    {shutdown : Bool} (dials : Dials codec id meets (.handshake outcome))
    (reports : Supervisor.dialed outcome = .reporting reason shutdown) :
    Justified codec id meets reason := by
  obtain ⟨server, socket, met, seen⟩ := dials
  cases outcome with
  | newClient =>
      cases reports
      obtain ⟨stream, accepted⟩ := classify_eq_newClient.mp seen.symm
      obtain ⟨response, responds, status⟩ := outcome_eq_newClient.mp accepted
      exact ⟨server, response, stream, met, responds, status⟩
  | invalidKey =>
      cases reports
      obtain ⟨error, refused⟩ := classify_eq_invalidKey.mp seen.symm
      obtain ⟨_, response, stream, responds, status, _⟩ := outcome_eq_rejected.mp refused
      exact ⟨server, response, stream, met, responds, status⟩
  | returning => cases reports
  | failed => cases reports

/-- Every reason that is on its way to the owner has been given by a server. -/
structure Grounded (codec : ConnectCodec) (id : String) (meets : Server → Prop)
    (log : List HubNote) (h : Hub) : Prop where
  reporting : ∀ reason shutdown, h.supervisor = .reporting reason shutdown →
    Justified codec id meets reason
  sent : ∀ reason, .dead reason ∈ h.events → Justified codec id meets reason
  received : ∀ reason, .received (.dead reason) ∈ log → Justified codec id meets reason

/-- The notes of a step that tells the owner nothing. -/
def Untold (notes : List HubNote) : Prop := ∀ event, .received event ∉ notes

/-- A step that tells the owner nothing leaves the history as it was. -/
theorem Grounded.silent (grounded : Grounded codec id meets log h) (untold : Untold notes)
    (reporting : ∀ reason shutdown, h'.supervisor = .reporting reason shutdown →
      Justified codec id meets reason)
    (sent : ∀ reason, .dead reason ∈ h'.events → Justified codec id meets reason) :
    Grounded codec id meets (log ++ notes) h' where
  reporting := reporting
  sent := sent
  received := by
    intro reason told
    obtain old | new := List.mem_append.mp told
    · exact grounded.received reason old
    · exact absurd new (untold _)

theorem untold_nil : Untold [] := fun _ => List.not_mem_nil

theorem untold_map {β : Type} {f : β → HubNote} {items : List β}
    (other : ∀ item event, f item ≠ .received event) : Untold (items.map f) := by
  intro event told
  obtain ⟨item, _, same⟩ := List.mem_map.mp told
  exact other item event same

theorem untold_entering (supervisor : Supervisor) : Untold (Hub.entering supervisor) := by
  intro event told
  rw [Hub.entering] at told
  split at told
  · cases List.mem_singleton.mp told
  · cases told

theorem untold_actor (act : Act) (effects : List Effect) :
    Untold (effects.map .backed ++ h.replies act effects) := by
  intro event told
  obtain seen | replied := List.mem_append.mp told
  · exact untold_map (by simp) event seen
  · obtain ⟨_, _, _, _, _, _, _, _, _, _, other⟩ := Hub.mem_replies replied
    cases other

theorem reporting_of_after {supervisor : Supervisor} {act : WorldAct} {effects : List Effect}
    {reason : ClientDeadReason} {shutdown : Bool}
    (reports : supervisor.after act effects = .reporting reason shutdown) :
    supervisor = .reporting reason shutdown := by
  unfold Supervisor.after at reports
  split at reports
  · cases reports
  · split at reports
    · cases reports
    · split at reports
      · cases reports
      · exact reports

theorem justified_of_receive {event : BackedEvent} {reason : ClientDeadReason} {shutdown : Bool}
    (reports : Supervisor.receive event = .reporting reason shutdown) :
    Justified codec id meets reason := by
  cases event with
  | dead why =>
      cases reports
      trivial
  | packet p => cases reports
  | socketDown => cases reports

theorem not_reporting_next {b shutdown : Bool} {reason : ClientDeadReason} :
    (if b then Supervisor.shuttingDown else .returned) ≠ .reporting reason shutdown := by
  cases b <;> simp

/-- One case for each kind of step. A reason comes up at a handshake or from the actor, and then
goes through the queue. -/
theorem Grounded.step (grounded : Grounded codec id meets log h) (dials : Dials codec id meets a)
    (moves : Hub.Moves box h a h' notes) : Grounded codec id meets (log ++ notes) h' := by
  cases moves with
  | actor act task effects _ stepped =>
      exact grounded.silent (untold_actor act effects)
        (fun _ _ reports => grounded.reporting _ _ (reporting_of_after reports)) grounded.sent
  | recv event rest _ _ =>
      exact grounded.silent (untold_entering _) (fun _ _ => justified_of_receive) grounded.sent
  | handshake outcome _ =>
      exact grounded.silent untold_nil (fun _ _ => justified_of_dialed dials) grounded.sent
  | reported reason shutdown reports _ _ =>
      refine grounded.silent untold_nil (fun _ _ => (absurd · not_reporting_next)) ?_
      intro other queued
      obtain old | new := List.mem_append.mp queued
      · exact grounded.sent other old
      · cases List.mem_singleton.mp new
        exact grounded.reporting reason shutdown reports
  | reportFails reason shutdown _ _ =>
      exact grounded.silent untold_nil (fun _ _ => (absurd · not_reporting_next)) grounded.sent
  | forwarded p _ _ _ =>
      refine grounded.silent untold_nil (by simp) ?_
      intro reason queued
      exact grounded.sent reason (by simpa using queued)
  | receive event rest queue _ =>
      have queued {event'} (member : event' ∈ event :: rest) : event' ∈ h.events := queue ▸ member
      refine ⟨grounded.reporting, fun reason later => ?_, fun reason told => ?_⟩
      · exact grounded.sent reason (queued (List.mem_cons_of_mem _ later))
      · obtain old | new := List.mem_append.mp told
        · exact grounded.received reason old
        · cases List.mem_singleton.mp new
          exact grounded.sent reason (queued List.mem_cons_self)
  | start cmd _ _ =>
      exact grounded.silent (untold_map (by simp)) grounded.reporting grounded.sent
  | refuse cmd _ _ =>
      exact grounded.silent (untold_map (by simp)) grounded.reporting grounded.sent
  | lose cmd rest _ _ =>
      exact grounded.silent (untold_map (by simp)) grounded.reporting grounded.sent
  | submit cmd _ _ _ => exact grounded.silent untold_nil grounded.reporting grounded.sent
  | drop _ _ => exact grounded.silent untold_nil grounded.reporting grounded.sent
  | slept _ => exact grounded.silent (untold_entering .dialing) (by simp) grounded.sent
  | _ => exact grounded.silent untold_nil (by simp) grounded.sent

theorem grounded_reaches {cfg : BackedConfig} {now : Instant}
    (run : (Hub.system box cfg now).Reaches (fun _ _ a => Dials codec id meets a) log h) :
    Grounded codec id meets log h := by
  refine run.invariant ⟨by simp [Hub.system, Hub.connected], ?_, ?_⟩ ?_
  · intro reason queued
    cases queued
  · intro reason told
    cases told
  · intro log h a h' notes grounded dials stepped
    exact grounded.step dials (Hub.step_moves stepped)

end Runs

/-- A server that refuses the key of every client. -/
def Server.refusing : Server :=
  .answering .records { status := some .invalidKey } [] 4096 .silent .silent

theorem responds_refusing : Server.refusing.Responds .records "id" { status := some .invalidKey }
    ⟨[], .silent⟩ :=
  Server.responds_answering ConnectCodec.lawful_records [] .silent .silent (by decide +kernel)
    (by decide +kernel)

/-- Nothing but a refused key comes out of a handshake. -/
def refuses : HubAct → Bool
  | .handshake .invalidKey => true
  | .handshake _ => false
  | _ => true

theorem dials_of_refuses {a : HubAct} (refused : refuses a = true) :
    Dials .records "id" (· = .refusing) a := by
  unfold refuses at refused
  split at refused
  · refine ⟨.refusing, 0, rfl, ?_⟩
    rw [(handshakeRequest_of_responds .records responds_refusing).2]
    rfl
  · cases refused
  · cases a <;> first | trivial | simp_all

end Connect

end Et
