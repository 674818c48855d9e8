import EtClient.Backed.Delivery
import EtClient.Backed.Nonce

/-!
# Authenticity against an active attacker

Nothing is assumed here about who speaks on a socket: a run may be given any frames,
any sequence numbers and any catch-up, in any order. What is assumed is about the
cipher. The key is held by this actor and by a peer that numbers its packets like this
actor does, and a ciphertext opens under a nonce only if one of the two produced it
under that nonce.

Payloads are then the peer's, in order and from the first one on, and a frame that is
not the peer's next one ends the session. The header byte of a packet is on the frame
but not under the cipher, and nothing vouches for it.
-/

namespace Et

namespace Backed

/-- Nonce and ciphertext of a successful call of the cipher. -/
def Effect.opening? : Effect → Option (Nonce × Bytes)
  | .decrypted nonce ciphertext (some _) => some (nonce, ciphertext)
  | _ => none

/-- Nobody forged: every ciphertext that opened in the run was produced under the same
nonce, by the peer as one of the packets it `sent` or by this actor. -/
def Unforged (box : SecretBox) (cfg : BackedConfig) (sent : List (UInt8 × Bytes))
    (log : List Effect) : Prop :=
  ∀ o ∈ log.filterMap Effect.opening?,
    (∃ w ∈ sent.zipIdx, o.1 = (CryptoHandler.after cfg.key cfg.readerMsb (w.2 + 1)).nonce ∧
      o.2 = box.encrypt cfg.key o.1 ⟨w.1.2, []⟩) ∨
    ∃ e ∈ encryptionsOf log, e.nonce = o.1 ∧ o.2 = box.encrypt cfg.key o.1 ⟨e.payload, []⟩

/-- The frame carries the peer's packet number `k`: it is flagged as encrypted and its
ciphertext is that packet's. Its header byte may be any. -/
def Genuine (box : SecretBox) (cfg : BackedConfig) (sent : List (UInt8 × Bytes)) (k : Nat)
    (bytes : Bytes) (wire : UInt8) (payload : Bytes) : Prop :=
  ∃ header, sent[k]? = some (header, payload) ∧
    Packet.parse bytes = some ⟨true, wire, box.encrypt cfg.key
      (CryptoHandler.after cfg.key cfg.readerMsb (k + 1)).nonce ⟨payload, []⟩⟩

section Attack

variable {box : SecretBox} {cfg : BackedConfig} {now : Instant} {sent : List (UInt8 × Bytes)}
variable {log : List Effect} {t : Task}

/-- A successful call of the cipher under the nonce of operation `k + 1` was on the
peer's packet number `k`, as long as the session is shorter than a direction. -/
theorem Unforged.peer (unforged : Unforged box cfg sent log)
    (apart : cfg.readerMsb ≠ cfg.writerMsb) (writer : WriterOf box cfg log t.actor)
    (ours : successfulWrites log < 2 ^ 184) (theirs : sent.length < 2 ^ 184)
    {k : Nat} (short : k ≤ sent.length) {ciphertext plaintext : Bytes}
    (called : .decrypted (CryptoHandler.after cfg.key cfg.readerMsb (k + 1)).nonce ciphertext
      (some plaintext) ∈ log) :
    ∃ header payload, sent[k]? = some (header, payload) ∧
      ciphertext = box.encrypt cfg.key
        (CryptoHandler.after cfg.key cfg.readerMsb (k + 1)).nonce ⟨payload, []⟩ := by
  have opening : ((CryptoHandler.after cfg.key cfg.readerMsb (k + 1)).nonce, ciphertext) ∈
      log.filterMap Effect.opening? := List.mem_filterMap.mpr ⟨_, called, rfl⟩
  obtain ⟨⟨⟨header, payload⟩, i⟩, member, nonce, produced⟩ | ⟨e, member, nonce, _⟩ :=
    unforged _ opening
  · have found := List.mem_zipIdx_iff_getElem?.mp member
    obtain ⟨below, _⟩ := List.getElem?_eq_some_iff.mp found
    have same := CryptoHandler.eq_of_nonce_after_eq (by omega) (by dsimp only at below; omega) nonce
    obtain rfl : k = i := by simpa using same
    exact ⟨header, payload, found, produced⟩
  · -- Our own packets carry the other direction byte, so none of them opens here.
    have own : e.nonce ∈ encryptNonces log := List.mem_map_of_mem member
    rw [writer.encryptNonces_eq, CryptoHandler.nonces, List.mem_map] at own
    obtain ⟨j, j_mem, j_nonce⟩ := own
    have j_lt := List.mem_range.mp j_mem
    rw [nonce] at j_nonce
    exact absurd j_nonce.symm
      (CryptoHandler.nonce_after_ne apart (by omega) (by omega) (by omega) (by omega))

/-- An accepted frame that is at most one too many is the peer's. -/
theorem opened_genuine_of_le (lawful : box.Lawful) (apart : cfg.readerMsb ≠ cfg.writerMsb)
    (reader : ReaderOf box cfg log t) (writer : WriterOf box cfg log t.actor)
    (unforged : Unforged box cfg sent log)
    (ours : successfulWrites log < 2 ^ 184) (theirs : sent.length < 2 ^ 184)
    {k : Nat} (short : k ≤ sent.length) {bytes : Bytes} {p : Packet}
    (opened : (openedOf log)[k]? = some (bytes, p)) :
    ∃ wire payload, Genuine box cfg sent k bytes wire payload ∧ p = .new wire payload := by
  obtain ⟨wire, ciphertext, plaintext, shape, parsed, opens, called⟩ :=
    reader.opened k bytes p opened
  obtain ⟨header, payload, found, rfl⟩ := unforged.peer apart writer ours theirs short called
  rw [lawful.decrypt_encrypt] at opens
  cases opens
  exact ⟨wire, payload, ⟨header, found, parsed⟩, shape⟩

/-- Every accepted frame is the peer's next one. -/
theorem opened_genuine (lawful : box.Lawful) (apart : cfg.readerMsb ≠ cfg.writerMsb)
    (run : (Task.system box cfg now).Reachable log t) (unforged : Unforged box cfg sent log)
    (ours : successfulWrites log < 2 ^ 184) (theirs : sent.length < 2 ^ 184) :
    ∀ (k : Nat) bytes p, (openedOf log)[k]? = some (bytes, p) →
      ∃ wire payload, Genuine box cfg sent k bytes wire payload ∧ p = .new wire payload := by
  have reader := readerOf_reachable run
  have writer := writerOf_reachable run
  intro k
  induction k with
  | zero =>
      intro bytes p opened
      exact opened_genuine_of_le lawful apart reader writer unforged ours theirs
        (Nat.zero_le _) opened
  | succ k ih =>
      intro bytes p opened
      -- The frame before was the peer's too, so the peer has sent at least `k + 1` packets.
      obtain ⟨below, _⟩ := List.getElem?_eq_some_iff.mp opened
      obtain ⟨_, _, ⟨_, before, _⟩, _⟩ := ih _ _ (List.getElem?_eq_getElem (by omega))
      obtain ⟨short, _⟩ := List.getElem?_eq_some_iff.mp before
      exact opened_genuine_of_le lawful apart reader writer unforged ours theirs short opened

/-- The same for what reached the consumer. -/
theorem packet_genuine (lawful : box.Lawful) (apart : cfg.readerMsb ≠ cfg.writerMsb)
    (run : (Task.system box cfg now).Reachable log t) (unforged : Unforged box cfg sent log)
    (ours : successfulWrites log < 2 ^ 184) (theirs : sent.length < 2 ^ 184)
    {k : Nat} {p : Packet} (delivered : (packetsOf log)[k]? = some p) :
    ∃ bytes wire payload, (openedOf log)[k]? = some (bytes, p) ∧
      Genuine box cfg sent k bytes wire payload ∧ p = .new wire payload := by
  obtain ⟨below, eq⟩ := List.getElem?_eq_some_iff.mp delivered
  have opened := List.prefix_iff_getElem?.mp (deliveryOf_reachable run).delivered k below
  rw [eq, List.getElem?_map, Option.map_eq_some_iff] at opened
  obtain ⟨⟨bytes, other⟩, opened, rfl⟩ := opened
  obtain ⟨wire, payload, genuine, shape⟩ :=
    opened_genuine lawful apart run unforged ours theirs k bytes other opened
  exact ⟨bytes, wire, payload, opened, genuine, shape⟩

/-- A frame that is not the peer's next one ends the session in the very round of the
delivery loop that meets it. -/
theorem deviation_rejected (lawful : box.Lawful) (apart : cfg.readerMsb ≠ cfg.writerMsb)
    (run : (Task.system box cfg now).Reachable log t)
    (ours : successfulWrites log < 2 ^ 184) (theirs : sent.length < 2 ^ 184)
    {clock : Instant} {t' : Task} {effects : List Effect} {bytes : Bytes} {rest : List Bytes}
    (stepped : t.step box (.deliver clock) = some (t', effects))
    (next : t.actor.inbox = bytes :: rest) (unforged : Unforged box cfg sent (log ++ effects))
    (deviates : ∀ wire payload, ¬ Genuine box cfg sent t.actor.readerSeq bytes wire payload) :
    .rejected bytes ∈ effects ∧ packetsOf effects = [] ∧ t'.pc = .dying := by
  have onward := run.next (Act.deliver clock) trivial stepped
  cases Task.step_moves stepped with
  | drained _ _ empty =>
      rw [empty] at next
      cases next
  | rejected _ _ _ _ popped =>
      obtain ⟨other, _, _, call, inbox, called, _, rfl⟩ := Actor.deliverOne_rejected popped
      rw [next] at inbox
      cases inbox
      refine ⟨by simp, ?_, rfl⟩
      obtain ⟨_, rfl⟩ | ⟨_, _, rfl⟩ := called <;> rfl
  | opened _ _ _ _ _ popped =>
      obtain ⟨other, _, header, ciphertext, plaintext, inbox, _, _, _, _, rfl⟩ :=
        Actor.deliverOne_opened popped
      rw [next] at inbox
      cases inbox
      exfalso
      have opened : (openedOf (log ++
          [.decrypted t.actor.readerCrypto.incrementNonce.nonce ciphertext (some plaintext),
            .opened bytes (.new header plaintext)]))[t.actor.readerSeq]? =
          some (bytes, .new header plaintext) := by
        rw [openedOf_append, (readerOf_reachable run).seq]
        exact List.getElem?_concat_length
      have bound : successfulWrites (log ++ [.decrypted t.actor.readerCrypto.incrementNonce.nonce
          ciphertext (some plaintext), .opened bytes (.new header plaintext)]) < 2 ^ 184 := by
        rw [successfulWrites_append]
        exact ours
      obtain ⟨wire, payload, genuine, _⟩ :=
        opened_genuine lawful apart onward unforged bound theirs _ _ _ opened
      exact deviates wire payload genuine

/-- Payload authenticity. Whatever an attacker puts on the sockets and into the
exchanges, the payload of the `i`-th delivered packet is the payload of the `i`-th
packet the peer encrypted. A frame that deviates is rejected when the delivery loop
meets it; nothing is delivered behind a rejected frame, the loop of `run` ends, and at
most one `Dead` event is sent in the whole run. The bounds keep the two directions'
nonces apart. -/
theorem payloads_authentic (lawful : box.Lawful) (apart : cfg.readerMsb ≠ cfg.writerMsb)
    (run : (Task.system box cfg now).Reachable log t) (unforged : Unforged box cfg sent log)
    (ours : successfulWrites log < 2 ^ 184) (theirs : sent.length < 2 ^ 184) :
    (packetsOf log).map Packet.payload <+: sent.map Prod.snd ∧
      (∀ clock t' effects bytes rest, t.step box (.deliver clock) = some (t', effects) →
        t.actor.inbox = bytes :: rest → Unforged box cfg sent (log ++ effects) →
        (∀ wire payload, ¬ Genuine box cfg sent t.actor.readerSeq bytes wire payload) →
        .rejected bytes ∈ effects ∧ packetsOf effects = [] ∧ t'.pc = .dying) ∧
      (∀ front bytes back, log = front ++ .rejected bytes :: back → packetsOf back = []) ∧
      (rejectedOf log ≠ [] → t.WindsDown box) ∧
      (deadsOf log).length ≤ 1 := by
  have delivery := deliveryOf_reachable run
  refine ⟨?_, ?_, delivery.last, ?_, delivery.once⟩
  · apply List.prefix_iff_getElem?.mpr
    intro k below
    rw [List.length_map] at below
    obtain ⟨bytes, wire, payload, _, ⟨header, found, _⟩, shape⟩ :=
      packet_genuine lawful apart run unforged ours theirs (List.getElem?_eq_getElem below)
    rw [List.getElem?_map, found, List.getElem_map, shape]
    rfl
  · intro clock t' effects bytes rest stepped next unforged' deviates
    exact deviation_rejected lawful apart run ours theirs stepped next unforged' deviates
  · intro some
    exact Task.windsDown (readerOf_reachable run).placed (delivery.closed some)

/-- A packet of the peer, then the same frame replayed: the first is delivered and the
replay ends the session. -/
theorem payloads_authentic_replay :
    ∃ log t, (Task.system .naming (.client testKey none) 0).Reachable log t ∧
      Unforged .naming (.client testKey none) [(terminalBuffer, [1])] log ∧
      rejectedOf log ≠ [] ∧ packetsOf log = [.new terminalBuffer [1]] ∧
      (packetsOf log).map Packet.payload <+: [[1]] ∧ t.WindsDown .naming := by
  obtain ⟨log, t, run, unforged, silent, rejected, packets⟩ :
      ∃ log t, (Task.system .naming (.client testKey none) 0).Reachable log t ∧
        Unforged .naming (.client testKey none) [(terminalBuffer, [1])] log ∧
        successfulWrites log = 0 ∧ rejectedOf log ≠ [] ∧
        packetsOf log = [.new terminalBuffer [1]] :=
    ⟨_, _, .execute .start
      [.frame (Packet.boxed .naming testKey serverClientNonceMsb 0 terminalBuffer [1]), .settle,
        .deliver 0, .send, .deliver 0,
        .frame (Packet.boxed .naming testKey serverClientNonceMsb 0 terminalBuffer [1]), .settle,
        .deliver 0] rfl, by unfold Unforged; decide, by decide, by decide, by decide⟩
  obtain ⟨authentic, _, _, ends, _⟩ := payloads_authentic SecretBox.naming_lawful (by decide) run
    unforged (by omega) (by decide)
  exact ⟨log, t, run, unforged, rejected, packets, authentic, ends rejected⟩

end Attack

section Header

variable {box : SecretBox} {cfg : BackedConfig} {now : Instant} {sent : List (UInt8 × Bytes)}
variable {log : List Effect} {t : Task}

/-- Delivery looks at the header byte only to hand it on. -/
theorem deliverOne_header (box : SecretBox) (clock : Instant) (s : Actor) {flags header : UInt8}
    {ciphertext plaintext : Bytes} {rest : List Bytes}
    (opens :
      ({ s with inbox := (flags :: header :: ciphertext) :: rest }.deliverOne box clock).2.1 =
        .packet (.new header plaintext)) (other : UInt8) :
    ({ s with inbox := (flags :: other :: ciphertext) :: rest }.deliverOne box clock).2.1 =
      .packet (.new other plaintext) := by
  by_cases encrypted : (flags != 0) = true
  · cases outcome : s.readerCrypto.decrypt box ciphertext with
    | mk crypto result =>
        cases result with
        | error e =>
            simp [Actor.deliverOne, Packet.parse, encrypted, Packet.decrypt, outcome,
              Actor.dieCryptoMismatch] at opens
        | ok opened =>
            simp only [Actor.deliverOne, Packet.parse, encrypted, Packet.decrypt, outcome,
              dite_true, Packet.new, Actor.Delivery.packet.injEq, Packet.mk.injEq,
              true_and] at opens ⊢
            exact opens
  · simp [Actor.deliverOne, Packet.parse, encrypted, Actor.dieCryptoMismatch] at opens

/-- Of a delivered packet only the payload is authentic. The payload of the `i`-th
packet is the peer's; its header is the second byte of the frame as it came off the
wire, which is bound to nothing: replaced by any other byte, the frame is accepted
just the same and that other byte is delivered. -/
theorem header_as_on_the_wire (lawful : box.Lawful) (apart : cfg.readerMsb ≠ cfg.writerMsb)
    (run : (Task.system box cfg now).Reachable log t) (unforged : Unforged box cfg sent log)
    (ours : successfulWrites log < 2 ^ 184) (theirs : sent.length < 2 ^ 184) :
    (∀ (i : Nat) p, (packetsOf log)[i]? = some p →
      ∃ header flags, flags ≠ 0 ∧ sent[i]? = some (header, p.payload) ∧
        (openedOf log)[i]? = some (flags :: p.header :: box.encrypt cfg.key
          (CryptoHandler.after cfg.key cfg.readerMsb (i + 1)).nonce ⟨p.payload, []⟩, p)) ∧
      ∀ clock flags header other ciphertext plaintext rest,
        ({ t.actor with inbox := (flags :: header :: ciphertext) :: rest }.deliverOne box
          clock).2.1 = .packet (.new header plaintext) →
        ({ t.actor with inbox := (flags :: other :: ciphertext) :: rest }.deliverOne box
          clock).2.1 = .packet (.new other plaintext) := by
  refine ⟨?_, ?_⟩
  · intro i p delivered
    obtain ⟨bytes, wire, payload, opened, ⟨header, found, parsed⟩, rfl⟩ :=
      packet_genuine lawful apart run unforged ours theirs delivered
    obtain ⟨flags, nonzero, rfl⟩ := Packet.parse_eq_encrypted.mp parsed
    exact ⟨header, flags, nonzero, found, opened⟩
  · intro clock flags header other ciphertext plaintext rest opens
    exact deliverOne_header box clock t.actor opens other

/-- Terminal output of the peer whose header byte was changed on the way. -/
theorem header_as_on_the_wire_changed :
    ∃ log t, (Task.system .naming (.client testKey none) 0).Reachable log t ∧
      Unforged .naming (.client testKey none) [(terminalBuffer, [1])] log ∧
      ∃ p header, (packetsOf log)[0]? = some p ∧ p.header = portForwardData ∧
        [(terminalBuffer, ([1] : Bytes))][0]? = some (header, p.payload) := by
  obtain ⟨log, t, run, unforged, silent, packets⟩ :
      ∃ log t, (Task.system .naming (.client testKey none) 0).Reachable log t ∧
        Unforged .naming (.client testKey none) [(terminalBuffer, [1])] log ∧
        successfulWrites log = 0 ∧ packetsOf log = [.new portForwardData [1]] :=
    ⟨_, _, .execute .start
      [.frame (Packet.boxed .naming testKey serverClientNonceMsb 0 portForwardData [1]), .settle,
        .deliver 0, .send] rfl, by unfold Unforged; decide, by decide, by decide⟩
  obtain ⟨onWire, _⟩ := header_as_on_the_wire SecretBox.naming_lawful (by decide) run unforged
    (by omega) (by decide)
  have first : (packetsOf log)[0]? = some (.new portForwardData [1]) := by rw [packets]; rfl
  obtain ⟨header, _, _, found, _⟩ := onWire 0 _ first
  exact ⟨log, t, run, unforged, _, header, first, rfl, found⟩

/-- The peer wrote one packet of terminal output; an attacker who forged nothing had it
delivered as port-forward data. -/
theorem terminal_output_becomes_port_forward_data :
    ∃ log t sent, (Task.system .naming (.client testKey none) 0).Reachable log t ∧
      Unforged .naming (.client testKey none) sent log ∧ sent = [(terminalBuffer, [7, 7])] ∧
      (packetsOf log)[0]?.map Packet.header = some portForwardData ∧
      sent[0]?.map Prod.fst = some terminalBuffer ∧ portForwardData ≠ terminalBuffer :=
  ⟨_, _, [(terminalBuffer, [7, 7])], .execute .start
    [.frame (Packet.boxed .naming testKey serverClientNonceMsb 0 portForwardData [7, 7]), .settle,
      .deliver 0, .send] rfl, by unfold Unforged; decide, rfl, by decide, by decide, by decide⟩

end Header

end Backed

end Et
