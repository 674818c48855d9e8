import EtClient.Backed.Reading

/-!
# Nonces over a session

Every successful write takes the next nonce of its direction and nothing else takes
one: a refused write returns before the cipher, and a catch-up resends bytes that are
already boxed. So the frames of a run are the stream of the packets written, and their
nonces are the numbers of the direction in order.

The two ends of a session are two runs under mirrored configurations. Neither run is
told anything about the other, so the results hold for every interleaving of the two
and for every network between them.
-/

namespace Et

namespace Backed

/-- The writing half counts its encryptions, and they are the packets written. -/
structure WriterOf (box : SecretBox) (cfg : BackedConfig) (log : List Effect) (s : Actor) :
    Prop where
  config : s.cfg = cfg
  crypto : s.writerCrypto = .after cfg.key cfg.writerMsb (writtenOf log).length
  writes : successfulWrites log = (writtenOf log).length
  encryptions : encryptionsOf log = (writtenOf log).mapIdx fun k w =>
    ⟨(CryptoHandler.after cfg.key cfg.writerMsb (k + 1)).nonce, w.1, w.2,
      Packet.boxed box cfg.key cfg.writerMsb k w.1 w.2⟩

namespace WriterOf

variable {box : SecretBox} {cfg : BackedConfig} {log effects : List Effect} {s s' : Actor}

theorem of_same (h : WriterOf box cfg log s) (same : SameWriter s s')
    (quiet : WriterQuiet effects) :
    WriterOf box cfg (log ++ effects) s' := by
  have written : writtenOf (log ++ effects) = writtenOf log := by
    rw [writtenOf_append, writtenOf, writtenOf, quiet.encryptions, List.map_nil, List.append_nil]
  refine ⟨same.cfg.trans h.config, ?_, ?_, ?_⟩
  · rw [same.crypto, written]
    exact h.crypto
  · rw [successfulWrites_append, quiet.writes, written]
    exact h.writes
  · rw [encryptionsOf_append, quiet.encryptions, List.append_nil, written]
    exact h.encryptions

/-- The next frame is the next box of the direction. -/
theorem nextFrame (h : WriterOf box cfg log s) (header : UInt8) (payload : Bytes) :
    s.nextFrame box header payload =
      (.after cfg.key cfg.writerMsb ((writtenOf log).length + 1),
        Packet.boxed box cfg.key cfg.writerMsb (writtenOf log).length header payload) := by
  simp only [Actor.nextFrame, h.crypto, Packet.serialize_encrypt_after, Packet.boxed]

/-- One more encryption under the next nonce. -/
theorem of_encrypted (h : WriterOf box cfg log s) {header : UInt8} {payload : Bytes}
    (encryptions : encryptionsOf effects =
      [⟨(CryptoHandler.after cfg.key cfg.writerMsb ((writtenOf log).length + 1)).nonce, header,
        payload, Packet.boxed box cfg.key cfg.writerMsb (writtenOf log).length header payload⟩])
    (writes : successfulWrites effects = 1) (same : s'.cfg = s.cfg)
    (crypto : s'.writerCrypto = .after cfg.key cfg.writerMsb ((writtenOf log).length + 1)) :
    WriterOf box cfg (log ++ effects) s' := by
  have written : writtenOf (log ++ effects) = writtenOf log ++ [(header, payload)] := by
    rw [writtenOf_append]
    congr 1
    rw [writtenOf, encryptions]
    rfl
  refine ⟨same.trans h.config, ?_, ?_, ?_⟩
  · rw [written, List.length_append]
    exact crypto
  · rw [successfulWrites_append, writes, h.writes, written, List.length_append]
    rfl
  · rw [encryptionsOf_append, encryptions, written, List.mapIdx_concat, ← h.encryptions]

theorem step {accepts : Bool} (h : WriterOf box cfg log s)
    (stepped : WriterStep box accepts s s' effects) :
    WriterOf box cfg (log ++ effects) s' := by
  obtain ⟨same, quiet⟩ | ⟨header, payload, crypto, frame, handed, next, same, rfl, given⟩ := stepped
  · exact h.of_same same quiet
  · rw [h.nextFrame] at next
    cases next
    obtain ⟨encryptions, writes⟩ := given.boxed
      (CryptoHandler.after cfg.key cfg.writerMsb ((writtenOf log).length + 1)).nonce header payload
    apply h.of_encrypted encryptions writes
    · rw [same.cfg, Actor.pushBackup_cfg]
    · rw [same.crypto, Actor.pushBackup_crypto]

/-- The nonces of the encryptions, in order. -/
theorem encryptNonces_eq (h : WriterOf box cfg log s) :
    encryptNonces log = CryptoHandler.nonces cfg.key cfg.writerMsb (successfulWrites log) := by
  rw [encryptNonces, h.encryptions, h.writes, CryptoHandler.nonces]
  apply List.ext_getElem
  · simp
  · intro k _ _
    simp

/-- Every frame was boxed under the nonce that is logged with it. -/
theorem boxes (h : WriterOf box cfg log s) {e : Encryption} (logged : e ∈ encryptionsOf log) :
    e.Boxes box cfg.key := by
  rw [h.encryptions, List.mem_mapIdx] at logged
  obtain ⟨k, _, rfl⟩ := logged
  rfl

/-- The frames are the packets written, boxed in order. -/
theorem framesOf_eq (h : WriterOf box cfg log s) :
    framesOf log = Packet.stream box cfg.key cfg.writerMsb (writtenOf log) := by
  rw [framesOf, h.encryptions, Packet.stream]
  apply List.ext_getElem
  · simp
  · intro k _ _
    simp

end WriterOf

section Runs

variable {box : SecretBox} {cfg : BackedConfig} {now : Instant} {log : List Effect} {t : Task}

theorem writerOf_reachable (run : (Task.system box cfg now).Reachable log t) :
    WriterOf box cfg log t.actor := by
  refine run.invariant (P := fun log t => WriterOf box cfg log t.actor) ?_ ?_
  · exact ⟨rfl, rfl, rfl, rfl⟩
  · intro log t act t' effects counted _ stepped
    exact counted.step (Task.step_writer stepped)

/-- A step of `t` that refuses a write, resends a catch-up or is no write at all
leaves the cipher alone. -/
def Task.SparesNonces (box : SecretBox) (t : Task) : Prop :=
  ∀ act t' effects, t.step box act = some (t', effects) →
    (successfulWrites effects = 0 ∨ (∃ failure, .wrote (some failure) ∈ effects) ∨
      ∃ socket ours, .sentCatchup socket ours ∈ effects) →
    encryptNonces effects = [] ∧ t'.actor.writerCrypto = t.actor.writerCrypto

theorem Task.sparesNonces (box : SecretBox) (t : Task) : t.SparesNonces box := by
  intro act t' effects stepped spared
  obtain ⟨same, quiet⟩ | ⟨header, payload, crypto, frame, handed, _, _, rfl, given⟩ :=
    Task.step_writer stepped
  · rw [encryptNonces, quiet.encryptions]
    exact ⟨rfl, same.crypto⟩
  · -- A successful write has none of the three marks.
    exfalso
    obtain none | ⟨failure, refused⟩ | ⟨socket, ours, resent⟩ := spared
    · rw [(given.boxed crypto.nonce header payload).2] at none
      cases none
    · obtain ⟨_, rfl⟩ | ⟨_, _, _, _, rfl⟩ := given <;> simp at refused
    · obtain ⟨_, rfl⟩ | ⟨_, _, _, _, rfl⟩ := given <;> simp at resent

/-- The reader's calls of the cipher go through the nonces of the writing end. -/
theorem decrypt_agrees {peer : BackedConfig} {peerNow : Instant} {peerLog : List Effect}
    {peerTask : Task} (run : (Task.system box cfg now).Reachable log t)
    (peerRun : (Task.system box peer peerNow).Reachable peerLog peerTask)
    (key : peer.key = cfg.key) (direction : peer.writerMsb = cfg.readerMsb) {k : Nat}
    {ours theirs : Nonce} (decrypted : (decryptNonces log)[k]? = some ours)
    (encrypted : (encryptNonces peerLog)[k]? = some theirs) : ours = theirs := by
  rw [(readerOf_reachable run).nonces] at decrypted
  rw [(writerOf_reachable peerRun).encryptNonces_eq, key, direction] at encrypted
  rw [CryptoHandler.eq_of_nonces_getElem? decrypted, CryptoHandler.eq_of_nonces_getElem? encrypted]

end Runs

end Backed

end Et
