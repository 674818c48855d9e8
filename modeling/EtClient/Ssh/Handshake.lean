import EtClient.Proto.Framing
import EtClient.Ssh.Credentials

/-!
# The handshake over ssh

`runSshHandshake` runs ssh and reads the credentials from what it prints. The bytes are made a
text first, by the lossy decoder of the standard library, and the text is parsed. A replacement
character has three bytes, so the text may be longer or shorter than the bytes, in front of the
marker and behind it.

The marker, the slash, letters and digits are ASCII. The decoder leaves them as they are, where
they are, and puts nothing between two of them, so the parser finds in the text what it finds in
the bytes. This holds for every decoder that keeps what is ASCII and what is encoded.
-/

namespace Et.Ssh

inductive SshHandshakeError
  | sshFailed
  | missingMarker
  | io (error : IoError)
  deriving DecidableEq

/-- What is read of `std::process::Output`. -/
structure Output where
  success : Bool
  stdout : Bytes

/-- The result of running ssh is `ran`. -/
def runSshHandshake (lossy : Utf8.Lossy) (ran : Except IoError Output) :
    Except SshHandshakeError IdPasskey := do
  let output ← ran.mapError .io
  if !output.success && output.stdout.isEmpty then throw .sshFailed
  else
    let text := lossy.decode output.stdout
    (parseIdpasskeyOutput text).elim (throw .missingMarker) pure

theorem not_noise_of_alphanumeric {b : UInt8} (alphanumeric : isAsciiAlphanumeric b) :
    ¬ 128 ≤ b :=
  UInt8.not_le.mpr (ascii_of_alphanumeric alphanumeric)

/-- A blur shows the same credentials. -/
theorem Shown.of_blurs {output blurred id passkey : Bytes}
    (blurs : Search.Blurs (128 ≤ ·) output blurred) (shown : Shown output id passkey) :
    Shown blurred id passkey where
  behind := by
    refine blurs.behind marker_ne_nil ?_ ?_ shown.behind
    · intro b mem
      have ascii : marker.all (· < 128) := by
        rw [marker, Utf8.bytes_eq]
        decide
      exact UInt8.not_le.mpr (of_decide_eq_true (List.all_eq_true.mp ascii b mem))
    · rw [List.forall_mem_append, List.forall_mem_cons]
      exact ⟨fun b mem => not_noise_of_alphanumeric (shown.id_alphanumeric b mem), by decide,
        fun b mem => not_noise_of_alphanumeric (shown.passkey_alphanumeric b mem)⟩
  id_alphanumeric := shown.id_alphanumeric
  passkey_alphanumeric := shown.passkey_alphanumeric

theorem parseIdpasskeyBytes_of_blurs {output blurred : Bytes}
    (blurs : Search.Blurs (128 ≤ ·) output blurred) :
    parseIdpasskeyBytes blurred = parseIdpasskeyBytes output := by
  apply Option.ext
  intro c
  rw [parseIdpasskeyBytes_eq_some, parseIdpasskeyBytes_eq_some]
  exact and_congr_left' ⟨.of_blurs blurs.symm, .of_blurs blurs⟩

theorem parseIdpasskeyOutput_decode (lossy : Utf8.Lossy) (stdout : Bytes) :
    parseIdpasskeyOutput (lossy.decode stdout) = parseIdpasskeyBytes stdout :=
  parseIdpasskeyBytes_of_blurs (lossy.blurs stdout)

theorem runSshHandshake_ok (lossy : Utf8.Lossy) (output : Output) :
    runSshHandshake lossy (.ok output) =
      if !output.success && output.stdout.isEmpty then .error .sshFailed
      else (parseIdpasskeyBytes output.stdout).elim (.error .missingMarker) .ok := by
  rw [← parseIdpasskeyOutput_decode lossy]
  rfl

/-- The text of what ssh prints gives the credentials that its bytes give, and so does the
handshake. -/
theorem lossy_text_gives_bytes_result (lossy : Utf8.Lossy) (b : Bytes) :
    parseIdpasskeyOutput (lossy.decode b) = parseIdpasskeyBytes b ∧
      ∀ success, runSshHandshake lossy (.ok ⟨success, b⟩) =
        if !success && b.isEmpty then .error .sshFailed
        else (parseIdpasskeyBytes b).elim (.error .missingMarker) .ok :=
  ⟨parseIdpasskeyOutput_decode lossy b, fun success => runSshHandshake_ok lossy ⟨success, b⟩⟩

/-- Bytes of no character stand before the marker, and the output breaks off inside a character
behind the credentials. -/
theorem lossy_text_gives_bytes_result_ill_formed :
    let id := "XXXabcdefghijklm"
    let passkey := "kkkkkkkkkkkkkkkkkkkkkkkkkkkkkkkk"
    parseIdpasskeyOutput (Utf8.fromUtf8Lossy.decode
        ([0xFF, 0x41, 0xC3] ++ (marker ++ (Utf8.bytes id ++ slash :: Utf8.bytes passkey)) ++
          [0xE5, 0xBA])) =
      some ⟨id, passkey⟩ := by
  intro id passkey
  rw [(lossy_text_gives_bytes_result _ _).1, parseIdpasskeyBytes_eq_some]
  refine ⟨.of_front (by decide) (alphanumeric_of_all (by decide))
    (alphanumeric_of_all (by decide)), ?_⟩
  rw [Utf8.bytes_eq, Utf8.bytes_eq]
  decide

theorem parseIdpasskeyBytes_nil : parseIdpasskeyBytes [] = none := by
  rw [parseIdpasskeyBytes, Search.scan, List.length_nil, Nat.zero_sub]
  rfl

/-- The exit status of ssh plays no part in a handshake that succeeds. -/
theorem runSshHandshake_eq_ok {lossy : Utf8.Lossy} {output : Output} {c : IdPasskey} :
    runSshHandshake lossy (.ok output) = .ok c ↔
      parseIdpasskeyBytes output.stdout = some c := by
  rw [runSshHandshake_ok]
  split
  · rename_i failed
    have silent : output.stdout = [] := by
      rw [Bool.and_eq_true] at failed
      exact List.isEmpty_iff.mp failed.2
    rw [silent, parseIdpasskeyBytes_nil]
    simp
  · cases parseIdpasskeyBytes output.stdout with
    | none => simp
    | some found => simp

end Et.Ssh
