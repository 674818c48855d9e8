import EtClient.Backed.Task

/-!
# Reading a history

The history of a run is the list of its effects. The projections below read one
kind of effect out of it, in order: what `write` encrypted, which nonces the cipher
was called with, which frames were accepted and which packets were delivered.
-/

namespace Et

namespace Backed

/-- One encryption of `write`. -/
structure Encryption where
  nonce : Nonce
  header : UInt8
  payload : Bytes
  /-- The serialization that entered the backup. -/
  frame : Bytes

/-- The frame is the packet, boxed under the nonce. -/
def Encryption.Boxes (box : SecretBox) (key : Key) (e : Encryption) : Prop :=
  e.frame = Packet.serialize ⟨true, e.header, box.encrypt key e.nonce ⟨e.payload, []⟩⟩

namespace Effect

def encryption? : Effect → Option Encryption
  | .encrypted nonce header payload frame => some ⟨nonce, header, payload, frame⟩
  | _ => none

/-- A write that returned `Ok(())`. -/
def writeOk? : Effect → Option Unit
  | .wrote none => some ()
  | _ => none

/-- The nonce of a decryption. -/
def decryptNonce? : Effect → Option Nonce
  | .decrypted nonce _ _ => some nonce
  | _ => none

/-- A frame that was accepted, with the packet it was accepted as. -/
def opened? : Effect → Option (Bytes × Packet)
  | .opened bytes p => some (bytes, p)
  | _ => none

def rejected? : Effect → Option Bytes
  | .rejected bytes => some bytes
  | _ => none

/-- A delivered packet. -/
def packet? : Effect → Option Packet
  | .event (.packet p) => some p
  | _ => none

def event? : Effect → Option BackedEvent
  | .event e => some e
  | _ => none

/-- A terminal event. -/
def dead? : Effect → Option DeadReason
  | .event (.dead reason) => some reason
  | _ => none

end Effect

def encryptionsOf (log : List Effect) : List Encryption := log.filterMap Effect.encryption?

/-- The serialized frames of all successful writes, oldest first. -/
def framesOf (log : List Effect) : List Bytes := (encryptionsOf log).map Encryption.frame

def encryptNonces (log : List Effect) : List Nonce := (encryptionsOf log).map Encryption.nonce

/-- Header and payload of every packet that `write` encrypted. -/
def writtenOf (log : List Effect) : List (UInt8 × Bytes) :=
  (encryptionsOf log).map fun e => (e.header, e.payload)

/-- How many writes returned `Ok(())`. -/
def successfulWrites (log : List Effect) : Nat := (log.filterMap Effect.writeOk?).length

def decryptNonces (log : List Effect) : List Nonce := log.filterMap Effect.decryptNonce?

/-- The frames `deliver_inbox` accepted, with their packets. -/
def openedOf (log : List Effect) : List (Bytes × Packet) := log.filterMap Effect.opened?

def rejectedOf (log : List Effect) : List Bytes := log.filterMap Effect.rejected?

/-- The packets delivered to the consumer, in order. -/
def packetsOf (log : List Effect) : List Packet := log.filterMap Effect.packet?

/-- Everything sent to the event queue, in order. -/
def eventsOf (log : List Effect) : List BackedEvent := log.filterMap Effect.event?

def deadsOf (log : List Effect) : List DeadReason := log.filterMap Effect.dead?

section Append

variable (a b : List Effect)

@[simp] theorem encryptionsOf_append :
    encryptionsOf (a ++ b) = encryptionsOf a ++ encryptionsOf b := List.filterMap_append

@[simp] theorem framesOf_append : framesOf (a ++ b) = framesOf a ++ framesOf b := by
  simp [framesOf]

@[simp] theorem writtenOf_append : writtenOf (a ++ b) = writtenOf a ++ writtenOf b := by
  simp [writtenOf]

@[simp] theorem successfulWrites_append :
    successfulWrites (a ++ b) = successfulWrites a + successfulWrites b := by
  simp [successfulWrites]

@[simp] theorem decryptNonces_append :
    decryptNonces (a ++ b) = decryptNonces a ++ decryptNonces b := List.filterMap_append

@[simp] theorem openedOf_append : openedOf (a ++ b) = openedOf a ++ openedOf b :=
  List.filterMap_append

@[simp] theorem rejectedOf_append : rejectedOf (a ++ b) = rejectedOf a ++ rejectedOf b :=
  List.filterMap_append

@[simp] theorem packetsOf_append : packetsOf (a ++ b) = packetsOf a ++ packetsOf b :=
  List.filterMap_append

@[simp] theorem deadsOf_append : deadsOf (a ++ b) = deadsOf a ++ deadsOf b :=
  List.filterMap_append

end Append

/-- The packet of an event. -/
def BackedEvent.packet? : BackedEvent → Option Packet
  | .packet p => some p
  | _ => none

theorem filterMap_packet?_eventsOf (log : List Effect) :
    (eventsOf log).filterMap BackedEvent.packet? = packetsOf log := by
  rw [eventsOf, packetsOf, List.filterMap_filterMap]
  congr 1
  funext e
  rcases e with _ | _ | _ | _ | _ | _ | (_ | _ | _) | _ | _ | _ <;> rfl

/-- Effects without an encryption and without a successful write. -/
structure WriterQuiet (effects : List Effect) : Prop where
  encryptions : encryptionsOf effects = [] := by rfl
  writes : successfulWrites effects = 0 := by rfl

/-- An effect of which the reading half knows nothing. -/
def Effect.readerSilent : Effect → Bool
  | .decrypted .. | .opened .. | .rejected _ | .event (.packet _) | .event (.dead _) => false
  | _ => true

def ReaderQuiet (effects : List Effect) : Prop := effects.all Effect.readerSilent = true

namespace ReaderQuiet

variable {effects : List Effect}

/-- A projection that is blind to silent effects reads nothing. -/
theorem filterMap_eq_nil {β : Type} (h : ReaderQuiet effects) {read : Effect → Option β}
    (blind : ∀ e : Effect, e.readerSilent = true → read e = none) :
    effects.filterMap read = [] := by
  apply List.filterMap_eq_nil_iff.mpr
  intro e member
  exact blind e (List.all_eq_true.mp h e member)

theorem decrypts (h : ReaderQuiet effects) : decryptNonces effects = [] := by
  apply h.filterMap_eq_nil
  intro e silent
  cases e <;> first | rfl | cases silent

theorem opened (h : ReaderQuiet effects) : openedOf effects = [] := by
  apply h.filterMap_eq_nil
  intro e silent
  cases e <;> first | rfl | cases silent

theorem rejected (h : ReaderQuiet effects) : rejectedOf effects = [] := by
  apply h.filterMap_eq_nil
  intro e silent
  cases e <;> first | rfl | cases silent

theorem packets (h : ReaderQuiet effects) : packetsOf effects = [] := by
  apply h.filterMap_eq_nil
  rintro (_ | _ | _ | _ | _ | _ | (_ | _ | _) | _ | _ | _) silent <;> first | rfl | cases silent

theorem deads (h : ReaderQuiet effects) : deadsOf effects = [] := by
  apply h.filterMap_eq_nil
  rintro (_ | _ | _ | _ | _ | _ | (_ | _ | _) | _ | _ | _) silent <;> first | rfl | cases silent

end ReaderQuiet

end Backed

end Et
