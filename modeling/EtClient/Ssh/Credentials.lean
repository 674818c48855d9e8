import EtClient.Lib.Utf8
import EtClient.Proto.Crypto

/-!
# The credentials in the output of ssh

The server prints the marker, an id, a slash and a passkey somewhere in the output of its login
shell. `parseIdpasskeyBytes` looks for the first marker, takes as many bytes behind it as an id,
a slash and a passkey have together, cuts them at their first slash and checks that the two
parts are ASCII letters and digits.

`Shown` is the plain meaning of what stands behind the marker. The parser returns what is shown
there as soon as the two parts have the length of an id and a passkey together. Nothing looks at
where the slash stands, so a slash in another place moves bytes from one part to the other, and
the passkey is then no key.
-/

namespace Et

/-- `key_bytes`: the passkey string is the key. -/
def Key.keyBytes (passkey : String) : Option Key :=
  if length_eq : (Utf8.bytes passkey).length = Et.keyBytes then
    some ⟨Utf8.bytes passkey, length_eq⟩
  else none

theorem Key.isSome_keyBytes {passkey : String} :
    (Key.keyBytes passkey).isSome ↔ (Utf8.bytes passkey).length = Et.keyBytes := by
  rw [Key.keyBytes]
  split
  · rename_i length
    exact iff_of_true rfl length
  · rename_i length
    exact iff_of_false Bool.false_ne_true length

namespace Ssh

def idLen : Nat := 16
def passkeyLen : Nat := 32

structure IdPasskey where
  id : String
  passkey : String
  deriving DecidableEq

def idpasskeyMarker : String := "IDPASSKEY:"

def marker : Bytes := Utf8.bytes idpasskeyMarker

/-- `u8::is_ascii_alphanumeric`. -/
def isAsciiAlphanumeric (b : UInt8) : Bool :=
  48 ≤ b && b ≤ 57 || 65 ≤ b && b ≤ 90 || 97 ≤ b && b ≤ 122

def parseIdpasskeyBytes (output : Bytes) : Option IdPasskey := do
  let start := (← Search.scan marker output) + marker.length
  -- Where the source's `checked_add` overflows, no output is long enough either.
  let stop := start + (idLen + 1 + passkeyLen)
  if output.length < stop then none
  else do
    let idpasskey ← Utf8.decode? ((output.take stop).drop start)
    let (id, passkey) ← Utf8.splitOnce idpasskey '/'
    if !(Utf8.bytes id ++ Utf8.bytes passkey).all isAsciiAlphanumeric then none
    else some ⟨id, passkey⟩

def parseIdpasskeyOutput (output : String) : Option IdPasskey :=
  parseIdpasskeyBytes (Utf8.bytes output)

def slash : UInt8 := 47

/-- ASCII letters and digits around a slash stand behind the first marker. -/
structure Shown (output id passkey : Bytes) : Prop where
  behind : Search.Behind marker output (id ++ slash :: passkey)
  id_alphanumeric : ∀ b ∈ id, isAsciiAlphanumeric b
  passkey_alphanumeric : ∀ b ∈ passkey, isAsciiAlphanumeric b

/-- What is shown is an id and a passkey of their lengths. -/
structure WellFormed (output id passkey : Bytes) : Prop extends Shown output id passkey where
  id_length : id.length = idLen
  passkey_length : passkey.length = passkeyLen

theorem marker_ne_nil : marker ≠ [] := by
  rw [marker, Utf8.bytes_eq]
  decide

theorem bytes_slash (id passkey : String) :
    Utf8.bytes (id ++ String.singleton '/' ++ passkey) =
      Utf8.bytes id ++ slash :: Utf8.bytes passkey := by
  have single : Utf8.bytes (String.singleton '/') = [slash] := by
    rw [Utf8.bytes_eq]
    decide
  rw [Utf8.bytes_append, Utf8.bytes_append, single, List.append_assoc, List.singleton_append]

theorem not_mem_of_alphanumeric {s : String} (alphanumeric : ∀ b ∈ Utf8.bytes s,
    isAsciiAlphanumeric b) : '/' ∉ s.toList := by
  intro mem
  have within : slash ∈ Utf8.bytes s := by
    rw [Utf8.bytes_eq, List.mem_flatMap]
    exact ⟨'/', mem, by decide⟩
  exact absurd (alphanumeric slash within) (by decide)

theorem alphanumeric_of_all {s : String}
    (all : s.toList.all fun c => (String.utf8EncodeChar c).all isAsciiAlphanumeric) :
    ∀ b ∈ Utf8.bytes s, isAsciiAlphanumeric b := by
  rwa [Utf8.bytes_eq, ← List.all_eq_true, List.all_flatMap]

theorem ascii_of_alphanumeric {b : UInt8} (alphanumeric : isAsciiAlphanumeric b) : b < 128 := by
  simp [isAsciiAlphanumeric, UInt8.le_iff_toNat_le, UInt8.lt_iff_toNat_lt] at alphanumeric ⊢
  omega

/-- The parser returns what is shown when it has the length of an id and a passkey together. -/
theorem parseIdpasskeyBytes_eq_some {output : Bytes} {c : IdPasskey} :
    parseIdpasskeyBytes output = some c ↔
      Shown output (Utf8.bytes c.id) (Utf8.bytes c.passkey) ∧
        (Utf8.bytes c.id).length + (Utf8.bytes c.passkey).length = idLen + passkeyLen := by
  simp only [parseIdpasskeyBytes, Option.bind_eq_bind, Option.bind_eq_some_iff,
    Option.ite_none_left_eq_some, Utf8.decode?_eq_some, Search.scan_eq_some marker_ne_nil,
    Bool.not_eq_true', Bool.not_eq_false, List.all_eq_true, List.forall_mem_append,
    Option.some.injEq, Nat.not_lt]
  constructor
  · rintro ⟨i, first, fits, text, window, ⟨id, passkey⟩, cut, ⟨alnumId, alnumPasskey⟩, rfl⟩
    obtain ⟨rfl, -⟩ := Utf8.splitOnce_eq_some.mp cut
    rw [bytes_slash, List.drop_take, Nat.add_sub_cancel_left] at window
    refine ⟨⟨⟨i, first, window ▸ List.take_prefix _ _⟩, alnumId, alnumPasskey⟩, ?_⟩
    have lengths := congrArg List.length window
    rw [List.length_append, List.length_cons, List.length_take, List.length_drop] at lengths
    dsimp only
    omega
  · rintro ⟨⟨⟨i, first, behind⟩, alnumId, alnumPasskey⟩, lengths⟩
    have fits := behind.length_le
    have window := List.prefix_iff_eq_take.mp behind
    have total : (Utf8.bytes c.id ++ slash :: Utf8.bytes c.passkey).length =
        idLen + 1 + passkeyLen := by
      rw [List.length_append, List.length_cons]
      omega
    rw [total] at window fits
    rw [List.length_drop] at fits
    have place := Search.length_of_prefix_drop marker_ne_nil first.here
    refine ⟨i, first, by omega, c.id ++ String.singleton '/' ++ c.passkey, ?_, (c.id, c.passkey),
      Utf8.splitOnce_eq_some.mpr ⟨rfl, not_mem_of_alphanumeric alnumId⟩,
      ⟨alnumId, alnumPasskey⟩, rfl⟩
    rw [bytes_slash, List.drop_take, Nat.add_sub_cancel_left, window]

/-- A slash between an id and a passkey, if there is one at all, is where it belongs. -/
def SlashInPlace (output : Bytes) : Prop :=
  ∀ id passkey, Shown output id passkey → id.length + passkey.length = idLen + passkeyLen →
    id.length = idLen

theorem Shown.exists_strings {output id passkey : Bytes} (shown : Shown output id passkey) :
    ∃ c : IdPasskey, Utf8.bytes c.id = id ∧ Utf8.bytes c.passkey = passkey := by
  obtain ⟨first, firstEq⟩ :=
    Utf8.exists_bytes_eq fun b mem => ascii_of_alphanumeric (shown.id_alphanumeric b mem)
  obtain ⟨second, secondEq⟩ :=
    Utf8.exists_bytes_eq fun b mem => ascii_of_alphanumeric (shown.passkey_alphanumeric b mem)
  exact ⟨⟨first, second⟩, firstEq, secondEq⟩

theorem WellFormed.lengths {output id passkey : Bytes}
    (wellFormed : WellFormed output id passkey) :
    id.length + passkey.length = idLen + passkeyLen := by
  rw [wellFormed.id_length, wellFormed.passkey_length]

def colon : UInt8 := 58

/-- A marker ends with its only colon, so the first one of an output stands behind a front without
colons. -/
theorem Shown.of_front {pre post : Bytes} {id passkey : String} (front : colon ∉ pre)
    (idAlphanumeric : ∀ b ∈ Utf8.bytes id, isAsciiAlphanumeric b)
    (passkeyAlphanumeric : ∀ b ∈ Utf8.bytes passkey, isAsciiAlphanumeric b) :
    Shown (pre ++ (marker ++ (Utf8.bytes id ++ slash :: Utf8.bytes passkey)) ++ post)
      (Utf8.bytes id) (Utf8.bytes passkey) := by
  refine ⟨(Search.behind_iff marker_ne_nil).mpr ⟨pre, post, rfl, ?_⟩, idAlphanumeric,
    passkeyAlphanumeric⟩
  intro within
  have last : colon ∈ marker ∧ colon ∉ marker.dropLast := by
    rw [marker, Utf8.bytes_eq]
    decide
  obtain early | inside := List.mem_append.1 (within.subset last.1)
  · exact front early
  · exact last.2 inside

/-- The parser accepts exactly the credentials of their lengths when the slash is in place. -/
theorem accepts_wellFormed_iff_slashInPlace (output : Bytes) :
    ((∀ c, parseIdpasskeyBytes output = some c ↔
        WellFormed output (Utf8.bytes c.id) (Utf8.bytes c.passkey)) ∧
      (parseIdpasskeyBytes output = none ↔ ∀ id passkey, ¬ WellFormed output id passkey) ∧
      (∀ c, parseIdpasskeyBytes output = some c → (Key.keyBytes c.passkey).isSome)) ↔
    SlashInPlace output := by
  constructor
  · rintro ⟨accepted, -, -⟩ id passkey shown lengths
    obtain ⟨c, rfl, rfl⟩ := shown.exists_strings
    exact ((accepted c).mp (parseIdpasskeyBytes_eq_some.mpr ⟨shown, lengths⟩)).id_length
  · intro inPlace
    have accepted (c : IdPasskey) : parseIdpasskeyBytes output = some c ↔
        WellFormed output (Utf8.bytes c.id) (Utf8.bytes c.passkey) := by
      rw [parseIdpasskeyBytes_eq_some]
      constructor
      · rintro ⟨shown, lengths⟩
        have idLength := inPlace _ _ shown lengths
        exact ⟨shown, idLength, by omega⟩
      · intro wellFormed
        exact ⟨wellFormed.toShown, wellFormed.lengths⟩
    refine ⟨accepted, ?_, ?_⟩
    · rw [Option.eq_none_iff_forall_ne_some]
      constructor
      · intro rejected id passkey wellFormed
        obtain ⟨c, rfl, rfl⟩ := wellFormed.toShown.exists_strings
        exact rejected c ((accepted c).mpr wellFormed)
      · intro absent c parsed
        exact absent _ _ ((accepted c).mp parsed)
    · intro c parsed
      exact Key.isSome_keyBytes.mpr ((accepted c).mp parsed).passkey_length

/-- The output that a test of the source takes for an honest one has an id of 19 bytes: the
passkey is short of three, and no key can be made of it. -/
theorem misplaced_slash_accepted :
    let output := "IDPASSKEY:XXXabcdefghijklmnop/kkkkkkkkkkkkkkkkkkkkkkkkkkkkkkkk"
    let passkey := "kkkkkkkkkkkkkkkkkkkkkkkkkkkkk"
    parseIdpasskeyOutput output = some ⟨"XXXabcdefghijklmnop", passkey⟩ ∧
      (Utf8.bytes passkey).length = 29 ∧ Key.keyBytes passkey = none ∧
      ∀ id passkey, ¬ WellFormed (Utf8.bytes output) id passkey := by
  intro output passkey
  have text : output = idpasskeyMarker ++
      ("XXXabcdefghijklmnop" ++ String.singleton '/' ++ passkey) ++ "kkk" := by
    decide
  have idLength : (Utf8.bytes "XXXabcdefghijklmnop").length = 19 := by
    rw [Utf8.bytes_eq]
    decide
  have passkeyLength : (Utf8.bytes passkey).length = 29 := by
    rw [Utf8.bytes_eq]
    decide
  have shown : Shown (Utf8.bytes output) (Utf8.bytes "XXXabcdefghijklmnop")
      (Utf8.bytes passkey) := by
    rw [text, Utf8.bytes_append, Utf8.bytes_append, bytes_slash, ← marker,
      ← List.nil_append (marker ++ _)]
    exact .of_front List.not_mem_nil (alphanumeric_of_all (by decide))
      (alphanumeric_of_all (by decide))
  have parsed : parseIdpasskeyBytes (Utf8.bytes output) =
      some ⟨"XXXabcdefghijklmnop", passkey⟩ := by
    exact parseIdpasskeyBytes_eq_some.mpr ⟨shown, by rw [idLength, passkeyLength]; rfl⟩
  refine ⟨parsed, passkeyLength, ?_, ?_⟩
  · rw [← Option.not_isSome_iff_eq_none, Key.isSome_keyBytes, passkeyLength]
    decide
  · intro id other wellFormed
    obtain ⟨c, rfl, rfl⟩ := wellFormed.toShown.exists_strings
    have same := parseIdpasskeyBytes_eq_some.mpr ⟨wellFormed.toShown, wellFormed.lengths⟩
    rw [parsed] at same
    cases same
    exact absurd wellFormed.id_length (by rw [idLength]; decide)

end Ssh

end Et
