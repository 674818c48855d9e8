import EtClient.Lib.Relabel
import EtClient.Lib.Text
import EtClient.Ssh.Credentials
import Mathlib.Data.Fintype.Vector
import Mathlib.SetTheory.Cardinal.Finite

/-!
# Fresh credentials

`random_alphanum` draws 64 random bytes at a time and takes those below 62 as places in the
alphabet. Bytes of the last buffer behind the last letter are thrown away, and the next call begins
with a new buffer. An id begins with three letters `X`, by which a server knows that it is to make
an id and a passkey of its own.

The random bytes are an argument, as many of them as the system yields. No id and no passkey is more
likely than another: between the random bytes that lead to one pair and those that lead to another
there is a one-to-one map, which swaps letters and leaves everything else as it is.
-/

namespace Et.Ssh

def alphanum : Bytes :=
  Utf8.bytes "0123456789ABCDEFGHIJKLMNOPQRSTUVWXYZabcdefghijklmnopqrstuvwxyz"

/-- The length of the buffer. -/
def bufLen : Nat := 64

/-- The `for` loop over one buffer. -/
def pushLetters (len : Nat) : Bytes → Bytes → Bytes
  | out, [] => out
  | out, b :: buf =>
      if b.toNat < alphanum.length then
        let out := out ++ [alphanum.getD b.toNat 0]
        if out.length = len then out else pushLetters len out buf
      else pushLetters len out buf

/-- The `while` loop. `random` is what the system yields; where that ends, `fill` fails. -/
def fillLetters (len : Nat) (out random : Bytes) : Except String (Bytes × Bytes) :=
  if out.length < len then
    if random.length < bufLen then .error "system randomness unavailable"
    else fillLetters len (pushLetters len out (random.take bufLen)) (random.drop bufLen)
  else .ok (out, random)
termination_by random.length
decreasing_by
  rw [List.length_drop]
  have : bufLen = 64 := rfl
  omega

/-- The letters, and what is left of the random bytes. -/
def randomAlphanum (len : Nat) (random : Bytes) : Except String (Bytes × Bytes) :=
  fillLetters len [] random

/-- `String::from_utf8(..).expect(..)`. -/
def fromUtf8 (bytes : Bytes) : Except String String :=
  match Utf8.decode? bytes with
  | some s => .ok s
  | none => .error "alphanumeric is utf-8"

def generateIdPasskey (random : Bytes) : Except String IdPasskey := do
  let (id, random) ← randomAlphanum idLen random
  let id := ((id.set 0 88).set 1 88).set 2 88
  let id ← fromUtf8 id
  let (passkey, _) ← randomAlphanum passkeyLen random
  let passkey ← fromUtf8 passkey
  return ⟨id, passkey⟩

def accepts (b : UInt8) : Bool := b.toNat < alphanum.length

/-- The letters among random bytes. -/
def letters (random : Bytes) : Bytes :=
  (random.filter accepts).map fun b => alphanum.getD b.toNat 0

theorem alphanum_eq : alphanum =
    [48, 49, 50, 51, 52, 53, 54, 55, 56, 57, 65, 66, 67, 68, 69, 70, 71, 72, 73, 74, 75, 76, 77, 78,
      79, 80, 81, 82, 83, 84, 85, 86, 87, 88, 89, 90, 97, 98, 99, 100, 101, 102, 103, 104, 105,
      106, 107, 108, 109, 110, 111, 112, 113, 114, 115, 116, 117, 118, 119, 120, 121, 122] := by
  rw [alphanum, Utf8.bytes_eq]
  decide

theorem length_alphanum : alphanum.length = 62 := by
  rw [alphanum_eq]
  rfl

theorem nodup_alphanum : alphanum.Nodup := by
  rw [alphanum_eq]
  decide

theorem alphanumeric_of_mem {b : UInt8} (mem : b ∈ alphanum) : isAsciiAlphanumeric b := by
  have all : alphanum.all isAsciiAlphanumeric := by
    rw [alphanum_eq]
    decide
  exact List.all_eq_true.mp all b mem

theorem mem_letters {random : Bytes} {c : UInt8} (mem : c ∈ letters random) : c ∈ alphanum := by
  obtain ⟨b, accepted, rfl⟩ := List.mem_map.mp mem
  have bound : b.toNat < alphanum.length := by
    simpa [accepts] using (List.mem_filter.mp accepted).2
  rw [List.getD_eq_getElem?_getD, List.getElem?_eq_getElem bound]
  exact List.getElem_mem bound

@[simp] theorem letters_append (a b : Bytes) : letters (a ++ b) = letters a ++ letters b := by
  simp [letters]

theorem letters_cons (b : UInt8) (buf : Bytes) :
    letters (b :: buf) =
      if b.toNat < alphanum.length then alphanum.getD b.toNat 0 :: letters buf
      else letters buf := by
  simp only [letters, List.filter_cons, accepts, decide_eq_true_eq]
  split <;> rfl

theorem pushLetters_eq {len : Nat} {out : Bytes} (short : out.length < len) (buf : Bytes) :
    pushLetters len out buf = (out ++ letters buf).take len := by
  induction buf generalizing out with
  | nil =>
      rw [pushLetters, letters, List.filter_nil, List.map_nil, List.append_nil,
        List.take_of_length_le (Nat.le_of_lt short)]
  | cons b buf ih =>
      rw [pushLetters, letters_cons]
      split
      · dsimp only
        rw [List.append_cons out _ (letters buf)]
        split
        · rename_i full
          rw [← full, List.take_left]
        · rename_i short'
          rw [List.length_append, List.length_singleton] at short'
          exact ih (by rw [List.length_append, List.length_singleton]; omega)
      · exact ih short

theorem take_take_append (n : Nat) (a b : Bytes) : (a.take n ++ b).take n = (a ++ b).take n := by
  rw [List.take_append, List.take_append, List.take_take, Nat.min_self, List.length_take]
  congr 2
  omega

/-- The letters stand at the same places. -/
structure Parallel (front front' : Bytes) : Prop where
  length : front'.length = front.length
  letters (n : Nat) : (letters (front'.take n)).length = (letters (front.take n)).length

theorem Parallel.whole {front front' : Bytes} (h : Parallel front front') :
    (Ssh.letters front').length = (Ssh.letters front).length := by
  have all := h.letters front.length
  rwa [List.take_length, ← h.length, List.take_length] at all

theorem Parallel.drop {front front' : Bytes} (h : Parallel front front') (k : Nat) :
    Parallel (front.drop k) (front'.drop k) where
  length := by
    rw [List.length_drop, List.length_drop, h.length]
  letters n := by
    have both := h.letters (k + n)
    have first := h.letters k
    rw [List.take_add, List.take_add, letters_append, letters_append, List.length_append,
      List.length_append, first] at both
    exact Nat.add_left_cancel both

/-- The loop reads a part of the random bytes and leaves the rest. Any other bytes with letters at
the same places in this part take it as far, whatever is behind them. -/
theorem fillLetters_eq_ok {len : Nat} {out random res rest : Bytes} (short : out.length ≤ len)
    (done : fillLetters len out random = .ok (res, rest)) :
    ∃ front, random = front ++ rest ∧ res = (out ++ letters front).take len ∧
      len ≤ (out ++ letters front).length ∧
      ∀ out' front' tail, out'.length = out.length → Parallel front front' →
        fillLetters len out' (front' ++ tail) = .ok ((out' ++ letters front').take len, tail) := by
  fun_induction fillLetters len out random with
  | case1 => cases done
  | case2 out random unfilled enough ih =>
      rw [pushLetters_eq unfilled] at ih done
      obtain ⟨front, split, rfl, many, again⟩ := ih (List.length_take_le _ _) done
      refine ⟨random.take bufLen ++ front, ?_, ?_, ?_, ?_⟩
      · rw [List.append_assoc, ← split, List.take_append_drop]
      · rw [take_take_append, List.append_assoc, letters_append]
      · rw [List.length_append, List.length_take] at many
        rw [letters_append, ← List.append_assoc, List.length_append]
        omega
      · intro out' front' tail same parallel
        have buffer : (random.take bufLen).length = bufLen :=
          List.length_take_of_le (Nat.le_of_not_lt enough)
        have long : bufLen ≤ front'.length := by
          rw [parallel.length, List.length_append, buffer]
          exact Nat.le_add_right _ _
        have first := parallel.letters bufLen
        rw [List.take_append_of_le_length buffer.ge, List.take_of_length_le buffer.le] at first
        have behind := parallel.drop bufLen
        rw [List.drop_append_of_le_length buffer.ge, List.drop_of_length_le buffer.le,
          List.nil_append] at behind
        rw [fillLetters, if_pos (same.trans_lt unfilled), if_neg,
          List.take_append_of_le_length long, List.drop_append_of_le_length long,
          pushLetters_eq (same.trans_lt unfilled), again _ _ tail ?_ behind,
          take_take_append, List.append_assoc, ← letters_append, List.take_append_drop]
        · rw [List.length_take, List.length_take, List.length_append, List.length_append, same,
            first]
        · rw [List.length_append]
          omega
  | case3 out random filled =>
      cases done
      refine ⟨[], rfl, ?_, ?_, ?_⟩
      · exact (List.take_of_length_le (by simpa [letters] using short)).symm.trans
          (by simp [letters])
      · simpa [letters] using filled
      · intro out' front' tail same parallel
        obtain rfl := List.eq_nil_of_length_eq_zero parallel.length
        rw [fillLetters, if_neg (by rwa [same]), List.nil_append]
        simp [letters, List.take_of_length_le (same.trans_le short)]

/-- The place of a letter in the alphabet. -/
def code (c : UInt8) : UInt8 := UInt8.ofNat (alphanum.idxOf c)

theorem toNat_code {c : UInt8} (mem : c ∈ alphanum) : (code c).toNat = alphanum.idxOf c := by
  have bound := List.idxOf_lt_length_of_mem mem
  rw [length_alphanum] at bound
  rw [code, UInt8.toNat_ofNat_of_lt' (Nat.lt_trans bound (by decide))]

theorem accepts_code {c : UInt8} (mem : c ∈ alphanum) : accepts (code c) = true := by
  rw [accepts, toNat_code mem]
  exact decide_eq_true (List.idxOf_lt_length_of_mem mem)

theorem letter_code {c : UInt8} (mem : c ∈ alphanum) : alphanum.getD (code c).toNat 0 = c := by
  rw [toNat_code mem, List.getD_eq_getElem?_getD, List.getElem?_idxOf mem]
  rfl

theorem code_letter {b : UInt8} (accepted : accepts b = true) :
    code (alphanum.getD b.toNat 0) = b := by
  have bound : b.toNat < alphanum.length := by simpa [accepts] using accepted
  rw [code, List.getD_eq_getElem?_getD, List.getElem?_eq_getElem bound, Option.getD_some,
    nodup_alphanum.idxOf_getElem, UInt8.ofNat_toNat]

/-- At each place the letters of the two words are swapped. -/
def swaps (word word' : Bytes) (k : Nat) : Equiv.Perm UInt8 :=
  Equiv.swap (code (word.getD k 48)) (code (word'.getD k 48))

theorem swaps_symm (word word' : Bytes) :
    (fun k => (swaps word word' k).symm) = swaps word' word := by
  funext k
  rw [swaps, Equiv.symm_swap, Equiv.swap_comm, swaps]

section Words

variable {word word' : Bytes} (ours : ∀ b ∈ word, b ∈ alphanum) (theirs : ∀ b ∈ word', b ∈ alphanum)

include ours theirs

theorem accepts_swaps (k : Nat) (b : UInt8) : accepts (swaps word word' k b) = accepts b := by
  have letter {word : Bytes} (within : ∀ b ∈ word, b ∈ alphanum) :
      accepts (code (word.getD k 48)) = true := by
    apply accepts_code
    rw [List.getD_eq_getElem?_getD]
    cases here : word[k]? with
    | none =>
        rw [alphanum_eq]
        decide
    | some c => exact within c (List.mem_of_getElem? here)
  rw [swaps, Equiv.swap_apply_def]
  split
  · rename_i same
    rw [same, letter ours, letter theirs]
  · split
    · rename_i same
      rw [same, letter ours, letter theirs]
    · rfl

/-- Where one word has been read, the other is read. -/
theorem letters_relabel {random : Bytes} {k : Nat} {c c' : UInt8}
    (read : (letters random)[k]? = some c) (here : word[k]? = some c)
    (there : word'[k]? = some c') :
    (letters (Relabel.relabel accepts (swaps word word') 0 random))[k]? = some c' := by
  rw [letters, List.getElem?_map, Option.map_eq_some_iff] at read ⊢
  obtain ⟨b, found, rfl⟩ := read
  have accepted : accepts b = true := (List.mem_filter.mp (List.mem_of_getElem? found)).2
  rw [Relabel.filter_relabel (accepts_swaps ours theirs), List.getElem?_mapIdx, found]
  have ourLetter : word.getD k 48 = alphanum.getD b.toNat 0 := by
    rw [List.getD_eq_getElem?_getD, here, Option.getD_some]
  have theirLetter : word'.getD k 48 = c' := by
    rw [List.getD_eq_getElem?_getD, there, Option.getD_some]
  have swapped : swaps word word' (0 + k) b = code c' := by
    rw [swaps, Nat.zero_add, ourLetter, theirLetter, code_letter accepted, Equiv.swap_apply_left]
  refine ⟨swaps word word' (0 + k) b, rfl, ?_⟩
  rw [swapped, letter_code (theirs c' (List.mem_of_getElem? there))]

theorem parallel_relabel (random : Bytes) :
    Parallel random (Relabel.relabel accepts (swaps word word') 0 random) where
  length := Relabel.length_relabel _ _
  letters n := by
    rw [Relabel.take_relabel, letters, letters, List.length_map, List.length_map,
      Relabel.filter_relabel (accepts_swaps ours theirs), List.length_mapIdx]

/-- Where a word was read from some place on, the other is read from there on. -/
theorem drop_letters_relabel {random : Bytes} {len : Nat} (n : Nat) (length : word.length = len)
    (length' : word'.length = len) (read : ((letters random).take len).drop n = word.drop n) :
    ((letters (Relabel.relabel accepts (swaps word word') 0 random)).take len).drop n =
      word'.drop n := by
  apply List.ext_getElem?
  intro k
  rw [List.getElem?_drop, List.getElem?_drop]
  by_cases within : n + k < len
  · have here : word[n + k]? = some word[n + k] := List.getElem?_eq_getElem (length ▸ within)
    have there : word'[n + k]? = some word'[n + k] := List.getElem?_eq_getElem (length' ▸ within)
    have found := congrArg (·[k]?) read
    simp only [List.getElem?_drop] at found
    rw [List.getElem?_take_of_lt within, here] at found
    rw [List.getElem?_take_of_lt within, letters_relabel ours theirs found here there, there]
  · have behind : word'[n + k]? = none := List.getElem?_eq_none (by omega)
    rw [behind, List.getElem?_eq_none]
    rw [List.length_take]
    omega

theorem relabel_back (random : Bytes) :
    Relabel.relabel accepts (swaps word' word) 0
      (Relabel.relabel accepts (swaps word word') 0 random) = random := by
  rw [← swaps_symm word word']
  exact Relabel.relabel_symm (accepts_swaps ours theirs) 0 random

end Words

theorem randomAlphanum_eq_ok {len : Nat} {random out rest : Bytes}
    (done : randomAlphanum len random = .ok (out, rest)) :
    ∃ front, random = front ++ rest ∧ out = (letters front).take len ∧
      len ≤ (letters front).length ∧ ∀ front' tail, Parallel front front' →
        randomAlphanum len (front' ++ tail) = .ok ((letters front').take len, tail) := by
  obtain ⟨front, split, rfl, many, again⟩ := fillLetters_eq_ok (Nat.zero_le _) done
  exact ⟨front, split, rfl, many, fun front' tail => again [] front' tail rfl⟩

/-- The shape of fresh credentials. -/
structure Fresh (c : IdPasskey) : Prop where
  marked : (Utf8.bytes c.id).take 3 = [88, 88, 88]
  id_length : (Utf8.bytes c.id).length = idLen
  id_letters : ∀ b ∈ Utf8.bytes c.id, b ∈ alphanum
  passkey_length : (Utf8.bytes c.passkey).length = passkeyLen
  passkey_letters : ∀ b ∈ Utf8.bytes c.passkey, b ∈ alphanum

/-- `id[0] = b'X'` and so on. -/
def mark (id : Bytes) : Bytes := ((id.set 0 88).set 1 88).set 2 88

theorem fromUtf8_eq_ok {bytes : Bytes} {s : String} :
    fromUtf8 bytes = .ok s ↔ Utf8.bytes s = bytes := by
  rw [← Utf8.decode?_eq_some, fromUtf8]
  cases Utf8.decode? bytes <;> simp

theorem generateIdPasskey_eq_ok {random : Bytes} {c : IdPasskey} :
    generateIdPasskey random = .ok c ↔ ∃ id rest last,
      randomAlphanum idLen random = .ok (id, rest) ∧ Utf8.bytes c.id = mark id ∧
        randomAlphanum passkeyLen rest = .ok (Utf8.bytes c.passkey, last) := by
  constructor
  · intro generated
    obtain ⟨⟨id, rest⟩, first, generated⟩ := Text.bind_eq_ok.mp generated
    obtain ⟨idText, decoded, generated⟩ := Text.bind_eq_ok.mp generated
    obtain ⟨⟨passkey, last⟩, second, generated⟩ := Text.bind_eq_ok.mp generated
    obtain ⟨passkeyText, decoded', generated⟩ := Text.bind_eq_ok.mp generated
    cases generated
    refine ⟨id, rest, last, first, fromUtf8_eq_ok.mp decoded, ?_⟩
    rw [fromUtf8_eq_ok.mp decoded', second]
  · rintro ⟨id, rest, last, first, marked, second⟩
    refine Text.bind_eq_ok.mpr ⟨(id, rest), first, ?_⟩
    refine Text.bind_eq_ok.mpr ⟨c.id, fromUtf8_eq_ok.mpr marked, ?_⟩
    refine Text.bind_eq_ok.mpr ⟨(Utf8.bytes c.passkey, last), second, ?_⟩
    exact Text.bind_eq_ok.mpr ⟨c.passkey, fromUtf8_eq_ok.mpr rfl, rfl⟩

theorem mark_eq {id : Bytes} (long : 3 ≤ id.length) : mark id = [88, 88, 88] ++ id.drop 3 := by
  match id, long with
  | _ :: _ :: _ :: _, _ => rfl

theorem fresh_of_generateIdPasskey {random : Bytes} {c : IdPasskey}
    (generated : generateIdPasskey random = .ok c) : Fresh c := by
  obtain ⟨id, rest, last, first, marked, second⟩ := generateIdPasskey_eq_ok.mp generated
  obtain ⟨front, _, rfl, many, _⟩ := randomAlphanum_eq_ok first
  obtain ⟨front', _, passkey, many', _⟩ := randomAlphanum_eq_ok second
  have length : ((letters front).take idLen).length = idLen := List.length_take_of_le many
  rw [mark_eq (length.symm ▸ (by decide))] at marked
  refine ⟨?_, ?_, ?_, ?_, ?_⟩
  · rw [marked]
    rfl
  · rw [marked, List.length_append, List.length_drop, length]
    rfl
  · rw [marked, List.forall_mem_append]
    refine ⟨?_, fun b mem => mem_letters (List.mem_of_mem_take (List.mem_of_mem_drop mem))⟩
    rw [alphanum_eq]
    decide +kernel
  · rw [passkey, List.length_take_of_le many']
  · rw [passkey]
    exact fun b mem => mem_letters (List.mem_of_mem_take mem)

/-- From random bytes that lead to some credentials to ones that lead to others. -/
def transfer (c c' : IdPasskey) (random : Bytes) : Bytes :=
  match randomAlphanum idLen random with
  | .ok (_, rest) =>
      Relabel.relabel accepts (swaps (Utf8.bytes c.id) (Utf8.bytes c'.id)) 0
        (random.take (random.length - rest.length)) ++
      Relabel.relabel accepts (swaps (Utf8.bytes c.passkey) (Utf8.bytes c'.passkey)) 0 rest
  | .error _ => random

theorem transfer_append {c c' : IdPasskey} {front rest out : Bytes}
    (first : randomAlphanum idLen (front ++ rest) = .ok (out, rest)) :
    transfer c c' (front ++ rest) =
      Relabel.relabel accepts (swaps (Utf8.bytes c.id) (Utf8.bytes c'.id)) 0 front ++
      Relabel.relabel accepts (swaps (Utf8.bytes c.passkey) (Utf8.bytes c'.passkey)) 0 rest := by
  rw [transfer, first]
  dsimp only
  rw [List.length_append, Nat.add_sub_cancel, List.take_left]

theorem eq_mark_relabel {front : Bytes} {c c' : IdPasskey} (fresh : Fresh c) (fresh' : Fresh c')
    (many : idLen ≤ (letters front).length)
    (marked : Utf8.bytes c.id = mark ((letters front).take idLen)) :
    Utf8.bytes c'.id = mark ((letters (Relabel.relabel accepts
      (swaps (Utf8.bytes c.id) (Utf8.bytes c'.id)) 0 front)).take idLen) := by
  have parallel := parallel_relabel fresh.id_letters fresh'.id_letters front
  have short : 3 ≤ ((letters front).take idLen).length := by
    rw [List.length_take_of_le many]
    decide
  have read : ((letters front).take idLen).drop 3 = (Utf8.bytes c.id).drop 3 := by
    rw [marked, mark_eq short]
    rfl
  rw [mark_eq (by rwa [List.length_take, parallel.whole, ← List.length_take]),
    drop_letters_relabel fresh.id_letters fresh'.id_letters 3 fresh.id_length fresh'.id_length read,
    ← fresh'.marked, List.take_append_drop]

theorem transfer_generates {random : Bytes} {c c' : IdPasskey} (fresh' : Fresh c')
    (generated : generateIdPasskey random = .ok c) :
    generateIdPasskey (transfer c c' random) = .ok c' ∧
      transfer c' c (transfer c c' random) = random := by
  have fresh := fresh_of_generateIdPasskey generated
  obtain ⟨id, rest, last, first, marked, second⟩ := generateIdPasskey_eq_ok.mp generated
  obtain ⟨front, rfl, rfl, many, again⟩ := randomAlphanum_eq_ok first
  obtain ⟨front', split, passkey, many', again'⟩ := randomAlphanum_eq_ok second
  have firstAgain := again _ (Relabel.relabel accepts
    (swaps (Utf8.bytes c.passkey) (Utf8.bytes c'.passkey)) 0 rest)
    (parallel_relabel fresh.id_letters fresh'.id_letters front)
  -- The second call reads the letters of a part of the rest.
  have secondAgain := again' _ ((Relabel.relabel accepts
    (swaps (Utf8.bytes c.passkey) (Utf8.bytes c'.passkey)) 0 rest).drop front'.length)
    (parallel_relabel fresh.passkey_letters fresh'.passkey_letters front')
  have part := Relabel.take_relabel accepts
    (swaps (Utf8.bytes c.passkey) (Utf8.bytes c'.passkey)) 0 front'.length rest
  nth_rewrite 2 [split] at part
  rw [List.take_left] at part
  have read := drop_letters_relabel fresh.passkey_letters fresh'.passkey_letters 0
    fresh.passkey_length fresh'.passkey_length passkey.symm
  rw [List.drop_zero, List.drop_zero] at read
  rw [← part, List.take_append_drop, part, read] at secondAgain
  rw [transfer_append first]
  refine ⟨generateIdPasskey_eq_ok.mpr ⟨_, _, _, firstAgain, ?_, secondAgain⟩, ?_⟩
  · exact eq_mark_relabel fresh fresh' many marked
  · rw [transfer_append firstAgain, relabel_back fresh.id_letters fresh'.id_letters,
      relabel_back fresh.passkey_letters fresh'.passkey_letters]

theorem length_transfer (c' : IdPasskey) {random : Bytes} {c : IdPasskey}
    (generated : generateIdPasskey random = .ok c) :
    (transfer c c' random).length = random.length := by
  obtain ⟨id, rest, last, first, _⟩ := generateIdPasskey_eq_ok.mp generated
  obtain ⟨front, rfl, _⟩ := randomAlphanum_eq_ok first
  rw [transfer_append first, List.length_append, Relabel.length_relabel, Relabel.length_relabel,
    List.length_append]

/-- `n` random bytes that lead to these credentials. -/
def Seeds (n : Nat) (c : IdPasskey) : Type :=
  { random : List.Vector UInt8 n // generateIdPasskey random.toList = .ok c }

instance (n : Nat) (c : IdPasskey) : Finite (Seeds n c) := by
  have : Finite UInt8 := Finite.of_injective UInt8.toFin fun _ _ => UInt8.toFin_inj.mp
  have := Fintype.ofFinite UInt8
  exact Subtype.finite

theorem card_seeds_le (n : Nat) {c c' : IdPasskey} (fresh' : Fresh c') :
    Nat.card (Seeds n c) ≤ Nat.card (Seeds n c') := by
  let move (seed : Seeds n c) : Seeds n c' :=
    ⟨⟨transfer c c' seed.1.toList, by rw [length_transfer c' seed.2, seed.1.toList_length]⟩,
      (transfer_generates fresh' seed.2).1⟩
  refine Nat.card_le_card_of_injective move ?_
  intro seed seed' same
  have bytes : transfer c c' seed.1.toList = transfer c c' seed'.1.toList :=
    congrArg (fun seed => seed.1.toList) same
  apply Subtype.ext
  apply List.Vector.toList_injective
  rw [← (transfer_generates fresh' seed.2).2, bytes, (transfer_generates fresh' seed'.2).2]

/-- One buffer of zeros is enough for an id or a passkey. -/
theorem randomAlphanum_zeros {len : Nat} (few : len ≤ bufLen) (some : 0 < len) (n : Nat) :
    randomAlphanum len (List.replicate (bufLen + n) 0) =
      .ok (List.replicate len 48, List.replicate n 0) := by
  have first : alphanum.getD 0 0 = 48 := by
    rw [alphanum_eq]
    rfl
  have buffer : letters (List.replicate bufLen 0) = List.replicate bufLen 48 := by
    rw [letters, List.filter_replicate_of_pos, List.map_replicate, UInt8.toNat_zero, first]
    rw [accepts, length_alphanum]
    rfl
  have empty : ([] : Bytes).length < len := some
  rw [randomAlphanum, fillLetters, if_pos empty, if_neg (by simp), List.replicate_add,
    List.take_left' List.length_replicate, List.drop_left' List.length_replicate,
    pushLetters_eq empty, List.nil_append, buffer, List.take_replicate, Nat.min_eq_left few,
    fillLetters, if_neg (by simp)]

theorem generateIdPasskey_zeros (n : Nat) :
    ∃ c, generateIdPasskey (List.replicate (2 * bufLen + n) 0) = .ok c := by
  obtain ⟨id, idBytes⟩ : ∃ id, Utf8.bytes id = mark (List.replicate idLen 48) :=
    Utf8.exists_bytes_eq (by decide +kernel)
  obtain ⟨passkey, passkeyBytes⟩ : ∃ passkey, Utf8.bytes passkey = List.replicate passkeyLen 48 :=
    Utf8.exists_bytes_eq (by decide +kernel)
  refine ⟨⟨id, passkey⟩, generateIdPasskey_eq_ok.mpr ⟨List.replicate idLen 48,
    List.replicate (bufLen + n) 0, List.replicate n 0, ?_, idBytes, ?_⟩⟩
  · rw [Nat.two_mul, Nat.add_assoc]
    exact randomAlphanum_zeros (by decide) (by decide) (bufLen + n)
  · rw [passkeyBytes]
    exact randomAlphanum_zeros (by decide) (by decide) n

theorem nonempty_seeds {n : Nat} (enough : 2 * bufLen ≤ n) {c : IdPasskey} (fresh : Fresh c) :
    Nonempty (Seeds n c) := by
  obtain ⟨more, rfl⟩ := Nat.exists_eq_add_of_le enough
  obtain ⟨first, zeros⟩ := generateIdPasskey_zeros more
  refine ⟨⟨⟨transfer first c (List.replicate (2 * bufLen + more) 0), ?_⟩,
    (transfer_generates fresh zeros).1⟩⟩
  rw [length_transfer c zeros, List.length_replicate]

/-- All credentials of the right shape are equally likely, however many random bytes there are;
with two buffers each of them is possible, and no others are ever made. -/
theorem credentials_equally_likely (n : Nat) :
    (∀ c c', Fresh c → Fresh c' → Nat.card (Seeds n c) = Nat.card (Seeds n c')) ∧
    (128 ≤ n → ∀ c, Fresh c → 0 < Nat.card (Seeds n c)) ∧
    ∀ c, ¬ Fresh c → Nat.card (Seeds n c) = 0 := by
  refine ⟨fun c c' fresh fresh' => ?_, fun enough c fresh => ?_, fun c stale => ?_⟩
  · exact Nat.le_antisymm (card_seeds_le n fresh') (card_seeds_le n fresh)
  · have := nonempty_seeds enough fresh
    exact Nat.card_pos
  · have none : IsEmpty (Seeds n c) := ⟨fun seed => stale (fresh_of_generateIdPasskey seed.2)⟩
    exact Nat.card_of_isEmpty

end Et.Ssh
