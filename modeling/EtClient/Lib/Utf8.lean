import EtClient.Lib.Search
import Mathlib.Data.List.TakeWhile

/-!
# UTF-8

A string is the bytes that encode its characters. An ASCII byte stands in an encoding for its
own character only, so what is known of the ASCII bytes of a string is known of its characters.

A lossy decoder makes a string of any bytes. `Decodes` says what one may do: it keeps the
characters that the bytes encode, in their order, and writes one or more replacement characters
for a run of bytes outside ASCII. The string it makes is a blur of the bytes, with everything
outside ASCII as the noise.
-/

namespace Utf8

/-- The bytes of a string. -/
def bytes (s : String) : List UInt8 := s.toUTF8.data.toList

/-- The string with these bytes, if they encode one. -/
def decode? (bs : List UInt8) : Option String := String.fromUTF8? bs.toByteArray

theorem bytes_ofList (cs : List Char) :
    bytes (String.ofList cs) = cs.flatMap String.utf8EncodeChar := by
  rw [bytes, String.toUTF8_eq_toByteArray, String.toByteArray_ofList, List.utf8Encode,
    List.data_toByteArray]

theorem bytes_eq (s : String) : bytes s = s.toList.flatMap String.utf8EncodeChar := by
  rw [← bytes_ofList, String.ofList_toList]

@[simp] theorem bytes_append (s t : String) : bytes (s ++ t) = bytes s ++ bytes t := by
  rw [bytes_eq, bytes_eq, bytes_eq, String.toList_append, List.flatMap_append]

theorem toByteArray_bytes (s : String) : (bytes s).toByteArray = s.toByteArray := by
  apply ByteArray.ext
  rw [List.data_toByteArray, bytes, String.toUTF8_eq_toByteArray]

theorem decode?_eq_some {bs : List UInt8} {s : String} : decode? bs = some s ↔ bytes s = bs := by
  constructor
  · intro decoded
    rw [decode?, String.fromUTF8?] at decoded
    split at decoded
    · cases decoded
      exact congrArg Array.toList List.data_toByteArray
    · cases decoded
  · rintro rfl
    rw [decode?, toByteArray_bytes, String.fromUTF8?, dif_pos s.isValidUTF8]
    rfl

@[simp] theorem decode?_bytes (s : String) : decode? (bytes s) = some s := decode?_eq_some.mpr rfl

/-- An ASCII byte is the encoding of the character with its number. -/
theorem encode_ofUInt8 {b : UInt8} (ascii : b < 128) :
    String.utf8EncodeChar (Char.ofUInt8 b) = [b] := by
  have value : (Char.ofUInt8 b).val = b.toUInt32 := rfl
  have small : (Char.ofUInt8 b).utf8Size = 1 := by
    rw [Char.utf8Size_eq_one_iff, value, UInt32.le_iff_toNat_le, UInt8.toNat_toUInt32]
    exact Nat.le_of_lt_succ (UInt8.lt_iff_toNat_lt.mp ascii)
  rw [String.utf8EncodeChar_eq_singleton small, value, UInt8.toUInt8_toUInt32]

/-- ASCII bytes are the bytes of a string. -/
theorem exists_bytes_eq {bs : List UInt8} (ascii : ∀ b ∈ bs, b < 128) : ∃ s, bytes s = bs := by
  refine ⟨String.ofList (bs.map Char.ofUInt8), ?_⟩
  rw [bytes_ofList]
  induction bs with
  | nil => rfl
  | cons b bs ih =>
      have ⟨asciiHead, asciiTail⟩ := List.forall_mem_cons.mp ascii
      rw [List.map_cons, List.flatMap_cons, encode_ofUInt8 asciiHead, ih asciiTail,
        List.singleton_append]

/-- Cuts a string at the first separator. -/
def splitOnce (s : String) (sep : Char) : Option (String × String) :=
  if sep ∈ s.toList then
    some (String.ofList (s.toList.takeWhile (· ≠ sep)),
      String.ofList (s.toList.dropWhile (· ≠ sep)).tail)
  else none

theorem eq_takeWhile_append_of_mem {sep : Char} {l : List Char} (mem : sep ∈ l) :
    l = l.takeWhile (· ≠ sep) ++ sep :: (l.dropWhile (· ≠ sep)).tail := by
  induction l with
  | nil => cases mem
  | cons c l ih =>
      by_cases same : c = sep
      · simp [same]
      · have later : sep ∈ l := by simpa [Ne.symm same] using mem
        simpa [same] using ih later

theorem splitOnce_eq_some {s : String} {sep : Char} {first second : String} :
    splitOnce s sep = some (first, second) ↔
      s = first ++ String.singleton sep ++ second ∧ sep ∉ first.toList := by
  constructor
  · intro cut
    rw [splitOnce] at cut
    split at cut
    · rename_i mem
      cases cut
      refine ⟨?_, ?_⟩
      · rw [← String.toList_inj, String.toList_append, String.toList_append,
          String.toList_singleton, String.toList_ofList, String.toList_ofList,
          List.append_assoc, List.singleton_append]
        exact eq_takeWhile_append_of_mem mem
      · rw [String.toList_ofList]
        intro front
        simpa using List.mem_takeWhile_imp front
    · cases cut
  · rintro ⟨rfl, apart⟩
    have text : (first ++ String.singleton sep ++ second).toList =
        first.toList ++ sep :: second.toList := by
      rw [String.toList_append, String.toList_append, String.toList_singleton,
        List.append_assoc, List.singleton_append]
    have other : ∀ c ∈ first.toList, decide (c ≠ sep) = true := by
      intro c mem
      exact decide_eq_true (fun same => apart (same ▸ mem))
    rw [splitOnce, text, if_pos (by simp), List.takeWhile_append_of_pos other,
      List.dropWhile_append_of_pos other, List.takeWhile_cons_of_neg (by simp),
      List.dropWhile_cons_of_neg (by simp), List.append_nil, List.tail_cons,
      String.ofList_toList, String.ofList_toList]

/-- A replacement character stands for one or more bytes that are not ASCII. -/
inductive Decodes : List UInt8 → List Char → Prop
  | nil : Decodes [] []
  | char (c : Char) {bs : List UInt8} {cs : List Char} : Decodes bs cs →
      Decodes (String.utf8EncodeChar c ++ bs) (c :: cs)
  | replaced {run : List UInt8} (n : Nat) {bs : List UInt8} {cs : List Char} :
      run ≠ [] → (∀ b ∈ run, 128 ≤ b) → Decodes bs cs →
      Decodes (run ++ bs) (List.replicate (n + 1) (Char.ofNat 0xFFFD) ++ cs)

/-- A decoder that makes a string of any bytes. -/
structure Lossy where
  decode : List UInt8 → String
  decodes : ∀ bs, Decodes bs (decode bs).toList

/-- What a lossy decoder makes of bytes differs from them in nothing that is ASCII. -/
theorem Decodes.blurs {bs : List UInt8} {cs : List Char} (decodes : Decodes bs cs) :
    Search.Blurs (128 ≤ ·) bs (cs.flatMap String.utf8EncodeChar) := by
  induction decodes with
  | nil => exact .nil
  | char c _ ih =>
      rw [List.flatMap_cons]
      exact (Search.Blurs.refl _ _).append ih
  | replaced n nonempty noise _ ih =>
      rw [List.flatMap_append]
      have marks : (String.utf8EncodeChar (Char.ofNat 0xFFFD)).all (128 ≤ ·) := by decide
      refine .run nonempty ?_ noise ?_ ih
      · rw [List.replicate_succ, List.flatMap_cons]
        exact List.append_ne_nil_of_left_ne_nil (by decide) _
      · intro b mem
        obtain ⟨c, member, within⟩ := List.mem_flatMap.mp mem
        rw [List.eq_of_mem_replicate member] at within
        exact of_decide_eq_true (List.all_eq_true.mp marks b within)

theorem Lossy.blurs (lossy : Lossy) (bs : List UInt8) :
    Search.Blurs (128 ≤ ·) bs (bytes (lossy.decode bs)) := by
  rw [bytes_eq]
  exact (lossy.decodes bs).blurs

def isContinuation (b : UInt8) : Bool := 0x80 ≤ b && b ≤ 0xBF

/-- The two bytes begin a character of three or four bytes. -/
def leads (first second : UInt8) : Bool :=
  first == 0xE0 && 0xA0 ≤ second && second ≤ 0xBF ||
  0xE1 ≤ first && first ≤ 0xEC && isContinuation second ||
  first == 0xED && 0x80 ≤ second && second ≤ 0x9F ||
  0xEE ≤ first && first ≤ 0xEF && isContinuation second ||
  first == 0xF0 && 0x90 ≤ second && second ≤ 0xBF ||
  0xF1 ≤ first && first ≤ 0xF3 && isContinuation second ||
  first == 0xF4 && 0x80 ≤ second && second ≤ 0x8F

/-- How many bytes behind `first` belong to the character that it begins, when there is no
whole character there. -/
def stumpLength (first : UInt8) : List UInt8 → Nat
  | [] => 0
  | second :: rest =>
    if leads first second then
      if 0xF0 ≤ first && rest.head?.any isContinuation then 2 else 1
    else 0

/-- Decodes character by character, with one replacement for the begin of a character that
breaks off and for a byte that begins none. -/
def decodeLossy : List UInt8 → List Char
  | [] => []
  | b :: bs =>
    match (b :: bs).toByteArray.utf8DecodeChar? 0 with
    | some c => c :: decodeLossy (bs.drop (c.utf8Size - 1))
    | none => Char.ofNat 0xFFFD :: decodeLossy (bs.drop (stumpLength b bs))
  termination_by bs => bs.length
  decreasing_by
    all_goals
      rw [List.length_drop, List.length_cons]
      omega

theorem eq_of_utf8DecodeChar?_eq_some {b : UInt8} {bs : List UInt8} {c : Char}
    (decoded : (b :: bs).toByteArray.utf8DecodeChar? 0 = some c) :
    b :: bs = String.utf8EncodeChar c ++ bs.drop (c.utf8Size - 1) := by
  obtain ⟨rest, whole⟩ := ByteArray.exists_of_utf8DecodeChar?_eq_some decoded
  have listed := congrArg (fun array => array.data.toList) whole
  simp only [List.data_toByteArray, ByteArray.data_append, Array.toList_append] at listed
  have size := c.utf8Size_pos
  have behind : (b :: bs).drop c.utf8Size = rest.data.toList := by
    rw [listed, ← String.length_utf8EncodeChar, List.drop_left]
  rw [← Nat.sub_add_cancel size, List.drop_succ_cons] at behind
  rw [behind, listed]

theorem not_ascii_of_utf8DecodeChar?_eq_none {b : UInt8} {bs : List UInt8}
    (undecoded : (b :: bs).toByteArray.utf8DecodeChar? 0 = none) : 128 ≤ b := by
  by_contra ascii
  have encoded := encode_ofUInt8 (UInt8.not_le.mp ascii)
  have whole : (b :: bs).toByteArray =
      (String.utf8EncodeChar (Char.ofUInt8 b)).toByteArray ++ bs.toByteArray := by
    rw [encoded, ← List.toByteArray_append, List.singleton_append]
  rw [whole, ByteArray.utf8DecodeChar?_utf8EncodeChar_append] at undecoded
  cases undecoded

theorem not_ascii_of_leads {first second : UInt8} (begun : leads first second) :
    128 ≤ second := by
  simp only [leads, isContinuation, Bool.or_eq_true, Bool.and_eq_true, decide_eq_true_eq,
    UInt8.le_iff_toNat_le] at begun ⊢
  simp at begun ⊢
  omega

theorem not_ascii_of_mem_stump {first : UInt8} {bs : List UInt8} {b : UInt8}
    (mem : b ∈ bs.take (stumpLength first bs)) : 128 ≤ b := by
  cases bs with
  | nil => cases mem
  | cons second rest =>
      rw [stumpLength] at mem
      split at mem
      · rename_i begun
        split at mem
        · rename_i more
          cases rest with
          | nil => simp at more
          | cons third rest =>
              simp [isContinuation] at more mem
              rcases mem with rfl | rfl
              · exact not_ascii_of_leads begun
              · exact more.2.1
        · simp at mem
          exact mem ▸ not_ascii_of_leads begun
      · simp at mem

theorem decodes_decodeLossy (bs : List UInt8) : Decodes bs (decodeLossy bs) := by
  fun_induction decodeLossy bs with
  | case1 => exact .nil
  | case2 b bs c decoded ih =>
      rw [eq_of_utf8DecodeChar?_eq_some decoded]
      exact .char c ih
  | case3 b bs undecoded ih =>
      have noise : ∀ x ∈ b :: bs.take (stumpLength b bs), 128 ≤ x :=
        List.forall_mem_cons.mpr ⟨not_ascii_of_utf8DecodeChar?_eq_none undecoded,
          fun _ mem => not_ascii_of_mem_stump mem⟩
      have replaced := Decodes.replaced 0 (List.cons_ne_nil b _) noise ih
      rwa [List.cons_append, List.take_append_drop] at replaced

/-- `String::from_utf8_lossy` of Rust's standard library. -/
def fromUtf8Lossy : Lossy where
  decode bs := String.ofList (decodeLossy bs)
  decodes bs := by
    rw [String.toList_ofList]
    exact decodes_decodeLossy bs

end Utf8
