import EtClient.Forward.Tunnels
import Mathlib.Data.List.Forall2

/-!
# The grammar of tunnel arguments

`Tunnel` says what one tunnel looks like and which requests it stands for, without regard
to how it is read: a pair of ports, a pair of ascending ranges of one length, or an ssh
tuple whose names may stand in square brackets. `Denotes` is the list of them.

`Lenient` is the grammar of what the parser takes. A port may have a sign there, and the ssh
form may have brackets anywhere, also inside a port or a name. The parser accepts exactly the
lenient grammar, every tunnel is lenient, and so it meets the grammar of tunnels at every
argument but the loose ones: those that are lenient throughout and somewhere not a tunnel.
-/

namespace Et

namespace Forward

open Text

variable {s : List Char} {input : String} {out : List PortForwardSourceRequest}

/-- The text of a port. -/
def IsPort (s : List Char) (port : Nat) : Prop := Decimal s port ∧ port ≤ 65535

def Unbracketed (s : List Char) : Prop := '[' ∉ s ∧ ']' ∉ s

instance (s : List Char) : Decidable (Unbracketed s) := inferInstanceAs (Decidable (_ ∧ _))

/-- The texts of a name. A name with colons stands in brackets. -/
inductive IsName : List Char → List Char → Prop
  | plain {name : List Char} (comma : ',' ∉ name) (unbracketed : Unbracketed name)
      (colon : ':' ∉ name) : IsName name name
  | bracketed {name : List Char} (comma : ',' ∉ name) (unbracketed : Unbracketed name) :
      IsName ('[' :: name ++ [']']) name

/-- The request of an ssh tuple. -/
def sshRequest (bindAddress : List Char) (port : Nat) (host : List Char) (hostPort : Nat) :
    PortForwardSourceRequest where
  source := some (endpoint (some (String.ofList bindAddress)) (some (Int32.ofNat port)))
  destination := some (endpoint (some (String.ofList host)) (some (Int32.ofNat hostPort)))

/-- The requests from one range of ports to another, as long as `extra` more ports say. -/
def rangeRequests (source destination extra : Nat) : List PortForwardSourceRequest :=
  (List.range (extra + 1)).map fun i =>
    localRequest (Int32.ofNat (source + i)) (Int32.ofNat (destination + i))

/-- The texts of one tunnel and the requests it stands for. -/
inductive Tunnel : List Char → List PortForwardSourceRequest → Prop
  | pair {src dst : List Char} {source destination : Nat} (first : IsPort src source)
      (second : IsPort dst destination) :
      Tunnel (src ++ ':' :: dst) [localRequest (Int32.ofNat source) (Int32.ofNat destination)]
  | range {srcFirst srcLast dstFirst dstLast : List Char} {srcStart srcEnd dstStart dstEnd : Nat}
      (first : IsPort srcFirst srcStart) (second : IsPort srcLast srcEnd)
      (third : IsPort dstFirst dstStart) (fourth : IsPort dstLast dstEnd)
      (ascending : srcStart ≤ srcEnd) (ascending' : dstStart ≤ dstEnd)
      (same : srcEnd - srcStart = dstEnd - dstStart) :
      Tunnel ((srcFirst ++ '-' :: srcLast) ++ ':' :: (dstFirst ++ '-' :: dstLast))
        (rangeRequests srcStart dstStart (srcEnd - srcStart))
  | ssh {first second third fourth bindAddress host : List Char} {port hostPort : Nat}
      (bound : IsName first bindAddress) (bindPort : IsPort second port)
      (target : IsName third host) (targetPort : IsPort fourth hostPort) :
      Tunnel (first ++ ':' :: (second ++ ':' :: (third ++ ':' :: fourth)))
        [sshRequest bindAddress port host hostPort]

/-- The texts that are read as a port, with a sign or without. -/
def ReadsPort (s : List Char) (port : Nat) : Prop := Signed s port ∧ port ≤ 65535

/-- A bracket is open behind the text: nothing closes it. -/
def Opened (s : List Char) : Prop := ∃ before after, s = before ++ '[' :: after ∧ ']' ∉ after

/-- The texts of a field in the lenient form of ssh. Brackets stand anywhere, and colons only
where one is open. -/
def IsField (s : List Char) : Prop := ∀ before after, s = before ++ ':' :: after → Opened before

def eraseBrackets (s : List Char) : List Char := s.filter fun c => c ≠ '[' ∧ c ≠ ']'

/-- The texts of one element that are accepted and the requests they are read as. In the style of
et one of the two sides has no sign. -/
inductive Lenient : List Char → List PortForwardSourceRequest → Prop
  | pair {src dst : List Char} {source destination : Nat} (first : ReadsPort src source)
      (second : ReadsPort dst destination) (hyphens : '-' ∉ src ∧ '-' ∉ dst)
      (plain : IsPort src source ∨ IsPort dst destination) :
      Lenient (src ++ ':' :: dst) [localRequest (Int32.ofNat source) (Int32.ofNat destination)]
  | range {srcFirst srcLast dstFirst dstLast : List Char} {srcStart srcEnd dstStart dstEnd : Nat}
      (first : ReadsPort srcFirst srcStart) (second : ReadsPort srcLast srcEnd)
      (third : ReadsPort dstFirst dstStart) (fourth : ReadsPort dstLast dstEnd)
      (srcHyphens : '-' ∉ srcFirst ∧ '-' ∉ srcLast) (dstHyphens : '-' ∉ dstFirst ∧ '-' ∉ dstLast)
      (plain : IsPort srcFirst srcStart ∧ IsPort srcLast srcEnd ∨
        IsPort dstFirst dstStart ∧ IsPort dstLast dstEnd)
      (ascending : srcStart ≤ srcEnd) (ascending' : dstStart ≤ dstEnd)
      (same : srcEnd - srcStart = dstEnd - dstStart) :
      Lenient ((srcFirst ++ '-' :: srcLast) ++ ':' :: (dstFirst ++ '-' :: dstLast))
        (rangeRequests srcStart dstStart (srcEnd - srcStart))
  | ssh {first second third fourth : List Char} {port hostPort : Nat}
      (fields : IsField first ∧ IsField second ∧ IsField third ∧ IsField fourth)
      (closed : ¬Opened first ∧ ¬Opened second ∧ ¬Opened third)
      (bindPort : ReadsPort (eraseBrackets second) port)
      (targetPort : ReadsPort (eraseBrackets fourth) hostPort) :
      Lenient (first ++ ':' :: (second ++ ':' :: (third ++ ':' :: fourth)))
        [sshRequest (eraseBrackets first) port (eraseBrackets third) hostPort]

/-- The trimmed elements that are not empty. -/
def tunnelsOf (elements : List (List Char)) : List (List Char) :=
  (elements.map trim).filter (· ≠ [])

def elements (input : String) : List (List Char) := tunnelsOf (input.toList.splitOn ',')

/-- Every element is a tunnel, and `out` has their requests in order. -/
def Denotes (input : String) (out : List PortForwardSourceRequest) : Prop :=
  ∃ parts, List.Forall₂ Tunnel (elements input) parts ∧ out = parts.flatten

/-- The same for the lenient grammar. -/
def Accepts (input : String) (out : List PortForwardSourceRequest) : Prop :=
  ∃ parts, List.Forall₂ Lenient (elements input) parts ∧ out = parts.flatten

/-- Every element is lenient, and one of them is not a tunnel. -/
def Loose (input : String) : Prop :=
  (∀ element ∈ elements input, ∃ requests, Lenient element requests) ∧
    ∃ element ∈ elements input, ∀ requests, ¬Tunnel element requests

theorem IsPort.reads {port : Nat} (isPort : IsPort s port) : ReadsPort s port :=
  ⟨.plain isPort.1, isPort.2⟩

theorem ReadsPort.parsePort {port : Nat} (reads : ReadsPort s port) :
    parsePort s input = .ok (Int32.ofNat port) := by
  obtain ⟨signed, small⟩ := reads
  have read : parseSigned (-2 ^ 63) (2 ^ 63 - 1) s = some (port : Int) :=
    parseSigned_eq_some.mpr ⟨signed, by omega, by omega⟩
  rw [Forward.parsePort, read]
  simp only
  rw [if_pos (by omega), Int32.ofInt_eq_ofNat]

theorem parsePort_eq_ok {value : Int32} :
    parsePort s input = .ok value ↔ ∃ port, ReadsPort s port ∧ value = Int32.ofNat port := by
  constructor
  · intro parsed
    rw [parsePort] at parsed
    split at parsed
    · cases parsed
    · rename_i read
      split at parsed
      · rename_i small
        obtain ⟨port, rfl⟩ := Int.eq_ofNat_of_zero_le small.1
        cases parsed
        exact ⟨port, ⟨(parseSigned_eq_some.mp read).1, by omega⟩, Int32.ofInt_eq_ofNat⟩
      · cases parsed
  · rintro ⟨port, reads, rfl⟩
    exact reads.parsePort

/-- A port that is read from digits has no sign. -/
theorem ReadsPort.isPort {port : Nat} (reads : ReadsPort s port) (digits : ∀ c ∈ s, c.isDigit) :
    IsPort s port := by
  obtain ⟨n, decimal, same⟩ := reads.1.decimal digits
  obtain rfl : port = n := by omega
  exact ⟨decimal, reads.2⟩

theorem toInt_port {port : Nat} (small : port ≤ 65535) : (Int32.ofNat port).toInt = port :=
  Int32.toInt_ofNat_of_lt (by omega)

theorem port_lt_iff {a b : Nat} (first : a ≤ 65535) (second : b ≤ 65535) :
    Int32.ofNat a < Int32.ofNat b ↔ a < b := by
  rw [Int32.lt_iff_toInt_lt, toInt_port first, toInt_port second]
  omega

/-- The length of an ascending range of ports. -/
theorem port_sub {a b : Nat} (ascending : a ≤ b) :
    Int32.ofNat b - Int32.ofNat a = Int32.ofNat (b - a) := by
  rw [← Int32.ofInt_eq_ofNat, ← Int32.ofInt_eq_ofNat, ← Int32.ofInt_eq_ofNat, ← Int32.ofInt_sub,
    Int.ofNat_sub ascending]

theorem port_inj {a b : Nat} (first : a ≤ 65535) (second : b ≤ 65535) :
    Int32.ofNat a = Int32.ofNat b ↔ a = b := by
  rw [← Int32.toInt_inj, toInt_port first, toInt_port second]
  omega

theorem IsPort.numericOrRange {port : Nat} (isPort : IsPort s port) : numericOrRange s := by
  have nonempty := isPort.1.nonempty
  have digits := isPort.1.digits
  simp_all [Forward.numericOrRange]

theorem isSocketPath_of_not_mem (path : '/' ∉ s) : isSocketPath s = false := by
  rw [isSocketPath, beq_eq_false_iff_ne]
  intro head
  exact path (List.mem_of_mem_head? head)

theorem IsPort.not_mem {port : Nat} (isPort : IsPort s port) {c : Char}
    (other : c.isDigit = false) : c ∉ s := isPort.1.not_mem other

theorem ReadsPort.isSocketPath {port : Nat} (reads : ReadsPort s port) :
    isSocketPath s = false :=
  isSocketPath_of_not_mem (reads.1.not_mem rfl (by decide) (by decide))

theorem digits_of_numericOrRange {text : List Char} (numeric : numericOrRange text)
    (hyphen : '-' ∉ s) (within : s ⊆ text) : ∀ c ∈ s, c.isDigit := by
  intro c mem
  rw [numericOrRange, Bool.and_eq_true, List.all_eq_true] at numeric
  have class_ := numeric.2 c (within mem)
  rw [Bool.or_eq_true, beq_iff_eq] at class_
  exact class_.resolve_right (by rintro rfl; exact hyphen mem)

theorem processEtStyle_pair {src dst : List Char} {source destination : Nat}
    (first : ReadsPort src source) (second : ReadsPort dst destination)
    (hyphens : '-' ∉ src ∧ '-' ∉ dst) (plain : IsPort src source ∨ IsPort dst destination) :
    processEtStyle [src, dst] input =
      .ok [localRequest (Int32.ofNat source) (Int32.ofNat destination)] := by
  have numeric : (!numericOrRange src && !numericOrRange dst && !src.isEmpty) = false := by
    rcases plain with isPort | isPort <;> simp [isPort.numericOrRange]
  simp [processEtStyle, first.isSocketPath, second.isSocketPath, numeric, hyphens, first.parsePort,
    second.parsePort, pure, Except.pure, bind, Except.bind]

/-- What a pair of ascending ranges of one length is read as. -/
theorem processRange_eq_ok {srcFirst srcLast dstFirst dstLast : List Char}
    {src dst : List Char} (srcParts : src.splitOn '-' = [srcFirst, srcLast])
    (dstParts : dst.splitOn '-' = [dstFirst, dstLast]) :
    processRange src dst input = .ok out ↔
      ∃ srcStart srcEnd dstStart dstEnd, ReadsPort srcFirst srcStart ∧ ReadsPort srcLast srcEnd ∧
        ReadsPort dstFirst dstStart ∧ ReadsPort dstLast dstEnd ∧ srcStart ≤ srcEnd ∧
        dstStart ≤ dstEnd ∧ srcEnd - srcStart = dstEnd - dstStart ∧
        out = rangeRequests srcStart dstStart (srcEnd - srcStart) := by
  simp only [processRange, srcParts, dstParts]
  constructor
  · intro parsed
    obtain ⟨_, srcRead, parsed⟩ := bind_eq_ok.mp parsed
    obtain ⟨srcStart, first, rfl⟩ := parsePort_eq_ok.mp srcRead
    obtain ⟨_, srcRead', parsed⟩ := bind_eq_ok.mp parsed
    obtain ⟨srcEnd, second, rfl⟩ := parsePort_eq_ok.mp srcRead'
    obtain ⟨_, dstRead, parsed⟩ := bind_eq_ok.mp parsed
    obtain ⟨dstStart, third, rfl⟩ := parsePort_eq_ok.mp dstRead
    obtain ⟨_, dstRead', parsed⟩ := bind_eq_ok.mp parsed
    obtain ⟨dstEnd, fourth, rfl⟩ := parsePort_eq_ok.mp dstRead'
    split at parsed
    · cases parsed
    · rename_i descending
      rw [port_lt_iff second.2 first.2, port_lt_iff fourth.2 third.2] at descending
      have ascending : srcStart ≤ srcEnd := by omega
      have ascending' : dstStart ≤ dstEnd := by omega
      have extra : srcEnd - srcStart ≤ 65535 := by have := second.2; omega
      have extra' : dstEnd - dstStart ≤ 65535 := by have := fourth.2; omega
      rw [port_sub ascending, port_sub ascending'] at parsed
      split at parsed
      · cases parsed
      · rename_i same
        rw [toInt_port extra, Int.toNat_natCast] at parsed
        refine ⟨srcStart, srcEnd, dstStart, dstEnd, first, second, third, fourth, ascending,
          ascending', (port_inj extra extra').mp (not_not.mp same), ?_⟩
        rw [← Except.ok.inj parsed, rangeRequests]
        simp only [Int32.ofNat_add]
  · rintro ⟨srcStart, srcEnd, dstStart, dstEnd, first, second, third, fourth, ascending,
      ascending', same, rfl⟩
    have extra : srcEnd - srcStart ≤ 65535 := by have := second.2; omega
    have length : (Int32.ofNat srcEnd - Int32.ofNat srcStart).toInt.toNat = srcEnd - srcStart := by
      rw [port_sub ascending, toInt_port extra, Int.toNat_natCast]
    rw [first.parsePort, second.parsePort, third.parsePort, fourth.parsePort]
    simp only [bind, Except.bind]
    rw [if_neg, if_neg, length, rangeRequests]
    · simp only [Int32.ofNat_add]
    · rw [port_sub ascending, port_sub ascending', same]
      simp
    · rw [port_lt_iff second.2 first.2, port_lt_iff fourth.2 third.2]
      omega

theorem processEtStyle_range {srcFirst srcLast dstFirst dstLast : List Char}
    {srcStart srcEnd dstStart dstEnd : Nat} (first : ReadsPort srcFirst srcStart)
    (second : ReadsPort srcLast srcEnd) (third : ReadsPort dstFirst dstStart)
    (fourth : ReadsPort dstLast dstEnd) (srcHyphens : '-' ∉ srcFirst ∧ '-' ∉ srcLast)
    (dstHyphens : '-' ∉ dstFirst ∧ '-' ∉ dstLast)
    (plain : IsPort srcFirst srcStart ∧ IsPort srcLast srcEnd ∨
      IsPort dstFirst dstStart ∧ IsPort dstLast dstEnd)
    (ascending : srcStart ≤ srcEnd) (ascending' : dstStart ≤ dstEnd)
    (same : srcEnd - srcStart = dstEnd - dstStart) :
    processEtStyle [srcFirst ++ '-' :: srcLast, dstFirst ++ '-' :: dstLast] input =
      .ok (rangeRequests srcStart dstStart (srcEnd - srcStart)) := by
  have path {a b : List Char} {m n : Nat} (left : ReadsPort a m) (right : ReadsPort b n) :
      isSocketPath (a ++ '-' :: b) = false := by
    apply isSocketPath_of_not_mem
    simp [left.1.not_mem (c := '/') rfl (by decide) (by decide),
      right.1.not_mem (c := '/') rfl (by decide) (by decide)]
  have numeric {a b : List Char} {m n : Nat} (left : IsPort a m) (right : IsPort b n) :
      numericOrRange (a ++ '-' :: b) := by
    have digits := left.1.digits
    have digits' := right.1.digits
    simp_all [numericOrRange]
  have pipe : (!numericOrRange (srcFirst ++ '-' :: srcLast) &&
      !numericOrRange (dstFirst ++ '-' :: dstLast) &&
      !(srcFirst ++ '-' :: srcLast).isEmpty) = false := by
    rcases plain with ⟨left, right⟩ | ⟨left, right⟩ <;> simp [numeric left right]
  have read := (@processRange_eq_ok input _ _ _ _ _ _ _ (splitOn_pair srcHyphens)
    (splitOn_pair dstHyphens)).mpr ⟨srcStart, srcEnd, dstStart, dstEnd, first, second, third,
      fourth, ascending, ascending', same, rfl⟩
  simp [processEtStyle, path first second, path third fourth, pipe, read]

/-- An element that is read in the style of et. -/
theorem lenient_of_processEtStyle {src dst : List Char}
    (parsed : processEtStyle [src, dst] input = .ok out) : Lenient (src ++ ':' :: dst) out := by
  simp only [processEtStyle] at parsed
  split at parsed
  · cases parsed
  split at parsed
  · cases parsed
  rename_i pipe
  have numeric : src ≠ [] → numericOrRange src ∨ numericOrRange dst := by
    intro nonempty
    by_contra neither
    simp_all
  split at parsed
  · have parts : ∃ srcFirst srcLast dstFirst dstLast, src.splitOn '-' = [srcFirst, srcLast] ∧
        dst.splitOn '-' = [dstFirst, dstLast] := by
      rw [processRange] at parsed
      split at parsed
      · rename_i srcParts dstParts
        exact ⟨_, _, _, _, srcParts, dstParts⟩
      · cases parsed
    obtain ⟨srcFirst, srcLast, dstFirst, dstLast, srcParts, dstParts⟩ := parts
    obtain ⟨srcStart, srcEnd, dstStart, dstEnd, first, second, third, fourth, ascending,
      ascending', same, rfl⟩ := (processRange_eq_ok srcParts dstParts).mp parsed
    have srcFirstPart := @mem_splitOn '-' src srcFirst (by simp [srcParts])
    have srcLastPart := @mem_splitOn '-' src srcLast (by simp [srcParts])
    have dstFirstPart := @mem_splitOn '-' dst dstFirst (by simp [dstParts])
    have dstLastPart := @mem_splitOn '-' dst dstLast (by simp [dstParts])
    have plain : IsPort srcFirst srcStart ∧ IsPort srcLast srcEnd ∨
        IsPort dstFirst dstStart ∧ IsPort dstLast dstEnd := by
      refine (numeric ?_).imp ?_ ?_
      · rintro rfl
        cases srcParts
      · intro digits
        exact ⟨first.isPort (digits_of_numericOrRange digits srcFirstPart.1 srcFirstPart.2),
          second.isPort (digits_of_numericOrRange digits srcLastPart.1 srcLastPart.2)⟩
      · intro digits
        exact ⟨third.isPort (digits_of_numericOrRange digits dstFirstPart.1 dstFirstPart.2),
          fourth.isPort (digits_of_numericOrRange digits dstLastPart.1 dstLastPart.2)⟩
    rw [eq_of_splitOn_eq_pair srcParts, eq_of_splitOn_eq_pair dstParts]
    exact .range first second third fourth ⟨srcFirstPart.1, srcLastPart.1⟩
      ⟨dstFirstPart.1, dstLastPart.1⟩ plain ascending ascending' same
  split at parsed
  · cases parsed
  · rename_i hyphens
    have srcHyphen : '-' ∉ src := by simp_all
    have dstHyphen : '-' ∉ dst := by simp_all
    obtain ⟨_, srcRead, parsed⟩ := bind_eq_ok.mp parsed
    obtain ⟨source, first, rfl⟩ := parsePort_eq_ok.mp srcRead
    obtain ⟨_, dstRead, parsed⟩ := bind_eq_ok.mp parsed
    obtain ⟨target, second, rfl⟩ := parsePort_eq_ok.mp dstRead
    cases parsed
    refine .pair first second ⟨srcHyphen, dstHyphen⟩ ((numeric first.1.nonempty).imp ?_ ?_)
    · exact fun digits => first.isPort (digits_of_numericOrRange digits srcHyphen fun _ => id)
    · exact fun digits => second.isPort (digits_of_numericOrRange digits dstHyphen fun _ => id)

/-- The parts of an element between the colons outside brackets, with their brackets. -/
def fields (inBrackets : Bool) : List Char → List (List Char)
  | [] => [[]]
  | c :: s =>
      if c = '[' then (fields true s).modifyHead (c :: ·)
      else if c = ']' then (fields false s).modifyHead (c :: ·)
      else if c = ':' ∧ inBrackets = false then [] :: fields false s
      else (fields inBrackets s).modifyHead (c :: ·)

theorem fields_ne_nil (inBrackets : Bool) (s : List Char) : fields inBrackets s ≠ [] := by
  induction s generalizing inBrackets with
  | nil => simp [fields]
  | cons c s ih =>
      simp only [fields]
      split_ifs <;> simp [List.modifyHead_eq_nil_iff, ih]

/-- The scanner cuts the element into its fields and drops their brackets. -/
theorem scan_eq (scan : Scan) (s : List Char) :
    (s.foldl Scan.push scan).parts ++ [(s.foldl Scan.push scan).current] =
      scan.parts ++
        ((fields scan.inBrackets s).map eraseBrackets).modifyHead (scan.current ++ ·) := by
  induction s generalizing scan with
  | nil => simp [fields, eraseBrackets]
  | cons c s ih =>
      rw [List.foldl_cons, ih, Scan.push, fields]
      split_ifs with opens closes colon
      · obtain ⟨head, tail, parts⟩ := List.exists_cons_of_ne_nil (fields_ne_nil true s)
        simp [parts, opens, eraseBrackets]
      · obtain ⟨head, tail, parts⟩ := List.exists_cons_of_ne_nil (fields_ne_nil false s)
        simp [parts, closes, eraseBrackets]
      · obtain ⟨head, tail, parts⟩ := List.exists_cons_of_ne_nil (fields_ne_nil false s)
        simp [parts, colon, eraseBrackets]
      · obtain ⟨head, tail, parts⟩ :=
          List.exists_cons_of_ne_nil (fields_ne_nil scan.inBrackets s)
        simp [parts, opens, closes, eraseBrackets]

/-- The parts that `parse_ssh_tunnel_arg` finds. -/
theorem parseSshTunnelArg_eq_ok {parts : List Char × List Char × List Char × List Char} :
    parseSshTunnelArg s = .ok parts ↔ ∃ first second third fourth,
      fields false s = [first, second, third, fourth] ∧
      parts = (eraseBrackets first, eraseBrackets second, eraseBrackets third,
        eraseBrackets fourth) := by
  have scanned : (s.foldl Scan.push ⟨[], [], false⟩).parts ++
      [(s.foldl Scan.push ⟨[], [], false⟩).current] = (fields false s).map eraseBrackets := by
    obtain ⟨head, tail, split⟩ := List.exists_cons_of_ne_nil (fields_ne_nil false s)
    rw [scan_eq, split]
    rfl
  simp only [parseSshTunnelArg, scanned]
  constructor
  · intro parsed
    split at parsed
    · rename_i erased
      obtain ⟨first, _, split, rfl, later⟩ := List.map_eq_cons_iff.mp erased
      obtain ⟨second, _, rfl, rfl, later'⟩ := List.map_eq_cons_iff.mp later
      obtain ⟨third, _, rfl, rfl, last⟩ := List.map_eq_cons_iff.mp later'
      obtain ⟨fourth, _, rfl, rfl, none⟩ := List.map_eq_cons_iff.mp last
      obtain rfl := List.map_eq_nil_iff.mp none
      exact ⟨first, second, third, fourth, split, (Except.ok.inj parsed).symm⟩
    · split at parsed <;> cases parsed
  · rintro ⟨first, second, third, fourth, split, rfl⟩
    rw [split]
    rfl

/-- A bracket is open behind the text, or one that was open before it still is. -/
def OpenFrom (inBrackets : Bool) (s : List Char) : Prop := inBrackets = true ∧ ']' ∉ s ∨ Opened s

theorem openFrom_nil (inBrackets : Bool) : OpenFrom inBrackets [] ↔ inBrackets = true := by
  have none : ¬Opened [] := by
    rintro ⟨before, after, shape, -⟩
    cases before <;> cases shape
  simp [OpenFrom, none]

theorem opened_cons (c : Char) (s : List Char) :
    Opened (c :: s) ↔ c = '[' ∧ ']' ∉ s ∨ Opened s := by
  constructor
  · rintro ⟨before, after, shape, unclosed⟩
    cases before with
    | nil =>
        cases shape
        exact .inl ⟨rfl, unclosed⟩
    | cons _ before =>
        cases shape
        exact .inr ⟨before, after, rfl, unclosed⟩
  · rintro (⟨rfl, unclosed⟩ | ⟨before, after, rfl, unclosed⟩)
    · exact ⟨[], s, rfl, unclosed⟩
    · exact ⟨c :: before, after, rfl, unclosed⟩

/-- What the scanner keeps of a character. -/
theorem openFrom_cons (inBrackets : Bool) (c : Char) (s : List Char) :
    OpenFrom inBrackets (c :: s) ↔
      OpenFrom (if c = '[' then true else if c = ']' then false else inBrackets) s := by
  rw [OpenFrom, OpenFrom, opened_cons]
  split_ifs with opens closes
  · simp only [opens, true_and]
    tauto
  · simp [closes]
  · simp [opens, Ne.symm closes]

/-- How the first field ends: with the text, or before a colon with no bracket open. -/
def FirstField (inBrackets : Bool) (s field : List Char) (rest : List (List Char)) : Prop :=
  (∀ before after, field = before ++ ':' :: after → OpenFrom inBrackets before) ∧
    (s = field ∧ rest = [] ∨
      ∃ later, s = field ++ ':' :: later ∧ ¬OpenFrom inBrackets field ∧ fields false later = rest)

namespace FirstField

variable {inBrackets : Bool} {field : List Char} {rest : List (List Char)}

theorem nil_iff : FirstField inBrackets [] field rest ↔ field = [] ∧ rest = [] := by
  constructor
  · rintro ⟨-, ⟨rfl, rfl⟩ | ⟨later, shape, -⟩⟩
    · exact ⟨rfl, rfl⟩
    · cases field <;> cases shape
  · rintro ⟨rfl, rfl⟩
    refine ⟨fun before after shape => ?_, .inl ⟨rfl, rfl⟩⟩
    cases before <;> cases shape

theorem colon_iff :
    FirstField false (':' :: s) field rest ↔ field = [] ∧ fields false s = rest := by
  constructor
  · rintro ⟨inside, shape⟩
    cases field with
    | nil =>
        obtain ⟨⟨⟩, -⟩ | ⟨later, same, -, rfl⟩ := shape
        cases same
        exact ⟨rfl, rfl⟩
    | cons d field =>
        have first : d = ':' := by
          obtain ⟨same, -⟩ | ⟨later, same, -⟩ := shape <;> cases same <;> rfl
        have opened := inside [] field (by rw [first]; rfl)
        rw [openFrom_nil] at opened
        cases opened
  · rintro ⟨rfl, rfl⟩
    refine ⟨fun before after shape => ?_, .inr ⟨s, rfl, ?_, rfl⟩⟩
    · cases before <;> cases shape
    · rw [openFrom_nil]
      nofun

/-- A character at which no field ends belongs to the first one. -/
theorem cons_iff {c d : Char} (kept : ¬(c = ':' ∧ inBrackets = false)) :
    FirstField inBrackets (c :: s) (d :: field) rest ↔ c = d ∧
      FirstField (if c = '[' then true else if c = ']' then false else inBrackets) s field
        rest := by
  constructor
  · rintro ⟨inside, shape⟩
    obtain rfl : c = d := by
      obtain ⟨same, -⟩ | ⟨later, same, -⟩ := shape <;> cases same <;> rfl
    rw [openFrom_cons] at shape
    refine ⟨rfl, fun before after same => ?_, ?_⟩
    · rw [← openFrom_cons]
      exact inside (c :: before) after (by rw [same]; rfl)
    · obtain ⟨same, rfl⟩ | ⟨later, same, closed, rfl⟩ := shape <;> cases same
      · exact .inl ⟨rfl, rfl⟩
      · exact .inr ⟨later, rfl, closed, rfl⟩
  · rintro ⟨rfl, inside, shape⟩
    refine ⟨fun before after same => ?_, ?_⟩
    · cases before with
      | nil =>
          cases same
          rw [openFrom_nil]
          by_contra outside
          exact kept ⟨rfl, Bool.eq_false_iff.mpr outside⟩
      | cons _ before =>
          cases same
          rw [openFrom_cons]
          exact inside before after rfl
    · rw [openFrom_cons]
      obtain ⟨rfl, rfl⟩ | ⟨later, rfl, closed, rfl⟩ := shape
      · exact .inl ⟨rfl, rfl⟩
      · exact .inr ⟨later, rfl, closed, rfl⟩

theorem ne_nil {c : Char} (kept : ¬(c = ':' ∧ inBrackets = false))
    (first : FirstField inBrackets (c :: s) field rest) : field ≠ [] := by
  rintro rfl
  obtain ⟨-, ⟨⟨⟩, -⟩ | ⟨later, same, closed, -⟩⟩ := first
  cases same
  rw [openFrom_nil, Bool.not_eq_true] at closed
  exact kept ⟨rfl, closed⟩

end FirstField

theorem fields_cons {inBrackets : Bool} {c : Char} (kept : ¬(c = ':' ∧ inBrackets = false)) :
    fields inBrackets (c :: s) =
      (fields (if c = '[' then true else if c = ']' then false else inBrackets) s).modifyHead
        (c :: ·) := by
  rw [fields]
  split_ifs <;> rfl

/-- The scanner cuts off the first field. -/
theorem fields_eq_cons_iff {inBrackets : Bool} {field : List Char} {rest : List (List Char)} :
    fields inBrackets s = field :: rest ↔ FirstField inBrackets s field rest := by
  induction s generalizing inBrackets field with
  | nil => simp [fields, FirstField.nil_iff, eq_comm]
  | cons c s ih =>
      by_cases cuts : c = ':' ∧ inBrackets = false
      · obtain ⟨rfl, rfl⟩ := cuts
        simp [fields, FirstField.colon_iff, eq_comm]
      · obtain ⟨head, tail, parts⟩ := List.exists_cons_of_ne_nil
          (fields_ne_nil (if c = '[' then true else if c = ']' then false else inBrackets) s)
        rw [fields_cons cuts]
        cases field with
        | nil =>
            rw [parts]
            exact ⟨nofun, fun first => absurd rfl (first.ne_nil cuts)⟩
        | cons d field =>
            rw [FirstField.cons_iff cuts, ← ih, parts, List.modifyHead_cons]
            simp [and_assoc]

theorem openFrom_false : OpenFrom false s ↔ Opened s := by simp [OpenFrom]

/-- The scanner finds four fields in exactly the texts that are four fields with colons between
them, none but the last with an open bracket. -/
theorem fields_eq_four_iff {first second third fourth : List Char} :
    fields false s = [first, second, third, fourth] ↔
      (IsField first ∧ IsField second ∧ IsField third ∧ IsField fourth) ∧
        (¬Opened first ∧ ¬Opened second ∧ ¬Opened third) ∧
        s = first ++ ':' :: (second ++ ':' :: (third ++ ':' :: fourth)) := by
  constructor
  · intro split
    simp only [fields_eq_cons_iff, FirstField, openFrom_false] at split
    obtain ⟨one, ⟨-, ⟨⟩⟩ | ⟨_, rfl, closed, two, ⟨-, ⟨⟩⟩ | ⟨_, rfl, closed', three,
      ⟨-, ⟨⟩⟩ | ⟨_, rfl, closed'', four, ⟨rfl, -⟩ | ⟨_, -, -, none⟩⟩⟩⟩⟩ := split
    · exact ⟨⟨one, two, three, four⟩, ⟨closed, closed', closed''⟩, rfl⟩
    · exact absurd none (fields_ne_nil _ _)
  · rintro ⟨⟨one, two, three, four⟩, ⟨closed, closed', closed''⟩, rfl⟩
    simp only [fields_eq_cons_iff, FirstField, openFrom_false]
    exact ⟨one, .inr ⟨_, rfl, closed, two, .inr ⟨_, rfl, closed', three, .inr ⟨_, rfl, closed'',
      four, .inl ⟨rfl, trivial⟩⟩⟩⟩⟩

/-- A stretch without brackets, and without colons outside them, stays in one field. -/
theorem fields_append {inBrackets : Bool} (unbracketed : Unbracketed s)
    (colon : inBrackets = true ∨ ':' ∉ s) (rest : List Char) :
    fields inBrackets (s ++ rest) = (fields inBrackets rest).modifyHead (s ++ ·) := by
  induction s with
  | nil =>
      obtain ⟨head, tail, parts⟩ := List.exists_cons_of_ne_nil (fields_ne_nil inBrackets rest)
      simp [parts]
  | cons c s ih =>
      have inner : fields inBrackets (s ++ rest) =
          (fields inBrackets rest).modifyHead (s ++ ·) := by
        apply ih
        · exact ⟨fun mem => unbracketed.1 (List.mem_cons_of_mem c mem),
            fun mem => unbracketed.2 (List.mem_cons_of_mem c mem)⟩
        · exact colon.imp_right fun plain mem => plain (List.mem_cons_of_mem c mem)
      have opens : c ≠ '[' := by rintro rfl; exact unbracketed.1 List.mem_cons_self
      have closes : c ≠ ']' := by rintro rfl; exact unbracketed.2 List.mem_cons_self
      have cuts : ¬(c = ':' ∧ inBrackets = false) := by
        rintro ⟨rfl, rfl⟩
        rcases colon with inside | plain
        · cases inside
        · exact plain List.mem_cons_self
      obtain ⟨head, tail, parts⟩ := List.exists_cons_of_ne_nil (fields_ne_nil inBrackets rest)
      rw [List.cons_append, fields, if_neg opens, if_neg closes, if_neg cuts, inner, parts]
      rfl

theorem IsName.fields_append {name : List Char} (isName : IsName s name) (rest : List Char) :
    fields false (s ++ ':' :: rest) = s :: fields false rest := by
  cases isName with
  | plain comma unbracketed colon =>
      rw [Forward.fields_append unbracketed (.inr colon), fields, if_neg (by decide),
        if_neg (by decide), if_pos ⟨rfl, rfl⟩, List.modifyHead_cons, List.append_nil]
  | bracketed comma unbracketed =>
      rw [List.append_assoc, List.cons_append, fields, if_pos rfl,
        Forward.fields_append unbracketed (.inl rfl)]
      simp [fields]

theorem eraseBrackets_eq_self (unbracketed : Unbracketed s) : eraseBrackets s = s := by
  rw [eraseBrackets, List.filter_eq_self]
  intro c mem
  have opens : c ≠ '[' := by rintro rfl; exact unbracketed.1 mem
  have closes : c ≠ ']' := by rintro rfl; exact unbracketed.2 mem
  simp [opens, closes]

theorem IsName.eraseBrackets {name : List Char} (isName : IsName s name) :
    eraseBrackets s = name := by
  cases isName with
  | plain comma unbracketed colon => exact eraseBrackets_eq_self unbracketed
  | bracketed comma unbracketed =>
      have inner := eraseBrackets_eq_self unbracketed
      rw [Forward.eraseBrackets] at inner ⊢
      rw [List.filter_append, List.filter_cons_of_neg (by decide), inner,
        List.filter_cons_of_neg (by decide), List.filter_nil, List.append_nil]

theorem IsPort.isName {port : Nat} (isPort : IsPort s port) : IsName s s :=
  .plain (isPort.not_mem rfl) ⟨isPort.not_mem rfl, isPort.not_mem rfl⟩ (isPort.not_mem rfl)

theorem IsName.isField {name : List Char} (isName : IsName s name) : IsField s ∧ ¬Opened s := by
  obtain ⟨inside, shape⟩ := fields_eq_cons_iff.mp (isName.fields_append [])
  simp only [openFrom_false] at inside shape
  refine ⟨inside, ?_⟩
  obtain ⟨same, -⟩ | ⟨_, -, closed, -⟩ := shape
  · have length := congrArg List.length same
    simp at length
  · exact closed

/-- An ssh tuple is not taken for an element in the style of et. -/
theorem many_parts (first second third fourth : List Char) :
    ¬((first ++ ':' :: (second ++ ':' :: (third ++ ':' :: fourth))).splitOn ':').length ≤ 2 := by
  have nonempty (part : List Char) : 0 < (part.splitOn ':').length :=
    List.length_pos_iff.mpr (List.splitOn_ne_nil ':' part)
  have one := nonempty first
  have two := nonempty second
  have three := nonempty third
  simp only [List.splitOn_append_cons_self, List.length_append]
  omega

/-- The parser takes every tunnel. -/
theorem Tunnel.lenient (tunnel : Tunnel s out) : Lenient s out := by
  cases tunnel with
  | pair first second =>
      exact .pair first.reads second.reads ⟨first.not_mem rfl, second.not_mem rfl⟩ (.inl first)
  | range first second third fourth ascending ascending' same =>
      exact .range first.reads second.reads third.reads fourth.reads
        ⟨first.not_mem rfl, second.not_mem rfl⟩ ⟨third.not_mem rfl, fourth.not_mem rfl⟩
        (.inl ⟨first, second⟩) ascending ascending' same
  | @ssh _ second _ fourth _ _ _ _ bound bindPort target targetPort =>
      have port := bindPort.isName.eraseBrackets
      have hostPort := targetPort.isName.eraseBrackets
      rw [← bound.eraseBrackets, ← target.eraseBrackets]
      refine .ssh ⟨bound.isField.1, bindPort.isName.isField.1, target.isField.1,
        targetPort.isName.isField.1⟩ ⟨bound.isField.2, bindPort.isName.isField.2,
        target.isField.2⟩ ?_ ?_
      · rw [port]
        exact bindPort.reads
      · rw [hostPort]
        exact targetPort.reads

theorem Lenient.ne_nil (lenient : Lenient s out) : s ≠ [] := by
  cases lenient <;> simp

/-- A lenient element is read as what it stands for. -/
theorem Lenient.parseElement {element : List Char} (lenient : Lenient (trim element) out) :
    parseElement input element = .ok out := by
  rw [Forward.parseElement]
  simp only [if_neg lenient.ne_nil]
  generalize trim element = text at lenient
  cases lenient with
  | pair first second hyphens plain =>
      have colon := first.1.not_mem (c := ':') rfl (by decide) (by decide)
      have colon' := second.1.not_mem (c := ':') rfl (by decide) (by decide)
      rw [splitOn_pair ⟨colon, colon'⟩, if_pos (by simp)]
      exact processEtStyle_pair first second hyphens plain
  | @range srcFirst srcLast dstFirst dstLast _ _ _ _ first second third fourth srcHyphens
      dstHyphens plain ascending ascending' same =>
      have colon : ':' ∉ srcFirst ++ '-' :: srcLast := by
        simp [first.1.not_mem (c := ':') rfl (by decide) (by decide),
          second.1.not_mem (c := ':') rfl (by decide) (by decide)]
      have colon' : ':' ∉ dstFirst ++ '-' :: dstLast := by
        simp [third.1.not_mem (c := ':') rfl (by decide) (by decide),
          fourth.1.not_mem (c := ':') rfl (by decide) (by decide)]
      rw [splitOn_pair ⟨colon, colon'⟩, if_pos (by simp)]
      exact processEtStyle_range first second third fourth srcHyphens dstHyphens plain ascending
        ascending' same
  | ssh inside closed bindPort targetPort =>
      have scanned := parseSshTunnelArg_eq_ok.mpr
        ⟨_, _, _, _, fields_eq_four_iff.mpr ⟨inside, closed, rfl⟩, rfl⟩
      rw [if_neg (many_parts _ _ _ _), scanned]
      simp only [bind, Except.bind, bindPort.parsePort, targetPort.parsePort]
      rfl

/-- What is read from an element that is not blank is lenient. -/
theorem lenient_of_parseElement {element : List Char} (nonempty : trim element ≠ [])
    (parsed : parseElement input element = .ok out) : Lenient (trim element) out := by
  rw [parseElement] at parsed
  simp only [if_neg nonempty] at parsed
  generalize trim element = text at nonempty parsed
  split at parsed
  · rename_i few
    cases parts : text.splitOn ':' with
    | nil => exact absurd parts (List.splitOn_ne_nil _ _)
    | cons src rest =>
        rw [parts] at parsed few
        cases rest with
        | nil => cases parsed
        | cons dst rest =>
            obtain rfl : rest = [] := by
              apply List.eq_nil_of_length_eq_zero
              simpa using few
            rw [eq_of_splitOn_eq_pair parts]
            exact lenient_of_processEtStyle parsed
  · obtain ⟨_, scanned, parsed⟩ := bind_eq_ok.mp parsed
    obtain ⟨first, second, third, fourth, split, rfl⟩ := parseSshTunnelArg_eq_ok.mp scanned
    obtain ⟨_, read, parsed⟩ := bind_eq_ok.mp parsed
    obtain ⟨port, bindPort, rfl⟩ := parsePort_eq_ok.mp read
    obtain ⟨_, read', parsed⟩ := bind_eq_ok.mp parsed
    obtain ⟨hostPort, targetPort, rfl⟩ := parsePort_eq_ok.mp read'
    cases parsed
    obtain ⟨inside, closed, rfl⟩ := fields_eq_four_iff.mp split
    exact .ssh inside closed bindPort targetPort

theorem parseElement_blank {element : List Char} (blank : trim element = []) :
    parseElement input element = .ok [] := by
  rw [parseElement]
  exact if_pos blank

theorem tunnelsOf_cons (element : List Char) (rest : List (List Char)) :
    tunnelsOf (element :: rest) =
      if trim element = [] then tunnelsOf rest else trim element :: tunnelsOf rest := by
  rw [tunnelsOf, List.map_cons, List.filter_cons]
  simp [tunnelsOf]

/-- The loop reads its elements one by one. -/
theorem parseElements_eq_ok {elements : List (List Char)} :
    parseElements input elements = .ok out ↔
      ∃ parts, List.Forall₂ Lenient (tunnelsOf elements) parts ∧ out = parts.flatten := by
  induction elements generalizing out with
  | nil =>
      constructor
      · rintro ⟨⟩
        exact ⟨[], .nil, rfl⟩
      · rintro ⟨_, ⟨⟩, rfl⟩
        rfl
  | cons element rest ih =>
      rw [tunnelsOf_cons]
      constructor
      · intro parsed
        obtain ⟨requests, first, parsed⟩ := bind_eq_ok.mp parsed
        obtain ⟨others, later, parsed⟩ := bind_eq_ok.mp parsed
        cases parsed
        obtain ⟨parts, lenient, rfl⟩ := ih.mp later
        split
        · rename_i blank
          rw [parseElement_blank blank] at first
          cases first
          exact ⟨parts, lenient, rfl⟩
        · rename_i nonempty
          exact ⟨requests :: parts, .cons (lenient_of_parseElement nonempty first) lenient, rfl⟩
      · rintro ⟨parts, lenient, rfl⟩
        split at lenient
        · rename_i blank
          rw [parseElements, parseElement_blank blank, ih.mpr ⟨parts, lenient, rfl⟩]
          rfl
        · cases lenient with
          | cons first lenient =>
              rw [parseElements, first.parseElement, ih.mpr ⟨_, lenient, rfl⟩]
              rfl

theorem Denotes.accepts (denotes : Denotes input out) : Accepts input out := by
  obtain ⟨parts, tunnels, rfl⟩ := denotes
  exact ⟨parts, tunnels.imp fun _ _ => Tunnel.lenient, rfl⟩

/-- Every argument of the grammar is accepted, with the requests it denotes. -/
theorem Denotes.parseRanges (denotes : Denotes input out) : parseRanges input = .ok out :=
  parseElements_eq_ok.mpr denotes.accepts

private theorem exists_forall₂ {α β : Type} {R : α → β → Prop} {xs : List α}
    (each : ∀ x ∈ xs, ∃ y, R x y) : ∃ ys, List.Forall₂ R xs ys := by
  induction xs with
  | nil => exact ⟨[], .nil⟩
  | cons x xs ih =>
      obtain ⟨y, first⟩ := each x List.mem_cons_self
      obtain ⟨ys, rest⟩ := ih fun x mem => each x (List.mem_cons_of_mem _ mem)
      exact ⟨y :: ys, .cons first rest⟩

private theorem forall_of_forall₂ {α β : Type} {R : α → β → Prop} {xs : List α} {ys : List β}
    (all : List.Forall₂ R xs ys) : ∀ x ∈ xs, ∃ y, R x y := by
  induction all with
  | nil => nofun
  | cons first _ ih => exact List.forall_mem_cons.mpr ⟨⟨_, first⟩, ih⟩

/-- The parser accepts the lenient grammar. What it accepts and makes of an argument is what the
grammar of tunnels says just when the argument is not loose. -/
theorem parseRanges_eq_ok_iff (input : String) :
    (∀ out, parseRanges input = .ok out ↔ Accepts input out) ∧
      ((∀ out, parseRanges input = .ok out ↔ Denotes input out) ↔ ¬Loose input) := by
  have accepts (out) : parseRanges input = .ok out ↔ Accepts input out := parseElements_eq_ok
  refine ⟨accepts, ?_, ?_⟩
  · rintro meets ⟨lenient, element, there, outside⟩
    obtain ⟨parts, all⟩ := exists_forall₂ lenient
    obtain ⟨_, tunnels, -⟩ := (meets _).mp ((accepts _).mpr ⟨parts, all, rfl⟩)
    obtain ⟨requests, tunnel⟩ := forall_of_forall₂ tunnels element there
    exact outside requests tunnel
  · intro strict out
    refine ⟨fun parsed => ?_, Denotes.parseRanges⟩
    obtain ⟨parts, all, -⟩ := (accepts out).mp parsed
    have tunnels : ∀ element ∈ elements input, ∃ requests, Tunnel element requests := by
      intro element there
      by_contra outside
      exact strict ⟨forall_of_forall₂ all, element, there, not_exists.mp outside⟩
    obtain ⟨parts', all'⟩ := exists_forall₂ tunnels
    -- The parser has one result, so the requests that are denoted are those that were read.
    have denotes : Denotes input parts'.flatten := ⟨parts', all', rfl⟩
    obtain rfl := Except.ok.inj (parsed.symm.trans denotes.parseRanges)
    exact denotes

example : ¬Loose "+" ∧ ¬Loose "80:9+0" ∧ ¬Loose "h[os]t:xx:b:90" := by
  have rejected {input : String} {e : TunnelParseError} (failed : parseRanges input = .error e) :
      ¬Loose input := by
    rintro ⟨lenient, -⟩
    obtain ⟨parts, all⟩ := exists_forall₂ lenient
    cases failed.symm.trans (parseElements_eq_ok.mpr ⟨parts, all, rfl⟩)
  exact ⟨rejected (e := .missingDestination) (by decide),
    rejected (e := .invalid "80:9+0" "bad port") (by decide),
    rejected (e := .invalid "h[os]t:xx:b:90" "bad port") (by decide)⟩

/-- The second field of a tunnel has digits and hyphens only. -/
theorem Tunnel.second_plain {first second : List Char} {rest : List (List Char)}
    (tunnel : Tunnel s out) (split : fields false s = first :: second :: rest) :
    ∀ c ∈ second, c.isDigit ∨ c = '-' := by
  have isName {text : List Char} (plain : ∀ c ∈ text, c.isDigit ∨ c = '-') : IsName text text := by
    have absent {c : Char} (other : ¬(c.isDigit ∨ c = '-')) : c ∉ text :=
      fun mem => other (plain c mem)
    exact .plain (absent (by decide)) ⟨absent (by decide), absent (by decide)⟩ (absent (by decide))
  have last {text : List Char} (plain : ∀ c ∈ text, c.isDigit ∨ c = '-') :
      fields false text = [text] :=
    fields_eq_cons_iff.mpr ⟨fun before after shape => absurd (plain ':' (by simp [shape]))
      (by decide), .inl ⟨rfl, rfl⟩⟩
  cases tunnel with
  | pair left right =>
      have plain : ∀ c ∈ _, c.isDigit ∨ c = '-' := fun c mem => .inl (right.1.digits c mem)
      rw [left.isName.fields_append, last plain] at split
      cases split
      exact plain
  | @range srcFirst srcLast dstFirst dstLast _ _ _ _ one two three four =>
      have hyphenated {a b : List Char} {m n : Nat} (left : IsPort a m) (right : IsPort b n) :
          ∀ c ∈ a ++ '-' :: b, c.isDigit ∨ c = '-' := by
        intro c mem
        rw [List.mem_append, List.mem_cons] at mem
        obtain mem | rfl | mem := mem
        · exact .inl (left.1.digits c mem)
        · exact .inr rfl
        · exact .inl (right.1.digits c mem)
      rw [(isName (hyphenated one two)).fields_append, last (hyphenated three four)] at split
      cases split
      exact hyphenated three four
  | ssh bound bindPort target targetPort =>
      rw [bound.fields_append, bindPort.isName.fields_append] at split
      cases split
      exact fun c mem => .inl (bindPort.1.digits c mem)

/-- A port with a sign, and brackets inside a name and a port, are accepted. -/
theorem loose_arguments_accepted :
    (parseRanges "80:+90" = .ok [localRequest 80 90] ∧ ∀ out, ¬Denotes "80:+90" out) ∧
    (parseRanges "h[os]t:8[0]:b:90" = .ok [sshRequest "host".toList 80 "b".toList 90] ∧
      ∀ out, ¬Denotes "h[os]t:8[0]:b:90" out) := by
  refine ⟨⟨by decide, ?_⟩, ⟨by decide, ?_⟩⟩
  · rintro out ⟨parts, tunnels, -⟩
    rw [show elements "80:+90" = ["80:+90".toList] by decide] at tunnels
    cases tunnels with
    | cons tunnel _ =>
        have split : fields false "80:+90".toList = ["80".toList, "+90".toList] := by decide
        exact absurd (tunnel.second_plain split '+' (by decide)) (by decide)
  · rintro out ⟨parts, tunnels, -⟩
    rw [show elements "h[os]t:8[0]:b:90" = ["h[os]t:8[0]:b:90".toList] by decide] at tunnels
    cases tunnels with
    | cons tunnel _ =>
        have split : fields false "h[os]t:8[0]:b:90".toList =
            ["h[os]t".toList, "8[0]".toList, "b".toList, "90".toList] := by decide
        exact absurd (tunnel.second_plain split '[' (by decide)) (by decide)

end Forward

end Et
