import EtClient.Forward.Grammar

/-!
# Rendering tunnel arguments

A tunnel specification can be written as a text of the grammar: ports in decimal, and the
names of an ssh tuple in brackets, so that they may hold colons. An argument is a list of
such texts and of empty ones, with white space around each, joined by commas. Parsing it
gives back the requests of the specifications, in order.
-/

namespace Et

namespace Forward

open Text

variable {s : List Char} {out : List PortForwardSourceRequest}

/-- A port number. -/
abbrev Port := Fin 65536

structure PortRange where
  first : Port
  last : Port
  ascending : first ≤ last
  deriving DecidableEq

def PortRange.extra (r : PortRange) : Nat := r.last - r.first

/-- A name that can stand in brackets. -/
structure HostName where
  text : List Char
  comma : ',' ∉ text
  unbracketed : Unbracketed text
  deriving DecidableEq

inductive TunnelSpec
  | pair (source destination : Port)
  | range (source destination : PortRange) (same : source.extra = destination.extra)
  | ssh (bindAddress : HostName) (port : Port) (host : HostName) (hostPort : Port)
  deriving DecidableEq

namespace TunnelSpec

def digits (port : Port) : List Char := Nat.toDigits 10 port

def render : TunnelSpec → List Char
  | .pair source destination => digits source ++ ':' :: digits destination
  | .range source destination _ =>
      (digits source.first ++ '-' :: digits source.last) ++
        ':' :: (digits destination.first ++ '-' :: digits destination.last)
  | .ssh bindAddress port host hostPort =>
      ('[' :: bindAddress.text ++ [']']) ++ ':' :: (digits port ++
        ':' :: (('[' :: host.text ++ [']']) ++ ':' :: digits hostPort))

def expand : TunnelSpec → List PortForwardSourceRequest
  | .pair source destination =>
      [localRequest (Int32.ofNat source) (Int32.ofNat destination)]
  | .range source destination _ =>
      rangeRequests source.first destination.first source.extra
  | .ssh bindAddress port host hostPort => [sshRequest bindAddress.text port host.text hostPort]

theorem isPort_digits (port : Port) : IsPort (digits port) port :=
  ⟨.toDigits port, Nat.le_of_lt_succ port.isLt⟩

theorem tunnel_render (spec : TunnelSpec) : Tunnel spec.render spec.expand := by
  cases spec with
  | pair source destination => exact .pair (isPort_digits source) (isPort_digits destination)
  | range source destination same =>
      exact .range (isPort_digits _) (isPort_digits _) (isPort_digits _) (isPort_digits _)
        source.ascending destination.ascending same
  | ssh bindAddress port host hostPort =>
      exact .ssh (.bracketed bindAddress.comma bindAddress.unbracketed) (isPort_digits port)
        (.bracketed host.comma host.unbracketed) (isPort_digits hostPort)

/-- A rendered tunnel begins with a digit or a bracket and ends with a digit. -/
theorem trimmed_render (spec : TunnelSpec) : Trimmed spec.render := by
  have begins : ∀ {port : Port} {rest : List Char}, ∀ c ∈ (digits port ++ rest).head?,
      isWhitespace c = false := by
    intro port rest c mem
    rw [List.head?_append_of_ne_nil _ (isPort_digits port).1.nonempty] at mem
    exact isWhitespace_digit ((isPort_digits port).1.digits c (List.mem_of_mem_head? mem))
  have ends : ∀ {port : Port} {front : List Char} {sep : Char},
      ∀ c ∈ (front ++ sep :: digits port).getLast?, isWhitespace c = false := by
    intro port front sep c mem
    have nonempty := (isPort_digits port).1.nonempty
    rw [List.getLast?_append_cons, List.getLast?_cons_of_ne_nil nonempty] at mem
    exact isWhitespace_digit ((isPort_digits port).1.digits c (List.mem_of_mem_getLast? mem))
  cases spec with
  | pair source destination => exact ⟨begins, ends⟩
  | range source destination same =>
      refine ⟨?_, ?_⟩
      · rw [render, List.append_assoc]
        exact begins
      · rw [render, ← List.cons_append, ← List.append_assoc]
        exact ends
  | ssh bindAddress port host hostPort =>
      refine ⟨?_, ?_⟩
      · intro c mem
        cases mem
        decide
      · rw [render, ← List.cons_append, ← List.append_assoc, ← List.cons_append,
          ← List.append_assoc]
        exact ends

end TunnelSpec

/-- White space. -/
abbrev Blank := { s : List Char // ∀ c ∈ s, isWhitespace c }

/-- An element of a rendered argument: a tunnel, or nothing, with white space around it. -/
structure Entry where
  before : Blank
  tunnel : Option TunnelSpec
  after : Blank
  deriving DecidableEq

namespace Entry

def text (e : Entry) : List Char := (e.tunnel.map TunnelSpec.render).getD []

def render (e : Entry) : List Char := e.before.val ++ e.text ++ e.after.val

def expand (e : Entry) : List PortForwardSourceRequest := (e.tunnel.map TunnelSpec.expand).getD []

end Entry

def renderRanges (entries : List Entry) : String :=
  String.ofList ([','].intercalate (entries.map Entry.render))

theorem comma_of_isName {name : List Char} (isName : IsName s name) : ',' ∉ s := by
  cases isName with
  | plain comma _ _ => exact comma
  | bracketed comma _ => simp [comma]

theorem Tunnel.comma (tunnel : Tunnel s out) : ',' ∉ s := by
  have port : ∀ {text : List Char} {port : Nat}, IsPort text port → ',' ∉ text := by
    intro text port isPort
    exact isPort.not_mem rfl
  cases tunnel with
  | pair first second => simp [port first, port second]
  | range first second third fourth =>
      simp [port first, port second, port third, port fourth]
  | ssh bound bindPort target targetPort =>
      simp [comma_of_isName bound, port bindPort, comma_of_isName target, port targetPort]

namespace Entry

theorem trim_render (e : Entry) : trim e.render = e.text := by
  apply trim_pad e.before.property e.after.property
  cases tunnel : e.tunnel with
  | none => simp [text, tunnel, Trimmed]
  | some spec => simpa [text, tunnel] using spec.trimmed_render

theorem comma (e : Entry) : ',' ∉ e.render := by
  have blank : ∀ s : Blank, ',' ∉ s.val := by
    intro s mem
    exact absurd (s.property ',' mem) (by decide)
  have inner : ',' ∉ e.text := by
    cases tunnel : e.tunnel with
    | none => simp [text, tunnel]
    | some spec => simpa [text, tunnel] using spec.tunnel_render.comma
  simp [render, blank, inner]

end Entry

theorem tunnels_render (entries : List Entry) :
    ∃ parts, List.Forall₂ Tunnel (tunnelsOf (entries.map Entry.render)) parts ∧
      entries.flatMap Entry.expand = parts.flatten := by
  induction entries with
  | nil => exact ⟨[], .nil, rfl⟩
  | cons e entries ih =>
      obtain ⟨parts, tunnels, same⟩ := ih
      rw [List.map_cons, tunnelsOf_cons, e.trim_render, List.flatMap_cons, same]
      cases tunnel : e.tunnel with
      | none =>
          refine ⟨parts, ?_, ?_⟩
          · simpa [Entry.text, tunnel] using tunnels
          · simp [Entry.expand, tunnel]
      | some spec =>
          refine ⟨spec.expand :: parts, ?_, ?_⟩
          · have nonempty := spec.tunnel_render.lenient.ne_nil
            simpa [Entry.text, tunnel, nonempty] using ⟨spec.tunnel_render, tunnels⟩
          · simp [Entry.expand, tunnel]

/-- A rendered argument is parsed to the requests of its tunnels, in order. -/
theorem parseRanges_renderRanges (entries : List Entry) :
    parseRanges (renderRanges entries) = .ok (entries.flatMap Entry.expand) := by
  obtain ⟨parts, tunnels, same⟩ := tunnels_render entries
  rw [same, parseRanges, renderRanges, String.toList_ofList]
  cases entries with
  | nil =>
      cases tunnels
      rfl
  | cons e entries =>
      rw [List.splitOn_intercalate]
      · exact parseElements_eq_ok.mpr ⟨parts, tunnels.imp fun _ _ => Tunnel.lenient, rfl⟩
      · intro text mem
        obtain ⟨other, _, rfl⟩ := List.mem_map.mp mem
        exact other.comma
      · simp

end Forward

end Et
