import EtClient.Forward.Engine
import EtClient.Lib.Text

/-!
# Tunnel arguments

`parse_ranges` reads a comma-separated list of tunnels. An element with at most one colon
is read in the style of et, as a pair of ports or a pair of port ranges. Every other
element is read in the style of ssh: a scanner cuts it at the colons outside square
brackets and drops the brackets.

The functions here are those of the source, one by one, with the same order of checks and
the same errors. A string slice is a list of characters.
-/

namespace Et

namespace Forward

open Text

inductive TunnelParseError
  | missingDestination
  | rangeLengthMismatch
  | halfRange
  | invalid (argument reason : String)
  | portOutOfRange (port : Int)
  | unsupportedSocket (path : String)
  deriving DecidableEq

def isSocketPath (s : List Char) : Bool := s.head? == some '/'

def numericOrRange (s : List Char) : Bool :=
  !s.isEmpty && s.all fun c => c.isDigit || c == '-'

def endpoint (name : Option String) (port : Option Int32) : SocketEndpoint := ⟨name, port⟩

def parsePort (v : List Char) (input : String) : Except TunnelParseError Int32 :=
  match parseSigned (-2 ^ 63) (2 ^ 63 - 1) v with
  | none => .error (.invalid input "bad port")
  | some port =>
      if 0 ≤ port ∧ port ≤ 65535 then .ok (Int32.ofInt port)
      else .error (.portOutOfRange port)

/-- The request of one port pair in the style of et. -/
def localRequest (source destination : Int32) : PortForwardSourceRequest where
  source := some (endpoint (some "localhost") (some source))
  destination := some (endpoint none (some destination))

/-- The branch of `process_et_style` in which both sides have a hyphen. -/
def processRange (src dst : List Char) (input : String) :
    Except TunnelParseError (List PortForwardSourceRequest) :=
  match src.splitOn '-', dst.splitOn '-' with
  | [srcFirst, srcLast], [dstFirst, dstLast] => do
      let srcStart ← parsePort srcFirst input
      let srcEnd ← parsePort srcLast input
      let dstStart ← parsePort dstFirst input
      let dstEnd ← parsePort dstLast input
      if srcEnd < srcStart ∨ dstEnd < dstStart then
        .error (.invalid input "port ranges must be ascending (start-end)")
      else if srcEnd - srcStart ≠ dstEnd - dstStart then .error .rangeLengthMismatch
      else
        .ok ((List.range ((srcEnd - srcStart).toInt.toNat + 1)).map fun i =>
          localRequest (srcStart + Int32.ofNat i) (dstStart + Int32.ofNat i))
  | _, _ => .error (.invalid input "bad range")

/-- The requests that `process_et_style` appends. -/
def processEtStyle (parts : List (List Char)) (input : String) :
    Except TunnelParseError (List PortForwardSourceRequest) :=
  match parts with
  | src :: dst :: _ =>
      let srcIsSocket := isSocketPath src
      let srcIsNumeric := numericOrRange src
      let dstIsNumeric := numericOrRange dst
      let dstIsSocket := isSocketPath dst
      if srcIsSocket || (dstIsSocket && srcIsNumeric) then
        .error (.unsupportedSocket (String.ofList (if srcIsSocket then src else dst)))
      else if !srcIsNumeric && !dstIsNumeric && !src.isEmpty then
        -- Forwarding to a pipe that an environment variable names.
        .error (.unsupportedSocket (String.ofList (src ++ ':' :: dst)))
      else if src.contains '-' && dst.contains '-' then processRange src dst input
      else if src.contains '-' || dst.contains '-' then .error .halfRange
      else do
        let source ← parsePort src input
        let destination ← parsePort dst input
        return [localRequest source destination]
  | _ => .error .missingDestination

/-- The state of the scanner of `parse_ssh_tunnel_arg`. -/
structure Scan where
  parts : List (List Char)
  current : List Char
  inBrackets : Bool
  deriving DecidableEq

def Scan.push (s : Scan) (c : Char) : Scan :=
  if c = '[' then { s with inBrackets := true }
  else if c = ']' then { s with inBrackets := false }
  else if c = ':' ∧ s.inBrackets = false then
    { s with parts := s.parts ++ [s.current], current := [] }
  else { s with current := s.current ++ [c] }

def parseSshTunnelArg (input : List Char) :
    Except TunnelParseError (List Char × List Char × List Char × List Char) :=
  let scan := input.foldl Scan.push ⟨[], [], false⟩
  match scan.parts ++ [scan.current] with
  | [bindAddress, port, host, hostPort] => .ok (bindAddress, port, host, hostPort)
  | parts =>
      if parts.length < 4 then
        .error (.invalid (String.ofList input)
          "the 4 part ssh-style tunneling arg (bind_address:port:host:hostport) must be supplied")
      else
        .error (.invalid (String.ofList input)
          "ipv6 addresses must be inside of square brackets, ie [::1]:8080:[::]:9090")

/-- The requests of one element. -/
def parseElement (input : String) (element : List Char) :
    Except TunnelParseError (List PortForwardSourceRequest) :=
  let element := trim element
  if element = [] then .ok []
  else
    let parts := element.splitOn ':'
    if parts.length ≤ 2 then processEtStyle parts input
    else do
      let (bindAddress, bindPort, host, hostPort) ← parseSshTunnelArg element
      let source ← parsePort bindPort input
      let destination ← parsePort hostPort input
      return [⟨some (endpoint (some (String.ofList bindAddress)) (some source)),
        some (endpoint (some (String.ofList host)) (some destination))⟩]

/-- The loop over the elements. It stops at the first error. -/
def parseElements (input : String) :
    List (List Char) → Except TunnelParseError (List PortForwardSourceRequest)
  | [] => .ok []
  | element :: rest => do
      let requests ← parseElement input element
      let others ← parseElements input rest
      return requests ++ others

def parseRanges (input : String) : Except TunnelParseError (List PortForwardSourceRequest) :=
  parseElements input (input.toList.splitOn ',')

end Forward

end Et
