import EtClient.Ssh.Handshake
import EtClient.Ssh.Ids

/-!
# The command for the server

The credentials go to the server in a shell command, inside single quotes and without any escaping,
and come back in what ssh prints. A shell takes everything up to the next single quote as it stands.
So what it reads is what was meant as long as there is no quote in it, and none open in front of it,
and `etterminal` can tell the three parts of its input apart as long as the first two are letters
and digits. Both hold for the credentials that this client makes and for those that it accepts from
a server. What stands in front is the client's own text, but for the user whose sessions are ended.
-/

namespace Et.Ssh

structure TerminalCommandOptions where
  verbose : Int32 := 0
  serverFifo : Option String := none
  etterminalPath : String := ""
  killExisting : Bool := false
  user : String := ""

def etterminalCommand (id passkey clientTerm : String) (opts : TerminalCommandOptions) : String :=
  let bin := if opts.etterminalPath.isEmpty then "etterminal" else opts.etterminalPath
  let command := s!"echo '{id}/{passkey}_{clientTerm}' | {bin} --verbose={opts.verbose}"
  let command :=
    match opts.serverFifo with
    | some fifo => command ++ s!" --serverfifo={fifo}"
    | none => command
  if opts.killExisting then
    let user := if opts.user.isEmpty then "$USER" else opts.user
    s!"pkill etterminal -u {user}; sleep 0.5; {command}"
  else command

example : etterminalCommand "i" "p" "t" { killExisting := true, user := "joe" } =
    "pkill etterminal -u joe; sleep 0.5; echo 'i/p_t' | etterminal --verbose=0" := by
  decide +kernel

/-- What stands before `echo`. -/
def killCommand (opts : TerminalCommandOptions) : String :=
  if opts.killExisting then
    "pkill etterminal -u " ++ (if opts.user.isEmpty then "$USER" else opts.user) ++ "; sleep 0.5; "
  else ""

/-- The quoted part of the command, and what stands in front of it. -/
theorem etterminalCommand_eq (id passkey clientTerm : String) (opts : TerminalCommandOptions) :
    ∃ back, etterminalCommand id passkey clientTerm opts =
      killCommand opts ++ "echo '" ++
        (id ++ "/" ++ (passkey ++ "_" ++ clientTerm) ++ "' | " ++ back) := by
  obtain ⟨verbose, serverFifo, etterminalPath, killExisting, user⟩ := opts
  let bin := if etterminalPath.isEmpty then "etterminal" else etterminalPath
  refine ⟨bin ++ " --verbose=" ++ toString verbose ++
    serverFifo.elim "" (" --serverfifo=" ++ ·), ?_⟩
  cases serverFifo <;> cases killExisting <;>
    simp [etterminalCommand, killCommand, String.append_assoc, bin, toString,
      -String.reduceAppend]

/-- The characters with which a shell quotes, escapes, substitutes a command or begins a comment. -/
def quoting : List Char := ['\'', '\x22', '\x5c', '\x60', '#']

theorem unquoted_of_all {s : String} (all : quoting.all fun quote => quote ∉ s.toList)
    {quote : Char} (special : quote ∈ quoting) : quote ∉ s.toList :=
  of_decide_eq_true (List.all_eq_true.mp all quote special)

/-- Of these the user may bring some into the command, and nothing else does. -/
theorem not_mem_killCommand {opts : TerminalCommandOptions} {quote : Char}
    (special : quote ∈ quoting) (unquoted : opts.killExisting = true → quote ∉ opts.user.toList) :
    quote ∉ (killCommand opts).toList := by
  have before : quote ∉ "pkill etterminal -u ".toList := unquoted_of_all (by decide) special
  have default : quote ∉ "$USER".toList := unquoted_of_all (by decide) special
  have after : quote ∉ "; sleep 0.5; ".toList := unquoted_of_all (by decide) special
  rw [killCommand]
  split
  · rename_i kills
    rw [String.toList_append, String.toList_append, List.mem_append, List.mem_append, not_or,
      not_or]
    refine ⟨⟨before, ?_⟩, after⟩
    split
    · exact default
    · exact unquoted kills
  · exact List.not_mem_nil

/-- Letters and digits only. -/
def Alphanumeric (s : String) : Prop := ∀ b ∈ Utf8.bytes s, isAsciiAlphanumeric b

theorem Alphanumeric.not_mem {s : String} (alphanumeric : Alphanumeric s) {sep : Char}
    (other : (String.utf8EncodeChar sep).any (! isAsciiAlphanumeric ·)) : sep ∉ s.toList := by
  intro mem
  obtain ⟨b, encoded, stranger⟩ := List.any_eq_true.mp other
  have within : b ∈ Utf8.bytes s := by
    rw [Utf8.bytes_eq, List.mem_flatMap]
    exact ⟨sep, mem, encoded⟩
  rw [alphanumeric b within] at stranger
  cases stranger

theorem Fresh.alphanumeric {c : IdPasskey} (fresh : Fresh c) :
    Alphanumeric c.id ∧ Alphanumeric c.passkey :=
  ⟨fun b mem => alphanumeric_of_mem (fresh.id_letters b mem),
    fun b mem => alphanumeric_of_mem (fresh.passkey_letters b mem)⟩

/-- Credentials that the client has made or accepted. -/
def Known (c : IdPasskey) : Prop :=
  (∃ random, generateIdPasskey random = .ok c) ∨ ∃ output, parseIdpasskeyBytes output = some c

theorem Known.alphanumeric {c : IdPasskey} (known : Known c) :
    Alphanumeric c.id ∧ Alphanumeric c.passkey := by
  obtain ⟨random, generated⟩ | ⟨output, parsed⟩ := known
  · exact (fresh_of_generateIdPasskey generated).alphanumeric
  · obtain ⟨shown, _⟩ := parseIdpasskeyBytes_eq_some.mp parsed
    exact ⟨shown.id_alphanumeric, shown.passkey_alphanumeric⟩

/-- A server that prints the fresh credentials that it was sent, with anything in front of them but
another marker and anything behind them, has them accepted, and the passkey is a key. -/
theorem fresh_credentials_accepted (random : Bytes) (c : IdPasskey) (lossy : Utf8.Lossy)
    (success : Bool) (pre post : Bytes) (generated : generateIdPasskey random = .ok c)
    (unmarked : ¬ marker <:+: pre ++ marker.dropLast) :
    runSshHandshake lossy (.ok ⟨success, pre ++ marker ++
        (Utf8.bytes c.id ++ slash :: Utf8.bytes c.passkey) ++ post⟩) = .ok c ∧
      (Utf8.bytes c.id).take 3 = [88, 88, 88] ∧ (Key.keyBytes c.passkey).isSome := by
  have fresh := fresh_of_generateIdPasskey generated
  refine ⟨runSshHandshake_eq_ok.mpr (parseIdpasskeyBytes_eq_some.mpr ⟨⟨?_, ?_, ?_⟩, ?_⟩),
    fresh.marked, Key.isSome_keyBytes.mpr fresh.passkey_length⟩
  · refine (Search.behind_iff marker_ne_nil).mpr ⟨pre, post, ?_, unmarked⟩
    simp only [List.append_assoc]
  · exact fresh.alphanumeric.1
  · exact fresh.alphanumeric.2
  · rw [fresh.id_length, fresh.passkey_length]

/-- A byte in front of the marker and a new line behind the passkey. -/
theorem fresh_credentials_accepted_zeros :
    ∃ c, generateIdPasskey (List.replicate 128 0) = .ok c ∧
      runSshHandshake Utf8.fromUtf8Lossy (.ok ⟨true, [104] ++ marker ++
        (Utf8.bytes c.id ++ slash :: Utf8.bytes c.passkey) ++ [10]⟩) = .ok c := by
  obtain ⟨c, generated⟩ := generateIdPasskey_zeros 0
  have unmarked : ¬ marker <:+: [104] ++ marker.dropLast := by
    rw [marker, Utf8.bytes_eq]
    decide
  exact ⟨c, generated, (fresh_credentials_accepted _ c Utf8.fromUtf8Lossy true [104] [10] generated
    unmarked).1⟩

end Et.Ssh
