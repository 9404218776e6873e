import OsmoSysmon.Lib.Words
import OsmoSysmon.Ping.Hosts
import OsmoSysmon.Registries.Basic

/-! # The configuration as a whole

What the VTY commands of all seven files change, and how a line that is typed finds its
command.  The libraries behind the commands are parameters: the part of libosmocore that
takes lines apart, and liboping.
-/

namespace OsmoSysmon

open CText

/-- `g_oss` as far as commands change it, and the static variable of
    `osysmon_sysinfo.c`. -/
structure Sysmon where
  /-- The session is part of `registries.ctrl`. -/
  registries : Registries
  /-- The hosts of `pings->ping_handle`, in the order of the iterator. -/
  pings : List CStr
  sysinfoEnabled : Bool

namespace Sysmon

def initial : Sysmon where
  registries := Registries.empty
  pings := []
  sysinfoEnabled := true

def node (s : Sysmon) : VtyNode := s.registries.ctrl.node

end Sysmon

/-- What libosmocore makes of a line and its words. -/
structure Vty where
  /-- The indentation of a line and its words; a comment has none. -/
  split : CStr → Nat × List CStr
  /-- The words accepted for `A.B.C.D`. -/
  isAddress : CStr → Bool
  /-- The words accepted for `<1-65535>`. -/
  isPort : CStr → Bool

/-- The word does not begin a comment. -/
def NoComment (word : CStr) : Prop := word.head? ≠ some 33 ∧ word.head? ≠ some 35

structure Vty.Documented (vty : Vty) : Prop where
  words : ∀ line, ∀ word ∈ (vty.split line).2, IsWord word
  split : ∀ indent keyword args, NoComment keyword → (∀ word ∈ keyword :: args, IsWord word) →
    vty.split (indented indent (keyword :: args)) = (indent, keyword :: args)
  number : ∀ word, vty.isPort word = true → 1 ≤ atoi word ∧ atoi word ≤ 65535
  decimal : ∀ n, 1 ≤ n → n ≤ 65535 → vty.isPort (decimal n) = true

/-- The libraries that commands call. -/
structure Libs where
  vty : Vty
  oping : Liboping
  /-- `PING_INFO_USERNAME` of a host, as far as it can be had in `BUFLEN` bytes. -/
  username : CStr → Option CStr

structure Libs.Documented (libs : Libs) : Prop where
  vty : libs.vty.Documented
  oping : libs.oping.Documented
  /-- Whether a new host can be added depends on the host. -/
  resolves : ∀ hosts hosts' host, host ∉ hosts → host ∉ hosts' →
    0 ≤ (libs.oping.hostAdd hosts host).1 → 0 ≤ (libs.oping.hostAdd hosts' host).1
  username : ∀ host text, libs.username host = some text → text = host

/-! ## Command strings -/

/-- A part of the string of a `DEFUN`. -/
inductive Token where
  | keyword (text : CStr)
  /-- `NAME`, `HOST` or `PATH`. -/
  | variable
  /-- `A.B.C.D`. -/
  | address
  /-- `<1-65535>`. -/
  | port
  /-- `.TEXT`: the words up to the end of the line. -/
  | text

def kw (s : String) : Token := .keyword (ascii s)

/-- The arguments of a line that spells a command string. -/
def argv? (vty : Vty) : List Token → List CStr → Option (List CStr)
  | [], [] => some []
  | .keyword text :: tokens, word :: words =>
    if word = text then argv? vty tokens words else none
  | .variable :: tokens, word :: words => (argv? vty tokens words).map (word :: ·)
  | .address :: tokens, word :: words =>
    if vty.isAddress word then (argv? vty tokens words).map (word :: ·) else none
  | .port :: tokens, word :: words =>
    if vty.isPort word then (argv? vty tokens words).map (word :: ·) else none
  | [.text], word :: words => some (word :: words)
  | _, _ => none

/-- A command with its arguments. -/
inductive SysCommand where
  | registry (command : RegCommand)
  | getVariable (name : CStr)
  | noGetVariable (name : CStr)
  | ping (host : CStr)
  | noPing (host : CStr)
  | sysinfo
  | noSysinfo

/-- `argv[i]`. -/
def arg (argv : List CStr) (i : Nat) : CStr := argv.getD i []

/-- `uint16_t port = atoi(argv[i])`. -/
def portArg (argv : List CStr) (i : Nat) : UInt16 := UInt16.ofInt (atoi (arg argv i))

/-- The commands that the seven files install in a node, in the order of `main`.  A new
    OpenVPN client gets its connection as `setup` says. -/
def installed (setup : Registries.TcpSetup) :
    VtyNode → List (List Token × (List CStr → SysCommand))
  | .config => [
    ([kw "sysinfo"], fun _ => .sysinfo),
    ([kw "no", kw "sysinfo"], fun _ => .noSysinfo),
    -- `argv_concat`
    ([kw "shellcmd", .variable, .text],
      fun argv => .registry (.shellcmd (arg argv 0) (unwords (argv.drop 1)))),
    ([kw "no", kw "shellcmd", .variable], fun argv => .registry (.noShellcmd (arg argv 0))),
    ([kw "ctrl-client", .variable, .address, .port],
      fun argv => .registry (.ctrlClient (arg argv 0) (arg argv 1) (portArg argv 2))),
    ([kw "no", kw "ctrl-client", .variable], fun argv => .registry (.noCtrlClient (arg argv 0))),
    ([kw "openvpn", .variable, .port],
      fun argv => .registry (.openvpn (arg argv 0) (portArg argv 1) setup)),
    ([kw "no", kw "openvpn", .variable, .port],
      fun argv => .registry (.noOpenvpn (arg argv 0) (portArg argv 1))),
    ([kw "netdev", .variable], fun argv => .registry (.netdev (arg argv 0))),
    ([kw "no", kw "netdev", .variable], fun argv => .registry (.noNetdev (arg argv 0))),
    ([kw "ping", .variable], fun argv => .ping (arg argv 0)),
    ([kw "no", kw "ping", .variable], fun argv => .noPing (arg argv 0)),
    ([kw "file", .variable, .variable],
      fun argv => .registry (.file (arg argv 0) (arg argv 1))),
    ([kw "no", kw "file", .variable], fun argv => .registry (.noFile (arg argv 0)))]
  | .ctrlClient => [
    ([kw "get-variable", .variable], fun argv => .getVariable (arg argv 0)),
    ([kw "no", kw "get-variable", .variable], fun argv => .noGetVariable (arg argv 0))]
  | .ctrlClientGetVar => []

def command? (vty : Vty) (setup : Registries.TcpSetup) (node : VtyNode) (words : List CStr) :
    Option SysCommand :=
  (installed setup node).findSome? fun (tokens, command) => (argv? vty tokens words).map command

/-! ## Commands -/

/-- `osysmon_go_parent`.  The nodes of the other files are never entered. -/
def osysmonGoParent (s : Sysmon) : Except Fault Sysmon := do
  let ctrl ← osysmonCtrlGoParent s.registries.ctrl
  return { s with registries := { s.registries with ctrl } }

def onRegistries (cmd : Registries → Except Fault (CmdResult × Registries)) (s : Sysmon) :
    Except Fault (CmdResult × Sysmon) := do
  let (result, registries) ← cmd s.registries
  return (result, { s with registries })

def onPings (cmd : List CStr → CmdResult × List CStr) (s : Sysmon) :
    Except Fault (CmdResult × Sysmon) :=
  .ok ((cmd s.pings).1, { s with pings := (cmd s.pings).2 })

def SysCommand.exec (libs : Libs) : SysCommand → Sysmon →
    Except Fault (CmdResult × Sysmon)
  | .registry command => onRegistries (Registries.exec command)
  | .getVariable name => onRegistries (Registries.onCtrl (cfgCtrlcGetVar name))
  | .noGetVariable name => onRegistries (Registries.onCtrl (cfgCtrlcNoGetVar name))
  | .ping host => onPings (cfgPing libs.oping host)
  | .noPing host => onPings (cfgNoPing libs.oping host)
  | .sysinfo => fun s => .ok (.success, { s with sysinfoEnabled := true })
  | .noSysinfo => fun s => .ok (.success, { s with sysinfoEnabled := false })

/-- The words of a line, in the node of the session. -/
def execWords (libs : Libs) (setup : Registries.TcpSetup) (words : List CStr)
    (s : Sysmon) : Except Fault (CmdResult × Sysmon) :=
  match command? libs.vty setup s.node words with
  | some command => command.exec libs s
  | none => .ok (.noMatch, s)

/-- What a session does next. -/
inductive Input where
  | line (text : CStr) (setup : Registries.TcpSetup)
  /-- Leaving the node. -/
  | goParent

def Input.exec (libs : Libs) : Input → Sysmon → Except Fault (CmdResult × Sysmon)
  | .line text setup => execWords libs setup (libs.vty.split text).2
  | .goParent => fun s => do return (.success, ← osysmonGoParent s)

/-- An input that has been dealt with. -/
def Step (libs : Libs) (s : Sysmon) (input : Input) (t : Sysmon) : Prop :=
  ∃ result, input.exec libs s = .ok (result, t)

end OsmoSysmon
