import OsmoSysmon.Config.Vty
import OsmoSysmon.Registries.Maps

/-! # Writing the configuration and reading it back

The callbacks that three of the files install with their nodes write lines for what they
hold.  Reading these lines into a program that has just been started is to give the
configuration that has been written: `RoundTrips`.
-/

namespace OsmoSysmon

open CText Talloc

/-! ## The callbacks -/

/-- The loops of the callbacks. -/
def writeEach (write : Ptr → Except Fault (List CStr)) : List Ptr → Except Fault (List CStr)
  | [] => .ok []
  | p :: ps => do
    let lines ← write p
    let others ← writeEach write ps
    return lines ++ others

/-- The inner loop of `write_one_ctrl_client`, for one variable. -/
def writeGetVar (heap : Heap CtrlObject) (ccgv : Ptr) : Except Fault (List CStr) := do
  let (_, name) ← derefGetVar heap ccgv
  -- `display_name` is never set
  return [ascii " get-variable " ++ name]

def writeOneCtrlClient (heap : Heap CtrlObject) (cc : Ptr) : Except Fault (List CStr) := do
  let (cfg, getVars) ← derefClient heap cc
  match cfg.remoteHost with
  | none => throw .nullPointer
  | some host =>
    let lines ← writeEach (writeGetVar heap) getVars
    return (ascii "ctrl-client " ++ cfg.name ++ ascii " " ++ host ++ ascii " " ++
      decimal cfg.remotePort.toNat) :: lines

def configWriteCtrlClient (s : CtrlState) : Except Fault (List CStr) :=
  writeEach (writeOneCtrlClient s.heap) s.ctrlClients

def writeOneNetdev (heap : Heap Entry) (nd : Ptr) : Except Fault (List CStr) :=
  match heap.get? nd with
  | some (.netdev name) => .ok [ascii "netdev " ++ name]
  | some _ => .error .typeConfusion
  | none => .error .useAfterFree

def configWriteNetdev (s : Registries) : Except Fault (List CStr) :=
  writeEach (writeOneNetdev s.heap) s.netdevs

def configWritePing (username : CStr → Option CStr) : List CStr → CmdResult × List CStr
  | [] => (.success, [])
  | host :: hosts =>
    match username host with
    | none => (.warning, [])
    | some buf =>
      let (result, lines) := configWritePing username hosts
      (result, (ascii "ping " ++ buf) :: lines)

/-- The lines of all callbacks, in the order of `enum osysmon_vty_node`.  `OPENVPN_NODE` has
    not been installed. -/
def configWrite (libs : Libs) (s : Sysmon) : Except Fault (List CStr) := do
  let clients ← configWriteCtrlClient s.registries.ctrl
  let netdevs ← configWriteNetdev s.registries
  return clients ++ netdevs ++ (configWritePing libs.username s.pings).2

/-! ## Reading a file -/

/-- A session that reads a file. -/
structure Reader where
  /-- The indentation of the lines that have entered the nodes, innermost first. -/
  levels : List Nat
  sysmon : Sysmon

def Reader.start : Reader where
  levels := []
  sysmon := Sysmon.initial

/-- Leaves the nodes whose line is indented as much as the one that comes now, or more. -/
def leaveNodes (indent : Nat) : List Nat → Sysmon → Except Fault Reader
  | [], s => .ok ⟨[], s⟩
  | level :: levels, s =>
    if indent ≤ level then do leaveNodes indent levels (← osysmonGoParent s)
    else .ok ⟨level :: levels, s⟩

def readLine (libs : Libs) (setup : Registries.TcpSetup) (line : CStr) (r : Reader) :
    Except Fault (CmdResult × Reader) := do
  let (indent, words) := libs.vty.split line
  -- nothing but a comment
  if words = [] then return (.success, r)
  let ⟨levels, s⟩ ← leaveNodes indent r.levels r.sysmon
  let (result, t) ← execWords libs setup words s
  return (result, ⟨if t.node = s.node then levels else indent :: levels, t⟩)

/-- Reads lines up to one that is unknown. -/
def replay (libs : Libs) (setup : Registries.TcpSetup) : List CStr → Reader →
    Except Fault (Option Reader)
  | [], r => .ok (some r)
  | line :: lines, r => do
    let (result, r) ← readLine libs setup line r
    if result = .noMatch then return none
    else replay libs setup lines r

/-! ## Configurations -/

namespace Registries

/-- What a registry holds, in order. -/
def contents (s : Registries) (kind : Kind) : List (Option Entry) :=
  (s.elements kind).map Prod.snd

/-- The hosts and ports of the OpenVPN clients. -/
def endpoints (s : Registries) : List (Option Key) :=
  (s.contents .openvpnClient).map (Option.map Entry.key)

/-- The variables of each CTRL client, in order. -/
def clientVars (s : Registries) : List (List (Option CStr)) :=
  s.ctrl.ctrlClients.map s.ctrl.variableNames

end Registries

structure SameConfig (s t : Sysmon) : Prop where
  clients : s.registries.contents .ctrlClient = t.registries.contents .ctrlClient
  vars : s.registries.clientVars = t.registries.clientVars
  netdevs : s.registries.contents .netdev = t.registries.contents .netdev
  pings : s.pings.Perm t.pings
  openvpn : s.registries.endpoints = t.registries.endpoints
  files : s.registries.contents .file = t.registries.contents .file
  shellcmds : s.registries.contents .shellcmd = t.registries.contents .shellcmd
  sysinfo : s.sysinfoEnabled = t.sysinfoEnabled

/-- What is written gives the same configuration when it is read at the start. -/
def RoundTrips (libs : Libs) (s : Sysmon) : Prop :=
  ∀ setup, ∃ lines r, configWrite libs s = .ok lines ∧
    replay libs setup lines .start = .ok (some r) ∧ SameConfig s r.sysmon

/-! ## Commands without a line -/

/-- The commands that leave something behind that no callback writes. -/
def SysCommand.Unwritten (libs : Libs) (s : Sysmon) : SysCommand → Prop
  | .registry (.openvpn _ _ setup) => setup = .opened
  | .registry (.file _ _) => True
  | .registry (.shellcmd _ _) => True
  | .noSysinfo => True
  -- the variable is freed and stays linked
  | .noGetVariable _ => True
  | .ping host => 0 ≤ (libs.oping.hostAdd s.pings host).1 ∧ libs.username host = none
  | _ => False

/-- The input is not a line with such a command. -/
def Written (libs : Libs) (s : Sysmon) : Input → Prop
  | .line text setup => ∀ command,
    command? libs.vty setup s.node (libs.vty.split text).2 = some command →
      ¬ command.Unwritten libs s
  | .goParent => True

end OsmoSysmon
