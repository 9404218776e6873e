import Mathlib.Logic.Function.Basic
import OsmoSysmon.Config.Write
import OsmoSysmon.OpenVpn.Lifecycle

/-! # The program

`main` reads the configuration file and then waits in `osmo_select_main` for ever.  What
happens there is that a callback of a management connection runs, or that the timer expires
and `print_nodes` polls what the lists of `g_oss` hold.  Every access to an element of a list
looks its object up.
-/

namespace OsmoSysmon

open CText Talloc

/-- `g_oss`, the variables of `osysmon_main.c` and the tree that is being built. -/
structure Process (H : Type) where
  sysmon : Sysmon
  /-- `cc->sch` of the CTRL clients. -/
  handles : Ptr → Option H
  nodes : Nodes
  /-- What `osysmon_ping_init` returned. -/
  pingInit : Int
  oneshot : Bool
  /-- `exit(0)` has been called. -/
  exited : Bool

abbrev ProcessM (H : Type) := StateT (Process H) (Except Fault)

namespace Process

variable {H : Type}

def registries (p : Process H) : Registries := p.sysmon.registries

/-- A statement that works on the tree. -/
def onTree {α : Type} (m : NodeM α) : ProcessM H α := do
  let p ← get
  let (a, nodes) ← (m p.nodes : Except Fault (α × Nodes))
  set { p with nodes }
  return a

/-! ## Elements of lists -/

/-- An element of a list that holds elements of one type. -/
def derefAs {α : Type} (as? : Entry → Option α) (q : Ptr) : ProcessM H α := do
  match (← get).registries.heap.get? q with
  | none => throw .useAfterFree
  | some entry =>
    match as? entry with
    | none => throw .typeConfusion
    | some a => return a

def derefOpenvpnClient : Ptr → ProcessM H OpenvpnClient :=
  derefAs fun
    | .openvpnClient vpn => some vpn
    | _ => none

def derefNetdev : Ptr → ProcessM H CStr :=
  derefAs fun
    | .netdev name => some name
    | _ => none

def derefFile : Ptr → ProcessM H OsysmonFile :=
  derefAs fun
    | .file of => some of
    | _ => none

def derefShellcmd : Ptr → ProcessM H OsysmonShellcmd :=
  derefAs fun
    | .shellcmd oc => some oc
    | _ => none

/-- The names in `cc->get_vars`. -/
def getVarNames (heap : Heap CtrlObject) (getVars : List Ptr) : Except Fault (List CStr) :=
  getVars.mapM fun gv => do return (← derefGetVar heap gv).2

/-- A client with its variables, also those that a poll does not get to. -/
def derefCtrlClient (q : Ptr) : ProcessM H (CtrlClient H) := do
  let p ← get
  let (cfg, getVars) ← (derefClient p.registries.ctrl.heap q : Except Fault (HostCfg × List Ptr))
  let names ← (getVarNames p.registries.ctrl.heap getVars : Except Fault (List CStr))
  return ⟨cfg, p.handles q, names⟩

/-! ## Polls -/

/-- `llist_for_each_entry`, with a poll of each element. -/
def forEach {α β : Type} (deref : Ptr → ProcessM H α) (poll : α → NodeM β) (ps : List Ptr) :
    ProcessM H Unit :=
  ps.forM fun q => do
    let a ← deref q
    let _ ← onTree (poll a)

def osysmonOpenvpnPoll (parent : Option Ptr) : ProcessM H Unit := do
  let vpns := (← get).registries.openvpnClients
  if vpns.isEmpty then return
  else
    let vnVpn ← onTree (valueNodeAdd parent (ascii "OpenVPN") none)
    forEach derefOpenvpnClient (fun vpn => openvpnClientPoll vpn vnVpn) vpns

def osysmonSysinfoPoll (si : Option SysInfo) (parent : Option Ptr) : ProcessM H Unit := do
  let enabled := (← get).sysmon.sysinfoEnabled
  let _ ← onTree (OsmoSysmon.osysmonSysinfoPoll enabled si parent)

def ctrlClientPoll (api : CtrlApi H) (parent : Option Ptr) (q : Ptr) : ProcessM H Unit := do
  let cc ← derefCtrlClient q
  let cc ← onTree (OsmoSysmon.ctrlClientPoll api cc parent)
  modify fun p => { p with handles := Function.update p.handles q cc.sch }

def osysmonCtrlPoll (api : CtrlApi H) (parent : Option Ptr) : ProcessM H Unit := do
  (← get).registries.ctrl.ctrlClients.forM (ctrlClientPoll api parent)

/-- `data_cb` compares names with those of the list. -/
def osysmonRtnlPoll (netlink : Option (List LinkMsg × List AddrMsg)) (parent : Option Ptr) :
    ProcessM H Unit := do
  let netdevs ← (← get).registries.netdevs.mapM derefNetdev
  let _ ← onTree (OsmoSysmon.osysmonRtnlPoll netdevs netlink parent)

def osysmonPingPoll (ping : CStr → PingInfo) (parent : Option Ptr) : ProcessM H Unit := do
  let hosts := (← get).sysmon.pings
  let _ ← onTree (OsmoSysmon.osysmonPingPoll (hosts.map ping) parent)

def osysmonFilePoll (contents : OsysmonFile → Option (List UInt8)) (parent : Option Ptr) :
    ProcessM H Unit := do
  let files := (← get).registries.files
  if files.isEmpty then return
  else
    let vnFile ← onTree (valueNodeAdd parent (ascii "file") none)
    forEach derefFile (fun of => osysmonFileRead of (contents of) vnFile) files

def osysmonShellcmdPoll (outcome : OsysmonShellcmd → ShellOutcome) (parent : Option Ptr) :
    ProcessM H Unit := do
  let shellcmds := (← get).registries.shellcmds
  if shellcmds.isEmpty then return
  else
    let vnFile ← onTree (valueNodeAdd parent (ascii "shellcmd") none)
    forEach derefShellcmd (fun oc => osysmonShellcmdRun oc (outcome oc) vnFile) shellcmds

/-- Returns the lines that are printed. -/
def printNodes (probes : Probes H) : ProcessM H (List CStr) := do
  let root ← onTree (valueNodeAdd none (ascii "root") none)
  osysmonOpenvpnPoll root
  osysmonSysinfoPoll probes.sysinfo root
  osysmonCtrlPoll probes.ctrl root
  osysmonRtnlPoll probes.netlink root
  if (← get).pingInit = 0 then osysmonPingPoll probes.ping root
  osysmonFilePoll probes.file root
  osysmonShellcmdPoll probes.shell root
  let lines ← onTree (displayUpdate root)
  onTree (valueNodeDel root)
  modify fun p => { p with exited := p.oneshot }
  return lines

end Process

/-! ## The main loop -/

inductive MainEvent (H : Type) where
  /-- A callback of the `i`-th management connection. -/
  | callback (i : Nat) (event : OpenvpnEvent)
  /-- `print_timer` expires; what the monitored systems answer. -/
  | timer (probes : Probes H)

namespace Process

variable {H : Type}

def write (q : Ptr) (entry : Entry) (p : Process H) : Process H :=
  { p with sysmon.registries.heap := p.registries.heap.set q entry }

/-- Where there is no such connection nothing is called. -/
def callback (i : Nat) (event : OpenvpnEvent) : ProcessM H Unit := do
  match (← get).registries.openvpnClients[i]? with
  | none => pure ()
  | some q =>
    let vpn ← derefOpenvpnClient q
    modify (write q (.openvpnClient (event.step vpn)))

/-- One turn of the loop, with what it prints. -/
def handle (event : MainEvent H) : ProcessM H (Option (List CStr)) := do
  if (← get).exited then return none
  else
    match event with
    | .callback i event =>
      callback i event
      return none
    | .timer probes => return some (← printNodes probes)

end Process

/-! ## The start -/

end OsmoSysmon
