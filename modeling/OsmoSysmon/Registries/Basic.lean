import OsmoSysmon.Ctrl.Commands
import OsmoSysmon.OpenVpn.Basic
import OsmoSysmon.Polls

/-! # The registries

The lists of `struct osysmon_state` and the VTY commands that add to them and remove
from them.  Five files have a registry of their own, each with its own functions.
-/

namespace OsmoSysmon

open CText Talloc

/-- An element of a registry. -/
inductive Entry where
  | ctrlClient (cfg : HostCfg)
  | openvpnClient (vpn : OpenvpnClient)
  | netdev (name : CStr)
  | file (of : OsysmonFile)
  | shellcmd (oc : OsysmonShellcmd)

inductive Kind where
  | ctrlClient
  | openvpnClient
  | netdev
  | file
  | shellcmd
deriving DecidableEq, Repr

structure Registries where
  /-- The CTRL clients, which have their objects in a heap of their own. -/
  ctrl : CtrlState
  /-- The objects of the other registries. -/
  heap : Heap Entry
  openvpnClients : List Ptr
  netdevs : List Ptr
  files : List Ptr
  shellcmds : List Ptr

namespace Registries

def empty : Registries where
  ctrl := CtrlState.empty
  heap := Heap.empty
  openvpnClients := []
  netdevs := []
  files := []
  shellcmds := []

def list (s : Registries) : Kind → List Ptr
  | .ctrlClient => s.ctrl.ctrlClients
  | .openvpnClient => s.openvpnClients
  | .netdev => s.netdevs
  | .file => s.files
  | .shellcmd => s.shellcmds

def relink (s : Registries) (kind : Kind) (f : List Ptr → List Ptr) : Registries :=
  match kind with
  | .ctrlClient => { s with ctrl := { s.ctrl with ctrlClients := f s.ctrl.ctrlClients } }
  | .openvpnClient => { s with openvpnClients := f s.openvpnClients }
  | .netdev => { s with netdevs := f s.netdevs }
  | .file => { s with files := f s.files }
  | .shellcmd => { s with shellcmds := f s.shellcmds }

/-- `talloc_zero` below `os`, and `llist_add_tail`. -/
def link (kind : Kind) (entry : Entry) (s : Registries) : Ptr × Registries :=
  (s.heap.next,
    { s.relink kind (· ++ [s.heap.next]) with heap := s.heap.alloc none entry })

/-- `llist_del` and `talloc_free`. -/
def unlink (kind : Kind) (p : Ptr) (s : Registries) : Registries :=
  { s.relink kind (·.erase p) with heap := s.heap.free p }

/-- The loop of the functions that find an element. -/
def findEntry (heap : Heap Entry) (isWanted : Entry → Except Fault Bool) :
    List Ptr → Except Fault (Option Ptr)
  | [] => .ok none
  | p :: ps =>
    match heap.get? p with
    | none => .error .useAfterFree
    | some entry => do
      if ← isWanted entry then return some p
      else findEntry heap isWanted ps

/-- Finds, and otherwise links a new element. -/
def addEntry (find : Registries → Except Fault (Option Ptr)) (kind : Kind) (entry : Entry)
    (s : Registries) : Except Fault (Option Ptr × Registries) := do
  match ← find s with
  | some _ => return (none, s)
  | none =>
    let (p, s) := s.link kind entry
    return (some p, s)

/-- Finds, and destroys what has been found. -/
def removeEntry (find : Registries → Except Fault (Option Ptr))
    (destroy : Ptr → Registries → Registries) (s : Registries) :
    Except Fault (CmdResult × Registries) := do
  match ← find s with
  | none => return (.warning, s)
  | some p => return (.success, destroy p s)

/-! ## OpenVPN clients -/

/-- How far `openvpn_client_create` gets with the connection. -/
inductive TcpSetup where
  /-- `make_tcp_client` returns `NULL`. -/
  | noClient
  /-- `osmo_stream_cli_open` fails. -/
  | notOpened
  | opened
deriving DecidableEq, Repr

def openvpnClientFindOrMake (host : CStr) (port : UInt16) (s : Registries) :
    Except Fault (Option Ptr) :=
  findEntry s.heap
    (fun
      | .openvpnClient vpn => do
        return (← matchConfig vpn.cfg host .host) && vpn.cfg.remotePort == port
      | _ => .error .typeConfusion)
    s.openvpnClients

def openvpnClientCreate (name host : CStr) (port : UInt16) (setup : TcpSetup) (s : Registries) :
    Except Fault (Bool × Registries) := do
  match ← openvpnClientFindOrMake host port s with
  | some _ => return (true, s)
  | none =>
    let vpn := OsmoSysmon.openvpnClientCreate name host port
    match setup with
    | .opened => return (true, (s.link .openvpnClient (.openvpnClient vpn)).2)
    -- dealloc
    | .noClient | .notOpened =>
      return (false, { s with heap := (s.heap.alloc none (.openvpnClient vpn)).free s.heap.next })

def openvpnClientDestroy (vpn : Ptr) (s : Registries) : Registries := s.unlink .openvpnClient vpn

def cfgOpenvpn (host : CStr) (port : UInt16) (setup : TcpSetup) (s : Registries) :
    Except Fault (CmdResult × Registries) := do
  let (created, s) ← openvpnClientCreate (ascii "OpenVPN") host port setup s
  -- "Failed to create OpenVPN client for %s:%u"
  return (if created then .success else .warning, s)

def cfgNoOpenvpn (host : CStr) (port : UInt16) : Registries → Except Fault (CmdResult × Registries) :=
  removeEntry (openvpnClientFindOrMake host port) openvpnClientDestroy

/-! ## Network devices -/

def netdevFind (name : CStr) (s : Registries) : Except Fault (Option Ptr) :=
  findEntry s.heap
    (fun
      | .netdev cfgName => .ok (name == cfgName)
      | _ => .error .typeConfusion)
    s.netdevs

def netdevCreate (name : CStr) : Registries → Except Fault (Option Ptr × Registries) :=
  addEntry (netdevFind name) .netdev (.netdev name)

def netdevDestroy (nd : Ptr) (s : Registries) : Registries := s.unlink .netdev nd

def cfgNetdev (name : CStr) (s : Registries) : Except Fault (CmdResult × Registries) := do
  match ← netdevFind name s with
  | some _ => return (.success, s)
  | none =>
    match ← netdevCreate name s with
    | (none, _) => throw .abort
    | (some _, s) => return (.success, s)

def cfgNoNetdev (name : CStr) : Registries → Except Fault (CmdResult × Registries) :=
  removeEntry (netdevFind name) netdevDestroy

/-! ## Files and shell commands -/

def osysmonFileFind (name : CStr) (s : Registries) : Except Fault (Option Ptr) :=
  findEntry s.heap
    (fun
      | .file of => .ok (of.name == name)
      | _ => .error .typeConfusion)
    s.files

def osysmonFileAdd (name path : CStr) : Registries → Except Fault (Option Ptr × Registries) :=
  addEntry (osysmonFileFind name) .file (.file ⟨name, path⟩)

def osysmonFileDestroy (of : Ptr) (s : Registries) : Registries := s.unlink .file of

def cfgFile (name path : CStr) (s : Registries) : Except Fault (CmdResult × Registries) := do
  let (of, s) ← osysmonFileAdd name path s
  -- "Couldn't add file-watcher, maybe it exists?"
  return (if of.isNone then .warning else .success, s)

def cfgNoFile (name : CStr) : Registries → Except Fault (CmdResult × Registries) :=
  removeEntry (osysmonFileFind name) osysmonFileDestroy

def osysmonShellcmdFind (name : CStr) (s : Registries) : Except Fault (Option Ptr) :=
  findEntry s.heap
    (fun
      | .shellcmd oc => .ok (oc.name == name)
      | _ => .error .typeConfusion)
    s.shellcmds

def osysmonShellcmdAdd (name cmd : CStr) : Registries → Except Fault (Option Ptr × Registries) :=
  addEntry (osysmonShellcmdFind name) .shellcmd (.shellcmd ⟨name, cmd⟩)

def osysmonShellcmdDestroy (oc : Ptr) (s : Registries) : Registries := s.unlink .shellcmd oc

/-- `concat` is what `argv_concat` makes of the words after the name. -/
def cfgShellcmd (name concat : CStr) (s : Registries) : Except Fault (CmdResult × Registries) := do
  let (oc, s) ← osysmonShellcmdAdd name concat s
  -- "Couldn't add shell cmd, maybe it exists?"
  return (if oc.isNone then .warning else .success, s)

def cfgNoShellcmd (name : CStr) : Registries → Except Fault (CmdResult × Registries) :=
  removeEntry (osysmonShellcmdFind name) osysmonShellcmdDestroy

/-! ## Commands -/

/-- A command on the CTRL clients. -/
def onCtrl (cmd : CtrlState → Except Fault (CmdResult × CtrlState)) (s : Registries) :
    Except Fault (CmdResult × Registries) := do
  let (result, ctrl) ← cmd s.ctrl
  return (result, { s with ctrl })

end Registries

/-- A command of the configuration node, with how the connection of a new client is set
    up. -/
inductive RegCommand where
  | ctrlClient (name host : CStr) (port : UInt16)
  | noCtrlClient (name : CStr)
  | openvpn (host : CStr) (port : UInt16) (setup : Registries.TcpSetup)
  | noOpenvpn (host : CStr) (port : UInt16)
  | netdev (name : CStr)
  | noNetdev (name : CStr)
  | file (name path : CStr)
  | noFile (name : CStr)
  | shellcmd (name concat : CStr)
  | noShellcmd (name : CStr)

namespace Registries

def exec : RegCommand → Registries → Except Fault (CmdResult × Registries)
  | .ctrlClient name host port => onCtrl (cfgCtrlClient name host port)
  | .noCtrlClient name => onCtrl (cfgNoCtrlClient name)
  | .openvpn host port setup => cfgOpenvpn host port setup
  | .noOpenvpn host port => cfgNoOpenvpn host port
  | .netdev name => cfgNetdev name
  | .noNetdev name => cfgNoNetdev name
  | .file name path => cfgFile name path
  | .noFile name => cfgNoFile name
  | .shellcmd name concat => cfgShellcmd name concat
  | .noShellcmd name => cfgNoShellcmd name

/-- Commands entered one after the other, here listed newest first, with what each of them
    has returned. -/
def execAll : List RegCommand → Except Fault (List (RegCommand × CmdResult) × Registries)
  | [] => .ok ([], empty)
  | command :: older => do
    let (log, s) ← execAll older
    let (result, s) ← exec command s
    return ((command, result) :: log, s)

end Registries

end OsmoSysmon
