import OsmoSysmon.HostCfg
import OsmoSysmon.Lib.Talloc

/-! # Configuring CTRL clients

`osysmon_ctrl.c`: the list of CTRL clients, the variables of each of them, and the VTY
commands that change them.  Lists link addresses of heap objects, and `vty->index` is
an address without a type, so every access looks its object up and may find it freed
or of the wrong kind.  Leaving a node is an event of its own, and every line is run strictly
in its node, as `vty_read_config_file` runs the lines of a file; a line that matches nothing
there is not tried in the parent nodes.
-/

namespace OsmoSysmon

open CText Talloc

/-- The objects of `osysmon_ctrl.c`.  A client's `host_cfg` is allocated and freed with
    it and is stored in it. -/
inductive CtrlObject where
  | client (cfg : HostCfg) (getVars : List Ptr)
  | getVar (cc : Ptr) (name : CStr)
deriving DecidableEq, Repr

inductive VtyNode where
  | config
  | ctrlClient
  | ctrlClientGetVar
deriving DecidableEq, Repr

/-- The configuration and the VTY session that changes it. -/
structure CtrlState where
  heap : Heap CtrlObject
  /-- `os->ctrl_clients`. -/
  ctrlClients : List Ptr
  node : VtyNode
  /-- `vty->index`. -/
  index : Option Ptr

inductive CmdResult where
  | success
  | warning
  /-- The node does not have the command. -/
  | noMatch
deriving DecidableEq, Repr

namespace CtrlState

def empty : CtrlState where
  heap := Heap.empty
  ctrlClients := []
  node := .config
  index := none

end CtrlState

def derefClient (heap : Heap CtrlObject) (cc : Ptr) : Except Fault (HostCfg × List Ptr) :=
  match heap.get? cc with
  | some (.client cfg getVars) => .ok (cfg, getVars)
  | some (.getVar _ _) => .error .typeConfusion
  | none => .error .useAfterFree

def derefGetVar (heap : Heap CtrlObject) (gv : Ptr) : Except Fault (Ptr × CStr) :=
  match heap.get? gv with
  | some (.getVar cc name) => .ok (cc, name)
  | some (.client _ _) => .error .typeConfusion
  | none => .error .useAfterFree

/-- `vty->index`, about to be dereferenced. -/
def indexPtr (s : CtrlState) : Except Fault Ptr :=
  match s.index with
  | none => .error .nullPointer
  | some p => .ok p

/-! ## Clients and their variables -/

/-- The loop of `ctrl_client_find`. -/
def ctrlClientFind (heap : Heap CtrlObject) (name : CStr) : List Ptr → Except Fault (Option Ptr)
  | [] => .ok none
  | cc :: ccs => do
    let (cfg, _) ← derefClient heap cc
    if ← matchConfig cfg name .name then return some cc
    else ctrlClientFind heap name ccs

/-- A client is allocated below `os`, which is never freed. -/
def ctrlClientCreate (name host : CStr) (port : UInt16) (s : CtrlState) :
    Except Fault (Option Ptr × CtrlState) := do
  match ← ctrlClientFind s.heap name s.ctrlClients with
  | some _ => return (none, s)
  | none =>
    let cc := s.heap.next
    let heap := s.heap.alloc none (.client (hostCfgAlloc name (some host) port) [])
    return (some cc, { s with heap, ctrlClients := s.ctrlClients ++ [cc] })

def ctrlClientDestroy (cc : Ptr) (s : CtrlState) : CtrlState :=
  { s with ctrlClients := s.ctrlClients.erase cc, heap := s.heap.free cc }

/-- The loop of `ctrl_client_get_var_find_or_create`. -/
def getVarFind (heap : Heap CtrlObject) (name : CStr) : List Ptr → Except Fault (Option Ptr)
  | [] => .ok none
  | gv :: gvs => do
    let (_, cfgName) ← derefGetVar heap gv
    if name == cfgName then return some gv
    else getVarFind heap name gvs

def ctrlClientGetVarFindOrCreate (cc : Ptr) (name : CStr) (s : CtrlState) :
    Except Fault (Ptr × CtrlState) := do
  let (cfg, getVars) ← derefClient s.heap cc
  match ← getVarFind s.heap name getVars with
  | some gv => return (gv, s)
  | none =>
    let gv := s.heap.next
    let heap := s.heap.alloc (some cc) (.getVar cc name)
    return (gv, { s with heap := heap.set cc (.client cfg (getVars ++ [gv])) })

/-! ## The VTY -/

def osysmonCtrlGoParent (s : CtrlState) : Except Fault CtrlState := do
  match s.node with
  | .ctrlClient => return { s with node := .config, index := none }
  | .ctrlClientGetVar =>
    let gv ← indexPtr s
    let (cc, _) ← derefGetVar s.heap gv
    return { s with node := .ctrlClient, index := some cc }
  | .config => return s

/-- The port argument has been checked to be a number in 1-65535. -/
def cfgCtrlClient (name host : CStr) (port : UInt16) (s : CtrlState) :
    Except Fault (CmdResult × CtrlState) := do
  match ← ctrlClientFind s.heap name s.ctrlClients with
  | some cc =>
    let (cfg, _) ← derefClient s.heap cc
    if cfg.remoteHost ≠ some host ∨ cfg.remotePort ≠ port then
      -- "Client %s has different IP/port, please remove it first"
      return (.warning, s)
    else
      return (.success, { s with node := .ctrlClient, index := some cc })
  | none =>
    match ← ctrlClientCreate name host port s with
    | (none, _) => throw .abort
    | (some cc, s) => return (.success, { s with node := .ctrlClient, index := some cc })

def cfgNoCtrlClient (name : CStr) (s : CtrlState) : Except Fault (CmdResult × CtrlState) := do
  match ← ctrlClientFind s.heap name s.ctrlClients with
  | none => return (.warning, s)
  | some cc => return (.success, ctrlClientDestroy cc s)

def cfgCtrlcGetVar (name : CStr) (s : CtrlState) : Except Fault (CmdResult × CtrlState) := do
  let cc ← indexPtr s
  let (ccgv, s) ← ctrlClientGetVarFindOrCreate cc name s
  return (.success, { s with node := .ctrlClientGetVar, index := some ccgv })

def cfgCtrlcNoGetVar (name : CStr) (s : CtrlState) : Except Fault (CmdResult × CtrlState) := do
  let cc ← indexPtr s
  let (ccgv, s) ← ctrlClientGetVarFindOrCreate cc name s
  -- the variable stays linked in the client's list
  return (.success, { s with heap := s.heap.free ccgv })

inductive Command where
  | ctrlClient (name host : CStr) (port : UInt16)
  | noCtrlClient (name : CStr)
  | getVariable (name : CStr)
  | noGetVariable (name : CStr)
  /-- Leaving the node. -/
  | goParent
deriving DecidableEq, Repr

/-- A line in the VTY: `osysmon_ctrl_vty_init` says which node has which command. -/
def exec (command : Command) (s : CtrlState) : Except Fault (CmdResult × CtrlState) :=
  match s.node, command with
  | _, .goParent => do return (.success, ← osysmonCtrlGoParent s)
  | .config, .ctrlClient name host port => cfgCtrlClient name host port s
  | .config, .noCtrlClient name => cfgNoCtrlClient name s
  | .ctrlClient, .getVariable name => cfgCtrlcGetVar name s
  | .ctrlClient, .noGetVariable name => cfgCtrlcNoGetVar name s
  | _, _ => .ok (.noMatch, s)

/-- The lines of a session, one after the other. -/
def execAll : List Command → CtrlState → Except Fault CtrlState
  | [], s => .ok s
  | command :: commands, s => do
    let (_, s) ← exec command s
    execAll commands s

end OsmoSysmon
