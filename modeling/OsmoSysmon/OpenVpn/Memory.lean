import Mathlib.Data.Option.Basic
import Mathlib.Logic.Function.Basic
import OsmoSysmon.Lib.Blocks
import OsmoSysmon.Lib.Simulation
import OsmoSysmon.OpenVpn.Lifecycle
import OsmoSysmon.Registries.Basic

/-! # OpenVPN clients in memory

`osysmon_openvpn.c` again, with what it allocates: the client, its two `host_cfg`, the
connection and every string.  A string that is replaced is freed first, so each function
relies on nobody else holding it.
-/

namespace OsmoSysmon

open CText Talloc Loop

/-- `struct openvpn_client`; what is allocated below `g_oss` is at the top here. -/
structure VpnStruct where
  cfg : Option Ptr
  mgmt : Option Ptr
  remCfg : Option Ptr
  tunIp : Option Ptr
  connected : Bool

/-- `struct host_cfg`. -/
structure CfgStruct where
  name : Option Ptr
  remoteHost : Option Ptr
  remotePort : UInt16

inductive VpnCell where
  | client (vpn : VpnStruct)
  | hostCfg (cfg : CfgStruct)
  /-- `struct osmo_stream_cli`. -/
  | stream
  | str (text : CStr)
  /-- `struct msgb`. -/
  | msgb

/-- The pointers in an object. -/
def VpnCell.points : VpnCell → List Ptr
  | .client vpn => vpn.cfg.toList ++ vpn.mgmt.toList ++ vpn.remCfg.toList ++ vpn.tunIp.toList
  | .hostCfg cfg => cfg.name.toList ++ cfg.remoteHost.toList
  | .stream => []
  | .str _ => []
  | .msgb => []

abbrev VpnM := StateT (Heap VpnCell) (Except Fault)

namespace VpnM

/-! ## Memory -/

def load (p : Ptr) : VpnM VpnCell := do
  match (← get).get? p with
  | some cell => return cell
  | none => throw .useAfterFree

def deref (p : Option Ptr) : VpnM Ptr :=
  match p with
  | some p => pure p
  | none => throw .nullPointer

def loadClient (vpn : Ptr) : VpnM VpnStruct := do
  match ← load vpn with
  | .client s => return s
  | _ => throw .typeConfusion

def loadCfg (cfg : Ptr) : VpnM CfgStruct := do
  match ← load cfg with
  | .hostCfg s => return s
  | _ => throw .typeConfusion

def loadStr (s : Option Ptr) : VpnM CStr := do
  match ← load (← deref s) with
  | .str text => return text
  | _ => throw .typeConfusion

/-- A string that may be missing. -/
def loadStr? : Option Ptr → VpnM (Option CStr)
  | none => return none
  | some s => do return some (← loadStr (some s))

def store (p : Ptr) (cell : VpnCell) : VpnM Unit := do
  let _ ← load p
  modify fun h => h.set p cell

/-- `talloc_zero`, with what the object is filled with first. -/
def talloc (ctx : Option Ptr) (cell : VpnCell) : VpnM Ptr := do
  let h ← get
  set (h.alloc ctx cell)
  return h.next

def tallocStrdup (ctx : Ptr) : Option CStr → VpnM (Option Ptr)
  | none => return none
  | some text => do return some (← talloc (some ctx) (.str text))

/-- `talloc_free`, which does nothing to `NULL`. -/
def tallocFree : Option Ptr → VpnM Unit
  | none => return ()
  | some p => do
    let _ ← load p
    modify fun h => h.free p

/-- `osmo_talloc_replace_string`: the new value of `*dst`. -/
def tallocReplaceString (ctx : Ptr) (dst : Option Ptr) (newStr : CStr) : VpnM (Option Ptr) := do
  tallocFree dst
  tallocStrdup ctx (some newStr)

/-! ## `client.c` -/

def hostCfgAlloc (ctx : Ptr) (name : CStr) (host : Option CStr) (port : UInt16) : VpnM Ptr := do
  let cfg ← talloc (some ctx) (.hostCfg ⟨none, none, 0⟩)
  let name ← tallocStrdup cfg (some name)
  let remoteHost ← tallocStrdup cfg host
  store cfg (.hostCfg ⟨name, remoteHost, port⟩)
  return cfg

def updateName (cfg : Ptr) (newName : CStr) : VpnM Unit := do
  let c ← loadCfg cfg
  let name ← tallocReplaceString cfg c.name newName
  store cfg (.hostCfg { c with name })

def updateHost (cfg : Ptr) (newHost : CStr) : VpnM Unit := do
  let c ← loadCfg cfg
  let remoteHost ← tallocReplaceString cfg c.remoteHost newHost
  store cfg (.hostCfg { c with remoteHost })

/-- The text; the string that holds it goes with the node it is for. -/
def makeAuthority (cfg : Ptr) : VpnM (Option CStr) := do
  let c ← loadCfg cfg
  match c.remoteHost with
  | none => return none
  | some host =>
    let host ← loadStr (some host)
    return some (host ++ ascii ":" ++ decimal c.remotePort.toNat)

/-- `match_config` with `MATCH_HOST`; the name is compared as well. -/
def matchHost (cfg : Ptr) (host : CStr) : VpnM Bool := do
  let c ← loadCfg cfg
  let _ ← loadStr c.name
  return host == (← loadStr c.remoteHost)

/-- The address is copied into the new object. -/
def makeTcpClient (cfg : Ptr) : VpnM Ptr := do
  let cl ← talloc (some cfg) .stream
  let _ ← loadStr? (← loadCfg cfg).remoteHost
  return cl

/-! ## Callbacks -/

/-- `vpn->rem_cfg`. -/
def remCfg (vpn : Ptr) : VpnM Ptr := do deref (← loadClient vpn).remCfg

def storeToken (vpn : Ptr) (i : Nat) (tok : CStr) : VpnM Unit := do
  match i with
  | 1 => updateName (← remCfg vpn) tok
  | 2 =>
    let name ← loadStr (← loadCfg (← remCfg vpn)).name
    let buf := (name ++ ascii " (" ++ tok ++ ascii ")").take (stateBufSize - 1)
    updateName (← remCfg vpn) buf
  | 3 =>
    let v ← loadClient vpn
    let tunIp ← tallocReplaceString (← deref v.remCfg) v.tunIp tok
    store vpn (.client { v with tunIp })
  | 4 => updateHost (← remCfg vpn) tok
  | 5 =>
    let cfg ← remCfg vpn
    let c ← loadCfg cfg
    store cfg (.hostCfg { c with remotePort := UInt16.ofInt (atoi tok) })
  | _ => return ()

/-- The `strtok` loop. -/
def parseTokens (vpn : Ptr) (saved : CStr) : (left i : Nat) → VpnM Unit
  | 0, _ => return ()
  | left + 1, i =>
    match strtok comma saved with
    | none => return ()
    | some (tok, saved) => do
      storeToken vpn i tok
      parseTokens vpn saved left (i + 1)

def parseState (m : List UInt8) (vpn : Ptr) : VpnM Unit :=
  match m with
  | [] => return ()
  | b :: _ =>
    if isdigit b then parseTokens vpn (stateText m) maxRespComponents 0
    else return ()

def disconnectCb (vpn : Ptr) : VpnM Unit := do
  updateName (← remCfg vpn) (ascii "disconnected from openvpn management socket")
  let v ← loadClient vpn
  store vpn (.client { v with connected := false })
  tallocFree v.tunIp
  let c ← loadCfg (← deref v.remCfg)
  tallocFree c.remoteHost
  let v ← loadClient vpn
  store vpn (.client { v with tunIp := none })
  let cfg ← remCfg vpn
  let c ← loadCfg cfg
  store cfg (.hostCfg { c with remoteHost := none })

def connectCb (vpn : Ptr) : VpnM Unit := do
  updateName (← remCfg vpn) (ascii "connected to openvpn management socket")
  let v ← loadClient vpn
  store vpn (.client { v with connected := true })

def readCb (received : Option (List UInt8)) (vpn : Ptr) : VpnM Unit :=
  match received with
  | none => disconnectCb vpn
  | some [] => do
    disconnectCb vpn
    parseState [] vpn
  | some (b :: bs) => parseState (b :: bs) vpn

end VpnM

/-- What `openvpn_client_poll` makes known of a client: its node, the values below it in order
    and what it sends. -/
structure VpnReport where
  node : CStr
  values : List (CStr × CStr)
  sent : Option CStr
deriving DecidableEq, Repr

namespace VpnM

/-- `osmo_stream_cli_send`.  The stream takes the message over and frees it once it is
    written: from here on it is no longer the program's. -/
def streamSend (mgmt : Option Ptr) (msg : Ptr) : VpnM Unit := do
  let _ ← load (← deref mgmt)
  tallocFree (some msg)

def clientPoll (vpn : Ptr) : VpnM VpnReport := do
  let v ← loadClient vpn
  let remCfg ← deref v.remCfg
  let remote ← makeAuthority remCfg
  match ← makeAuthority (← deref v.cfg) with
  | none => throw .nullPointer
  | some node =>
    let msg ← talloc none .msgb
    let status ← loadStr? (← loadCfg remCfg).name
    let tunnel ← loadStr? v.tunIp
    let values := (status.map fun name => (ascii "status", name)).toList ++
      (tunnel.map fun ip => (ascii "tunnel", ip)).toList ++
      (remote.map fun remote => (ascii "remote", remote)).toList
    -- without a connection nothing is done with the message
    if v.connected then
      streamSend v.mgmt msg
      return ⟨node, values, some (ascii "state\n")⟩
    else return ⟨node, values, none⟩

/-! ## The list of clients -/

def findOrMake (host : CStr) (port : UInt16) : List Ptr → VpnM (Option Ptr)
  | [] => return none
  | vpn :: vpns => do
    let cfg ← deref (← loadClient vpn).cfg
    if (← matchHost cfg host) && (← loadCfg cfg).remotePort == port then return some vpn
    else findOrMake host port vpns

/-- `openvpn_client_create` up to `make_tcp_client`: the client and its `cfg`. -/
def clientMake (name host : CStr) (port : UInt16) : VpnM (Ptr × Ptr) := do
  let vpn ← talloc none (.client ⟨none, none, none, none, false⟩)
  let cfg ← hostCfgAlloc vpn name (some host) port
  store vpn (.client { ← loadClient vpn with cfg := some cfg })
  let remCfg ← hostCfgAlloc vpn (ascii "connecting to openvpn management socket") none 0
  store vpn (.client { ← loadClient vpn with remCfg := some remCfg })
  return (vpn, cfg)

/-- `openvpn_client_create` from there on.  The list is as after `llist_add_tail`. -/
def clientConnect (vpn cfg : Ptr) (setup : Registries.TcpSetup) (vpns : List Ptr) :
    VpnM (Bool × List Ptr) :=
  match setup with
  | .noClient => do
    tallocFree (some vpn)
    return (false, vpns)
  | .notOpened => do
    let mgmt ← makeTcpClient cfg
    store vpn (.client { ← loadClient vpn with mgmt := some mgmt })
    -- taking for granted that a stream which could not be opened has left no timer running
    tallocFree (some vpn)
    return (false, vpns)
  | .opened => do
    let mgmt ← makeTcpClient cfg
    store vpn (.client { ← loadClient vpn with mgmt := some mgmt })
    return (true, vpns ++ [vpn])

def clientCreate (name host : CStr) (port : UInt16) (setup : Registries.TcpSetup)
    (vpns : List Ptr) : VpnM (Bool × List Ptr) := do
  match ← findOrMake host port vpns with
  | some _ => return (true, vpns)
  | none =>
    let (vpn, cfg) ← clientMake name host port
    clientConnect vpn cfg setup vpns

/-- What is open is closed by `osmo_stream_cli_destroy`, which runs `disconnect_cb`. -/
def streamClose (vpn : Ptr) (isOpen : Bool) : VpnM Unit :=
  if isOpen then disconnectCb vpn else return ()

/-- `openvpn_client_destroy`. -/
def clientDestroy (vpn : Ptr) (isOpen : Bool) (vpns : List Ptr) : VpnM (List Ptr) := do
  let v ← loadClient vpn
  streamClose vpn isOpen
  tallocFree v.mgmt
  tallocFree (some vpn)
  return vpns.erase vpn

end VpnM

/-! ## What happens to the clients -/

inductive VpnCallback where
  | connect
  | disconnect
  /-- As for `readCb`. -/
  | read (received : Option (List UInt8))
deriving DecidableEq, Repr

def VpnCallback.run (vpn : Ptr) : VpnCallback → VpnM Unit
  | .connect => VpnM.connectCb vpn
  | .disconnect => VpnM.disconnectCb vpn
  | .read received => VpnM.readCb received vpn

inductive VpnInput where
  /-- The command `openvpn`. -/
  | add (host : CStr) (port : UInt16) (setup : Registries.TcpSetup)
  /-- The command `no openvpn`. -/
  | remove (host : CStr) (port : UInt16) (isOpen : Bool)
  /-- A callback of the `i`-th client. -/
  | callback (i : Nat) (event : VpnCallback)
  /-- `osysmon_openvpn_poll`. -/
  | poll
deriving DecidableEq, Repr

inductive VpnOutput where
  | result (result : CmdResult)
  | done
  | reports (reports : List VpnReport)
deriving DecidableEq, Repr

namespace VpnInput

def exec (vpns : List Ptr) : VpnInput → VpnM (VpnOutput × List Ptr)
  | .add host port setup => do
    let (created, vpns) ← VpnM.clientCreate (ascii "OpenVPN") host port setup vpns
    return (.result (if created then .success else .warning), vpns)
  | .remove host port isOpen => do
    match ← VpnM.findOrMake host port vpns with
    | none => return (.result .warning, vpns)
    | some vpn => return (.result .success, ← VpnM.clientDestroy vpn isOpen vpns)
  | .callback i event =>
    match vpns[i]? with
    | none => return (.done, vpns)
    | some vpn => do
      event.run vpn
      return (.done, vpns)
  | .poll => do return (.reports (← vpns.mapM VpnM.clientPoll), vpns)

/-- One input, with the list of clients in the state. -/
def step (input : VpnInput) (s : Heap VpnCell × List Ptr) :
    Except Fault (VpnOutput × (Heap VpnCell × List Ptr)) := do
  let ((output, vpns), h) ← input.exec s.2 s.1
  return (output, (h, vpns))

end VpnInput

/-! ## What memory holds -/

/-- The strings of a client. -/
inductive Slot where
  | cfgName
  | cfgHost
  | remName
  | remHost
  | tunIp
deriving DecidableEq, Repr

def Slot.text (c : OpenvpnClient) : Slot → Option CStr
  | .cfgName => some c.cfg.name
  | .cfgHost => c.cfg.remoteHost
  | .remName => some c.remCfg.name
  | .remHost => c.remCfg.remoteHost
  | .tunIp => c.tunIp

/-- Where the parts of a client are, and what its strings say. -/
structure Layout where
  cfg : Ptr
  mgmt : Ptr
  rem : Ptr
  str : Slot → Option (Ptr × CStr)

namespace Layout

def ptr (l : Layout) (s : Slot) : Option Ptr := (l.str s).map Prod.fst

def clientCell (l : Layout) (connected : Bool) : VpnCell :=
  .client ⟨some l.cfg, some l.mgmt, some l.rem, l.ptr .tunIp, connected⟩

def cfgCell (l : Layout) (port : UInt16) : VpnCell := .hostCfg ⟨l.ptr .cfgName, l.ptr .cfgHost, port⟩

def remCell (l : Layout) (port : UInt16) : VpnCell := .hostCfg ⟨l.ptr .remName, l.ptr .remHost, port⟩

/-- What a string is allocated below. -/
def ctx (l : Layout) : Slot → Ptr
  | .cfgName | .cfgHost => l.cfg
  | .remName | .remHost | .tunIp => l.rem

def assign (l : Layout) (s : Slot) (v : Option (Ptr × CStr)) : Layout :=
  { l with str := Function.update l.str s v }

/-- The three structures. -/
def IsStruct (l : Layout) (vpn q : Ptr) : Prop := q = vpn ∨ q = l.cfg ∨ q = l.rem

@[simp] theorem str_assign_self (l : Layout) (s : Slot) (v : Option (Ptr × CStr)) :
    (l.assign s v).str s = v := by
  simp only [assign, Function.update_self]

theorem str_assign_of_ne (l : Layout) {s t : Slot} (other : t ≠ s) (v : Option (Ptr × CStr)) :
    (l.assign s v).str t = l.str t := by
  simp only [assign, Function.update_of_ne other]

theorem assign_assign (l : Layout) (s : Slot) (v w : Option (Ptr × CStr)) :
    (l.assign s v).assign s w = l.assign s w := by
  rw [assign, assign, assign, Function.update_idem]

theorem assign_self (l : Layout) (s : Slot) : l.assign s (l.str s) = l := by
  rw [assign, Function.update_eq_self]

theorem ctx_struct (l : Layout) (vpn : Ptr) (s : Slot) : l.IsStruct vpn (l.ctx s) := by
  cases s with
  | cfgName | cfgHost => exact .inr (.inl rfl)
  | remName | remHost | tunIp => exact .inr (.inr rfl)

end Layout

/-- The objects of a client are where they are said to be, and nothing else is in its block.
    Nothing is said of what is in the three structures. -/
structure Parts (h : Heap VpnCell) (vpn : Ptr) (l : Layout) : Prop where
  client : ∃ a, h.cell? vpn = some ([], a)
  cfg : ∃ a, h.cell? l.cfg = some ([vpn], a)
  rem : ∃ a, h.cell? l.rem = some ([vpn], a)
  mgmt : h.cell? l.mgmt = some ([l.cfg, vpn], .stream)
  str : ∀ s p text, l.str s = some (p, text) → h.cell? p = some ([l.ctx s, vpn], .str text)
  cfg_ne_rem : l.cfg ≠ l.rem
  distinct : ∀ s t p x y, l.str s = some (p, x) → l.str t = some (p, y) → s = t
  exact : ∀ q os a, h.cell? q = some (os, a) → vpn ∈ os →
    q = l.cfg ∨ q = l.mgmt ∨ q = l.rem ∨ ∃ s text, l.str s = some (q, text)

/-- Memory holds the client. -/
structure Held (h : Heap VpnCell) (vpn : Ptr) (l : Layout) (c : OpenvpnClient) : Prop where
  parts : Parts h vpn l
  client : h.get? vpn = some (l.clientCell c.connected)
  cfg : h.get? l.cfg = some (l.cfgCell c.cfg.remotePort)
  rem : h.get? l.rem = some (l.remCell c.remCfg.remotePort)
  text : ∀ s, (l.str s).map Prod.snd = s.text c

namespace Parts

variable {h : Heap VpnCell} {vpn : Ptr} {l : Layout}

theorem cfg_ne_client (parts : Parts h vpn l) : l.cfg ≠ vpn := by
  intro same
  obtain ⟨a, cell⟩ := parts.cfg
  obtain ⟨b, cell'⟩ := parts.client
  rw [same, cell'] at cell
  simp at cell

theorem rem_ne_client (parts : Parts h vpn l) : l.rem ≠ vpn := by
  intro same
  obtain ⟨a, cell⟩ := parts.rem
  obtain ⟨b, cell'⟩ := parts.client
  rw [same, cell'] at cell
  simp at cell

/-- A structure is the client or right below it. -/
theorem struct_cell (parts : Parts h vpn l) {q : Ptr} (isStruct : l.IsStruct vpn q) :
    ∃ os a, h.cell? q = some (os, a) ∧ os.length ≤ 1 ∧ (q = vpn ∨ vpn ∈ os) := by
  rcases isStruct with rfl | rfl | rfl
  · obtain ⟨a, cell⟩ := parts.client
    exact ⟨_, a, cell, Nat.zero_le 1, .inl rfl⟩
  · obtain ⟨a, cell⟩ := parts.cfg
    exact ⟨_, a, cell, Nat.le_refl 1, .inr List.mem_cons_self⟩
  · obtain ⟨a, cell⟩ := parts.rem
    exact ⟨_, a, cell, Nat.le_refl 1, .inr List.mem_cons_self⟩

/-- What is deeper down is no structure. -/
theorem not_struct (parts : Parts h vpn l) {p q : Ptr} {a : VpnCell}
    (cell : h.cell? q = some ([p, vpn], a)) : ¬ l.IsStruct vpn q := by
  intro isStruct
  obtain ⟨os, b, cell', short, -⟩ := parts.struct_cell isStruct
  rw [cell] at cell'
  cases cell'
  simp at short

/-- What has something below it is a structure. -/
theorem owners_struct (parts : Parts h vpn l) {q : Ptr} {os : List Ptr} {a : VpnCell}
    (cell : h.cell? q = some (os, a)) (inBlock : vpn ∈ os) : ∀ r ∈ os, l.IsStruct vpn r := by
  have isRoot : ∀ r ∈ [vpn], l.IsStruct vpn r := List.forall_mem_singleton.mpr (.inl rfl)
  have sameOwners {os' : List Ptr} {b : VpnCell} (cell' : h.cell? q = some (os', b)) : os = os' := by
    rw [cell] at cell'
    exact (Prod.mk.inj (Option.some.inj cell')).1
  rcases parts.exact q os a cell inBlock with rfl | rfl | rfl | ⟨s, text, isStr⟩
  · obtain ⟨b, cell'⟩ := parts.cfg
    rw [sameOwners cell']
    exact isRoot
  · rw [sameOwners parts.mgmt]
    exact List.forall_mem_cons.mpr ⟨.inr (.inl rfl), isRoot⟩
  · obtain ⟨b, cell'⟩ := parts.rem
    rw [sameOwners cell']
    exact isRoot
  · rw [sameOwners (parts.str s q text isStr)]
    exact List.forall_mem_cons.mpr ⟨l.ctx_struct vpn s, isRoot⟩

/-- Nothing is allocated below a string. -/
theorem leaf (parts : Parts h vpn l) (chained : h.Chained) {s : Slot} {p : Ptr} {text : CStr}
    (isStr : l.str s = some (p, text)) {q : Ptr} {os : List Ptr} {a : VpnCell}
    (cell : h.cell? q = some (os, a)) : p ∉ os := by
  intro above
  have isCell := parts.str s p text isStr
  obtain ⟨ps, b, isCell', suffix⟩ := chained.above cell above
  rw [isCell] at isCell'
  cases isCell'
  have inBlock : vpn ∈ os := suffix.subset (by simp)
  exact parts.not_struct isCell (parts.owners_struct cell inBlock p above)

/-! ## Writing to a structure -/

theorem set (parts : Parts h vpn l) {q : Ptr} (isStruct : l.IsStruct vpn q) (value : VpnCell) :
    Parts (h.set q value) vpn l ∧ h.Frame vpn (h.set q value) := by
  have kept {p r : Ptr} {a : VpnCell} (cell : h.cell? p = some ([r, vpn], a)) :
      (h.set q value).cell? p = some ([r, vpn], a) := by
    rw [Heap.cell?_set, if_neg, cell]
    rintro rfl
    exact parts.not_struct cell isStruct
  constructor
  · constructor
    · obtain ⟨a, cell⟩ := parts.client
      exact Heap.cell_set cell q value
    · obtain ⟨a, cell⟩ := parts.cfg
      exact Heap.cell_set cell q value
    · obtain ⟨a, cell⟩ := parts.rem
      exact Heap.cell_set cell q value
    · exact kept parts.mgmt
    · exact fun s p text isStr => kept (parts.str s p text isStr)
    · exact parts.cfg_ne_rem
    · exact parts.distinct
    · intro p os a cell inBlock
      obtain ⟨b, isCell⟩ := Heap.cell_of_set cell
      exact parts.exact p os b isCell inBlock
  · obtain ⟨os, a, cell, -, inside⟩ := parts.struct_cell isStruct
    exact Heap.frame_set cell inside value

/-! ## Freeing a string and allocating one -/

theorem free (parts : Parts h vpn l) (chained : h.Chained) {s : Slot} {p : Ptr} {text : CStr}
    (isStr : l.str s = some (p, text)) :
    Parts (h.free p) vpn (l.assign s none) ∧ h.Frame vpn (h.free p) := by
  have isCell := parts.str s p text isStr
  have kept {q : Ptr} {os : List Ptr} {a : VpnCell} (cell : h.cell? q = some (os, a)) (other : q ≠ p) :
      (h.free p).cell? q = some (os, a) :=
    Heap.cell_free cell other (parts.leaf chained isStr cell)
  have structs {q : Ptr} (isStruct : l.IsStruct vpn q) : q ≠ p := by
    rintro rfl
    exact parts.not_struct isCell isStruct
  constructor
  · constructor
    · obtain ⟨a, cell⟩ := parts.client
      exact ⟨a, kept cell (structs (.inl rfl))⟩
    · obtain ⟨a, cell⟩ := parts.cfg
      exact ⟨a, kept cell (structs (.inr (.inl rfl)))⟩
    · obtain ⟨a, cell⟩ := parts.rem
      exact ⟨a, kept cell (structs (.inr (.inr rfl)))⟩
    · refine kept parts.mgmt ?_
      rintro rfl
      have isStream := isCell.symm.trans parts.mgmt
      simp at isStream
    · intro t q text' isStr'
      by_cases same : t = s
      · rw [same, Layout.str_assign_self] at isStr'
        cases isStr'
      · rw [Layout.str_assign_of_ne l same] at isStr'
        refine kept (parts.str t q text' isStr') ?_
        rintro rfl
        exact same (parts.distinct t s q text' text isStr' isStr)
    · exact parts.cfg_ne_rem
    · intro t u q x y isStr isStr'
      by_cases same : t = s
      · rw [same, Layout.str_assign_self] at isStr
        cases isStr
      · by_cases same' : u = s
        · rw [same', Layout.str_assign_self] at isStr'
          cases isStr'
        · rw [Layout.str_assign_of_ne l same] at isStr
          rw [Layout.str_assign_of_ne l same'] at isStr'
          exact parts.distinct t u q x y isStr isStr'
    · intro q os a cell inBlock
      obtain ⟨old, other, -⟩ := Heap.cell_of_free cell
      rcases parts.exact q os a old inBlock with isCfg | isMgmt | isRem | ⟨t, text', isStr'⟩
      · exact .inl isCfg
      · exact .inr (.inl isMgmt)
      · exact .inr (.inr (.inl isRem))
      · refine .inr (.inr (.inr ⟨t, text', ?_⟩))
        rw [Layout.str_assign_of_ne, isStr']
        rintro rfl
        rw [isStr] at isStr'
        cases isStr'
        exact other rfl
  · exact Heap.frame_free chained isCell (.inr (by simp))

theorem alloc (parts : Parts h vpn l) {s : Slot} (isNull : l.str s = none) (text : CStr) :
    Parts (h.alloc (some (l.ctx s)) (.str text)) vpn (l.assign s (some (h.next, text))) ∧
      h.Frame vpn (h.alloc (some (l.ctx s)) (.str text)) := by
  obtain ⟨a, isOwner⟩ : ∃ a, h.cell? (l.ctx s) = some ([vpn], a) := by
    cases s with
    | cfgName | cfgHost => exact parts.cfg
    | remName | remHost | tunIp => exact parts.rem
  have kept {q : Ptr} {c : List Ptr × VpnCell} (cell : h.cell? q = some c) :
      (h.alloc (some (l.ctx s)) (.str text)).cell? q = some c := by
    rw [Heap.cell?_alloc isOwner, if_neg (Heap.ne_next_of_cell cell), cell]
  have old {t : Slot} {q : Ptr} {x : CStr} (isStr : l.str t = some (q, x)) : q ≠ h.next :=
    Heap.ne_next_of_cell (parts.str t q x isStr)
  constructor
  · constructor
    · obtain ⟨a, cell⟩ := parts.client
      exact ⟨a, kept cell⟩
    · obtain ⟨a, cell⟩ := parts.cfg
      exact ⟨a, kept cell⟩
    · obtain ⟨a, cell⟩ := parts.rem
      exact ⟨a, kept cell⟩
    · exact kept parts.mgmt
    · intro t q text' isStr
      by_cases same : t = s
      · rw [same, Layout.str_assign_self] at isStr
        cases isStr
        rw [same, Heap.cell?_alloc isOwner, if_pos rfl]
        rfl
      · rw [Layout.str_assign_of_ne l same] at isStr
        exact kept (parts.str t q text' isStr)
    · exact parts.cfg_ne_rem
    · intro t u q x y isStr isStr'
      by_cases same : t = s
      · by_cases same' : u = s
        · rw [same, same']
        · rw [same, Layout.str_assign_self] at isStr
          rw [Layout.str_assign_of_ne l same'] at isStr'
          cases isStr
          exact absurd rfl (old isStr')
      · rw [Layout.str_assign_of_ne l same] at isStr
        by_cases same' : u = s
        · rw [same', Layout.str_assign_self] at isStr'
          cases isStr'
          exact absurd rfl (old isStr)
        · rw [Layout.str_assign_of_ne l same'] at isStr'
          exact parts.distinct t u q x y isStr isStr'
    · intro q os a cell inBlock
      rw [Heap.cell?_alloc isOwner] at cell
      split at cell
      · next new =>
        exact .inr (.inr (.inr ⟨s, text, by rw [Layout.str_assign_self, new]⟩))
      · rcases parts.exact q os a cell inBlock with isCfg | isMgmt | isRem | ⟨t, text', isStr⟩
        · exact .inl isCfg
        · exact .inr (.inl isMgmt)
        · exact .inr (.inr (.inl isRem))
        · refine .inr (.inr (.inr ⟨t, text', ?_⟩))
          rw [Layout.str_assign_of_ne, isStr]
          rintro rfl
          rw [isNull] at isStr
          cases isStr
  · exact Heap.frame_alloc isOwner (.inr (by simp)) _

end Parts

end OsmoSysmon
