import OsmoSysmon.OpenVpn.Basic
import OsmoSysmon.ValueNode

/-! # The poll cycle

The poll functions of `osysmon_*.c`, each of which adds what it has found out to the tree
of values, and `print_nodes`, which runs them all, prints the tree and frees it.

What a monitored system answers is a parameter of its poll function.  `vn` stands for a
pointer to a node, which may be `NULL`, as `value_node_add` returns it for a name that is
taken.
-/

namespace OsmoSysmon

open CText Talloc

/-- `value_node_add` of values that a poll function has collected for one node. -/
def addValues (vn : Option Ptr) : List (CStr × CStr) → NodeM Unit
  | [] => pure ()
  | (name, value) :: values => do
    let _ ← valueNodeAdd vn name (some value)
    addValues vn values

/-! ## OpenVPN -/

/-- Returns what is handed to `osmo_stream_cli_send`, if anything. -/
def openvpnClientPoll (vpn : OpenvpnClient) (parent : Option Ptr) : NodeM (Option CStr) :=
  match makeAuthority vpn.cfg with
  -- a management interface is configured with its address
  | none => throw .nullPointer
  | some authority => do
    let vnHost ← valueNodeFindOrAdd parent authority
    addValues vnHost (openvpnClientValues vpn)
    -- re-trigger state command
    return if vpn.connected then some (ascii "state\n") else none

def pollOpenvpnClients (vn : Option Ptr) : List OpenvpnClient → NodeM Unit
  | [] => pure ()
  | vpn :: vpns => do
    let _ ← openvpnClientPoll vpn vn
    pollOpenvpnClients vn vpns

def osysmonOpenvpnPoll (vpns : List OpenvpnClient) (parent : Option Ptr) : NodeM Nat := do
  if vpns.isEmpty then return 0
  else
    let vnVpn ← valueNodeAdd parent (ascii "OpenVPN") none
    pollOpenvpnClients vnVpn vpns
    return vpns.length

/-! ## System information -/

/-- The fields of `struct sysinfo` that are used. -/
structure SysInfo where
  /-- The three load factors, printed with `"%.2f/%.2f/%.2f"`. -/
  loads : CStr
  totalram : UInt64
  freeram : UInt64
  sharedram : UInt64
  memUnit : UInt32
  uptime : UInt64
  /-- Sizes are given in units of at least a byte and at most a megabyte. -/
  unit : 0 < memUnit ∧ memUnit ≤ 1048576

/-- `sizeof(buf)` in `osysmon_sysinfo_poll`. -/
def sysinfoBufSize : Nat := 32

def SysInfo.toMbytes (si : SysInfo) (n : UInt64) : CStr :=
  decimal (n.toNat / (1048576 / si.memUnit.toNat))

/-- `"%02lu"`. -/
def decimal2 (n : Nat) : CStr := if n < 10 then ascii "0" ++ decimal n else decimal n

def SysInfo.ram (si : SysInfo) : CStr :=
  si.toMbytes si.totalram ++ ascii "/" ++ si.toMbytes si.freeram ++ ascii "/" ++
    si.toMbytes si.sharedram

def SysInfo.uptimeText (si : SysInfo) : CStr :=
  let up := si.uptime.toNat
  decimal (up / (60 * 60 * 24)) ++ ascii "d " ++ decimal2 (up / (60 * 60) % 24) ++ ascii ":" ++
    decimal2 (up / 60 % 60) ++ ascii ":" ++ decimal2 (up % 60)

def SysInfo.values (si : SysInfo) : List (CStr × CStr) :=
  [(ascii "load", si.loads.take (sysinfoBufSize - 1)),
    (ascii "ram", si.ram.take (sysinfoBufSize - 1)),
    (ascii "uptime", si.uptimeText.take (sysinfoBufSize - 1))]

/-- `si` is what `sysinfo` fills in, unless it fails. -/
def osysmonSysinfoPoll (enabled : Bool) (si : Option SysInfo) (parent : Option Ptr) :
    NodeM Int := do
  if enabled then
    let vnSysinfo ← valueNodeAdd parent (ascii "sysinfo") none
    match si with
    | none => return -1
    | some si => do
      addValues vnSysinfo si.values
      return 0
  else return 0

/-! ## CTRL clients -/

/-- The CTRL interface: a handle stands for the connection behind it as well. -/
structure CtrlApi (H : Type) where
  /-- `simple_ctrl_open`. -/
  connect : HostCfg → Option H
  /-- `simple_ctrl_get`. -/
  query : H → CStr → Option CStr × H

structure CtrlClient (H : Type) where
  cfg : HostCfg
  sch : Option H
  getVars : List CStr

section

variable {H : Type}

/-- The loop over `get_vars`.  Returns the handle, unless it has been closed. -/
def pollGetVars (api : CtrlApi H) (vnClnt : Option Ptr) (sch : H) : List CStr → NodeM (Option H)
  | [] => return some sch
  | name :: names => do
    match api.query sch name with
    -- Close connection on error
    | (none, _) => return none
    | (some value, sch) => do
      let _ ← valueNodeAdd vnClnt name (some value)
      pollGetVars api vnClnt sch names

def ctrlClientPoll (api : CtrlApi H) (cc : CtrlClient H) (parent : Option Ptr) :
    NodeM (CtrlClient H) := do
  let vnClnt ← valueNodeAdd parent cc.cfg.name none
  -- attempt to re-connect
  match cc.sch <|> api.connect cc.cfg with
  | none => return { cc with sch := none }
  | some sch => do
    let sch ← pollGetVars api vnClnt sch cc.getVars
    return { cc with sch }

def osysmonCtrlPoll (api : CtrlApi H) (parent : Option Ptr) :
    List (CtrlClient H) → NodeM (List (CtrlClient H))
  | [] => return []
  | cc :: ccs => do
    let cc ← ctrlClientPoll api cc parent
    let ccs ← osysmonCtrlPoll api parent ccs
    return cc :: ccs

end

/-! ## Network devices -/

/-- An `RTM_NEWLINK` message, as far as `data_cb` looks at it. -/
structure LinkMsg where
  index : Int32
  flags : UInt32
  ifname : Option CStr
  address : Option (List UInt8)
deriving DecidableEq, Repr

/-- The address of an `RTM_NEWADDR` message. -/
structure InAddr where
  a : UInt8
  b : UInt8
  c : UInt8
  d : UInt8
deriving DecidableEq, Repr

structure AddrMsg where
  index : UInt32
  family : UInt8
  prefixlen : UInt8
  address : Option InAddr
deriving DecidableEq, Repr

/-- `IFF_UP`. -/
def iffUp : UInt32 := 0x1

/-- `IFF_RUNNING`. -/
def iffRunning : UInt32 := 0x40

/-- `AF_INET`. -/
def afInet : UInt8 := 2

def hexDigit (n : UInt8) : UInt8 := if n < 10 then 48 + n else 87 + n

/-- `"%02x"`. -/
def hex2 (b : UInt8) : CStr := [hexDigit (b / 16), hexDigit (b % 16)]

def LinkMsg.hwaddr (msg : LinkMsg) : Option CStr :=
  match msg.address with
  | some [a, b, c, d, e, f] =>
    some (hex2 a ++ ascii ":" ++ hex2 b ++ ascii ":" ++ hex2 c ++ ascii ":" ++ hex2 d ++
      ascii ":" ++ hex2 e ++ ascii ":" ++ hex2 f)
  | _ => none

def boolText (b : Bool) : CStr := if b then ascii "true" else ascii "false"

def LinkMsg.values (msg : LinkMsg) : List (CStr × CStr) :=
  (msg.hwaddr.map fun hwaddr => (ascii "hwaddr", hwaddr)).toList ++
    [(ascii "running", boolText (msg.flags &&& iffRunning != 0)),
      (ascii "up", boolText (msg.flags &&& iffUp != 0))]

def AddrMsg.values (msg : AddrMsg) : List (CStr × CStr) :=
  if msg.family = afInet then
    (msg.address.map fun addr =>
      (ascii "ip",
        decimal addr.a.toNat ++ ascii "." ++ decimal addr.b.toNat ++ ascii "." ++
          decimal addr.c.toNat ++ ascii "." ++ decimal addr.d.toNat ++ ascii "/" ++
          decimal msg.prefixlen.toNat)).toList
  else []

def dataCb (netdevs : List CStr) (parent : Option Ptr) (msg : LinkMsg) : NodeM Unit :=
  match msg.ifname with
  | none => pure ()
  | some name => do
    -- skip any non-configured interface names
    if name ∈ netdevs then
      match ← valueNodeFindOrAdd parent name with
      | none => throw .abort
      | some vnIf => do
        modifyNode (some vnIf) fun node => { node with idx := msg.index }
        addValues (some vnIf) msg.values
    else pure ()

def inetDataCb (parent : Option Ptr) (msg : AddrMsg) : NodeM Unit := do
  match ← valueNodeFindByIdx parent msg.index.toInt32 with
  | none => pure ()
  | some vnIf => addValues (some vnIf) msg.values

/-- The messages that the link dump delivers. -/
def rtnlUpdateLink (netdevs : List CStr) (vnNet : Option Ptr) : List LinkMsg → NodeM Unit
  | [] => pure ()
  | msg :: msgs => do
    dataCb netdevs vnNet msg
    rtnlUpdateLink netdevs vnNet msgs

/-- The messages that the address dump delivers. -/
def rtnlUpdateAddr (vnNet : Option Ptr) : List AddrMsg → NodeM Unit
  | [] => pure ()
  | msg :: msgs => do
    inetDataCb vnNet msg
    rtnlUpdateAddr vnNet msgs

/-- `netlink` is what the two dumps deliver, or `none` if there is no socket. -/
def osysmonRtnlPoll (netdevs : List CStr) (netlink : Option (List LinkMsg × List AddrMsg))
    (parent : Option Ptr) : NodeM Int := do
  if netdevs.isEmpty then return 0
  else
    let vnNet ← valueNodeAdd parent (ascii "netdev") none
    match netlink with
    | none => return -1
    | some (links, addrs) => do
      rtnlUpdateLink netdevs vnNet links
      rtnlUpdateAddr vnNet addrs
      return 0

/-! ## Ping hosts -/

/-- What `ping_iterator_get_info` says about a host; `none` where it fails. -/
structure PingInfo where
  username : Option CStr
  address : Option CStr
  dropped : Option UInt32
  sequence : Option UInt32
  /-- The latency printed with `"%.1lf ms"`, or `none` if it is at most -1. -/
  latency : Option (Option CStr)
  recvTtl : Option Int32

def addDrop (info : PingInfo) : List (CStr × CStr) :=
  match info.dropped, info.sequence with
  | some drop, some seq =>
    [(ascii "dropped", decimal drop.toNat ++ ascii "/" ++ decimal seq.toNat)]
  | _, _ => []

def addLatency (info : PingInfo) : List (CStr × CStr) :=
  match info.latency with
  | some (some text) => [(ascii "latency", text)]
  | _ => []

def addTtl (info : PingInfo) : List (CStr × CStr) :=
  match info.recvTtl with
  | some ttl => if -1 < ttl.toInt then [(ascii "TTL", decimal ttl.toInt.toNat)] else []
  | none => []

inductive PingResult where
  | noHosts
  /-- `-ENOMEM`. -/
  | noMemory
  /-- `-EINVAL`. -/
  | invalid
  /-- `ping_send` has been called. -/
  | sent
deriving DecidableEq, Repr

/-- The loop over the hosts, with what has been found out about each. -/
def pollPingHosts (vnPing : Ptr) : List PingInfo → NodeM PingResult
  | [] => return .sent
  | info :: infos =>
    match info.username with
    | none => return .invalid
    | some name => do
      match ← valueNodeFindOrAdd (some vnPing) name with
      | none => return .noMemory
      | some vnHost =>
        match info.address with
        | none => return .invalid
        | some ip => do
          addValues (some vnHost)
            ([(ascii "IP", ip)] ++ addDrop info ++ addLatency info ++ addTtl info)
          pollPingHosts vnPing infos

def osysmonPingPoll (hosts : List PingInfo) (parent : Option Ptr) : NodeM PingResult := do
  if hosts.isEmpty then return .noHosts
  else
    match ← valueNodeAdd parent (ascii "ping") none with
    | none => return .noMemory
    | some vnPing => pollPingHosts vnPing hosts

/-! ## Files and shell commands -/

structure OsysmonFile where
  name : CStr
  path : CStr

/-- `sizeof(buf)` in `osysmon_file_read` and in `osysmon_shellcmd_run`. -/
def lineBufSize : Nat := 512

def newline : UInt8 := 10

/-- What `osysmon_file_read` reports of a file that `fopen` opens, or not. -/
def fileText : (contents : Option (List UInt8)) → CStr
  | none => ascii "<NOTFOUND>"
  | some [] => ascii "<EMPTY>"
  | some (b :: bs) =>
    -- a line as far as it fits, read as a string, without the newline
    ((b :: bs).take (lineBufSize - 1)).takeWhile fun c => c != newline && c != 0

def osysmonFileRead (file : OsysmonFile) (contents : Option (List UInt8)) (parent : Option Ptr) :
    NodeM Unit := do
  let _ ← valueNodeAdd parent file.name (some (fileText contents))

def readFiles (contents : OsysmonFile → Option (List UInt8)) (vnFile : Option Ptr) :
    List OsysmonFile → NodeM Unit
  | [] => pure ()
  | file :: files => do
    osysmonFileRead file (contents file) vnFile
    readFiles contents vnFile files

def osysmonFilePoll (files : List OsysmonFile) (contents : OsysmonFile → Option (List UInt8))
    (parent : Option Ptr) : NodeM Int := do
  if files.isEmpty then return 0
  else
    let vnFile ← valueNodeAdd parent (ascii "file") none
    readFiles contents vnFile files
    return 0

structure OsysmonShellcmd where
  name : CStr
  cmd : CStr

inductive ShellOutcome where
  /-- `popen` fails with this `errno`. -/
  | failed (errno : Nat)
  /-- The pieces in which `fread` finds the output. -/
  | output (chunks : List (List UInt8))

/-- The `fread` loop of `osysmon_shellcmd_run`; `buf` is what has been read. -/
def readOutput (buf : List UInt8) : (chunks : List (List UInt8)) → List UInt8
  | [] => buf
  | chunk :: chunks =>
    match chunk.take (lineBufSize - 1 - buf.length) with
    | [] => buf
    | b :: bs => readOutput (buf ++ b :: bs) chunks

/-- Remove final new line if exists -/
def dropFinalNewline (buf : List UInt8) : List UInt8 :=
  if buf.getLast? = some newline then buf.dropLast else buf

def shellText : ShellOutcome → CStr
  | .failed errno => ascii "<popen failed (" ++ decimal errno ++ ascii ")>"
  | .output chunks =>
    let buf := readOutput [] chunks
    if buf = [] then ascii "<EMPTY>" else (dropFinalNewline buf).takeWhile (· != 0)

def osysmonShellcmdRun (shellcmd : OsysmonShellcmd) (outcome : ShellOutcome)
    (parent : Option Ptr) : NodeM Unit := do
  let _ ← valueNodeAdd parent shellcmd.name (some (shellText outcome))

def runShellcmds (outcome : OsysmonShellcmd → ShellOutcome) (vnFile : Option Ptr) :
    List OsysmonShellcmd → NodeM Unit
  | [] => pure ()
  | shellcmd :: shellcmds => do
    osysmonShellcmdRun shellcmd (outcome shellcmd) vnFile
    runShellcmds outcome vnFile shellcmds

def osysmonShellcmdPoll (shellcmds : List OsysmonShellcmd)
    (outcome : OsysmonShellcmd → ShellOutcome) (parent : Option Ptr) : NodeM Int := do
  if shellcmds.isEmpty then return 0
  else
    let vnFile ← valueNodeAdd parent (ascii "shellcmd") none
    runShellcmds outcome vnFile shellcmds
    return 0

/-! ## The cycle -/

/-- The configuration, with what the VTY commands make sure of. -/
structure OsysmonState (H : Type) where
  openvpnClients : List OpenvpnClient
  sysinfoEnabled : Bool
  ctrlClients : List (CtrlClient H)
  netdevs : List CStr
  /-- What `osysmon_ping_init` returned. -/
  pingInit : Int
  pings : List CStr
  files : List OsysmonFile
  shellcmds : List OsysmonShellcmd
  ctrlNames : (ctrlClients.map fun cc => cc.cfg.name).Nodup
  openvpnHosts : ∀ vpn ∈ openvpnClients, ∃ host, vpn.cfg.remoteHost = some host
  /-- No host can be added to a list that has not been set up. -/
  pingHosts : pingInit ≠ 0 → pings = []

/-- What the monitored systems answer in one cycle. -/
structure Probes (H : Type) where
  ctrl : CtrlApi H
  sysinfo : Option SysInfo
  netlink : Option (List LinkMsg × List AddrMsg)
  ping : CStr → PingInfo
  file : OsysmonFile → Option (List UInt8)
  shell : OsysmonShellcmd → ShellOutcome

section

variable {H : Type}

/-- The part of `print_nodes` that builds the tree. -/
def pollNodes (os : OsysmonState H) (probes : Probes H) :
    NodeM (Option Ptr × List (CtrlClient H)) := do
  let root ← valueNodeAdd none (ascii "root") none
  let _ ← osysmonOpenvpnPoll os.openvpnClients root
  let _ ← osysmonSysinfoPoll os.sysinfoEnabled probes.sysinfo root
  let ctrlClients ← osysmonCtrlPoll probes.ctrl root os.ctrlClients
  let _ ← osysmonRtnlPoll os.netdevs probes.netlink root
  if os.pingInit = 0 then
    let _ ← osysmonPingPoll (os.pings.map probes.ping) root
  let _ ← osysmonFilePoll os.files probes.file root
  let _ ← osysmonShellcmdPoll os.shellcmds probes.shell root
  return (root, ctrlClients)

/-- The lines that `print_node` prints.  It goes down at most `fuel` levels; a list of
    children that led back to an ancestor would be printed for ever. -/
def printNode (heap : Heap ValueNode) : (fuel : Nat) → Ptr → (indent : Nat) → Except Fault (List CStr)
  | 0, _, _ => .error .blocked
  | fuel + 1, node, indent => do
    let vn ← derefNode heap (some node)
    let name := List.replicate indent 32 ++ vn.name.getD (ascii "(null)")
    match vn.value with
    | some value => return [name ++ ascii ": " ++ value]
    | none => do
      let below ← vn.children.mapM fun child => printNode heap fuel child (indent + 2)
      return name :: below.flatten

def displayUpdate (root : Option Ptr) : NodeM (List CStr) := do
  let s ← get
  match root with
  | none => throw .nullPointer
  | some root => (printNode s.heap s.heap.next root 0 : Except Fault (List CStr))

/-- Returns the lines and the clients, whose connections may have been opened or closed. -/
def printNodes (os : OsysmonState H) (probes : Probes H) :
    NodeM (List CStr × List (CtrlClient H)) := do
  let (root, ctrlClients) ← pollNodes os probes
  let lines ← displayUpdate root
  valueNodeDel root
  return (lines, ctrlClients)

end

end OsmoSysmon
