import OsmoSysmon.Lib.Effect
import OsmoSysmon.Polls
import OsmoSysmon.ValueTree

/-! # What the poll functions report

Every poll function adds a section to the tree: a node below the root and, below that,
values and groups of values.  Which ones follows from the configuration and the
answers of the monitored systems alone, so each poll function has the effect of a
list of sections.
-/

namespace OsmoSysmon

open CText Talloc Loop Effect

inductive Item where
  | value (name text : CStr)
  /-- Values below a node of their own, which may be there already. -/
  | group (name : CStr) (idx : Option Int32) (values : List (CStr × CStr))
  /-- Values below the node with an index, if there is one. -/
  | atIdx (idx : Int32) (values : List (CStr × CStr))

structure Section where
  title : CStr
  items : List Item
  /-- Whether nothing is reported when the section cannot be added. -/
  checked : Bool

def assignIdx (vn : Ptr) : Option Int32 → NodeM Unit
  | none => pure ()
  | some idx => modifyNode (some vn) fun node => { node with idx }

def runItem (head : Option Ptr) : Item → NodeM Unit
  | .value name text => do
    let _ ← valueNodeAdd head name (some text)
  | .group name idx values => do
    match ← valueNodeFindOrAdd head name with
    | none => pure ()
    | some vn => do
      assignIdx vn idx
      addValues (some vn) values
  | .atIdx idx values => do
    match ← valueNodeFindByIdx head idx with
    | none => pure ()
    | some vn => addValues (some vn) values

def runItems (head : Option Ptr) : List Item → NodeM Unit
  | [] => pure ()
  | item :: items => do
    runItem head item
    runItems head items

def runSection (parent : Option Ptr) (sec : Section) : NodeM Unit := do
  let head ← valueNodeAdd parent sec.title none
  if sec.checked && head.isNone then pure ()
  else runItems head sec.items

def runSections (parent : Option Ptr) : List Section → NodeM Unit
  | [] => pure ()
  | sec :: secs => do
    runSection parent sec
    runSections parent secs

theorem runItems_append (head : Option Ptr) (items more : List Item) :
    runItems head (items ++ more) = (do runItems head items; runItems head more) := by
  induction items with
  | nil => rfl
  | cons item items ih =>
    rw [List.cons_append, runItems, ih, runItems, bind_assoc]

theorem runSections_append (parent : Option Ptr) (secs more : List Section) :
    runSections parent (secs ++ more) =
      (do runSections parent secs; runSections parent more) := by
  induction secs with
  | nil => rfl
  | cons sec secs ih =>
    rw [List.cons_append, runSections, ih, runSections, bind_assoc]

theorem runSections_single (parent : Option Ptr) (sec : Section) :
    SameEffect (runSection parent sec) (runSections parent [sec]) := by
  intro s
  exact ((SameEffect.ignore fun _ => ()) s).symm

/-! ## The sections -/

def openvpnItem (vpn : OpenvpnClient) : Item :=
  .group ((makeAuthority vpn.cfg).getD []) none (openvpnClientValues vpn)

def linkItem (netdevs : List CStr) (msg : LinkMsg) : List Item :=
  (msg.ifname.filter (netdevs.contains ·)).toList.map fun name =>
    .group name (some msg.index) msg.values

def addrItem (msg : AddrMsg) : Item := .atIdx msg.index.toInt32 msg.values

/-- The first host without a name or an address ends the report. -/
def pingItems : List PingInfo → List Item
  | [] => []
  | info :: infos =>
    match info.username, info.address with
    | none, _ => []
    | some name, none => [.group name none []]
    | some name, some ip =>
      .group name none ([(ascii "IP", ip)] ++ addDrop info ++ addLatency info ++ addTtl info) ::
        pingItems infos

section

variable {H : Type}

/-- The first variable without a value ends the report. -/
def varItems (api : CtrlApi H) (sch : H) : List CStr → List Item
  | [] => []
  | name :: names =>
    match api.query sch name with
    | (none, _) => []
    | (some value, sch) => .value name value :: varItems api sch names

def ctrlItems (api : CtrlApi H) (cc : CtrlClient H) : List Item :=
  match cc.sch <|> api.connect cc.cfg with
  | none => []
  | some sch => varItems api sch cc.getVars

def netdevItems (netdevs : List CStr) : Option (List LinkMsg × List AddrMsg) → List Item
  | none => []
  | some (links, addrs) => links.flatMap (linkItem netdevs) ++ addrs.map addrItem

/-- A section that is only there if it has been configured. -/
def sectionIf (there : Bool) (sec : Section) : List Section := if there then [sec] else []

def openvpnSections (vpns : List OpenvpnClient) : List Section :=
  sectionIf (!vpns.isEmpty) ⟨ascii "OpenVPN", vpns.map openvpnItem, false⟩

def sysinfoSections (enabled : Bool) (si : Option SysInfo) : List Section :=
  sectionIf enabled
    ⟨ascii "sysinfo", (si.map SysInfo.values).getD [] |>.map fun v => .value v.1 v.2, false⟩

def ctrlSection (api : CtrlApi H) (cc : CtrlClient H) : Section :=
  ⟨cc.cfg.name, ctrlItems api cc, false⟩

def netdevSections (netdevs : List CStr) (netlink : Option (List LinkMsg × List AddrMsg)) :
    List Section :=
  sectionIf (!netdevs.isEmpty) ⟨ascii "netdev", netdevItems netdevs netlink, false⟩

def pingSections (hosts : List PingInfo) : List Section :=
  sectionIf (!hosts.isEmpty) ⟨ascii "ping", pingItems hosts, true⟩

def fileSections (files : List OsysmonFile) (contents : OsysmonFile → Option (List UInt8)) :
    List Section :=
  sectionIf (!files.isEmpty)
    ⟨ascii "file", files.map fun file => .value file.name (fileText (contents file)), false⟩

def shellcmdSections (shellcmds : List OsysmonShellcmd) (outcome : OsysmonShellcmd → ShellOutcome) :
    List Section :=
  sectionIf (!shellcmds.isEmpty)
    ⟨ascii "shellcmd", shellcmds.map fun sh => .value sh.name (shellText (outcome sh)), false⟩

/-- The sections of a cycle, in the order in which they are added. -/
def OsysmonState.sections (os : OsysmonState H) (probes : Probes H) : List Section :=
  openvpnSections os.openvpnClients ++ sysinfoSections os.sysinfoEnabled probes.sysinfo ++
    os.ctrlClients.map (ctrlSection probes.ctrl) ++ netdevSections os.netdevs probes.netlink ++
    pingSections (os.pings.map probes.ping) ++ fileSections os.files probes.file ++
    shellcmdSections os.shellcmds probes.shell

end

/-! ## Every poll function has the effect of its sections -/

theorem addValues_items (vn : Option Ptr) (values : List (CStr × CStr)) :
    SameEffect (addValues vn values) (runItems vn (values.map fun v => .value v.1 v.2)) := by
  induction values with
  | nil => exact .refl _
  | cons v values ih =>
    rw [addValues, List.map_cons, runItems]
    apply (SameEffect.ignore fun _ => ()).symm.seq
    intro _ _
    exact ih

/-- After `value_node_find_or_add` only the case of a node matters. -/
theorem findOrAdd_bind {α β : Type} {parent : Option Ptr} {name : CStr} {k : Option Ptr → NodeM α}
    {l : Option Ptr → NodeM β} (same : ∀ q, SameEffect (k (some q)) (l (some q))) :
    SameEffect (valueNodeFindOrAdd parent name >>= k) (valueNodeFindOrAdd parent name >>= l) := by
  apply (SameEffect.refl _).seq_of
  intro s t a b run run'
  rw [run] at run'
  cases run'
  obtain ⟨q, rfl⟩ := valueNodeFindOrAdd_some run
  exact same q t

theorem single_item (head : Option Ptr) (item : Item) :
    SameEffect (runItem head item) (runItems head [item]) :=
  (SameEffect.ignore fun _ => ()).symm

/-- A poll function that adds a node for its section and reports below it. -/
theorem section_effect {α : Type} {parent : Option Ptr} {title : CStr} {items : List Item}
    {k : Option Ptr → NodeM α} (same : ∀ head, SameEffect (k head) (runItems head items)) :
    SameEffect (valueNodeAdd parent title none >>= k)
      (runSections parent (sectionIf true ⟨title, items, false⟩)) := by
  apply SameEffect.trans _ (runSections_single parent _)
  apply SameEffect.bind
  intro head
  exact same head

/-- A poll function that does so if something is configured for it. -/
theorem listed_effect {α β : Type} (configured : List β) (nothing : α) {parent : Option Ptr}
    {title : CStr} {items : List Item} {k : Option Ptr → NodeM α}
    (same : ∀ head, SameEffect (k head) (runItems head items)) :
    SameEffect (if configured.isEmpty then pure nothing else valueNodeAdd parent title none >>= k)
      (runSections parent (sectionIf (!configured.isEmpty) ⟨title, items, false⟩)) := by
  cases configured with
  | nil => exact .refl _
  | cons first others =>
    simp only [List.isEmpty_cons, Bool.not_false, Bool.false_eq_true, if_false]
    exact section_effect same

theorem openvpnClientPoll_effect {vpn : OpenvpnClient} {authority : CStr}
    (isText : makeAuthority vpn.cfg = some authority) (parent : Option Ptr) :
    SameEffect (openvpnClientPoll vpn parent)
      (runItem parent (.group authority none (openvpnClientValues vpn))) := by
  simp only [openvpnClientPoll, isText, runItem]
  apply findOrAdd_bind
  intro q
  exact .ignore _

theorem openvpnPoll_effect {vpns : List OpenvpnClient}
    (hosts : ∀ vpn ∈ vpns, ∃ host, vpn.cfg.remoteHost = some host) (parent : Option Ptr) :
    SameEffect (osysmonOpenvpnPoll vpns parent) (runSections parent (openvpnSections vpns)) := by
  have clients : ∀ vn, SameEffect (pollOpenvpnClients vn vpns) (runItems vn (vpns.map openvpnItem)) := by
    intro vn
    induction vpns with
    | nil => exact .refl _
    | cons vpn vpns ih =>
      obtain ⟨host, isHost⟩ := hosts vpn List.mem_cons_self
      rw [pollOpenvpnClients, List.map_cons, runItems]
      refine SameEffect.seq ?_ fun _ _ => ih fun v mem => hosts v (List.mem_cons_of_mem _ mem)
      -- a client is configured with its host, so there is a node for it
      have authority : ∃ text, makeAuthority vpn.cfg = some text := by
        rw [makeAuthority, isHost]
        exact ⟨_, rfl⟩
      obtain ⟨text, isText⟩ := authority
      simp only [openvpnItem, isText, Option.getD_some]
      exact openvpnClientPoll_effect isText vn
  apply listed_effect
  intro head
  exact (SameEffect.ignore _).trans (clients head)

theorem sysinfoPoll_effect (enabled : Bool) (si : Option SysInfo) (parent : Option Ptr) :
    SameEffect (osysmonSysinfoPoll enabled si parent)
      (runSections parent (sysinfoSections enabled si)) := by
  cases enabled with
  | false => exact .refl _
  | true =>
    simp only [osysmonSysinfoPoll, sysinfoSections, if_true]
    apply section_effect
    intro head
    cases si with
    | none => exact .refl _
    | some si => exact (SameEffect.ignore _).trans (addValues_items head si.values)

section

variable {H : Type} (api : CtrlApi H)

theorem pollGetVars_effect (head : Option Ptr) (sch : H) (names : List CStr) :
    SameEffect (pollGetVars api head sch names) (runItems head (varItems api sch names)) := by
  induction names generalizing sch with
  | nil => exact .refl _
  | cons name names ih =>
    rw [pollGetVars, varItems]
    cases answer : api.query sch name with
    | mk value sch' =>
      cases value with
      | none => exact .refl _
      | some value =>
        apply (SameEffect.ignore fun _ => ()).symm.seq
        intro _ _
        exact ih sch'

theorem ctrlClientPoll_effect (cc : CtrlClient H) (parent : Option Ptr) :
    SameEffect (ctrlClientPoll api cc parent) (runSections parent [ctrlSection api cc]) := by
  rw [ctrlClientPoll]
  apply section_effect
  intro head
  rw [ctrlItems]
  cases cc.sch <|> api.connect cc.cfg with
  | none => exact .refl _
  | some sch => exact (SameEffect.ignore _).trans (pollGetVars_effect api head sch cc.getVars)

theorem ctrlPoll_effect (ccs : List (CtrlClient H)) (parent : Option Ptr) :
    SameEffect (osysmonCtrlPoll api parent ccs)
      (runSections parent (ccs.map (ctrlSection api))) := by
  induction ccs with
  | nil => exact .refl _
  | cons cc ccs ih =>
    have split : (cc :: ccs).map (ctrlSection api) =
        [ctrlSection api cc] ++ ccs.map (ctrlSection api) := rfl
    rw [split, runSections_append, osysmonCtrlPoll]
    apply (ctrlClientPoll_effect api cc parent).seq
    intro _ _
    exact (SameEffect.ignore _).trans ih

end

theorem dataCb_effect (netdevs : List CStr) (head : Option Ptr) (msg : LinkMsg) :
    SameEffect (dataCb netdevs head msg) (runItems head (linkItem netdevs msg)) := by
  rw [dataCb, linkItem]
  cases msg.ifname with
  | none => exact .refl _
  | some name =>
    by_cases configured : name ∈ netdevs
    · rw [Option.filter_some_pos (List.contains_iff_mem.mpr configured)]
      simp only [if_pos configured]
      apply SameEffect.trans _ (single_item head _)
      apply findOrAdd_bind
      intro q
      exact .refl _
    · rw [Option.filter_some_neg (by simpa using configured)]
      simp only [if_neg configured]
      exact .refl _

theorem rtnlUpdateLink_effect (netdevs : List CStr) (head : Option Ptr) (msgs : List LinkMsg) :
    SameEffect (rtnlUpdateLink netdevs head msgs)
      (runItems head (msgs.flatMap (linkItem netdevs))) := by
  induction msgs with
  | nil => exact .refl _
  | cons msg msgs ih =>
    rw [rtnlUpdateLink, List.flatMap_cons, runItems_append]
    exact (dataCb_effect netdevs head msg).seq fun _ _ => ih

theorem rtnlUpdateAddr_effect (head : Option Ptr) (msgs : List AddrMsg) :
    SameEffect (rtnlUpdateAddr head msgs) (runItems head (msgs.map addrItem)) := by
  induction msgs with
  | nil => exact .refl _
  | cons msg msgs ih =>
    rw [rtnlUpdateAddr, List.map_cons, runItems]
    exact (SameEffect.refl (inetDataCb head msg)).seq fun _ _ => ih

theorem rtnlPoll_effect (netdevs : List CStr) (netlink : Option (List LinkMsg × List AddrMsg))
    (parent : Option Ptr) :
    SameEffect (osysmonRtnlPoll netdevs netlink parent)
      (runSections parent (netdevSections netdevs netlink)) := by
  apply listed_effect
  intro head
  cases netlink with
  | none => exact .refl _
  | some msgs =>
    obtain ⟨links, addrs⟩ := msgs
    show SameEffect _ (runItems head (_ ++ _))
    rw [runItems_append]
    apply (rtnlUpdateLink_effect _ head links).seq
    intro _ _
    exact (SameEffect.ignore _).trans (rtnlUpdateAddr_effect head addrs)

theorem pollPingHosts_effect (vnPing : Ptr) (infos : List PingInfo) :
    SameEffect (pollPingHosts vnPing infos) (runItems (some vnPing) (pingItems infos)) := by
  induction infos with
  | nil => exact .refl _
  | cons info infos ih =>
    rw [pollPingHosts, pingItems]
    cases info.username with
    | none => exact .refl _
    | some name =>
      cases info.address with
      | none =>
        apply SameEffect.trans _ (single_item _ _)
        apply findOrAdd_bind
        intro q
        exact .refl _
      | some ip =>
        simp only [runItems, runItem, bind_assoc]
        apply findOrAdd_bind
        intro q
        simp only [assignIdx, pure_bind]
        apply SameEffect.bind
        intro _
        exact ih

theorem pingPoll_effect (infos : List PingInfo) (parent : Option Ptr) :
    SameEffect (osysmonPingPoll infos parent) (runSections parent (pingSections infos)) := by
  cases infos with
  | nil => exact .refl _
  | cons info infos =>
    apply SameEffect.trans _ (runSections_single parent _)
    apply SameEffect.bind
    intro head
    cases head with
    | none => exact .refl _
    | some vnPing => exact pollPingHosts_effect vnPing _

theorem filePoll_effect (files : List OsysmonFile) (contents : OsysmonFile → Option (List UInt8))
    (parent : Option Ptr) :
    SameEffect (osysmonFilePoll files contents parent)
      (runSections parent (fileSections files contents)) := by
  have reads : ∀ vn, SameEffect (readFiles contents vn files)
      (runItems vn (files.map fun file => .value file.name (fileText (contents file)))) := by
    intro vn
    induction files with
    | nil => exact .refl _
    | cons file files ih =>
      rw [readFiles, List.map_cons, runItems]
      exact (SameEffect.refl _).seq fun _ _ => ih
  apply listed_effect
  intro head
  exact (SameEffect.ignore _).trans (reads head)

theorem shellcmdPoll_effect (shellcmds : List OsysmonShellcmd)
    (outcome : OsysmonShellcmd → ShellOutcome) (parent : Option Ptr) :
    SameEffect (osysmonShellcmdPoll shellcmds outcome parent)
      (runSections parent (shellcmdSections shellcmds outcome)) := by
  have runs : ∀ vn, SameEffect (runShellcmds outcome vn shellcmds)
      (runItems vn (shellcmds.map fun sh => .value sh.name (shellText (outcome sh)))) := by
    intro vn
    induction shellcmds with
    | nil => exact .refl _
    | cons sh shellcmds ih =>
      rw [runShellcmds, List.map_cons, runItems]
      exact (SameEffect.refl _).seq fun _ _ => ih
  apply listed_effect
  intro head
  exact (SameEffect.ignore _).trans (runs head)

/-- A cycle has the effect of its sections. -/
theorem pollNodes_effect {H : Type} (os : OsysmonState H) (probes : Probes H) :
    SameEffect (pollNodes os probes)
      (do
        let root ← valueNodeAdd none (ascii "root") none
        runSections root (os.sections probes)) := by
  apply SameEffect.bind
  intro root
  simp only [OsysmonState.sections, runSections_append, bind_assoc]
  apply (openvpnPoll_effect os.openvpnHosts root).seq
  intro _ _
  apply (sysinfoPoll_effect _ _ root).seq
  intro _ _
  apply (ctrlPoll_effect _ _ root).seq
  intro ctrlClients _
  apply (rtnlPoll_effect _ _ root).seq
  intro _ _
  -- the last two polls come after the ping hosts, polled or not
  have files : SameEffect
      (do
        let _ ← osysmonFilePoll os.files probes.file root
        let _ ← osysmonShellcmdPoll os.shellcmds probes.shell root
        pure (root, ctrlClients))
      (do
        runSections root (fileSections os.files probes.file)
        runSections root (shellcmdSections os.shellcmds probes.shell)) := by
    apply (filePoll_effect _ _ root).seq
    intro _ _
    exact (SameEffect.ignore _).trans (shellcmdPoll_effect _ _ root)
  by_cases ready : os.pingInit = 0
  · rw [if_pos ready]
    apply (pingPoll_effect _ root).seq
    intro _ _
    exact files
  · -- no host has been configured, and none is polled
    rw [if_neg ready, os.pingHosts ready]
    exact files

end OsmoSysmon
