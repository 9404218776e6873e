import Mathlib.Data.List.Forall2
import OsmoSysmon.Daemon.Monitor

/-! # The program does what the monitor does

`Loaded` relates the lists of `g_oss` to a configuration.  Every event keeps it: a callback
writes to the object of its client and to no other, a cycle writes the handles of the CTRL
clients, and what it prints is the report of the monitor.
-/

namespace OsmoSysmon

open CText Talloc Loop

variable {H : Type}

/-! ## The result of a cycle -/

theorem pollGetVars_result {api : CtrlApi H} {vnClnt : Option Ptr} {sch : H} {names : List CStr}
    {s t : Nodes} {r : Option H} (run : pollGetVars api vnClnt sch names s = .ok (r, t)) :
    r = varsAfter api sch names := by
  induction names generalizing sch s with
  | nil =>
    cases run
    rfl
  | cons name names ih =>
    rw [pollGetVars] at run
    rw [varsAfter]
    cases query : api.query sch name with
    | mk value sch =>
      cases value with
      | none =>
        simp only [query] at run
        cases run
        rfl
      | some value =>
        simp only [query] at run
        obtain ⟨_, _, -, run⟩ := bind_inv run
        exact ih run

theorem ctrlClientPoll_result {api : CtrlApi H} {cc cc' : CtrlClient H} {parent : Option Ptr}
    {s t : Nodes} (run : ctrlClientPoll api cc parent s = .ok (cc', t)) : cc' = ctrlAfter api cc := by
  rw [ctrlClientPoll] at run
  obtain ⟨vnClnt, u, -, run⟩ := bind_inv run
  cases handle : (cc.sch <|> api.connect cc.cfg) with
  | none =>
    simp only [handle] at run
    cases run
    simp [ctrlAfter, handle]
  | some sch =>
    simp only [handle] at run
    obtain ⟨r, _, polled, run⟩ := bind_inv run
    cases run
    rw [pollGetVars_result polled]
    simp [ctrlAfter, handle]

theorem osysmonCtrlPoll_result {api : CtrlApi H} {ccs ccs' : List (CtrlClient H)}
    {parent : Option Ptr} {s t : Nodes} (run : osysmonCtrlPoll api parent ccs s = .ok (ccs', t)) :
    ccs' = ccs.map (ctrlAfter api) := by
  induction ccs generalizing s ccs' with
  | nil =>
    cases run
    rfl
  | cons cc ccs ih =>
    rw [osysmonCtrlPoll] at run
    obtain ⟨first, _, here, run⟩ := bind_inv run
    obtain ⟨rest, _, later, run⟩ := bind_inv run
    cases run
    rw [ctrlClientPoll_result here, ih later, List.map_cons]

/-- What a cycle prints without a name clash. -/
theorem printNodes_report (os : OsysmonState H) (probes : Probes H) (s : Nodes)
    (distinct : os.rootNames.Nodup) :
    ∃ ctrlClients t, printNodes os probes s = .ok ((os.report probes, ctrlClients), t) := by
  obtain ⟨g, ctrlClients, t, run, grows, shape⟩ := pollNodes_grows os probes s distinct
  have below : g.shape.Every Displayable := by
    rw [shape]
    apply Forest.every_concat
    intro f mem
    obtain ⟨sec, isSection, rfl⟩ := List.mem_map.mp mem
    exact (sections_uniform os probes sec isSection).every
  have namesDistinct : (names g.shape).Nodup := by
    rw [shape, names, names_concat, titles_sections]
    exact distinct
  have every : (Forest.cons rootInfo g.shape .nil).Every Displayable :=
    ⟨⟨fun value => absurd rfl value, namesDistinct⟩, below, trivial⟩
  have printed := displayUpdate_outline grows.holds every
  -- the root has been made below nothing
  have rootOld : s.heap.next + 1 < (rootHeap s.heap (ascii "root") none).next :=
    Nat.lt_succ_self _
  have top : t.heap.owners (s.heap.next + 1) = [] := by
    rw [grows.owners _ rootOld, rootHeap, Heap.owners_set]
    exact Heap.owners_alloc_self (s.heap.alloc none .zero) none _
  have deleted := valueNodeDel_root grows.holds.cell top
  rw [shape] at printed
  refine ⟨ctrlClients, t.withHeap (t.heap.free (s.heap.next + 1)), ?_⟩
  rw [printNodes, bind_ok run]
  show (displayUpdate _ >>= _) t = _
  rw [bind_ok printed, bind_ok deleted]
  rfl

/-! ## What is loaded -/

/-- The client at an address. -/
def ClientAt (p : Process H) (q : Ptr) (cc : CtrlClient H) : Prop :=
  p.handles q = cc.sch ∧ ∃ getVars, p.registries.ctrl.heap.get? q = some (.client cc.cfg getVars) ∧
    Process.getVarNames p.registries.ctrl.heap getVars = .ok cc.getVars

/-- The lists hold this configuration. -/
structure Loaded (p : Process H) (os : OsysmonState H) : Prop where
  openvpn : List.Forall₂ (fun q vpn => p.registries.heap.get? q = some (.openvpnClient vpn))
    p.registries.openvpnClients os.openvpnClients
  openvpnDistinct : p.registries.openvpnClients.Nodup
  netdevs : List.Forall₂ (fun q name => p.registries.heap.get? q = some (.netdev name))
    p.registries.netdevs os.netdevs
  files : List.Forall₂ (fun q of => p.registries.heap.get? q = some (.file of))
    p.registries.files os.files
  shellcmds : List.Forall₂ (fun q oc => p.registries.heap.get? q = some (.shellcmd oc))
    p.registries.shellcmds os.shellcmds
  ctrl : List.Forall₂ (ClientAt p) p.registries.ctrl.ctrlClients os.ctrlClients
  ctrlDistinct : p.registries.ctrl.ctrlClients.Nodup
  sysinfoEnabled : p.sysmon.sysinfoEnabled = os.sysinfoEnabled
  pings : p.sysmon.pings = os.pings
  pingInit : p.pingInit = os.pingInit

namespace Process

variable {p : Process H} {os : OsysmonState H}

def withNodes (p : Process H) (nodes : Nodes) : Process H := { p with nodes }

@[simp] theorem nodes_withNodes (p : Process H) (nodes : Nodes) :
    (p.withNodes nodes).nodes = nodes := rfl

@[simp] theorem withNodes_withNodes (p : Process H) (nodes nodes' : Nodes) :
    (p.withNodes nodes).withNodes nodes' = p.withNodes nodes' := rfl

theorem onTree_ok {α : Type} {m : NodeM α} {a : α} {t : Nodes} (run : m p.nodes = .ok (a, t)) :
    onTree m p = .ok (a, p.withNodes t) := by
  rw [onTree, bind_ok (get_ok p), bind_ok (lift_ok run p)]
  rfl

end Process

open Process

namespace Loaded

variable {p : Process H} {os : OsysmonState H}

theorem withNodes (loaded : Loaded p os) (nodes : Nodes) : Loaded (p.withNodes nodes) os :=
  ⟨loaded.openvpn, loaded.openvpnDistinct, loaded.netdevs, loaded.files, loaded.shellcmds,
    loaded.ctrl, loaded.ctrlDistinct, loaded.sysinfoEnabled, loaded.pings, loaded.pingInit⟩

theorem exit (loaded : Loaded p os) (exited : Bool) : Loaded { p with exited } os :=
  ⟨loaded.openvpn, loaded.openvpnDistinct, loaded.netdevs, loaded.files, loaded.shellcmds,
    loaded.ctrl, loaded.ctrlDistinct, loaded.sysinfoEnabled, loaded.pings, loaded.pingInit⟩

/-! ## Elements -/

theorem derefAs_ok {α : Type} {as? : Entry → Option α} {p : Process H} {q : Ptr} {entry : Entry}
    {a : α} (cell : p.registries.heap.get? q = some entry) (isA : as? entry = some a) :
    derefAs as? q p = .ok (a, p) := by
  rw [derefAs, bind_ok (get_ok p)]
  simp only [cell, isA]
  rfl

/-- Elements that are there, whatever becomes of the tree. -/
theorem derefAs_each {α : Type} {as? : Entry → Option α} (wrap : α → Entry)
    (isA : ∀ a, as? (wrap a) = some a) {ps : List Ptr} {as : List α}
    (cells : List.Forall₂ (fun q a => p.registries.heap.get? q = some (wrap a)) ps as) :
    List.Forall₂ (fun q a => ∀ nodes, derefAs as? q (p.withNodes nodes) =
      .ok (a, p.withNodes nodes)) ps as :=
  cells.imp fun _ a cell nodes => @derefAs_ok _ _ _ (p.withNodes nodes) _ _ _ cell (isA a)

theorem derefCtrlClient_ok {p : Process H} {q : Ptr} {cc : CtrlClient H} (client : ClientAt p q cc) :
    derefCtrlClient q p = .ok (cc, p) := by
  obtain ⟨handle, getVars, cell, names⟩ := client
  have deref : derefClient p.registries.ctrl.heap q = .ok (cc.cfg, getVars) := by
    rw [derefClient, cell]
  rw [derefCtrlClient, bind_ok (get_ok p), bind_ok (lift_ok deref p)]
  show ((liftM _ : ProcessM H _) >>= _) p = _
  rw [bind_ok (lift_ok names p), handle]
  rfl

/-! ## Lists -/

/-- A walk over a list whose elements are there. -/
theorem forEach_ok {α β : Type} {deref : Ptr → ProcessM H α} {poll : α → NodeM β}
    {polls : List α → NodeM Unit} (nil : polls [] = pure ())
    (cons : ∀ a as, polls (a :: as) = (do let _ ← poll a; polls as)) {ps : List Ptr} {as : List α}
    (each : List.Forall₂ (fun q a => ∀ nodes,
      deref q (p.withNodes nodes) = .ok (a, p.withNodes nodes)) ps as)
    {s t : Nodes} (run : polls as s = .ok ((), t)) :
    forEach deref poll ps (p.withNodes s) = .ok ((), p.withNodes t) := by
  induction each generalizing s with
  | nil =>
    rw [nil] at run
    cases run
    rfl
  | @cons q a ps as here _ ih =>
    rw [cons] at run
    obtain ⟨r, u, polled, run⟩ := bind_inv run
    have first : (do let a ← deref q; let _ ← onTree (poll a) : ProcessM H Unit) (p.withNodes s) =
        .ok ((), p.withNodes u) := by
      rw [bind_ok (here s), bind_ok (onTree_ok polled)]
      rfl
    exact (bind_ok first _).trans (ih run)

theorem mapM_deref {α : Type} {deref : Ptr → ProcessM H α} {ps : List Ptr} {as : List α} {s : Nodes}
    (each : List.Forall₂ (fun q a => ∀ nodes,
      deref q (p.withNodes nodes) = .ok (a, p.withNodes nodes)) ps as) :
    ps.mapM deref (p.withNodes s) = .ok (as, p.withNodes s) := by
  induction each with
  | nil => rfl
  | cons here _ ih =>
    rw [List.mapM_cons, bind_ok (here s), bind_ok ih]
    rfl

/-- A poll function that walks over the list if there is anything in it. -/
theorem listed_ok {α β γ : Type} {deref : Ptr → ProcessM H α} {poll : Option Ptr → α → NodeM β}
    {polls : Option Ptr → List α → NodeM Unit} (nil : ∀ vn, polls vn [] = pure ())
    (cons : ∀ vn a as, polls vn (a :: as) = (do let _ ← poll vn a; polls vn as)) {ps : List Ptr}
    {as : List α}
    (each : List.Forall₂ (fun q a => ∀ nodes,
      deref q (p.withNodes nodes) = .ok (a, p.withNodes nodes)) ps as)
    {parent : Option Ptr} {title : CStr} {nothing result r : γ} {s t : Nodes}
    (run : (if as.isEmpty then pure nothing
      else do
        let vn ← valueNodeAdd parent title none
        polls vn as
        pure result : NodeM γ) s = .ok (r, t)) :
    (if ps.isEmpty then pure ()
      else do
        let vn ← onTree (valueNodeAdd parent title none)
        forEach deref (poll vn) ps : ProcessM H Unit) (p.withNodes s) =
      .ok ((), p.withNodes t) := by
  cases each with
  | nil =>
    cases run
    rfl
  | cons here rest =>
    obtain ⟨vn, u, added, run⟩ := bind_inv run
    obtain ⟨_, _, polled, run⟩ := bind_inv run
    cases run
    rw [List.isEmpty_cons, if_neg Bool.false_ne_true]
    exact (bind_ok (onTree_ok added) _).trans
      (forEach_ok (nil vn) (cons vn) (.cons here rest) polled)

/-! ## Poll functions -/

section

variable (loaded : Loaded p os) {parent : Option Ptr} {s t : Nodes}

include loaded

theorem osysmonOpenvpnPoll_ok {r : Nat}
    (run : OsmoSysmon.osysmonOpenvpnPoll os.openvpnClients parent s = .ok (r, t)) :
    Process.osysmonOpenvpnPoll parent (p.withNodes s) = .ok ((), p.withNodes t) := by
  rw [Process.osysmonOpenvpnPoll, bind_ok (get_ok _)]
  exact listed_ok (fun _ => rfl) (fun _ _ _ => rfl)
    (derefAs_each .openvpnClient (fun _ => rfl) loaded.openvpn) run

theorem osysmonSysinfoPoll_ok {si : Option SysInfo} {r : Int}
    (run : OsmoSysmon.osysmonSysinfoPoll os.sysinfoEnabled si parent s = .ok (r, t)) :
    Process.osysmonSysinfoPoll si parent (p.withNodes s) = .ok ((), p.withNodes t) := by
  rw [← loaded.sysinfoEnabled] at run
  rw [Process.osysmonSysinfoPoll, bind_ok (get_ok _)]
  exact bind_ok (onTree_ok run) _

theorem osysmonRtnlPoll_ok {netlink : Option (List LinkMsg × List AddrMsg)} {r : Int}
    (run : OsmoSysmon.osysmonRtnlPoll os.netdevs netlink parent s = .ok (r, t)) :
    Process.osysmonRtnlPoll netlink parent (p.withNodes s) = .ok ((), p.withNodes t) := by
  have names : p.registries.netdevs.mapM derefNetdev (p.withNodes s) =
      .ok (os.netdevs, p.withNodes s) :=
    mapM_deref (derefAs_each .netdev (fun _ => rfl) loaded.netdevs)
  rw [Process.osysmonRtnlPoll, bind_ok (get_ok _)]
  exact (bind_ok names _).trans (bind_ok (onTree_ok run) _)

theorem osysmonPingPoll_ok {ping : CStr → PingInfo} {r : PingResult}
    (run : OsmoSysmon.osysmonPingPoll (os.pings.map ping) parent s = .ok (r, t)) :
    Process.osysmonPingPoll ping parent (p.withNodes s) = .ok ((), p.withNodes t) := by
  rw [← loaded.pings] at run
  rw [Process.osysmonPingPoll, bind_ok (get_ok _)]
  exact bind_ok (onTree_ok run) _

theorem osysmonFilePoll_ok {contents : OsysmonFile → Option (List UInt8)} {r : Int}
    (run : OsmoSysmon.osysmonFilePoll os.files contents parent s = .ok (r, t)) :
    Process.osysmonFilePoll contents parent (p.withNodes s) = .ok ((), p.withNodes t) := by
  rw [Process.osysmonFilePoll, bind_ok (get_ok _)]
  exact listed_ok (fun _ => rfl) (fun _ _ _ => rfl)
    (derefAs_each .file (fun _ => rfl) loaded.files) run

theorem osysmonShellcmdPoll_ok {outcome : OsysmonShellcmd → ShellOutcome} {r : Int}
    (run : OsmoSysmon.osysmonShellcmdPoll os.shellcmds outcome parent s = .ok (r, t)) :
    Process.osysmonShellcmdPoll outcome parent (p.withNodes s) = .ok ((), p.withNodes t) := by
  rw [Process.osysmonShellcmdPoll, bind_ok (get_ok _)]
  exact listed_ok (fun _ => rfl) (fun _ _ _ => rfl)
    (derefAs_each .shellcmd (fun _ => rfl) loaded.shellcmds) run

end

/-! ## CTRL clients -/

theorem ClientAt.update {q q' : Ptr} {cc : CtrlClient H} (client : ClientAt p q cc) (other : q ≠ q')
    (nodes : Nodes) (sch : Option H) :
    ClientAt { p with handles := Function.update p.handles q' sch, nodes } q cc :=
  ⟨(Function.update_of_ne other sch p.handles).trans client.1, client.2⟩

/-- The loop over the clients writes the handles of these clients. -/
theorem ctrlClients_ok {api : CtrlApi H} {parent : Option Ptr} {ps : List Ptr}
    {ccs ccs' : List (CtrlClient H)} {t : Nodes} (each : List.Forall₂ (ClientAt p) ps ccs)
    (distinct : ps.Nodup)
    (run : OsmoSysmon.osysmonCtrlPoll api parent ccs p.nodes = .ok (ccs', t)) :
    ∃ handles, ps.forM (Process.ctrlClientPoll api parent) p =
        .ok ((), { p with handles, nodes := t }) ∧
      List.Forall₂ (fun q cc => handles q = cc.sch) ps ccs' ∧
      ∀ q, q ∉ ps → handles q = p.handles q := by
  induction ps generalizing ccs ccs' p with
  | nil =>
    cases each
    cases run
    exact ⟨p.handles, rfl, .nil, fun _ _ => rfl⟩
  | cons q ps ih =>
    cases each with
    | @cons _ cc _ ccs here rest =>
      rw [List.nodup_cons] at distinct
      obtain ⟨new, distinct⟩ := distinct
      rw [OsmoSysmon.osysmonCtrlPoll] at run
      obtain ⟨polled, u, one, run⟩ := bind_inv run
      obtain ⟨ccs', _, others, run⟩ := bind_inv run
      cases run
      have first : Process.ctrlClientPoll api parent q p =
          .ok ((), { p with handles := Function.update p.handles q polled.sch, nodes := u }) := by
        rw [Process.ctrlClientPoll, bind_ok (derefCtrlClient_ok here), bind_ok (onTree_ok one)]
        rfl
      have rest' : List.Forall₂
          (ClientAt { p with handles := Function.update p.handles q polled.sch, nodes := u })
          ps ccs := by
        have apart := (List.forall₂_and_left ps ccs).mpr
          ⟨fun _ mem => ne_of_mem_of_not_mem mem new, rest⟩
        exact apart.imp fun _ _ client => ClientAt.update client.2 client.1 u polled.sch
      obtain ⟨handles, later, same, frame⟩ := ih rest' distinct others
      refine ⟨handles, (bind_ok first _).trans later, .cons ?_ same, ?_⟩
      · rw [frame q new]
        exact Function.update_self ..
      · intro q' outside
        rw [List.mem_cons, not_or] at outside
        rw [frame q' outside.2]
        exact Function.update_of_ne outside.1 ..

/-- A poll of the CTRL clients. -/
theorem osysmonCtrlPoll_ok (loaded : Loaded p os) {api : CtrlApi H} {parent : Option Ptr}
    {ccs : List (CtrlClient H)} {s t : Nodes}
    (run : OsmoSysmon.osysmonCtrlPoll api parent os.ctrlClients s = .ok (ccs, t)) :
    ∃ handles, Process.osysmonCtrlPoll api parent (p.withNodes s) =
        .ok ((), { p with handles, nodes := t }) ∧
      Loaded { p with handles, nodes := t } (os.polled api) := by
  obtain ⟨handles, walked, same, -⟩ :=
    ctrlClients_ok (loaded.withNodes s).ctrl loaded.ctrlDistinct run
  rw [osysmonCtrlPoll_result run] at same
  refine ⟨handles, ?_, ?_⟩
  · rw [Process.osysmonCtrlPoll, bind_ok (get_ok _)]
    exact walked
  · refine ⟨loaded.openvpn, loaded.openvpnDistinct, loaded.netdevs, loaded.files, loaded.shellcmds,
      ?_, loaded.ctrlDistinct, loaded.sysinfoEnabled, loaded.pings, loaded.pingInit⟩
    -- the cells are those from before, the handles the new ones
    refine List.forall₂_map_right_iff.mpr ?_
    exact (List.forall₂_map_right_iff.mp same).mp (fun _ _ handle client => ⟨handle, client.2⟩)
      loaded.ctrl

/-! ## Events -/

/-- The polls behind that of the CTRL clients. -/
theorem latePolls_ok (loaded : Loaded p os) {probes : Probes H} {root : Option Ptr}
    {s1 s2 s3 s4 s5 t : Nodes} {r1 r3 r4 : Int} {lines : List CStr}
    (rtnl : OsmoSysmon.osysmonRtnlPoll os.netdevs probes.netlink root p.nodes = .ok (r1, s1))
    (ping : os.pingInit = 0 ∧
        (∃ r, OsmoSysmon.osysmonPingPoll (os.pings.map probes.ping) root s1 = .ok (r, s2)) ∨
      os.pingInit ≠ 0 ∧ s2 = s1)
    (file : OsmoSysmon.osysmonFilePoll os.files probes.file root s2 = .ok (r3, s3))
    (shell : OsmoSysmon.osysmonShellcmdPoll os.shellcmds probes.shell root s3 = .ok (r4, s4))
    (printed : displayUpdate root s4 = .ok (lines, s5)) (deleted : valueNodeDel root s5 = .ok ((), t)) :
    (do
        Process.osysmonRtnlPoll probes.netlink root
        if (← get).pingInit = 0 then Process.osysmonPingPoll probes.ping root
        Process.osysmonFilePoll probes.file root
        Process.osysmonShellcmdPoll probes.shell root
        let lines ← onTree (displayUpdate root)
        onTree (valueNodeDel root)
        modify fun p => { p with exited := p.oneshot }
        return lines : ProcessM H (List CStr)) p =
      .ok (lines, { p with nodes := t, exited := p.oneshot }) := by
  have first : Process.osysmonRtnlPoll probes.netlink root p = .ok ((), p.withNodes s1) :=
    loaded.osysmonRtnlPoll_ok rtnl
  rw [bind_ok first, bind_ok (get_ok _)]
  have rest : (do
        Process.osysmonFilePoll probes.file root
        Process.osysmonShellcmdPoll probes.shell root
        let lines ← onTree (displayUpdate root)
        onTree (valueNodeDel root)
        modify fun p => { p with exited := p.oneshot }
        return lines : ProcessM H (List CStr)) (p.withNodes s2) =
      .ok (lines, { p with nodes := t, exited := p.oneshot }) := by
    rw [bind_ok (loaded.osysmonFilePoll_ok file), bind_ok (loaded.osysmonShellcmdPoll_ok shell),
      bind_ok (onTree_ok printed), bind_ok (onTree_ok deleted)]
    rfl
  have sameInit : (p.withNodes s1).pingInit = os.pingInit := loaded.pingInit
  rcases ping with ⟨inited, r, hosts⟩ | ⟨failed, rfl⟩
  · simp only [sameInit, if_pos inited]
    exact (bind_ok (loaded.osysmonPingPoll_ok hosts) _).trans rest
  · simp only [sameInit, if_neg failed]
    exact rest

theorem printNodes_ok (loaded : Loaded p os) {probes : Probes H} (distinct : os.rootNames.Nodup) :
    ∃ q, Process.printNodes probes p = .ok (os.report probes, q) ∧
      Loaded q (os.polled probes.ctrl) ∧ q.oneshot = p.oneshot ∧ q.exited = p.oneshot := by
  obtain ⟨ccs', t, run⟩ := printNodes_report os probes p.nodes distinct
  rw [OsmoSysmon.printNodes] at run
  obtain ⟨⟨root', _⟩, s8, built, run⟩ := bind_inv run
  obtain ⟨_, s9, printed, run⟩ := bind_inv run
  obtain ⟨_, _, deleted, run⟩ := bind_inv run
  cases run
  rw [pollNodes] at built
  obtain ⟨root, s1, added, built⟩ := bind_inv built
  obtain ⟨_, s2, openvpn, built⟩ := bind_inv built
  obtain ⟨_, s3, sysinfo, built⟩ := bind_inv built
  obtain ⟨ccs, s4, ctrl, built⟩ := bind_inv built
  obtain ⟨_, s5, rtnl, built⟩ := bind_inv built
  obtain ⟨handles, ctrlRun, loaded'⟩ := loaded.osysmonCtrlPoll_ok ctrl
  have pinged : ∃ s6, (os.pingInit = 0 ∧
        (∃ r, OsmoSysmon.osysmonPingPoll (os.pings.map probes.ping) root s5 = .ok (r, s6)) ∨
      os.pingInit ≠ 0 ∧ s6 = s5) ∧
      (do
        let _ ← OsmoSysmon.osysmonFilePoll os.files probes.file root
        let _ ← OsmoSysmon.osysmonShellcmdPoll os.shellcmds probes.shell root
        pure (root, ccs) : NodeM (Option Ptr × List (CtrlClient H))) s6 = .ok ((root', ccs'), s8) := by
    by_cases inited : os.pingInit = 0
    · simp only [if_pos inited] at built
      obtain ⟨r, s6, ping, built⟩ := bind_inv built
      exact ⟨s6, .inl ⟨inited, r, ping⟩, built⟩
    · simp only [if_neg inited] at built
      exact ⟨s5, .inr ⟨inited, rfl⟩, built⟩
  obtain ⟨s6, ping, built⟩ := pinged
  obtain ⟨_, s7, file, built⟩ := bind_inv built
  obtain ⟨_, _, shell, built⟩ := bind_inv built
  cases built
  refine ⟨_, ?_, (loaded'.withNodes t).exit p.oneshot, rfl, rfl⟩
  rw [Process.printNodes, bind_ok (onTree_ok added), bind_ok (loaded.osysmonOpenvpnPoll_ok openvpn),
    bind_ok (loaded.osysmonSysinfoPoll_ok sysinfo), bind_ok ctrlRun]
  exact loaded'.latePolls_ok rtnl ping file shell printed deleted

/-- A change at one place of related lists. -/
theorem forall₂_modify {α β : Type} {R S : α → β → Prop} {as : List α} {bs : List β} {f : β → β}
    {i : Nat} {a : α} (related : List.Forall₂ R as bs) (distinct : as.Nodup)
    (isA : as[i]? = some a) (here : ∀ b, R a b → S a (f b))
    (elsewhere : ∀ a' b, a' ≠ a → R a' b → S a' b) : List.Forall₂ S as (bs.modify i f) := by
  induction related generalizing i with
  | nil => cases isA
  | @cons a' b as bs first rest ih =>
    rw [List.nodup_cons] at distinct
    cases i with
    | zero =>
      cases isA
      have apart := (List.forall₂_and_left as bs).mpr
        ⟨fun _ mem => ne_of_mem_of_not_mem mem distinct.1, rest⟩
      rw [List.modify_zero_cons]
      exact .cons (here b first) (apart.imp fun _ _ both => elsewhere _ _ both.1 both.2)
    | succ i =>
      rw [List.getElem?_cons_succ] at isA
      have other : a' ≠ a := fun same => distinct.1 (same ▸ List.mem_of_getElem? isA)
      rw [List.modify_succ_cons]
      exact .cons (elsewhere a' b other first) (ih distinct.2 isA)

theorem callback_ok (loaded : Loaded p os) (i : Nat) (event : OpenvpnEvent) :
    ∃ q, callback i event p = .ok ((), q) ∧ Loaded q (os.notified i event) ∧
      q.oneshot = p.oneshot ∧ q.exited = p.exited := by
  rw [callback, bind_ok (get_ok p)]
  cases isClient : p.registries.openvpnClients[i]? with
  | none =>
    have outside : os.openvpnClients.length ≤ i := by
      rw [← loaded.openvpn.length_eq]
      exact List.getElem?_eq_none_iff.mp isClient
    have same : os.openvpnClients.modify i event.step = os.openvpnClients :=
      List.modify_eq_self outside
    have unchanged : (os.notified i event).openvpnClients = os.openvpnClients := same
    refine ⟨p, rfl, ⟨?_, loaded.openvpnDistinct, loaded.netdevs, loaded.files, loaded.shellcmds,
      loaded.ctrl, loaded.ctrlDistinct, loaded.sysinfoEnabled, loaded.pings, loaded.pingInit⟩, rfl,
      rfl⟩
    rw [unchanged]
    exact loaded.openvpn
  | some q =>
    obtain ⟨inside, isQ⟩ := List.getElem?_eq_some_iff.mp isClient
    have cell := loaded.openvpn.get inside (loaded.openvpn.length_eq ▸ inside)
    rw [List.get_eq_getElem, isQ] at cell
    generalize os.openvpnClients.get _ = vpn at cell
    -- what is not an OpenVPN client is elsewhere
    have frame : ∀ {q' entry}, p.registries.heap.get? q' = some entry →
        entry ≠ .openvpnClient vpn →
        (p.registries.heap.set q (.openvpnClient (event.step vpn))).get? q' = some entry := by
      intro q' entry cell' other
      rw [Heap.get?_set_of_ne, cell']
      rintro rfl
      rw [cell] at cell'
      exact other (Option.some.inj cell').symm
    have deref : derefOpenvpnClient q p = .ok (vpn, p) := derefAs_ok cell rfl
    refine ⟨p.write q (.openvpnClient (event.step vpn)), bind_ok deref _, ⟨?_, loaded.openvpnDistinct,
      loaded.netdevs.imp fun _ _ cell' => frame cell' (by simp),
      loaded.files.imp fun _ _ cell' => frame cell' (by simp),
      loaded.shellcmds.imp fun _ _ cell' => frame cell' (by simp),
      loaded.ctrl, loaded.ctrlDistinct, loaded.sysinfoEnabled, loaded.pings, loaded.pingInit⟩, rfl,
      rfl⟩
    refine forall₂_modify loaded.openvpn loaded.openvpnDistinct isClient ?_ ?_
    · intro vpn' cell'
      rw [cell] at cell'
      cases cell'
      exact Heap.get?_set_self cell _
    · intro q' vpn' other cell'
      exact (Heap.get?_set_of_ne other).trans cell'

end Loaded

/-! ## Runs -/

/-- The process and the monitor it implements. -/
structure Implements (p : Process H) (m : Monitor H) : Prop where
  loaded : Loaded p m.os
  distinct : m.os.rootNames.Nodup
  oneshot : p.oneshot = m.oneshot
  exited : p.exited = m.done

/-- **At every event the process does what the monitor does.** -/
theorem handle_simulates :
    Simulation.Simulates (Implements (H := H)) Process.handle Monitor.handle := by
  intro event p m implements
  obtain ⟨loaded, distinct, oneshot, exited⟩ := implements
  rw [Process.handle.eq_def, bind_ok (get_ok p), exited, Monitor.handle.eq_def]
  cases done : m.done with
  | true => exact ⟨p, rfl, loaded, distinct, oneshot, exited⟩
  | false =>
    cases event with
    | callback i event =>
      obtain ⟨q, run, loaded', sameOneshot, sameExited⟩ := loaded.callback_ok i event
      refine ⟨q, bind_ok run _, loaded', ?_, sameOneshot.trans oneshot,
        sameExited.trans (exited.trans done)⟩
      exact (OsysmonState.rootNames_next m.os (.callback i event)).symm ▸ distinct
    | timer probes =>
      obtain ⟨q, run, loaded', sameOneshot, isExited⟩ := loaded.printNodes_ok distinct
      refine ⟨q, bind_ok run _, loaded', ?_, sameOneshot.trans oneshot, isExited.trans oneshot⟩
      exact (OsysmonState.rootNames_next m.os (.timer probes)).symm ▸ distinct

/-- What is printed at an event, if these events have come before it. -/
def Prints (os : OsysmonState H) (oneshot : Bool) (before : List (MainEvent H))
    (event : MainEvent H) (output : Option (List CStr)) : Prop :=
  match event with
  | .callback _ _ => output = none
  | .timer probes =>
    if oneshot = true ∧ pollsOf before ≠ [] then output = none
    else ∃ os', OsysmonState.Known os before os' ∧ output = some (os'.report probes)

theorem handle_prints (os : OsysmonState H) (oneshot : Bool) (before : List (MainEvent H))
    (event : MainEvent H) :
    Prints os oneshot before event
      (Monitor.handle event (Simulation.final Monitor.handle before ⟨os, oneshot, false⟩)).1 := by
  obtain ⟨isDone, isAfter⟩ :=
    Monitor.final_handle (m := ⟨os, oneshot, false⟩) rfl before
  generalize Simulation.final Monitor.handle before ⟨os, oneshot, false⟩ = m at isDone isAfter
  rw [Monitor.handle.eq_def]
  cases event with
  | callback i event =>
    rw [Prints]
    split <;> rfl
  | timer probes =>
    rw [Prints]
    cases done : m.done with
    | true => rw [if_pos (isDone.mp done), if_pos rfl]
    | false =>
      have running : ¬ (oneshot = true ∧ pollsOf before ≠ []) := by
        rw [← isDone, done]
        exact Bool.false_ne_true
      rw [if_neg running, if_neg Bool.false_ne_true]
      exact ⟨m.os, isAfter done ▸ OsysmonState.known_after os before, rfl⟩

/-- **A process that is loaded never fails, whatever happens in which order, and every report
    tells what the history up to it has told.** -/
theorem process_reports {p : Process H} {os : OsysmonState H} (loaded : Loaded p os)
    (distinct : os.rootNames.Nodup) (running : p.exited = false) (events : List (MainEvent H)) :
    ∃ shown q, Simulation.runs Process.handle events p = .ok (shown, q) ∧
      shown.length = events.length ∧
      ∀ before event after, events = before ++ event :: after →
        ∃ output, shown[before.length]? = some output ∧
          Prints os p.oneshot before event output := by
  have implements : Implements p ⟨os, p.oneshot, false⟩ := ⟨loaded, distinct, rfl, running⟩
  obtain ⟨q, run, -⟩ := handle_simulates.runs events implements
  refine ⟨_, q, run, Simulation.length_outputs events _, ?_⟩
  rintro before event after rfl
  exact ⟨_, Simulation.getElem?_outputs before event after _,
    handle_prints os p.oneshot before event⟩

/-- A configuration with nothing but an OpenVPN client. -/
def onlyVpn : OsysmonState Unit :=
  { (OsysmonState.bare : OsysmonState Unit) with
    openvpnClients := [openvpnClientCreate (ascii "OpenVPN") (ascii "10.8.0.1") 7505]
    openvpnHosts := by
      intro vpn mem
      rw [List.mem_singleton.mp mem]
      exact ⟨_, rfl⟩ }

def vpnProcess : Process Unit where
  sysmon :=
    { registries := { Registries.empty with
        heap := Heap.empty.alloc none
          (.openvpnClient (openvpnClientCreate (ascii "OpenVPN") (ascii "10.8.0.1") 7505))
        openvpnClients := [0] }
      pings := []
      sysinfoEnabled := false }
  handles _ := none
  nodes := Nodes.empty
  pingInit := 0
  oneshot := false
  exited := false

theorem process_reports_vpn :
    Loaded vpnProcess onlyVpn ∧ onlyVpn.rootNames.Nodup ∧ vpnProcess.exited = false ∧
      ∃ shown q, Simulation.runs Process.handle
          [.callback 0 .connect, .timer quietProbes, .callback 0 .disconnect] vpnProcess =
            .ok (shown, q) ∧
        shown.length = 3 ∧
        ∀ before event after,
          [.callback 0 .connect, .timer quietProbes, .callback 0 .disconnect] =
              before ++ event :: after →
            ∃ output, shown[before.length]? = some output ∧
              Prints onlyVpn false before event output := by
  have loaded : Loaded vpnProcess onlyVpn :=
    ⟨.cons rfl .nil, List.nodup_singleton 0, .nil, .nil, .nil, .nil, List.nodup_nil, rfl, rfl, rfl⟩
  exact ⟨loaded, by decide, rfl, process_reports loaded (by decide) rfl _⟩

end OsmoSysmon
