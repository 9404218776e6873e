import OsmoSysmon.Config.Replay

/-! # Which configurations come back

Whatever the state, the callbacks write the clients, the interfaces and the hosts up to the
first one without a name, and reading this gives them back.  So a configuration comes back
exactly if it holds nothing else.
-/

namespace OsmoSysmon

open CText Talloc Loop OrderedMap

/-- What commands have written into an object. -/
def CtrlObject.Typed (vty : Vty) : CtrlObject → Prop
  | .client cfg _ =>
    IsWord cfg.name ∧
      (∀ host, cfg.remoteHost = some host → IsWord host ∧ vty.isAddress host = true) ∧
      1 ≤ cfg.remotePort.toNat
  | .getVar _ name => IsWord name

/-- Lists and heaps are in order, and every name is a word that has been typed. -/
structure Consistent (libs : Libs) (s : Sysmon) : Prop where
  stores : ∃ maps, Registries.Stores s.registries maps ∧
    ∀ name, .netdev name ∈ (maps .netdev).entries → IsWord name
  sane : Sane s.registries.ctrl
  typed : s.registries.ctrl.heap.All (·.Typed libs.vty)
  hosts : ∀ host ∈ s.pings, IsWord host ∧ Addable libs.oping host
  distinct : s.pings.Nodup

/-- The registries that no callback writes. -/
def Kind.Unwritten : Kind → Prop
  | .openvpnClient | .file | .shellcmd => True
  | .ctrlClient | .netdev => False

/-- There is nothing that is not written. -/
structure Complete (libs : Libs) (s : Sysmon) : Prop where
  lists : ∀ kind : Kind, kind.Unwritten → s.registries.list kind = []
  sysinfo : s.sysinfoEnabled = true
  named : ∀ host ∈ s.pings, (libs.username host).isSome = true

theorem consistent_initial (libs : Libs) : Consistent libs .initial where
  stores := ⟨_, Registries.stores_empty, fun _ mem => by cases mem⟩
  sane := sane_empty
  typed _ mem := by cases mem
  hosts _ mem := by cases mem
  distinct := List.nodup_nil

theorem complete_initial (libs : Libs) : Complete libs .initial where
  lists kind _ := by cases kind <;> rfl
  sysinfo := rfl
  named _ mem := by cases mem

/-! ## Contents -/

theorem typed_client {vty : Vty} {heap : Heap CtrlObject} {c : Client}
    (typed : heap.All (·.Typed vty)) (stored : c.Stored heap) : c.Typed vty := by
  obtain ⟨isName, isHost, isPort⟩ := typed.get? stored.cell
  obtain ⟨host, there⟩ := stored.host
  refine ⟨isName, ⟨host, there, isHost host there⟩, isPort, ?_⟩
  intro name mem
  obtain ⟨v, isVar, rfl⟩ := List.mem_map.mp mem
  exact typed.get? (stored.var v isVar)

namespace Registries

theorem contents_eq {s : Registries} {maps : Kind → OrderedMap Entry.key} (stores : Stores s maps)
    (kind : Kind) : s.contents kind = (maps kind).entries.map some := by
  rw [contents, elements, List.map_map]
  exact stores.data kind

theorem contents_eq_nil {s : Registries} {kind : Kind} :
    s.contents kind = [] ↔ s.list kind = [] := by
  simp [contents, elements]

theorem endpoints_eq_nil {s : Registries} : s.endpoints = [] ↔ s.list .openvpnClient = [] := by
  rw [endpoints, List.map_eq_nil_iff, contents_eq_nil]

theorem clientVars_eq {s : Registries} {clients : List Client} (reg : Registered s.ctrl clients) :
    s.clientVars = clients.map fun c => c.view.2.map some := by
  rw [clientVars, reg.linked, List.map_map]
  exact List.map_congr_left fun c mem => reg.variableNames_eq mem

end Registries

/-- The same clients are the same entries. -/
theorem ofClient_of_views {clients clients' : List Client}
    (same : clients'.map Client.view = clients.map Client.view) :
    clients'.map Registries.ofClient = clients.map Registries.ofClient := by
  have entries (l : List Client) :
      l.map Registries.ofClient = (l.map Client.view).map fun v => .ctrlClient v.1 := by
    rw [List.map_map]
    rfl
  rw [entries, same, ← entries]

/-! ## What comes back -/

/-- What the lines of the callbacks give. -/
structure Restored (libs : Libs) (s t : Sysmon) : Prop where
  clients : t.registries.contents .ctrlClient = s.registries.contents .ctrlClient
  vars : t.registries.clientVars = s.registries.clientVars
  netdevs : t.registries.contents .netdev = s.registries.contents .netdev
  pings : t.pings.Perm (writtenHosts libs s.pings)
  lists : ∀ kind : Kind, kind.Unwritten → t.registries.list kind = []
  sysinfo : t.sysinfoEnabled = true

/-- The map of CTRL clients with different names. -/
def clientMap (clients : List Client) (names : (clients.map Client.name).Nodup) :
    OrderedMap Entry.key where
  entries := clients.map Registries.ofClient
  distinct := by
    rw [List.map_map]
    have keys : ((clients.map Client.name).map Key.ctrlClient).Nodup :=
      names.map fun _ _ => Key.ctrlClient.inj
    rwa [List.map_map] at keys

/-- The state that lines lead to from the start. -/
theorem reads_written {libs : Libs} (documented : libs.Documented) {setup : Registries.TcpSetup}
    {clients : List Client} {names hosts : List CStr}
    (typed : ∀ c ∈ clients, c.Typed libs.vty ∧ (c.vars.map Prod.snd).Nodup)
    (distinctClients : (clients.map Client.name).Nodup) (isName : ∀ name ∈ names, IsWord name)
    (distinctNames : names.Nodup) (isHost : ∀ host ∈ hosts, IsWord host ∧ Addable libs.oping host)
    (distinctHosts : hosts.Nodup) :
    ∃ t clients' maps, Reads libs setup .initial
        (clients.flatMap clientLines ++ names.map netdevLine ++ hosts.map pingLine) t ∧
      Registered t.registries.ctrl clients' ∧ clients'.map Client.view = clients.map Client.view ∧
      Registries.Stores t.registries maps ∧ (maps .netdev).entries = names.map .netdev ∧
      (∀ kind : Kind, kind.Unwritten → (maps kind).entries = []) ∧ t.pings.Perm hosts ∧
      t.sysinfoEnabled = true := by
  obtain ⟨ctrl, clients', readClients, reg, pos, views⟩ := @reads_clients libs setup .initial
    documented.vty [] clients registered_empty trivial typed distinctClients
  have stores := @Registries.Stores.onCtrl _ _ Registries.stores_empty ctrl clients' reg
    (clientMap clients' reg.names) rfl
  obtain ⟨registries, maps, readNetdevs, reg₂, pos₂, stores₂, netdevs, others⟩ :=
    @reads_netdevs libs setup (Sysmon.initial.withCtrl ctrl) documented.vty clients' _ [] names
      reg pos stores rfl isName distinctNames
  obtain ⟨ctrl₃, pings, readPings, reg₃, perm⟩ := @reads_pings libs setup
    { Sysmon.initial.withCtrl ctrl with registries } documented clients' hosts reg₂ pos₂ isHost
    distinctHosts
  refine ⟨{ registries := { registries with ctrl := ctrl₃ }, pings, sysinfoEnabled := true },
    clients', maps, (readClients.append readNetdevs).append readPings, reg₃, views,
    stores₂.moved reg₂ reg₃, netdevs, ?_, perm, rfl⟩
  intro kind unwritten
  cases kind with
  | ctrlClient | netdev => exact unwritten.elim
  | openvpnClient | file | shellcmd =>
    rw [others _ (by simp)]
    rfl

theorem replay_spec {libs : Libs} (documented : libs.Documented) {s : Sysmon}
    (consistent : Consistent libs s) :
    ∃ lines, configWrite libs s = .ok lines ∧
      ∀ setup, ∃ t, replay libs setup lines .start = .ok (some (Sysmon.reader t)) ∧
        Restored libs s t := by
  obtain ⟨maps, stores, isWord⟩ := consistent.stores
  obtain ⟨clients, reg, -⟩ := consistent.sane
  obtain ⟨names, isNames, writeNetdevs⟩ := exists_names (stores.kept .netdev (by simp))
  refine ⟨clients.flatMap clientLines ++ names.map netdevLine ++
    (writtenHosts libs s.pings).map pingLine, ?_, ?_⟩
  · rw [configWrite, ok_bind (configWriteCtrlClient_eq reg)]
    refine (ok_bind writeNetdevs _).trans ?_
    rw [configWritePing_eq documented]
    rfl
  intro setup
  have written : (writtenHosts libs s.pings).Sublist s.pings := List.takeWhile_sublist _
  have distinctNames : names.Nodup := by
    have distinct := (maps .netdev).distinct
    rw [isNames, List.map_map] at distinct
    exact List.Nodup.of_map _ distinct
  obtain ⟨t, clients', maps', reads, reg', views, stores', netdevs, empty, perm, sysinfo⟩ :=
    @reads_written libs documented setup clients names (writtenHosts libs s.pings)
      (fun c mem => ⟨typed_client consistent.typed (reg.stored c mem), (reg.stored c mem).varNames⟩)
      reg.names (fun name mem => isWord name (isNames ▸ List.mem_map_of_mem mem)) distinctNames
      (fun host mem => consistent.hosts host (written.subset mem))
      (consistent.distinct.sublist written)
  refine ⟨t, reads, ?_, ?_, ?_, perm, ?_, sysinfo⟩
  · rw [Registries.contents_eq stores', Registries.contents_eq stores, stores'.entries_ctrl reg',
      stores.entries_ctrl reg, ofClient_of_views views]
  · rw [Registries.clientVars_eq reg', Registries.clientVars_eq reg]
    have sameVars := congrArg (List.map fun v => v.2.map some) views
    rwa [List.map_map, List.map_map] at sameVars
  · rw [Registries.contents_eq stores', Registries.contents_eq stores, netdevs, isNames]
  · intro kind unwritten
    rw [← Registries.contents_eq_nil, Registries.contents_eq stores', empty kind unwritten,
      List.map_nil]

theorem writtenHosts_perm_iff {libs : Libs} {hosts : List CStr} :
    hosts.Perm (writtenHosts libs hosts) ↔ ∀ host ∈ hosts, (libs.username host).isSome = true := by
  rw [← List.takeWhile_eq_self_iff]
  constructor
  · intro perm
    exact (List.takeWhile_sublist _).eq_of_length perm.length_eq.symm
  · intro same
    rw [writtenHosts, same]

/-- A configuration comes back exactly if it holds nothing that is not written. -/
theorem roundTrips_iff {libs : Libs} (documented : libs.Documented) {s : Sysmon}
    (consistent : Consistent libs s) : RoundTrips libs s ↔ Complete libs s := by
  obtain ⟨lines, write, replays⟩ := replay_spec documented consistent
  constructor
  · intro roundTrips
    obtain ⟨lines', r, write', run, same⟩ := roundTrips .opened
    rw [write] at write'
    cases write'
    obtain ⟨t, run', restored⟩ := replays .opened
    rw [run] at run'
    cases run'
    refine ⟨?_, same.sysinfo.trans restored.sysinfo, ?_⟩
    · intro kind unwritten
      have empty := restored.lists kind unwritten
      cases kind with
      | ctrlClient | netdev => exact unwritten.elim
      | openvpnClient =>
        rw [← Registries.endpoints_eq_nil] at empty ⊢
        exact same.openvpn.trans empty
      | file =>
        rw [← Registries.contents_eq_nil] at empty ⊢
        exact same.files.trans empty
      | shellcmd =>
        rw [← Registries.contents_eq_nil] at empty ⊢
        exact same.shellcmds.trans empty
    · exact writtenHosts_perm_iff.mp (same.pings.trans restored.pings)
  · intro complete setup
    obtain ⟨t, run, restored⟩ := replays setup
    have lists (kind : Kind) (unwritten : kind.Unwritten) :
        s.registries.contents kind = t.registries.contents kind := by
      rw [Registries.contents_eq_nil.mpr (complete.lists kind unwritten),
        Registries.contents_eq_nil.mpr (restored.lists kind unwritten)]
    refine ⟨lines, t.reader, write, run, ?_⟩
    exact {
      clients := restored.clients.symm
      vars := restored.vars.symm
      netdevs := restored.netdevs.symm
      pings := (writtenHosts_perm_iff.mpr complete.named).trans restored.pings.symm
      openvpn := congrArg (List.map (Option.map Entry.key)) (lists .openvpnClient trivial)
      files := lists .file trivial
      shellcmds := lists .shellcmd trivial
      sysinfo := complete.sysinfo.trans restored.sysinfo.symm }

end OsmoSysmon
