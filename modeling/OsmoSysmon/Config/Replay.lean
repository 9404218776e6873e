import OsmoSysmon.Config.Lines

/-! # Replaying what has been written

`Reads` is a session that reads lines from one state to another.  The lines of a client
enter its nodes and the next line leaves them, and each line does to the configuration
what its command did when it was typed.
-/

namespace OsmoSysmon

open CText Talloc Loop OrderedMap

/-- The indentation of the lines that have led to a node. -/
def VtyNode.levels : VtyNode → List Nat
  | .config => []
  | .ctrlClient => [0]
  | .ctrlClientGetVar => [1, 0]

namespace Sysmon

def reader (s : Sysmon) : Reader := ⟨s.node.levels, s⟩

def withCtrl (s : Sysmon) (ctrl : CtrlState) : Sysmon :=
  { s with registries := { s.registries with ctrl } }

theorem withCtrl_self (s : Sysmon) {node : VtyNode} {index : Option Ptr}
    (isNode : s.registries.ctrl.node = node) (isIndex : s.registries.ctrl.index = index) :
    s.withCtrl { s.registries.ctrl with node, index } = s := by
  subst isNode isIndex
  rfl

end Sysmon

def Reads (libs : Libs) (setup : Registries.TcpSetup) (s : Sysmon) (lines : List CStr)
    (t : Sysmon) : Prop :=
  replay libs setup lines s.reader = .ok (some t.reader)

section

variable {libs : Libs} {setup : Registries.TcpSetup} {s t u : Sysmon}

theorem Reads.nil (s : Sysmon) : Reads libs setup s [] s := rfl

theorem Reads.line {line : CStr} {lines : List CStr} {result : CmdResult}
    (here : readLine libs setup line s.reader = .ok (result, t.reader)) (known : result ≠ .noMatch)
    (rest : Reads libs setup t lines u) : Reads libs setup s (line :: lines) u := by
  rw [Reads, replay, ok_bind here]
  exact (if_neg known).trans rest

theorem replay_append {first second : List CStr} {r r' : Reader}
    (run : replay libs setup first r = .ok (some r')) :
    replay libs setup (first ++ second) r = replay libs setup second r' := by
  induction first generalizing r with
  | nil =>
    cases run
    rfl
  | cons line first ih =>
    rw [replay] at run
    obtain ⟨⟨result, next⟩, here, run⟩ := ok_bind_inv run
    rw [List.cons_append, replay, ok_bind here]
    by_cases unknown : result = .noMatch
    · simp only [if_pos unknown] at run
      cases run
    · simp only [if_neg unknown] at run ⊢
      exact ih run

theorem Reads.append {first second : List CStr} (reads : Reads libs setup s first t)
    (reads' : Reads libs setup t second u) : Reads libs setup s (first ++ second) u := by
  rw [Reads, replay_append reads]
  exact reads'

/-! ## Leaving nodes -/

theorem goParent_eq {ctrl : CtrlState} (run : osysmonCtrlGoParent s.registries.ctrl = .ok ctrl) :
    osysmonGoParent s = .ok (s.withCtrl ctrl) := by
  rw [osysmonGoParent, ok_bind run]
  rfl

/-- The session is at a client or at a variable of it. -/
def Inside (s : CtrlState) (c : Client) : Prop :=
  s.node = .ctrlClient ∧ s.index = some c.ptr ∨
    s.node = .ctrlClientGetVar ∧ ∃ v ∈ c.vars, s.index = some v.1

/-- A line with the indentation of variables comes back to the client. -/
theorem leave_variable {c : Client} (stored : c.Stored s.registries.ctrl.heap)
    (inside : Inside s.registries.ctrl c) :
    leaveNodes 1 s.node.levels s = .ok ⟨[0],
      s.withCtrl { s.registries.ctrl with node := .ctrlClient, index := some c.ptr }⟩ := by
  rcases inside with ⟨node, index⟩ | ⟨node, v, isVar, index⟩
  · rw [s.withCtrl_self node index, Sysmon.node, node]
    rfl
  · rw [Sysmon.node, node]
    exact ok_bind (goParent_eq (goParent_variable stored node isVar index)) _

/-- A line without indentation comes back to the config node. -/
theorem leave_all (sane : Sane s.registries.ctrl) :
    ∃ index, leaveNodes 0 s.node.levels s = .ok ⟨[],
      s.withCtrl { s.registries.ctrl with node := .config, index }⟩ := by
  obtain ⟨clients, reg, pos⟩ := sane
  cases node : s.registries.ctrl.node with
  | config =>
    refine ⟨s.registries.ctrl.index, ?_⟩
    rw [s.withCtrl_self node rfl, Sysmon.node, node]
    rfl
  | ctrlClient =>
    refine ⟨none, ?_⟩
    rw [Sysmon.node, node]
    exact ok_bind (goParent_eq (goParent_client node)) _
  | ctrlClientGetVar =>
    rw [Positioned, node] at pos
    obtain ⟨c, isClient, v, isVar, index⟩ := pos
    refine ⟨none, ?_⟩
    rw [Sysmon.node, node]
    -- through the client that the variable belongs to
    have up := goParent_eq (goParent_variable (reg.stored c isClient) node isVar index)
    refine (ok_bind up _).trans ?_
    exact ok_bind (goParent_eq (goParent_client rfl)) _

/-- A line that is read where the levels are those of the node. -/
theorem readLine_eq {line : CStr} {indent : Nat} {words : List CStr}
    (isLine : libs.vty.split line = (indent, words)) (nonempty : words ≠ []) {levels : List Nat}
    (left : leaveNodes indent s.node.levels s = .ok ⟨levels, u⟩) {command : SysCommand}
    (found : command? libs.vty setup u.node words = some command) {result : CmdResult}
    (run : command.exec libs u = .ok (result, t))
    (place : (if t.node = u.node then levels else indent :: levels) = t.node.levels) :
    readLine libs setup line s.reader = .ok (result, t.reader) := by
  have execute : execWords libs setup words u = .ok (result, t) := by
    rw [execWords, found]
    exact run
  rw [readLine, isLine, Sysmon.reader]
  simp only [if_neg nonempty, ok_bind left, ok_bind execute, place]
  rfl

/-! ## Clients -/

theorem exec_onCtrl {cmd : CtrlState → Except Fault (CmdResult × CtrlState)} {result : CmdResult}
    {ctrl : CtrlState} (run : cmd s.registries.ctrl = .ok (result, ctrl)) :
    onRegistries (Registries.onCtrl cmd) s = .ok (result, s.withCtrl ctrl) := by
  have onCtrl : Registries.onCtrl cmd s.registries =
      .ok (result, { s.registries with ctrl }) := ok_bind run _
  exact ok_bind onCtrl _

/-- What is still to come is not there yet. -/
theorem not_mem_of_nodup {α : Type} {there rest : List α} {a : α}
    (distinct : (there ++ a :: rest).Nodup) : a ∉ there :=
  fun old => (List.nodup_append.mp distinct).2.2 a old a List.mem_cons_self rfl

/-- What the commands that have made a client promise about it. -/
structure Client.Typed (vty : Vty) (c : Client) : Prop where
  name : IsWord c.name
  host : ∃ host, c.cfg.remoteHost = some host ∧ IsWord host ∧ vty.isAddress host = true
  port : 1 ≤ c.cfg.remotePort.toNat
  vars : ∀ name ∈ c.vars.map Prod.snd, IsWord name

/-- A client without its addresses. -/
def Client.view (c : Client) : HostCfg × List CStr := (c.cfg, c.vars.map Prod.snd)

/-- The lines of variables that the client does not have yet. -/
theorem reads_variables (documented : libs.vty.Documented) {names : List CStr}
    {before : List Client} {c : Client} (reg : Registered s.registries.ctrl (before ++ [c]))
    (inside : Inside s.registries.ctrl c) (isWord : ∀ name ∈ names, IsWord name)
    (distinct : (c.vars.map Prod.snd ++ names).Nodup) :
    ∃ ctrl c', Reads libs setup s (names.map getVarLine) (s.withCtrl ctrl) ∧
      Registered ctrl (before ++ [c']) ∧ Inside ctrl c' ∧
      c'.view = (c.cfg, c.vars.map Prod.snd ++ names) := by
  induction names generalizing s c with
  | nil => exact ⟨_, c, .nil s, reg, inside, by rw [Client.view, List.append_nil]⟩
  | cons name names ih =>
    rw [List.forall_mem_cons] at isWord
    have stored := reg.stored c (by simp)
    have new := not_mem_of_nodup distinct
    -- the line is read at the client and enters the variable
    let ctrl : CtrlState :=
      { s.registries.ctrl with
        heap := addVarHeap s.registries.ctrl.heap c name
        node := .ctrlClientGetVar
        index := some s.registries.ctrl.heap.next }
    have run : cfgCtrlcGetVar name
        { s.registries.ctrl with node := .ctrlClient, index := some c.ptr } =
        .ok (.success, ctrl) := by
      have create := @findOrCreate_new
        { s.registries.ctrl with node := .ctrlClient, index := some c.ptr } c stored name new
      exact ok_bind create _
    have here : readLine libs setup (getVarLine name) s.reader =
        .ok (.success, (s.withCtrl ctrl).reader) :=
      readLine_eq (split_getVarLine documented isWord.1) (by simp) (leave_variable stored inside)
        (command?_getVarLine libs.vty setup name) (exec_onCtrl run) rfl
    have reg' : Registered ctrl (before ++ [c.addVar s.registries.ctrl.heap.next name]) :=
      (addVar_registered reg new).moved _ _
    obtain ⟨ctrl', c', reads, regLast, insideLast, isView⟩ := @ih (s.withCtrl ctrl)
      (c.addVar s.registries.ctrl.heap.next name) reg'
      (.inr ⟨rfl, _, List.mem_append_right _ List.mem_cons_self, rfl⟩) isWord.2
      (by simpa [Client.addVar] using distinct)
    refine ⟨ctrl', c', .line here (by simp) reads, regLast, insideLast, ?_⟩
    rw [isView]
    simp [Client.addVar]

/-- The lines of a client with a new name. -/
theorem reads_client (documented : libs.vty.Documented) {clients : List Client} {c : Client}
    (reg : Registered s.registries.ctrl clients) (pos : Positioned s.registries.ctrl clients)
    (typed : c.Typed libs.vty) (distinct : (c.vars.map Prod.snd).Nodup)
    (new : c.name ∉ clients.map Client.name) :
    ∃ ctrl c', Reads libs setup s (clientLines c) (s.withCtrl ctrl) ∧
      Registered ctrl (clients ++ [c']) ∧ Inside ctrl c' ∧ c'.view = c.view := by
  obtain ⟨host, isHost, isWord, isAddress⟩ := typed.host
  obtain ⟨index, left⟩ := leave_all ⟨clients, reg, pos⟩
  obtain ⟨created, run, regNew, -⟩ :=
    cfgCtrlClient_new (reg.moved .config index) new host c.cfg.remotePort
  have here : readLine libs setup (clientLine c.cfg) s.reader = .ok (.success,
      (s.withCtrl
        { created with node := .ctrlClient, index := some s.registries.ctrl.heap.next }).reader) :=
    readLine_eq (split_clientLine documented isHost typed.name isWord) (by simp) left
      (command?_clientLine documented isAddress typed.port) (exec_onCtrl run) rfl
  have sameCfg : hostCfgAlloc c.name (some host) c.cfg.remotePort = c.cfg := by
    rw [← isHost]
    rfl
  -- no variable is there yet
  obtain ⟨ctrl, c', reads, reg', inside, isView⟩ := @reads_variables libs setup
    (s.withCtrl { created with node := .ctrlClient, index := some s.registries.ctrl.heap.next })
    documented (c.vars.map Prod.snd) clients _ (regNew.moved _ _) (.inl ⟨rfl, rfl⟩) typed.vars
    distinct
  refine ⟨ctrl, c', .line here (by simp) reads, reg', inside, ?_⟩
  rw [isView, Client.view, ← sameCfg]
  rfl

theorem positioned_of_inside {ctrl : CtrlState} {clients : List Client} {c : Client}
    (isClient : c ∈ clients) (inside : Inside ctrl c) : Positioned ctrl clients := by
  rcases inside with ⟨node, index⟩ | ⟨node, v, isVar, index⟩
  · rw [Positioned, node]
    exact ⟨c, isClient, index⟩
  · rw [Positioned, node]
    exact ⟨c, isClient, v, isVar, index⟩

theorem reads_clients (documented : libs.vty.Documented) {clients written : List Client}
    (reg : Registered s.registries.ctrl clients) (pos : Positioned s.registries.ctrl clients)
    (typed : ∀ c ∈ written, c.Typed libs.vty ∧ (c.vars.map Prod.snd).Nodup)
    (distinct : (clients.map Client.name ++ written.map Client.name).Nodup) :
    ∃ ctrl clients', Reads libs setup s (written.flatMap clientLines) (s.withCtrl ctrl) ∧
      Registered ctrl clients' ∧ Positioned ctrl clients' ∧
      clients'.map Client.view = clients.map Client.view ++ written.map Client.view := by
  induction written generalizing s clients with
  | nil => exact ⟨_, clients, .nil s, reg, pos, by simp⟩
  | cons c written ih =>
    rw [List.forall_mem_cons] at typed
    have new : c.name ∉ clients.map Client.name := not_mem_of_nodup distinct
    obtain ⟨ctrl, c', reads, reg', inside, isView⟩ :=
      @reads_client _ setup _ documented _ _ reg pos typed.1.1 typed.1.2 new
    have sameName : c'.name = c.name := congrArg (fun v => v.1.name) isView
    obtain ⟨ctrl', clients', reads', regLast, posLast, isViews⟩ := @ih (s.withCtrl ctrl)
      (clients ++ [c']) reg' (positioned_of_inside (by simp) inside) typed.2
      (by simpa [sameName] using distinct)
    refine ⟨ctrl', clients', reads.append reads', regLast, posLast, ?_⟩
    rw [isViews, List.map_append, List.map_cons, isView]
    simp

/-! ## Interfaces and hosts -/

/-- The line of an interface that is not registered yet. -/
theorem readLine_netdev (documented : libs.vty.Documented) {clients : List Client}
    {maps : Kind → OrderedMap Entry.key}
    (reg : Registered s.registries.ctrl clients) (pos : Positioned s.registries.ctrl clients)
    (stores : Registries.Stores s.registries maps) {name : CStr} (isWord : IsWord name) :
    ∃ registries, readLine libs setup (netdevLine name) s.reader =
        .ok (.success, { s with registries }.reader) ∧
      Registered registries.ctrl clients ∧ Positioned registries.ctrl clients ∧
      Registries.Stores registries (Registries.changed maps (.netdev name)) := by
  obtain ⟨index, left⟩ := leave_all ⟨clients, reg, pos⟩
  have regMoved := reg.moved .config index
  obtain ⟨result, registries, run, obeys⟩ :=
    Registries.exec_obeys (stores.moved reg regMoved) (.netdev name)
  have accepted : result = .success := by
    rcases obeys.verdict with ⟨-, refused⟩ | ⟨success, -⟩
    · exact refused.elim
    · exact success
  subst accepted
  have sameCtrl : registries.ctrl = { s.registries.ctrl with node := .config, index } :=
    Registries.exec_ctrl (by simp [RegCommand.key, RegCommand.change, Entry.key, Key.kind]) run
  refine ⟨registries, ?_, sameCtrl ▸ regMoved, ?_, obeys.stores⟩
  · apply readLine_eq (split_netdevLine documented isWord) (by simp) left
      (command?_netdevLine libs.vty setup name) (ok_bind run _)
    simp [Sysmon.node, Sysmon.withCtrl, sameCtrl, VtyNode.levels]
  · rw [sameCtrl]
    trivial

theorem reads_netdevs (documented : libs.vty.Documented) {clients : List Client}
    {maps : Kind → OrderedMap Entry.key} {there names : List CStr}
    (reg : Registered s.registries.ctrl clients) (pos : Positioned s.registries.ctrl clients)
    (stores : Registries.Stores s.registries maps)
    (isMap : (maps .netdev).entries = there.map .netdev) (isWord : ∀ name ∈ names, IsWord name)
    (distinct : (there ++ names).Nodup) :
    ∃ registries maps', Reads libs setup s (names.map netdevLine) { s with registries } ∧
      Registered registries.ctrl clients ∧ Positioned registries.ctrl clients ∧
      Registries.Stores registries maps' ∧
      (maps' .netdev).entries = (there ++ names).map .netdev ∧
      ∀ kind, kind ≠ .netdev → maps' kind = maps kind := by
  induction names generalizing s maps there with
  | nil => exact ⟨_, maps, .nil s, reg, pos, stores, by rw [isMap, List.append_nil], fun _ _ => rfl⟩
  | cons name names ih =>
    rw [List.forall_mem_cons] at isWord
    have new := not_mem_of_nodup distinct
    have isNew : (Entry.netdev name).key ∉ (maps .netdev).keys := by
      rw [OrderedMap.keys, isMap]
      simpa [Entry.key] using new
    have isMap' : (Registries.changed maps (.netdev name) .netdev).entries =
        (there ++ [name]).map .netdev := by
      show ((maps .netdev).put (.netdev name)).entries = _
      rw [entries_put_new isNew, isMap, List.map_append]
      rfl
    obtain ⟨registries, here, regNew, posNew, storesNew⟩ :=
      @readLine_netdev _ setup _ documented _ _ reg pos stores name isWord.1
    obtain ⟨registries', maps', reads, regLast, posLast, storesLast, isMapLast, others⟩ :=
      @ih { s with registries } _ (there ++ [name]) regNew posNew storesNew isMap' isWord.2
        (by simpa using distinct)
    refine ⟨registries', maps', .line here (by simp) reads, regLast, posLast, storesLast, ?_, ?_⟩
    · rw [isMapLast]
      simp
    · intro kind other
      rw [others kind other]
      exact Function.update_of_ne other _ _

/-- A host that is not in the list can be added to it. -/
def Addable (oping : Liboping) (host : CStr) : Prop :=
  ∀ hosts, host ∉ hosts → 0 ≤ (oping.hostAdd hosts host).1

/-- The line of a host that is not in the list yet. -/
theorem readLine_ping (documented : libs.Documented) {clients : List Client} {host : CStr}
    (reg : Registered s.registries.ctrl clients) (pos : Positioned s.registries.ctrl clients)
    (isWord : IsWord host) (addable : Addable libs.oping host) (new : host ∉ s.pings) :
    ∃ index pings, readLine libs setup (pingLine host) s.reader = .ok (.success,
        { s.withCtrl { s.registries.ctrl with node := .config, index } with pings }.reader) ∧
      pings.Perm (host :: s.pings) := by
  obtain ⟨index, left⟩ := leave_all ⟨clients, reg, pos⟩
  obtain ⟨same, linked⟩ := addHost_of_success documented.oping new (addable s.pings new)
  have run : cfgPing libs.oping host s.pings =
      (.success, (libs.oping.hostAdd s.pings host).2) := by
    rw [cfgPing, same]
    exact if_neg (Int.not_lt.mpr (addable s.pings new))
  refine ⟨index, (libs.oping.hostAdd s.pings host).2, ?_, linked.perm⟩
  apply readLine_eq (split_pingLine documented.vty isWord) (by simp) left
    (command?_pingLine libs.vty setup host) _ rfl
  show onPings (cfgPing libs.oping host) _ = _
  rw [onPings]
  simp only [Sysmon.withCtrl, run]

theorem reads_pings (documented : libs.Documented) {clients : List Client} {hosts : List CStr}
    (reg : Registered s.registries.ctrl clients) (pos : Positioned s.registries.ctrl clients)
    (isHost : ∀ host ∈ hosts, IsWord host ∧ Addable libs.oping host)
    (distinct : (s.pings ++ hosts).Nodup) :
    ∃ ctrl pings, Reads libs setup s (hosts.map pingLine) { s.withCtrl ctrl with pings } ∧
      Registered ctrl clients ∧ pings.Perm (s.pings ++ hosts) := by
  induction hosts generalizing s with
  | nil => exact ⟨_, s.pings, .nil s, reg, by rw [List.append_nil]⟩
  | cons host hosts ih =>
    rw [List.forall_mem_cons] at isHost
    obtain ⟨⟨isWord, addable⟩, others⟩ := isHost
    have new := not_mem_of_nodup distinct
    obtain ⟨index, added, here, linked⟩ :=
      @readLine_ping _ setup _ documented _ host reg pos isWord addable new
    have perm : (added ++ hosts).Perm (s.pings ++ host :: hosts) :=
      (linked.append_right hosts).trans List.perm_middle.symm
    obtain ⟨ctrl, pings, reads, regLast, permLast⟩ :=
      @ih { s.withCtrl { s.registries.ctrl with node := .config, index } with pings := added }
        (reg.moved .config index) trivial others (perm.nodup_iff.mpr distinct)
    exact ⟨ctrl, pings, .line here (by simp) reads, regLast, permLast.trans perm⟩

end

end OsmoSysmon
