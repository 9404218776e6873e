import OsmoSysmon.Config.Restored
import OsmoSysmon.Lib.Run

/-! # Sessions whose configuration comes back

What each command does to a state that is in order, and from it that every configuration
of a session comes back exactly if no line of the session leaves behind what no callback
writes.
-/

namespace OsmoSysmon

open CText Talloc Loop OrderedMap

variable {libs : Libs} {s : Sysmon}

/-- What a command leaves of a state that is in order. -/
structure Kept (libs : Libs) (s : Sysmon) (command : SysCommand) (t : Sysmon) : Prop where
  consistent : Consistent libs t
  complete : Complete libs s → (Complete libs t ↔ ¬ command.Unwritten libs s)

theorem complete_congr {t : Sysmon} (complete : Complete libs s)
    (lists : ∀ kind : Kind, kind.Unwritten → t.registries.list kind = s.registries.list kind)
    (pings : t.pings ⊆ s.pings) (sysinfo : t.sysinfoEnabled = s.sysinfoEnabled) :
    Complete libs t where
  lists kind unwritten := (lists kind unwritten).trans (complete.lists kind unwritten)
  sysinfo := sysinfo.trans complete.sysinfo
  named host mem := complete.named host (pings mem)

/-- A session that only moves. -/
theorem consistent_moved (consistent : Consistent libs s) {node : VtyNode} {index : Option Ptr}
    (sane : Sane { s.registries.ctrl with node, index }) :
    Consistent libs (s.withCtrl { s.registries.ctrl with node, index }) where
  stores := by
    obtain ⟨maps, stores, isWord⟩ := consistent.stores
    obtain ⟨clients, reg, -⟩ := consistent.sane
    exact ⟨maps, stores.moved reg (reg.moved node index), isWord⟩
  sane := sane
  typed := consistent.typed
  hosts := consistent.hosts
  distinct := consistent.distinct

theorem complete_withCtrl (complete : Complete libs s) (ctrl : CtrlState) :
    Complete libs (s.withCtrl ctrl) := by
  refine @complete_congr _ _ (s.withCtrl ctrl) complete ?_ (fun _ => id) rfl
  intro kind unwritten
  cases kind with
  | ctrlClient | netdev => exact unwritten.elim
  | openvpnClient | file | shellcmd => rfl

/-! ## Clients and variables -/

section

variable {vty : Vty} {ctrl ctrl' : CtrlState} {result : CmdResult}

theorem cfgCtrlClient_typed (sane : Sane ctrl) (all : ctrl.heap.All (·.Typed vty))
    {name host : CStr} {port : UInt16}
    (typed : (SysCommand.registry (.ctrlClient name host port)).Typed vty)
    (run : cfgCtrlClient name host port ctrl = .ok (result, ctrl')) :
    ctrl'.heap.All (·.Typed vty) := by
  obtain ⟨clients, reg, -⟩ := sane
  obtain ⟨isName, isHost, isAddress, isPort⟩ := typed
  cases found : clients.find? fun c => name == c.name with
  | some c =>
    rw [cfgCtrlClient_known reg found] at run
    split at run <;> cases run <;> exact all
  | none =>
    obtain ⟨created, run', -, heap⟩ := cfgCtrlClient_new reg (notFound_iff.mp found) host port
    rw [run'] at run
    cases run
    show created.heap.All _
    rw [heap]
    have typedClient : CtrlObject.Typed vty
        (.client (hostCfgAlloc name (some host) port) []) := by
      refine ⟨isName, ?_, isPort⟩
      intro text isText
      cases isText
      exact ⟨isHost, isAddress⟩
    exact all.alloc typedClient none

theorem cfgNoCtrlClient_typed (all : ctrl.heap.All (·.Typed vty)) {name : CStr}
    (run : cfgNoCtrlClient name ctrl = .ok (result, ctrl')) : ctrl'.heap.All (·.Typed vty) := by
  obtain ⟨found, -, run⟩ := ok_bind_inv run
  cases found with
  | none =>
    cases run
    exact all
  | some cc =>
    cases run
    exact all.free cc

end

theorem getVariable_kept (consistent : Consistent libs s) (node : s.node = .ctrlClient)
    {name : CStr} (isName : IsWord name) :
    ∃ result t, (SysCommand.getVariable name).exec libs s = .ok (result, t) ∧
      Kept libs s (.getVariable name) t := by
  obtain ⟨maps, stores, isWord⟩ := consistent.stores
  obtain ⟨clients, reg, pos⟩ := consistent.sane
  rw [Positioned, show s.registries.ctrl.node = .ctrlClient from node] at pos
  obtain ⟨c, isClient, index⟩ := pos
  have here : indexPtr s.registries.ctrl = .ok c.ptr := by rw [indexPtr, index]
  obtain ⟨before, after, rfl⟩ := List.append_of_mem isClient
  obtain ⟨gv, ctrl, c', run, reg', -, isVar, -, -, sameCfg, heap⟩ := findOrCreate_eq reg name
  have entries : (maps .ctrlClient).entries = (before ++ c' :: after).map Registries.ofClient := by
    rw [stores.entries_ctrl reg]
    simp [Registries.ofClient, sameCfg]
  have stores' := stores.onCtrl (reg'.moved .ctrlClientGetVar (some gv)) entries
  rw [Function.update_eq_self] at stores'
  have execute : cfgCtrlcGetVar name s.registries.ctrl =
      .ok (.success, { ctrl with node := .ctrlClientGetVar, index := some gv }) := by
    rw [cfgCtrlcGetVar, ok_bind here]
    exact ok_bind run _
  have typed : ctrl.heap.All (·.Typed libs.vty) := by
    rcases heap with same | added
    · rw [same]
      exact consistent.typed
    · have cell := consistent.typed.get? (reg.stored c isClient).cell
      -- the list of variables plays no part
      have client : CtrlObject.Typed libs.vty
          (.client c.cfg (c.vars.map Prod.fst ++ [s.registries.ctrl.heap.next])) := cell
      have gvTyped : CtrlObject.Typed libs.vty (.getVar c.ptr name) := isName
      rw [added, addVarHeap]
      exact Heap.All.set (consistent.typed.alloc gvTyped _) client _
  refine ⟨.success, _, exec_onCtrl execute, ⟨⟨maps, stores', isWord⟩, ?_, typed,
    consistent.hosts, consistent.distinct⟩, ?_⟩
  · exact ⟨_, reg'.moved _ _, c', List.mem_append_right _ List.mem_cons_self, _, isVar, rfl⟩
  · exact fun complete => ⟨fun _ => id, fun _ => complete_withCtrl complete _⟩

/-- The callback stops at the freed variable. -/
theorem not_roundTrips_of_freed {t : Sysmon} {cc gv : Ptr}
    (isClient : cc ∈ t.registries.ctrl.ctrlClients) (isLinked : gv ∈ t.registries.ctrl.getVars cc)
    (freed : t.registries.ctrl.heap.get? gv = none) : ¬ RoundTrips libs t := by
  intro roundTrips
  obtain ⟨lines, r, write, -⟩ := roundTrips .opened
  obtain ⟨clients, writeClients, -⟩ := ok_bind_inv write
  exact live_of_configWrite writeClients isClient isLinked freed

/-! ## Registries -/

/-- A command on the registries keeps the CTRL clients in order. -/
theorem exec_ctrl_kept (consistent : Consistent libs s) {command : RegCommand}
    (node : s.node = .config) (typed : (SysCommand.registry command).Typed libs.vty)
    {result : CmdResult} {registries : Registries}
    (run : Registries.exec command s.registries = .ok (result, registries)) :
    Sane registries.ctrl ∧ registries.ctrl.heap.All (·.Typed libs.vty) := by
  by_cases other : command.key.kind ≠ .ctrlClient
  · rw [Registries.exec_ctrl other run]
    exact ⟨consistent.sane, consistent.typed⟩
  cases command with
  | ctrlClient name host port =>
    obtain ⟨⟨verdict, ctrl⟩, here, same⟩ := ok_bind_inv run
    cases same
    refine ⟨?_, cfgCtrlClient_typed consistent.sane consistent.typed typed here⟩
    obtain ⟨_, _, run', sane, -⟩ := cfgCtrlClient_sane consistent.sane name host port
    rw [here] at run'
    cases run'
    exact sane
  | noCtrlClient name =>
    obtain ⟨⟨verdict, ctrl⟩, here, same⟩ := ok_bind_inv run
    cases same
    refine ⟨?_, cfgNoCtrlClient_typed consistent.typed here⟩
    obtain ⟨_, _, run', sane, -⟩ := cfgNoCtrlClient_sane consistent.sane node name
    rw [here] at run'
    cases run'
    exact sane
  | _ => exact absurd (by simp [RegCommand.key, RegCommand.change, Entry.key, Key.kind]) other

/-- The interfaces are words after a command, too. -/
theorem changed_netdevs {maps : Kind → OrderedMap Entry.key}
    (isWord : ∀ name, .netdev name ∈ (maps .netdev).entries → IsWord name) {command : RegCommand}
    (typed : (SysCommand.registry command).Typed libs.vty) (name : CStr)
    (mem : .netdev name ∈ (Registries.changed maps command .netdev).entries) : IsWord name := by
  by_cases other : command.key.kind = .netdev
  · rw [Registries.changed, other, Function.update_self] at mem
    cases command with
    | netdev new =>
      rcases mem_put mem with same | old
      · cases same
        exact typed
      · exact isWord name old
    | noNetdev gone => exact isWord name (mem_drop mem)
    | _ => simp [RegCommand.key, RegCommand.change, Entry.key, Key.kind] at other
  · rw [Registries.changed, Function.update_of_ne (Ne.symm other)] at mem
    exact isWord name mem

/-- Where nothing is held, what has no callback is refused exactly if it leaves nothing. -/
theorem refused_iff {held : Key → Option Entry} {command : RegCommand}
    (unwritten : command.key.kind.Unwritten) (missing : held command.key = none) :
    command.Refused held ↔ ¬ (SysCommand.registry command).Unwritten libs s := by
  cases command with
  | openvpn host port setup =>
    show held (.openvpnClient host port) = none ∧ setup ≠ .opened ↔ ¬ setup = .opened
    exact and_iff_right missing
  | file name path => exact iff_of_false (fun taken => taken missing) (fun free => free trivial)
  | shellcmd name text => exact iff_of_false (fun taken => taken missing) (fun free => free trivial)
  | noOpenvpn host port => exact iff_of_true missing id
  | noFile name => exact iff_of_true missing id
  | noShellcmd name => exact iff_of_true missing id
  | ctrlClient _ _ _ | noCtrlClient _ | netdev _ | noNetdev _ => exact unwritten.elim

theorem exists_put {command : RegCommand}
    (unwritten : (SysCommand.registry command).Unwritten libs s) :
    ∃ entry, command.change = .put entry ∧ command.key = entry.key ∧ entry.key.kind.Unwritten := by
  cases command with
  | openvpn _ _ _ | file _ _ | shellcmd _ _ => exact ⟨_, rfl, rfl, trivial⟩
  | _ => exact unwritten.elim

/-- After a command the registries without a callback are empty exactly if it has put
    nothing there. -/
theorem exec_lists {maps : Kind → OrderedMap Entry.key} {command : RegCommand}
    {result : CmdResult} {registries : Registries} (stores : Registries.Stores s.registries maps)
    (obeys : Registries.Obeys s.registries maps command result registries)
    (complete : Complete libs s) :
    (∀ kind : Kind, kind.Unwritten → registries.list kind = []) ↔
      ¬ (SysCommand.registry command).Unwritten libs s := by
  have notCtrl (kind : Kind) (unwritten : kind.Unwritten) : kind ≠ .ctrlClient := by
    rintro rfl
    exact unwritten
  have empty (kind : Kind) (unwritten : kind.Unwritten) : (maps kind).entries = [] := by
    have kept := stores.kept kind (notCtrl kind unwritten)
    rwa [complete.lists kind unwritten, List.forall₂_nil_left_iff] at kept
  have missing (unwritten : command.key.kind.Unwritten) :
      Registries.held maps command.key = none := by
    rw [Registries.held, OrderedMap.find?, empty _ unwritten]
    rfl
  constructor
  · intro lists unwritten
    obtain ⟨entry, isPut, isKey, isKind⟩ := exists_put unwritten
    have accepted : result = .success := by
      rcases obeys.verdict with ⟨-, refused⟩ | ⟨success, -⟩
      · rw [refused_iff (isKey ▸ isKind) (missing (isKey ▸ isKind))] at refused
        exact absurd unwritten refused
      · exact success
    -- the entry is in the map
    have kept := obeys.stores.kept entry.key.kind (notCtrl _ isKind)
    have isNew : entry.key ∉ (maps entry.key.kind).keys := by
      rw [OrderedMap.keys, empty _ isKind]
      exact List.not_mem_nil
    rw [if_pos accepted, lists _ isKind, Registries.changed, isKey, Function.update_self, isPut,
      OrderedMap.apply, entries_put_new isNew, List.forall₂_nil_left_iff] at kept
    simp at kept
  · intro written kind unwritten
    by_cases other : kind = command.key.kind
    · subst other
      rcases obeys.verdict with ⟨warning, -⟩ | ⟨-, accepted⟩
      · exact (obeys.lists _ (.inl warning)).trans (complete.lists _ unwritten)
      · rw [refused_iff unwritten (missing unwritten)] at accepted
        exact absurd written accepted
    · exact (obeys.lists kind (.inr other)).trans (complete.lists kind unwritten)

theorem registry_kept (consistent : Consistent libs s) {command : RegCommand}
    (node : s.node = .config) (typed : (SysCommand.registry command).Typed libs.vty) :
    ∃ result t, (SysCommand.registry command).exec libs s = .ok (result, t) ∧
      Kept libs s (.registry command) t := by
  obtain ⟨maps, stores, isWord⟩ := consistent.stores
  obtain ⟨result, registries, run, obeys⟩ := Registries.exec_obeys stores command
  obtain ⟨sane, all⟩ := exec_ctrl_kept consistent node typed run
  refine ⟨result, { s with registries }, ok_bind run _,
    ⟨⟨_, obeys.stores, ?_⟩, sane, all, consistent.hosts, consistent.distinct⟩, ?_⟩
  · split
    · exact changed_netdevs isWord typed
    · exact isWord
  · intro complete
    rw [← exec_lists stores obeys complete]
    exact ⟨fun after => after.lists, fun lists => ⟨lists, complete.sysinfo, complete.named⟩⟩

/-! ## Hosts -/

/-- A host that is there keeps its name, so a host without a name is not there. -/
theorem named_of_complete (complete : Complete libs s) {host : CStr} (there : host ∈ s.pings) :
    libs.username host ≠ none :=
  Option.ne_none_iff_isSome.mpr (complete.named host there)

theorem ping_added (documented : libs.Documented) (consistent : Consistent libs s) {host : CStr}
    (isWord : IsWord host) (new : host ∉ s.pings)
    (succeeds : 0 ≤ (libs.oping.hostAdd s.pings host).1) :
    Kept libs s (.ping host) { s with pings := (libs.oping.hostAdd s.pings host).2 } := by
  have perm := (documented.oping.success s.pings host new succeeds).perm
  have isThere : host ∈ (libs.oping.hostAdd s.pings host).2 :=
    perm.mem_iff.mpr List.mem_cons_self
  refine ⟨⟨consistent.stores, consistent.sane, consistent.typed, ?_, ?_⟩, ?_⟩
  · intro other mem
    rcases List.mem_cons.mp (perm.mem_iff.mp mem) with rfl | old
    · exact ⟨isWord, fun hosts new' => documented.resolves s.pings hosts _ new new' succeeds⟩
    · exact consistent.hosts other old
  · exact perm.nodup_iff.mpr (List.nodup_cons.mpr ⟨new, consistent.distinct⟩)
  intro complete
  constructor
  · rintro after ⟨-, noName⟩
    exact named_of_complete after isThere noName
  · intro written
    refine ⟨complete.lists, complete.sysinfo, ?_⟩
    intro other mem
    rcases List.mem_cons.mp (perm.mem_iff.mp mem) with rfl | old
    · rw [← Option.ne_none_iff_isSome]
      exact fun noName => written ⟨succeeds, noName⟩
    · exact complete.named other old

theorem ping_kept (documented : libs.Documented) (consistent : Consistent libs s) {host : CStr}
    (isWord : IsWord host) :
    ∃ result t, (SysCommand.ping host).exec libs s = .ok (result, t) ∧
      Kept libs s (.ping host) t := by
  have unchanged {rc : Int} (added : addHost libs.oping s.pings host = (rc, s.pings)) :
      ∃ result, (SysCommand.ping host).exec libs s = .ok (result, s) := by
    rw [SysCommand.exec, onPings, cfgPing, added]
    simp only
    split
    · exact ⟨_, rfl⟩
    · exact ⟨_, rfl⟩
  by_cases known : host ∈ s.pings
  · obtain ⟨result, run⟩ := unchanged (addHost_of_known documented.oping known)
    refine ⟨result, s, run, consistent, fun complete => iff_of_true complete ?_⟩
    exact fun unwritten => named_of_complete complete known unwritten.2
  rcases Int.lt_or_le (libs.oping.hostAdd s.pings host).1 0 with fails | succeeds
  · obtain ⟨result, run⟩ := unchanged (addHost_of_failure documented.oping known fails)
    refine ⟨result, s, run, consistent, fun complete => iff_of_true complete ?_⟩
    exact fun unwritten => absurd fails (Int.not_lt.mpr unwritten.1)
  · have same := (addHost_of_success documented.oping known succeeds).1
    refine ⟨.success, _, ?_, ping_added documented consistent isWord known succeeds⟩
    rw [SysCommand.exec, onPings, cfgPing, same]
    simp only [if_neg (Int.not_lt.mpr succeeds)]

theorem noPing_kept (documented : libs.Documented) (consistent : Consistent libs s) (host : CStr) :
    ∃ result t, (SysCommand.noPing host).exec libs s = .ok (result, t) ∧
      Kept libs s (.noPing host) t := by
  have sublist : (cfgNoPing libs.oping host s.pings).2.Sublist s.pings := by
    have pings : (cfgNoPing libs.oping host s.pings).2 =
        (libs.oping.hostRemove s.pings host).2 := by
      rw [cfgNoPing]
      simp only
      split <;> rfl
    rw [pings]
    by_cases known : host ∈ s.pings
    · obtain ⟨front, back, isList⟩ := List.append_of_mem known
      have unique := consistent.distinct
      rw [isList, List.nodup_middle, List.nodup_cons, List.mem_append, not_or] at unique
      rw [isList, documented.oping.removes front host back unique.1.1 unique.1.2]
      exact (List.sublist_cons_self host back).append_left front
    · rw [(documented.oping.missing s.pings host known).2]
  refine ⟨_, _, rfl, ⟨consistent.stores, consistent.sane, consistent.typed,
    fun other mem => consistent.hosts other (sublist.subset mem),
    consistent.distinct.sublist sublist⟩, fun complete => iff_of_true ?_ id⟩
  exact complete_congr complete (fun _ _ => rfl) sublist.subset rfl

/-! ## Sessions -/

/-- Any command that a node has, except `no get-variable`. -/
theorem command_kept (documented : libs.Documented) (consistent : Consistent libs s)
    {command : SysCommand} (node : command.node = s.node) (typed : command.Typed libs.vty)
    (keeps : ∀ name, command ≠ .noGetVariable name) :
    ∃ result t, command.exec libs s = .ok (result, t) ∧ Kept libs s command t := by
  cases command with
  | registry command => exact registry_kept consistent node.symm typed
  | getVariable name => exact getVariable_kept consistent node.symm typed
  | noGetVariable name => exact absurd rfl (keeps name)
  | ping host => exact ping_kept documented consistent typed
  | noPing host => exact noPing_kept documented consistent host
  | sysinfo =>
    refine ⟨_, _, rfl, ⟨consistent.stores, consistent.sane, consistent.typed, consistent.hosts,
      consistent.distinct⟩, fun complete => iff_of_true ?_ id⟩
    exact ⟨complete.lists, rfl, complete.named⟩
  | noSysinfo =>
    refine ⟨_, _, rfl, ⟨consistent.stores, consistent.sane, consistent.typed, consistent.hosts,
      consistent.distinct⟩, fun _ => iff_of_false ?_ fun written => written trivial⟩
    exact fun complete => Bool.false_ne_true complete.sysinfo

theorem noGetVariable_loses (consistent : Consistent libs s) (node : s.node = .ctrlClient)
    (name : CStr) :
    ∃ result t, (SysCommand.noGetVariable name).exec libs s = .ok (result, t) ∧
      ¬ RoundTrips libs t := by
  obtain ⟨result, ctrl, cc, gv, run, isClient, isLinked, freed⟩ :=
    cfgCtrlcNoGetVar_frees consistent.sane node name
  exact ⟨result, s.withCtrl ctrl, exec_onCtrl run,
    not_roundTrips_of_freed isClient isLinked freed⟩

/-- What a step does to a state that is in order: either its configuration is lost for good,
    or it stays in order. -/
def StepOutcome (libs : Libs) (s : Sysmon) (input : Input) (t : Sysmon) : Prop :=
  ¬ Written libs s input ∧ ¬ RoundTrips libs t ∨
    Consistent libs t ∧ (Complete libs s → (Complete libs t ↔ Written libs s input))

/-- A line with a command of the node. -/
theorem command_outcome (documented : libs.Documented) (consistent : Consistent libs s)
    {text : CStr} {setup : Registries.TcpSetup} {command : SysCommand}
    (found : command? libs.vty setup s.node (libs.vty.split text).2 = some command)
    {result : CmdResult} {t : Sysmon} (run : command.exec libs s = .ok (result, t)) :
    StepOutcome libs s (.line text setup) t := by
  obtain ⟨node, typed⟩ := command?_typed documented.vty (documented.vty.words text) found
  have written : Written libs s (.line text setup) ↔ ¬ command.Unwritten libs s := by
    rw [Written, found]
    simp
  by_cases removes : ∃ name, command = .noGetVariable name
  · obtain ⟨name, rfl⟩ := removes
    obtain ⟨_, _, run', lost⟩ := noGetVariable_loses consistent node.symm name
    rw [run] at run'
    cases run'
    exact .inl ⟨fun isWritten => written.mp isWritten trivial, lost⟩
  · obtain ⟨_, _, run', kept⟩ :=
      command_kept documented consistent node typed (not_exists.mp removes)
    rw [run] at run'
    cases run'
    exact .inr ⟨kept.consistent, fun complete => (kept.complete complete).trans written.symm⟩

theorem step_outcome (documented : libs.Documented) (consistent : Consistent libs s)
    {input : Input} {t : Sysmon} (step : Step libs s input t) : StepOutcome libs s input t := by
  obtain ⟨result, run⟩ := step
  cases input with
  | goParent =>
    obtain ⟨node, index, here, sane, -⟩ := osysmonCtrlGoParent_sane consistent.sane
    have moved : (Input.goParent).exec libs s =
        .ok (.success, s.withCtrl { s.registries.ctrl with node, index }) :=
      ok_bind (goParent_eq here) _
    rw [moved] at run
    cases run
    exact .inr ⟨consistent_moved consistent sane,
      fun complete => iff_of_true (complete_withCtrl complete _) trivial⟩
  | line text setup =>
    rw [Input.exec, execWords] at run
    cases found : command? libs.vty setup s.node (libs.vty.split text).2 with
    | some command =>
      rw [found] at run
      exact command_outcome documented consistent found run
    | none =>
      rw [found] at run
      cases run
      refine .inr ⟨consistent, fun complete => iff_of_true complete ?_⟩
      intro command isCommand
      rw [found] at isCommand
      cases isCommand

/-- Every configuration of a session comes back exactly if no line of the session leaves
    behind what no callback writes. -/
theorem session_roundTrips_iff (documented : libs.Documented)
    {path : List (Run.Transition Sysmon Input)} (run : Run.Path (Step libs) .initial path) :
    RoundTrips libs .initial ∧ (∀ x ∈ path, RoundTrips libs x.after) ↔
      ∀ x ∈ path, Written libs x.before x.event := by
  have start := (roundTrips_iff documented (consistent_initial libs)).mpr (complete_initial libs)
  rw [and_iff_right start]
  apply @Run.Path.all_iff _ _ _ _ _ (Consistent libs) (RoundTrips libs) (Written libs) run
    (consistent_initial libs) start
  · intro s input t consistent step roundTrips
    rcases step_outcome documented consistent step with ⟨-, lost⟩ | ⟨consistent', -⟩
    · exact absurd roundTrips lost
    · exact consistent'
  · intro s input t consistent roundTrips step
    rcases step_outcome documented consistent step with ⟨unwritten, lost⟩ | ⟨consistent', exact_⟩
    · exact iff_of_false lost unwritten
    · rw [roundTrips_iff documented consistent']
      exact exact_ ((roundTrips_iff documented consistent).mp roundTrips)

/-! ## Libraries that behave as documented -/

/-- Four decimal numbers with dots between them. -/
def dottedQuad (word : CStr) : Bool :=
  let numbers := word.splitOn 46
  numbers.length == 4 &&
    numbers.all fun n => !n.isEmpty && n.all isdigit && decide (digitsValue n ≤ 255)

def plainVty : Vty where
  split line :=
    match words line with
    | [] => (indentation line, [])
    | word :: others =>
      (indentation line, if word.head? = some 33 ∨ word.head? = some 35 then [] else word :: others)
  isAddress := dottedQuad
  isPort word :=
    !word.isEmpty && word.all isdigit &&
      decide (1 ≤ digitsValue word ∧ digitsValue word ≤ 65535)

theorem plainVty_documented : plainVty.Documented where
  words line word mem := by
    simp only [plainVty] at mem
    cases found : words line with
    | nil =>
      rw [found] at mem
      cases mem
    | cons first others =>
      rw [found] at mem
      simp only at mem
      split at mem
      · cases mem
      · exact isWord_of_mem_words (found ▸ mem)
  split indent keyword args noComment isLine := by
    simp only [plainVty, words_indented isLine, indentation_indented isLine indent (by simp)]
    rw [if_neg (not_or.mpr noComment)]
  number word isPort := by
    simp only [plainVty, Bool.and_eq_true, Bool.not_eq_true', List.isEmpty_eq_false_iff,
      List.all_eq_true, decide_eq_true_eq] at isPort
    obtain ⟨⟨nonempty, digits⟩, low, high⟩ := isPort
    rw [atoi_of_digits ⟨nonempty, digits, high⟩]
    omega
  decimal n low high := by
    simp only [plainVty, Bool.and_eq_true, Bool.not_eq_true', List.isEmpty_eq_false_iff,
      List.all_eq_true, decide_eq_true_eq, digitsValue_decimal]
    exact ⟨⟨decimal_ne_nil n, fun _ => isdigit_of_mem_decimal⟩, low, high⟩

/-- The user name has to leave room in the buffer. -/
def plainLibs : Libs where
  vty := plainVty
  oping := opingLocal
  username host := if host.length + 1 < 128 then some host else none

theorem plainLibs_documented : plainLibs.Documented where
  vty := plainVty_documented
  oping := opingLocal_documented
  resolves hosts hosts' host new new' succeeds := by
    have absent : ¬ hosts.contains host = true := mt List.contains_iff_mem.mp new
    have absent' : ¬ hosts'.contains host = true := mt List.contains_iff_mem.mp new'
    simp only [plainLibs, opingLocal, if_neg absent] at succeeds
    simp only [plainLibs, opingLocal, if_neg absent']
    split at succeeds
    · next isLocal => simp [isLocal]
    · exact absurd succeeds (show ¬ (0 : Int) ≤ -1 by decide)
  username host text isText := by
    simp only [plainLibs] at isText
    split at isText
    · exact (Option.some.inj isText).symm
    · cases isText

/-- The state after a line. -/
def afterLine (text : CStr) (s : Sysmon) : Sysmon :=
  match (Input.line text .opened).exec plainLibs s with
  | .ok (_, t) => t
  | .error _ => s

/-- A client with a variable. -/
def variableLines : List CStr :=
  [ascii "ctrl-client bsc 127.0.0.1 4249", ascii "get-variable rf_locked"]

theorem session_roundTrips_variable :
    RoundTrips plainLibs (variableLines.foldl (fun s text => afterLine text s) .initial) := by
  have first : Step plainLibs .initial (.line (ascii "ctrl-client bsc 127.0.0.1 4249") .opened)
      (afterLine (ascii "ctrl-client bsc 127.0.0.1 4249") .initial) := ⟨.success, rfl⟩
  have second : Step plainLibs (afterLine (ascii "ctrl-client bsc 127.0.0.1 4249") .initial)
      (.line (ascii "get-variable rf_locked") .opened)
      (variableLines.foldl (fun s text => afterLine text s) .initial) := ⟨.success, rfl⟩
  refine ((session_roundTrips_iff plainLibs_documented (.next first (.next second .stop))).mpr ?_).2
    _ (List.mem_cons_of_mem _ List.mem_cons_self)
  intro x mem
  rcases List.mem_cons.mp mem with rfl | mem
  · intro command found
    cases found
    exact id
  · rw [List.mem_singleton.mp mem]
    intro command found
    cases found
    exact id

/-- A file is not written and does not come back. -/
theorem file_not_roundTrips :
    ∃ t, Step plainLibs .initial (.line (ascii "file motd /etc/motd") .opened) t ∧
      ¬ RoundTrips plainLibs t := by
  refine ⟨_, ⟨.success, rfl⟩, ?_⟩
  intro roundTrips
  obtain ⟨lines, r, write, run, same⟩ := roundTrips .opened
  -- nothing is written
  cases write
  cases run
  have files := congrArg List.length same.files
  cases files

end OsmoSysmon
