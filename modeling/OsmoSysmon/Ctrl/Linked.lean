import OsmoSysmon.Ctrl.Registry

/-! # Sessions that configure CTRL clients

What a session must keep: linked elements are allocated, names are unique, and
`vty->index` is what the node takes it for.  Every command keeps it except
`no get-variable`, which frees a variable without unlinking it.
-/

namespace OsmoSysmon

open CText Talloc Loop

namespace CtrlState

def clientName (s : CtrlState) (cc : Ptr) : Option CStr :=
  match s.heap.get? cc with
  | some (.client cfg _) => some cfg.name
  | _ => none

/-- The list `get_vars` of a client. -/
def getVars (s : CtrlState) (cc : Ptr) : List Ptr :=
  match s.heap.get? cc with
  | some (.client _ getVars) => getVars
  | _ => []

def variableName (s : CtrlState) (gv : Ptr) : Option CStr :=
  match s.heap.get? gv with
  | some (.getVar _ name) => some name
  | _ => none

def variableNames (s : CtrlState) (cc : Ptr) : List (Option CStr) :=
  (s.getVars cc).map s.variableName

structure Intact (s : CtrlState) : Prop where
  clientLive : ∀ cc ∈ s.ctrlClients, ∃ cfg getVars, s.heap.get? cc = some (.client cfg getVars)
  variableLive : ∀ cc ∈ s.ctrlClients, ∀ gv ∈ s.getVars cc,
    ∃ name, s.heap.get? gv = some (.getVar cc name)
  clientNames : (s.ctrlClients.map s.clientName).Nodup
  variableNames : ∀ cc ∈ s.ctrlClients, (s.variableNames cc).Nodup
  inClient : s.node = .ctrlClient → ∃ cc ∈ s.ctrlClients, s.index = some cc
  inVariable : s.node = .ctrlClientGetVar →
    ∃ cc ∈ s.ctrlClients, ∃ gv ∈ s.getVars cc, s.index = some gv

end CtrlState

/-- The session is at a variable only by having entered it from its client, or by having
    been there already. -/
def Entered (s s' : CtrlState) : Prop :=
  s'.node = .ctrlClientGetVar →
    s' = s ∨
      ∃ gv cc name, s'.index = some gv ∧ s'.heap.get? gv = some (.getVar cc name) ∧
        s.node = .ctrlClient ∧ s.index = some cc

/-- `no get-variable` takes the variable out of its client's list. -/
def Removed (s : CtrlState) (command : Command) (s' : CtrlState) : Prop :=
  ∀ name cc, command = .noGetVariable name → s.node = .ctrlClient → s.index = some cc →
    s'.variableNames cc = (s.variableNames cc).filter (· ≠ some name) ∧
      ∀ other ∈ s.ctrlClients, other ≠ cc → s'.variableNames other = s.variableNames other

structure CommandSound (s : CtrlState) (command : Command) (s' : CtrlState) : Prop where
  intact : s'.Intact
  entered : Entered s s'
  removed : Removed s command s'

/-- Every command of the session returns and does its part. -/
def SoundSession : CtrlState → List Command → Prop
  | _, [] => True
  | s, command :: commands =>
    ∃ result s', exec command s = .ok (result, s') ∧ CommandSound s command s' ∧
      SoundSession s' commands

/-- The command is a `no get-variable` in a node that has it. -/
def Removes (s : CtrlState) (command : Command) : Prop :=
  s.node = .ctrlClient ∧ ∃ name, command = .noGetVariable name

/-- The session executes no `no get-variable`. -/
def RemovesNothing : CtrlState → List Command → Prop
  | _, [] => True
  | s, command :: commands =>
    ¬ Removes s command ∧
      ∀ result s', exec command s = .ok (result, s') → RemovesNothing s' commands

/-! ## Stored registries are intact -/

/-- The heap stores a registry and the session is at a place in it. -/
def Sane (s : CtrlState) : Prop := ∃ clients, Registered s clients ∧ Positioned s clients

theorem sane_empty : Sane CtrlState.empty := ⟨[], registered_empty, trivial⟩

namespace Registered

variable {s : CtrlState} {clients : List Client} {c : Client}

/-- Entering or leaving a node changes nothing that is registered. -/
theorem moved (reg : Registered s clients) (node : VtyNode) (index : Option Ptr) :
    Registered { s with node, index } clients :=
  ⟨reg.linked, reg.stored, reg.names⟩

theorem mem_linked (reg : Registered s clients) {cc : Ptr} :
    cc ∈ s.ctrlClients ↔ ∃ c ∈ clients, c.ptr = cc := by
  rw [reg.linked, List.mem_map]

theorem clientName_eq (reg : Registered s clients) (mem : c ∈ clients) :
    s.clientName c.ptr = some c.name := by
  rw [CtrlState.clientName, (reg.stored c mem).cell]
  rfl

theorem getVars_eq (reg : Registered s clients) (mem : c ∈ clients) :
    s.getVars c.ptr = c.vars.map Prod.fst := by
  rw [CtrlState.getVars, (reg.stored c mem).cell]

theorem variableNames_eq (reg : Registered s clients) (mem : c ∈ clients) :
    s.variableNames c.ptr = (c.vars.map Prod.snd).map some := by
  rw [CtrlState.variableNames, reg.getVars_eq mem, List.map_map, List.map_map]
  apply List.map_congr_left
  intro v isVar
  show s.variableName v.1 = some v.2
  rw [CtrlState.variableName, (reg.stored c mem).var v isVar]

end Registered

theorem intact_of_sane {s : CtrlState} (sane : Sane s) : s.Intact := by
  obtain ⟨clients, reg, pos⟩ := sane
  constructor
  · intro cc mem
    obtain ⟨c, isClient, rfl⟩ := reg.mem_linked.mp mem
    exact ⟨_, _, (reg.stored c isClient).cell⟩
  · intro cc mem gv isVar
    obtain ⟨c, isClient, rfl⟩ := reg.mem_linked.mp mem
    rw [reg.getVars_eq isClient] at isVar
    obtain ⟨v, inVars, rfl⟩ := List.mem_map.mp isVar
    exact ⟨v.2, (reg.stored c isClient).var v inVars⟩
  · have sameNames : s.ctrlClients.map s.clientName = (clients.map Client.name).map some := by
      rw [reg.linked, List.map_map, List.map_map]
      exact List.map_congr_left fun c isClient => reg.clientName_eq isClient
    rw [sameNames]
    exact reg.names.map fun _ _ => Option.some.inj
  · intro cc mem
    obtain ⟨c, isClient, rfl⟩ := reg.mem_linked.mp mem
    rw [reg.variableNames_eq isClient]
    exact (reg.stored c isClient).varNames.map fun _ _ => Option.some.inj
  · intro node
    rw [Positioned, node] at pos
    obtain ⟨c, isClient, index⟩ := pos
    exact ⟨c.ptr, reg.mem_linked.mpr ⟨c, isClient, rfl⟩, index⟩
  · intro node
    rw [Positioned, node] at pos
    obtain ⟨c, isClient, v, isVar, index⟩ := pos
    refine ⟨c.ptr, reg.mem_linked.mpr ⟨c, isClient, rfl⟩, v.1, ?_, index⟩
    rw [reg.getVars_eq isClient]
    exact List.mem_map_of_mem isVar

/-! ## The commands -/

theorem goParent_client {s : CtrlState} (node : s.node = .ctrlClient) :
    osysmonCtrlGoParent s = .ok { s with node := .config, index := none } := by
  rw [osysmonCtrlGoParent, node]
  rfl

/-- A variable knows the client it belongs to. -/
theorem goParent_variable {s : CtrlState} {c : Client} (stored : c.Stored s.heap)
    (node : s.node = .ctrlClientGetVar) {v : Ptr × CStr} (isVar : v ∈ c.vars)
    (index : s.index = some v.1) :
    osysmonCtrlGoParent s = .ok { s with node := .ctrlClient, index := some c.ptr } := by
  have here : indexPtr s = .ok v.1 := by rw [indexPtr, index]
  simp only [osysmonCtrlGoParent, node, ok_bind here, ok_bind (stored.derefVar isVar)]
  rfl

/-- Leaving a node only moves the session. -/
theorem osysmonCtrlGoParent_sane {s : CtrlState} (sane : Sane s) :
    ∃ node index, osysmonCtrlGoParent s = .ok { s with node, index } ∧
      Sane { s with node, index } ∧ Entered s { s with node, index } := by
  obtain ⟨clients, reg, pos⟩ := sane
  cases node : s.node with
  | config =>
    have same : osysmonCtrlGoParent s = .ok s := by
      rw [osysmonCtrlGoParent, node]
      rfl
    exact ⟨s.node, s.index, same, ⟨clients, reg, pos⟩, fun _ => .inl rfl⟩
  | ctrlClient =>
    exact ⟨_, _, goParent_client node, ⟨clients, reg.moved _ _, trivial⟩, by intro at_; cases at_⟩
  | ctrlClientGetVar =>
    rw [Positioned, node] at pos
    obtain ⟨c, isClient, v, isVar, index⟩ := pos
    exact ⟨_, _, goParent_variable (reg.stored c isClient) node isVar index,
      ⟨clients, reg.moved _ _, c, isClient, rfl⟩, by intro at_; cases at_⟩

/-- The client with the name is entered if it has the address. -/
theorem cfgCtrlClient_known {s : CtrlState} {clients : List Client} (reg : Registered s clients)
    {name : CStr} {c : Client} (found : clients.find? (fun c => name == c.name) = some c)
    (host : CStr) (port : UInt16) :
    cfgCtrlClient name host port s =
      .ok (if c.cfg.remoteHost ≠ some host ∨ c.cfg.remotePort ≠ port then (.warning, s)
        else (.success, { s with node := .ctrlClient, index := some c.ptr })) := by
  have search := reg.find name
  rw [found, Option.map_some] at search
  have deref := (reg.stored c (List.mem_of_find?_eq_some found)).deref
  simp only [cfgCtrlClient, ok_bind search, ok_bind deref]
  split <;> rfl

/-- A client with a new name is appended and entered. -/
theorem cfgCtrlClient_new {s : CtrlState} {clients : List Client} (reg : Registered s clients)
    {name : CStr} (new : name ∉ clients.map Client.name) (host : CStr) (port : UInt16) :
    ∃ created, cfgCtrlClient name host port s =
        .ok (.success, { created with node := .ctrlClient, index := some s.heap.next }) ∧
      Registered created (clients ++ [⟨s.heap.next, hostCfgAlloc name (some host) port, []⟩]) ∧
      created.heap = s.heap.alloc none (.client (hostCfgAlloc name (some host) port) []) := by
  have search := reg.find name
  rw [notFound_iff.mpr new, Option.map_none] at search
  obtain ⟨created, run, reg', heap⟩ := ctrlClientCreate_eq reg new host port
  refine ⟨created, ?_, reg', heap⟩
  simp only [cfgCtrlClient, ok_bind search, ok_bind run]
  rfl

theorem cfgCtrlClient_sane {s : CtrlState} (sane : Sane s)
    (name host : CStr) (port : UInt16) :
    ∃ result s', cfgCtrlClient name host port s = .ok (result, s') ∧ Sane s' ∧ Entered s s' := by
  obtain ⟨clients, reg, pos⟩ := sane
  cases found : clients.find? fun c => name == c.name with
  | some c =>
    have isClient := List.mem_of_find?_eq_some found
    have run := cfgCtrlClient_known reg found host port
    by_cases differs : c.cfg.remoteHost ≠ some host ∨ c.cfg.remotePort ≠ port
    · rw [if_pos differs] at run
      exact ⟨.warning, s, run, ⟨clients, reg, pos⟩, fun _ => .inl rfl⟩
    · rw [if_neg differs] at run
      exact ⟨_, _, run, ⟨clients, reg.moved _ _, c, isClient, rfl⟩, by intro at_; cases at_⟩
  | none =>
    obtain ⟨created, run, reg', -⟩ := cfgCtrlClient_new reg (notFound_iff.mp found) host port
    exact ⟨_, _, run,
      ⟨_, reg'.moved _ _, _, List.mem_append_right _ List.mem_cons_self, rfl⟩,
      by intro at_; cases at_⟩

theorem cfgNoCtrlClient_sane {s : CtrlState} (sane : Sane s) (node : s.node = .config)
    (name : CStr) :
    ∃ result s', cfgNoCtrlClient name s = .ok (result, s') ∧ Sane s' ∧ Entered s s' := by
  obtain ⟨clients, reg, pos⟩ := sane
  have search := reg.find name
  cases found : clients.find? fun c => name == c.name with
  | none =>
    rw [found, Option.map_none] at search
    refine ⟨.warning, s, ?_, ⟨clients, reg, pos⟩, fun _ => .inl rfl⟩
    simp only [cfgNoCtrlClient, ok_bind search]
    rfl
  | some c =>
    rw [found, Option.map_some] at search
    obtain ⟨before, after, rfl⟩ := List.append_of_mem (List.mem_of_find?_eq_some found)
    -- in the config node `vty->index` is not used
    have stays : (ctrlClientDestroy c.ptr s).node = .config := node
    refine ⟨.success, ctrlClientDestroy c.ptr s, ?_,
      ⟨_, ctrlClientDestroy_registered reg, by rw [Positioned, stays]; trivial⟩, ?_⟩
    · simp only [cfgNoCtrlClient, ok_bind search]
      rfl
    · intro at_
      rw [stays] at at_
      cases at_

theorem cfgCtrlcGetVar_sane {s : CtrlState} (sane : Sane s) (node : s.node = .ctrlClient)
    (name : CStr) :
    ∃ result s', cfgCtrlcGetVar name s = .ok (result, s') ∧ Sane s' ∧ Entered s s' := by
  obtain ⟨clients, reg, pos⟩ := sane
  rw [Positioned, node] at pos
  obtain ⟨c, isClient, index⟩ := pos
  have here : indexPtr s = .ok c.ptr := by rw [indexPtr, index]
  obtain ⟨before, after, rfl⟩ := List.append_of_mem isClient
  obtain ⟨gv, t, c', run, reg', samePtr, isVar, -⟩ := findOrCreate_eq reg name
  have inList : c' ∈ before ++ c' :: after := List.mem_append_right _ List.mem_cons_self
  refine ⟨.success, { t with node := .ctrlClientGetVar, index := some gv }, ?_,
    ⟨_, reg'.moved _ _, c', inList, (gv, name), isVar, rfl⟩, ?_⟩
  · simp only [cfgCtrlcGetVar, ok_bind here, ok_bind run]
    rfl
  · intro _
    have cell := (reg'.stored c' inList).var _ isVar
    exact .inr ⟨gv, c'.ptr, name, rfl, cell, node, by rw [index, samePtr]⟩

/-- The variable that `no get-variable` frees is still in the list of its client. -/
theorem cfgCtrlcNoGetVar_frees {s : CtrlState} (sane : Sane s) (node : s.node = .ctrlClient)
    (name : CStr) :
    ∃ result s' cc gv, cfgCtrlcNoGetVar name s = .ok (result, s') ∧ cc ∈ s'.ctrlClients ∧
      gv ∈ s'.getVars cc ∧ s'.heap.get? gv = none := by
  obtain ⟨clients, reg, pos⟩ := sane
  rw [Positioned, node] at pos
  obtain ⟨c, isClient, index⟩ := pos
  have here : indexPtr s = .ok c.ptr := by rw [indexPtr, index]
  obtain ⟨before, after, rfl⟩ := List.append_of_mem isClient
  obtain ⟨gv, t, c', run, reg', -, isVar, -⟩ := findOrCreate_eq reg name
  have inList : c' ∈ before ++ c' :: after := List.mem_append_right _ List.mem_cons_self
  have stored := reg'.stored c' inList
  refine ⟨.success, { t with heap := t.heap.free gv }, c'.ptr, gv, ?_,
    reg'.mem_linked.mpr ⟨c', inList, rfl⟩, ?_, Heap.get?_free_self _ _⟩
  · simp only [cfgCtrlcNoGetVar, ok_bind here, ok_bind run]
    rfl
  -- the client itself is not below the variable and survives
  have other : c'.ptr ≠ gv := by
    intro same
    have below := stored.owned _ isVar
    rw [← same, stored.top] at below
    cases below
  have survives : (t.heap.free gv).get? c'.ptr = some (.client c'.cfg (c'.vars.map Prod.fst)) := by
    rw [Heap.get?_free_of_survives other (by simp [stored.top])]
    exact stored.cell
  -- its list has not been touched
  rw [CtrlState.getVars, survives]
  exact List.mem_map.mpr ⟨_, isVar, rfl⟩

theorem cfgCtrlcNoGetVar_dangles {s : CtrlState} (sane : Sane s) (node : s.node = .ctrlClient)
    (name : CStr) :
    ∃ result s', cfgCtrlcNoGetVar name s = .ok (result, s') ∧ ¬ s'.Intact := by
  obtain ⟨result, s', cc, gv, run, isClient, isLinked, freed⟩ :=
    cfgCtrlcNoGetVar_frees sane node name
  refine ⟨result, s', run, ?_⟩
  intro intact
  obtain ⟨name, live⟩ := intact.variableLive cc isClient gv isLinked
  rw [freed] at live
  cases live

/-! ## Sessions -/

theorem exec_sane {s : CtrlState} (sane : Sane s) {command : Command}
    (keeps : ¬ Removes s command) :
    ∃ result s', exec command s = .ok (result, s') ∧ Sane s' ∧ Entered s s' := by
  have unknown : exec command s = .ok (.noMatch, s) →
      ∃ result s', exec command s = .ok (result, s') ∧ Sane s' ∧ Entered s s' :=
    fun run => ⟨.noMatch, s, run, sane, fun _ => .inl rfl⟩
  cases command with
  -- every node can be left
  | goParent =>
    obtain ⟨node, index, run, sane', entered⟩ := osysmonCtrlGoParent_sane sane
    refine ⟨.success, _, ?_, sane', entered⟩
    rw [exec, ok_bind run]
    rfl
  | ctrlClient name host port =>
    cases node : s.node with
    | config =>
      simp only [exec, node]
      exact cfgCtrlClient_sane sane name host port
    | ctrlClient => exact unknown (by simp only [exec, node])
    | ctrlClientGetVar => exact unknown (by simp only [exec, node])
  | noCtrlClient name =>
    cases node : s.node with
    | config =>
      simp only [exec, node]
      exact cfgNoCtrlClient_sane sane node name
    | ctrlClient => exact unknown (by simp only [exec, node])
    | ctrlClientGetVar => exact unknown (by simp only [exec, node])
  | getVariable name =>
    cases node : s.node with
    | ctrlClient =>
      simp only [exec, node]
      exact cfgCtrlcGetVar_sane sane node name
    | config => exact unknown (by simp only [exec, node])
    | ctrlClientGetVar => exact unknown (by simp only [exec, node])
  | noGetVariable name =>
    cases node : s.node with
    | ctrlClient => exact absurd ⟨node, name, rfl⟩ keeps
    | config => exact unknown (by simp only [exec, node])
    | ctrlClientGetVar => exact unknown (by simp only [exec, node])

theorem exec_dangles {s : CtrlState} (sane : Sane s) {command : Command}
    (removes : Removes s command) :
    ∃ result s', exec command s = .ok (result, s') ∧ ¬ s'.Intact := by
  obtain ⟨node, name, rfl⟩ := removes
  simp only [exec, node]
  exact cfgCtrlcNoGetVar_dangles sane node name

theorem soundSession_iff {s : CtrlState} (sane : Sane s) (commands : List Command) :
    SoundSession s commands ↔ RemovesNothing s commands := by
  induction commands generalizing s with
  | nil => exact Iff.rfl
  | cons command commands ih =>
    constructor
    · rintro ⟨result, s', run, sound, rest⟩
      -- the first removal would leave a freed variable in a list
      have keeps : ¬ Removes s command := by
        intro removes
        obtain ⟨result', t, run', dangles⟩ := exec_dangles sane removes
        rw [run] at run'
        cases run'
        exact dangles sound.intact
      refine ⟨keeps, ?_⟩
      intro result' t run'
      rw [run] at run'
      cases run'
      obtain ⟨_, t, run', sane', -⟩ := exec_sane sane keeps
      rw [run] at run'
      cases run'
      exact (ih sane').mp rest
    · rintro ⟨keeps, rest⟩
      obtain ⟨result, s', run, sane', entered⟩ := exec_sane sane keeps
      refine ⟨result, s', run, ?_, (ih sane').mpr (rest result s' run)⟩
      refine ⟨intact_of_sane sane', entered, ?_⟩
      intro name cc isRemoval node _
      exact absurd ⟨node, name, isRemoval⟩ keeps

/-- A session from the empty configuration keeps the lists and the index in order exactly
    when it executes no `no get-variable`. -/
theorem session_intact_iff (commands : List Command) :
    CtrlState.empty.Intact ∧ SoundSession CtrlState.empty commands ↔
      RemovesNothing CtrlState.empty commands := by
  rw [soundSession_iff sane_empty commands]
  exact and_iff_right (intact_of_sane sane_empty)

/-- A client, a variable of it, and its removal. -/
def removingSession : List Command :=
  [.ctrlClient (ascii "bsc") (ascii "10.0.0.1") 4249, .getVariable (ascii "uptime"), .goParent,
    .noGetVariable (ascii "uptime")]

/-- The client's list ends up holding the variable, which has been freed. -/
theorem session_dangling :
    (∃ s, execAll removingSession CtrlState.empty = .ok s ∧ s.ctrlClients = [0] ∧
      s.getVars 0 = [1] ∧ s.heap.get? 1 = none) ∧
    ¬ (CtrlState.empty.Intact ∧ SoundSession CtrlState.empty removingSession) := by
  constructor
  · exact ⟨_, rfl, rfl, rfl, rfl⟩
  rintro ⟨-, _, s₁, run₁, -, _, s₂, run₂, -, _, s₃, run₃, -, _, s₄, run₄, sound, -⟩
  -- the four commands compute to the states of the session
  cases run₁
  cases run₂
  cases run₃
  cases run₄
  obtain ⟨name, live⟩ := sound.intact.variableLive 0 (by decide) 1 (by decide)
  cases live

end OsmoSysmon
