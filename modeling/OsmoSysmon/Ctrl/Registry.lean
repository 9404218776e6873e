import OsmoSysmon.Ctrl.Commands

/-! # The registry of CTRL clients

What the configured clients are, apart from where they are stored: an ordered list of
clients, each with an ordered list of variables.  `Registered` says that the heap and
the linked lists of a state store such a list without a dangling link; each command
acts on the list as its name says.
-/

namespace OsmoSysmon

open CText Talloc Loop

/-- A client and its variables, with their addresses. -/
structure Client where
  ptr : Ptr
  cfg : HostCfg
  vars : List (Ptr × CStr)

namespace Client

def name (c : Client) : CStr := c.cfg.name

def addVar (c : Client) (gv : Ptr) (name : CStr) : Client := { c with vars := c.vars ++ [(gv, name)] }

@[simp] theorem ptr_addVar (c : Client) (gv : Ptr) (name : CStr) : (c.addVar gv name).ptr = c.ptr :=
  rfl

@[simp] theorem name_addVar (c : Client) (gv : Ptr) (name : CStr) :
    (c.addVar gv name).name = c.name := rfl

structure Stored (heap : Heap CtrlObject) (c : Client) : Prop where
  cell : heap.get? c.ptr = some (.client c.cfg (c.vars.map Prod.fst))
  top : heap.owners c.ptr = []
  var : ∀ v ∈ c.vars, heap.get? v.1 = some (.getVar c.ptr v.2)
  owned : ∀ v ∈ c.vars, heap.owners v.1 = [c.ptr]
  host : ∃ host, c.cfg.remoteHost = some host
  varNames : (c.vars.map Prod.snd).Nodup

namespace Stored

variable {heap heap' : Heap CtrlObject} {c : Client}

/-- A client stays stored when its own objects are left alone. -/
theorem frame (stored : c.Stored heap)
    (sameCell : ∀ p, p = c.ptr ∨ heap.owners p = [c.ptr] → heap'.get? p = heap.get? p)
    (sameOwners : ∀ p, p = c.ptr ∨ heap.owners p = [c.ptr] → heap'.owners p = heap.owners p) :
    c.Stored heap' where
  cell := by rw [sameCell _ (.inl rfl)]; exact stored.cell
  top := by rw [sameOwners _ (.inl rfl)]; exact stored.top
  var v mem := by
    rw [sameCell _ (.inr (stored.owned v mem))]
    exact stored.var v mem
  owned v mem := by
    rw [sameOwners _ (.inr (stored.owned v mem))]
    exact stored.owned v mem
  host := stored.host
  varNames := stored.varNames

/-- The objects of a client are older than the next one. -/
theorem ne_next (stored : c.Stored heap) {p : Ptr} (part : p = c.ptr ∨ heap.owners p = [c.ptr]) :
    p ≠ heap.next := by
  cases part with
  | inl same =>
    rw [same]
    exact Nat.ne_of_lt (Heap.lt_next_of_get? stored.cell)
  | inr below =>
    intro isNext
    rw [isNext, Heap.owners, Heap.object?_eq_none_of_ge (Nat.le_refl _)] at below
    simp at below

theorem alloc (stored : c.Stored heap) (owner : Option Ptr) (object : CtrlObject) :
    c.Stored (heap.alloc owner object) := by
  apply stored.frame
  · intro p part
    exact Heap.get?_alloc_of_ne (stored.ne_next part)
  · intro p part
    exact Heap.owners_alloc_of_ne (stored.ne_next part)

/-- Nothing of one client has another client's address. -/
theorem part_ne {p q : Ptr} (part : p = c.ptr ∨ heap.owners p = [c.ptr]) (other : q ≠ c.ptr)
    (top : heap.owners q = []) : p ≠ q := by
  intro same
  subst same
  cases part with
  | inl isClient => exact other isClient
  | inr below => simp [top] at below

theorem set_other (stored : c.Stored heap) {q : Ptr} (other : q ≠ c.ptr) (top : heap.owners q = [])
    (object : CtrlObject) : c.Stored (heap.set q object) := by
  apply stored.frame
  · intro p part
    exact Heap.get?_set_of_ne (part_ne part other top)
  · intro p _
    exact Heap.owners_set heap q p object

theorem free_other (stored : c.Stored heap) {q : Ptr} (other : q ≠ c.ptr)
    (top : heap.owners q = []) : c.Stored (heap.free q) := by
  have outside : ∀ p, p = c.ptr ∨ heap.owners p = [c.ptr] → q ∉ heap.owners p := by
    intro p part
    cases part with
    | inl isClient => simp [isClient, stored.top]
    | inr below => simpa [below] using other
  apply stored.frame
  · intro p part
    exact Heap.get?_free_of_survives (part_ne part other top) (outside p part)
  · intro p part
    exact Heap.owners_free_of_survives (part_ne part other top) (outside p part)

theorem deref (stored : c.Stored heap) :
    derefClient heap c.ptr = .ok (c.cfg, c.vars.map Prod.fst) := by
  rw [derefClient, stored.cell]

theorem derefVar (stored : c.Stored heap) {v : Ptr × CStr} (mem : v ∈ c.vars) :
    derefGetVar heap v.1 = .ok (c.ptr, v.2) := by
  rw [derefGetVar, stored.var v mem]

theorem matchName (stored : c.Stored heap) (name : CStr) :
    matchConfig c.cfg name .name = .ok (name == c.name) := by
  obtain ⟨host, isHost⟩ := stored.host
  simp only [matchConfig, isHost, Client.name]

end Stored

end Client

/-- The heap and the list of clients store these clients. -/
structure Registered (s : CtrlState) (clients : List Client) : Prop where
  linked : s.ctrlClients = clients.map Client.ptr
  stored : ∀ c ∈ clients, c.Stored s.heap
  names : (clients.map Client.name).Nodup

/-- Where the session is. -/
def Positioned (s : CtrlState) (clients : List Client) : Prop :=
  match s.node with
  | .config => True
  | .ctrlClient => ∃ c ∈ clients, s.index = some c.ptr
  | .ctrlClientGetVar => ∃ c ∈ clients, ∃ v ∈ c.vars, s.index = some v.1

theorem registered_empty : Registered CtrlState.empty [] where
  linked := rfl
  stored := by simp
  names := by simp

/-! ## Finding -/

/-- The search by name, of clients or of variables. -/
theorem notFound_iff {α : Type} {nameOf : α → CStr} {name : CStr} {l : List α} :
    (l.find? fun a => name == nameOf a) = none ↔ name ∉ l.map nameOf := by
  rw [List.find?_eq_none, List.mem_map, not_exists]
  apply forall_congr'
  intro a
  rw [beq_iff_eq, not_and, eq_comm]

theorem ctrlClientFind_eq {heap : Heap CtrlObject} (name : CStr) {clients : List Client}
    (stored : ∀ c ∈ clients, c.Stored heap) :
    ctrlClientFind heap name (clients.map Client.ptr) =
      .ok ((clients.find? fun c => name == c.name).map Client.ptr) := by
  induction clients with
  | nil => rfl
  | cons c clients ih =>
    have here := stored c List.mem_cons_self
    have rest := ih fun d mem => stored d (List.mem_cons_of_mem c mem)
    rw [List.map_cons, ctrlClientFind, ok_bind here.deref]
    simp only [ok_bind (here.matchName name)]
    cases found : name == c.name with
    | true => simp [List.find?_cons_of_pos, found, pure, Except.pure]
    | false => simp [List.find?_cons_of_neg, found, rest]

theorem getVarFind_eq {heap : Heap CtrlObject} (name : CStr) {c : Client} (stored : c.Stored heap)
    {vars : List (Ptr × CStr)} (sub : ∀ v ∈ vars, v ∈ c.vars) :
    getVarFind heap name (vars.map Prod.fst) =
      .ok ((vars.find? fun v => name == v.2).map Prod.fst) := by
  induction vars with
  | nil => rfl
  | cons v vars ih =>
    have rest := ih fun w mem => sub w (List.mem_cons_of_mem v mem)
    rw [List.map_cons, getVarFind, ok_bind (stored.derefVar (sub v List.mem_cons_self))]
    cases found : name == v.2 with
    | true => simp [List.find?_cons_of_pos, found, pure, Except.pure]
    | false => simp [List.find?_cons_of_neg, found, rest]

namespace Registered

variable {s : CtrlState} {clients before after : List Client} {c : Client}

theorem find (reg : Registered s clients) (name : CStr) :
    ctrlClientFind s.heap name s.ctrlClients =
      .ok ((clients.find? fun c => name == c.name).map Client.ptr) := by
  rw [reg.linked]
  exact ctrlClientFind_eq name reg.stored

/-- The address of a client determines it. -/
theorem eq_of_ptr (reg : Registered s clients) {d : Client} (hc : c ∈ clients) (hd : d ∈ clients)
    (same : c.ptr = d.ptr) : c = d := by
  have cells := (reg.stored c hc).cell
  rw [same, (reg.stored d hd).cell] at cells
  have sameName : c.name = d.name := by
    have sameCfg : d.cfg = c.cfg := by injection cells with cells; injection cells
    rw [Client.name, Client.name, sameCfg]
  exact List.inj_on_of_nodup_map reg.names hc hd sameName

theorem mem_split (reg : Registered s (before ++ c :: after)) {d : Client}
    (mem : d ∈ before ++ after) : d ∈ before ++ c :: after ∧ c.ptr ≠ d.ptr := by
  have inAll : d ∈ before ++ c :: after := by
    rw [List.mem_append, List.mem_cons]
    rw [List.mem_append] at mem
    exact mem.imp id .inr
  refine ⟨inAll, ?_⟩
  intro same
  have isClient := reg.eq_of_ptr (by simp) inAll same
  have unique := reg.names
  rw [List.map_append, List.map_cons, List.nodup_middle, List.nodup_cons, ← List.map_append] at unique
  exact unique.1 (List.mem_map.mpr ⟨d, mem, by rw [isClient]⟩)

end Registered

/-! ## Changing the list -/

theorem stored_new (heap : Heap CtrlObject) {cfg : HostCfg} {host : CStr}
    (isHost : cfg.remoteHost = some host) :
    Client.Stored (heap.alloc none (.client cfg [])) ⟨heap.next, cfg, []⟩ where
  cell := Heap.get?_alloc_self heap none _
  top := Heap.owners_alloc_self heap none _
  var v mem := by cases mem
  owned v mem := by cases mem
  host := ⟨host, isHost⟩
  varNames := List.nodup_nil

/-- `ctrl_client_create` of a new name appends the client. -/
theorem ctrlClientCreate_eq {s : CtrlState} {clients : List Client} {name : CStr}
    (reg : Registered s clients) (new : name ∉ clients.map Client.name) (host : CStr)
    (port : UInt16) :
    ∃ s', ctrlClientCreate name host port s = .ok (some s.heap.next, s') ∧
      Registered s'
        (clients ++ [⟨s.heap.next, hostCfgAlloc name (some host) port, []⟩]) ∧
      s'.heap = s.heap.alloc none (.client (hostCfgAlloc name (some host) port) []) := by
  have missing : (clients.find? fun c => name == c.name) = none := notFound_iff.mpr new
  have notFound := reg.find name
  rw [missing, Option.map_none] at notFound
  let created : CtrlState :=
    { s with
      heap := s.heap.alloc none (.client (hostCfgAlloc name (some host) port) [])
      ctrlClients := s.ctrlClients ++ [s.heap.next] }
  have run : ctrlClientCreate name host port s = .ok (some s.heap.next, created) := by
    rw [ctrlClientCreate, ok_bind notFound]
    rfl
  refine ⟨created, run, ?_, rfl⟩
  constructor
  · show s.ctrlClients ++ [s.heap.next] = _
    rw [reg.linked, List.map_append]
    rfl
  · intro c mem
    rw [List.mem_append] at mem
    cases mem with
    | inl old => exact (reg.stored c old).alloc _ _
    | inr isNew =>
      rw [List.mem_singleton.mp isNew]
      exact stored_new s.heap rfl
  · rw [List.map_append, List.map_singleton, ← List.concat_eq_append]
    exact reg.names.concat new

/-- `ctrl_client_destroy` takes the client out of the list. -/
theorem ctrlClientDestroy_registered {s : CtrlState} {before after : List Client} {c : Client}
    (reg : Registered s (before ++ c :: after)) :
    Registered (ctrlClientDestroy c.ptr s) (before ++ after) where
  linked := by
    have absent : c.ptr ∉ before.map Client.ptr := by
      intro mem
      obtain ⟨d, inBefore, same⟩ := List.mem_map.mp mem
      exact (reg.mem_split (List.mem_append_left after inBefore)).2 same.symm
    show s.ctrlClients.erase c.ptr = _
    rw [reg.linked, List.map_append, List.map_cons, List.erase_append_right _ absent,
      List.erase_cons_head, List.map_append]
  stored d mem := by
    obtain ⟨inAll, other⟩ := reg.mem_split mem
    exact (reg.stored d inAll).free_other other (reg.stored c (by simp)).top
  names := by
    have unique := reg.names
    rw [List.map_append, List.map_cons, List.nodup_middle, List.nodup_cons] at unique
    rw [List.map_append]
    exact unique.2

/-- The heap after a variable has been added. -/
def addVarHeap (heap : Heap CtrlObject) (c : Client) (name : CStr) : Heap CtrlObject :=
  (heap.alloc (some c.ptr) (.getVar c.ptr name)).set c.ptr
    (.client c.cfg (c.vars.map Prod.fst ++ [heap.next]))

theorem stored_addVar {heap : Heap CtrlObject} {c : Client} (stored : c.Stored heap) {name : CStr}
    (new : name ∉ c.vars.map Prod.snd) :
    (c.addVar heap.next name).Stored (addVarHeap heap c name) := by
  have kept := stored.alloc (some c.ptr) (.getVar c.ptr name)
  -- the client's cell is written last, and no variable is there
  have notClient : ∀ p, heap.owners p = [c.ptr] ∨ p = heap.next → p ≠ c.ptr := by
    intro p part same
    subst same
    cases part with
    | inl below => simp [stored.top] at below
    | inr isNext => exact stored.ne_next (.inl rfl) isNext
  constructor
  · show (addVarHeap heap c name).get? c.ptr = _
    rw [addVarHeap, Heap.get?_set_self kept.cell, Client.addVar, List.map_append]
    rfl
  · show (addVarHeap heap c name).owners c.ptr = []
    rw [addVarHeap, Heap.owners_set]
    exact kept.top
  · intro v mem
    simp only [Client.addVar, List.mem_append, List.mem_singleton] at mem
    rw [addVarHeap]
    cases mem with
    | inl old =>
      rw [Heap.get?_set_of_ne (notClient _ (.inl (stored.owned v old)))]
      exact kept.var v old
    | inr isNew =>
      rw [isNew, Heap.get?_set_of_ne (notClient _ (.inr rfl)), Heap.get?_alloc_self]
      rfl
  · intro v mem
    simp only [Client.addVar, List.mem_append, List.mem_singleton] at mem
    rw [addVarHeap, Heap.owners_set]
    cases mem with
    | inl old => exact kept.owned v old
    | inr isNew =>
      rw [isNew, Heap.owners_alloc_self, Heap.path_of_get? stored.cell, stored.top]
      rfl
  · exact stored.host
  · show ((c.vars ++ [(heap.next, name)]).map Prod.snd).Nodup
    rw [List.map_append, List.map_singleton, ← List.concat_eq_append]
    exact stored.varNames.concat new

theorem addVar_registered {s : CtrlState} {before after : List Client} {c : Client}
    (reg : Registered s (before ++ c :: after)) {name : CStr}
    (new : name ∉ c.vars.map Prod.snd) :
    Registered { s with heap := addVarHeap s.heap c name }
      (before ++ c.addVar s.heap.next name :: after) where
  linked := by
    show s.ctrlClients = _
    rw [reg.linked]
    simp
  stored d mem := by
    have stored := reg.stored c (by simp)
    rw [List.mem_append, List.mem_cons] at mem
    -- the other clients keep their objects
    have others : d ∈ before ++ after → d.Stored (addVarHeap s.heap c name) := by
      intro outside
      obtain ⟨inAll, other⟩ := reg.mem_split outside
      apply ((reg.stored d inAll).alloc _ _).set_other other
      exact (stored.alloc _ _).top
    rcases mem with inBefore | isClient | inAfter
    · exact others (List.mem_append_left after inBefore)
    · rw [isClient]
      exact stored_addVar stored new
    · exact others (List.mem_append_right before inAfter)
  names := by
    have unique := reg.names
    simpa using unique

/-- `ctrl_client_get_var_find_or_create` of a name that the client has. -/
theorem findOrCreate_known {s : CtrlState} {c : Client} (stored : c.Stored s.heap) {name : CStr}
    (known : name ∈ c.vars.map Prod.snd) :
    ∃ gv, (gv, name) ∈ c.vars ∧ ctrlClientGetVarFindOrCreate c.ptr name s = .ok (gv, s) := by
  have search := getVarFind_eq name stored fun v (mem : v ∈ c.vars) => mem
  cases found : c.vars.find? fun v => name == v.2 with
  | none => exact absurd known (notFound_iff.mp found)
  | some v =>
    have mem := List.mem_of_find?_eq_some found
    have isName : name = v.2 := by simpa using List.find?_some found
    rw [found, Option.map_some] at search
    refine ⟨v.1, by rw [isName]; exact mem, ?_⟩
    simp only [ctrlClientGetVarFindOrCreate, ok_bind stored.deref, ok_bind search]
    rfl

/-- A variable with a new name becomes the last of the client's list. -/
theorem findOrCreate_new {s : CtrlState} {c : Client} (stored : c.Stored s.heap) {name : CStr}
    (new : name ∉ c.vars.map Prod.snd) :
    ctrlClientGetVarFindOrCreate c.ptr name s =
      .ok (s.heap.next, { s with heap := addVarHeap s.heap c name }) := by
  have search := getVarFind_eq name stored fun v (mem : v ∈ c.vars) => mem
  rw [notFound_iff.mpr new, Option.map_none] at search
  simp only [ctrlClientGetVarFindOrCreate, ok_bind stored.deref, ok_bind search]
  rfl

/-- `ctrl_client_get_var_find_or_create` ends with a variable of that name in the client's
    list: the one that was there, or a new one at the end. -/
theorem findOrCreate_eq {s : CtrlState} {before after : List Client} {c : Client}
    (reg : Registered s (before ++ c :: after)) (name : CStr) :
    ∃ gv s' c', ctrlClientGetVarFindOrCreate c.ptr name s = .ok (gv, s') ∧
      Registered s' (before ++ c' :: after) ∧ c'.ptr = c.ptr ∧ (gv, name) ∈ c'.vars ∧
      s'.node = s.node ∧ s'.index = s.index ∧ c'.cfg = c.cfg ∧
      (s'.heap = s.heap ∨ s'.heap = addVarHeap s.heap c name) := by
  have stored := reg.stored c (by simp)
  by_cases known : name ∈ c.vars.map Prod.snd
  · obtain ⟨gv, isVar, run⟩ := findOrCreate_known stored known
    exact ⟨gv, s, c, run, reg, rfl, isVar, rfl, rfl, rfl, .inl rfl⟩
  · exact ⟨s.heap.next, { s with heap := addVarHeap s.heap c name }, c.addVar s.heap.next name,
      findOrCreate_new stored known, addVar_registered reg known, rfl, by simp [Client.addVar],
      rfl, rfl, rfl, .inr rfl⟩

end OsmoSysmon
