import Mathlib.Data.List.Forall2
import Mathlib.Logic.Function.Basic
import OsmoSysmon.Lib.OrderedMap
import OsmoSysmon.Ctrl.Linked
import OsmoSysmon.Registries.Basic

/-! # The registries are ordered maps

Each registry stores a map whose entries carry their own key, and an accepted command
changes the map of its registry as it says.  A refused one changes nothing.
-/

namespace OsmoSysmon

open CText Talloc Loop OrderedMap

/-- What a command names an entry by. -/
inductive Key where
  | ctrlClient (name : CStr)
  | openvpnClient (host : CStr) (port : UInt16)
  | netdev (name : CStr)
  | file (name : CStr)
  | shellcmd (name : CStr)
deriving DecidableEq

def Key.kind : Key → Kind
  | .ctrlClient _ => .ctrlClient
  | .openvpnClient _ _ => .openvpnClient
  | .netdev _ => .netdev
  | .file _ => .file
  | .shellcmd _ => .shellcmd

namespace Entry

/-- An OpenVPN client always has a host. -/
def key : Entry → Key
  | .ctrlClient cfg => .ctrlClient cfg.name
  | .openvpnClient vpn => .openvpnClient (vpn.cfg.remoteHost.getD []) vpn.cfg.remotePort
  | .netdev name => .netdev name
  | .file of => .file of.name
  | .shellcmd oc => .shellcmd oc.name

/-- An OpenVPN client as its command creates it. -/
def Configured : Entry → Prop
  | .openvpnClient vpn =>
    ∃ host port, vpn = OsmoSysmon.openvpnClientCreate (ascii "OpenVPN") host port
  | _ => True

end Entry

namespace RegCommand

/-- What the command does to its registry. -/
def change : RegCommand → Change Key Entry
  | .ctrlClient name host port => .put (.ctrlClient (hostCfgAlloc name (some host) port))
  | .noCtrlClient name => .drop (.ctrlClient name)
  | .openvpn host port _ =>
    .put (.openvpnClient (OsmoSysmon.openvpnClientCreate (ascii "OpenVPN") host port))
  | .noOpenvpn host port => .drop (.openvpnClient host port)
  | .netdev name => .put (.netdev name)
  | .noNetdev name => .drop (.netdev name)
  | .file name path => .put (.file ⟨name, path⟩)
  | .noFile name => .drop (.file name)
  | .shellcmd name concat => .put (.shellcmd ⟨name, concat⟩)
  | .noShellcmd name => .drop (.shellcmd name)

def key (command : RegCommand) : Key :=
  match command.change with
  | .put entry => entry.key
  | .drop key => key

/-- The commands that are refused, given what the registries hold. -/
def Refused (held : Key → Option Entry) : RegCommand → Prop
  | .ctrlClient name host port =>
    ∃ cfg, held (.ctrlClient name) = some (.ctrlClient cfg) ∧
      (cfg.remoteHost ≠ some host ∨ cfg.remotePort ≠ port)
  | .openvpn host port setup => held (.openvpnClient host port) = none ∧ setup ≠ .opened
  | .netdev _ => False
  | .file name _ => held (.file name) ≠ none
  | .shellcmd name _ => held (.shellcmd name) ≠ none
  | .noCtrlClient name => held (.ctrlClient name) = none
  | .noOpenvpn host port => held (.openvpnClient host port) = none
  | .noNetdev name => held (.netdev name) = none
  | .noFile name => held (.file name) = none
  | .noShellcmd name => held (.shellcmd name) = none

end RegCommand

/-- The changes of a registry by the commands that have been accepted. -/
def accepted (kind : Kind) (log : List (RegCommand × CmdResult)) : List (Change Key Entry) :=
  (log.filter fun x => x.2 == .success && x.1.key.kind == kind).map fun x => x.1.change

namespace Registries

/-- The data of an element. -/
def data? (s : Registries) (kind : Kind) (p : Ptr) : Option Entry :=
  match kind with
  | .ctrlClient => do
    let .client cfg _ ← s.ctrl.heap.get? p | none
    return .ctrlClient cfg
  | _ => s.heap.get? p

/-- A registry with the data of its elements, `none` where an element is not allocated. -/
def elements (s : Registries) (kind : Kind) : List (Ptr × Option Entry) :=
  (s.list kind).map fun p => (p, s.data? kind p)

def find (s : Registries) : Key → Except Fault (Option Ptr)
  | .ctrlClient name => ctrlClientFind s.ctrl.heap name s.ctrl.ctrlClients
  | .openvpnClient host port => openvpnClientFindOrMake host port s
  | .netdev name => netdevFind name s
  | .file name => osysmonFileFind name s
  | .shellcmd name => osysmonShellcmdFind name s

/-! ## Storing maps -/

/-- An allocated object of a registry. -/
structure At (heap : Heap Entry) (kind : Kind) (p : Ptr) (entry : Entry) : Prop where
  cell : heap.get? p = some entry
  top : heap.owners p = []
  isKind : entry.key.kind = kind
  configured : entry.Configured

def ofClient (c : Client) : Entry := .ctrlClient c.cfg

/-- The registries store these maps. -/
structure Stores (s : Registries) (maps : Kind → OrderedMap Entry.key) : Prop where
  ctrl : ∃ clients, Registered s.ctrl clients ∧
    (maps .ctrlClient).entries = clients.map ofClient
  kept : ∀ kind, kind ≠ .ctrlClient →
    List.Forall₂ (At s.heap kind) (s.list kind) (maps kind).entries

theorem stores_empty : Stores empty fun _ => OrderedMap.empty where
  ctrl := ⟨[], registered_empty, rfl⟩
  kept kind _ := by cases kind <;> exact .nil

@[simp] theorem list_relink (s : Registries) (kind other : Kind) (f : List Ptr → List Ptr) :
    (s.relink kind f).list other = if other = kind then f (s.list kind) else s.list other := by
  cases kind <;> cases other <;> rfl

theorem ctrl_relink (s : Registries) {kind : Kind} (notCtrl : kind ≠ .ctrlClient)
    (f : List Ptr → List Ptr) : (s.relink kind f).ctrl = s.ctrl := by
  cases kind with
  | ctrlClient => contradiction
  | openvpnClient | netdev | file | shellcmd => rfl

@[simp] theorem list_heap (s : Registries) (heap : Heap Entry) (kind : Kind) :
    ({ s with heap } : Registries).list kind = s.list kind := by
  cases kind <;> rfl

theorem data?_eq_get? (s : Registries) {kind : Kind} (notCtrl : kind ≠ .ctrlClient) (p : Ptr) :
    s.data? kind p = s.heap.get? p := by
  cases kind with
  | ctrlClient => contradiction
  | openvpnClient | netdev | file | shellcmd => rfl

namespace At

variable {heap : Heap Entry} {kind other : Kind} {p q : Ptr} {entry new : Entry}

theorem alloc (stored : At heap kind p entry) (new : Entry) :
    At (heap.alloc none new) kind p entry := by
  have old : p ≠ heap.next := Nat.ne_of_lt (Heap.lt_next_of_get? stored.cell)
  exact ⟨Heap.get?_alloc_of_get? stored.cell, by rw [Heap.owners_alloc_of_ne old, stored.top],
    stored.isKind, stored.configured⟩

theorem free (stored : At heap kind p entry) (different : p ≠ q) :
    At (heap.free q) kind p entry := by
  have outside : q ∉ heap.owners p := by simp [stored.top]
  exact ⟨by rw [Heap.get?_free_of_survives different outside, stored.cell],
    by rw [Heap.owners_free_of_survives different outside, stored.top],
    stored.isKind, stored.configured⟩

theorem of_new (heap : Heap Entry) (configured : entry.Configured) :
    At (heap.alloc none entry) entry.key.kind heap.next entry :=
  ⟨Heap.get?_alloc_self heap none entry, Heap.owners_alloc_self heap none entry, rfl, configured⟩

theorem ne_next (stored : At heap kind p entry) : p ≠ heap.next :=
  Nat.ne_of_lt (Heap.lt_next_of_get? stored.cell)

/-- An address belongs to one entry. -/
theorem unique (stored : At heap kind p entry) (again : At heap other p new) : entry = new := by
  have cells := stored.cell
  rw [again.cell] at cells
  exact (Option.some.inj cells).symm

end At

/-! ## Finding -/

theorem exists_at {heap : Heap Entry} {kind : Kind} {ps : List Ptr} {entries : List Entry}
    (kept : List.Forall₂ (At heap kind) ps entries) {p : Ptr} (mem : p ∈ ps) :
    ∃ entry ∈ entries, At heap kind p entry := by
  induction kept with
  | nil => cases mem
  | cons here _ ih =>
    cases mem with
    | head => exact ⟨_, List.mem_cons_self, here⟩
    | tail _ later =>
      obtain ⟨entry, isEntry, stored⟩ := ih later
      exact ⟨entry, List.mem_cons_of_mem _ isEntry, stored⟩

theorem kept_data {heap : Heap Entry} {kind : Kind} {ps : List Ptr} {entries : List Entry}
    (kept : List.Forall₂ (At heap kind) ps entries) : ps.map heap.get? = entries.map some := by
  induction kept with
  | nil => rfl
  | cons here _ ih => rw [List.map_cons, List.map_cons, here.cell, ih]

theorem findEntry_eq {heap : Heap Entry} {kind : Kind} {ps : List Ptr} {entries : List Entry}
    (kept : List.Forall₂ (At heap kind) ps entries) {key : Key}
    {isWanted : Entry → Except Fault Bool}
    (decides : ∀ entry, entry.key.kind = kind → entry.Configured →
      isWanted entry = .ok (entry.key == key)) :
    ∃ found, findEntry heap isWanted ps = .ok found ∧ (∀ p, found = some p → p ∈ ps) ∧
      found.map heap.get? = (entries.find? fun entry => entry.key == key).map some := by
  induction kept with
  | nil => exact ⟨none, rfl, by simp, rfl⟩
  | @cons p entry ps entries here _ ih =>
    obtain ⟨found, run, isLinked, data⟩ := ih
    have verdict := decides entry here.isKind here.configured
    cases isKey : entry.key == key with
    | true =>
      refine ⟨some p, ?_, by simp, ?_⟩
      · simp only [findEntry, here.cell, ok_bind verdict, isKey]
        rfl
      · simp [isKey, here.cell]
    | false =>
      refine ⟨found, ?_, fun q isFound => List.mem_cons_of_mem p (isLinked q isFound), ?_⟩
      · simp only [findEntry, here.cell, ok_bind verdict, isKey]
        exact run
      · simp [isKey, data]

theorem data?_ofClient {s : Registries} {clients : List Client} (reg : Registered s.ctrl clients)
    {c : Client} (mem : c ∈ clients) : s.data? .ctrlClient c.ptr = some (ofClient c) := by
  simp only [data?, (reg.stored c mem).cell]
  rfl

theorem find?_ofClient (clients : List Client) (name : CStr) :
    ((clients.map ofClient).find? fun entry => entry.key == .ctrlClient name) =
      (clients.find? fun c => name == c.name).map ofClient := by
  rw [List.find?_map]
  congr 2
  funext c
  rw [Bool.eq_iff_iff]
  simp only [Function.comp, ofClient, Entry.key, Client.name, beq_iff_eq, Key.ctrlClient.injEq]
  exact eq_comm

/-- The code finds what the maps hold. -/
theorem Stores.find {s : Registries} {maps : Kind → OrderedMap Entry.key} (stores : Stores s maps)
    (key : Key) :
    ∃ found, s.find key = .ok found ∧ (∀ p, found = some p → p ∈ s.list key.kind) ∧
      found.map (s.data? key.kind) = ((maps key.kind).find? key).map some := by
  cases key with
  | ctrlClient name =>
    obtain ⟨clients, reg, isMap⟩ := stores.ctrl
    refine ⟨_, reg.find name, ?_, ?_⟩
    · intro p isFound
      obtain ⟨c, found, rfl⟩ := Option.map_eq_some_iff.mp isFound
      exact reg.mem_linked.mpr ⟨c, List.mem_of_find?_eq_some found, rfl⟩
    · rw [Key.kind, OrderedMap.find?, isMap, find?_ofClient]
      cases found : clients.find? fun c => name == c.name with
      | none => rfl
      | some c => simp [data?_ofClient reg (List.mem_of_find?_eq_some found)]
  | openvpnClient host port =>
    apply findEntry_eq (stores.kept .openvpnClient (by simp))
    intro entry isKind configured
    cases entry with
    | openvpnClient vpn =>
      obtain ⟨host', port', rfl⟩ := configured
      simp only [OsmoSysmon.openvpnClientCreate, hostCfgAlloc, matchConfig, Entry.key,
        Option.getD_some]
      show Except.ok (host == host' && port' == port) = _
      congr 1
      rw [Bool.eq_iff_iff]
      simp only [Bool.and_eq_true, beq_iff_eq, Key.openvpnClient.injEq]
      exact and_congr eq_comm Iff.rfl
    | ctrlClient _ | netdev _ | file _ | shellcmd _ => simp [Entry.key, Key.kind] at isKind
  | netdev name =>
    apply findEntry_eq (stores.kept .netdev (by simp))
    intro entry isKind _
    cases entry with
    | netdev cfgName =>
      simp only [Entry.key]
      congr 1
      rw [Bool.eq_iff_iff]
      simp only [beq_iff_eq, Key.netdev.injEq]
      exact eq_comm
    | ctrlClient _ | openvpnClient _ | file _ | shellcmd _ => simp [Entry.key, Key.kind] at isKind
  | file name =>
    apply findEntry_eq (stores.kept .file (by simp))
    intro entry isKind _
    cases entry with
    | file of =>
      simp only [Entry.key]
      congr 1
      rw [Bool.eq_iff_iff]
      simp
    | ctrlClient _ | openvpnClient _ | netdev _ | shellcmd _ =>
      simp [Entry.key, Key.kind] at isKind
  | shellcmd name =>
    apply findEntry_eq (stores.kept .shellcmd (by simp))
    intro entry isKind _
    cases entry with
    | shellcmd oc =>
      simp only [Entry.key]
      congr 1
      rw [Bool.eq_iff_iff]
      simp
    | ctrlClient _ | openvpnClient _ | netdev _ | file _ => simp [Entry.key, Key.kind] at isKind

/-! ## Linking and unlinking -/

theorem kept_alloc {heap : Heap Entry} {kind : Kind} {ps : List Ptr} {entries : List Entry}
    (kept : List.Forall₂ (At heap kind) ps entries) (new : Entry) :
    List.Forall₂ (At (heap.alloc none new) kind) ps entries :=
  kept.imp fun _ _ stored => stored.alloc new

theorem kept_free {heap : Heap Entry} {kind : Kind} {ps : List Ptr} {entries : List Entry}
    (kept : List.Forall₂ (At heap kind) ps entries) {p : Ptr} (other : p ∉ ps) :
    List.Forall₂ (At (heap.free p) kind) ps entries := by
  induction kept with
  | nil => exact .nil
  | cons here _ ih =>
    rw [List.mem_cons, not_or] at other
    exact .cons (here.free (Ne.symm other.1)) (ih other.2)

/-- Unlinking and freeing an element drops its entry. -/
theorem kept_erase {heap : Heap Entry} {kind : Kind} {ps : List Ptr} {entries : List Entry}
    (kept : List.Forall₂ (At heap kind) ps entries) (distinct : (entries.map Entry.key).Nodup)
    {p : Ptr} {entry : Entry} (mem : p ∈ ps) (stored : At heap kind p entry) :
    List.Forall₂ (At (heap.free p) kind) (ps.erase p)
      (entries.filter fun e => e.key != entry.key) := by
  induction kept with
  | nil => cases mem
  | @cons q e ps entries here rest ih =>
    rw [List.map_cons, List.nodup_cons] at distinct
    -- the entry is stored once
    have isEntry : p ∈ ps → entry.key ∈ entries.map Entry.key := by
      intro later
      obtain ⟨e', isEntry, again⟩ := exists_at rest later
      rw [stored.unique again]
      exact List.mem_map_of_mem isEntry
    by_cases same : q = p
    · subst same
      have isHere : e = entry := here.unique stored
      subst isHere
      have others : ∀ e' ∈ entries, (e'.key != e.key) = true := by
        intro e' isOther
        rw [bne_iff_ne]
        intro sameKey
        exact distinct.1 (sameKey ▸ List.mem_map_of_mem isOther)
      rw [List.erase_cons_head, List.filter_cons_of_neg (by simp), List.filter_eq_self.mpr others]
      exact kept_free rest fun later => distinct.1 (isEntry later)
    · have later : p ∈ ps := by simpa [Ne.symm same] using mem
      have otherKey : e.key ≠ entry.key := fun sameKey => distinct.1 (sameKey ▸ isEntry later)
      rw [List.erase_cons_tail (by simpa using same), List.filter_cons_of_pos (by simpa using otherKey)]
      exact .cons (here.free same) (ih distinct.2 later)

section

variable {s : Registries} {maps : Kind → OrderedMap Entry.key}

theorem Stores.link (stores : Stores s maps) {entry : Entry} (configured : entry.Configured)
    (notCtrl : entry.key.kind ≠ .ctrlClient) (new : entry.key ∉ (maps entry.key.kind).keys) :
    Stores (s.link entry.key.kind entry).2
      (Function.update maps entry.key.kind ((maps entry.key.kind).put entry)) where
  ctrl := by
    rw [Function.update_of_ne notCtrl.symm]
    show ∃ clients, Registered (s.relink entry.key.kind (· ++ [s.heap.next])).ctrl clients ∧ _
    rw [ctrl_relink s notCtrl]
    exact stores.ctrl
  kept other otherNotCtrl := by
    have kept := kept_alloc (stores.kept other otherNotCtrl) entry
    show List.Forall₂ (At (s.heap.alloc none entry) other)
      ((s.relink entry.key.kind (· ++ [s.heap.next])).list other) _
    by_cases same : other = entry.key.kind
    · subst same
      rw [Function.update_self, list_relink, if_pos rfl, put, dif_neg new]
      exact List.rel_append kept (.cons (At.of_new s.heap configured) .nil)
    · rw [Function.update_of_ne same, list_relink, if_neg same]
      exact kept

theorem Stores.unlink (stores : Stores s maps) {kind : Kind} (notCtrl : kind ≠ .ctrlClient)
    {p : Ptr} {entry : Entry} (mem : p ∈ s.list kind) (cell : s.heap.get? p = some entry) :
    Stores (s.unlink kind p) (Function.update maps kind ((maps kind).drop entry.key)) where
  ctrl := by
    rw [Function.update_of_ne notCtrl.symm]
    show ∃ clients, Registered (s.relink kind (·.erase p)).ctrl clients ∧ _
    rw [ctrl_relink s notCtrl]
    exact stores.ctrl
  kept other otherNotCtrl := by
    obtain ⟨e, -, stored⟩ := exists_at (stores.kept kind notCtrl) mem
    have isEntry : e = entry := Option.some.inj (stored.cell.symm.trans cell)
    subst isEntry
    have kept := stores.kept other otherNotCtrl
    show List.Forall₂ (At (s.heap.free p) other) ((s.relink kind (·.erase p)).list other) _
    by_cases same : other = kind
    · subst same
      rw [Function.update_self, list_relink, if_pos rfl]
      exact kept_erase kept (maps other).distinct mem stored
    · rw [Function.update_of_ne same, list_relink, if_neg same]
      apply kept_free kept
      -- the element is of another kind
      intro elsewhere
      obtain ⟨e', -, again⟩ := exists_at kept elsewhere
      have sameEntry := stored.unique again
      exact same (by rw [← again.isKind, ← sameEntry, stored.isKind])

/-- An object that is freed before it has been linked. -/
theorem Stores.dealloc (stores : Stores s maps) (entry : Entry) :
    Stores { s with heap := (s.heap.alloc none entry).free s.heap.next } maps where
  ctrl := stores.ctrl
  kept kind notCtrl := by
    rw [list_heap]
    apply kept_free (kept_alloc (stores.kept kind notCtrl) entry)
    intro mem
    obtain ⟨e, -, stored⟩ := exists_at (stores.kept kind notCtrl) mem
    exact stored.ne_next rfl

end

/-! ## Commands -/

/-- What the maps hold under a key. -/
def held (maps : Kind → OrderedMap Entry.key) (key : Key) : Option Entry :=
  (maps key.kind).find? key

/-- The maps after a command that has been accepted. -/
def changed (maps : Kind → OrderedMap Entry.key) (command : RegCommand) :
    Kind → OrderedMap Entry.key :=
  Function.update maps command.key.kind ((maps command.key.kind).apply command.change)

structure Obeys (s : Registries) (maps : Kind → OrderedMap Entry.key) (command : RegCommand)
    (result : CmdResult) (t : Registries) : Prop where
  stores : Stores t (if result = .success then changed maps command else maps)
  lists : ∀ kind, result = .warning ∨ kind ≠ command.key.kind → t.list kind = s.list kind
  verdict : result = .warning ∧ command.Refused (held maps) ∨
    result = .success ∧ ¬ command.Refused (held maps)

section

variable {s t : Registries} {maps : Kind → OrderedMap Entry.key} {command : RegCommand}
  {entry : Entry}

theorem Obeys.refused (stores : Stores t maps) (lists : ∀ kind, t.list kind = s.list kind)
    (refused : command.Refused (held maps)) : Obeys s maps command .warning t :=
  ⟨stores, fun kind _ => lists kind, .inl ⟨rfl, refused⟩⟩

/-- A command that adds what is there. -/
theorem Obeys.again (stores : Stores t maps) (lists : ∀ kind, t.list kind = s.list kind)
    (isPut : command.change = .put entry) (there : held maps entry.key = some entry)
    (accepted : ¬ command.Refused (held maps)) : Obeys s maps command .success t where
  stores := by
    have isKey : command.key = entry.key := by rw [RegCommand.key, isPut]
    have same : changed maps command = maps := by
      rw [changed, isKey, isPut, apply, put_of_find? there, Function.update_eq_self]
    rw [if_pos rfl, same]
    exact stores
  lists kind _ := lists kind
  verdict := .inr ⟨rfl, accepted⟩

theorem Obeys.added (stores : Stores s maps) (isPut : command.change = .put entry)
    (configured : entry.Configured) (notCtrl : entry.key.kind ≠ .ctrlClient)
    (new : held maps entry.key = none) (accepted : ¬ command.Refused (held maps)) :
    Obeys s maps command .success (s.link entry.key.kind entry).2 where
  stores := by
    have isKey : command.key = entry.key := by rw [RegCommand.key, isPut]
    rw [if_pos rfl, changed, isKey, isPut, apply]
    exact stores.link configured notCtrl (find?_eq_none_iff.mp new)
  lists kind other := by
    have isKey : command.key = entry.key := by rw [RegCommand.key, isPut]
    have otherKind : kind ≠ entry.key.kind := by simpa [isKey] using other
    show (s.relink entry.key.kind (· ++ [s.heap.next])).list kind = s.list kind
    rw [list_relink, if_neg otherKind]
  verdict := .inr ⟨rfl, accepted⟩

/-- The commands that remove an element. -/
theorem removeEntry_obeys (stores : Stores s maps) {key : Key} (isDrop : command.change = .drop key)
    (notCtrl : key.kind ≠ .ctrlClient)
    (refused : command.Refused (held maps) ↔ held maps key = none) :
    ∃ result t, removeEntry (·.find key) (fun p s => s.unlink key.kind p) s = .ok (result, t) ∧
      Obeys s maps command result t := by
  have isKey : command.key = key := by rw [RegCommand.key, isDrop]
  obtain ⟨found, run, isLinked, data⟩ := stores.find key
  cases found with
  | none =>
    have missing : held maps key = none := by simpa [held] using data.symm
    refine ⟨.warning, s, ?_, .refused stores (fun _ => rfl) (refused.mpr missing)⟩
    rw [removeEntry, ok_bind run]
    rfl
  | some p =>
    refine ⟨.success, s.unlink key.kind p, ?_, ?_⟩
    · rw [removeEntry, ok_bind run]
      rfl
    · rw [Option.map_some, data?_eq_get? s notCtrl] at data
      obtain ⟨entry, there, cell⟩ := Option.map_eq_some_iff.mp data.symm
      have sameKey := (key_of_find? there).2
      constructor
      · rw [if_pos rfl, changed, isKey, isDrop, apply]
        have unlinked := stores.unlink notCtrl (isLinked p rfl) cell.symm
        rwa [sameKey] at unlinked
      · intro kind other
        have otherKind : kind ≠ key.kind := by simpa [isKey] using other
        show (s.relink key.kind (·.erase p)).list kind = s.list kind
        rw [list_relink, if_neg otherKind]
      · refine .inr ⟨rfl, ?_⟩
        rw [refused, held, there]
        exact Option.some_ne_none entry

/-- The functions that add an element unless its key is taken. -/
theorem addEntry_eq (stores : Stores s maps) (entry : Entry) :
    (held maps entry.key = none ∧ s.find entry.key = .ok none ∧
        addEntry (·.find entry.key) entry.key.kind entry s =
          .ok (some s.heap.next, (s.link entry.key.kind entry).2)) ∨
      ∃ there p, held maps entry.key = some there ∧ there.key = entry.key ∧
        s.find entry.key = .ok (some p) ∧
        addEntry (·.find entry.key) entry.key.kind entry s = .ok (none, s) := by
  obtain ⟨found, run, -, data⟩ := stores.find entry.key
  cases found with
  | none =>
    left
    refine ⟨by simpa [held] using data.symm, run, ?_⟩
    rw [addEntry, ok_bind run]
    rfl
  | some p =>
    right
    obtain ⟨there, isHeld, -⟩ := Option.map_eq_some_iff.mp data.symm
    refine ⟨there, p, isHeld, (key_of_find? isHeld).2, run, ?_⟩
    rw [addEntry, ok_bind run]
    rfl

theorem cfgFile_obeys (stores : Stores s maps) (name path : CStr) :
    ∃ result t, cfgFile name path s = .ok (result, t) ∧
      Obeys s maps (.file name path) result t := by
  rcases addEntry_eq stores (.file ⟨name, path⟩) with ⟨new, -, run⟩ | ⟨there, p, isHeld, -, -, run⟩
  · refine ⟨_, _, ok_bind run _, ?_⟩
    exact .added stores rfl trivial (by simp [Entry.key, Key.kind]) new (fun taken => taken new)
  · refine ⟨_, _, ok_bind run _, ?_⟩
    exact .refused stores (fun _ => rfl) fun free => by cases isHeld.symm.trans free

theorem cfgShellcmd_obeys (stores : Stores s maps) (name concat : CStr) :
    ∃ result t, cfgShellcmd name concat s = .ok (result, t) ∧
      Obeys s maps (.shellcmd name concat) result t := by
  rcases addEntry_eq stores (.shellcmd ⟨name, concat⟩) with
    ⟨new, -, run⟩ | ⟨there, p, isHeld, -, -, run⟩
  · refine ⟨_, _, ok_bind run _, ?_⟩
    exact .added stores rfl trivial (by simp [Entry.key, Key.kind]) new (fun taken => taken new)
  · refine ⟨_, _, ok_bind run _, ?_⟩
    exact .refused stores (fun _ => rfl) fun free => by cases isHeld.symm.trans free

/-- The name is all there is to an interface. -/
theorem cfgNetdev_obeys (stores : Stores s maps) (name : CStr) :
    ∃ result t, cfgNetdev name s = .ok (result, t) ∧ Obeys s maps (.netdev name) result t := by
  rcases addEntry_eq stores (.netdev name) with
    ⟨new, missing, run⟩ | ⟨there, p, isHeld, sameKey, found, -⟩
  · refine ⟨.success, _, ?_, .added stores rfl trivial (by simp [Entry.key, Key.kind]) new id⟩
    rw [cfgNetdev]
    refine (ok_bind missing _).trans ?_
    exact (ok_bind run _).trans rfl
  · refine ⟨.success, s, ?_, .again stores (fun _ => rfl) rfl ?_ id⟩
    · rw [cfgNetdev]
      exact (ok_bind found _).trans rfl
    · cases there with
      | netdev cfgName =>
        rw [Entry.key, Entry.key, Key.netdev.injEq] at sameKey
        rw [isHeld, sameKey]
      | ctrlClient _ | openvpnClient _ | file _ | shellcmd _ => cases sameKey

/-- `openvpn_client_create` behind the search. -/
theorem cfgOpenvpn_eq {host : CStr} {port : UInt16} {setup : TcpSetup} {found : Option Ptr}
    (run : openvpnClientFindOrMake host port s = .ok found) :
    cfgOpenvpn host port setup s =
      .ok
        (if found.isSome then (.success, s)
        else
          let vpn := .openvpnClient (OsmoSysmon.openvpnClientCreate (ascii "OpenVPN") host port)
          if setup = .opened then (.success, (s.link .openvpnClient vpn).2)
          else (.warning, { s with heap := (s.heap.alloc none vpn).free s.heap.next })) := by
  rw [cfgOpenvpn, openvpnClientCreate, ok_bind run]
  cases found with
  | some p => rfl
  | none => cases setup <;> rfl

/-- The address is all there is to a new client. -/
theorem cfgOpenvpn_obeys (stores : Stores s maps) (host : CStr) (port : UInt16) (setup : TcpSetup) :
    ∃ result t, cfgOpenvpn host port setup s = .ok (result, t) ∧
      Obeys s maps (.openvpn host port setup) result t := by
  have notCtrl : (Key.openvpnClient host port).kind ≠ .ctrlClient := by simp [Key.kind]
  obtain ⟨found, run, isLinked, data⟩ := stores.find (.openvpnClient host port)
  cases found with
  | none =>
    have missing : held maps (.openvpnClient host port) = none := by
      simpa [held] using data.symm
    cases setup with
    | opened =>
      refine ⟨.success, _, ?_, .added stores rfl ⟨host, port, rfl⟩ notCtrl missing ?_⟩
      · exact cfgOpenvpn_eq run
      · exact fun refused => refused.2 rfl
    | noClient | notOpened =>
      refine ⟨.warning, _, cfgOpenvpn_eq run, ?_⟩
      exact .refused (stores.dealloc _) (fun kind => list_heap s _ kind) ⟨missing, by simp⟩
  | some p =>
    rw [Option.map_some, data?_eq_get? s notCtrl] at data
    obtain ⟨there, isHeld, cell⟩ := Option.map_eq_some_iff.mp data.symm
    obtain ⟨entry, -, stored⟩ := exists_at (stores.kept _ notCtrl) (isLinked p rfl)
    have same : entry = there := Option.some.inj (stored.cell.symm.trans cell.symm)
    subst same
    have sameKey := (key_of_find? isHeld).2
    refine ⟨.success, s, cfgOpenvpn_eq run, ?_⟩
    refine .again stores (fun _ => rfl) rfl ?_ fun refused => by cases isHeld.symm.trans refused.1
    cases entry with
    | openvpnClient vpn =>
      obtain ⟨host', port', rfl⟩ := stored.configured
      obtain ⟨rfl, rfl⟩ := Key.openvpnClient.inj sameKey
      exact isHeld
    | ctrlClient _ | netdev _ | file _ | shellcmd _ => cases sameKey

/-! ## Commands on CTRL clients -/

theorem list_ctrl (s : Registries) (ctrl : CtrlState) {kind : Kind} (notCtrl : kind ≠ .ctrlClient) :
    ({ s with ctrl } : Registries).list kind = s.list kind := by
  cases kind with
  | ctrlClient => contradiction
  | openvpnClient | netdev | file | shellcmd => rfl

theorem Stores.onCtrl (stores : Stores s maps) {ctrl : CtrlState} {clients : List Client}
    (reg : Registered ctrl clients) {map : OrderedMap Entry.key}
    (isMap : map.entries = clients.map ofClient) :
    Stores { s with ctrl } (Function.update maps .ctrlClient map) where
  ctrl := ⟨clients, reg, by rw [Function.update_self, isMap]⟩
  kept kind notCtrl := by
    rw [Function.update_of_ne notCtrl, list_ctrl s ctrl notCtrl]
    exact stores.kept kind notCtrl

theorem held_ctrlClient {clients : List Client}
    (isMap : (maps .ctrlClient).entries = clients.map ofClient) (name : CStr) :
    held maps (.ctrlClient name) = (clients.find? fun c => name == c.name).map ofClient := by
  rw [held, Key.kind, OrderedMap.find?, isMap, find?_ofClient]

theorem cfgCtrlClient_obeys (stores : Stores s maps) (name host : CStr) (port : UInt16) :
    ∃ result t, onCtrl (cfgCtrlClient name host port) s = .ok (result, t) ∧
      Obeys s maps (.ctrlClient name host port) result t := by
  obtain ⟨clients, reg, isMap⟩ := stores.ctrl
  have isHeld := held_ctrlClient isMap name
  cases found : clients.find? fun c => name == c.name with
  | none =>
    rw [found] at isHeld
    obtain ⟨ctrl, run, regNew, -⟩ := cfgCtrlClient_new reg (notFound_iff.mp found) host port
    have new : (Entry.ctrlClient (hostCfgAlloc name (some host) port)).key ∉
        (maps .ctrlClient).keys := find?_eq_none_iff.mp isHeld
    refine ⟨_, _, ok_bind run _, ?_, ?_, .inr ⟨rfl, ?_⟩⟩
    · apply stores.onCtrl (regNew.moved _ _)
      rw [RegCommand.change, apply]
      show ((maps .ctrlClient).put _).entries = _
      rw [entries_put_new new, List.map_append, isMap]
      rfl
    · intro kind other
      exact list_ctrl s _ (by simpa [RegCommand.key, RegCommand.change, Entry.key, Key.kind] using other)
    · rintro ⟨cfg, there, -⟩
      cases isHeld.symm.trans there
  | some c =>
    have mem := List.mem_of_find?_eq_some found
    have isName : name = c.cfg.name := by simpa [Client.name] using List.find?_some found
    rw [found] at isHeld
    have run := cfgCtrlClient_known reg found host port
    by_cases differs : c.cfg.remoteHost ≠ some host ∨ c.cfg.remotePort ≠ port
    · rw [if_pos differs] at run
      exact ⟨_, _, ok_bind run _, .refused stores (fun _ => rfl) ⟨c.cfg, isHeld, differs⟩⟩
    · rw [if_neg differs] at run
      have sameCfg : c.cfg = hostCfgAlloc name (some host) port := by
        simp only [not_or, ne_eq, not_not] at differs
        rw [isName, ← differs.1, ← differs.2]
        rfl
      have moved := stores.onCtrl (reg.moved .ctrlClient (some c.ptr)) isMap
      rw [Function.update_eq_self] at moved
      refine ⟨_, _, ok_bind run _, .again moved ?_ rfl ?_ ?_⟩
      · intro kind
        cases kind <;> rfl
      · show held maps (.ctrlClient name) = _
        rw [isHeld, ← sameCfg]
        rfl
      · rintro ⟨cfg, there, refused⟩
        rw [isHeld, Option.map_some, Option.some.injEq, ofClient, Entry.ctrlClient.injEq] at there
        exact differs (there ▸ refused)

theorem cfgNoCtrlClient_obeys (stores : Stores s maps) (name : CStr) :
    ∃ result t, onCtrl (cfgNoCtrlClient name) s = .ok (result, t) ∧
      Obeys s maps (.noCtrlClient name) result t := by
  obtain ⟨clients, reg, isMap⟩ := stores.ctrl
  have isHeld := held_ctrlClient isMap name
  have search := reg.find name
  cases found : clients.find? fun c => name == c.name with
  | none =>
    rw [found] at isHeld search
    have run : cfgNoCtrlClient name s.ctrl = .ok (.warning, s.ctrl) := by
      rw [cfgNoCtrlClient]
      exact (ok_bind search _).trans rfl
    exact ⟨_, _, ok_bind run _, .refused stores (fun _ => rfl) isHeld⟩
  | some c =>
    have isName : name = c.name := by simpa using List.find?_some found
    rw [found] at isHeld search
    have run : cfgNoCtrlClient name s.ctrl = .ok (.success, ctrlClientDestroy c.ptr s.ctrl) := by
      rw [cfgNoCtrlClient]
      exact (ok_bind search _).trans rfl
    obtain ⟨before, after, rfl⟩ := List.append_of_mem (List.mem_of_find?_eq_some found)
    refine ⟨_, _, ok_bind run _, ?_, ?_, .inr ⟨rfl, ?_⟩⟩
    · apply stores.onCtrl (ctrlClientDestroy_registered reg)
      rw [RegCommand.change, apply]
      show ((maps .ctrlClient).entries.filter _) = _
      -- no other client has the name
      have unique := reg.names
      rw [List.map_append, List.map_cons, List.nodup_middle, List.nodup_cons, ← List.map_append,
        ← isName] at unique
      have others : ∀ entry ∈ (before ++ after).map ofClient,
          (entry.key != .ctrlClient name) = true := by
        intro entry mem
        obtain ⟨d, isOther, rfl⟩ := List.mem_map.mp mem
        rw [bne_iff_ne]
        intro sameKey
        rw [ofClient, Entry.key, Key.ctrlClient.injEq] at sameKey
        exact unique.1 (sameKey ▸ List.mem_map_of_mem isOther)
      have isKey : ((ofClient c).key != .ctrlClient name) = false := by
        rw [isName]
        simp [ofClient, Entry.key, Client.name]
      rw [List.map_append] at others ⊢
      rw [isMap, List.map_append, List.map_cons, List.filter_append,
        List.filter_cons_of_neg (by simp [isKey]), ← List.filter_append,
        List.filter_eq_self.mpr others]
    · intro kind other
      exact list_ctrl s _ (by simpa [RegCommand.key, RegCommand.change, Key.kind] using other)
    · intro refused
      cases isHeld.symm.trans refused

theorem exec_obeys (stores : Stores s maps) (command : RegCommand) :
    ∃ result t, exec command s = .ok (result, t) ∧ Obeys s maps command result t := by
  cases command with
  | ctrlClient name host port => exact cfgCtrlClient_obeys stores name host port
  | noCtrlClient name => exact cfgNoCtrlClient_obeys stores name
  | openvpn host port setup => exact cfgOpenvpn_obeys stores host port setup
  | noOpenvpn host port =>
    exact @removeEntry_obeys s maps _ stores (.openvpnClient host port) rfl (by simp [Key.kind]) .rfl
  | netdev name => exact cfgNetdev_obeys stores name
  | noNetdev name => exact @removeEntry_obeys s maps _ stores (.netdev name) rfl (by simp [Key.kind]) .rfl
  | file name path => exact cfgFile_obeys stores name path
  | noFile name => exact @removeEntry_obeys s maps _ stores (.file name) rfl (by simp [Key.kind]) .rfl
  | shellcmd name concat => exact cfgShellcmd_obeys stores name concat
  | noShellcmd name =>
    exact @removeEntry_obeys s maps _ stores (.shellcmd name) rfl (by simp [Key.kind]) .rfl

/-! ## What a command leaves alone -/

theorem removeEntry_ctrl {find : Registries → Except Fault (Option Ptr)} {kind : Kind}
    (notCtrl : kind ≠ .ctrlClient) {result : CmdResult}
    (run : removeEntry find (fun p s => s.unlink kind p) s = .ok (result, t)) :
    t.ctrl = s.ctrl := by
  obtain ⟨found, -, run⟩ := ok_bind_inv run
  cases found with
  | none =>
    cases run
    rfl
  | some p =>
    cases run
    exact ctrl_relink s notCtrl _

theorem addEntry_ctrl {find : Registries → Except Fault (Option Ptr)} {kind : Kind}
    (notCtrl : kind ≠ .ctrlClient) {found : Option Ptr}
    (run : addEntry find kind entry s = .ok (found, t)) : t.ctrl = s.ctrl := by
  obtain ⟨known, -, run⟩ := ok_bind_inv run
  cases known with
  | none =>
    cases run
    exact ctrl_relink s notCtrl _
  | some p =>
    cases run
    rfl

theorem cfgOpenvpn_ctrl {host : CStr} {port : UInt16} {setup : TcpSetup} {result : CmdResult}
    (run : cfgOpenvpn host port setup s = .ok (result, t)) : t.ctrl = s.ctrl := by
  obtain ⟨_, create, -⟩ := ok_bind_inv run
  obtain ⟨found, search, -⟩ := ok_bind_inv create
  rw [cfgOpenvpn_eq search] at run
  split at run
  · cases run
    rfl
  · simp only at run
    split at run
    · cases run
      exact ctrl_relink s (by simp) _
    · cases run
      rfl

theorem cfgNetdev_ctrl {name : CStr} {result : CmdResult}
    (run : cfgNetdev name s = .ok (result, t)) : t.ctrl = s.ctrl := by
  obtain ⟨found, -, run⟩ := ok_bind_inv run
  cases found with
  | some p =>
    cases run
    rfl
  | none =>
    obtain ⟨⟨created, u⟩, create, run⟩ := ok_bind_inv run
    cases created with
    | none => cases run
    | some p =>
      cases run
      exact addEntry_ctrl (by simp) create

/-- A command on another registry does not touch the CTRL clients. -/
theorem exec_ctrl (other : command.key.kind ≠ .ctrlClient) {result : CmdResult}
    (run : exec command s = .ok (result, t)) : t.ctrl = s.ctrl := by
  cases command with
  | ctrlClient _ _ _ | noCtrlClient _ => exact absurd rfl other
  | openvpn host port setup => exact cfgOpenvpn_ctrl run
  | netdev name => exact cfgNetdev_ctrl run
  | file name path =>
    obtain ⟨⟨of, u⟩, added, run⟩ := ok_bind_inv run
    cases run
    exact addEntry_ctrl (by simp) added
  | shellcmd name concat =>
    obtain ⟨⟨oc, u⟩, added, run⟩ := ok_bind_inv run
    cases run
    exact addEntry_ctrl (by simp) added
  | noOpenvpn _ _ | noNetdev _ | noFile _ | noShellcmd _ => exact removeEntry_ctrl (by simp) run

end

/-! ## Runs -/

/-- The maps that a run leaves. -/
def mapsOf (log : List (RegCommand × CmdResult)) (kind : Kind) : OrderedMap Entry.key :=
  after (accepted kind log)

theorem mapsOf_cons (log : List (RegCommand × CmdResult)) (command : RegCommand)
    (result : CmdResult) :
    mapsOf ((command, result) :: log) =
      if result = .success then changed (mapsOf log) command else mapsOf log := by
  funext kind
  rw [mapsOf, accepted, List.filter_cons]
  by_cases success : result = .success
  · by_cases isKind : command.key.kind = kind
    · subst isKind
      simp [success, changed, mapsOf, accepted, after]
    · simp [success, changed, mapsOf, accepted, isKind, Function.update_of_ne (Ne.symm isKind)]
  · simp [success, mapsOf, accepted]

theorem execAll_stores (commands : List RegCommand) :
    ∃ log s, execAll commands = .ok (log, s) ∧ log.map Prod.fst = commands ∧
      Stores s (mapsOf log) := by
  induction commands with
  | nil => exact ⟨[], empty, rfl, rfl, stores_empty⟩
  | cons command older ih =>
    obtain ⟨log, s, run, isLog, stores⟩ := ih
    obtain ⟨result, t, here, obeys⟩ := exec_obeys stores command
    refine ⟨(command, result) :: log, t, ?_, by rw [List.map_cons, isLog], ?_⟩
    · rw [execAll, ok_bind run]
      exact ok_bind here _
    · rw [mapsOf_cons]
      exact obeys.stores

theorem list_data?_ctrl {s : Registries} {clients : List Client} (reg : Registered s.ctrl clients) :
    (s.list .ctrlClient).map (s.data? .ctrlClient) = (clients.map ofClient).map some := by
  show s.ctrl.ctrlClients.map _ = _
  rw [reg.linked, List.map_map, List.map_map]
  exact List.map_congr_left fun c mem => data?_ofClient reg mem

theorem Stores.data {s : Registries} {maps : Kind → OrderedMap Entry.key} (stores : Stores s maps)
    (kind : Kind) : (s.list kind).map (s.data? kind) = (maps kind).entries.map some := by
  by_cases isCtrl : kind = .ctrlClient
  · subst isCtrl
    obtain ⟨clients, reg, isMap⟩ := stores.ctrl
    rw [isMap]
    exact list_data?_ctrl reg
  · have kept := stores.kept kind isCtrl
    rw [funext (data?_eq_get? s isCtrl)]
    exact kept_data kept

/-- The map of the CTRL clients, whatever list of clients is stored. -/
theorem Stores.entries_ctrl {s : Registries} {maps : Kind → OrderedMap Entry.key}
    (stores : Stores s maps) {clients : List Client} (reg : Registered s.ctrl clients) :
    (maps .ctrlClient).entries = clients.map ofClient := by
  have data := (stores.data .ctrlClient).symm.trans (list_data?_ctrl reg)
  exact (List.map_inj_right fun _ _ => Option.some.inj).mp data

/-- The CTRL clients where only the session has moved. -/
theorem Stores.moved {s : Registries} {maps : Kind → OrderedMap Entry.key} (stores : Stores s maps)
    {clients : List Client} (reg : Registered s.ctrl clients) {ctrl : CtrlState}
    (reg' : Registered ctrl clients) : Stores { s with ctrl } maps := by
  have moved := stores.onCtrl reg' (stores.entries_ctrl reg)
  rwa [Function.update_eq_self] at moved

/-- Lists and maps that are the same have the same elements. -/
theorem elements_eq {s t : Registries} {maps maps' : Kind → OrderedMap Entry.key} {kind : Kind}
    (stores : Stores s maps) (stores' : Stores t maps') (sameMap : maps' kind = maps kind)
    (sameList : t.list kind = s.list kind) : t.elements kind = s.elements kind := by
  have data := stores'.data kind
  rw [sameMap, ← stores.data kind, sameList, List.map_inj_left] at data
  rw [elements, elements, sameList, List.map_inj_left]
  intro p mem
  rw [data p mem]

end Registries

open Registries

/-- A registry whose elements are all allocated, in the order in which they have come to
    the registry, no two with one key. -/
def Ordered (s : Registries) (kind : Kind) (history : List (Change Key Entry)) : Prop :=
  ∃ entries : List Entry, (s.elements kind).map Prod.snd = entries.map some ∧
    (entries.map Entry.key).Nodup ∧ (entries.map Entry.key).Pairwise (Older Entry.key history)

/-- The code finds the data of the last add of a key, unless it has been removed since. -/
def FindsLatest (s : Registries) (key : Key) (history : List (Change Key Entry)) : Prop :=
  ∃ found, s.find key = .ok found ∧ (∀ p, found = some p → p ∈ s.list key.kind) ∧
    found.map (s.data? key.kind) = (latest Entry.key key history).map some

/-- After any commands the registries are ordered maps of what has been accepted, and any
    further command is refused for a reason it has, or changes its own registry only. -/
theorem registries_ordered_maps (commands : List RegCommand) :
    ∃ log s, Registries.execAll commands = .ok (log, s) ∧ log.map Prod.fst = commands ∧
      (∀ kind, Ordered s kind (accepted kind log)) ∧
      (∀ key, FindsLatest s key (accepted key.kind log)) ∧
      ∀ command, ∃ result t, Registries.exec command s = .ok (result, t) ∧
        (result = .warning ∨ result = .success) ∧
        (result = .warning ↔
          command.Refused fun key => latest Entry.key key (accepted key.kind log)) ∧
        ∀ kind, result = .warning ∨ kind ≠ command.key.kind → t.elements kind = s.elements kind := by
  obtain ⟨log, s, run, isLog, stores⟩ := execAll_stores commands
  have isHeld : (fun key => latest Entry.key key (accepted key.kind log)) = held (mapsOf log) := by
    funext key
    rw [held, mapsOf, find?_after]
  refine ⟨log, s, run, isLog, ?_, ?_, ?_⟩
  · intro kind
    refine ⟨(mapsOf log kind).entries, ?_, (mapsOf log kind).distinct, sorted_after _⟩
    rw [elements, List.map_map]
    exact stores.data kind
  · intro key
    obtain ⟨found, isFound, isLinked, data⟩ := stores.find key
    refine ⟨found, isFound, isLinked, ?_⟩
    rw [data, mapsOf, find?_after]
  · intro command
    obtain ⟨result, t, here, obeys⟩ := exec_obeys stores command
    rw [isHeld]
    refine ⟨result, t, here, ?_, ?_, ?_⟩
    · exact obeys.verdict.imp And.left And.left
    · rcases obeys.verdict with ⟨rfl, refused⟩ | ⟨rfl, accepted⟩
      · simp [refused]
      · simp [accepted]
    · intro kind unchanged
      apply elements_eq stores obeys.stores ?_ (obeys.lists kind unchanged)
      rcases unchanged with rfl | other
      · rw [if_neg (by simp)]
      · split
        · rw [changed, Function.update_of_ne other]
        · rfl

end OsmoSysmon
