import Mathlib.Data.List.Find
import OsmoSysmon.Lib.Blocks
import OsmoSysmon.Lib.Simulation
import OsmoSysmon.Registries.Maps

/-! # Interfaces, files and shell commands in memory

The three registries again, with what they allocate.  The strings of a file and of a shell
command are below the element and are freed with it.  The name of an interface is not: it is
allocated below `os`, and once the interface is gone nothing points to it.
-/

namespace OsmoSysmon

open CText Talloc Loop OrderedMap

/-- The registries whose elements are a name and, but for interfaces, a text. -/
inductive RecordKind where
  | netdev
  | file
  | shellcmd
deriving DecidableEq, Repr

inductive RegCell where
  /-- `struct netdev`, `struct osysmon_file` or `struct osysmon_shellcmd`, with `cfg.name` and
      `cfg.path` or `cfg.cmd`. -/
  | record (name text : Option Ptr)
  | str (text : CStr)

/-- The pointers in an object. -/
def RegCell.points : RegCell → List Ptr
  | .record name text => name.toList ++ text.toList
  | .str _ => []

structure RegMem where
  heap : Heap RegCell
  netdevs : List Ptr
  files : List Ptr
  shellcmds : List Ptr

namespace RegMem

def empty : RegMem where
  heap := Heap.empty
  netdevs := []
  files := []
  shellcmds := []

def list (mem : RegMem) : RecordKind → List Ptr
  | .netdev => mem.netdevs
  | .file => mem.files
  | .shellcmd => mem.shellcmds

def relink (mem : RegMem) (kind : RecordKind) (f : List Ptr → List Ptr) : RegMem :=
  match kind with
  | .netdev => { mem with netdevs := f mem.netdevs }
  | .file => { mem with files := f mem.files }
  | .shellcmd => { mem with shellcmds := f mem.shellcmds }

/-- Where a program starts to look for objects. -/
def roots (mem : RegMem) : List Ptr := mem.netdevs ++ mem.files ++ mem.shellcmds

end RegMem

abbrev RegM := StateT RegMem (Except Fault)

namespace RegM

/-! ## Memory -/

def load (p : Ptr) : RegM RegCell := do
  match (← get).heap.get? p with
  | some cell => return cell
  | none => throw .useAfterFree

def loadRecord (p : Ptr) : RegM (Option Ptr × Option Ptr) := do
  match ← load p with
  | .record name text => return (name, text)
  | .str _ => throw .typeConfusion

def loadStr : Option Ptr → RegM CStr
  | none => throw .nullPointer
  | some p => do
    match ← load p with
    | .str text => return text
    | .record _ _ => throw .typeConfusion

def store (p : Ptr) (cell : RegCell) : RegM Unit := do
  let _ ← load p
  modify fun mem => { mem with heap := mem.heap.set p cell }

def talloc (ctx : Option Ptr) (cell : RegCell) : RegM Ptr := do
  let mem ← get
  set { mem with heap := mem.heap.alloc ctx cell }
  return mem.heap.next

def tallocStrdup (ctx : Option Ptr) : Option CStr → RegM (Option Ptr)
  | none => return none
  | some text => do return some (← talloc ctx (.str text))

def tallocFree (p : Ptr) : RegM Unit := do
  let _ ← load p
  modify fun mem => { mem with heap := mem.heap.free p }

/-! ## Elements -/

/-- `llist_for_each_entry` with `strcmp`. -/
def findName (name : CStr) : List Ptr → RegM (Option Ptr)
  | [] => return none
  | p :: ps => do
    let (cfgName, _) ← loadRecord p
    if (← loadStr cfgName) == name then return some p
    else findName name ps

def find (kind : RecordKind) (name : CStr) : RegM (Option Ptr) := do
  findName name ((← get).list kind)

/-- What the strings of an element are allocated below; `none` is `os`. -/
def ctx (kind : RecordKind) (p : Ptr) : Option Ptr :=
  match kind with
  | .netdev => none
  | .file => some p
  | .shellcmd => some p

def add (kind : RecordKind) (name : CStr) (text : Option CStr) : RegM (Option Ptr) := do
  match ← find kind name with
  | some _ => return none
  | none =>
    let p ← talloc none (.record none none)
    let cfgName ← tallocStrdup (ctx kind p) (some name)
    let cfgText ← tallocStrdup (ctx kind p) text
    store p (.record cfgName cfgText)
    modify fun mem => mem.relink kind (· ++ [p])
    return some p

def destroy (kind : RecordKind) (p : Ptr) : RegM Unit := do
  modify fun mem => mem.relink kind (·.erase p)
  tallocFree p

def netdevFind : CStr → RegM (Option Ptr) := find .netdev

def netdevCreate (name : CStr) : RegM (Option Ptr) := add .netdev name none

def netdevDestroy : Ptr → RegM Unit := destroy .netdev

def osysmonFileFind : CStr → RegM (Option Ptr) := find .file

def osysmonFileAdd (name path : CStr) : RegM (Option Ptr) := add .file name (some path)

def osysmonFileDestroy : Ptr → RegM Unit := destroy .file

def osysmonShellcmdFind : CStr → RegM (Option Ptr) := find .shellcmd

def osysmonShellcmdAdd (name cmd : CStr) : RegM (Option Ptr) := add .shellcmd name (some cmd)

def osysmonShellcmdDestroy : Ptr → RegM Unit := destroy .shellcmd

/-! ## Commands -/

def cfgNetdev (name : CStr) : RegM CmdResult := do
  match ← netdevFind name with
  | some _ => return .success
  | none =>
    match ← netdevCreate name with
    | none => throw .abort
    | some _ => return .success

def cfgFile (name path : CStr) : RegM CmdResult := do
  return if (← osysmonFileAdd name path).isNone then .warning else .success

def cfgShellcmd (name concat : CStr) : RegM CmdResult := do
  return if (← osysmonShellcmdAdd name concat).isNone then .warning else .success

/-- The commands that remove an element. -/
def remove (find : RegM (Option Ptr)) (destroy : Ptr → RegM Unit) : RegM CmdResult := do
  match ← find with
  | none => return .warning
  | some p =>
    destroy p
    return .success

def cfgNoNetdev (name : CStr) : RegM CmdResult := remove (netdevFind name) netdevDestroy

def cfgNoFile (name : CStr) : RegM CmdResult := remove (osysmonFileFind name) osysmonFileDestroy

def cfgNoShellcmd (name : CStr) : RegM CmdResult :=
  remove (osysmonShellcmdFind name) osysmonShellcmdDestroy

end RegM

inductive RecordCommand where
  | netdev (name : CStr)
  | noNetdev (name : CStr)
  | file (name path : CStr)
  | noFile (name : CStr)
  | shellcmd (name concat : CStr)
  | noShellcmd (name : CStr)

namespace RecordCommand

def exec : RecordCommand → RegM CmdResult
  | .netdev name => RegM.cfgNetdev name
  | .noNetdev name => RegM.cfgNoNetdev name
  | .file name path => RegM.cfgFile name path
  | .noFile name => RegM.cfgNoFile name
  | .shellcmd name concat => RegM.cfgShellcmd name concat
  | .noShellcmd name => RegM.cfgNoShellcmd name

/-- The command as the registries without their strings get it. -/
def toReg : RecordCommand → RegCommand
  | .netdev name => .netdev name
  | .noNetdev name => .noNetdev name
  | .file name path => .file name path
  | .noFile name => .noFile name
  | .shellcmd name concat => .shellcmd name concat
  | .noShellcmd name => .noShellcmd name

end RecordCommand

/-! ## What is held -/

namespace RecordKind

def kind : RecordKind → Kind
  | .netdev => .netdev
  | .file => .file
  | .shellcmd => .shellcmd

def entry (name : CStr) (text : Option CStr) : RecordKind → Entry
  | .netdev => .netdev name
  | .file => .file ⟨name, text.getD []⟩
  | .shellcmd => .shellcmd ⟨name, text.getD []⟩

def key (name : CStr) : RecordKind → Key
  | .netdev => .netdev name
  | .file => .file name
  | .shellcmd => .shellcmd name

@[simp] theorem key_entry (kind : RecordKind) (name : CStr) (text : Option CStr) :
    (kind.entry name text).key = kind.key name := by
  cases kind <;> rfl

@[simp] theorem kind_key (kind : RecordKind) (name : CStr) : (kind.key name).kind = kind.kind := by
  cases kind <;> rfl

theorem key_inj {kind : RecordKind} {name name' : CStr} :
    kind.key name = kind.key name' ↔ name = name' := by
  cases kind <;> simp [key]

theorem kind_inj {kind kind' : RecordKind} : kind.kind = kind'.kind ↔ kind = kind' := by
  cases kind <;> cases kind' <;> simp [RecordKind.kind]

end RecordKind

/-- An element with its objects. -/
structure RegSlot where
  kind : RecordKind
  ptr : Ptr
  name : Ptr × CStr
  text : Option (Ptr × CStr)

namespace RegSlot

def cells (slot : RegSlot) : List Ptr := slot.ptr :: slot.name.1 :: slot.text.toList.map Prod.fst

def entry (slot : RegSlot) : Entry := slot.kind.entry slot.name.2 (slot.text.map Prod.snd)

/-- What is left when the element has been freed. -/
def rest (slot : RegSlot) : List (Ptr × CStr) := if slot.kind = .netdev then [slot.name] else []

structure Stored (heap : Heap RegCell) (slot : RegSlot) : Prop where
  record : heap.cell? slot.ptr = some ([], .record (some slot.name.1) (slot.text.map Prod.fst))
  name : heap.cell? slot.name.1 = some ((RegM.ctx slot.kind slot.ptr).toList, .str slot.name.2)
  text : ∀ t, slot.text = some t →
    heap.cell? t.1 = some ((RegM.ctx slot.kind slot.ptr).toList, .str t.2)
  hasText : slot.text = none ↔ slot.kind = .netdev

end RegSlot

/-- The elements of all three registries in the order in which they have been added, and what
    has been left of those that are gone. -/
structure RegMem.Ledger (mem : RegMem) (slots : List RegSlot) (lost : List (Ptr × CStr)) : Prop where
  lists : ∀ kind, mem.list kind = (slots.filter (·.kind = kind)).map RegSlot.ptr
  stored : ∀ slot ∈ slots, slot.Stored mem.heap
  strings : ∀ l ∈ lost, mem.heap.cell? l.1 = some ([], .str l.2)
  distinct : (slots.flatMap RegSlot.cells ++ lost.map Prod.fst).Nodup
  all : ∀ p, (mem.heap.get? p).isSome = true → p ∈ slots.flatMap RegSlot.cells ++ lost.map Prod.fst

/-! ## Finding -/

namespace RegM

section

variable {mem : RegMem} {p : Ptr} {os : List Ptr}

theorem load_ok {cell : RegCell} (here : mem.heap.cell? p = some (os, cell)) :
    load p mem = .ok (cell, mem) := by
  rw [load, bind_ok (get_ok mem), Heap.get?_of_cell here]
  rfl

theorem loadRecord_ok {name text : Option Ptr}
    (here : mem.heap.cell? p = some (os, .record name text)) :
    loadRecord p mem = .ok ((name, text), mem) := by
  rw [loadRecord, bind_ok (load_ok here)]
  rfl

theorem loadStr_ok {text : CStr} (here : mem.heap.cell? p = some (os, .str text)) :
    loadStr (some p) mem = .ok (text, mem) := by
  rw [loadStr, bind_ok (load_ok here)]
  rfl

theorem findName_ok {slots : List RegSlot} (stored : ∀ slot ∈ slots, slot.Stored mem.heap)
    (name : CStr) :
    findName name (slots.map RegSlot.ptr) mem =
      .ok ((slots.find? (·.name.2 == name)).map RegSlot.ptr, mem) := by
  induction slots with
  | nil => rfl
  | cons slot slots ih =>
    rw [List.forall_mem_cons] at stored
    rw [List.map_cons, findName]
    refine (bind_ok (loadRecord_ok stored.1.record) _).trans ?_
    refine (bind_ok (loadStr_ok stored.1.name) _).trans ?_
    rw [List.find?_cons]
    cases slot.name.2 == name with
    | true => rfl
    | false => exact ih stored.2

theorem find_ok {slots : List RegSlot} {lost : List (Ptr × CStr)} (ledger : mem.Ledger slots lost)
    (kind : RecordKind) (name : CStr) :
    find kind name mem =
      .ok (((slots.filter (·.kind = kind)).find? (·.name.2 == name)).map RegSlot.ptr, mem) := by
  rw [find, bind_ok (get_ok mem), ledger.lists]
  exact findName_ok (fun slot isSlot => ledger.stored slot (List.mem_of_mem_filter isSlot)) name

end

/-! ## Adding -/

/-- The memory when everything of an element has been allocated. -/
def filledHeap (kind : RecordKind) (name : CStr) (text : Option CStr) (h : Heap RegCell) :
    Heap RegCell :=
  let named := (h.alloc none (.record none none)).alloc (ctx kind h.next) (.str name)
  match text with
  | none => named
  | some text => named.alloc (ctx kind h.next) (.str text)

def addedHeap (kind : RecordKind) (name : CStr) (text : Option CStr) (h : Heap RegCell) :
    Heap RegCell :=
  (filledHeap kind name text h).set h.next
    (.record (some (h.next + 1)) (text.map fun _ => h.next + 2))

def newSlot (kind : RecordKind) (name : CStr) (text : Option CStr) (h : Heap RegCell) : RegSlot where
  kind := kind
  ptr := h.next
  name := (h.next + 1, name)
  text := text.map fun text => (h.next + 2, text)

theorem cell?_alloc_ctx {h : Heap RegCell} {p : Ptr} {cell : RegCell}
    (isOwner : h.cell? p = some ([], cell)) (kind : RecordKind) (value : RegCell) (q : Ptr) :
    (h.alloc (ctx kind p) value).cell? q =
      if q = h.next then some ((ctx kind p).toList, value) else h.cell? q := by
  cases kind with
  | netdev => exact Heap.cell?_alloc_top h value q
  | file | shellcmd => exact Heap.cell?_alloc isOwner value q

section

variable (kind : RecordKind) (name : CStr) (text : Option CStr) (h : Heap RegCell)

theorem cell?_addedHeap (q : Ptr) :
    (addedHeap kind name text h).cell? q =
      if q = h.next then some ([], .record (some (h.next + 1)) (text.map fun _ => h.next + 2))
      else if q = h.next + 1 then some ((ctx kind h.next).toList, .str name)
      else if q = h.next + 2 then text.map fun text => ((ctx kind h.next).toList, .str text)
      else h.cell? q := by
  have named (q : Ptr) :
      ((h.alloc none (.record none none)).alloc (ctx kind h.next) (.str name)).cell? q =
        if q = h.next + 1 then some ((ctx kind h.next).toList, .str name)
        else if q = h.next then some ([], .record none none)
        else h.cell? q := by
    have top : (h.alloc none (.record none none)).cell? h.next = some ([], .record none none) := by
      rw [Heap.cell?_alloc_top, if_pos rfl]
    rw [cell?_alloc_ctx top, Heap.cell?_alloc_top, Heap.next_alloc]
  have isOwner := named h.next
  rw [if_neg (Nat.ne_of_lt (Nat.lt_succ_self h.next)), if_pos rfl] at isOwner
  have beyond : h.cell? (h.next + 2) = none := Heap.cell?_of_ge (by omega)
  cases text with
  | none =>
    simp only [addedHeap, filledHeap, Heap.cell?_set, named, Option.map_none]
    split
    · simp [*]
    · split
      · rfl
      · split
        · simp [*]
        · rfl
  | some text =>
    simp only [addedHeap, filledHeap, Heap.cell?_set, cell?_alloc_ctx isOwner, named, Heap.next_alloc,
      Option.map_some]
    have apart : h.next ≠ h.next + 1 + 1 := Nat.ne_of_lt (by omega)
    split
    · next same => simp [same, apart]
    · split
      · simp [*]
      · simp [*]

end

section

variable {kind : RecordKind} {text : Option CStr}

theorem cells_newSlot (name : CStr) (h : Heap RegCell) :
    (newSlot kind name text h).cells =
      h.next :: (h.next + 1) :: (text.map fun _ => h.next + 2).toList := by
  cases text <;> rfl

theorem nodup_newSlot (kind : RecordKind) (name : CStr) (text : Option CStr) (h : Heap RegCell) :
    (newSlot kind name text h).cells.Nodup := by
  rw [cells_newSlot]
  cases text <;> simp

theorem next_le_newSlot {name : CStr} {h : Heap RegCell} {q : Ptr}
    (isNew : q ∈ (newSlot kind name text h).cells) : h.next ≤ q := by
  have offset : ∃ n, q = h.next + n := by
    rw [cells_newSlot] at isNew
    cases text with
    | none =>
      simp at isNew
      exact isNew.elim (⟨0, ·⟩) (⟨1, ·⟩)
    | some text =>
      simp at isNew
      rcases isNew with isNew | isNew | isNew
      · exact ⟨0, isNew⟩
      · exact ⟨1, isNew⟩
      · exact ⟨2, isNew⟩
  obtain ⟨n, rfl⟩ := offset
  exact Nat.le_add_right h.next n

/-- The rest of the memory is as before. -/
theorem cell?_addedHeap_old {name : CStr} {h : Heap RegCell} {q : Ptr}
    (isOld : q ∉ (newSlot kind name text h).cells) :
    (addedHeap kind name text h).cell? q = h.cell? q := by
  rw [cells_newSlot] at isOld
  rw [cell?_addedHeap]
  cases text with
  | none =>
    simp at isOld
    have beyond : h.cell? (h.next + 2) = none := Heap.cell?_of_ge (by omega)
    simp only [isOld.1, isOld.2, if_false, Option.map_none]
    split
    · simp [*]
    · rfl
  | some text =>
    simp at isOld
    simp [isOld.1, isOld.2.1, isOld.2.2]

theorem stored_newSlot (name : CStr) (h : Heap RegCell) (hasText : text = none ↔ kind = .netdev) :
    (newSlot kind name text h).Stored (addedHeap kind name text h) where
  record := by
    rw [cell?_addedHeap]
    cases text <;> simp [newSlot]
  name := by
    rw [cell?_addedHeap]
    simp [newSlot]
  text t isText := by
    rw [cell?_addedHeap]
    cases text with
    | none => cases isText
    | some text =>
      cases isText
      simp [newSlot]
  hasText := by
    rw [newSlot, Option.map_eq_none_iff]
    exact hasText

end

end RegM

namespace RegMem

@[simp] theorem list_relink (mem : RegMem) (kind other : RecordKind) (f : List Ptr → List Ptr) :
    (mem.relink kind f).list other = if other = kind then f (mem.list kind) else mem.list other := by
  cases kind <;> cases other <;> rfl

@[simp] theorem heap_relink (mem : RegMem) (kind : RecordKind) (f : List Ptr → List Ptr) :
    (mem.relink kind f).heap = mem.heap := by
  cases kind <;> rfl

@[simp] theorem list_heap (mem : RegMem) (heap : Heap RegCell) (kind : RecordKind) :
    ({ mem with heap } : RegMem).list kind = mem.list kind := by
  cases kind <;> rfl

end RegMem

theorem RegSlot.Stored.frame {heap heap' : Heap RegCell} {slot : RegSlot}
    (stored : slot.Stored heap) (same : ∀ q ∈ slot.cells, heap'.cell? q = heap.cell? q) :
    slot.Stored heap' where
  record := by rw [same _ (by simp [cells]), stored.record]
  name := by rw [same _ (by simp [cells]), stored.name]
  text t isText := by rw [same _ (by simp [cells, isText]), stored.text t isText]
  hasText := stored.hasText

/-- Only the element itself is above an object of an element. -/
theorem RegSlot.Stored.allocated {heap : Heap RegCell} {slot : RegSlot} (stored : slot.Stored heap)
    {q : Ptr} (inCells : q ∈ slot.cells) :
    ∃ os c, heap.cell? q = some (os, c) ∧ ∀ o ∈ os, o = slot.ptr := by
  have above : ∀ o ∈ (RegM.ctx slot.kind slot.ptr).toList, o = slot.ptr := by
    cases slot.kind <;> simp [RegM.ctx]
  rw [cells, List.mem_cons, List.mem_cons, List.mem_map] at inCells
  rcases inCells with rfl | rfl | ⟨t, isText, rfl⟩
  · exact ⟨_, _, stored.record, by simp⟩
  · exact ⟨_, _, stored.name, above⟩
  · exact ⟨_, _, stored.text t (Option.mem_toList.mp isText), above⟩

namespace RegMem.Ledger

variable {mem : RegMem} {slots : List RegSlot} {lost : List (Ptr × CStr)}

theorem allocated (ledger : mem.Ledger slots lost) {q : Ptr}
    (isCell : q ∈ slots.flatMap RegSlot.cells ++ lost.map Prod.fst) :
    ∃ c, mem.heap.cell? q = some c := by
  rcases List.mem_append.mp isCell with inSlot | isLost
  · obtain ⟨slot, isSlot, inCells⟩ := List.mem_flatMap.mp inSlot
    obtain ⟨os, c, cell, -⟩ := (ledger.stored slot isSlot).allocated inCells
    exact ⟨_, cell⟩
  · obtain ⟨l, isString, rfl⟩ := List.mem_map.mp isLost
    exact ⟨_, ledger.strings l isString⟩

theorem lt_next (ledger : mem.Ledger slots lost) {q : Ptr}
    (isCell : q ∈ slots.flatMap RegSlot.cells ++ lost.map Prod.fst) : q < mem.heap.next := by
  obtain ⟨c, cell⟩ := ledger.allocated isCell
  by_contra new
  rw [Heap.cell?_of_ge (Nat.le_of_not_lt new)] at cell
  cases cell

theorem added (ledger : mem.Ledger slots lost) (kind : RecordKind) (name : CStr)
    {text : Option CStr} (hasText : text = none ↔ kind = .netdev) :
    Ledger (({ mem with heap := RegM.addedHeap kind name text mem.heap } : RegMem).relink kind
      (· ++ [mem.heap.next])) (slots ++ [RegM.newSlot kind name text mem.heap]) lost := by
  have cells := RegM.cell?_addedHeap kind name text mem.heap
  have old {q : Ptr} (isCell : q ∈ slots.flatMap RegSlot.cells ++ lost.map Prod.fst) :
      (RegM.addedHeap kind name text mem.heap).cell? q = mem.heap.cell? q := by
    have before := ledger.lt_next isCell
    rw [cells, if_neg (Nat.ne_of_lt before), if_neg (Nat.ne_of_lt (Nat.lt_succ_of_lt before)),
      if_neg (Nat.ne_of_lt (Nat.lt_add_right 2 before))]
  constructor
  · intro other
    by_cases same : other = kind
    · simp [same, ledger.lists, RegM.newSlot]
    · simp [same, ledger.lists, RegM.newSlot, Ne.symm same]
  · intro slot isSlot
    rw [heap_relink]
    rcases List.mem_append.mp isSlot with isOld | isNew
    · refine (ledger.stored slot isOld).frame fun q inCells => old ?_
      exact List.mem_append_left _ (List.mem_flatMap.mpr ⟨slot, isOld, inCells⟩)
    · rw [List.mem_singleton.mp isNew]
      exact RegM.stored_newSlot name mem.heap hasText
  · intro l isLost
    rw [heap_relink, old (List.mem_append_right _ (List.mem_map_of_mem isLost))]
    exact ledger.strings l isLost
  · rw [List.flatMap_append, List.append_assoc, List.flatMap_singleton,
      (List.perm_append_comm.append_left _).nodup_iff, ← List.append_assoc, List.nodup_append]
    refine ⟨ledger.distinct, RegM.nodup_newSlot kind name text mem.heap, ?_⟩
    intro q isOld q' isNew same
    have before := ledger.lt_next isOld
    have after := RegM.next_le_newSlot isNew
    rw [same] at before
    exact Nat.not_lt_of_le after before
  · intro p isSome
    rw [heap_relink] at isSome
    rw [List.flatMap_append, List.flatMap_singleton]
    by_cases isNew : p ∈ (RegM.newSlot kind name text mem.heap).cells
    · simp [isNew]
    · have isOld : (mem.heap.get? p).isSome = true := by
        rw [Heap.get?_eq_cell?, RegM.cell?_addedHeap_old isNew] at isSome
        rwa [Heap.get?_eq_cell?]
      have known := ledger.all p isOld
      grind

end RegMem.Ledger

/-! ## Removing -/

theorem RegSlot.Stored.survivors {heap : Heap RegCell} {slot : RegSlot} (stored : slot.Stored heap)
    {q : Ptr} (inCells : q ∈ slot.cells) {c : List Nat × RegCell}
    (cell : (heap.free slot.ptr).cell? q = some c) : q ∈ slot.rest.map Prod.fst := by
  obtain ⟨before, notFreed, notBelow⟩ := Heap.cell_of_free cell
  have isNetdev {os : List Nat} {v : RegCell} (isOwned : os = (RegM.ctx slot.kind slot.ptr).toList)
      (here : heap.cell? q = some (os, v)) : slot.kind = .netdev := by
    rw [here] at before
    cases before
    rw [isOwned] at notBelow
    cases isKind : slot.kind with
    | netdev => rfl
    | file | shellcmd => simp [isKind, RegM.ctx] at notBelow
  rw [cells, List.mem_cons, List.mem_cons, List.mem_map] at inCells
  rcases inCells with rfl | rfl | ⟨t, isText, rfl⟩
  · exact absurd rfl notFreed
  · simp [rest, isNetdev rfl stored.name]
  · have isText := Option.mem_toList.mp isText
    rw [stored.hasText.mpr (isNetdev rfl (stored.text t isText))] at isText
    cases isText

theorem RegSlot.rest_sublist (slot : RegSlot) : List.Sublist (slot.rest.map Prod.fst) slot.cells := by
  rw [rest, cells]
  split
  · simp
  · simp

namespace RegMem.Ledger

variable {mem : RegMem} {before after : List RegSlot} {slot : RegSlot} {lost : List (Ptr × CStr)}

theorem removed (ledger : mem.Ledger (before ++ slot :: after) lost) :
    Ledger { mem.relink slot.kind (·.erase slot.ptr) with heap := mem.heap.free slot.ptr }
      (before ++ after) (lost ++ slot.rest) := by
  have isSlot : slot ∈ before ++ slot :: after := by simp
  have stored := ledger.stored slot isSlot
  have distinct := ledger.distinct
  rw [List.flatMap_append, List.flatMap_cons] at distinct
  have apart {q : Ptr} (isCell : q ∈ (before ++ after).flatMap RegSlot.cells ++ lost.map Prod.fst) :
      q ≠ slot.ptr := by
    rintro rfl
    have isPtr : slot.ptr ∈ slot.cells := by simp [RegSlot.cells]
    grind [List.nodup_append]
  have ptrs : slot.ptr ∉ (before.filter (·.kind = slot.kind)).map RegSlot.ptr := by
    intro isMem
    obtain ⟨other, isOther, same⟩ := List.mem_map.mp isMem
    have inCells : other.ptr ∈ other.cells := by simp [RegSlot.cells]
    refine apart ?_ same
    simp only [List.mem_append, List.mem_flatMap]
    exact .inl ⟨other, .inl (List.mem_of_mem_filter isOther), inCells⟩
  constructor
  · intro other
    rw [list_heap, list_relink]
    by_cases same : other = slot.kind
    · simp [same, ledger.lists, List.erase_append_right _ ptrs]
    · simp [same, ledger.lists, Ne.symm same]
  · intro other isOther
    refine (ledger.stored other (by grind)).frame fun q inCells => ?_
    obtain ⟨os, c, cell, above⟩ := (ledger.stored other (by grind)).allocated inCells
    have notPtr {q : Ptr} (inCells : q ∈ other.cells) : q ≠ slot.ptr :=
      apart (List.mem_append_left _ (List.mem_flatMap.mpr ⟨other, isOther, inCells⟩))
    have outside : slot.ptr ∉ os := by
      intro isAbove
      exact notPtr (by simp [RegSlot.cells]) (above _ isAbove).symm
    rw [cell, Heap.cell_free cell (notPtr inCells) outside]
  · intro l isLost
    rcases List.mem_append.mp isLost with isOld | isRest
    · refine Heap.cell_free (ledger.strings l isOld) (apart ?_) List.not_mem_nil
      exact List.mem_append_right _ (List.mem_map_of_mem isOld)
    · have other : slot.name.1 ≠ slot.ptr := by
        have nodup : slot.cells.Nodup := by grind [List.nodup_append]
        rw [RegSlot.cells, List.nodup_cons] at nodup
        exact fun same => nodup.1 (by simp [same])
      rw [RegSlot.rest] at isRest
      split at isRest
      · next isNetdev =>
        have name := stored.name
        rw [isNetdev] at name
        rw [List.mem_singleton.mp isRest]
        exact Heap.cell_free name other List.not_mem_nil
      · cases isRest
  · have moved : List.Perm ((before ++ after).flatMap RegSlot.cells ++ (lost ++ slot.rest).map Prod.fst)
        (before.flatMap RegSlot.cells ++ (slot.rest.map Prod.fst ++ after.flatMap RegSlot.cells) ++
          lost.map Prod.fst) := by
      rw [List.perm_iff_count]
      intro q
      simp only [List.flatMap_append, List.map_append, List.count_append]
      omega
    refine moved.nodup_iff.mpr (distinct.sublist ?_)
    exact ((slot.rest_sublist.append_right _).append_left _).append_right _
  · intro p isSome
    rw [Heap.get?_eq_cell?, Option.isSome_map, Option.isSome_iff_exists] at isSome
    obtain ⟨c, cell⟩ := isSome
    have known := ledger.all p (by rw [Heap.get?_eq_cell?, (Heap.cell_of_free cell).1]; rfl)
    have left := fun inCells => stored.survivors (q := p) inCells cell
    rw [List.flatMap_append, List.flatMap_cons] at known
    rw [List.flatMap_append, List.map_append]
    grind

end RegMem.Ledger

/-! ## What the maps hold -/

/-- The maps hold the elements, and the names that are left of interfaces are known. -/
def RegMem.Holds (mem : RegMem) (maps : Kind → OrderedMap Entry.key) (names : List CStr) : Prop :=
  ∃ slots lost, mem.Ledger slots lost ∧ lost.map Prod.snd = names ∧
    ∀ kind : RecordKind,
      (maps kind.kind).entries = (slots.filter (·.kind = kind)).map RegSlot.entry

theorem RegMem.holds_empty : RegMem.empty.Holds (fun _ => OrderedMap.empty) [] := by
  refine ⟨[], [], ⟨?_, ?_, ?_, ?_, ?_⟩, rfl, fun _ => rfl⟩
  · intro kind
    cases kind <;> rfl
  · simp
  · simp
  · simp
  · intro p isSome
    rw [RegMem.empty, Heap.get?_eq_cell?, Heap.cell?_empty] at isSome
    cases isSome

namespace RegM

section

variable {mem : RegMem} {maps : Kind → OrderedMap Entry.key} {names : List CStr}

theorem held_eq {slots : List RegSlot}
    (isMap : ∀ kind : RecordKind,
      (maps kind.kind).entries = (slots.filter (·.kind = kind)).map RegSlot.entry)
    (kind : RecordKind) (name : CStr) :
    Registries.held maps (kind.key name) =
      ((slots.filter (·.kind = kind)).find? (·.name.2 == name)).map RegSlot.entry := by
  rw [Registries.held, RecordKind.kind_key, OrderedMap.find?, isMap, List.find?_map]
  congr 1
  apply List.find?_congr
  intro slot isSlot
  have isKind : slot.kind = kind := by simpa using (List.mem_filter.mp isSlot).2
  rw [Function.comp, RegSlot.entry, RecordKind.key_entry, isKind, Bool.eq_iff_iff, beq_iff_eq,
    beq_iff_eq, RecordKind.key_inj]

/-- Looking for a name finds what the maps hold. -/
theorem find_held (holds : mem.Holds maps names) (kind : RecordKind) (name : CStr) :
    ∃ found, find kind name mem = .ok (found, mem) ∧
      (found = none ↔ Registries.held maps (kind.key name) = none) := by
  obtain ⟨slots, lost, ledger, -, isMap⟩ := holds
  refine ⟨_, find_ok ledger kind name, ?_⟩
  rw [held_eq isMap, Option.map_eq_none_iff, Option.map_eq_none_iff]

/-- A name that is taken adds nothing. -/
theorem add_taken (holds : mem.Holds maps names) {kind : RecordKind} {name : CStr}
    (taken : Registries.held maps (kind.key name) ≠ none) (text : Option CStr) :
    add kind name text mem = .ok (none, mem) := by
  obtain ⟨found, run, isFound⟩ := find_held holds kind name
  rw [add, bind_ok run]
  cases found with
  | none => exact absurd (isFound.mp rfl) taken
  | some p => rfl

theorem talloc_ok (ctx : Option Ptr) (cell : RegCell) (mem : RegMem) :
    talloc ctx cell mem =
      .ok (mem.heap.next, { mem with heap := mem.heap.alloc ctx cell }) := rfl

theorem tallocStrdup_ok (ctx : Option Ptr) (text : CStr) (mem : RegMem) :
    tallocStrdup ctx (some text) mem =
      .ok (some mem.heap.next, { mem with heap := mem.heap.alloc ctx (.str text) }) := rfl

theorem tallocStrdup_none (ctx : Option Ptr) (mem : RegMem) :
    tallocStrdup ctx none mem = .ok (none, mem) := rfl

theorem store_ok {p : Ptr} {c : List Nat × RegCell} (here : mem.heap.cell? p = some c)
    (cell : RegCell) :
    store p cell mem = .ok ((), { mem with heap := mem.heap.set p cell }) := by
  rw [store, bind_ok (load_ok here)]
  rfl

theorem add_new (holds : mem.Holds maps names) {kind : RecordKind} {name : CStr}
    {text : Option CStr} (hasText : text = none ↔ kind = .netdev)
    (new : Registries.held maps (kind.key name) = none) :
    ∃ p mem', add kind name text mem = .ok (some p, mem') ∧
      mem'.Holds (Function.update maps kind.kind ((maps kind.kind).put (kind.entry name text)))
        names := by
  obtain ⟨found, run, isFound⟩ := find_held holds kind name
  obtain ⟨slots, lost, ledger, isLost, isMap⟩ := holds
  refine ⟨mem.heap.next, _, ?_, _, _, ledger.added kind name hasText, isLost, ?_⟩
  · have record := (stored_newSlot name mem.heap hasText).record
    cases found with
    | some p => exact absurd (isFound.mpr new) (by simp)
    | none =>
      obtain ⟨b, isOwner⟩ := Heap.cell_of_set record
      have filled : store mem.heap.next (.record (some (mem.heap.next + 1))
            (text.map fun _ => mem.heap.next + 2))
          { mem with heap := filledHeap kind name text mem.heap } =
          .ok ((), { mem with heap := addedHeap kind name text mem.heap }) := store_ok isOwner _
      rw [add, bind_ok run]
      refine (bind_ok (talloc_ok none _ mem) _).trans ?_
      refine (bind_ok (tallocStrdup_ok (ctx kind mem.heap.next) name _) _).trans ?_
      cases text with
      | none =>
        refine (bind_ok (tallocStrdup_none (ctx kind mem.heap.next) _) _).trans ?_
        exact (bind_ok filled _).trans rfl
      | some text =>
        refine (bind_ok (tallocStrdup_ok (ctx kind mem.heap.next) text _) _).trans ?_
        exact (bind_ok filled _).trans rfl
  · intro other
    by_cases same : other = kind
    · have new : kind.key name ∉ (maps kind.kind).keys := by
        rw [← OrderedMap.find?_eq_none_iff]
        rwa [Registries.held, RecordKind.kind_key] at new
      rw [same, Function.update_self, OrderedMap.entries_put_new (by simpa using new), isMap]
      cases text <;> simp [newSlot, RegSlot.entry]
    · rw [Function.update_of_ne (mt RecordKind.kind_inj.mp same), isMap]
      simp [newSlot, Ne.symm same]

theorem tallocFree_ok {p : Ptr} {c : List Nat × RegCell} (here : mem.heap.cell? p = some c) :
    tallocFree p mem = .ok ((), { mem with heap := mem.heap.free p }) := by
  rw [tallocFree, bind_ok (load_ok here)]
  rfl

theorem destroy_ok (kind : RecordKind) {p : Ptr} {c : List Nat × RegCell}
    (here : mem.heap.cell? p = some c) :
    destroy kind p mem =
      .ok ((), { mem.relink kind (·.erase p) with heap := mem.heap.free p }) := by
  have freed : tallocFree p (mem.relink kind (·.erase p)) = _ := tallocFree_ok (by simpa using here)
  rw [RegMem.heap_relink] at freed
  exact freed

/-- The commands that remove an element. -/
theorem remove_held (holds : mem.Holds maps names) (kind : RecordKind) (name : CStr) :
    (Registries.held maps (kind.key name) = none ∧
        remove (find kind name) (destroy kind) mem = .ok (.warning, mem)) ∨
      Registries.held maps (kind.key name) ≠ none ∧
        ∃ mem', remove (find kind name) (destroy kind) mem = .ok (.success, mem') ∧
          mem'.Holds (Function.update maps kind.kind ((maps kind.kind).drop (kind.key name)))
            (names ++ if kind = .netdev then [name] else []) := by
  obtain ⟨slots, lost, ledger, isLost, isMap⟩ := holds
  have run := find_ok ledger kind name
  rw [held_eq isMap]
  cases found : (slots.filter (·.kind = kind)).find? (·.name.2 == name) with
  | none =>
    rw [found] at run
    exact .inl ⟨rfl, bind_ok run _⟩
  | some slot =>
    rw [found] at run
    have isName : slot.name.2 = name := by simpa using List.find?_some found
    obtain ⟨isSlot, isKind⟩ := List.mem_filter.mp (List.mem_of_find?_eq_some found)
    have isKind : slot.kind = kind := by simpa using isKind
    obtain ⟨before, after, rfl⟩ := List.append_of_mem isSlot
    subst isKind
    refine .inr ⟨by simp, _, ?_, _, _, ledger.removed, ?_, ?_⟩
    · rw [remove]
      refine (bind_ok run _).trans ?_
      exact (bind_ok (destroy_ok slot.kind (ledger.stored slot (by simp)).record) _).trans rfl
    · rw [List.map_append, isLost, RegSlot.rest, ← isName]
      split <;> rfl
    · intro other
      by_cases same : other = slot.kind
      · subst same
        have here := isMap slot.kind
        rw [List.filter_append, List.filter_cons_of_pos (by simp), List.map_append,
          List.map_cons] at here
        have isKey : slot.kind.key name = slot.entry.key := by
          rw [RegSlot.entry, RecordKind.key_entry, isName]
        rw [Function.update_self, isKey, OrderedMap.entries_drop here, List.filter_append,
          List.map_append]
      · rw [Function.update_of_ne (mt RecordKind.kind_inj.mp same), isMap]
        simp [Ne.symm same]

end

end RegM

/-! ## Commands and what they do to the maps -/

namespace RecordCommand

def accepts (maps : Kind → OrderedMap Entry.key) : RecordCommand → Bool
  | .netdev _ => true
  | .noNetdev name => (Registries.held maps (.netdev name)).isSome
  | .file name _ => (Registries.held maps (.file name)).isNone
  | .noFile name => (Registries.held maps (.file name)).isSome
  | .shellcmd name _ => (Registries.held maps (.shellcmd name)).isNone
  | .noShellcmd name => (Registries.held maps (.shellcmd name)).isSome

/-- What is left of an element that is gone. -/
def loses : RecordCommand → List CStr
  | .noNetdev name => [name]
  | _ => []

/-- The command on the maps, and on the names that are left. -/
def onMaps (command : RecordCommand) (t : (Kind → OrderedMap Entry.key) × List CStr) :
    CmdResult × (Kind → OrderedMap Entry.key) × List CStr :=
  if command.accepts t.1 then
    (.success, Registries.changed t.1 command.toReg, t.2 ++ command.loses)
  else (.warning, t)

theorem onMaps_accepted {command : RecordCommand} {maps : Kind → OrderedMap Entry.key}
    (accepted : command.accepts maps = true) (names : List CStr) :
    command.onMaps (maps, names) =
      (.success, Registries.changed maps command.toReg, names ++ command.loses) := if_pos accepted

theorem onMaps_refused {command : RecordCommand} {maps : Kind → OrderedMap Entry.key}
    (refused : command.accepts maps = false) (names : List CStr) :
    command.onMaps (maps, names) = (.warning, maps, names) := by
  rw [onMaps, if_neg (by simp [refused])]

theorem refused_iff (command : RecordCommand) (maps : Kind → OrderedMap Entry.key) :
    command.toReg.Refused (Registries.held maps) ↔ command.accepts maps = false := by
  cases command <;> simp [toReg, RegCommand.Refused, accepts, Option.isSome_iff_ne_none]

end RecordCommand

/-- The registries without their strings do what is done to the maps. -/
theorem Registries.simulates_maps :
    Simulation.Simulates (fun s t => Stores s t.1)
      (fun (command : RecordCommand) => Registries.exec command.toReg) RecordCommand.onMaps := by
  rintro command s ⟨maps, names⟩ stores
  obtain ⟨result, t, run, obeys⟩ := exec_obeys stores command.toReg
  have now := obeys.stores
  show ∃ s', exec command.toReg s = _ ∧ _
  rcases obeys.verdict with ⟨rfl, refused⟩ | ⟨rfl, accepted⟩
  · rw [RecordCommand.onMaps_refused ((command.refused_iff maps).mp refused)]
    exact ⟨t, run, now⟩
  · rw [command.refused_iff maps, Bool.not_eq_false] at accepted
    rw [RecordCommand.onMaps_accepted accepted]
    exact ⟨t, run, now⟩

namespace RegM

section

variable {mem : RegMem} {maps : Kind → OrderedMap Entry.key} {names : List CStr}

/-- The commands that add a file or a shell command. -/
theorem add_held (holds : mem.Holds maps names) {kind : RecordKind} (notNetdev : kind ≠ .netdev)
    (name text : CStr) :
    ((Registries.held maps (kind.key name)).isNone = false ∧
        add kind name (some text) mem = .ok (none, mem)) ∨
      (Registries.held maps (kind.key name)).isNone = true ∧
        ∃ p mem', add kind name (some text) mem = .ok (some p, mem') ∧
          mem'.Holds
            (Function.update maps kind.kind ((maps kind.kind).put (kind.entry name (some text))))
            names := by
  cases isHeld : Registries.held maps (kind.key name) with
  | some entry => exact .inl ⟨rfl, add_taken holds (by simp [isHeld]) _⟩
  | none => exact .inr ⟨rfl, add_new holds (by simp [notNetdev]) isHeld⟩

theorem cfgNetdev_held (holds : mem.Holds maps names) (name : CStr) :
    ∃ mem', cfgNetdev name mem = .ok (.success, mem') ∧
      mem'.Holds (Registries.changed maps (.netdev name)) names := by
  obtain ⟨found, run, isFound⟩ := find_held holds .netdev name
  cases found with
  | none =>
    have hasText : (none : Option CStr) = none ↔ RecordKind.netdev = .netdev := by simp
    obtain ⟨p, mem', added, holds'⟩ := add_new holds hasText (isFound.mp rfl)
    refine ⟨mem', ?_, holds'⟩
    rw [cfgNetdev]
    refine (bind_ok run _).trans ?_
    exact (bind_ok added _).trans rfl
  | some p =>
    have isHeld : Registries.held maps (.netdev name) = some (.netdev name) := by
      obtain ⟨there, isHeld⟩ := Option.ne_none_iff_exists'.mp (mt isFound.mpr (by simp))
      have isKey := (OrderedMap.key_of_find? isHeld).2
      rw [show RecordKind.netdev.key name = .netdev name from rfl] at isKey isHeld
      rw [isHeld]
      cases there with
      | netdev cfgName =>
        rw [Entry.key, Key.netdev.injEq] at isKey
        rw [isKey]
      | ctrlClient _ | openvpnClient _ | file _ | shellcmd _ => cases isKey
    have same : Registries.changed maps (.netdev name) = maps := by
      have there : (maps .netdev).find? (Entry.key (.netdev name)) = some (.netdev name) := isHeld
      show Function.update maps .netdev ((maps .netdev).put (.netdev name)) = maps
      rw [OrderedMap.put_of_find? there, Function.update_eq_self]
    rw [same]
    refine ⟨mem, ?_, holds⟩
    rw [cfgNetdev]
    exact (bind_ok run _).trans rfl

end

end RegM

/-- The command does in memory what it does to the maps. -/
def RecordCommand.Follows (command : RecordCommand) (mem : RegMem)
    (maps : Kind → OrderedMap Entry.key) (names : List CStr) : Prop :=
  ∃ mem', command.exec mem = .ok ((command.onMaps (maps, names)).1, mem') ∧
    mem'.Holds (command.onMaps (maps, names)).2.1 (command.onMaps (maps, names)).2.2

namespace RecordCommand

variable {mem mem' : RegMem} {maps : Kind → OrderedMap Entry.key} {names : List CStr}

theorem Follows.of_accepted {command : RecordCommand} (accepted : command.accepts maps = true)
    (run : command.exec mem = .ok (.success, mem'))
    (holds : mem'.Holds (Registries.changed maps command.toReg) (names ++ command.loses)) :
    command.Follows mem maps names := by
  rw [Follows, onMaps_accepted accepted]
  exact ⟨mem', run, holds⟩

theorem Follows.of_refused {command : RecordCommand} (refused : command.accepts maps = false)
    (run : command.exec mem = .ok (.warning, mem)) (holds : mem.Holds maps names) :
    command.Follows mem maps names := by
  rw [Follows, onMaps_refused refused]
  exact ⟨mem, run, holds⟩

theorem Follows.of_remove (holds : mem.Holds maps names) {command : RecordCommand}
    (kind : RecordKind) (name : CStr)
    (isRemove : command.exec = RegM.remove (RegM.find kind name) (RegM.destroy kind))
    (accepts : command.accepts maps = (Registries.held maps (kind.key name)).isSome)
    (changes : Registries.changed maps command.toReg =
      Function.update maps kind.kind ((maps kind.kind).drop (kind.key name)))
    (loses : command.loses = if kind = .netdev then [name] else []) :
    command.Follows mem maps names := by
  rcases RegM.remove_held holds kind name with ⟨isNone, run⟩ | ⟨isSome, mem', run, holds'⟩
  · exact .of_refused (by simp [accepts, isNone]) (by rw [isRemove, run]) holds
  · refine .of_accepted (by simpa [accepts, Option.isSome_iff_ne_none] using isSome)
      (by rw [isRemove, run]) ?_
    rwa [changes, loses]

theorem Follows.of_add (holds : mem.Holds maps names) {command : RecordCommand}
    {kind : RecordKind} (notNetdev : kind ≠ .netdev) (name text : CStr)
    (isAdd : command.exec = do
      return if (← RegM.add kind name (some text)).isNone then .warning else .success)
    (accepts : command.accepts maps = (Registries.held maps (kind.key name)).isNone)
    (changes : Registries.changed maps command.toReg =
      Function.update maps kind.kind ((maps kind.kind).put (kind.entry name (some text))))
    (loses : command.loses = []) :
    command.Follows mem maps names := by
  rcases RegM.add_held holds notNetdev name text with
    ⟨taken, run⟩ | ⟨free, p, mem', run, holds'⟩
  · refine .of_refused (accepts.trans taken) ?_ holds
    rw [isAdd]
    exact (bind_ok run _).trans rfl
  · have ran : command.exec mem = .ok (.success, mem') := by
      rw [isAdd]
      exact (bind_ok run _).trans rfl
    refine .of_accepted (accepts.trans free) ran ?_
    rwa [changes, loses, List.append_nil]

end RecordCommand

theorem RegM.simulates_maps :
    Simulation.Simulates (fun (mem : RegMem) t => mem.Holds t.1 t.2) RecordCommand.exec
      RecordCommand.onMaps := by
  rintro command mem ⟨maps, names⟩ holds
  show command.Follows mem maps names
  cases command with
  | netdev name =>
    obtain ⟨mem', run, holds'⟩ := cfgNetdev_held holds name
    refine .of_accepted rfl run ?_
    rw [show (RecordCommand.netdev name).loses = [] from rfl, List.append_nil]
    exact holds'
  | file name path =>
    have notNetdev : RecordKind.file ≠ .netdev := by simp
    exact .of_add holds notNetdev name path rfl rfl rfl rfl
  | shellcmd name concat =>
    have notNetdev : RecordKind.shellcmd ≠ .netdev := by simp
    exact .of_add holds notNetdev name concat rfl rfl rfl rfl
  | noNetdev name => exact .of_remove holds .netdev name rfl rfl rfl rfl
  | noFile name => exact .of_remove holds .file name rfl rfl rfl rfl
  | noShellcmd name => exact .of_remove holds .shellcmd name rfl rfl rfl rfl

/-! ## What can be reached -/

namespace RegMem

/-- The data of an element, read from the memory. -/
def data? (mem : RegMem) (kind : RecordKind) (p : Ptr) : Option Entry := do
  let .record (some namePtr) textPtr ← mem.heap.get? p | none
  let .str name ← mem.heap.get? namePtr | none
  match kind, textPtr with
  | .netdev, none => return .netdev name
  | .file, some textPtr =>
    let .str path ← mem.heap.get? textPtr | none
    return .file ⟨name, path⟩
  | .shellcmd, some textPtr =>
    let .str cmd ← mem.heap.get? textPtr | none
    return .shellcmd ⟨name, cmd⟩
  | _, _ => none

namespace Ledger

variable {mem : RegMem} {slots : List RegSlot} {lost : List (Ptr × CStr)}

theorem mem_roots (ledger : mem.Ledger slots lost) {p : Ptr} :
    p ∈ mem.roots ↔ ∃ slot ∈ slots, slot.ptr = p := by
  have isRoot : p ∈ mem.roots ↔ ∃ kind, p ∈ mem.list kind := by
    rw [roots, List.mem_append, List.mem_append]
    constructor
    · rintro ((isRoot | isRoot) | isRoot)
      · exact ⟨.netdev, isRoot⟩
      · exact ⟨.file, isRoot⟩
      · exact ⟨.shellcmd, isRoot⟩
    · rintro ⟨kind, isRoot⟩
      cases kind with
      | netdev => exact .inl (.inl isRoot)
      | file => exact .inl (.inr isRoot)
      | shellcmd => exact .inr isRoot
  simp [isRoot, ledger.lists]

theorem reach_iff (ledger : mem.Ledger slots lost) {p : Ptr} :
    mem.heap.Reach RegCell.points mem.roots p ↔ p ∈ slots.flatMap RegSlot.cells := by
  constructor
  · intro reach
    induction reach with
    | root isRoot =>
      obtain ⟨slot, isSlot, rfl⟩ := ledger.mem_roots.mp isRoot
      exact List.mem_flatMap.mpr ⟨slot, isSlot, by simp [RegSlot.cells]⟩
    | @follow p q a reach here points ih =>
      obtain ⟨slot, isSlot, inCells⟩ := List.mem_flatMap.mp ih
      have stored := ledger.stored slot isSlot
      rw [RegSlot.cells, List.mem_cons, List.mem_cons, List.mem_map] at inCells
      refine List.mem_flatMap.mpr ⟨slot, isSlot, ?_⟩
      rcases inCells with rfl | rfl | ⟨t, isText, rfl⟩
      · rw [Heap.get?_of_cell stored.record] at here
        cases here
        cases isText : slot.text <;> simp_all [RegCell.points, RegSlot.cells]
      · rw [Heap.get?_of_cell stored.name] at here
        cases here
        cases points
      · rw [Heap.get?_of_cell (stored.text t (Option.mem_toList.mp isText))] at here
        cases here
        cases points
  · intro isCell
    obtain ⟨slot, isSlot, inCells⟩ := List.mem_flatMap.mp isCell
    have record := Heap.get?_of_cell (ledger.stored slot isSlot).record
    have isRoot : mem.heap.Reach RegCell.points mem.roots slot.ptr :=
      .root (ledger.mem_roots.mpr ⟨slot, isSlot, rfl⟩)
    rw [RegSlot.cells, List.mem_cons, List.mem_cons, List.mem_map] at inCells
    rcases inCells with rfl | rfl | ⟨t, isText, rfl⟩
    · exact isRoot
    · exact .follow isRoot record (by simp [RegCell.points])
    · refine .follow isRoot record ?_
      rw [Option.mem_toList.mp isText]
      simp [RegCell.points]

end Ledger

theorem data?_of_stored {mem : RegMem} {slot : RegSlot} (stored : slot.Stored mem.heap) :
    mem.data? slot.kind slot.ptr = some slot.entry := by
  have record := Heap.get?_of_cell stored.record
  have name := Heap.get?_of_cell stored.name
  have hasText := stored.hasText
  cases isText : slot.text with
  | none =>
    rw [isText] at record hasText
    simp [data?, record, name, hasText.mp rfl, RegSlot.entry, RecordKind.entry]
  | some t =>
    have text := Heap.get?_of_cell (stored.text t isText)
    rw [isText] at record hasText
    cases isKind : slot.kind with
    | netdev => simp [isKind] at hasText
    | file | shellcmd =>
      simp [data?, record, name, text, RegSlot.entry, RecordKind.entry, isKind, isText]

end RegMem

/-- The names of the interfaces that have been removed. -/
def removedNames (commands : List RecordCommand) (results : List CmdResult) : List CStr :=
  (commands.zip results).flatMap fun x => if x.2 = .success then x.1.loses else []

theorem names_after (commands : List RecordCommand) (maps : Kind → OrderedMap Entry.key)
    (names : List CStr) :
    (Simulation.final RecordCommand.onMaps commands (maps, names)).2 =
      names ++ removedNames commands
        (Simulation.outputs RecordCommand.onMaps commands (maps, names)) := by
  induction commands generalizing maps names with
  | nil => simp [Simulation.final, removedNames]
  | cons command commands ih =>
    rw [Simulation.final, Simulation.outputs]
    cases accepts : command.accepts maps with
    | true =>
      rw [RecordCommand.onMaps_accepted accepts, ih]
      simp [removedNames]
    | false =>
      rw [RecordCommand.onMaps_refused accepts, ih]
      simp [removedNames]

/-- Any commands on interfaces, files and shell commands do in memory what they do to the
    registries without their strings.  What is allocated and out of reach afterwards are
    the names of the interfaces that have been removed, and nothing else. -/
theorem registry_memory (commands : List RecordCommand) :
    ∃ results mem s, ∃ lost : List Ptr,
      Simulation.runs RecordCommand.exec commands RegMem.empty = .ok (results, mem) ∧
      Simulation.runs (fun command => Registries.exec command.toReg) commands Registries.empty =
        .ok (results, s) ∧
      (∀ kind : RecordKind,
        (mem.list kind).map (mem.data? kind) = (s.elements kind.kind).map Prod.snd) ∧
      lost.Nodup ∧
      (∀ p, p ∈ lost ↔
        (mem.heap.get? p).isSome = true ∧ ¬ mem.heap.Reach RegCell.points mem.roots p) ∧
      (∀ p, mem.heap.Reach RegCell.points mem.roots p → (mem.heap.get? p).isSome = true) ∧
      lost.map mem.heap.get? =
        (removedNames commands results).map fun name => some (.str name) := by
  obtain ⟨mem, run, holds⟩ :=
    RegM.simulates_maps.runs (t := (fun _ => OrderedMap.empty, [])) commands RegMem.holds_empty
  obtain ⟨s, run', stores⟩ :=
    Registries.simulates_maps.runs (t := (fun _ => OrderedMap.empty, [])) commands
      Registries.stores_empty
  have isNames := names_after commands (fun _ => OrderedMap.empty) []
  obtain ⟨slots, lost, ledger, isLost, isMap⟩ := holds
  rw [isNames, List.nil_append] at isLost
  have distinct := List.nodup_append.mp ledger.distinct
  refine ⟨_, mem, s, lost.map Prod.fst, run, run', ?_, distinct.2.1, ?_, ?_, ?_⟩
  · intro kind
    have data := stores.data kind.kind
    rw [isMap] at data
    rw [Registries.elements, List.map_map, ledger.lists, List.map_map]
    refine Eq.trans ?_ data.symm
    rw [List.map_map, List.map_inj_left]
    intro slot isSlot
    obtain ⟨isSlot, isKind⟩ := List.mem_filter.mp isSlot
    have isKind : slot.kind = kind := by simpa using isKind
    rw [Function.comp, ← isKind, mem.data?_of_stored (ledger.stored slot isSlot)]
    rfl
  · intro p
    rw [ledger.reach_iff]
    constructor
    · intro isLost
      obtain ⟨c, cell⟩ := ledger.allocated (List.mem_append_right _ isLost)
      refine ⟨by simp [Heap.get?_eq_cell?, cell], ?_⟩
      intro isCell
      exact distinct.2.2 p isCell p isLost rfl
    · rintro ⟨isSome, out⟩
      exact (List.mem_append.mp (ledger.all p isSome)).resolve_left out
  · intro p reach
    obtain ⟨c, cell⟩ := ledger.allocated (List.mem_append_left _ (ledger.reach_iff.mp reach))
    simp [Heap.get?_eq_cell?, cell]
  · rw [← isLost, List.map_map, List.map_map, List.map_inj_left]
    intro l isString
    exact Heap.get?_of_cell (ledger.strings l isString)

end OsmoSysmon
