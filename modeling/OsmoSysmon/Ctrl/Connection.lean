import Mathlib.Logic.Function.Basic
import OsmoSysmon.Lib.Ledger
import OsmoSysmon.Lib.Run
import OsmoSysmon.Lib.Talloc
import OsmoSysmon.Polls
import OsmoSysmon.SimpleCtrl.Basic

/-! # The connection of a CTRL client

`simple_ctrl_open`, `simple_ctrl_close` and the poll of one client, with the handle in the
memory of the client and with its socket.  A handle is gone with the client it is allocated
below; a socket stays open until it is closed.
-/

namespace OsmoSysmon

open CText Talloc Loop Ledger

/-- How an attempt to connect ends. -/
inductive ConnectOutcome where
  /-- `osmo_sock_init` fails. -/
  | socketError
  | timeout
  | selectError
  | ioctlError
  | success
deriving DecidableEq, Repr

inductive ConnObject where
  | client (cc : CtrlClient Ptr)
  | handle (fd : Nat) (sch : SimpleCtrlHandle)

structure Conn where
  heap : Heap ConnObject
  /-- The client. -/
  cc : Ptr
  /-- Whether the client is in `os->ctrl_clients`. -/
  linked : Bool
  /-- The sockets that have been opened and closed, newest first. -/
  socks : List (Move Nat)
  /-- What a socket will do once it is open. -/
  peers : Nat → World

inductive ConnFault where
  /-- The client has been freed. -/
  | staleClient
  /-- The handle has been freed. -/
  | staleHandle
  /-- A request does not return. -/
  | request (fault : Fault)
deriving DecidableEq, Repr

abbrev ConnM := StateT Conn (Except ConnFault)

namespace Conn

/-- A client that has just been created. -/
def start (cfg : HostCfg) (getVars : List CStr) (peers : Nat → World) : Conn where
  heap := Heap.empty.alloc none (.client { cfg, sch := none, getVars })
  cc := 0
  linked := true
  socks := []
  peers := peers

/-- `talloc_zero` below `ctx`. -/
def allocHandle (ctx : Ptr) (s : Conn) : Conn :=
  { s with heap := s.heap.alloc (some ctx) (.handle 0 ⟨0, 0⟩) }

def freeHandle (p : Ptr) (s : Conn) : Conn := { s with heap := s.heap.free p }

def write (p : Ptr) (object : ConnObject) (s : Conn) : Conn :=
  { s with heap := s.heap.set p object }

/-- The next socket; 0 is standard input. -/
def newSocket (s : Conn) : Nat := s.socks.length + 1

def openSocket (s : Conn) : Conn := { s with socks := .acquire s.newSocket :: s.socks }

def closeSocket (fd : Nat) (s : Conn) : Conn := { s with socks := .release fd :: s.socks }

def derefClient : ConnM (CtrlClient Ptr) := do
  let s ← get
  match s.heap.get? s.cc with
  | some (.client cc) => return cc
  | _ => throw .staleClient

def derefHandle (sch : Ptr) : ConnM (Nat × SimpleCtrlHandle) := do
  let s ← get
  match s.heap.get? sch with
  | some (.handle fd handle) => return (fd, handle)
  | _ => throw .staleHandle

/-- `cc->sch = sch`. -/
def setSch (sch : Option Ptr) : ConnM Unit := do
  let cc ← derefClient
  modify fun s => s.write s.cc (.client { cc with sch })

def simpleCtrlOpen (ctx : Ptr) (outcome : ConnectOutcome) (toutMsec : UInt32) :
    ConnM (Option Ptr) := do
  let sch := (← get).heap.next
  modify (allocHandle ctx)
  if outcome = .socketError then return none
  else
    let fd := (← get).newSocket
    modify openSocket
    if outcome = .success then
      modify (write sch (.handle fd ⟨0, toutMsec⟩))
      return some sch
    else
      -- out_close
      modify (closeSocket fd)
      return none

def simpleCtrlClose (sch : Ptr) : ConnM Unit := do
  let (fd, _) ← derefHandle sch
  modify (closeSocket fd)
  modify (freeHandle sch)

/-- `simple_ctrl_get` on the socket of a handle. -/
def simpleCtrlGet (sch : Ptr) (var : CStr) : ConnM (Option CStr) := do
  let (fd, handle) ← derefHandle sch
  match OsmoSysmon.simpleCtrlGet handle var ((← get).peers fd) with
  | .error stop => throw (.request stop.fault)
  | .ok ((value, handle), peer) =>
    modify (write sch (.handle fd handle))
    modify fun s => { s with peers := Function.update s.peers fd peer }
    return value.map HeapStr.text

/-- The loop over `get_vars`, with the values that it adds to the tree. -/
def pollGetVars (sch : Ptr) : List CStr → ConnM (List (CStr × CStr))
  | [] => return []
  | name :: names => do
    match ← simpleCtrlGet sch name with
    -- Close connection on error
    | none =>
      simpleCtrlClose sch
      setSch none
      return []
    | some value =>
      let values ← pollGetVars sch names
      return (name, value) :: values

/-- attempt to re-connect -/
def reconnect (outcome : ConnectOutcome) : ConnM Unit := do
  let cc ← derefClient
  if cc.sch = none then
    let sch ← simpleCtrlOpen (← get).cc outcome 1000
    setSch sch

def ctrlClientPoll (outcome : ConnectOutcome) : ConnM (Int × List (CStr × CStr)) := do
  reconnect outcome
  let cc ← derefClient
  match cc.sch with
  -- abort, if that failed
  | none => return (-1, [])
  | some sch =>
    let values ← pollGetVars sch cc.getVars
    return (0, values)

def ctrlClientDestroy (s : Conn) : Conn := { s with linked := false, heap := s.heap.free s.cc }

end Conn

inductive ConnEvent where
  | poll (outcome : ConnectOutcome)
  | destroy
deriving DecidableEq, Repr

open Conn in
/-- A client is polled and destroyed while it is in the list of clients. -/
inductive ConnStep : Conn → ConnEvent → Conn → Prop
  | poll {s t : Conn} {outcome : ConnectOutcome} {result : Int × List (CStr × CStr)} :
      s.linked = true → Conn.ctrlClientPoll outcome s = .ok (result, t) →
      ConnStep s (.poll outcome) t
  | destroy {s : Conn} : s.linked = true → ConnStep s .destroy (Conn.ctrlClientDestroy s)

namespace Conn

/-- What an object says of the connection. -/
inductive Cell where
  | client (sch : Option Ptr)
  | handle (fd : Nat)

def Cell.of : ConnObject → Cell
  | .client cc => .client cc.sch
  | .handle fd _ => .handle fd

def cell? (s : Conn) (p : Ptr) : Option Cell := (s.heap.get? p).map Cell.of

/-- `cc->sch`, of a client that is still there. -/
def sch (s : Conn) : Option Ptr :=
  match s.linked, s.cell? s.cc with
  | true, some (.client sch) => sch
  | _, _ => none

/-- `cc->sch->fd`. -/
def fd (s : Conn) : Option Nat :=
  s.sch.bind fun sch =>
    match s.cell? sch with
    | some (.handle fd) => some fd
    | _ => none

/-- An allocated handle of the client. -/
def IsHandle (s : Conn) (p : Ptr) : Prop :=
  ∃ fd, s.cell? p = some (.handle fd) ∧ s.cc ∈ s.heap.owners p

/-- The client has its handle and its socket and no other, and every socket that it no
    longer has has been closed once. -/
structure Tidy (s : Conn) : Prop where
  handles : ∀ p, s.IsHandle p ↔ s.sch = some p
  sockets : settle 0 s.socks = some (Multiset.ofList s.fd.toList)
  closed : ∀ fd, .acquire fd ∈ s.socks → s.fd ≠ some fd → s.socks.count (.release fd) = 1

/-- No poll uses a handle that has been closed. -/
def NeverStale (s : Conn) : Prop :=
  s.linked = true → ∀ outcome, ctrlClientPoll outcome s ≠ .error .staleHandle

/-- A poll that has to connect does so, and the client is destroyed without a
    connection. -/
def Orderly (s : Conn) : ConnEvent → Prop
  | .poll outcome => s.sch = none → outcome = .success
  | .destroy => s.sch = none

/-! ## What is left behind -/

/-- The handles of the client are the current one and the lost ones, and the open sockets
    the current one and those that have been left open. -/
structure Accounts (s : Conn) (lost : List Ptr) (left : Multiset Nat) : Prop where
  client : s.linked = true → ∃ sch, s.cell? s.cc = some (.client sch)
  top : s.heap.owners s.cc = []
  under : ∀ p fd, s.cell? p = some (.handle fd) → s.heap.owners p = [s.cc]
  current : ∀ p, s.sch = some p → ∃ fd, s.cell? p = some (.handle fd)
  handles : ∀ p fd, s.cell? p = some (.handle fd) → s.sch = some p ∨ p ∈ lost
  stray : ∀ p ∈ lost, s.sch ≠ some p ∧ ∃ fd, s.cell? p = some (.handle fd)
  sockets : settle 0 s.socks = some (Multiset.ofList s.fd.toList + left)
  numbered : ∀ fd, .acquire fd ∈ s.socks → fd ≤ s.socks.length
  opened : ∀ fd, s.socks.count (.acquire fd) ≤ 1

namespace Accounts

variable {s t : Conn} {lost : List Ptr} {left : Multiset Nat}

theorem tidy_iff (accounts : Accounts s lost left) : s.Tidy ↔ lost = [] ∧ left = 0 := by
  constructor
  · intro tidy
    constructor
    · rw [List.eq_nil_iff_forall_not_mem]
      intro p mem
      obtain ⟨other, fd, isHandle⟩ := accounts.stray p mem
      have below : s.cc ∈ s.heap.owners p := by simp [accounts.under p fd isHandle]
      exact other ((tidy.handles p).mp ⟨fd, isHandle, below⟩)
    · have sockets := accounts.sockets
      rw [tidy.sockets, Option.some.injEq] at sockets
      rw [← Multiset.add_right_inj (s := Multiset.ofList s.fd.toList), ← sockets, Multiset.add_zero]
  · rintro ⟨rfl, rfl⟩
    have sockets := accounts.sockets
    rw [Multiset.add_zero] at sockets
    refine ⟨?_, sockets, ?_⟩
    · intro p
      constructor
      · rintro ⟨fd, isHandle, -⟩
        simpa using accounts.handles p fd isHandle
      · intro isCurrent
        obtain ⟨fd, isHandle⟩ := accounts.current p isCurrent
        exact ⟨fd, isHandle, by simp [accounts.under p fd isHandle]⟩
    · intro fd wasOpened notCurrent
      have balance := count_settle sockets fd
      have once := accounts.opened fd
      have some := List.count_pos_iff.mpr wasOpened
      have notHeld : (Multiset.ofList s.fd.toList).count fd = 0 := by
        rw [Multiset.count_eq_zero]
        simpa using notCurrent
      rw [notHeld, Multiset.count_zero] at balance
      omega

end Accounts

theorem cell?_allocHandle (s : Conn) (ctx p : Ptr) :
    (s.allocHandle ctx).cell? p = if p = s.heap.next then some (.handle 0) else s.cell? p := by
  rw [cell?, cell?, allocHandle]
  split
  · next isNew =>
    subst isNew
    rw [Heap.get?_alloc_self]
    rfl
  · next old => rw [Heap.get?_alloc_of_ne old]

theorem cell?_write {s : Conn} {p : Ptr} {cell : Cell} (live : s.cell? p = some cell)
    (object : ConnObject) (q : Ptr) :
    (s.write p object).cell? q = if q = p then some (Cell.of object) else s.cell? q := by
  rw [cell?, cell?, write]
  split
  · next same =>
    subst same
    obtain ⟨old, isOld, -⟩ := Option.map_eq_some_iff.mp live
    rw [Heap.get?_set_self isOld, Option.map_some]
  · next other => rw [Heap.get?_set_of_ne other]

theorem cell?_freeHandle {s : Conn} {p q : Ptr} (outside : p ∉ s.heap.owners q) :
    (s.freeHandle p).cell? q = if q = p then none else s.cell? q := by
  rw [cell?, cell?, freeHandle]
  split
  · next same =>
    subst same
    rw [Heap.get?_free_self, Option.map_none]
  · next other => rw [Heap.get?_free_of_survives other outside]

theorem lt_next_of_cell {s : Conn} {p : Ptr} {cell : Cell} (isCell : s.cell? p = some cell) :
    p < s.heap.next := by
  obtain ⟨object, live, -⟩ := Option.map_eq_some_iff.mp isCell
  exact Heap.lt_next_of_get? live

theorem sch_eq {s : Conn} {sch : Option Ptr} (linked : s.linked = true)
    (cell : s.cell? s.cc = some (.client sch)) : s.sch = sch := by
  simp only [Conn.sch, linked, cell]

theorem sch_congr {s t : Conn} (linked : t.linked = s.linked) (cell : t.cell? t.cc = s.cell? s.cc) :
    t.sch = s.sch := by
  rw [Conn.sch, Conn.sch, linked, cell]

theorem fd_eq {s : Conn} {p : Ptr} {fd : Nat} (isSch : s.sch = some p)
    (cell : s.cell? p = some (.handle fd)) : s.fd = some fd := by
  simp only [Conn.fd, isSch, Option.bind_some, cell]

theorem fd_eq_none {s : Conn} (isSch : s.sch = none) : s.fd = none := by
  rw [Conn.fd, isSch, Option.bind_none]

/-- The parts of a state that do not depend on where a handle or a client is. -/
structure SameRest (s t : Conn) : Prop where
  cc : t.cc = s.cc
  linked : t.linked = s.linked
  socks : t.socks = s.socks
  owners : ∀ p, t.heap.owners p = s.heap.owners p

theorem sameRest_write (s : Conn) (p : Ptr) (object : ConnObject) : SameRest s (s.write p object) :=
  ⟨rfl, rfl, rfl, fun q => Heap.owners_set s.heap p q object⟩

theorem SameRest.trans {s t u : Conn} (first : SameRest s t) (second : SameRest t u) :
    SameRest s u where
  cc := second.cc.trans first.cc
  linked := second.linked.trans first.linked
  socks := second.socks.trans first.socks
  owners p := (second.owners p).trans (first.owners p)

namespace Accounts

variable {s t : Conn} {lost : List Ptr} {left : Multiset Nat} {h : Ptr} {fd : Nat}

theorem client_sch (accounts : Accounts s lost left) (linked : s.linked = true) :
    s.cell? s.cc = some (.client s.sch) := by
  obtain ⟨sch, cell⟩ := accounts.client linked
  rw [sch_eq linked cell, cell]

theorem notClient (accounts : Accounts s lost left) (linked : s.linked = true) (p : Ptr) (fd : Nat)
    (isHandle : s.cell? p = some (.handle fd)) : p ≠ s.cc := by
  rintro rfl
  rw [accounts.client_sch linked] at isHandle
  cases isHandle

/-- A write that says the same of the connection. -/
theorem same (accounts : Accounts s lost left) (rest : SameRest s t)
    (cells : ∀ p, t.cell? p = s.cell? p) : t.sch = s.sch ∧ Accounts t lost left := by
  have sameSch : t.sch = s.sch := sch_congr rest.linked (by rw [rest.cc, cells])
  have sameFd : t.fd = s.fd := by
    rw [Conn.fd, Conn.fd, sameSch]
    simp only [cells]
  refine ⟨sameSch, ?_⟩
  constructor
  · simpa only [rest.linked, rest.cc, cells] using accounts.client
  · rw [rest.cc, rest.owners, accounts.top]
  · simpa only [rest.owners, rest.cc, cells] using accounts.under
  · simpa only [sameSch, cells] using accounts.current
  · simpa only [sameSch, cells] using accounts.handles
  · simpa only [sameSch, cells] using accounts.stray
  · rw [rest.socks, sameFd, accounts.sockets]
  · simpa only [rest.socks] using accounts.numbered
  · simpa only [rest.socks] using accounts.opened

/-- A new socket, which nobody refers to yet. -/
theorem acquire (accounts : Accounts s lost left) :
    Accounts s.openSocket lost (s.newSocket ::ₘ left) where
  client := accounts.client
  top := accounts.top
  under := accounts.under
  current := accounts.current
  handles := accounts.handles
  stray := accounts.stray
  sockets := by
    rw [openSocket, settle_acquire accounts.sockets, ← Multiset.add_cons]
    rfl
  numbered fd mem := by
    rw [openSocket, List.mem_cons] at mem
    rw [openSocket, List.length_cons]
    rcases mem with isNew | old
    · cases isNew
      exact Nat.le_refl _
    · have := accounts.numbered fd old
      omega
  opened fd := by
    rw [openSocket, List.count_cons]
    by_cases isNew : fd = s.newSocket
    · -- the number has not been used before
      have unused : s.socks.count (.acquire fd) = 0 := by
        rw [List.count_eq_zero]
        intro old
        have := accounts.numbered fd old
        rw [newSocket] at isNew
        omega
      rw [unused]
      split <;> omega
    · simpa [Ne.symm isNew] using accounts.opened fd

/-- A socket is closed that nobody refers to. -/
theorem release (accounts : Accounts s lost (fd ::ₘ left)) :
    Accounts (s.closeSocket fd) lost left where
  client := accounts.client
  top := accounts.top
  under := accounts.under
  current := accounts.current
  handles := accounts.handles
  stray := accounts.stray
  sockets := by
    have sockets := accounts.sockets
    rw [Multiset.add_cons] at sockets
    exact settle_release sockets
  numbered f mem := by
    have old : .acquire f ∈ s.socks := by simpa [closeSocket] using mem
    have := accounts.numbered f old
    rw [closeSocket, List.length_cons]
    omega
  opened f := by simpa [closeSocket] using accounts.opened f

/-- A new handle, which nobody refers to yet. -/
theorem alloc (accounts : Accounts s lost left) (linked : s.linked = true) :
    (s.allocHandle s.cc).sch = s.sch ∧
      Accounts (s.allocHandle s.cc) (s.heap.next :: lost) left := by
  -- the client and the other handles are older
  have old : ∀ p cell, s.cell? p = some cell → p ≠ s.heap.next :=
    fun p cell isCell => Nat.ne_of_lt (lt_next_of_cell isCell)
  have isClient := accounts.client_sch linked
  obtain ⟨client, live, -⟩ := Option.map_eq_some_iff.mp isClient
  have clientOld := old _ _ isClient
  have cells := cell?_allocHandle s s.cc
  have sameSch : (s.allocHandle s.cc).sch = s.sch :=
    sch_congr rfl ((cells s.cc).trans (if_neg clientOld))
  have sameCurrent : ∀ p, s.sch = some p → p ≠ s.heap.next := by
    intro p isSch
    obtain ⟨fd, isHandle⟩ := accounts.current p isSch
    exact old p _ isHandle
  have sameFd : (s.allocHandle s.cc).fd = s.fd := by
    cases isSch : s.sch with
    | none => rw [fd_eq_none isSch, fd_eq_none (sameSch.trans isSch)]
    | some p =>
      obtain ⟨fd, isHandle⟩ := accounts.current p isSch
      have again : (s.allocHandle s.cc).cell? p = some (.handle fd) := by
        rw [cells, if_neg (sameCurrent p isSch), isHandle]
      rw [fd_eq isSch isHandle, fd_eq (sameSch.trans isSch) again]
  refine ⟨sameSch, ?_⟩
  constructor
  · intro _
    refine ⟨s.sch, ?_⟩
    show (s.allocHandle s.cc).cell? s.cc = _
    rw [cells, if_neg clientOld, isClient]
  · show (s.heap.alloc _ _).owners s.cc = []
    rw [Heap.owners_alloc_of_ne clientOld, accounts.top]
  · intro p fd isHandle
    show (s.heap.alloc _ _).owners p = [s.cc]
    rw [cells] at isHandle
    by_cases isNew : p = s.heap.next
    · rw [isNew, Heap.owners_alloc_self, Heap.path_of_get? live, accounts.top]
    · rw [if_neg isNew] at isHandle
      rw [Heap.owners_alloc_of_ne isNew, accounts.under p fd isHandle]
  · intro p isSch
    rw [sameSch] at isSch
    obtain ⟨fd, isHandle⟩ := accounts.current p isSch
    exact ⟨fd, by rw [cells, if_neg (sameCurrent p isSch), isHandle]⟩
  · intro p fd isHandle
    rw [cells] at isHandle
    rw [sameSch, List.mem_cons]
    by_cases isNew : p = s.heap.next
    · exact .inr (.inl isNew)
    · rw [if_neg isNew] at isHandle
      exact (accounts.handles p fd isHandle).imp id .inr
  · intro p mem
    rw [sameSch, cells]
    rw [List.mem_cons] at mem
    by_cases isNew : p = s.heap.next
    · rw [if_pos isNew]
      exact ⟨fun isSch => sameCurrent p isSch isNew, 0, rfl⟩
    · rw [if_neg isNew]
      exact accounts.stray p (mem.resolve_left isNew)
  · rw [sameFd]
    exact accounts.sockets
  · exact accounts.numbered
  · exact accounts.opened

/-- The client gets a handle and its socket. -/
theorem adopt (accounts : Accounts s (h :: lost) (fd ::ₘ left)) (linked : s.linked = true)
    (none : s.sch = none) (new : h ∉ lost) (rest : SameRest s t)
    (cells : ∀ p, t.cell? p =
      if p = s.cc then some (.client (some h)) else if p = h then some (.handle fd)
      else s.cell? p) :
    t.sch = some h ∧ Accounts t lost left := by
  obtain ⟨-, old, isHandle⟩ := accounts.stray h List.mem_cons_self
  have notClient := accounts.notClient linked
  have hNotClient := notClient h old isHandle
  have isSch : t.sch = some h :=
    sch_eq (rest.linked.trans linked) (by rw [rest.cc, cells, if_pos rfl])
  have hCell : t.cell? h = some (.handle fd) := by rw [cells, if_neg hNotClient, if_pos rfl]
  refine ⟨isSch, ?_⟩
  constructor
  · intro _
    exact ⟨some h, by rw [rest.cc, cells, if_pos rfl]⟩
  · rw [rest.cc, rest.owners, accounts.top]
  · intro p f isHandle'
    rw [rest.owners, rest.cc]
    by_cases isNew : p = h
    · rw [isNew, accounts.under h old isHandle]
    · rw [cells, if_neg isNew] at isHandle'
      split at isHandle'
      · cases isHandle'
      · exact accounts.under p f isHandle'
  · intro p isSch'
    rw [isSch, Option.some.injEq] at isSch'
    exact ⟨fd, isSch' ▸ hCell⟩
  · intro p f isHandle'
    rw [isSch]
    by_cases isNew : p = h
    · exact .inl (congrArg some isNew.symm)
    · rw [cells, if_neg isNew] at isHandle'
      split at isHandle'
      · cases isHandle'
      · have known := accounts.handles p f isHandle'
        rw [none, List.mem_cons] at known
        exact .inr ((known.resolve_left nofun).resolve_left isNew)
  · intro p mem
    have other : p ≠ h := fun same => new (same ▸ mem)
    obtain ⟨-, f, isHandle'⟩ := accounts.stray p (List.mem_cons_of_mem h mem)
    rw [isSch, cells, if_neg (notClient p f isHandle'), if_neg other]
    exact ⟨fun same => other (Option.some.inj same).symm, f, isHandle'⟩
  · have sockets := accounts.sockets
    rw [fd_eq_none none] at sockets
    rw [rest.socks, sockets, fd_eq isSch hCell]
    congr 1
    simp
  · simpa only [rest.socks] using accounts.numbered
  · simpa only [rest.socks] using accounts.opened

/-- The client gives up its handle and its socket. -/
theorem abandon (accounts : Accounts s lost left) (linked : s.linked = true)
    (isSch : s.sch = some h) (isFd : s.fd = some fd) (rest : SameRest s t)
    (cells : ∀ p, t.cell? p = if p = s.cc then some (.client none) else s.cell? p) :
    t.sch = none ∧ Accounts t (h :: lost) (fd ::ₘ left) := by
  have tCell : t.cell? t.cc = some (.client none) := by rw [rest.cc, cells, if_pos rfl]
  have noSch : t.sch = none := sch_eq (rest.linked.trans linked) tCell
  have notClient := accounts.notClient linked
  have handle : ∀ p fd, t.cell? p = some (.handle fd) ↔ s.cell? p = some (.handle fd) := by
    intro p fd
    rw [cells]
    by_cases isClient : p = s.cc
    · have noHandle : s.cell? p ≠ some (.handle fd) :=
        fun isHandle => notClient p fd isHandle isClient
      simp [if_pos isClient, noHandle]
    · rw [if_neg isClient]
  refine ⟨noSch, ?_⟩
  constructor
  · exact fun _ => ⟨none, tCell⟩
  · rw [rest.cc, rest.owners, accounts.top]
  · simpa only [handle, rest.cc, rest.owners] using accounts.under
  · simp [noSch]
  · intro p f isHandle
    have known := accounts.handles p f ((handle p f).mp isHandle)
    rw [isSch, Option.some.injEq, eq_comm] at known
    exact .inr (List.mem_cons.mpr known)
  · intro p mem
    simp only [noSch, handle]
    rw [List.mem_cons] at mem
    rcases mem with rfl | old
    · exact ⟨nofun, accounts.current p isSch⟩
    · exact ⟨nofun, (accounts.stray p old).2⟩
  · have sockets := accounts.sockets
    rw [isFd] at sockets
    rw [rest.socks, fd_eq_none noSch, sockets]
    congr 1
    simp
  · simpa only [rest.socks] using accounts.numbered
  · simpa only [rest.socks] using accounts.opened

/-- A handle is freed that nobody refers to. -/
theorem free (accounts : Accounts s (h :: lost) left) (linked : s.linked = true)
    (new : h ∉ lost) :
    (s.freeHandle h).sch = s.sch ∧
      Accounts (s.freeHandle h) lost left := by
  obtain ⟨notCurrent, f, isHandle⟩ := accounts.stray h List.mem_cons_self
  have hNotClient := accounts.notClient linked h f isHandle
  have clientTop : h ∉ s.heap.owners s.cc := by simp [accounts.top]
  -- no handle is below another
  have outside : ∀ p fd, s.cell? p = some (.handle fd) → h ∉ s.heap.owners p := by
    intro p fd isHandle
    simpa [accounts.under p fd isHandle] using hNotClient
  have clientCell : (s.freeHandle h).cell? s.cc = s.cell? s.cc := by
    rw [cell?_freeHandle clientTop, if_neg hNotClient.symm]
  have handle : ∀ p fd, (s.freeHandle h).cell? p = some (.handle fd) ↔
      p ≠ h ∧ s.cell? p = some (.handle fd) := by
    intro p fd
    constructor
    · intro isHandle
      by_cases below : h ∈ s.heap.owners p
      · simp [cell?, freeHandle, Heap.get?_free_of_above below] at isHandle
      · rw [cell?_freeHandle below] at isHandle
        split at isHandle
        · cases isHandle
        · next other => exact ⟨other, isHandle⟩
    · rintro ⟨other, isHandle⟩
      rw [cell?_freeHandle (outside p fd isHandle), if_neg other, isHandle]
  have sameSch : (s.freeHandle h).sch = s.sch := sch_congr rfl clientCell
  have sameFd : (s.freeHandle h).fd = s.fd := by
    cases isSch : s.sch with
    | none => rw [fd_eq_none isSch, fd_eq_none (sameSch.trans isSch)]
    | some p =>
      obtain ⟨fd, isHandle⟩ := accounts.current p isSch
      have other : p ≠ h := fun same => notCurrent (isSch.trans (congrArg some same))
      rw [fd_eq isSch isHandle, fd_eq (sameSch.trans isSch) ((handle p fd).mpr ⟨other, isHandle⟩)]
  refine ⟨sameSch, ?_⟩
  constructor
  · intro isLinked
    obtain ⟨sch, isClient⟩ := accounts.client isLinked
    exact ⟨sch, clientCell.trans isClient⟩
  · show (s.heap.free h).owners s.cc = []
    rw [Heap.owners_free_of_survives hNotClient.symm clientTop, accounts.top]
  · intro p fd isHandle'
    obtain ⟨other, before⟩ := (handle p fd).mp isHandle'
    show (s.heap.free h).owners p = [s.cc]
    rw [Heap.owners_free_of_survives other (outside p fd before), accounts.under p fd before]
  · intro p isSch
    rw [sameSch] at isSch
    obtain ⟨fd, isHandle'⟩ := accounts.current p isSch
    have other : p ≠ h := fun same => notCurrent (isSch.trans (congrArg some same))
    exact ⟨fd, (handle p fd).mpr ⟨other, isHandle'⟩⟩
  · intro p fd isHandle'
    obtain ⟨other, before⟩ := (handle p fd).mp isHandle'
    rw [sameSch]
    have known := accounts.handles p fd before
    rw [List.mem_cons] at known
    exact known.imp id fun mem => mem.resolve_left other
  · intro p mem
    obtain ⟨stillNot, fd, isHandle'⟩ := accounts.stray p (List.mem_cons_of_mem h mem)
    rw [sameSch]
    have other : p ≠ h := fun same => new (same ▸ mem)
    exact ⟨stillNot, fd, (handle p fd).mpr ⟨other, isHandle'⟩⟩
  · rw [sameFd]
    exact accounts.sockets
  · exact accounts.numbered
  · exact accounts.opened

/-- The client goes with all its handles, and its socket stays open. -/
theorem destroy (accounts : Accounts s lost left) :
    Accounts (ctrlClientDestroy s) [] (Multiset.ofList s.fd.toList + left) := by
  have noSch : (ctrlClientDestroy s).sch = none := rfl
  have noHandle : ∀ p fd, (ctrlClientDestroy s).cell? p ≠ some (.handle fd) := by
    intro p fd isHandle
    obtain ⟨object, live, isCell⟩ := Option.map_eq_some_iff.mp isHandle
    by_cases isClient : p = s.cc
    · simp [ctrlClientDestroy, isClient] at live
    · by_cases below : s.cc ∈ s.heap.owners p
      · rw [ctrlClientDestroy, Heap.get?_free_of_above below] at live
        cases live
      · rw [ctrlClientDestroy, Heap.get?_free_of_survives isClient below] at live
        have before : s.cell? p = some (.handle fd) := by rw [cell?, live, ← isCell]; rfl
        rw [accounts.under p fd before] at below
        simp at below
  constructor
  · nofun
  · exact Heap.owners_free_self s.heap s.cc
  · exact fun p fd isHandle => absurd isHandle (noHandle p fd)
  · exact fun p isSch => nomatch noSch.symm.trans isSch
  · exact fun p fd isHandle => absurd isHandle (noHandle p fd)
  · simp
  · rw [fd_eq_none noSch, Option.toList_none, Multiset.coe_nil, Multiset.zero_add]
    exact accounts.sockets
  · exact accounts.numbered
  · exact accounts.opened

end Accounts

/-! ## The functions -/

section

variable {s t : Conn} {lost : List Ptr} {left : Multiset Nat} {h : Ptr}

theorem derefClient_of_get? {cc : CtrlClient Ptr} (live : s.heap.get? s.cc = some (.client cc)) :
    derefClient s = .ok (cc, s) := by
  rw [derefClient, bind_ok (get_ok s)]
  simp only [live]
  rfl

theorem derefHandle_of_get? {fd : Nat} {sch : SimpleCtrlHandle}
    (live : s.heap.get? h = some (.handle fd sch)) : derefHandle h s = .ok ((fd, sch), s) := by
  rw [derefHandle, bind_ok (get_ok s)]
  simp only [live]
  rfl

theorem derefClient_ok {sch : Option Ptr} (isClient : s.cell? s.cc = some (.client sch)) :
    ∃ cc, derefClient s = .ok (cc, s) ∧ cc.sch = sch := by
  obtain ⟨object, live, isCell⟩ := Option.map_eq_some_iff.mp isClient
  cases object with
  | handle _ _ => cases isCell
  | client cc => exact ⟨cc, derefClient_of_get? live, by simpa [Cell.of] using isCell⟩

theorem derefHandle_ok {fd : Nat} (isHandle : s.cell? h = some (.handle fd)) :
    ∃ sch, derefHandle h s = .ok ((fd, sch), s) := by
  obtain ⟨object, live, isCell⟩ := Option.map_eq_some_iff.mp isHandle
  cases object with
  | client _ => cases isCell
  | handle fd' sch =>
    cases isCell
    exact ⟨sch, derefHandle_of_get? live⟩

theorem setSch_ok {old : Option Ptr} (isClient : s.cell? s.cc = some (.client old))
    (sch : Option Ptr) :
    ∃ cc : CtrlClient Ptr, cc.sch = sch ∧ setSch sch s = .ok ((), s.write s.cc (.client cc)) := by
  obtain ⟨cc, run, -⟩ := derefClient_ok isClient
  refine ⟨{ cc with sch }, rfl, ?_⟩
  rw [setSch, bind_ok run]
  rfl

/-- What `simple_ctrl_open` does, outcome by outcome. -/
theorem simpleCtrlOpen_eq (s : Conn) (ctx : Ptr) (outcome : ConnectOutcome) (toutMsec : UInt32) :
    simpleCtrlOpen ctx outcome toutMsec s =
      .ok
        (if outcome = .socketError then (none, s.allocHandle ctx)
        else if outcome = .success then
          (some s.heap.next,
            (s.allocHandle ctx).openSocket.write s.heap.next (.handle s.newSocket ⟨0, toutMsec⟩))
        else (none, (s.allocHandle ctx).openSocket.closeSocket s.newSocket)) := by
  cases outcome <;> rfl

/-- Connecting gives the client a handle and a socket, or leaves a handle behind. -/
theorem open_ok (accounts : Accounts s lost left) (linked : s.linked = true)
    (noSch : s.sch = none) (outcome : ConnectOutcome) :
    ∃ sch t u, simpleCtrlOpen s.cc outcome 1000 s = .ok (sch, t) ∧ setSch sch t = .ok ((), u) ∧
      u.linked = true ∧
      Accounts u (if outcome = .success then lost else s.heap.next :: lost) left := by
  obtain ⟨sameSch, allocated⟩ := accounts.alloc linked
  have opened := allocated.acquire
  have new : s.heap.next ∉ lost := by
    intro mem
    obtain ⟨-, fd, isHandle⟩ := accounts.stray _ mem
    exact Nat.lt_irrefl _ (lt_next_of_cell isHandle)
  by_cases isSuccess : outcome = .success
  · subst isSuccess
    obtain ⟨-, fd, isHandle⟩ := opened.stray s.heap.next List.mem_cons_self
    have notClient := opened.notClient linked _ _ isHandle
    have cells := cell?_write isHandle (.handle s.newSocket ⟨0, 1000⟩)
    have isClient :=
      ((cells s.cc).trans (if_neg notClient.symm)).trans (opened.client_sch linked)
    obtain ⟨cc, isSch, run⟩ := setSch_ok isClient (some s.heap.next)
    refine ⟨some s.heap.next, _, _, simpleCtrlOpen_eq s s.cc .success 1000, run, linked, ?_⟩
    rw [if_pos rfl]
    apply (opened.adopt linked (sameSch.trans noSch) new
      ((sameRest_write _ _ _).trans (sameRest_write _ _ _)) _).2
    intro p
    refine (cell?_write isClient (.client cc) p).trans ?_
    rw [cells, Cell.of, isSch]
    rfl
  · -- the handle stays behind
    have failed : ∃ t, simpleCtrlOpen s.cc outcome 1000 s = .ok (none, t) ∧ t.linked = true ∧
        t.sch = none ∧ Accounts t (s.heap.next :: lost) left := by
      rw [simpleCtrlOpen_eq]
      by_cases isError : outcome = .socketError
      · rw [if_pos isError]
        exact ⟨_, rfl, linked, sameSch.trans noSch, allocated⟩
      · rw [if_neg isError, if_neg isSuccess]
        exact ⟨_, rfl, linked, sameSch.trans noSch, opened.release⟩
    obtain ⟨t, run, stillLinked, stillNone, accounts⟩ := failed
    obtain ⟨cc, isNone, run'⟩ := setSch_ok (accounts.client_sch stillLinked) none
    refine ⟨none, t, _, run, run', stillLinked, ?_⟩
    rw [if_neg isSuccess]
    apply (accounts.same (sameRest_write t t.cc _) _).2
    intro p
    rw [cell?_write (accounts.client_sch stillLinked)]
    split
    · next isClient =>
      rw [isClient, accounts.client_sch stillLinked, stillNone, ← isNone]
      rfl
    · rfl

/-- Closing a connection and forgetting it leaves nothing of it. -/
theorem close_ok (accounts : Accounts s lost left) (linked : s.linked = true)
    (isSch : s.sch = some h) :
    ∃ t u, simpleCtrlClose h s = .ok ((), t) ∧ setSch none t = .ok ((), u) ∧ u.linked = true ∧
      Accounts u lost left := by
  obtain ⟨fd, isHandle⟩ := accounts.current h isSch
  have notClient := accounts.notClient linked h fd isHandle
  have clientTop : h ∉ s.heap.owners s.cc := by simp [accounts.top]
  obtain ⟨handle, deref⟩ := derefHandle_ok isHandle
  have run : simpleCtrlClose h s = .ok ((), (s.closeSocket fd).freeHandle h) := by
    rw [simpleCtrlClose, bind_ok deref]
    rfl
  have isClient : ((s.closeSocket fd).freeHandle h).cell? s.cc = some (.client s.sch) :=
    ((@cell?_freeHandle (s.closeSocket fd) h _ clientTop).trans (if_neg notClient.symm)).trans
      (accounts.client_sch linked)
  obtain ⟨cc, isNone, run'⟩ := setSch_ok isClient none
  refine ⟨_, _, run, run', linked, ?_⟩
  -- the same state is reached by giving up the connection first
  obtain ⟨sameSch, abandoned⟩ := accounts.abandon linked isSch (fd_eq isSch isHandle)
    (sameRest_write s s.cc (.client cc)) (by
      intro p
      rw [cell?_write (accounts.client_sch linked)]
      split
      · rw [← isNone]
        rfl
      · rfl)
  have new : h ∉ lost := fun mem => (accounts.stray h mem).1 isSch
  have freed := (abandoned.release.free linked new).2
  have sameState : ((s.closeSocket fd).freeHandle h).write s.cc (.client cc) =
      ((s.write s.cc (.client cc)).closeSocket fd).freeHandle h := by
    simp only [write, closeSocket, freeHandle, Heap.free_set]
  show Accounts (((s.closeSocket fd).freeHandle h).write s.cc (.client cc)) lost left
  rw [sameState]
  exact freed

/-- A request uses the handle and keeps it. -/
theorem simpleCtrlGet_ok (accounts : Accounts s lost left) (linked : s.linked = true)
    (isSch : s.sch = some h) (var : CStr) :
    (∃ fault, simpleCtrlGet h var s = .error (.request fault)) ∨
      ∃ value t, simpleCtrlGet h var s = .ok (value, t) ∧ t.linked = true ∧ t.sch = some h ∧
        Accounts t lost left := by
  obtain ⟨fd, isHandle⟩ := accounts.current h isSch
  obtain ⟨handle, deref⟩ := derefHandle_ok isHandle
  cases call : OsmoSysmon.simpleCtrlGet handle var (s.peers fd) with
  | error stop =>
    refine .inl ⟨stop.fault, ?_⟩
    rw [simpleCtrlGet, bind_ok deref]
    simp only [bind_ok (get_ok s), call]
    rfl
  | ok result =>
    obtain ⟨⟨value, handle'⟩, peer⟩ := result
    let t := { s.write h (.handle fd handle') with peers := Function.update s.peers fd peer }
    have run : simpleCtrlGet h var s = .ok (value.map HeapStr.text, t) := by
      rw [simpleCtrlGet, bind_ok deref]
      simp only [bind_ok (get_ok s), call]
      rfl
    have rest : SameRest s t := ⟨rfl, rfl, rfl, (sameRest_write s h _).owners⟩
    have cells : ∀ p, t.cell? p = s.cell? p := by
      intro p
      refine (cell?_write isHandle (.handle fd handle') p).trans ?_
      split
      · next isH =>
        rw [isH, isHandle]
        rfl
      · rfl
    obtain ⟨sameSch, kept⟩ := accounts.same rest cells
    exact .inr ⟨_, t, run, linked, sameSch.trans isSch, kept⟩

/-- The loop over the variables ends with the connection it has begun with, or without
    one. -/
theorem pollGetVars_ok (accounts : Accounts s lost left) (linked : s.linked = true)
    (isSch : s.sch = some h) (names : List CStr) :
    (∃ fault, pollGetVars h names s = .error (.request fault)) ∨
      ∃ values t, pollGetVars h names s = .ok (values, t) ∧ t.linked = true ∧
        Accounts t lost left := by
  induction names generalizing s with
  | nil => exact .inr ⟨[], s, rfl, linked, accounts⟩
  | cons name names ih =>
    rcases simpleCtrlGet_ok accounts linked isSch name with
      ⟨fault, call⟩ | ⟨value, t, call, linked, isSch, accounts⟩
    · exact .inl ⟨fault, by rw [pollGetVars, bind_error call]⟩
    · cases value with
      | none =>
        obtain ⟨u, v, close, forget, linked, accounts⟩ := close_ok accounts linked isSch
        refine .inr ⟨[], v, ?_, linked, accounts⟩
        rw [pollGetVars, bind_ok call]
        simp only [bind_ok close, bind_ok forget, pure_ok]
      | some value =>
        rcases ih accounts linked isSch with ⟨fault, rest⟩ | ⟨values, u, rest, linked, accounts⟩
        · exact .inl ⟨fault, by rw [pollGetVars, bind_ok call]; exact bind_error rest _⟩
        · refine .inr ⟨(name, value) :: values, u, ?_, linked, accounts⟩
          rw [pollGetVars, bind_ok call]
          simp only [bind_ok rest, pure_ok]

theorem reconnect_ok (accounts : Accounts s lost left) (linked : s.linked = true)
    (outcome : ConnectOutcome) :
    ∃ t, reconnect outcome s = .ok ((), t) ∧ t.linked = true ∧
      Accounts t (if s.sch = none → outcome = .success then lost else s.heap.next :: lost)
        left := by
  obtain ⟨cc, deref, isSch⟩ := derefClient_ok (accounts.client_sch linked)
  by_cases noSch : s.sch = none
  · obtain ⟨sch, t, u, run, run', stillLinked, accounts⟩ := open_ok accounts linked noSch outcome
    refine ⟨u, ?_, stillLinked, by simpa [noSch] using accounts⟩
    rw [reconnect, bind_ok deref, if_pos (isSch.trans noSch), bind_ok (get_ok s), bind_ok run]
    exact run'
  · refine ⟨s, ?_, linked, by simpa [noSch] using accounts⟩
    rw [reconnect, bind_ok deref, if_neg (isSch ▸ noSch)]
    rfl

/-- A poll leaves a handle behind exactly if it has to connect and fails. -/
theorem ctrlClientPoll_ok (accounts : Accounts s lost left) (linked : s.linked = true)
    (outcome : ConnectOutcome) :
    (∃ fault, ctrlClientPoll outcome s = .error (.request fault)) ∨
      ∃ result t, ctrlClientPoll outcome s = .ok (result, t) ∧ t.linked = true ∧
        Accounts t (if s.sch = none → outcome = .success then lost else s.heap.next :: lost)
          left := by
  obtain ⟨t, connect, linked, accounts⟩ := reconnect_ok accounts linked outcome
  obtain ⟨cc, deref, isSch⟩ := derefClient_ok (accounts.client_sch linked)
  cases sch : cc.sch with
  | none =>
    refine .inr ⟨(-1, []), t, ?_, linked, accounts⟩
    rw [ctrlClientPoll, bind_ok connect, bind_ok deref]
    simp only [sch, pure_ok]
  | some h =>
    rcases pollGetVars_ok accounts linked (isSch.symm.trans sch) cc.getVars with
      ⟨fault, poll⟩ | ⟨values, u, poll, linked, accounts⟩
    · refine .inl ⟨fault, ?_⟩
      rw [ctrlClientPoll, bind_ok connect, bind_ok deref]
      simp only [sch, bind_error poll]
    · refine .inr ⟨(0, values), u, ?_, linked, accounts⟩
      rw [ctrlClientPoll, bind_ok connect, bind_ok deref]
      simp only [sch, bind_ok poll, pure_ok]

end

/-! ## Runs -/

theorem accounts_start (cfg : HostCfg) (getVars : List CStr) (peers : Nat → World) :
    Accounts (start cfg getVars peers) [] 0 := by
  have cells : ∀ p, (start cfg getVars peers).cell? p =
      if p = 0 then some (.client none) else none := by
    intro p
    rw [cell?, start]
    by_cases isClient : p = 0
    · subst isClient
      rfl
    · rw [if_neg isClient, Heap.get?_alloc_of_ne isClient]
      rfl
  have noSch : (start cfg getVars peers).sch = none := rfl
  constructor
  · exact fun _ => ⟨none, cells 0⟩
  · rfl
  · intro p fd isHandle
    rw [cells] at isHandle
    split at isHandle <;> cases isHandle
  · simp [noSch]
  · intro p fd isHandle
    rw [cells] at isHandle
    split at isHandle <;> cases isHandle
  · simp
  · rfl
  · simp [start]
  · simp [start]

/-- Every state of a run accounts for something. -/
def Accountable (s : Conn) : Prop := ∃ lost left, Accounts s lost left

theorem connStep_accountable (s : Conn) (e : ConnEvent) (t : Conn) (accountable : Accountable s)
    (step : ConnStep s e t) : Accountable t := by
  obtain ⟨lost, left, accounts⟩ := accountable
  cases step with
  | poll linked run =>
    rcases ctrlClientPoll_ok accounts linked _ with ⟨fault, stuck⟩ | ⟨result, u, returns, -, after⟩
    · cases run.symm.trans stuck
    · cases run.symm.trans returns
      exact ⟨_, _, after⟩
  | destroy linked => exact ⟨_, _, accounts.destroy⟩

theorem connStep_tidy (s : Conn) (e : ConnEvent) (t : Conn) (accountable : Accountable s)
    (tidy : s.Tidy) (step : ConnStep s e t) : t.Tidy ↔ s.Orderly e := by
  obtain ⟨lost, left, accounts⟩ := accountable
  obtain ⟨rfl, rfl⟩ := accounts.tidy_iff.mp tidy
  cases step with
  | @poll _ outcome _ linked run =>
    rcases ctrlClientPoll_ok accounts linked outcome with
      ⟨fault, stuck⟩ | ⟨result, u, returns, -, after⟩
    · cases run.symm.trans stuck
    · cases run.symm.trans returns
      rw [after.tidy_iff, Orderly]
      split
      · next orderly => simpa using orderly
      · next disorderly => simpa using disorderly
  | destroy linked =>
    rw [accounts.destroy.tidy_iff, Orderly]
    cases isSch : s.sch with
    | none => simp [fd_eq_none isSch]
    | some h =>
      obtain ⟨fd, isHandle⟩ := accounts.current h isSch
      simp [fd_eq isSch isHandle]

theorem neverStale {s : Conn} (accountable : Accountable s) : s.NeverStale := by
  obtain ⟨lost, left, accounts⟩ := accountable
  intro linked outcome stale
  rcases ctrlClientPoll_ok accounts linked outcome with ⟨fault, run⟩ | ⟨result, t, run, -⟩
  · cases stale.symm.trans run
  · cases stale.symm.trans run

end Conn

open Conn

/-- In a run of polls of one client and of its end, the client has exactly its handle and
    its socket in every state, and never uses a closed one, if and only if every attempt to
    connect succeeds and the client ends without a connection. -/
theorem ctrl_connection_iff {cfg : HostCfg} {getVars : List CStr} {peers : Nat → World}
    {path : List (Run.Transition Conn ConnEvent)}
    (run : Run.Path ConnStep (start cfg getVars peers) path) :
    (∀ x ∈ path, x.after.Tidy ∧ x.before.NeverStale ∧ x.after.NeverStale) ↔
      ∀ x ∈ path, x.before.Orderly x.event := by
  have accounts := accounts_start cfg getVars peers
  have tidy := accounts.tidy_iff.mpr ⟨rfl, rfl⟩
  rw [← @Run.Path.all_iff _ _ _ _ _ Accountable Conn.Tidy Conn.Orderly run ⟨_, _, accounts⟩ tidy
    (fun s e t accountable taken _ => connStep_accountable s e t accountable taken) connStep_tidy]
  have accountable := run.invariant ⟨_, _, accounts⟩ connStep_accountable
  constructor
  · exact fun all x mem => (all x mem).1
  · intro all x mem
    obtain ⟨before, after⟩ := accountable x mem
    exact ⟨all x mem, neverStale before, neverStale after⟩

/-- A client with one variable, whose peers cannot be written to. -/
def oneVariable : Conn :=
  start (hostCfgAlloc (ascii "bsc") (some (ascii "10.0.0.1")) 4249) [ascii "uptime"]
    fun _ => ⟨[], [.error], []⟩

set_option maxRecDepth 4000 in
/-- A connection that is closed by the first request, and the end of the client. -/
theorem ctrl_connection_closed :
    ∃ path, Run.Path ConnStep oneVariable path ∧
      path.map Run.Transition.event = [.poll .success, .destroy] ∧
      ∀ x ∈ path, x.after.Tidy ∧ x.before.NeverStale ∧ x.after.NeverStale := by
  obtain ⟨t, poll, linked, noSch⟩ : ∃ t, Conn.ctrlClientPoll .success oneVariable =
      .ok ((0, []), t) ∧ t.linked = true ∧ t.sch = none := ⟨_, rfl, rfl, rfl⟩
  have run : Run.Path ConnStep oneVariable
      [⟨oneVariable, .poll .success, t⟩, ⟨t, .destroy, Conn.ctrlClientDestroy t⟩] :=
    .next (.poll rfl poll) (.next (.destroy linked) .stop)
  refine ⟨_, run, rfl, (ctrl_connection_iff run).mpr ?_⟩
  simp [Orderly, noSch]

/-- One attempt to connect that fails. -/
theorem ctrl_connection_leaks :
    ∃ path, Run.Path ConnStep oneVariable path ∧
      ∃ x ∈ path, x.event = .poll .socketError ∧ x.after.sch = none ∧ x.after.IsHandle 1 ∧
        ¬ x.after.Tidy := by
  obtain ⟨t, poll, noSch, isHandle⟩ : ∃ t, Conn.ctrlClientPoll .socketError oneVariable =
      .ok ((-1, []), t) ∧ t.sch = none ∧ t.IsHandle 1 :=
    ⟨_, rfl, rfl, 0, rfl, List.mem_singleton.mpr rfl⟩
  refine ⟨_, .next (.poll rfl poll) .stop, _, List.mem_cons_self, rfl, noSch, isHandle, ?_⟩
  intro tidy
  cases noSch.symm.trans ((tidy.handles 1).mp isHandle)

end OsmoSysmon
