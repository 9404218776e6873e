import OsmoSysmon.World
import OsmoSysmon.Lib.Talloc

/-! # The tree of values

`value_node.c`: nodes are allocated below their parent node and linked at the end of
its list of children.
-/

namespace OsmoSysmon

open CText Talloc Loop

structure ValueNode where
  /-- `NULL` until `value_node_add` has set it. -/
  name : Option CStr
  /-- The interface index. -/
  idx : Int32
  value : Option CStr
  children : List Ptr
deriving DecidableEq, Repr

/-- What `talloc_zero` makes. -/
def ValueNode.zero : ValueNode where
  name := none
  idx := 0
  value := none
  children := []

structure Nodes where
  heap : Heap ValueNode
  /-- The parents with which the functions below have been called, newest first. -/
  parents : List (Option Ptr)

/-- Programs that work on value nodes. -/
abbrev NodeM := StateT Nodes (Except Fault)

namespace Nodes

def empty : Nodes where
  heap := Heap.empty
  parents := []

/-- The number of value nodes that are allocated. -/
def live (s : Nodes) : Nat := s.heap.size

def call (s : Nodes) (parent : Option Ptr) : Nodes := { s with parents := parent :: s.parents }

def withHeap (s : Nodes) (heap : Heap ValueNode) : Nodes := { s with heap }

@[simp] theorem heap_call (s : Nodes) (parent : Option Ptr) : (s.call parent).heap = s.heap := rfl

@[simp] theorem heap_withHeap (s : Nodes) (heap : Heap ValueNode) : (s.withHeap heap).heap = heap :=
  rfl

end Nodes

def called (parent : Option Ptr) : NodeM Unit := modify fun s => s.call parent

def derefNode (heap : Heap ValueNode) (node : Option Ptr) : Except Fault ValueNode :=
  match node with
  | none => .error .nullPointer
  | some p =>
    match heap.get? p with
    | none => .error .useAfterFree
    | some vn => .ok vn

/-- `NULL` is a parent for `talloc_zero`, a freed node is not. -/
def checkOwner (heap : Heap ValueNode) (parent : Option Ptr) : Except Fault Unit :=
  match parent with
  | none => .ok ()
  | some p => if (heap.get? p).isSome then .ok () else .error .useAfterFree

/-- `talloc_zero(parent, struct value_node)`. -/
def tallocZero (parent : Option Ptr) : NodeM Ptr := do
  let s ← get
  (checkOwner s.heap parent : Except Fault Unit)
  set (s.withHeap (s.heap.alloc parent .zero))
  return s.heap.next

/-- An assignment to fields of a node. -/
def modifyNode (node : Option Ptr) (f : ValueNode → ValueNode) : NodeM Unit := do
  let s ← get
  let vn ← (derefNode s.heap node : Except Fault ValueNode)
  match node with
  | none => pure ()
  | some p => set (s.withHeap (s.heap.set p (f vn)))

/-- The first node of a list that a loop is looking for. -/
def findNode (heap : Heap ValueNode) (sel : ValueNode → Bool) :
    List Ptr → Except Fault (Option Ptr)
  | [] => .ok none
  | p :: ps => do
    let vn ← derefNode heap (some p)
    if sel vn then return some p else findNode heap sel ps

def valueNodeFind (parent : Option Ptr) (name : CStr) : NodeM (Option Ptr) := do
  called parent
  let s ← get
  let vn ← (derefNode s.heap parent : Except Fault ValueNode)
  (findNode s.heap (fun vn => vn.name == some name) vn.children : Except Fault (Option Ptr))

def valueNodeFindByIdx (parent : Option Ptr) (idx : Int32) : NodeM (Option Ptr) := do
  called parent
  let s ← get
  let vn ← (derefNode s.heap parent : Except Fault ValueNode)
  (findNode s.heap (fun vn => idx == vn.idx) vn.children : Except Fault (Option Ptr))

/-- `parent && value_node_find(parent, name)`. -/
def findDuplicate (parent : Option Ptr) (name : CStr) : NodeM (Option Ptr) :=
  match parent with
  | none => pure none
  | some _ => valueNodeFind parent name

/-- `llist_add_tail` to the children of the parent, if there is one. -/
def linkNode (parent : Option Ptr) (vn : Ptr) : NodeM Unit :=
  match parent with
  | none => pure ()
  | some _ => modifyNode parent fun node => { node with children := node.children ++ [vn] }

def valueNodeAdd (parent : Option Ptr) (name : CStr) (value : Option CStr) :
    NodeM (Option Ptr) := do
  called parent
  let _ ← tallocZero parent
  match ← findDuplicate parent name with
  -- duplicate name not permitted!
  | some _ => return none
  | none =>
    let vn ← tallocZero parent
    modifyNode (some vn) fun node => { node with name := some name, value, children := [] }
    linkNode parent vn
    return some vn

def valueNodeFindOrAdd (parent : Option Ptr) (name : CStr) : NodeM (Option Ptr) := do
  called parent
  match ← valueNodeFind parent name with
  | some vn => return some vn
  | none => valueNodeAdd parent name none

/-- A node is linked in the list of the node it is allocated below, or in none. -/
def valueNodeDel (node : Option Ptr) : NodeM Unit := do
  let s ← get
  let _ ← (derefNode s.heap node : Except Fault ValueNode)
  match node with
  | none => pure ()
  | some p => do
    match s.heap.owners p with
    | [] => pure ()
    | parent :: _ =>
      modifyNode (some parent) fun node => { node with children := node.children.erase p }
    -- let talloc do its magic to delete all child nodes
    modify fun s => s.withHeap (s.heap.free p)

/-! ## What the functions do to the heap -/

theorem derefNode_ok {heap : Heap ValueNode} {q : Ptr} {vn : ValueNode}
    (live : heap.get? q = some vn) : derefNode heap (some q) = .ok vn := by
  simp only [derefNode, live]

theorem valueNodeFind_ok {s : Nodes} {q : Ptr} {vn : ValueNode} {name : CStr} {r : Option Ptr}
    (live : s.heap.get? q = some vn)
    (found : findNode s.heap (fun vn => vn.name == some name) vn.children = .ok r) :
    valueNodeFind (some q) name s = .ok (r, s.call (some q)) := by
  rw [valueNodeFind, called, bind_ok (modify_ok _ s), bind_ok (get_ok _), Nodes.heap_call,
    bind_ok (lift_ok (derefNode_ok live) _), lift_ok found]

theorem valueNodeFindByIdx_ok {s : Nodes} {q : Ptr} {vn : ValueNode} {idx : Int32}
    {r : Option Ptr} (live : s.heap.get? q = some vn)
    (found : findNode s.heap (fun vn => idx == vn.idx) vn.children = .ok r) :
    valueNodeFindByIdx (some q) idx s = .ok (r, s.call (some q)) := by
  rw [valueNodeFindByIdx, called, bind_ok (modify_ok _ s), bind_ok (get_ok _), Nodes.heap_call,
    bind_ok (lift_ok (derefNode_ok live) _), lift_ok found]

theorem tallocZero_ok {s : Nodes} {parent : Option Ptr} (owner : checkOwner s.heap parent = .ok ()) :
    tallocZero parent s = .ok (s.heap.next, s.withHeap (s.heap.alloc parent .zero)) := by
  rw [tallocZero, bind_ok (get_ok s), bind_ok (lift_ok owner s)]
  rfl

theorem modifyNode_ok {s : Nodes} {q : Ptr} {vn : ValueNode} (live : s.heap.get? q = some vn)
    (f : ValueNode → ValueNode) :
    modifyNode (some q) f s = .ok ((), s.withHeap (s.heap.set q (f vn))) := by
  rw [modifyNode, bind_ok (get_ok s), bind_ok (lift_ok (derefNode_ok live) s)]
  rfl

theorem checkOwner_ok {heap : Heap ValueNode} {q : Ptr} {vn : ValueNode}
    (live : heap.get? q = some vn) : checkOwner heap (some q) = .ok () := by
  simp only [checkOwner, live, Option.isSome_some, if_true]

/-- The loops that look for a node skip the nodes that do not match. -/
theorem findNode_cons {heap : Heap ValueNode} {p : Ptr} {vn : ValueNode}
    (live : heap.get? p = some vn) (sel : ValueNode → Bool) (ps : List Ptr) :
    findNode heap sel (p :: ps) = if sel vn then .ok (some p) else findNode heap sel ps := by
  rw [findNode, ok_bind (derefNode_ok live)]
  rfl

/-- The heap after a node has been added below `q`, whose cell is `vn`. -/
def addedHeap (h : Heap ValueNode) (q : Ptr) (vn : ValueNode) (name : CStr) (value : Option CStr) :
    Heap ValueNode :=
  (((h.alloc (some q) .zero).alloc (some q) .zero).set (h.next + 1)
    ⟨some name, 0, value, []⟩).set q { vn with children := vn.children ++ [h.next + 1] }

section

variable {h : Heap ValueNode} {q : Ptr} {vn : ValueNode}

theorem get?_addedHeap_self (live : h.get? q = some vn) (name : CStr) (value : Option CStr) :
    (addedHeap h q vn name value).get? q =
      some { vn with children := vn.children ++ [h.next + 1] } := by
  have other : q ≠ h.next + 1 := Nat.ne_of_lt (Nat.lt_succ_of_lt (Heap.lt_next_of_get? live))
  have live₂ : ((h.alloc (some q) .zero).alloc (some q) .zero).get? q = some vn :=
    Heap.get?_alloc_of_get? (Heap.get?_alloc_of_get? live)
  rw [addedHeap]
  apply Heap.get?_set_self (a := vn)
  rw [Heap.get?_set_of_ne other, live₂]

theorem get?_addedHeap_new (live : h.get? q = some vn) (name : CStr) (value : Option CStr) :
    (addedHeap h q vn name value).get? (h.next + 1) = some ⟨some name, 0, value, []⟩ := by
  have other : q ≠ h.next + 1 := Nat.ne_of_lt (Nat.lt_succ_of_lt (Heap.lt_next_of_get? live))
  rw [addedHeap, Heap.get?_set_of_ne (Ne.symm other)]
  exact Heap.get?_set_self (Heap.get?_alloc_self (h.alloc (some q) .zero) (some q) .zero) _

theorem get?_addedHeap_old {p : Ptr} (old : p < h.next) (other : p ≠ q) (name : CStr)
    (value : Option CStr) : (addedHeap h q vn name value).get? p = h.get? p := by
  have notNew : p ≠ h.next + 1 := Nat.ne_of_lt (Nat.lt_succ_of_lt old)
  have notNext : p ≠ h.next := Nat.ne_of_lt old
  rw [addedHeap, Heap.get?_set_of_ne other, Heap.get?_set_of_ne notNew,
    Heap.get?_alloc_of_ne notNew, Heap.get?_alloc_of_ne notNext]

theorem owners_addedHeap {p : Ptr} (old : p < h.next) (name : CStr) (value : Option CStr) :
    (addedHeap h q vn name value).owners p = h.owners p := by
  rw [addedHeap, Heap.owners_set, Heap.owners_set,
    Heap.owners_alloc_of_ne (Nat.ne_of_lt (Nat.lt_succ_of_lt old)),
    Heap.owners_alloc_of_ne (Nat.ne_of_lt old)]

@[simp] theorem ids_addedHeap (name : CStr) (value : Option CStr) :
    (addedHeap h q vn name value).ids = [h.next + 1, h.next] ++ h.ids := by
  simp [addedHeap]

theorem beneath_addedHeap (live : h.get? q = some vn) {root : Ptr} (younger : root ≤ q)
    (beneath : h.Beneath root) (name : CStr) (value : Option CStr) :
    (addedHeap h q vn name value).Beneath root := by
  have first := beneath.alloc live younger .zero
  have second := first.alloc (Heap.get?_alloc_of_get? live) younger .zero
  exact (second.set _ _).set _ _

end

section

variable {s : Nodes} {q : Ptr} {vn : ValueNode} {name : CStr}

/-- A duplicate is refused, after one node has been allocated. -/
theorem valueNodeAdd_dup {d : Ptr} (live : s.heap.get? q = some vn)
    (found : findNode (s.heap.alloc (some q) .zero) (fun vn => vn.name == some name) vn.children =
      .ok (some d)) (value : Option CStr) :
    valueNodeAdd (some q) name value s =
      .ok (none, ⟨s.heap.alloc (some q) .zero, some q :: some q :: s.parents⟩) := by
  have first : tallocZero (some q) (s.call (some q)) =
      .ok (s.heap.next, ⟨s.heap.alloc (some q) .zero, some q :: s.parents⟩) :=
    tallocZero_ok (checkOwner_ok live)
  have live₁ : (s.heap.alloc (some q) .zero).get? q = some vn := Heap.get?_alloc_of_get? live
  have search : findDuplicate (some q) name ⟨s.heap.alloc (some q) .zero, some q :: s.parents⟩ =
      .ok (some d, ⟨s.heap.alloc (some q) .zero, some q :: some q :: s.parents⟩) :=
    valueNodeFind_ok live₁ found
  rw [valueNodeAdd, called, bind_ok (modify_ok _ s), bind_ok first, bind_ok search]
  rfl

/-- Adding allocates two nodes and links the second. -/
theorem valueNodeAdd_new (live : s.heap.get? q = some vn)
    (missing : findNode (s.heap.alloc (some q) .zero) (fun vn => vn.name == some name)
      vn.children = .ok none) (value : Option CStr) :
    valueNodeAdd (some q) name value s =
      .ok (some (s.heap.next + 1),
        ⟨addedHeap s.heap q vn name value, some q :: some q :: s.parents⟩) := by
  -- the heap after each statement: a node to spare, the node, the node filled in
  let h₁ := s.heap.alloc (some q) .zero
  let h₂ := h₁.alloc (some q) .zero
  let h₃ := h₂.set (s.heap.next + 1) ⟨some name, 0, value, []⟩
  have first : tallocZero (some q) (s.call (some q)) =
      .ok (s.heap.next, ⟨h₁, some q :: s.parents⟩) := tallocZero_ok (checkOwner_ok live)
  have live₁ : h₁.get? q = some vn := Heap.get?_alloc_of_get? live
  have search : findDuplicate (some q) name ⟨h₁, some q :: s.parents⟩ =
      .ok (none, ⟨h₁, some q :: some q :: s.parents⟩) := valueNodeFind_ok live₁ missing
  have second : tallocZero (some q) ⟨h₁, some q :: some q :: s.parents⟩ =
      .ok (s.heap.next + 1, ⟨h₂, some q :: some q :: s.parents⟩) :=
    tallocZero_ok (checkOwner_ok live₁)
  have live₂ : h₂.get? q = some vn := Heap.get?_alloc_of_get? live₁
  have isZero : h₂.get? (s.heap.next + 1) = some ValueNode.zero := Heap.get?_alloc_self h₁ _ _
  have fill : modifyNode (some (s.heap.next + 1))
      (fun node => { node with name := some name, value, children := [] })
      ⟨h₂, some q :: some q :: s.parents⟩ = .ok ((), ⟨h₃, some q :: some q :: s.parents⟩) :=
    modifyNode_ok (s := ⟨h₂, some q :: some q :: s.parents⟩) isZero _
  have other : q ≠ s.heap.next + 1 := by
    have := Heap.lt_next_of_get? live
    exact Nat.ne_of_lt (Nat.lt_succ_of_lt this)
  have live₃ : h₃.get? q = some vn := by rw [Heap.get?_set_of_ne other, live₂]
  have link : linkNode (some q) (s.heap.next + 1) ⟨h₃, some q :: some q :: s.parents⟩ =
      .ok ((), ⟨addedHeap s.heap q vn name value, some q :: some q :: s.parents⟩) :=
    modifyNode_ok live₃ _
  rw [valueNodeAdd, called, bind_ok (modify_ok _ s), bind_ok first, bind_ok search]
  simp only
  rw [bind_ok second, bind_ok fill, bind_ok link]
  rfl

end

theorem valueNodeDel_root {s : Nodes} {root : Ptr} {vn : ValueNode}
    (live : s.heap.get? root = some vn) (top : s.heap.owners root = []) :
    valueNodeDel (some root) s = .ok ((), s.withHeap (s.heap.free root)) := by
  rw [valueNodeDel, bind_ok (get_ok s), bind_ok (lift_ok (derefNode_ok live) s)]
  simp only [top]
  rfl

theorem valueNodeDel_below {s : Nodes} {p parent : Ptr} {vn cell : ValueNode} {above : List Ptr}
    (live : s.heap.get? p = some vn) (isBelow : s.heap.owners p = parent :: above)
    (isParent : s.heap.get? parent = some cell) :
    valueNodeDel (some p) s = .ok ((), s.withHeap
      ((s.heap.set parent { cell with children := cell.children.erase p }).free p)) := by
  have unlink : modifyNode (some parent) (fun node => { node with children := node.children.erase p })
      s = .ok ((), s.withHeap (s.heap.set parent { cell with children := cell.children.erase p })) :=
    modifyNode_ok isParent _
  rw [valueNodeDel, bind_ok (get_ok s), bind_ok (lift_ok (derefNode_ok live) s)]
  simp only [isBelow]
  rw [bind_ok unlink]
  rfl

/-! ## How a call ends -/

theorem derefNode_inv {heap : Heap ValueNode} {node : Option Ptr} {vn : ValueNode}
    (found : derefNode heap node = .ok vn) : ∃ p, node = some p ∧ heap.get? p = some vn := by
  cases node with
  | none => cases found
  | some p =>
    cases live : heap.get? p with
    | none => simp [derefNode, live] at found
    | some vn' =>
      rw [derefNode_ok live] at found
      cases found
      exact ⟨p, rfl, live⟩

theorem valueNodeFind_inv {parent : Option Ptr} {name : CStr} {s s' : Nodes} {r : Option Ptr}
    (run : valueNodeFind parent name s = .ok (r, s')) :
    ∃ p vn, parent = some p ∧ s.heap.get? p = some vn ∧
      findNode s.heap (fun vn => vn.name == some name) vn.children = .ok r ∧
      s' = s.call parent := by
  rw [valueNodeFind, called, bind_ok (modify_ok _ s), bind_ok (get_ok _), Nodes.heap_call] at run
  obtain ⟨vn, t, deref, rest⟩ := bind_inv run
  obtain ⟨isNode, rfl⟩ := lift_inv deref
  obtain ⟨found, rfl⟩ := lift_inv rest
  obtain ⟨p, isParent, live⟩ := derefNode_inv isNode
  exact ⟨p, vn, isParent, live, found, rfl⟩

theorem valueNodeFindByIdx_inv {parent : Option Ptr} {idx : Int32} {s s' : Nodes} {r : Option Ptr}
    (run : valueNodeFindByIdx parent idx s = .ok (r, s')) : s' = s.call parent := by
  rw [valueNodeFindByIdx, called, bind_ok (modify_ok _ s), bind_ok (get_ok _)] at run
  obtain ⟨vn, t, deref, run⟩ := bind_inv run
  obtain ⟨-, rfl⟩ := lift_inv deref
  exact (lift_inv run).2

theorem tallocZero_inv {parent : Option Ptr} {s s' : Nodes} {p : Ptr}
    (run : tallocZero parent s = .ok (p, s')) :
    checkOwner s.heap parent = .ok () ∧ p = s.heap.next ∧
      s' = s.withHeap (s.heap.alloc parent .zero) := by
  rw [tallocZero, bind_ok (get_ok s)] at run
  obtain ⟨_, t, check, rest⟩ := bind_inv run
  obtain ⟨owner, rfl⟩ := lift_inv check
  cases rest
  exact ⟨owner, rfl, rfl⟩

/-- The heap after a node without parent has been added. -/
def rootHeap (h : Heap ValueNode) (name : CStr) (value : Option CStr) : Heap ValueNode :=
  ((h.alloc none .zero).alloc none .zero).set (h.next + 1) ⟨some name, 0, value, []⟩

theorem valueNodeAdd_root (name : CStr) (value : Option CStr) (s : Nodes) :
    valueNodeAdd none name value s =
      .ok (some (s.heap.next + 1), ⟨rootHeap s.heap name value, none :: s.parents⟩) := by
  let h₁ := s.heap.alloc none .zero
  have first : tallocZero none (s.call none) = .ok (s.heap.next, ⟨h₁, none :: s.parents⟩) :=
    tallocZero_ok rfl
  have second : tallocZero none ⟨h₁, none :: s.parents⟩ =
      .ok (s.heap.next + 1, ⟨h₁.alloc none .zero, none :: s.parents⟩) := tallocZero_ok rfl
  have isZero : (h₁.alloc none .zero).get? (s.heap.next + 1) = some ValueNode.zero :=
    Heap.get?_alloc_self h₁ _ _
  have fill : modifyNode (some (s.heap.next + 1))
      (fun node => { node with name := some name, value, children := [] })
      ⟨h₁.alloc none .zero, none :: s.parents⟩ =
        .ok ((), ⟨rootHeap s.heap name value, none :: s.parents⟩) :=
    modifyNode_ok (s := ⟨h₁.alloc none .zero, none :: s.parents⟩) isZero _
  rw [valueNodeAdd, called, bind_ok (modify_ok _ s), bind_ok first]
  have search : findDuplicate none name ⟨h₁, none :: s.parents⟩ =
      .ok (none, ⟨h₁, none :: s.parents⟩) := rfl
  rw [bind_ok search]
  simp only
  rw [bind_ok second, bind_ok fill]
  rfl

/-- What `value_node_add` can do with a parent. -/
theorem valueNodeAdd_cases {q : Ptr} {name : CStr} {value : Option CStr} {s s' : Nodes}
    {r : Option Ptr} (run : valueNodeAdd (some q) name value s = .ok (r, s')) :
    ∃ vn, s.heap.get? q = some vn ∧
      ((r = none ∧ s' = ⟨s.heap.alloc (some q) .zero, some q :: some q :: s.parents⟩) ∨
        findNode (s.heap.alloc (some q) .zero) (fun vn => vn.name == some name) vn.children =
            .ok none ∧
          r = some (s.heap.next + 1) ∧
          s' = ⟨addedHeap s.heap q vn name value, some q :: some q :: s.parents⟩) := by
  -- the search decides which of the two runs this is
  have whole := run
  rw [valueNodeAdd, called, bind_ok (modify_ok _ s)] at run
  obtain ⟨_, t, first, run⟩ := bind_inv run
  obtain ⟨owner, -, rfl⟩ := tallocZero_inv first
  obtain ⟨d, u, search, -⟩ := bind_inv run
  obtain ⟨p, vn', same, live', found, -⟩ := valueNodeFind_inv search
  cases same
  cases live : s.heap.get? q with
  | none => simp [checkOwner, live] at owner
  | some vn =>
    have sameCell : vn' = vn := by
      have kept : (s.heap.alloc (some q) .zero).get? q = some vn := Heap.get?_alloc_of_get? live
      exact Option.some.inj (live'.symm.trans kept)
    subst sameCell
    refine ⟨vn', rfl, ?_⟩
    cases d with
    | some d =>
      rw [valueNodeAdd_dup live found value] at whole
      cases whole
      exact .inl ⟨rfl, rfl⟩
    | none =>
      rw [valueNodeAdd_new live found value] at whole
      cases whole
      exact .inr ⟨found, rfl, rfl⟩

/-- A search is not affected by a new node. -/
theorem findNode_alloc {heap : Heap ValueNode} {sel : ValueNode → Bool} {ps : List Ptr}
    {r : Option Ptr} (found : findNode heap sel ps = .ok r) (parent : Option Ptr)
    (vn : ValueNode) : findNode (heap.alloc parent vn) sel ps = .ok r := by
  induction ps with
  | nil => exact found
  | cons p ps ih =>
    cases live : heap.get? p with
    | none =>
      rw [findNode, derefNode, live] at found
      cases found
    | some content =>
      rw [findNode_cons live] at found
      rw [findNode_cons (Heap.get?_alloc_of_get? live)]
      cases chosen : sel content with
      | true => rwa [chosen] at found
      | false =>
        rw [chosen] at found
        exact ih found

/-- `value_node_find_or_add` returns a node. -/
theorem valueNodeFindOrAdd_some {parent : Option Ptr} {name : CStr} {s s' : Nodes} {r : Option Ptr}
    (run : valueNodeFindOrAdd parent name s = .ok (r, s')) : ∃ q, r = some q := by
  rw [valueNodeFindOrAdd, called, bind_ok (modify_ok _ s)] at run
  obtain ⟨d, t, search, run⟩ := bind_inv run
  cases d with
  | some d =>
    cases run
    exact ⟨d, rfl⟩
  | none =>
    -- the search has not found the name, and `value_node_add` searches again
    obtain ⟨p, vn, rfl, live, found, rfl⟩ := valueNodeFind_inv search
    have added := valueNodeAdd_new (s := (s.call (some p)).call (some p)) live
      (findNode_alloc found _ _) none
    change valueNodeAdd (some p) name none _ = _ at run
    rw [added] at run
    cases run
    exact ⟨_, rfl⟩

end OsmoSysmon
