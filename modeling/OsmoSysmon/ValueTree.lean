import OsmoSysmon.ValueNode
import OsmoSysmon.Lib.Forest

/-! # Value nodes as trees

A program that is handed a node works on the tree below it and on nothing else.  `Grows`
says so of two states and a forest they store, before and after; it composes, and what
grows inside one tree of a forest grows inside the forest.
-/

namespace OsmoSysmon

open CText Talloc Loop

/-- A node, apart from its children. -/
structure NodeInfo where
  name : CStr
  idx : Int32
  value : Option CStr
deriving DecidableEq, Repr

def NodeInfo.node (info : NodeInfo) (children : List Ptr) : ValueNode where
  name := some info.name
  idx := info.idx
  value := info.value
  children := children

/-- The memory of named nodes. -/
def view (heap : Heap ValueNode) (p : Ptr) : Option (NodeInfo × List Ptr) :=
  match heap.get? p with
  | some ⟨some name, idx, value, children⟩ => some (⟨name, idx, value⟩, children)
  | _ => none

theorem view_eq_some {heap : Heap ValueNode} {p : Ptr} {info : NodeInfo} {children : List Ptr} :
    view heap p = some (info, children) ↔ heap.get? p = some (info.node children) := by
  rw [view]
  constructor
  · intro seen
    split at seen
    · next found =>
      injection seen with same
      injection same with sameInfo sameChildren
      rw [found, ← sameInfo, ← sameChildren]
      rfl
    · cases seen
  · intro found
    rw [found]
    rfl

theorem view_congr {heap heap' : Heap ValueNode} {p : Ptr} (same : heap'.get? p = heap.get? p) :
    view heap' p = view heap p := by
  rw [view, same, view]

/-- Trees of nodes, with addresses. -/
abbrev NodeForest := Forest (Ptr × NodeInfo)

structure Holds (s : Nodes) (f : NodeForest) : Prop where
  stored : f.Stored (view s.heap)
  distinct : f.cells.Nodup

theorem Holds.lt_next {s : Nodes} {f : NodeForest} (holds : Holds s f) {p : Ptr}
    (mem : p ∈ f.cells) : p < s.heap.next := by
  obtain ⟨⟨info, children⟩, seen⟩ := holds.stored.read_some mem
  exact Heap.lt_next_of_get? (view_eq_some.mp seen)

/-- No node of a tree is its own descendant. -/
theorem Holds.top {s : Nodes} {p : Ptr} {info : NodeInfo} {f : NodeForest}
    (holds : Holds s (.cons (p, info) f .nil)) : p ∉ f.cells ∧ f.cells.Nodup := by
  have distinct := holds.distinct
  rw [Forest.cells_cons, Forest.cells_nil, List.append_nil, List.nodup_cons] at distinct
  exact distinct

/-- A node that has been made without a parent. -/
theorem holds_rootHeap (s : Nodes) (name : CStr) (value : Option CStr)
    (parents : List (Option Ptr)) :
    Holds ⟨rootHeap s.heap name value, parents⟩ (.leaf (s.heap.next + 1, ⟨name, 0, value⟩)) := by
  have isZero : ((s.heap.alloc none .zero).alloc none .zero).get? (s.heap.next + 1) =
      some ValueNode.zero := Heap.get?_alloc_self (s.heap.alloc none .zero) none _
  refine ⟨⟨?_, trivial, trivial⟩, by simp⟩
  rw [view_eq_some, rootHeap, Heap.get?_set_self isZero]
  rfl

/-- From `s` to `s'`, the forest `f` has become `f'`, and nothing else has changed. -/
structure Grows (s s' : Nodes) (f f' : NodeForest) : Prop where
  holds : Holds s' f'
  addresses : f'.addresses = f.addresses
  fresh : ∀ p ∈ f'.cells, p ∈ f.cells ∨ s.heap.next ≤ p
  frame : ∀ p, p < s.heap.next → p ∉ f.cells → s'.heap.get? p = s.heap.get? p
  owners : ∀ p, p < s.heap.next → s'.heap.owners p = s.heap.owners p
  next : s.heap.next ≤ s'.heap.next
  ids : ∃ new, s'.heap.ids = new ++ s.heap.ids ∧ ∀ i ∈ new, s.heap.next ≤ i
  beneath : ∀ root, root < s.heap.next → (∀ p ∈ f.cells, root ≤ p) → s.heap.Beneath root →
    s'.heap.Beneath root
  /-- Every function is called with a parent. -/
  parents : ∃ calls, s'.parents = calls ++ s.parents ∧ none ∉ calls

namespace Grows

variable {s t u : Nodes} {f g h : NodeForest}

theorem refl (holds : Holds s f) : Grows s s f f where
  holds := holds
  addresses := rfl
  fresh _ mem := .inl mem
  frame _ _ _ := rfl
  owners _ _ := rfl
  next := Nat.le_refl _
  ids := ⟨[], rfl, by simp⟩
  beneath _ _ _ beneath := beneath
  parents := ⟨[], rfl, by simp⟩

theorem trans (first : Grows s t f g) (second : Grows t u g h) : Grows s u f h where
  holds := second.holds
  addresses := second.addresses.trans first.addresses
  fresh p mem := by
    cases second.fresh p mem with
    | inl before => exact first.fresh p before
    | inr late => exact .inr (Nat.le_trans first.next late)
  frame p old outside := by
    -- an old cell cannot have become part of the forest
    have later : p ∉ g.cells := by
      intro mem
      cases first.fresh p mem with
      | inl before => exact outside before
      | inr late => omega
    rw [second.frame p (Nat.lt_of_lt_of_le old first.next) later, first.frame p old outside]
  owners p old := by
    rw [second.owners p (Nat.lt_of_lt_of_le old first.next), first.owners p old]
  next := Nat.le_trans first.next second.next
  ids := by
    obtain ⟨new, isNew, late⟩ := first.ids
    obtain ⟨new', isNew', late'⟩ := second.ids
    refine ⟨new' ++ new, by rw [isNew', isNew, List.append_assoc], ?_⟩
    intro i mem
    cases List.mem_append.mp mem with
    | inl after => exact Nat.le_trans first.next (late' i after)
    | inr before => exact late i before
  beneath root old older beneath := by
    apply second.beneath root (Nat.lt_of_lt_of_le old first.next) _
      (first.beneath root old older beneath)
    intro p mem
    cases first.fresh p mem with
    | inl before => exact older p before
    | inr late => omega
  parents := by
    obtain ⟨calls, isCalls, noNull⟩ := first.parents
    obtain ⟨calls', isCalls', noNull'⟩ := second.parents
    refine ⟨calls' ++ calls, by rw [isCalls', isCalls, List.append_assoc], ?_⟩
    rw [List.mem_append]
    exact fun mem => mem.elim noNull' noNull

/-- What grows in one tree grows in the forest around it. -/
theorem within (grows : Grows s t f g) {before after : NodeForest}
    (holds : Holds s (before ++ f ++ after)) :
    Grows s t (before ++ f ++ after) (before ++ g ++ after) := by
  have stored := holds.stored
  rw [Forest.stored_append, Forest.stored_append] at stored
  have distinct := holds.distinct
  rw [Forest.cells_append, Forest.cells_append] at distinct
  -- the trees around it share no cell with it, and what is new in it is younger
  have outside : ∀ p ∈ before.cells ++ after.cells, p < s.heap.next ∧ p ∉ f.cells := by
    intro p mem
    refine ⟨holds.lt_next ?_, ?_⟩
    · rw [Forest.cells_append, Forest.cells_append]
      grind
    · grind
  have same : ∀ p ∈ before.cells ++ after.cells, view t.heap p = view s.heap p := by
    intro p mem
    exact view_congr (grows.frame p (outside p mem).1 (outside p mem).2)
  constructor
  · constructor
    · rw [Forest.stored_append, Forest.stored_append]
      refine ⟨⟨stored.1.1.frame ?_, grows.holds.stored⟩, stored.2.frame ?_⟩
      · exact fun p mem => same p (List.mem_append_left _ mem)
      · exact fun p mem => same p (List.mem_append_right _ mem)
    · rw [Forest.cells_append, Forest.cells_append]
      have fresh := grows.fresh
      have inner := grows.holds.distinct
      grind
  · rw [Forest.addresses_append, Forest.addresses_append, grows.addresses,
      Forest.addresses_append, Forest.addresses_append]
  · intro p mem
    have fresh := grows.fresh p
    rw [Forest.cells_append, Forest.cells_append] at mem ⊢
    grind
  · intro p old notIn
    rw [Forest.cells_append, Forest.cells_append] at notIn
    exact grows.frame p old (by grind)
  · exact grows.owners
  · exact grows.next
  · exact grows.ids
  · intro root old older
    rw [Forest.cells_append, Forest.cells_append] at older
    exact grows.beneath root old fun p mem => older p (by grind)
  · exact grows.parents

/-- What grows among the children of a node grows in the node. -/
theorem inside (grows : Grows s t f g) {p : Ptr} {info : NodeInfo}
    (holds : Holds s (.cons (p, info) f .nil)) :
    Grows s t (.cons (p, info) f .nil) (.cons (p, info) g .nil) := by
  obtain ⟨here, -, -⟩ := holds.stored
  have notBelow := holds.top.1
  have old : p < s.heap.next := holds.lt_next (by simp)
  constructor
  · constructor
    · refine ⟨?_, grows.holds.stored, trivial⟩
      -- the list of children stays as it is: the trees below keep their addresses
      rw [view_congr (grows.frame p old notBelow), grows.addresses]
      exact here
    · rw [Forest.cells_cons, Forest.cells_nil, List.append_nil, List.nodup_cons]
      refine ⟨fun mem => ?_, grows.holds.distinct⟩
      cases grows.fresh p mem with
      | inl before => exact notBelow before
      | inr late => exact Nat.not_lt.mpr late old
  · rfl
  · intro q mem
    simp only [Forest.cells_cons, Forest.cells_nil, List.append_nil, List.mem_cons] at mem ⊢
    cases mem with
    | inl same => exact .inl (.inl same)
    | inr below => exact (grows.fresh q below).imp .inr id
  · intro q early notIn
    simp only [Forest.cells_cons, Forest.cells_nil, List.append_nil, List.mem_cons, not_or] at notIn
    exact grows.frame q early notIn.2
  · exact grows.owners
  · exact grows.next
  · exact grows.ids
  · intro root early older
    simp only [Forest.cells_cons, Forest.cells_nil, List.append_nil, List.mem_cons] at older
    exact grows.beneath root early fun q mem => older q (.inr mem)
  · exact grows.parents

end Grows

/-! ## Finding a child -/

def NodeInfo.isNamed (name : CStr) (info : NodeInfo) : Bool := info.name == name

def NodeInfo.hasIdx (idx : Int32) (info : NodeInfo) : Bool := idx == info.idx

/-- What a loop looks for does not depend on the children of the node. -/
def Shallow (sel : ValueNode → Bool) (pick : NodeInfo → Bool) : Prop :=
  ∀ info children, sel (info.node children) = pick info

theorem shallow_name (name : CStr) :
    Shallow (fun vn => vn.name == some name) (NodeInfo.isNamed name) := fun _ _ => rfl

theorem shallow_idx (idx : Int32) :
    Shallow (fun vn => idx == vn.idx) (NodeInfo.hasIdx idx) := fun _ _ => rfl

section

variable {heap : Heap ValueNode} {sel : ValueNode → Bool} {pick : NodeInfo → Bool}

theorem findNode_none (shallow : Shallow sel pick)
    {f : NodeForest} (stored : f.Stored (view heap)) (absent : ∀ a ∈ f.roots, pick a.2 = false) :
    findNode heap sel f.addresses = .ok none := by
  induction f with
  | nil => rfl
  | cons label children rest _ ih =>
    obtain ⟨p, info⟩ := label
    obtain ⟨here, -, later⟩ := stored
    have skipped : pick info = false := absent (p, info) List.mem_cons_self
    rw [Forest.addresses_cons, findNode_cons (view_eq_some.mp here), shallow, skipped]
    exact ih later fun a mem => absent a (List.mem_cons_of_mem _ mem)

theorem findNode_first (shallow : Shallow sel pick)
    {before children after : NodeForest} {p : Ptr} {info : NodeInfo}
    (stored : (before ++ .cons (p, info) children after).Stored (view heap))
    (skipped : ∀ a ∈ before.roots, pick a.2 = false) (found : pick info = true) :
    findNode heap sel (before ++ .cons (p, info) children after).addresses = .ok (some p) := by
  induction before with
  | nil =>
    obtain ⟨here, -, -⟩ := stored
    rw [Forest.nil_append, Forest.addresses_cons, findNode_cons (view_eq_some.mp here), shallow,
      found]
    rfl
  | cons label inner rest _ ih =>
    obtain ⟨q, other⟩ := label
    obtain ⟨here, -, later⟩ := stored
    have skip : pick other = false := skipped (q, other) List.mem_cons_self
    rw [Forest.cons_append, Forest.addresses_cons, findNode_cons (view_eq_some.mp here), shallow,
      skip]
    exact ih later fun a mem => skipped a (List.mem_cons_of_mem _ mem)

end

/-! ## Adding a child -/

/-- What `value_node_add` does to the children of a node. -/
def addChild (name : CStr) (value : Option CStr) (f : Forest NodeInfo) : Forest NodeInfo :=
  if f.roots.any (NodeInfo.isNamed name) then f else f ++ .leaf ⟨name, 0, value⟩

section

variable {s : Nodes} {q : Ptr} {info : NodeInfo} {f : NodeForest}

/-- No child has the name. -/
theorem untaken_iff {name : CStr} :
    f.shape.roots.any (NodeInfo.isNamed name) = false ↔
      ∀ b ∈ f.roots, b.2.isNamed name = false := by
  rw [Forest.shape, Forest.roots_map, List.any_map, List.any_eq_false]
  simp

/-- The cell of the top node of a tree. -/
theorem Holds.cell (holds : Holds s (.cons (q, info) f .nil)) :
    s.heap.get? q = some (info.node f.addresses) := view_eq_some.mp holds.stored.1

theorem stored_alloc (holds : Holds s f) (parent : Option Ptr) :
    f.Stored (view (s.heap.alloc parent .zero)) := by
  apply holds.stored.frame
  intro p mem
  exact view_congr (Heap.get?_alloc_of_ne (Nat.ne_of_lt (holds.lt_next mem)))

/-- Nothing but the number of allocated nodes changes. -/
theorem grows_alloc (holds : Holds s (.cons (q, info) f .nil)) {calls : List (Option Ptr)}
    (noNull : none ∉ calls) :
    Grows s ⟨s.heap.alloc (some q) .zero, calls ++ s.parents⟩ (.cons (q, info) f .nil)
      (.cons (q, info) f .nil) where
  holds := ⟨stored_alloc holds (some q), holds.distinct⟩
  addresses := rfl
  fresh _ mem := .inl mem
  frame p old _ := Heap.get?_alloc_of_ne (Nat.ne_of_lt old)
  owners p old := Heap.owners_alloc_of_ne (Nat.ne_of_lt old)
  next := Nat.le_succ _
  ids := ⟨[s.heap.next], rfl, by simp⟩
  beneath root _ older beneath := beneath.alloc holds.cell (older q (by simp)) _
  parents := ⟨calls, rfl, noNull⟩

theorem grows_added (holds : Holds s (.cons (q, info) f .nil)) (name : CStr)
    (value : Option CStr) {calls : List (Option Ptr)} (noNull : none ∉ calls) :
    Grows s ⟨addedHeap s.heap q (info.node f.addresses) name value, calls ++ s.parents⟩
      (.cons (q, info) f .nil)
      (.cons (q, info) (f ++ .leaf (s.heap.next + 1, ⟨name, 0, value⟩)) .nil) := by
  have notBelow := holds.top.1
  have distinct := holds.top.2
  have old : ∀ p ∈ f.cells, p < s.heap.next := fun p mem => holds.lt_next (by simp [mem])
  have qOld : q < s.heap.next := holds.lt_next (by simp)
  constructor
  · constructor
    · refine ⟨?_, Forest.stored_append.mpr ⟨holds.stored.2.1.frame ?_, ?_, trivial, trivial⟩, trivial⟩
      · rw [view_eq_some, get?_addedHeap_self holds.cell, Forest.addresses_append]
        rfl
      · intro p mem
        exact view_congr
          (get?_addedHeap_old (old p mem) (by rintro rfl; exact notBelow mem) name value)
      · rw [view_eq_some, get?_addedHeap_new holds.cell]
        rfl
    -- the new cell is not among the old ones
    · have new : ∀ p ∈ q :: f.cells, p ≠ s.heap.next + 1 := by
        intro p mem
        exact Nat.ne_of_lt (Nat.lt_succ_of_lt (holds.lt_next (by simpa using mem)))
      simp only [Forest.cells_cons, Forest.cells_append, Forest.cells_leaf, Forest.cells_nil,
        List.append_nil]
      grind
  · rfl
  · intro p mem
    simp only [Forest.cells_cons, Forest.cells_append, Forest.cells_leaf, Forest.cells_nil,
      List.append_nil, List.mem_cons, List.mem_append, List.not_mem_nil, or_false] at mem ⊢
    rcases mem with same | before | isNew
    · exact .inl (.inl same)
    · exact .inl (.inr before)
    · exact .inr (isNew ▸ Nat.le_succ _)
  · intro p before outside
    apply get?_addedHeap_old before
    intro same
    exact outside (by simp [same])
  · exact fun p before => owners_addedHeap before name value
  · exact Nat.le_add_right _ 2
  · exact ⟨_, ids_addedHeap name value, by simp⟩
  · intro root _ older beneath
    exact beneath_addedHeap holds.cell (older q (by simp)) beneath name value
  · exact ⟨calls, rfl, noNull⟩

theorem valueNodeAdd_refused (holds : Holds s (.cons (q, info) f .nil)) {name : CStr}
    (taken : f.shape.roots.any (NodeInfo.isNamed name) = true) (value : Option CStr) :
    ∃ s', valueNodeAdd (some q) name value s = .ok (none, s') ∧
      Grows s s' (.cons (q, info) f .nil) (.cons (q, info) f .nil) := by
  have kept := (stored_alloc holds (some q)).2.1
  have noNull : none ∉ [some q, some q] := by simp
  cases Forest.split_first (fun a : Ptr × NodeInfo => a.2.isNamed name) f with
  | inl absent =>
    rw [untaken_iff.mpr absent] at taken
    cases taken
  | inr first =>
    obtain ⟨before, ⟨d, dup⟩, children, after, rfl, named, skipped⟩ := first
    have found := findNode_first (shallow_name name) kept skipped named
    exact ⟨_, valueNodeAdd_dup holds.cell found value, grows_alloc holds noNull⟩

theorem valueNodeAdd_accepted (holds : Holds s (.cons (q, info) f .nil)) {name : CStr}
    (new : f.shape.roots.any (NodeInfo.isNamed name) = false) (value : Option CStr) :
    ∃ n s', valueNodeAdd (some q) name value s = .ok (some n, s') ∧
      Grows s s' (.cons (q, info) f .nil)
        (.cons (q, info) (f ++ .leaf (n, ⟨name, 0, value⟩)) .nil) := by
  have kept := (stored_alloc holds (some q)).2.1
  have noNull : none ∉ [some q, some q] := by simp
  have missing := findNode_none (shallow_name name) kept (untaken_iff.mp new)
  exact ⟨_, _, valueNodeAdd_new holds.cell missing value, grows_added holds name value noNull⟩

end

end OsmoSysmon
