import OsmoSysmon.Lib.Addressed
import OsmoSysmon.Outline

/-! # Calls on one tree

Any sequence of calls of the functions of `value_node.c` on one tree, at any depth.
`TreeCall.Does` says in terms of trees what a call does, `treeCall_runs` that the functions
do it, and `treeCalls_follow` is the run over all calls.
-/

namespace OsmoSysmon

open CText Talloc Loop

/-! ## Nodes at any depth -/

section

variable {s t : Nodes} {f c c' : NodeForest} {p q : Ptr} {i info : NodeInfo}

theorem Holds.uncons {inner rest : NodeForest} (holds : Holds s (.cons (p, i) inner rest)) :
    Holds s (.cons (p, i) inner .nil) ∧ Holds s inner ∧ Holds s rest := by
  obtain ⟨here, below, later⟩ := holds.stored
  have distinct := holds.distinct
  rw [Forest.cells_cons, List.nodup_cons, List.nodup_append, List.mem_append, not_or] at distinct
  obtain ⟨⟨notBelow, -⟩, distinctBelow, distinctLater, -⟩ := distinct
  refine ⟨⟨⟨here, below, trivial⟩, ?_⟩, ⟨below, distinctBelow⟩, ⟨later, distinctLater⟩⟩
  rw [Forest.cells_cons, Forest.cells_nil, List.append_nil, List.nodup_cons]
  exact ⟨notBelow, distinctBelow⟩

theorem Holds.nodeAt (holds : Holds s f) (found : f.nodeAt q = some (info, c)) :
    Holds s (.cons (q, info) c .nil) := by
  induction f with
  | nil => cases found
  | cons label inner rest ihInner ihRest =>
    obtain ⟨p, i⟩ := label
    obtain ⟨top, below, later⟩ := holds.uncons
    rw [Forest.nodeAt] at found
    by_cases same : p = q
    · rw [if_pos same] at found
      cases found
      exact same ▸ top
    · rw [if_neg same, Option.or_eq_some_iff] at found
      rcases found with inside | ⟨-, behind⟩
      · exact ihInner below inside
      · exact ihRest later behind

/-- What grows at a node of a tree grows in the tree. -/
theorem Grows.nodeAt (holds : Holds s f) (found : f.nodeAt q = some (info, c))
    (grows : Grows s t (.cons (q, info) c .nil) (.cons (q, info) c' .nil)) :
    Grows s t f (f.setBelow q c') := by
  induction f with
  | nil => cases found
  | cons label inner rest ihInner ihRest =>
    obtain ⟨p, i⟩ := label
    obtain ⟨top, below, later⟩ := holds.uncons
    have distinct := holds.distinct
    rw [Forest.cells_cons, List.nodup_cons, List.nodup_append] at distinct
    rw [Forest.nodeAt] at found
    rw [Forest.setBelow]
    by_cases same : p = q
    · rw [if_pos same] at found ⊢
      cases found
      rw [same]
      exact @Grows.within _ _ _ _ grows .nil rest (same ▸ holds)
    · rw [if_neg same, Option.or_eq_some_iff] at found
      rw [if_neg same]
      rcases found with inside | ⟨notInside, behind⟩
      -- the tree is in one of the two parts, and the other stays as it is
      · have mem : q ∈ inner.cells := by
          rw [← Forest.nodeAt_isSome_iff, inside]
          rfl
        rw [Forest.setBelow_of_not_mem fun later => distinct.2.2.2 q mem q later rfl]
        exact @Grows.within _ _ _ _ ((ihInner below inside).inside top) .nil rest holds
      · rw [Forest.setBelow_of_not_mem (Forest.nodeAt_eq_none_iff.mp notInside)]
        have whole : Holds s (.cons (p, i) inner .nil ++ rest ++ .nil) := by
          rw [Forest.append_nil]
          exact holds
        have grown := (ihRest later behind).within whole
        rw [Forest.append_nil, Forest.append_nil] at grown
        exact grown

/-- A node that keeps its children. -/
theorem setBelow_self (distinct : f.cells.Nodup) (found : f.nodeAt q = some (info, c)) :
    f.setBelow q c = f := by
  induction f with
  | nil => rfl
  | cons label inner rest ihInner ihRest =>
    obtain ⟨p, i⟩ := label
    rw [Forest.cells_cons, List.nodup_cons, List.nodup_append] at distinct
    rw [Forest.nodeAt] at found
    rw [Forest.setBelow]
    by_cases same : p = q
    · rw [if_pos same] at found ⊢
      cases found
      rfl
    · rw [if_neg same, Option.or_eq_some_iff] at found
      rw [if_neg same]
      rcases found with inside | ⟨notInside, behind⟩
      · have mem : q ∈ inner.cells := by
          rw [← Forest.nodeAt_isSome_iff, inside]
          rfl
        rw [ihInner distinct.2.1 inside,
          Forest.setBelow_of_not_mem fun later => distinct.2.2.2 q mem q later rfl]
      · rw [ihRest distinct.2.2.1 behind,
          Forest.setBelow_of_not_mem (Forest.nodeAt_eq_none_iff.mp notInside)]

end

/-! ## What the calls do to a tree -/

inductive TreeCall where
  | add (parent : Ptr) (name : CStr) (value : Option CStr)
  | find (parent : Ptr) (name : CStr)
  | findOrAdd (parent : Ptr) (name : CStr)
  | del (node : Ptr)

/-- The node that a call is made with. -/
def TreeCall.node : TreeCall → Ptr
  | .add parent _ _ => parent
  | .find parent _ => parent
  | .findOrAdd parent _ => parent
  | .del node => node

def TreeCall.run : TreeCall → NodeM (Option Ptr)
  | .add parent name value => valueNodeAdd (some parent) name value
  | .find parent name => valueNodeFind (some parent) name
  | .findOrAdd parent name => valueNodeFindOrAdd (some parent) name
  | .del node => do
    valueNodeDel (some node)
    return none

/-- The child at `p` has the name. -/
def IsChild (c : NodeForest) (name : CStr) (p : Ptr) : Prop := ∃ i, (p, i) ∈ c.roots ∧ i.name = name

/-- One new childless node, behind the children that a node had. -/
def Appends (f : NodeForest) (parent : Ptr) (c : NodeForest) (name : CStr) (value : Option CStr)
    (r : Option Ptr) (f' : NodeForest) : Prop :=
  name ∉ names c.shape ∧ ∃ n, n ∉ f.cells ∧ r = some n ∧
    f' = f.setBelow parent (c ++ .leaf (n, ⟨name, 0, value⟩))

/-- What a call that is made with a node of the tree `f` returns, and the tree it leaves. -/
def TreeCall.Does (f : NodeForest) (r : Option Ptr) (f' : NodeForest) : TreeCall → Prop
  | .add parent name value => ∃ info c, f.nodeAt parent = some (info, c) ∧
    (name ∈ names c.shape ∧ r = none ∧ f' = f ∨ Appends f parent c name value r f')
  | .find parent name => ∃ info c, f.nodeAt parent = some (info, c) ∧ f' = f ∧
    ∀ p, r = some p ↔ IsChild c name p
  | .findOrAdd parent name => ∃ info c, f.nodeAt parent = some (info, c) ∧
    ((∃ p, IsChild c name p ∧ r = some p ∧ f' = f) ∨ Appends f parent c name none r f')
  | .del node => r = none ∧ f' = f.remove node

/-- What shows only in the state: `value_node_find_or_add` finds the same node when it is
    called again, and the nodes that have been removed are freed. -/
def TreeCall.Leaves (f : NodeForest) (r : Option Ptr) (f' : NodeForest) (s' : Nodes) :
    TreeCall → Prop
  | .findOrAdd parent name => r ≠ none ∧
    ∃ s'', valueNodeFindOrAdd (some parent) name s' = .ok (r, s'')
  | .del _ => ∀ p ∈ f.cells, p ∉ f'.cells → s'.heap.get? p = none
  | .add _ _ _ => True
  | .find _ _ => True

/-- A tree in memory. -/
structure Tidy (s : Nodes) (f : NodeForest) : Prop where
  holds : Holds s f
  /-- Every node is allocated below its parent. -/
  owned : f.Owned s.heap.owners []
  /-- Siblings have different names. -/
  siblings : f.Every fun _ children => (names children.shape).Nodup
  single : f.roots.length ≤ 1

/-! ## Finding and adding -/

theorem names_shape (c : NodeForest) : names c.shape = c.roots.map fun a => a.2.name := by
  rw [names, Forest.shape, Forest.roots_map, List.map_map]
  rfl

section

variable {s s' t : Nodes} {f c : NodeForest} {q n : Ptr} {info : NodeInfo} {name : CStr}

theorem isChild_of_mem (mem : name ∈ names c.shape) : ∃ p, IsChild c name p := by
  rw [names_shape] at mem
  obtain ⟨⟨p, i⟩, isRoot, rfl⟩ := List.mem_map.mp mem
  exact ⟨p, i, isRoot, rfl⟩

theorem IsChild.mem {p : Ptr} (child : IsChild c name p) : name ∈ names c.shape := by
  obtain ⟨i, isRoot, rfl⟩ := child
  rw [names_shape]
  exact List.mem_map.mpr ⟨(p, i), isRoot, rfl⟩

/-- With distinct names there is one child of a name. -/
theorem IsChild.unique (distinct : (names c.shape).Nodup) {p p' : Ptr} (child : IsChild c name p)
    (child' : IsChild c name p') : p = p' := by
  obtain ⟨i, isRoot, rfl⟩ := child
  obtain ⟨i', isRoot', same⟩ := child'
  rw [names_shape] at distinct
  exact congrArg Prod.fst (List.inj_on_of_nodup_map distinct isRoot isRoot' same.symm)

/-- The search below a node returns its child of the name, if there is one. -/
theorem valueNodeFind_child (holds : Holds s (.cons (q, info) c .nil))
    (distinct : (names c.shape).Nodup) (name : CStr) :
    ∃ r, valueNodeFind (some q) name s = .ok (r, s.call (some q)) ∧
      ∀ p, r = some p ↔ IsChild c name p := by
  have stored := holds.children.stored
  cases Forest.split_first (fun a : Ptr × NodeInfo => a.2.isNamed name) c with
  | inl absent =>
    refine ⟨none, valueNodeFind_ok holds.cell (findNode_none (shallow_name name) stored absent), ?_⟩
    intro p
    refine ⟨fun none => absurd none (by simp), ?_⟩
    rintro ⟨i, isRoot, rfl⟩
    have skipped := absent (p, i) isRoot
    simp [NodeInfo.isNamed] at skipped
  | inr first =>
    obtain ⟨before, ⟨p, i⟩, children, after, rfl, named, skipped⟩ := first
    have found := findNode_first (shallow_name name) stored skipped named
    have child : IsChild (before ++ .cons (p, i) children after) name p := by
      refine ⟨i, ?_, by simpa [NodeInfo.isNamed] using named⟩
      rw [Forest.roots_append]
      exact List.mem_append_right _ List.mem_cons_self
    refine ⟨some p, valueNodeFind_ok holds.cell found, fun p' => ?_⟩
    rw [Option.some.injEq]
    constructor
    · rintro rfl
      exact child
    · exact child.unique distinct

theorem Tidy.distinct (tidy : Tidy s f) (found : f.nodeAt q = some (info, c)) :
    (names c.shape).Nodup := (tidy.siblings.nodeAt found).1

/-- Calls that leave the tree alone. -/
theorem Tidy.same (tidy : Tidy s f) (grows : Grows s t f f) : Tidy t f where
  holds := grows.holds
  owned := tidy.owned.congr fun p mem => grows.owners p (tidy.holds.lt_next mem)
  siblings := tidy.siblings
  single := tidy.single

theorem Tidy.grows_same (tidy : Tidy s f) (found : f.nodeAt q = some (info, c))
    (grows : Grows s t (.cons (q, info) c .nil) (.cons (q, info) c .nil)) : Grows s t f f := by
  have grown := grows.nodeAt tidy.holds found
  rw [setBelow_self tidy.holds.distinct found] at grown
  exact grown

/-- The new node is below the one it has been added to. -/
theorem owners_of_added {value : Option CStr}
    (run : valueNodeAdd (some q) name value s = .ok (some n, s')) :
    s.heap.next ≤ n ∧ s'.heap.owners n = q :: s.heap.owners q := by
  obtain ⟨vn, live, dup | ⟨-, isNew, rfl⟩⟩ := valueNodeAdd_cases run
  · cases dup.1
  · cases isNew
    refine ⟨Nat.le_succ _, ?_⟩
    have kept : (s.heap.alloc (some q) .zero).get? q = some vn := Heap.get?_alloc_of_get? live
    have old : q ≠ s.heap.next := Nat.ne_of_lt (Heap.lt_next_of_get? live)
    rw [addedHeap, Heap.owners_set, Heap.owners_set]
    have above := Heap.owners_alloc_self (s.heap.alloc (some q) .zero) (some q) .zero
    rw [Heap.path_of_get? kept, Heap.owners_alloc_of_ne old] at above
    exact above

/-- Adding below a node whose children do not have the name. -/
theorem Tidy.appends (tidy : Tidy s f) (found : f.nodeAt q = some (info, c))
    (new : name ∉ names c.shape) (value : Option CStr) :
    ∃ r s' f', valueNodeAdd (some q) name value s = .ok (r, s') ∧
      Appends f q c name value r f' ∧ Tidy s' f' := by
  have untaken : c.shape.roots.any (NodeInfo.isNamed name) = false := by
    rw [← Bool.not_eq_true, any_isNamed]
    exact new
  obtain ⟨n, s', run, grows⟩ := valueNodeAdd_accepted (tidy.holds.nodeAt found) untaken value
  obtain ⟨late, isBelow⟩ := owners_of_added run
  have fresh : n ∉ f.cells := fun mem => Nat.not_lt.mpr late (tidy.holds.lt_next mem)
  have grown := grows.nodeAt tidy.holds found
  have owned := tidy.owned.congr fun p mem => grown.owners p (tidy.holds.lt_next mem)
  have old : s'.heap.owners q = s.heap.owners q := by
    apply grown.owners q (tidy.holds.lt_next _)
    rw [← Forest.nodeAt_isSome_iff, found]
    rfl
  have distinct := tidy.siblings.nodeAt found
  have distinctNow : (names (c ++ .leaf (n, ⟨name, 0, value⟩)).shape).Nodup := by
    rw [Forest.shape, Forest.map_append, names_append]
    exact List.concat_eq_append ▸ distinct.1.concat new
  refine ⟨some n, s', _, run, ⟨new, n, fresh, rfl, rfl⟩, grown.holds, ?_, ?_, ?_⟩
  · apply owned.setBelow
    exact Forest.owned_append.mpr ⟨owned.nodeAt found, by rw [isBelow, old], trivial, trivial⟩
  · apply tidy.siblings.setBelow
    · intro _ g h same distinct
      rw [names_shape] at distinct ⊢
      exact same ▸ distinct
    · exact fun _ => distinctNow
    · exact Forest.every_append.mpr ⟨distinct.2, List.nodup_nil, trivial, trivial⟩
  · rw [Forest.roots_setBelow]
    exact tidy.single

end

/-! ## Removing -/

section

variable {s : Nodes} {f : NodeForest} {p : Ptr}

/-- Deleting frees a node and what is below it, takes it out of the list of the node above
    it, and leaves everything else. -/
theorem Tidy.valueNodeDel_ok (tidy : Tidy s f) (mem : p ∈ f.cells) :
    ∃ s', valueNodeDel (some p) s = .ok ((), s') ∧
      (∀ x, x = p ∨ p ∈ s.heap.owners x → s'.heap.get? x = none) ∧
      ∀ x, x ≠ p → p ∉ s.heap.owners x → s'.heap.owners x = s.heap.owners x ∧
        ∀ cell, s.heap.get? x = some cell → s'.heap.get? x = some
          (if (s.heap.owners p).head? = some x then
            { cell with children := cell.children.erase p } else cell) := by
  obtain ⟨info, c, found⟩ := Forest.exists_nodeAt mem
  have live := (tidy.holds.nodeAt found).cell
  have freed : ∀ heap : Heap ValueNode, (∀ x, heap.owners x = s.heap.owners x) →
      ∀ x, x = p ∨ p ∈ s.heap.owners x → (heap.free p).get? x = none := by
    rintro heap same x (rfl | below)
    · exact Heap.get?_free_self heap x
    · exact Heap.get?_free_of_above (same x ▸ below)
  cases isAbove : s.heap.owners p with
  | nil =>
    refine ⟨_, valueNodeDel_root live isAbove, freed s.heap fun _ => rfl, fun x other outside => ?_⟩
    refine ⟨Heap.owners_free_of_survives other outside, fun cell isCell => ?_⟩
    rw [if_neg (by simp)]
    exact (Heap.get?_free_of_survives other outside).trans isCell
  | cons parent above =>
    -- the node above is a node of the tree
    have inTree : parent ∈ f.cells := by
      obtain ⟨inner, isInner, among⟩ := tidy.owned.path mem
      rw [List.append_nil] at isInner
      exact among (isInner ▸ isAbove ▸ List.mem_cons_self)
    obtain ⟨info', c', found'⟩ := Forest.exists_nodeAt inTree
    have isParent := (tidy.holds.nodeAt found').cell
    refine ⟨_, valueNodeDel_below live isAbove isParent, freed _ (Heap.owners_set _ _ · _), ?_⟩
    intro x other outside
    have kept : p ∉ (s.heap.set parent { info'.node c'.addresses with
        children := (info'.node c'.addresses).children.erase p }).owners x := by
      rw [Heap.owners_set]
      exact outside
    refine ⟨(Heap.owners_free_of_survives other kept).trans (Heap.owners_set _ _ _ _), ?_⟩
    intro cell isCell
    refine (Heap.get?_free_of_survives other kept).trans ?_
    rw [List.head?_cons]
    by_cases same : x = parent
    · subst same
      cases isCell.symm.trans isParent
      rw [if_pos rfl]
      exact Heap.get?_set_self isCell _
    · rw [if_neg fun is => same (Option.some.inj is).symm]
      exact (Heap.get?_set_of_ne same).trans isCell

theorem Tidy.removes (tidy : Tidy s f) (mem : p ∈ f.cells) :
    ∃ s', valueNodeDel (some p) s = .ok ((), s') ∧ Tidy s' (f.remove p) ∧
      ∀ x ∈ f.cells, x ∉ (f.remove p).cells → s'.heap.get? x = none := by
  obtain ⟨s', run, freed, kept⟩ := tidy.valueNodeDel_ok mem
  have distinct := tidy.holds.distinct
  have outside : ∀ x ∈ (f.remove p).cells, x ≠ p ∧ p ∉ s.heap.owners x := fun x left =>
    tidy.owned.outside distinct List.not_mem_nil left
  refine ⟨s', run, ⟨⟨?_, ?_⟩, ?_, ?_, ?_⟩, fun x isNode gone => ?_⟩
  · apply tidy.holds.stored.remove distinct
    intro x left a children seen
    obtain ⟨other, above⟩ := outside x left
    have cell := (kept x other above).2 _ (view_eq_some.mp seen)
    rw [view_eq_some, cell]
    by_cases isParent : (s.heap.owners p).head? = some x
    · rw [if_pos isParent]
      rfl
    -- only the node above lists the one that is removed
    · have unlisted : p ∉ children := by
        intro child
        have inTree := (Forest.cells_remove_sublist p f).subset left
        have isAbove := tidy.owned.parent tidy.holds.stored inTree seen child
        rw [isAbove] at isParent
        exact isParent rfl
      rw [if_neg isParent, List.erase_of_not_mem unlisted]
  · exact distinct.sublist (Forest.cells_remove_sublist p f)
  · apply (tidy.owned.remove p).congr
    exact fun x left => (kept x (outside x left).1 (outside x left).2).1
  · apply tidy.siblings.remove
    intro _ g h smaller distinct
    rw [names_shape] at distinct ⊢
    exact distinct.sublist (smaller.map _)
  · exact (Forest.roots_remove_sublist p f).length_le.trans tidy.single
  · exact freed x (tidy.owned.inside isNode gone)

end

/-! ## Sequences of calls -/

section

variable {s : Nodes} {f : NodeForest} {q : Ptr} {name : CStr}

theorem Tidy.findOrAdd (tidy : Tidy s f) {info : NodeInfo} {c : NodeForest}
    (found : f.nodeAt q = some (info, c)) (name : CStr) :
    ∃ r s' f', valueNodeFindOrAdd (some q) name s = .ok (r, s') ∧ Tidy s' f' ∧
      ((∃ p, IsChild c name p ∧ r = some p ∧ f' = f) ∨ Appends f q c name none r f') := by
  have called := grows_call (tidy.holds.nodeAt found) q
  have again := called.trans (grows_call called.holds q)
  obtain ⟨r, search, isFound⟩ := valueNodeFind_child called.holds (tidy.distinct found) name
  cases r with
  | some p =>
    refine ⟨some p, _, f, ?_, tidy.same (tidy.grows_same found again),
      .inl ⟨p, (isFound p).mp rfl, rfl, rfl⟩⟩
    rw [valueNodeFindOrAdd, OsmoSysmon.called, bind_ok (modify_ok _ s), bind_ok search]
    rfl
  | none =>
    have new : name ∉ names c.shape := by
      intro taken
      obtain ⟨p, child⟩ := isChild_of_mem taken
      cases (isFound p).mpr child
    obtain ⟨r, s', f', run, appends, tidy'⟩ :=
      (tidy.same (tidy.grows_same found again)).appends found new none
    refine ⟨r, s', f', ?_, tidy', .inr appends⟩
    rw [valueNodeFindOrAdd, OsmoSysmon.called, bind_ok (modify_ok _ s), bind_ok search]
    exact run

/-- What has been found or added is found by the next call. -/
theorem Tidy.findOrAdd_again (tidy : Tidy s f) {info : NodeInfo} {c : NodeForest}
    (found : f.nodeAt q = some (info, c)) {p : Ptr} (child : IsChild c name p) :
    ∃ s', valueNodeFindOrAdd (some q) name s = .ok (some p, s') := by
  obtain ⟨r, s', f', run, -, ⟨p', child', rfl, -⟩ | appends⟩ := tidy.findOrAdd found name
  · rw [child.unique (tidy.distinct found) child']
    exact ⟨s', run⟩
  · exact absurd child.mem appends.1

/-- A call with a node of the tree returns, and does what it is to do. -/
theorem treeCall_runs (tidy : Tidy s f) {call : TreeCall} (mem : call.node ∈ f.cells) :
    ∃ r s' f', call.run s = .ok (r, s') ∧ call.Does f r f' ∧ call.Leaves f r f' s' ∧ Tidy s' f' := by
  obtain ⟨info, c, found⟩ := Forest.exists_nodeAt mem
  cases call with
  | add parent name value =>
    by_cases taken : name ∈ names c.shape
    · obtain ⟨s', run, grows⟩ :=
        valueNodeAdd_refused (tidy.holds.nodeAt found) ((any_isNamed _ _).mpr taken) value
      exact ⟨none, s', f, run, ⟨info, c, found, .inl ⟨taken, rfl, rfl⟩⟩, trivial,
        tidy.same (tidy.grows_same found grows)⟩
    · obtain ⟨r, s', f', run, appends, tidy'⟩ := tidy.appends found taken value
      exact ⟨r, s', f', run, ⟨info, c, found, .inr appends⟩, trivial, tidy'⟩
  | find parent name =>
    obtain ⟨r, run, isFound⟩ :=
      valueNodeFind_child (tidy.holds.nodeAt found) (tidy.distinct found) name
    have called := grows_call (tidy.holds.nodeAt found) parent
    exact ⟨r, _, f, run, ⟨info, c, found, rfl, isFound⟩, trivial,
      tidy.same (tidy.grows_same found called)⟩
  | findOrAdd parent name =>
    obtain ⟨r, s', f', run, tidy', does⟩ := tidy.findOrAdd found name
    refine ⟨r, s', f', run, ⟨info, c, found, does⟩, ?_, tidy'⟩
    rcases does with ⟨p, child, rfl, rfl⟩ | ⟨new, n, -, rfl, rfl⟩
    · exact ⟨Option.some_ne_none p, tidy'.findOrAdd_again found child⟩
    · have added : IsChild (c ++ .leaf (n, ⟨name, 0, none⟩)) name n := by
        refine ⟨⟨name, 0, none⟩, ?_, rfl⟩
        rw [Forest.roots_append, Forest.roots_leaf, List.mem_append]
        exact .inr List.mem_cons_self
      exact ⟨Option.some_ne_none n, tidy'.findOrAdd_again (Forest.nodeAt_setBelow found _) added⟩
  | del node =>
    obtain ⟨s', run, tidy', freed⟩ := tidy.removes mem
    exact ⟨none, s', f.remove node, bind_ok run _, ⟨rfl, rfl⟩, freed, tidy'⟩

/-- The calls are made one after the other, each with a node of the tree that there is by
    then: every call does what it is to do, and the tree stays tidy. -/
def Follows : List TreeCall → Nodes → NodeForest → Prop
  | [], s, f => Tidy s f
  | call :: calls, s, f => Tidy s f ∧ (call.node ∈ f.cells → ∃ r s' f',
    call.run s = .ok (r, s') ∧ call.Does f r f' ∧ call.Leaves f r f' s' ∧ Follows calls s' f')

theorem Tidy.follows (tidy : Tidy s f) (calls : List TreeCall) : Follows calls s f := by
  induction calls generalizing s f with
  | nil => exact tidy
  | cons call calls ih =>
    refine ⟨tidy, fun mem => ?_⟩
    obtain ⟨r, s', f', run, does, leaves, tidy'⟩ := treeCall_runs tidy mem
    exact ⟨r, s', f', run, does, leaves, ih tidy'⟩

/-- A new root is a tree. -/
theorem tidy_root (s : Nodes) (name : CStr) (value : Option CStr) :
    Tidy ⟨rootHeap s.heap name value, none :: s.parents⟩
      (.leaf (s.heap.next + 1, ⟨name, 0, value⟩)) := by
  refine ⟨holds_rootHeap s name value _, ⟨?_, trivial, trivial⟩, ?_, Nat.le_refl 1⟩
  · rw [rootHeap, Heap.owners_set]
    exact Heap.owners_alloc_self (s.heap.alloc none .zero) none .zero
  · exact ⟨List.nodup_nil, trivial, trivial⟩

/-- **Whatever calls follow the creation of a tree, each with a node of the tree: siblings have
    different names, and every call does to the tree exactly what it is to do.** -/
theorem treeCalls_follow (s : Nodes) (name : CStr) (value : Option CStr) (calls : List TreeCall) :
    ∃ root s', valueNodeAdd none name value s = .ok (some root, s') ∧
      Follows calls s' (.leaf (root, ⟨name, 0, value⟩)) :=
  ⟨_, _, valueNodeAdd_root name value s, (tidy_root s name value).follows calls⟩

end

end OsmoSysmon
