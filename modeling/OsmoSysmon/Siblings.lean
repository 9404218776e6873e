import OsmoSysmon.Sections

/-! # Names of siblings

However `value_node_add` is called, with whatever parent and on whatever heap, it never
makes two children of one node have the same name.
-/

namespace OsmoSysmon

open CText Talloc Loop

def nameAt (heap : Heap ValueNode) (p : Ptr) : Option CStr := (heap.get? p).bind ValueNode.name

/-- The children of `p` have different names. -/
def Siblings (p : Ptr) (s : Nodes) : Prop :=
  ∀ vn, s.heap.get? p = some vn →
    (∀ c ∈ vn.children, c < s.heap.next) ∧ (vn.children.map (nameAt s.heap)).Nodup

theorem nameAt_congr {heap heap' : Heap ValueNode} {p : Ptr}
    (same : heap'.get? p = heap.get? p) : nameAt heap' p = nameAt heap p := by
  rw [nameAt, same, nameAt]

/-- Children keep their names. -/
theorem map_nameAt {h h' : Heap ValueNode} {children : List Ptr}
    (old : ∀ c ∈ children, c < h.next) (same : ∀ c, c < h.next → nameAt h' c = nameAt h c) :
    children.map (nameAt h') = children.map (nameAt h) :=
  List.map_congr_left fun c mem => same c (old c mem)

theorem siblings_of_same {p : Ptr} {s t : Nodes} (siblings : Siblings p s)
    (cell : t.heap.get? p = s.heap.get? p)
    (names : ∀ c, c < s.heap.next → nameAt t.heap c = nameAt s.heap c)
    (next : s.heap.next ≤ t.heap.next) : Siblings p t := by
  intro vn live
  rw [cell] at live
  obtain ⟨old, distinct⟩ := siblings vn live
  refine ⟨fun c mem => Nat.lt_of_lt_of_le (old c mem) next, ?_⟩
  rw [map_nameAt old names]
  exact distinct

theorem siblings_of_childless {p : Ptr} {s : Nodes}
    (childless : ∀ vn, s.heap.get? p = some vn → vn.children = []) : Siblings p s := by
  intro vn live
  simp [childless vn live]

/-- A node that is not there yet has no children when it is made. -/
theorem childless_alloc {p : Ptr} {h : Heap ValueNode} (new : h.next ≤ p) (parent : Option Ptr)
    (vn : ValueNode) (live : (h.alloc parent .zero).get? p = some vn) : vn.children = [] := by
  by_cases isNext : p = h.next
  · subst isNext
    rw [Heap.get?_alloc_self] at live
    cases live
    rfl
  · rw [Heap.get?_alloc_of_ne isNext] at live
    exact absurd (Heap.lt_next_of_get? live) (Nat.not_lt.mpr new)

theorem childless_two {p : Ptr} {h : Heap ValueNode} {filled : ValueNode} (new : h.next ≤ p)
    (parent : Option Ptr) (empty : filled.children = []) (vn : ValueNode)
    (live : (((h.alloc parent .zero).alloc parent .zero).set (h.next + 1) filled).get? p =
      some vn) : vn.children = [] := by
  by_cases second : p = h.next + 1
  · have isZero : ((h.alloc parent .zero).alloc parent .zero).get? (h.next + 1) =
        some ValueNode.zero := Heap.get?_alloc_self (h.alloc parent .zero) parent _
    rw [second, Heap.get?_set_self isZero] at live
    cases live
    exact empty
  · rw [Heap.get?_set_of_ne second, Heap.get?_alloc_of_ne second] at live
    exact childless_alloc new parent vn live

theorem siblings_alloc {p : Ptr} {s : Nodes} (siblings : Siblings p s) (parent : Option Ptr)
    (parents : List (Option Ptr)) : Siblings p ⟨s.heap.alloc parent .zero, parents⟩ := by
  by_cases early : p < s.heap.next
  · apply siblings_of_same siblings (Heap.get?_alloc_of_ne (Nat.ne_of_lt early))
    · exact fun c old => nameAt_congr (Heap.get?_alloc_of_ne (Nat.ne_of_lt old))
    · exact Nat.le_succ _
  · exact siblings_of_childless (childless_alloc (Nat.le_of_not_lt early) parent)

theorem siblings_rootHeap {p : Ptr} {s : Nodes} (siblings : Siblings p s) (name : CStr)
    (value : Option CStr) (parents : List (Option Ptr)) :
    Siblings p ⟨rootHeap s.heap name value, parents⟩ := by
  have same : ∀ c, c < s.heap.next → (rootHeap s.heap name value).get? c = s.heap.get? c := by
    intro c old
    have notNew : c ≠ s.heap.next + 1 := Nat.ne_of_lt (Nat.lt_succ_of_lt old)
    rw [rootHeap, Heap.get?_set_of_ne notNew, Heap.get?_alloc_of_ne notNew,
      Heap.get?_alloc_of_ne (Nat.ne_of_lt old)]
  by_cases early : p < s.heap.next
  · apply siblings_of_same siblings (same p early)
    · exact fun c old => nameAt_congr (same c old)
    · exact Nat.le_add_right _ 2
  · exact siblings_of_childless (childless_two (Nat.le_of_not_lt early) none rfl)

/-- The search in a list that ends without a node has seen every node. -/
theorem findNode_skips {heap : Heap ValueNode} {sel : ValueNode → Bool} {ps : List Ptr}
    (missing : findNode heap sel ps = .ok none) {p : Ptr} (mem : p ∈ ps) :
    ∃ vn, heap.get? p = some vn ∧ sel vn = false := by
  induction ps with
  | nil => cases mem
  | cons q ps ih =>
    cases live : heap.get? q with
    | none =>
      rw [findNode, derefNode, live] at missing
      cases missing
    | some vn =>
      rw [findNode_cons live] at missing
      cases chosen : sel vn with
      | true =>
        rw [chosen] at missing
        cases missing
      | false =>
        rw [chosen] at missing
        cases mem with
        | head => exact ⟨vn, live, chosen⟩
        | tail _ later => exact ih missing later

theorem nameAt_addedHeap {h : Heap ValueNode} {q c : Ptr} {cell : ValueNode}
    (live : h.get? q = some cell) (old : c < h.next) (name : CStr) (value : Option CStr) :
    nameAt (addedHeap h q cell name value) c = nameAt h c := by
  by_cases same : c = q
  · subst same
    rw [nameAt, get?_addedHeap_self live, nameAt, live]
    rfl
  · exact nameAt_congr (get?_addedHeap_old old same name value)

theorem siblings_addedHeap {p q : Ptr} {s : Nodes} {cell : ValueNode} {name : CStr}
    (siblings : Siblings p s) (live : s.heap.get? q = some cell)
    (missing : findNode (s.heap.alloc (some q) .zero) (fun vn => vn.name == some name)
      cell.children = .ok none) (value : Option CStr) (parents : List (Option Ptr)) :
    Siblings p ⟨addedHeap s.heap q cell name value, parents⟩ := by
  by_cases isParent : p = q
  -- the list of the parent gets longer by one name
  · subst isParent
    intro vn after
    rw [get?_addedHeap_self live] at after
    cases after
    obtain ⟨old, distinct⟩ := siblings cell live
    constructor
    · intro c mem
      simp only [List.mem_append, List.mem_singleton] at mem
      cases mem with
      | inl before => exact Nat.lt_add_right 2 (old c before)
      | inr isNew => exact isNew ▸ Nat.lt_succ_self _
    · have newName : nameAt (addedHeap s.heap p cell name value) (s.heap.next + 1) = some name := by
        rw [nameAt, get?_addedHeap_new live]
        rfl
      rw [List.map_append, map_nameAt old fun c early => nameAt_addedHeap live early name value,
        List.map_singleton, newName, ← List.concat_eq_append]
      apply distinct.concat
      intro before
      -- a child of that name would have been found
      obtain ⟨c, mem, isChild⟩ := List.mem_map.mp before
      obtain ⟨vn, seen, skipped⟩ := findNode_skips missing mem
      rw [Heap.get?_alloc_of_ne (Nat.ne_of_lt (old c mem))] at seen
      rw [nameAt, seen, Option.bind_some] at isChild
      simp [isChild] at skipped
  · by_cases early : p < s.heap.next
    · apply siblings_of_same siblings (get?_addedHeap_old early isParent name value)
      · exact fun c old => nameAt_addedHeap live old name value
      · exact Nat.le_add_right _ 2
    · apply siblings_of_childless
      intro vn after
      rw [addedHeap] at after
      rw [Heap.get?_set_of_ne isParent] at after
      exact childless_two (Nat.le_of_not_lt early) (some q) rfl vn after

/-! ## Programs -/

section

variable (p : Ptr)

theorem valueNodeFind_keeps (parent : Option Ptr) (name : CStr) :
    Keeps (Siblings p) (valueNodeFind parent name) := by
  intro s r t siblings run
  obtain ⟨q, vn, -, -, -, rfl⟩ := valueNodeFind_inv run
  exact siblings

theorem valueNodeFindByIdx_keeps (parent : Option Ptr) (idx : Int32) :
    Keeps (Siblings p) (valueNodeFindByIdx parent idx) := by
  intro s r t siblings run
  rw [valueNodeFindByIdx_inv run]
  exact siblings

theorem valueNodeAdd_keeps (parent : Option Ptr) (name : CStr) (value : Option CStr) :
    Keeps (Siblings p) (valueNodeAdd parent name value) := by
  intro s r t siblings run
  cases parent with
  | none =>
    rw [valueNodeAdd_root] at run
    cases run
    exact siblings_rootHeap siblings name value _
  | some q =>
    obtain ⟨cell, live, dup | added⟩ := valueNodeAdd_cases run
    · rw [dup.2]
      exact siblings_alloc siblings (some q) _
    · obtain ⟨missing, -, rfl⟩ := added
      exact siblings_addedHeap siblings live missing value _

theorem valueNodeFindOrAdd_keeps (parent : Option Ptr) (name : CStr) :
    Keeps (Siblings p) (valueNodeFindOrAdd parent name) := by
  apply Keeps.bind
  · intro s _ t siblings run
    cases run
    exact siblings
  intro _
  apply Keeps.bind (valueNodeFind_keeps p parent name)
  intro found
  cases found with
  | some q => exact .pure _ _
  | none => exact valueNodeAdd_keeps p parent name none

theorem assignIdx_keeps (q : Ptr) (idx : Option Int32) : Keeps (Siblings p) (assignIdx q idx) := by
  cases idx with
  | none => exact .pure _ _
  | some idx =>
    intro s _ t siblings run
    cases live : s.heap.get? q with
    | none =>
      rw [assignIdx, modifyNode, bind_ok (get_ok s), derefNode, live] at run
      cases run
    | some cell =>
      rw [assignIdx, modifyNode_ok live] at run
      cases run
      have names : ∀ c, c < s.heap.next →
          nameAt (s.heap.set q { cell with idx }) c = nameAt s.heap c := by
        intro c _
        by_cases same : c = q
        · rw [same, nameAt, Heap.get?_set_self live, nameAt, live]
          rfl
        · exact nameAt_congr (Heap.get?_set_of_ne same)
      by_cases same : p = q
      · subst same
        intro vn after
        rw [Nodes.heap_withHeap, Heap.get?_set_self live] at after
        cases after
        obtain ⟨old, distinct⟩ := siblings cell live
        refine ⟨old, ?_⟩
        rw [Nodes.heap_withHeap, map_nameAt old names]
        exact distinct
      · exact siblings_of_same siblings (Heap.get?_set_of_ne same) names (Nat.le_refl _)

theorem addValues_keeps (vn : Option Ptr) (values : List (CStr × CStr)) :
    Keeps (Siblings p) (addValues vn values) := by
  induction values with
  | nil => exact .pure _ _
  | cons v values ih =>
    apply Keeps.bind (valueNodeAdd_keeps p vn v.1 (some v.2))
    intro _
    exact ih

theorem runItem_keeps (head : Option Ptr) (item : Item) :
    Keeps (Siblings p) (runItem head item) := by
  cases item with
  | value name text =>
    apply Keeps.bind (valueNodeAdd_keeps p head name (some text))
    intro _
    exact .pure _ _
  | group name idx values =>
    apply Keeps.bind (valueNodeFindOrAdd_keeps p head name)
    intro found
    cases found with
    | none => exact .pure _ _
    | some vn =>
      apply Keeps.bind (assignIdx_keeps p vn idx)
      intro _
      exact addValues_keeps p (some vn) values
  | atIdx idx values =>
    apply Keeps.bind (valueNodeFindByIdx_keeps p head idx)
    intro found
    cases found with
    | none => exact .pure _ _
    | some vn => exact addValues_keeps p (some vn) values

theorem runItems_keeps (head : Option Ptr) (items : List Item) :
    Keeps (Siblings p) (runItems head items) := by
  induction items with
  | nil => exact .pure _ _
  | cons item items ih =>
    apply Keeps.bind (runItem_keeps p head item)
    intro _
    exact ih

theorem runSections_keeps (parent : Option Ptr) (secs : List Section) :
    Keeps (Siblings p) (runSections parent secs) := by
  induction secs with
  | nil => exact .pure _ _
  | cons sec secs ih =>
    apply Keeps.bind
    · apply Keeps.bind (valueNodeAdd_keeps p parent sec.title none)
      intro head
      split
      · exact .pure _ _
      · exact runItems_keeps p head sec.items
    intro _
    exact ih

end

/-- In every tree that the polls build, siblings have different names. -/
theorem pollNodes_siblings {H : Type} (os : OsysmonState H) (probes : Probes H) (p : Ptr)
    {s t : Nodes} {result : Option Ptr × List (CtrlClient H)}
    (run : pollNodes os probes s = .ok (result, t)) (siblings : Siblings p s) : Siblings p t := by
  have ends := Effect.effect_of_ok run
  rw [pollNodes_effect os probes s] at ends
  obtain ⟨_, run'⟩ := Effect.ok_of_effect ends
  have kept : Keeps (Siblings p) (do
      let root ← valueNodeAdd none (ascii "root") none
      runSections root (os.sections probes)) := by
    apply Keeps.bind (valueNodeAdd_keeps p none _ none)
    intro root
    exact runSections_keeps p root _
  exact kept s _ t siblings run'

end OsmoSysmon
