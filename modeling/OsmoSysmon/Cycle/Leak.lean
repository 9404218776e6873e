import Mathlib.Data.List.Perm.Subperm
import OsmoSysmon.Cycle.Filing

/-! # What a cycle leaves allocated

`value_node_add` allocates a node before it looks for a duplicate, and again after it.
Below a parent the first node goes when the parent goes.  The root has no parent, so the
first node of the root stays, in every cycle.
-/

namespace OsmoSysmon

open CText Talloc Loop

variable {H : Type}

/-- Cycles, one after the other.  The configuration may change in between. -/
def runCycles : List (OsysmonState H × Probes H) → NodeM Unit
  | [] => pure ()
  | (os, probes) :: cycles => do
    let _ ← printNodes os probes
    runCycles cycles

/-! ## Printing -/

/-- A stored forest is printed when there is fuel for its depth. -/
theorem printNode_ok {heap : Heap ValueNode} {g : NodeForest} (stored : g.Stored (view heap))
    {fuel : Nat} (enough : g.depth ≤ fuel) {p : Ptr} (mem : p ∈ g.addresses) (indent : Nat) :
    ∃ lines, printNode heap fuel p indent = .ok lines := by
  induction g generalizing fuel p indent with
  | nil => cases mem
  | cons label children rest ihChildren ihRest =>
    obtain ⟨q, info⟩ := label
    obtain ⟨here, below, later⟩ := stored
    rw [Forest.depth] at enough
    rw [Forest.addresses_cons, List.mem_cons] at mem
    cases mem with
    | inr behind => exact ihRest later (Nat.le_trans (Nat.le_max_right _ _) enough) behind indent
    | inl same =>
      subst same
      obtain ⟨fuel, rfl⟩ : ∃ k, fuel = k + 1 := ⟨fuel - 1, by omega⟩
      have inner : ∀ c ∈ children.addresses,
          ∃ lines, printNode heap fuel c (indent + 2) = .ok lines := by
        intro c isChild
        exact ihChildren below (by omega) isChild (indent + 2)
      obtain ⟨lines, printed⟩ := mapM_ok inner
      rw [printNode, ok_bind (derefNode_ok (view_eq_some.mp here))]
      cases value : info.value with
      | some text =>
        refine ⟨[List.replicate indent 32 ++ info.name ++ ascii ": " ++ text], ?_⟩
        simp only [NodeInfo.node, value]
        rfl
      | none =>
        refine ⟨(List.replicate indent 32 ++ info.name) :: lines.flatten, ?_⟩
        simp only [NodeInfo.node, value, ok_bind printed]
        rfl

/-- The addresses of a stored forest are different numbers below `next`. -/
theorem Holds.length_cells_le {s : Nodes} {g : NodeForest} (holds : Holds s g) :
    g.cells.length ≤ s.heap.next := by
  have sub : g.cells ⊆ List.range s.heap.next := fun p mem => List.mem_range.mpr (holds.lt_next mem)
  have bound := (List.Nodup.subperm holds.distinct sub).length_le
  rwa [List.length_range] at bound

/-- A tree is not deeper than the number of nodes there have ever been. -/
theorem Holds.depth_le {s : Nodes} {g : NodeForest} (holds : Holds s g) :
    g.depth ≤ s.heap.next := by
  have labels := Forest.depth_le_length_labels g
  have cells := holds.length_cells_le
  rw [Forest.cells, List.length_map] at cells
  exact Nat.le_trans labels cells

theorem displayUpdate_ok {s : Nodes} {root : Ptr} {info : NodeInfo} {g : NodeForest}
    (holds : Holds s (.cons (root, info) g .nil)) :
    ∃ lines, displayUpdate (some root) s = .ok (lines, s) := by
  obtain ⟨lines, printed⟩ := printNode_ok holds.stored holds.depth_le List.mem_cons_self 0
  refine ⟨lines, ?_⟩
  rw [displayUpdate, bind_ok (get_ok s)]
  exact lift_ok printed s

/-! ## Freeing -/

theorem beneath_rootHeap (h : Heap ValueNode) (name : CStr) (value : Option CStr) :
    (rootHeap h name value).Beneath (h.next + 1) := by
  intro o mem later
  have bound := (rootHeap h name value).below o mem
  have isNext : (rootHeap h name value).next = h.next + 2 := rfl
  omega

theorem ids_rootHeap (h : Heap ValueNode) (name : CStr) (value : Option CStr) :
    (rootHeap h name value).ids = [h.next + 1, h.next] ++ h.ids := by
  simp [rootHeap]

/-- Of the nodes allocated since before the root was made, freeing the root leaves one. -/
theorem size_free_root {h h' : Heap ValueNode} {name : CStr} {value : Option CStr}
    {new : List Ptr} (ids : h'.ids = new ++ (rootHeap h name value).ids)
    (late : ∀ i ∈ new, (rootHeap h name value).next ≤ i) (beneath : h'.Beneath (h.next + 1)) :
    (h'.free (h.next + 1)).size = h.size + 1 := by
  -- all nodes of the tree are younger than its root
  have newOut : new.filter (fun i => decide (i < h.next + 1)) = [] := by
    rw [List.filter_eq_nil_iff]
    intro i mem
    have after := late i mem
    have isNext : (rootHeap h name value).next = h.next + 2 := rfl
    simp only [decide_eq_true_eq]
    omega
  have oldIn : h.ids.filter (fun i => decide (i < h.next + 1)) = h.ids := by
    rw [List.filter_eq_self]
    intro i mem
    simp only [decide_eq_true_eq]
    exact Nat.lt_succ_of_lt (Heap.lt_next_of_mem_ids mem)
  rw [Heap.size_free beneath, ids, ids_rootHeap, List.filter_append, List.filter_append, newOut,
    oldIn]
  simp [Heap.ids, Heap.size, Nat.add_comm]

/-! ## Cycles -/

/-- A cycle without a name clash ends, and leaves one more node allocated. -/
theorem printNodes_live (os : OsysmonState H) (probes : Probes H) (s : Nodes)
    (distinct : os.rootNames.Nodup) :
    ∃ result t, printNodes os probes s = .ok (result, t) ∧ t.live = s.live + 1 := by
  obtain ⟨g, ctrlClients, t, run, grows, -⟩ := pollNodes_grows os probes s distinct
  obtain ⟨lines, printed⟩ := displayUpdate_ok grows.holds
  -- the polls keep the root where it has been made, below nothing
  have rootOld : s.heap.next + 1 < (rootHeap s.heap (ascii "root") none).next :=
    Nat.lt_succ_self _
  have top : t.heap.owners (s.heap.next + 1) = [] := by
    rw [grows.owners _ rootOld, rootHeap, Heap.owners_set]
    exact Heap.owners_alloc_self (s.heap.alloc none .zero) none _
  have deleted := valueNodeDel_root grows.holds.cell top
  obtain ⟨new, ids, late⟩ := grows.ids
  have beneath := grows.beneath (s.heap.next + 1) rootOld (by simp)
    (beneath_rootHeap s.heap (ascii "root") none)
  refine ⟨(lines, ctrlClients), t.withHeap (t.heap.free (s.heap.next + 1)), ?_,
    size_free_root ids late beneath⟩
  rw [printNodes, bind_ok run]
  show (displayUpdate _ >>= _) t = _
  rw [bind_ok printed, bind_ok deleted]
  rfl

/-- Cycles without a name clash end.  Each of them leaves one more node allocated, so the
    number of allocated nodes has changed as soon as there has been a cycle. -/
theorem runCycles_leak (cycles : List (OsysmonState H × Probes H)) (s : Nodes)
    (distinct : ∀ cycle ∈ cycles, cycle.1.rootNames.Nodup) :
    ∃ t, runCycles cycles s = .ok ((), t) ∧ t.live = s.live + cycles.length ∧
      (cycles ≠ [] → t.live ≠ s.live) := by
  induction cycles generalizing s with
  | nil => exact ⟨s, rfl, rfl, fun some => absurd rfl some⟩
  | cons cycle cycles ih =>
    obtain ⟨os, probes⟩ := cycle
    obtain ⟨result, t, run, live⟩ := printNodes_live os probes s (distinct _ List.mem_cons_self)
    obtain ⟨u, run', live', -⟩ := ih t fun c mem => distinct c (List.mem_cons_of_mem _ mem)
    have total : u.live = s.live + (cycles.length + 1) := by omega
    refine ⟨u, ?_, total, fun _ => ?_⟩
    · rw [runCycles, bind_ok run, run']
    · omega

/-- A watched file and nothing else. -/
def oneFile : OsysmonState Unit :=
  { (OsysmonState.bare : OsysmonState Unit) with files := [⟨ascii "motd", ascii "/etc/motd"⟩] }

theorem runCycles_leak_twice :
    (∀ cycle ∈ [(oneFile, quietProbes), (OsysmonState.bare, quietProbes)],
      cycle.1.rootNames.Nodup) ∧
    ∃ t, runCycles [(oneFile, quietProbes), (OsysmonState.bare, quietProbes)] Nodes.empty =
        .ok ((), t) ∧
      t.live = Nodes.empty.live + 2 ∧ t.live ≠ Nodes.empty.live := by
  have distinct : ∀ cycle ∈ [(oneFile, quietProbes), (OsysmonState.bare, quietProbes)],
      cycle.1.rootNames.Nodup := by
    decide
  obtain ⟨t, run, live, differs⟩ := runCycles_leak _ Nodes.empty distinct
  exact ⟨distinct, t, run, live, differs (by simp)⟩

/-- After one cycle without any configured section the first node of the root is still
    allocated, below nothing. -/
theorem printNodes_first_node_stays :
    ∃ result t, printNodes OsysmonState.bare quietProbes Nodes.empty = .ok (result, t) ∧
      t.heap.get? 0 = some ValueNode.zero ∧ t.heap.owners 0 = [] ∧
      ¬ t.live = Nodes.empty.live := by
  exact ⟨_, _, rfl, rfl, rfl, by decide⟩

end OsmoSysmon
