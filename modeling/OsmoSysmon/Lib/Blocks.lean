import OsmoSysmon.Lib.Talloc

/-! # Blocks of a hierarchical allocator

A block is an object with everything allocated below it.  What is done to one block leaves
the others alone, and what has been allocated below an object that is below a block is in
the block, too: `Chained` says so, and every heap keeps it.
-/

namespace Talloc

variable {α : Type}

namespace Heap

/-- The owners of an object, and its value. -/
def cell? (h : Heap α) (q : Nat) : Option (List Nat × α) :=
  (h.object? q).map fun o => (o.owners, o.value)

theorem get?_eq_cell? (h : Heap α) (q : Nat) : h.get? q = (h.cell? q).map Prod.snd := by
  rw [get?, cell?, Option.map_map]
  rfl

theorem get?_of_cell {h : Heap α} {q : Nat} {os : List Nat} {a : α}
    (cell : h.cell? q = some (os, a)) : h.get? q = some a := by
  rw [get?_eq_cell?, cell]
  rfl

theorem cell?_empty (q : Nat) : (empty : Heap α).cell? q = none := rfl

theorem cell?_of_ge {h : Heap α} {q : Nat} (new : h.next ≤ q) : h.cell? q = none := by
  rw [cell?, object?_eq_none_of_ge new]
  rfl

theorem cell?_next (h : Heap α) : h.cell? h.next = none := cell?_of_ge (Nat.le_refl _)

theorem ne_next_of_cell {h : Heap α} {q : Nat} {c : List Nat × α} (cell : h.cell? q = some c) :
    q ≠ h.next := by
  rintro rfl
  rw [cell?_next] at cell
  cases cell

theorem owners_of_cell {h : Heap α} {q : Nat} {c : List Nat × α} (cell : h.cell? q = some c) :
    h.owners q = c.1 := by
  obtain ⟨o, found, rfl⟩ := Option.map_eq_some_iff.mp cell
  rw [owners, found]
  rfl

/-- What is below an object has been allocated after it. -/
theorem lt_of_above {h : Heap α} {p q : Nat} {os : List Nat} {a : α}
    (cell : h.cell? q = some (os, a)) (above : p ∈ os) : p < q := by
  obtain ⟨o, found, isCell⟩ := Option.map_eq_some_iff.mp cell
  obtain ⟨mem, rfl⟩ := mem_of_object? found
  cases isCell
  exact h.younger o mem p above

/-! ## Operations -/

theorem cell?_alloc_top (h : Heap α) (value : α) (q : Nat) :
    (h.alloc none value).cell? q = if q = h.next then some ([], value) else h.cell? q := by
  rw [cell?, cell?]
  split
  · next new =>
    rw [new, object?_alloc_self]
    rfl
  · next old => rw [object?_alloc_of_ne old]

theorem cell?_alloc {h : Heap α} {p : Nat} {os : List Nat} {a : α}
    (owner : h.cell? p = some (os, a)) (value : α) (q : Nat) :
    (h.alloc (some p) value).cell? q =
      if q = h.next then some (p :: os, value) else h.cell? q := by
  obtain ⟨o, found, isCell⟩ := Option.map_eq_some_iff.mp owner
  cases isCell
  rw [cell?, cell?]
  split
  · next new =>
    rw [new, object?_alloc_self, path, found]
    rfl
  · next old => rw [object?_alloc_of_ne old]

theorem cell?_set (h : Heap α) (p : Nat) (value : α) (q : Nat) :
    (h.set p value).cell? q =
      if q = p then (h.cell? q).map fun c => (c.1, value) else h.cell? q := by
  rw [cell?, object?_set, cell?]
  cases found : h.object? q with
  | none => simp
  | some o =>
    have sameId := (mem_of_object? found).2
    split
    · next same => simp [write, sameId.trans same]
    · next other => simp [write, sameId, other]

theorem cell?_free (h : Heap α) (p q : Nat) :
    (h.free p).cell? q = (h.cell? q).filter fun c => decide (q ≠ p ∧ p ∉ c.1) := by
  cases cell : h.cell? q with
  | none =>
    rw [cell?, Option.map_eq_none_iff, object?, List.find?_eq_none] at cell
    rw [cell?, Option.filter_none, Option.map_eq_none_iff, object?, List.find?_eq_none]
    exact fun o mem => cell o (List.mem_of_mem_filter mem)
  | some c =>
    have isOwners : h.owners q = c.1 := owners_of_cell cell
    by_cases stays : q ≠ p ∧ p ∉ c.1
    · rw [cell?, object?_free_of_survives stays.1 (isOwners ▸ stays.2), ← cell?, cell]
      exact (Option.filter_some_pos (by simpa using stays)).symm
    · have gone : (h.free p).get? q = none := by
        by_cases same : q = p
        · rw [same, get?_free_self]
        · exact get?_free_of_above (isOwners ▸ not_not.mp fun outside => stays ⟨same, outside⟩)
      rw [get?_eq_cell?, Option.map_eq_none_iff] at gone
      rw [gone]
      exact (Option.filter_some_neg (by simpa using stays)).symm

theorem cell?_free_self (h : Heap α) (p : Nat) : (h.free p).cell? p = none := by
  rw [cell?_free, Option.filter_eq_none_iff]
  simp

/-! ## Chains of owners -/

/-- What is above an owner is above what it owns. -/
def Chained (h : Heap α) : Prop :=
  ∀ q p ps a, h.cell? q = some (p :: ps, a) → ∃ b, h.cell? p = some (ps, b)

theorem chained_empty : Chained (empty : Heap α) := by
  intro q p ps a cell
  rw [cell?_empty] at cell
  cases cell

section

variable {h : Heap α}

theorem Chained.above (chained : Chained h) {q p : Nat} {os : List Nat} {a : α}
    (cell : h.cell? q = some (os, a)) (above : p ∈ os) :
    ∃ ps b, h.cell? p = some (ps, b) ∧ p :: ps <:+ os := by
  induction os generalizing q a with
  | nil => cases above
  | cons r rs ih =>
    obtain ⟨b, isOwner⟩ := chained q r rs a cell
    rcases List.mem_cons.mp above with rfl | above
    · exact ⟨rs, b, isOwner, List.suffix_refl _⟩
    · obtain ⟨ps, c, isCell, suffix⟩ := ih isOwner above
      exact ⟨ps, c, isCell, suffix.trans (List.suffix_cons r rs)⟩

/-- An object is in one block only. -/
theorem Chained.one_root (chained : Chained h) {q r r' : Nat} {os : List Nat} {a b b' : α}
    (cell : h.cell? q = some (os, a)) (isRoot : h.cell? r = some ([], b))
    (isRoot' : h.cell? r' = some ([], b')) (above : r ∈ os) (above' : r' ∈ os) : r = r' := by
  obtain ⟨ps, c, isCell, suffix⟩ := chained.above cell above
  obtain ⟨ps', c', isCell', suffix'⟩ := chained.above cell above'
  rw [isRoot] at isCell
  rw [isRoot'] at isCell'
  cases isCell
  cases isCell'
  obtain ⟨front, rfl⟩ := suffix
  obtain ⟨front', same⟩ := suffix'
  exact (List.singleton_inj.mp (List.append_inj' same rfl).2).symm

theorem Chained.alloc_top (chained : Chained h) (value : α) : Chained (h.alloc none value) := by
  intro q p ps a cell
  rw [cell?_alloc_top] at cell
  split at cell
  · cases cell
  · obtain ⟨b, isOwner⟩ := chained q p ps a cell
    refine ⟨b, ?_⟩
    rw [cell?_alloc_top, if_neg (ne_next_of_cell isOwner), isOwner]

theorem Chained.alloc (chained : Chained h) {owner : Nat} {ps : List Nat} {b : α}
    (isOwner : h.cell? owner = some (ps, b)) (value : α) : Chained (h.alloc (some owner) value) := by
  have old {p : Nat} {c : List Nat × α} (cell : h.cell? p = some c) :
      (h.alloc (some owner) value).cell? p = some c := by
    rw [cell?_alloc isOwner, if_neg (ne_next_of_cell cell), cell]
  intro q p ps' a cell
  rw [cell?_alloc isOwner] at cell
  split at cell
  · cases cell
    exact ⟨b, old isOwner⟩
  · obtain ⟨c, isCell⟩ := chained q p ps' a cell
    exact ⟨c, old isCell⟩

/-- Writing changes nobody's owners. -/
theorem cell_of_set {p q : Nat} {value a : α} {os : List Nat}
    (cell : (h.set p value).cell? q = some (os, a)) : ∃ b, h.cell? q = some (os, b) := by
  rw [cell?_set] at cell
  split at cell
  · obtain ⟨⟨os', b⟩, isCell, same⟩ := Option.map_eq_some_iff.mp cell
    cases same
    exact ⟨b, isCell⟩
  · exact ⟨a, cell⟩

theorem cell_set {q : Nat} {a : α} {os : List Nat} (cell : h.cell? q = some (os, a)) (p : Nat)
    (value : α) : ∃ b, (h.set p value).cell? q = some (os, b) := by
  rw [cell?_set, cell]
  split
  · exact ⟨value, rfl⟩
  · exact ⟨a, rfl⟩

theorem Chained.set (chained : Chained h) (p : Nat) (value : α) : Chained (h.set p value) := by
  intro q r rs a cell
  obtain ⟨b, isCell⟩ := cell_of_set cell
  obtain ⟨c, isOwner⟩ := chained q r rs b isCell
  exact cell_set isOwner p value

theorem cell_of_free {p q : Nat} {c : List Nat × α} (cell : (h.free p).cell? q = some c) :
    h.cell? q = some c ∧ q ≠ p ∧ p ∉ c.1 := by
  rw [cell?_free, Option.filter_eq_some_iff] at cell
  exact ⟨cell.1, by simpa using cell.2⟩

theorem cell_free {p q : Nat} {c : List Nat × α} (cell : h.cell? q = some c) (other : q ≠ p)
    (outside : p ∉ c.1) : (h.free p).cell? q = some c := by
  rw [cell?_free, cell]
  exact Option.filter_some_pos (by simpa using ⟨other, outside⟩)

theorem Chained.free (chained : Chained h) (p : Nat) : Chained (h.free p) := by
  intro q r rs a cell
  obtain ⟨cell, -, outside⟩ := cell_of_free cell
  obtain ⟨b, isOwner⟩ := chained q r rs a cell
  rw [List.mem_cons, not_or] at outside
  exact ⟨b, cell_free isOwner (Ne.symm outside.1) outside.2⟩

end

/-! ## What is done to one block -/

/-- Whatever is not in the block is as before. -/
def Frame (root : Nat) (h h' : Heap α) : Prop :=
  ∀ q os a, q ≠ root → root ∉ os → (h.cell? q = some (os, a) ↔ h'.cell? q = some (os, a))

section

variable {root : Nat} {h h' h'' : Heap α}

theorem Frame.refl (root : Nat) (h : Heap α) : Frame root h h := fun _ _ _ _ _ => Iff.rfl

theorem Frame.trans (first : Frame root h h') (second : Frame root h' h'') : Frame root h h'' :=
  fun q os a other outside => (first q os a other outside).trans (second q os a other outside)

theorem frame_alloc_top (h : Heap α) (value : α) : Frame h.next h (h.alloc none value) := by
  intro q os a other _
  rw [cell?_alloc_top, if_neg other]

theorem frame_alloc {owner : Nat} {ps : List Nat} {b : α} (isOwner : h.cell? owner = some (ps, b))
    (inside : owner = root ∨ root ∈ ps) (value : α) :
    Frame root h (h.alloc (some owner) value) := by
  intro q os a _ outside
  rw [cell?_alloc isOwner]
  split
  · next new =>
    rw [new, cell?_next]
    refine iff_of_false (by simp) fun same => ?_
    cases same
    rw [List.mem_cons, not_or] at outside
    exact inside.elim (fun same => outside.1 same.symm) outside.2
  · exact Iff.rfl

theorem frame_set {p : Nat} {ps : List Nat} {b : α} (isCell : h.cell? p = some (ps, b))
    (inside : p = root ∨ root ∈ ps) (value : α) : Frame root h (h.set p value) := by
  intro q os a other outside
  rw [cell?_set]
  split
  · next same =>
    rw [same, isCell]
    refine iff_of_false (fun same' => ?_) fun same' => ?_ <;> cases same' <;>
      exact inside.elim (fun isRoot => other (same.trans isRoot)) outside
  · exact Iff.rfl

theorem frame_free {p : Nat} {ps : List Nat} {b : α} (chained : Chained h)
    (isCell : h.cell? p = some (ps, b)) (inside : p = root ∨ root ∈ ps) :
    Frame root h (h.free p) := by
  intro q os a other outside
  refine ⟨fun cell => ?_, fun cell => (cell_of_free cell).1⟩
  refine cell_free cell ?_ fun above => ?_
  · rintro rfl
    rw [isCell] at cell
    cases cell
    exact inside.elim other outside
  · obtain ⟨os', c, isCell', suffix⟩ := chained.above cell above
    rw [isCell] at isCell'
    cases isCell'
    exact inside.elim (fun isRoot => outside (isRoot ▸ above)) fun mem =>
      outside (suffix.subset (List.mem_cons_of_mem p mem))

end

/-- The block of one root does not meet the block of another. -/
theorem Chained.outside {h : Heap α} (chained : Chained h) {q r root : Nat} {os : List Nat} {a b : α}
    (isRoot : h.cell? r = some ([], b)) (top : ∀ os c, h.cell? root = some (os, c) → os = [])
    (other : r ≠ root) (cell : h.cell? q = some (os, a)) (inside : q = r ∨ r ∈ os) :
    q ≠ root ∧ root ∉ os := by
  constructor
  · rintro rfl
    rcases inside with rfl | above
    · exact other rfl
    · rw [top os a cell] at above
      cases above
  · intro above
    obtain ⟨ps, c, isCell, -⟩ := chained.above cell above
    rw [top ps c isCell] at isCell
    rcases inside with rfl | above'
    · rw [isRoot] at cell
      cases cell
      cases above
    · exact other (chained.one_root cell isRoot isCell above' above)

/-! ## Building a block -/

/-- `h` is `h₀` with one more block, whose objects are listed in the order in which they have
    been allocated. -/
structure Grown (h₀ h : Heap α) (new : List (List Nat × α)) : Prop where
  next : h.next = h₀.next + new.length
  cells : ∀ i, h.cell? (h₀.next + i) = new[i]?
  chained : h.Chained
  frame : h₀.Frame h₀.next h

section

variable {h₀ h : Heap α} {new : List (List Nat × α)}

theorem Grown.start (chained : h₀.Chained) (value : α) :
    Grown h₀ (h₀.alloc none value) [([], value)] where
  next := rfl
  cells i := by
    rw [cell?_alloc_top]
    cases i with
    | zero => exact if_pos rfl
    | succ i =>
      rw [if_neg (by omega), cell?, object?_eq_none_of_ge (by omega)]
      rfl
  chained := chained.alloc_top value
  frame := frame_alloc_top h₀ value

theorem Grown.alloc (grown : Grown h₀ h new) {i : Nat} {os : List Nat} {b : α}
    (isOwner : new[i]? = some (os, b)) (inside : i = 0 ∨ h₀.next ∈ os) (value : α) :
    Grown h₀ (h.alloc (some (h₀.next + i)) value) (new ++ [((h₀.next + i) :: os, value)]) := by
  have cell := (grown.cells i).trans isOwner
  refine ⟨?_, ?_, grown.chained.alloc cell value, grown.frame.trans (frame_alloc cell ?_ value)⟩
  · rw [next_alloc, grown.next, List.length_append, List.length_singleton, Nat.add_assoc]
  · intro j
    rw [cell?_alloc cell, grown.next, grown.cells]
    rcases Nat.lt_trichotomy j new.length with before | rfl | after
    · rw [if_neg (by omega), List.getElem?_append_left before]
    · rw [if_pos rfl, List.getElem?_concat_length]
    · rw [if_neg (by omega), List.getElem?_eq_none (Nat.le_of_lt after),
        List.getElem?_eq_none (by rw [List.length_append]; exact after)]
  · exact inside.imp_left fun same => by rw [same, Nat.add_zero]

theorem Grown.set (grown : Grown h₀ h new) {i : Nat} {os : List Nat} {b : α}
    (isCell : new[i]? = some (os, b)) (inside : i = 0 ∨ h₀.next ∈ os) (value : α) :
    Grown h₀ (h.set (h₀.next + i) value) (new.set i (os, value)) := by
  have cell := (grown.cells i).trans isCell
  refine ⟨?_, ?_, grown.chained.set _ value, grown.frame.trans (frame_set cell ?_ value)⟩
  · rw [next_set, grown.next, List.length_set]
  · intro j
    rw [cell?_set, grown.cells, List.getElem?_set]
    by_cases same : i = j
    · subst same
      obtain ⟨short, -⟩ := List.getElem?_eq_some_iff.mp isCell
      rw [if_pos rfl, if_pos rfl, if_pos short, isCell]
      rfl
    · rw [if_neg (by omega), if_neg same]
  · exact inside.imp_left fun same => by rw [same, Nat.add_zero]

theorem Grown.get (grown : Grown h₀ h new) {i : Nat} {c : List Nat × α} (isCell : new[i]? = some c) :
    h.get? (h₀.next + i) = some c.2 := by
  rw [get?_eq_cell?, grown.cells, isCell]
  rfl

/-- The old objects are not in the new block. -/
theorem Grown.in_block (grown : Grown h₀ h new) {q : Nat} {os : List Nat} {a : α}
    (cell : h.cell? q = some (os, a)) (inside : h₀.next ∈ os) :
    ∃ i, q = h₀.next + i ∧ new[i]? = some (os, a) := by
  obtain ⟨i, rfl⟩ := Nat.le.dest (Nat.le_of_lt (lt_of_above cell inside))
  exact ⟨i, rfl, (grown.cells i).symm.trans cell⟩

end

/-! ## What a program can reach -/

/-- The pointers a program can get at: its own, and those in the objects it gets at. -/
inductive Reach (points : α → List Nat) (roots : List Nat) (h : Heap α) : Nat → Prop
  | root {p : Nat} : p ∈ roots → Reach points roots h p
  | follow {p q : Nat} {a : α} :
      Reach points roots h p → h.get? p = some a → q ∈ points a → Reach points roots h q

end Heap

end Talloc
