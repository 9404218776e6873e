import Mathlib.Data.List.Nodup

/-! # A hierarchical allocator

Every object is allocated below another one, its owner, or below nothing.  Freeing an
object frees everything allocated below it as well.  An object keeps its owners for
its whole life, so it is stored with the list of them, nearest first.

Numbers stand for addresses and are never reused: the number of an object that has
been freed is a dangling pointer.
-/

namespace Talloc

structure Object (α : Type) where
  id : Nat
  /-- The objects it is allocated below, nearest first. -/
  owners : List Nat
  value : α

structure Heap (α : Type) where
  /-- The allocated objects, newest first. -/
  objects : List (Object α)
  next : Nat
  below : ∀ o ∈ objects, o.id < next
  younger : ∀ o ∈ objects, ∀ p ∈ o.owners, p < o.id
  distinct : (objects.map Object.id).Nodup

variable {α : Type}

namespace Heap

def empty : Heap α where
  objects := []
  next := 0
  below := by simp
  younger := by simp
  distinct := by simp

def object? (h : Heap α) (p : Nat) : Option (Object α) := h.objects.find? fun o => o.id == p

def get? (h : Heap α) (p : Nat) : Option α := (h.object? p).map Object.value

def owners (h : Heap α) (p : Nat) : List Nat := ((h.object? p).map Object.owners).getD []

/-- What an object allocated below `owner` has above it. -/
def path (h : Heap α) : (owner : Option Nat) → List Nat
  | none => []
  | some p =>
    match h.object? p with
    | none => []
    | some o => p :: o.owners

/-! ## Looking up -/

theorem mem_of_object? {h : Heap α} {p : Nat} {o : Object α} (found : h.object? p = some o) :
    o ∈ h.objects ∧ o.id = p := by
  have sameId := List.find?_some found
  exact ⟨List.mem_of_find?_eq_some found, by simpa using sameId⟩

theorem object?_of_mem {h : Heap α} {o : Object α} (mem : o ∈ h.objects) :
    h.object? o.id = some o := by
  cases found : h.object? o.id with
  | none =>
    have missing := List.find?_eq_none.mp found o mem
    simp at missing
  | some o' =>
    -- ids are distinct, so the first object with this id is the only one
    obtain ⟨mem', sameId⟩ := mem_of_object? found
    rw [List.inj_on_of_nodup_map h.distinct mem' mem sameId]

theorem object?_of_get? {h : Heap α} {p : Nat} {a : α} (live : h.get? p = some a) :
    ∃ o, h.object? p = some o ∧ o.value = a := by
  rw [get?, Option.map_eq_some_iff] at live
  exact live

theorem object?_eq_none_of_ge {h : Heap α} {p : Nat} (old : h.next ≤ p) : h.object? p = none := by
  cases found : h.object? p with
  | none => rfl
  | some o =>
    obtain ⟨mem, sameId⟩ := mem_of_object? found
    have bound := h.below o mem
    omega

theorem lt_next_of_get? {h : Heap α} {p : Nat} {a : α} (live : h.get? p = some a) : p < h.next := by
  by_contra late
  rw [get?, object?_eq_none_of_ge (by omega)] at live
  simp at live

theorem path_of_get? {h : Heap α} {p : Nat} {a : α} (live : h.get? p = some a) :
    h.path (some p) = p :: h.owners p := by
  obtain ⟨o, found, -⟩ := object?_of_get? live
  simp [path, owners, found]

theorem lt_next_of_mem_path {h : Heap α} {owner : Option Nat} {q : Nat}
    (mem : q ∈ h.path owner) : q < h.next := by
  cases owner with
  | none => simp [path] at mem
  | some p =>
    cases found : h.object? p with
    | none => simp [path, found] at mem
    | some o =>
      obtain ⟨isObject, sameId⟩ := mem_of_object? found
      have bound := h.below o isObject
      rw [path, found, List.mem_cons] at mem
      cases mem with
      | inl same => omega
      | inr above =>
        have := h.younger o isObject q above
        omega

/-! ## Allocating, writing, freeing -/

/-- Allocates an object, whose number is `h.next`. -/
def alloc (h : Heap α) (owner : Option Nat) (value : α) : Heap α where
  objects := ⟨h.next, h.path owner, value⟩ :: h.objects
  next := h.next + 1
  below := by
    intro o mem
    cases mem with
    | head => exact Nat.lt_succ_self _
    | tail _ old => exact Nat.lt_succ_of_lt (h.below o old)
  younger := by
    intro o mem p above
    cases mem with
    | head => exact lt_next_of_mem_path above
    | tail _ old => exact h.younger o old p above
  distinct := by
    rw [List.map_cons, List.nodup_cons]
    refine ⟨?_, h.distinct⟩
    intro used
    obtain ⟨o, old, sameId⟩ := List.mem_map.mp used
    have bound := h.below o old
    rw [sameId] at bound
    exact Nat.lt_irrefl _ bound

/-- Overwrites the value of an object. -/
def write (p : Nat) (value : α) (o : Object α) : Object α :=
  if o.id = p then { o with value } else o

@[simp] theorem write_id (p : Nat) (value : α) (o : Object α) : (write p value o).id = o.id := by
  rw [write]
  split <;> rfl

@[simp] theorem write_owners (p : Nat) (value : α) (o : Object α) :
    (write p value o).owners = o.owners := by
  rw [write]
  split <;> rfl

def set (h : Heap α) (p : Nat) (value : α) : Heap α where
  objects := h.objects.map (write p value)
  next := h.next
  below := by
    intro o mem
    obtain ⟨o', old, rfl⟩ := List.mem_map.mp mem
    rw [write_id]
    exact h.below o' old
  younger := by
    intro o mem
    obtain ⟨o', old, rfl⟩ := List.mem_map.mp mem
    rw [write_id, write_owners]
    exact h.younger o' old
  distinct := by
    have sameIds : (h.objects.map (write p value)).map Object.id = h.objects.map Object.id := by
      simp
    rw [sameIds]
    exact h.distinct

/-- Whether freeing `p` leaves an object alone. -/
def survives (p : Nat) (o : Object α) : Bool := o.id != p && !o.owners.contains p

/-- Frees an object and everything below it. -/
def free (h : Heap α) (p : Nat) : Heap α where
  objects := h.objects.filter (survives p)
  next := h.next
  below := fun o mem => h.below o (List.mem_of_mem_filter mem)
  younger := fun o mem => h.younger o (List.mem_of_mem_filter mem)
  distinct := h.distinct.sublist (List.filter_sublist.map _)

/-- How many objects are allocated. -/
def size (h : Heap α) : Nat := h.objects.length

@[simp] theorem next_alloc (h : Heap α) (owner : Option Nat) (value : α) :
    (h.alloc owner value).next = h.next + 1 := rfl

@[simp] theorem next_set (h : Heap α) (p : Nat) (value : α) : (h.set p value).next = h.next := rfl

/-! ## What an operation changes -/

theorem object?_alloc_self (h : Heap α) (owner : Option Nat) (value : α) :
    (h.alloc owner value).object? h.next = some ⟨h.next, h.path owner, value⟩ := by
  simp [object?, alloc]

theorem object?_alloc_of_ne {h : Heap α} {owner : Option Nat} {value : α} {p : Nat}
    (old : p ≠ h.next) : (h.alloc owner value).object? p = h.object? p := by
  rw [object?, alloc, List.find?_cons_of_neg]
  · rfl
  · simpa using Ne.symm old

@[simp] theorem get?_alloc_self (h : Heap α) (owner : Option Nat) (value : α) :
    (h.alloc owner value).get? h.next = some value := by
  rw [get?, object?_alloc_self, Option.map_some]

theorem get?_alloc_of_ne {h : Heap α} {owner : Option Nat} {value : α} {p : Nat}
    (old : p ≠ h.next) : (h.alloc owner value).get? p = h.get? p := by
  rw [get?, object?_alloc_of_ne old, get?]

theorem get?_alloc_of_get? {h : Heap α} {owner : Option Nat} {value a : α} {p : Nat}
    (live : h.get? p = some a) : (h.alloc owner value).get? p = some a := by
  rw [get?_alloc_of_ne (Nat.ne_of_lt (lt_next_of_get? live)), live]

@[simp] theorem owners_alloc_self (h : Heap α) (owner : Option Nat) (value : α) :
    (h.alloc owner value).owners h.next = h.path owner := by
  rw [owners, object?_alloc_self]
  rfl

theorem owners_alloc_of_ne {h : Heap α} {owner : Option Nat} {value : α} {p : Nat}
    (old : p ≠ h.next) : (h.alloc owner value).owners p = h.owners p := by
  rw [owners, object?_alloc_of_ne old, owners]

theorem object?_set (h : Heap α) (p q : Nat) (value : α) :
    (h.set p value).object? q = (h.object? q).map (write p value) := by
  rw [object?, set, List.find?_map, object?]
  simp only [Function.comp_def, write_id]

theorem get?_set_self {h : Heap α} {p : Nat} {a : α} (live : h.get? p = some a) (value : α) :
    (h.set p value).get? p = some value := by
  obtain ⟨o, found, -⟩ := object?_of_get? live
  have sameId := (mem_of_object? found).2
  rw [get?, object?_set, found]
  simp [write, sameId]

theorem get?_set_of_ne {h : Heap α} {p q : Nat} {value : α} (other : q ≠ p) :
    (h.set p value).get? q = h.get? q := by
  rw [get?, object?_set, get?]
  cases found : h.object? q with
  | none => rfl
  | some o =>
    have sameId := (mem_of_object? found).2
    simp [write, sameId, other]

@[simp] theorem owners_set (h : Heap α) (p q : Nat) (value : α) :
    (h.set p value).owners q = h.owners q := by
  rw [owners, object?_set, owners]
  cases h.object? q <;> simp

theorem object?_free_of_survives {h : Heap α} {p q : Nat} (other : q ≠ p)
    (outside : p ∉ h.owners q) : (h.free p).object? q = h.object? q := by
  cases found : h.object? q with
  | none =>
    rw [object?, List.find?_eq_none] at found ⊢
    exact fun o mem => found o (List.mem_of_mem_filter mem)
  | some o =>
    obtain ⟨mem, sameId⟩ := mem_of_object? found
    -- neither the freed object nor below it
    have stays : survives p o = true := by
      rw [owners, found] at outside
      simp only [survives, sameId, Bool.and_eq_true, bne_iff_ne, ne_eq, Bool.not_eq_true',
        List.contains_eq_mem, decide_eq_false_iff_not]
      exact ⟨other, by simpa using outside⟩
    have kept : o ∈ (h.free p).objects := List.mem_filter.mpr ⟨mem, stays⟩
    rw [← sameId]
    exact object?_of_mem kept

theorem get?_free_of_survives {h : Heap α} {p q : Nat} (other : q ≠ p)
    (outside : p ∉ h.owners q) : (h.free p).get? q = h.get? q := by
  rw [get?, object?_free_of_survives other outside, get?]

theorem owners_free_of_survives {h : Heap α} {p q : Nat} (other : q ≠ p)
    (outside : p ∉ h.owners q) : (h.free p).owners q = h.owners q := by
  rw [owners, object?_free_of_survives other outside, owners]

@[simp] theorem get?_free_self (h : Heap α) (p : Nat) : (h.free p).get? p = none := by
  rw [get?, Option.map_eq_none_iff, object?, List.find?_eq_none]
  intro o mem
  have stays := (List.mem_filter.mp mem).2
  simp only [survives, Bool.and_eq_true, bne_iff_ne, ne_eq] at stays
  simpa using stays.1

@[simp] theorem owners_free_self (h : Heap α) (p : Nat) : (h.free p).owners p = [] := by
  have freed := get?_free_self h p
  rw [get?, Option.map_eq_none_iff] at freed
  rw [owners, freed]
  rfl

theorem get?_free_of_above {h : Heap α} {p q : Nat} (above : p ∈ h.owners q) :
    (h.free p).get? q = none := by
  rw [get?, Option.map_eq_none_iff, object?, List.find?_eq_none]
  intro o mem
  obtain ⟨isObject, stays⟩ := List.mem_filter.mp mem
  rw [beq_iff_eq]
  rintro rfl
  rw [owners, object?_of_mem isObject] at above
  simp only [survives, Bool.and_eq_true, Bool.not_eq_true', List.contains_eq_mem,
    decide_eq_false_iff_not] at stays
  exact stays.2 above

/-- Freeing does not look at what is stored. -/
theorem free_set (h : Heap α) (p q : Nat) (value : α) :
    (h.set q value).free p = (h.free p).set q value := by
  have sameTest : survives p ∘ write q value = survives p := by
    funext o
    simp only [Function.comp, survives, write_id, write_owners]
  have same : (h.objects.map (write q value)).filter (survives p) =
      (h.objects.filter (survives p)).map (write q value) := by
    rw [List.filter_map, sameTest]
  simp only [free, set, same]

/-! ## What every object satisfies -/

def All (P : α → Prop) (h : Heap α) : Prop := ∀ o ∈ h.objects, P o.value

section

variable {P : α → Prop} {h : Heap α}

theorem All.get? (all : h.All P) {p : Nat} {a : α} (live : h.get? p = some a) : P a := by
  obtain ⟨o, found, rfl⟩ := object?_of_get? live
  exact all o (mem_of_object? found).1

theorem All.alloc (all : h.All P) {value : α} (new : P value) (owner : Option Nat) :
    (h.alloc owner value).All P :=
  List.forall_mem_cons.mpr ⟨new, all⟩

theorem All.set (all : h.All P) {value : α} (new : P value) (p : Nat) : (h.set p value).All P := by
  intro o mem
  obtain ⟨old, isOld, rfl⟩ := List.mem_map.mp mem
  rw [write]
  split
  · exact new
  · exact all old isOld

theorem All.free (all : h.All P) (p : Nat) : (h.free p).All P :=
  fun o mem => all o (List.mem_of_mem_filter mem)

end

/-! ## What freeing an object leaves -/

/-- The objects younger than `root` are all below it. -/
def Beneath (root : Nat) (h : Heap α) : Prop := ∀ o ∈ h.objects, root < o.id → root ∈ o.owners

def ids (h : Heap α) : List Nat := h.objects.map Object.id

@[simp] theorem ids_alloc (h : Heap α) (owner : Option Nat) (value : α) :
    (h.alloc owner value).ids = h.next :: h.ids := rfl

@[simp] theorem ids_set (h : Heap α) (p : Nat) (value : α) : (h.set p value).ids = h.ids := by
  simp [ids, set]

theorem lt_next_of_mem_ids {h : Heap α} {i : Nat} (mem : i ∈ h.ids) : i < h.next := by
  obtain ⟨o, isObject, rfl⟩ := List.mem_map.mp mem
  exact h.below o isObject

theorem Beneath.alloc {root : Nat} {h : Heap α} (beneath : Beneath root h) {p : Nat} {a : α}
    (live : h.get? p = some a) (younger : root ≤ p) (value : α) :
    Beneath root (h.alloc (some p) value) := by
  intro o mem later
  cases mem with
  | head =>
    show root ∈ h.path (some p)
    rw [path_of_get? live]
    cases Nat.eq_or_lt_of_le younger with
    | inl same => exact same ▸ List.mem_cons_self
    | inr after =>
      obtain ⟨o, found, -⟩ := object?_of_get? live
      obtain ⟨isObject, sameId⟩ := mem_of_object? found
      have above := beneath o isObject (sameId ▸ after)
      have isOwners : h.owners p = o.owners := by simp [owners, found]
      rw [isOwners]
      exact List.mem_cons_of_mem p above
  | tail _ old => exact beneath o old later

theorem Beneath.set {root : Nat} {h : Heap α} (beneath : Beneath root h) (p : Nat) (value : α) :
    Beneath root (h.set p value) := by
  intro o mem later
  obtain ⟨o', old, rfl⟩ := List.mem_map.mp mem
  rw [write_owners]
  rw [write_id] at later
  exact beneath o' old later

/-- Freeing an object with everything younger below it leaves the older objects. -/
theorem size_free {root : Nat} {h : Heap α} (beneath : Beneath root h) :
    (h.free root).size = (h.ids.filter (· < root)).length := by
  -- younger objects go with the root, and no older one is below it
  have older : ∀ o ∈ h.objects, survives root o = decide (o.id < root) := by
    intro o mem
    rw [Bool.eq_iff_iff, decide_eq_true_iff]
    simp only [survives, Bool.and_eq_true, bne_iff_ne, ne_eq, Bool.not_eq_true',
      List.contains_eq_mem, decide_eq_false_iff_not]
    constructor
    · intro kept
      by_contra late
      exact kept.2 (beneath o mem (by omega))
    · intro early
      refine ⟨by omega, fun above => ?_⟩
      have := h.younger o mem root above
      omega
  show (h.objects.filter (survives root)).length = _
  rw [List.filter_congr older, ids, List.filter_map, List.length_map]
  rfl

end Heap

end Talloc
