import OsmoSysmon.Lib.Forest

/-! # Trees at an address

In a forest whose nodes have addresses of their own a node can be looked up, its children
exchanged, and its tree taken out, at any depth.  `Owned` relates the forest to a record of
what is above each address.
-/

namespace Forest

variable {α : Type}

/-- The label and the children of the node at an address. -/
def nodeAt (q : Nat) : Forest (Nat × α) → Option (α × Forest (Nat × α))
  | nil => none
  | cons (p, a) children rest =>
    if p = q then some (a, children) else (children.nodeAt q).or (rest.nodeAt q)

/-- Gives the node at an address other children. -/
def setBelow (q : Nat) : Forest (Nat × α) → (below : Forest (Nat × α)) → Forest (Nat × α)
  | nil, _ => nil
  | cons (p, a) children rest, below =>
    if p = q then cons (p, a) below rest
    else cons (p, a) (children.setBelow q below) (rest.setBelow q below)

/-- Takes out the tree at an address. -/
def remove (q : Nat) : Forest (Nat × α) → Forest (Nat × α)
  | nil => nil
  | cons (p, a) children rest =>
    if p = q then rest else cons (p, a) (children.remove q) (rest.remove q)

/-- What is recorded above every address is the path down to it, nearest first. -/
def Owned (owners : Nat → List Nat) (above : List Nat) : Forest (Nat × α) → Prop
  | nil => True
  | cons (p, _) children rest =>
    owners p = above ∧ children.Owned owners (p :: above) ∧ rest.Owned owners above

variable {f below : Forest (Nat × α)} {q : Nat} {read read' : Nat → Option (α × List Nat)}

/-! ## Looking up -/

theorem nodeAt_isSome_iff : (f.nodeAt q).isSome = true ↔ q ∈ f.cells := by
  induction f with
  | nil => simp [nodeAt]
  | cons label children rest ihChildren ihRest =>
    obtain ⟨p, a⟩ := label
    rw [nodeAt, cells_cons, List.mem_cons, List.mem_append, ← ihChildren, ← ihRest]
    by_cases here : p = q
    · simp [here]
    · rw [if_neg here, Option.isSome_or, Bool.or_eq_true]
      simp [Ne.symm here]

theorem nodeAt_eq_none_iff : f.nodeAt q = none ↔ q ∉ f.cells := by
  rw [← nodeAt_isSome_iff, Option.isSome_iff_ne_none, not_not]

theorem exists_nodeAt (mem : q ∈ f.cells) : ∃ a children, f.nodeAt q = some (a, children) := by
  obtain ⟨⟨a, children⟩, found⟩ := Option.isSome_iff_exists.mp (nodeAt_isSome_iff.mpr mem)
  exact ⟨a, children, found⟩

theorem setBelow_of_not_mem (missing : q ∉ f.cells) : f.setBelow q below = f := by
  induction f with
  | nil => rfl
  | cons label children rest ihChildren ihRest =>
    obtain ⟨p, a⟩ := label
    rw [cells_cons, List.mem_cons, List.mem_append, not_or, not_or] at missing
    rw [setBelow, if_neg (Ne.symm missing.1), ihChildren missing.2.1, ihRest missing.2.2]

theorem remove_of_not_mem (missing : q ∉ f.cells) : f.remove q = f := by
  induction f with
  | nil => rfl
  | cons label children rest ihChildren ihRest =>
    obtain ⟨p, a⟩ := label
    rw [cells_cons, List.mem_cons, List.mem_append, not_or, not_or] at missing
    rw [remove, if_neg (Ne.symm missing.1), ihChildren missing.2.1, ihRest missing.2.2]

theorem nodeAt_setBelow {a : α} {children : Forest (Nat × α)}
    (found : f.nodeAt q = some (a, children)) (below : Forest (Nat × α)) :
    (f.setBelow q below).nodeAt q = some (a, below) := by
  induction f with
  | nil => cases found
  | cons label inner rest ihInner ihRest =>
    obtain ⟨p, b⟩ := label
    rw [nodeAt] at found
    rw [setBelow]
    by_cases here : p = q
    · rw [if_pos here] at found ⊢
      cases found
      rw [nodeAt, if_pos here]
    · rw [if_neg here, Option.or_eq_some_iff] at found
      rw [if_neg here, nodeAt, if_neg here]
      rcases found with inside | ⟨notInside, behind⟩
      · rw [ihInner inside, Option.some_or]
      · rw [setBelow_of_not_mem (nodeAt_eq_none_iff.mp notInside), notInside, Option.none_or]
        exact ihRest behind

theorem roots_setBelow (q : Nat) (f below : Forest (Nat × α)) :
    (f.setBelow q below).roots = f.roots := by
  induction f with
  | nil => rfl
  | cons label children rest _ ih =>
    obtain ⟨p, a⟩ := label
    rw [setBelow]
    split
    · rfl
    · rw [roots, ih, roots]

/-- What is taken out at the top is taken out of the list of the top, which is otherwise as
    it was. -/
theorem roots_remove_sublist (q : Nat) (f : Forest (Nat × α)) :
    (f.remove q).roots.Sublist f.roots := by
  induction f with
  | nil => exact .refl _
  | cons label children rest _ ih =>
    obtain ⟨p, a⟩ := label
    rw [remove]
    split
    · exact List.sublist_cons_self _ _
    · exact ih.cons_cons _

theorem addresses_remove (q : Nat) (f : Forest (Nat × α)) :
    (f.remove q).addresses = f.addresses.erase q := by
  induction f with
  | nil => rfl
  | cons label children rest _ ih =>
    obtain ⟨p, a⟩ := label
    rw [remove, addresses_cons]
    by_cases here : p = q
    · rw [if_pos here, here, List.erase_cons_head]
    · rw [if_neg here, addresses_cons, ih, List.erase_cons_tail (by simpa using here)]

theorem cells_remove_sublist (q : Nat) (f : Forest (Nat × α)) :
    (f.remove q).cells.Sublist f.cells := by
  induction f with
  | nil => exact .refl _
  | cons label children rest ihChildren ihRest =>
    obtain ⟨p, a⟩ := label
    rw [remove, cells_cons]
    split
    · exact .cons _ (List.sublist_append_right _ _)
    · rw [cells_cons]
      exact (ihChildren.append ihRest).cons_cons _

/-! ## Properties of all nodes -/

section

variable {P : Nat × α → Forest (Nat × α) → Prop}

theorem Every.nodeAt (every : f.Every P) {a : α} {children : Forest (Nat × α)}
    (found : f.nodeAt q = some (a, children)) : P (q, a) children ∧ children.Every P := by
  induction f with
  | nil => cases found
  | cons label inner rest ihInner ihRest =>
    obtain ⟨p, b⟩ := label
    obtain ⟨here, below, later⟩ := every
    rw [Forest.nodeAt] at found
    by_cases same : p = q
    · rw [if_pos same] at found
      cases found
      exact ⟨same ▸ here, below⟩
    · rw [if_neg same, Option.or_eq_some_iff] at found
      rcases found with inside | ⟨-, behind⟩
      · exact ihInner below inside
      · exact ihRest later behind

/-- A property that sees no more of the children than their roots stays with other nodes. -/
theorem Every.setBelow (shallow : ∀ a f g, f.roots = g.roots → P a f → P a g) (every : f.Every P)
    (new : ∀ a, P (q, a) below) (newBelow : below.Every P) : (f.setBelow q below).Every P := by
  induction f with
  | nil => trivial
  | cons label children rest ihChildren ihRest =>
    obtain ⟨p, a⟩ := label
    obtain ⟨here, under, later⟩ := every
    rw [Forest.setBelow]
    by_cases same : p = q
    · rw [if_pos same]
      exact ⟨same ▸ new a, newBelow, later⟩
    · rw [if_neg same]
      exact ⟨shallow _ _ _ (roots_setBelow q children below).symm here, ihChildren under,
        ihRest later⟩

theorem Every.remove (smaller : ∀ a f g, g.roots.Sublist f.roots → P a f → P a g)
    (every : f.Every P) (q : Nat) : (f.remove q).Every P := by
  induction f with
  | nil => trivial
  | cons label children rest ihChildren ihRest =>
    obtain ⟨p, a⟩ := label
    obtain ⟨here, under, later⟩ := every
    rw [Forest.remove]
    split
    · exact later
    · exact ⟨smaller _ _ _ (roots_remove_sublist q children) here, ihChildren under, ihRest later⟩

end

/-! ## Storage without a tree -/

/-- A memory that lists the removed address nowhere stores what is left. -/
theorem Stored.remove (stored : f.Stored read) (distinct : f.cells.Nodup)
    (erased : ∀ p ∈ (f.remove q).cells, ∀ a children, read p = some (a, children) →
      read' p = some (a, children.erase q)) : (f.remove q).Stored read' := by
  induction f with
  | nil => trivial
  | cons label children rest ihChildren ihRest =>
    obtain ⟨p, a⟩ := label
    obtain ⟨here, below, later⟩ := stored
    rw [cells_cons, List.nodup_cons, List.mem_append, not_or, List.nodup_append] at distinct
    obtain ⟨⟨-, notLater⟩, distinctBelow, distinctLater, -⟩ := distinct
    rw [Forest.remove] at erased ⊢
    by_cases same : p = q
    · rw [if_pos same] at erased ⊢
      -- the address was here, so it is not among the trees behind
      have missing : q ∉ rest.cells := same ▸ notLater
      have unchanged := remove_of_not_mem missing
      rw [← unchanged] at erased ⊢
      exact ihRest later distinctLater erased
    · rw [if_neg same] at erased ⊢
      rw [cells_cons] at erased
      refine ⟨?_, ihChildren below distinctBelow ?_, ihRest later distinctLater ?_⟩
      · rw [erased p List.mem_cons_self a _ here, addresses_remove]
      · exact fun r mem => erased r (List.mem_cons_of_mem _ (List.mem_append_left _ mem))
      · exact fun r mem => erased r (List.mem_cons_of_mem _ (List.mem_append_right _ mem))

/-! ## What is above an address -/

section

variable {owners owners' : Nat → List Nat} {above : List Nat}

theorem Owned.congr (owned : f.Owned owners above)
    (same : ∀ p ∈ f.cells, owners' p = owners p) : f.Owned owners' above := by
  induction f generalizing above with
  | nil => trivial
  | cons label children rest ihChildren ihRest =>
    obtain ⟨p, a⟩ := label
    obtain ⟨here, below, later⟩ := owned
    rw [cells_cons] at same
    refine ⟨(same p List.mem_cons_self).trans here, ihChildren below ?_, ihRest later ?_⟩
    · exact fun r mem => same r (List.mem_cons_of_mem _ (List.mem_append_left _ mem))
    · exact fun r mem => same r (List.mem_cons_of_mem _ (List.mem_append_right _ mem))

theorem owned_append {g : Forest (Nat × α)} :
    (f ++ g).Owned owners above ↔ f.Owned owners above ∧ g.Owned owners above := by
  induction f with
  | nil =>
    show g.Owned owners above ↔ True ∧ g.Owned owners above
    rw [true_and]
  | cons label children rest _ ih =>
    obtain ⟨p, a⟩ := label
    rw [cons_append, Owned, ih, Owned, and_assoc, and_assoc]

/-- What is above a node of the forest is in the forest, or above it. -/
theorem Owned.path (owned : f.Owned owners above) {p : Nat} (mem : p ∈ f.cells) :
    ∃ inner, owners p = inner ++ above ∧ inner ⊆ f.cells := by
  induction f generalizing above with
  | nil => cases mem
  | cons label children rest ihChildren ihRest =>
    obtain ⟨r, a⟩ := label
    obtain ⟨here, below, later⟩ := owned
    rw [cells_cons, List.mem_cons, List.mem_append] at mem
    rw [cells_cons]
    rcases mem with rfl | inside | behind
    · exact ⟨[], here, List.nil_subset _⟩
    · obtain ⟨inner, isAbove, among⟩ := ihChildren below inside
      refine ⟨inner ++ [r], by rw [isAbove, List.append_assoc]; rfl, ?_⟩
      rw [List.append_subset, List.cons_subset]
      exact ⟨fun x isAbove => List.mem_cons_of_mem r (List.mem_append_left _ (among isAbove)),
        List.mem_cons_self, List.nil_subset _⟩
    · obtain ⟨inner, isAbove, among⟩ := ihRest later behind
      exact ⟨inner, isAbove,
        fun x isAbove => List.mem_cons_of_mem r (List.mem_append_right _ (among isAbove))⟩

theorem Owned.nodeAt (owned : f.Owned owners above) {a : α} {children : Forest (Nat × α)}
    (found : f.nodeAt q = some (a, children)) : children.Owned owners (q :: owners q) := by
  induction f generalizing above with
  | nil => cases found
  | cons label inner rest ihInner ihRest =>
    obtain ⟨p, b⟩ := label
    obtain ⟨here, below, later⟩ := owned
    rw [Forest.nodeAt] at found
    by_cases same : p = q
    · rw [if_pos same] at found
      cases found
      rw [← same, here]
      exact below
    · rw [if_neg same, Option.or_eq_some_iff] at found
      rcases found with inside | ⟨-, behind⟩
      · exact ihInner below inside
      · exact ihRest later behind

theorem Owned.setBelow (owned : f.Owned owners above)
    (new : below.Owned owners (q :: owners q)) : (f.setBelow q below).Owned owners above := by
  induction f generalizing above with
  | nil => trivial
  | cons label children rest ihChildren ihRest =>
    obtain ⟨p, a⟩ := label
    obtain ⟨here, under, later⟩ := owned
    rw [Forest.setBelow]
    by_cases same : p = q
    · rw [if_pos same]
      refine ⟨here, ?_, later⟩
      rw [← same, here] at new
      rw [same] at new ⊢
      exact new
    · rw [if_neg same]
      exact ⟨here, ihChildren under, ihRest later⟩

theorem Owned.remove (owned : f.Owned owners above) (q : Nat) :
    (f.remove q).Owned owners above := by
  induction f generalizing above with
  | nil => trivial
  | cons label children rest ihChildren ihRest =>
    obtain ⟨p, a⟩ := label
    obtain ⟨here, under, later⟩ := owned
    rw [Forest.remove]
    split
    · exact later
    · exact ⟨here, ihChildren under, ihRest later⟩

/-- What is left is not the removed node, and not below it. -/
theorem Owned.outside (owned : f.Owned owners above) (distinct : f.cells.Nodup)
    (notAbove : q ∉ above) {p : Nat} (mem : p ∈ (f.remove q).cells) : p ≠ q ∧ q ∉ owners p := by
  induction f generalizing above with
  | nil => cases mem
  | cons label children rest ihChildren ihRest =>
    obtain ⟨r, a⟩ := label
    obtain ⟨here, below, later⟩ := owned
    rw [cells_cons, List.nodup_cons, List.mem_append, not_or, List.nodup_append] at distinct
    obtain ⟨⟨-, notLater⟩, distinctBelow, distinctLater, -⟩ := distinct
    rw [Forest.remove] at mem
    by_cases same : r = q
    · rw [if_pos same] at mem
      rw [same] at notLater
      obtain ⟨inner, isAbove, among⟩ := later.path mem
      refine ⟨fun is => notLater (is ▸ mem), ?_⟩
      rw [isAbove, List.mem_append, not_or]
      exact ⟨fun inside => notLater (among inside), notAbove⟩
    · rw [if_neg same, cells_cons, List.mem_cons, List.mem_append] at mem
      rcases mem with rfl | inside | behind
      · exact ⟨same, here ▸ notAbove⟩
      · refine ihChildren below distinctBelow ?_ inside
        rw [List.mem_cons, not_or]
        exact ⟨Ne.symm same, notAbove⟩
      · exact ihRest later distinctLater notAbove behind

/-- What is not left is the removed node, or below it. -/
theorem Owned.inside (owned : f.Owned owners above) {p : Nat} (mem : p ∈ f.cells)
    (gone : p ∉ (f.remove q).cells) : p = q ∨ q ∈ owners p := by
  induction f generalizing above with
  | nil => cases mem
  | cons label children rest ihChildren ihRest =>
    obtain ⟨r, a⟩ := label
    obtain ⟨here, below, later⟩ := owned
    rw [cells_cons, List.mem_cons, List.mem_append] at mem
    rw [Forest.remove] at gone
    by_cases same : r = q
    · rw [if_pos same] at gone
      rcases mem with rfl | inside | behind
      · exact .inl same
      · obtain ⟨inner, isAbove, -⟩ := below.path inside
        right
        rw [isAbove, List.mem_append, same]
        exact .inr List.mem_cons_self
      · exact absurd behind gone
    · rw [if_neg same, cells_cons, List.mem_cons, List.mem_append, not_or, not_or] at gone
      rcases mem with isRoot | inside | behind
      · exact absurd isRoot gone.1
      · exact ihChildren below inside gone.2.1
      · exact ihRest later behind gone.2.2

theorem Owned.top (owned : f.Owned owners above) (mem : q ∈ f.addresses) : owners q = above := by
  induction f with
  | nil => cases mem
  | cons label children rest _ ih =>
    obtain ⟨p, a⟩ := label
    rw [addresses_cons, List.mem_cons] at mem
    rcases mem with rfl | behind
    · exact owned.1
    · exact ih owned.2.2 behind

/-- The nearest node above a node that is listed below another one is that one. -/
theorem Owned.parent (owned : f.Owned owners above) (stored : f.Stored read) {p : Nat}
    (mem : p ∈ f.cells) {a : α} {children : List Nat} (found : read p = some (a, children))
    (child : q ∈ children) : owners q = p :: owners p := by
  induction f generalizing above with
  | nil => cases mem
  | cons label inner rest ihInner ihRest =>
    obtain ⟨r, b⟩ := label
    obtain ⟨here, below, later⟩ := owned
    obtain ⟨isStored, storedBelow, storedLater⟩ := stored
    rw [cells_cons, List.mem_cons, List.mem_append] at mem
    rcases mem with rfl | inside | behind
    · rw [found] at isStored
      cases isStored
      rw [here]
      exact below.top child
    · exact ihInner below storedBelow inside
    · exact ihRest later storedLater behind

end

end Forest
