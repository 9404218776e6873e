import Mathlib.Data.List.Nodup

/-! # Ordered forests and their storage

A forest is a list of trees: its first tree, taken apart into label and children, and
the rest.  `Stored` says that a memory of labelled cells, each with the addresses of
its children, stores a forest whose labels carry the addresses.
-/

/-- An ordered list of ordered trees. -/
inductive Forest (α : Type) where
  | nil
  | cons (label : α) (children rest : Forest α)
deriving DecidableEq, Repr

namespace Forest

variable {α β γ : Type}

def leaf (a : α) : Forest α := cons a nil nil

def append : Forest α → Forest α → Forest α
  | nil, g => g
  | cons a children rest, g => cons a children (rest.append g)

instance : Append (Forest α) := ⟨append⟩

def map (f : α → β) : Forest α → Forest β
  | nil => nil
  | cons a children rest => cons (f a) (children.map f) (rest.map f)

/-- The labels of the top level, in order. -/
def roots : Forest α → List α
  | nil => []
  | cons a _ rest => a :: rest.roots

/-- The trees of the top level, taken apart into label and children. -/
def trees : Forest α → List (α × Forest α)
  | nil => []
  | cons a children rest => (a, children) :: rest.trees

/-- All labels, in depth-first order. -/
def labels : Forest α → List α
  | nil => []
  | cons a children rest => a :: (children.labels ++ rest.labels)

def depth : Forest α → Nat
  | nil => 0
  | cons _ children rest => max (children.depth + 1) rest.depth

/-- All labels with their depth, in depth-first order. -/
def outline (depth : Nat) : Forest α → List (Nat × α)
  | nil => []
  | cons a children rest => (depth, a) :: (children.outline (depth + 1) ++ rest.outline depth)

/-- The trees at the top level. -/
def Each (P : α → Forest α → Prop) : Forest α → Prop
  | nil => True
  | cons a children rest => P a children ∧ rest.Each P

/-- All nodes, with their children. -/
def Every (P : α → Forest α → Prop) : Forest α → Prop
  | nil => True
  | cons a children rest => P a children ∧ children.Every P ∧ rest.Every P

/-- Changes the first tree at the top level whose label is selected. -/
def update (sel : α → Bool) (f : α → Forest α → α × Forest α) : Forest α → Forest α
  | nil => nil
  | cons a children rest =>
    if sel a then cons (f a children).1 (f a children).2 rest
    else cons a children (rest.update sel f)

/-- The trees of all forests of a list. -/
def concat : List (Forest α) → Forest α
  | [] => nil
  | f :: fs => f ++ concat fs

@[simp] theorem nil_append (g : Forest α) : nil ++ g = g := rfl

@[simp] theorem cons_append (a : α) (children rest g : Forest α) :
    cons a children rest ++ g = cons a children (rest ++ g) := rfl

@[simp] theorem append_nil (f : Forest α) : f ++ nil = f := by
  induction f with
  | nil => rfl
  | cons a children rest _ ih => rw [cons_append, ih]

theorem append_assoc (f g h : Forest α) : f ++ g ++ h = f ++ (g ++ h) := by
  induction f with
  | nil => rfl
  | cons a children rest _ ih => rw [cons_append, cons_append, cons_append, ih]

@[simp] theorem map_append (m : α → β) (f g : Forest α) : (f ++ g).map m = f.map m ++ g.map m := by
  induction f with
  | nil => rfl
  | cons a children rest _ ih => rw [cons_append, map, ih, map, cons_append]

@[simp] theorem map_leaf (m : α → β) (a : α) : (leaf a).map m = leaf (m a) := rfl

@[simp] theorem roots_append (f g : Forest α) : (f ++ g).roots = f.roots ++ g.roots := by
  induction f with
  | nil => rfl
  | cons a children rest _ ih => rw [cons_append, roots, ih, roots, List.cons_append]

@[simp] theorem roots_leaf (a : α) : (leaf a).roots = [a] := rfl

@[simp] theorem roots_map (m : α → β) (f : Forest α) : (f.map m).roots = f.roots.map m := by
  induction f with
  | nil => rfl
  | cons a children rest _ ih => rw [map, roots, ih, roots, List.map_cons]

@[simp] theorem labels_append (f g : Forest α) : (f ++ g).labels = f.labels ++ g.labels := by
  induction f with
  | nil => rfl
  | cons a children rest _ ih =>
    rw [cons_append, labels, ih, labels, List.cons_append, List.append_assoc]

@[simp] theorem trees_append (f g : Forest α) : (f ++ g).trees = f.trees ++ g.trees := by
  induction f with
  | nil => rfl
  | cons a children rest _ ih => rw [cons_append, trees, ih, trees, List.cons_append]

theorem map_fst_trees (f : Forest α) : f.trees.map Prod.fst = f.roots := by
  induction f with
  | nil => rfl
  | cons a children rest _ ih => rw [trees, List.map_cons, ih, roots]

theorem depth_le_length_labels (f : Forest α) : f.depth ≤ f.labels.length := by
  induction f with
  | nil => exact Nat.le_refl 0
  | cons a children rest ihChildren ihRest =>
    rw [depth, labels, List.length_cons, List.length_append]
    omega

/-- The outline shows every node once. -/
theorem map_snd_outline (f : Forest α) (depth : Nat) :
    (f.outline depth).map Prod.snd = f.labels := by
  induction f generalizing depth with
  | nil => rfl
  | cons a children rest ihChildren ihRest =>
    rw [outline, List.map_cons, List.map_append, ihChildren, ihRest, labels]

section

variable {P Q : α → Forest α → Prop} {f g : Forest α}

theorem each_append : (f ++ g).Each P ↔ f.Each P ∧ g.Each P := by
  induction f with
  | nil =>
    show g.Each P ↔ True ∧ g.Each P
    rw [true_and]
  | cons a children rest _ ih => rw [cons_append, Each, ih, Each, and_assoc]

theorem every_append : (f ++ g).Every P ↔ f.Every P ∧ g.Every P := by
  induction f with
  | nil =>
    show g.Every P ↔ True ∧ g.Every P
    rw [true_and]
  | cons a children rest _ ih => rw [cons_append, Every, ih, Every, and_assoc, and_assoc]

/-- A property of trees that tells enough of the nodes below them. -/
theorem every_of_each (each : f.Each Q) (holds : ∀ a children, Q a children → P a children)
    (below : ∀ a children, Q a children → children.Every P) : f.Every P := by
  induction f with
  | nil => trivial
  | cons a children rest _ ih => exact ⟨holds _ _ each.1, below _ _ each.1, ih each.2⟩

/-- A change that keeps the property where it is made. -/
theorem Each.update {sel : α → Bool} {change : α → Forest α → α × Forest α} (each : f.Each P)
    (keeps : ∀ a children, sel a = true → P a children →
      P (change a children).1 (change a children).2) : (f.update sel change).Each P := by
  induction f with
  | nil => trivial
  | cons a children rest _ ih =>
    rw [Forest.update]
    by_cases chosen : sel a = true
    · rw [if_pos chosen]
      exact ⟨keeps a children chosen each.1, each.2⟩
    · rw [if_neg chosen]
      exact ⟨each.1, ih each.2⟩

theorem Every.update {sel : α → Bool} {change : α → Forest α → α × Forest α} (every : f.Every P)
    (keeps : ∀ a children, sel a = true → P a children → children.Every P →
      P (change a children).1 (change a children).2 ∧ (change a children).2.Every P) :
    (f.update sel change).Every P := by
  induction f with
  | nil => trivial
  | cons a children rest _ ih =>
    obtain ⟨here, below, later⟩ := every
    rw [Forest.update]
    by_cases chosen : sel a = true
    · rw [if_pos chosen]
      obtain ⟨here', below'⟩ := keeps a children chosen here below
      exact ⟨here', below', later⟩
    · rw [if_neg chosen]
      exact ⟨here, below, ih later⟩

theorem Every.labels {P : α → Prop} (every : f.Every fun a _ => P a) : ∀ a ∈ f.labels, P a := by
  induction f with
  | nil => exact fun _ mem => by cases mem
  | cons a children rest ihChildren ihRest =>
    obtain ⟨here, below, later⟩ := every
    rw [Forest.labels, List.forall_mem_cons, List.forall_mem_append]
    exact ⟨here, ihChildren below, ihRest later⟩

/-- A change of labels that does not show leaves the top level as it is. -/
theorem map_roots_update {sel : α → Bool} {change : α → Forest α → α × Forest α} (view : α → β)
    (same : ∀ a children, view (change a children).1 = view a) :
    (f.update sel change).roots.map view = f.roots.map view := by
  induction f with
  | nil => rfl
  | cons a children rest _ ih =>
    rw [Forest.update]
    split
    · simp [roots, same]
    · simp [roots, ih]

end

theorem every_concat {P : α → Forest α → Prop} {fs : List (Forest α)}
    (all : ∀ f ∈ fs, f.Every P) : (concat fs).Every P := by
  induction fs with
  | nil => trivial
  | cons f fs ih =>
    rw [concat, every_append]
    exact ⟨all f List.mem_cons_self, ih fun g mem => all g (List.mem_cons_of_mem f mem)⟩

theorem concat_append (fs gs : List (Forest α)) : concat (fs ++ gs) = concat fs ++ concat gs := by
  induction fs with
  | nil => rfl
  | cons f fs ih => rw [List.cons_append, concat, ih, concat, append_assoc]

theorem concat_flatMap (parts : List β) (split : β → List α) (tree : α → Forest γ) :
    concat ((parts.flatMap split).map tree) =
      concat (parts.map fun part => concat ((split part).map tree)) := by
  induction parts with
  | nil => rfl
  | cons part parts ih =>
    rw [List.flatMap_cons, List.map_append, concat_append, ih, List.map_cons, concat]

/-! ## Selecting a tree -/

/-- Either no tree at the top level is selected, or there is a first one. -/
theorem split_first (sel : α → Bool) (f : Forest α) :
    (∀ a ∈ f.roots, sel a = false) ∨
      ∃ before a children after, f = before ++ cons a children after ∧ sel a = true ∧
        ∀ b ∈ before.roots, sel b = false := by
  induction f with
  | nil => exact .inl fun a mem => by cases mem
  | cons a children rest _ ih =>
    cases chosen : sel a with
    | true => exact .inr ⟨nil, a, children, rest, rfl, chosen, fun b mem => by cases mem⟩
    | false =>
      cases ih with
      | inl none =>
        refine .inl fun b mem => ?_
        cases mem with
        | head => exact chosen
        | tail _ later => exact none b later
      | inr first =>
        obtain ⟨before, c, inner, after, rfl, found, skipped⟩ := first
        refine .inr ⟨cons a children before, c, inner, after, rfl, found, fun b mem => ?_⟩
        cases mem with
        | head => exact chosen
        | tail _ later => exact skipped b later

theorem update_of_none {sel : α → Bool} {f : Forest α} (none : ∀ a ∈ f.roots, sel a = false)
    (g : α → Forest α → α × Forest α) : f.update sel g = f := by
  induction f with
  | nil => rfl
  | cons a children rest _ ih =>
    rw [update, if_neg (by simp [none a List.mem_cons_self])]
    rw [ih fun b mem => none b (List.mem_cons_of_mem a mem)]

theorem update_first {sel : α → Bool} {before : Forest α} {a : α}
    (skipped : ∀ b ∈ before.roots, sel b = false) (found : sel a = true)
    (g : α → Forest α → α × Forest α) (children after : Forest α) :
    (before ++ cons a children after).update sel g =
      before ++ cons (g a children).1 (g a children).2 after := by
  induction before with
  | nil => rw [nil_append, nil_append, update, if_pos found]
  | cons b inner rest _ ih =>
    rw [cons_append, update, if_neg (by simp [skipped b List.mem_cons_self])]
    rw [ih fun c mem => skipped c (List.mem_cons_of_mem b mem), cons_append]

/-- With a key that no two trees share, the one tree that has it is changed. -/
theorem trees_update [DecidableEq β] {key : α → β} {f : Forest α} (distinct : (f.roots.map key).Nodup)
    (k : β) (g : α → Forest α → α × Forest α) :
    (f.update (fun a => k == key a) g).trees =
      f.trees.map fun t => if k = key t.1 then g t.1 t.2 else t := by
  induction f with
  | nil => rfl
  | cons a children rest _ ih =>
    rw [roots, List.map_cons, List.nodup_cons] at distinct
    rw [update, trees, List.map_cons]
    by_cases here : k = key a
    · -- nothing behind it has the key
      have others : ∀ t ∈ rest.trees, ¬ k = key t.1 := by
        intro t mem same
        apply distinct.1
        rw [← here, same, ← map_fst_trees, List.map_map]
        exact List.mem_map_of_mem mem
      rw [if_pos (by simpa using here), trees, if_pos here]
      congr 1
      exact ((List.map_congr_left fun t mem => if_neg (others t mem)).trans (List.map_id _)).symm
    · rw [if_neg (by simpa using here), trees, if_neg here, ih distinct.2]

/-! ## Storage -/

/-- The addresses of the top level. -/
def addresses (f : Forest (Nat × α)) : List Nat := f.roots.map Prod.fst

/-- All addresses. -/
def cells (f : Forest (Nat × α)) : List Nat := f.labels.map Prod.fst

/-- The labels without the addresses. -/
abbrev shape (f : Forest (Nat × α)) : Forest α := f.map Prod.snd

@[simp] theorem addresses_append (f g : Forest (Nat × α)) :
    (f ++ g).addresses = f.addresses ++ g.addresses := by
  rw [addresses, roots_append, List.map_append, addresses, addresses]

@[simp] theorem addresses_cons (p : Nat) (a : α) (children rest : Forest (Nat × α)) :
    (cons (p, a) children rest).addresses = p :: rest.addresses := rfl

@[simp] theorem cells_nil : (nil : Forest (Nat × α)).cells = [] := rfl

@[simp] theorem cells_cons (p : Nat) (a : α) (children rest : Forest (Nat × α)) :
    (cons (p, a) children rest).cells = p :: (children.cells ++ rest.cells) := by
  rw [cells, labels, List.map_cons, List.map_append, cells, cells]

@[simp] theorem cells_append (f g : Forest (Nat × α)) : (f ++ g).cells = f.cells ++ g.cells := by
  rw [cells, labels_append, List.map_append, cells, cells]

@[simp] theorem cells_leaf (p : Nat) (a : α) : (leaf (p, a)).cells = [p] := rfl

/-- Every node is in the memory, with its label and the addresses of its children. -/
def Stored (read : Nat → Option (α × List Nat)) : Forest (Nat × α) → Prop
  | nil => True
  | cons (p, a) children rest =>
    read p = some (a, children.addresses) ∧ children.Stored read ∧ rest.Stored read

section

variable {read read' : Nat → Option (α × List Nat)} {f g : Forest (Nat × α)}

theorem stored_append : (f ++ g).Stored read ↔ f.Stored read ∧ g.Stored read := by
  induction f with
  | nil =>
    show g.Stored read ↔ True ∧ g.Stored read
    rw [true_and]
  | cons label children rest _ ih =>
    rw [cons_append, Stored, ih, Stored, and_assoc, and_assoc]

/-- A stored forest does not depend on other cells. -/
theorem Stored.frame (stored : f.Stored read) (same : ∀ p ∈ f.cells, read' p = read p) :
    f.Stored read' := by
  induction f with
  | nil => trivial
  -- the cells of the children and of the rest are cells of the forest
  | cons label children rest ihChildren ihRest =>
    obtain ⟨p, a⟩ := label
    obtain ⟨here, below, later⟩ := stored
    rw [cells_cons] at same
    refine ⟨?_, ihChildren below ?_, ihRest later ?_⟩
    · rw [same p List.mem_cons_self, here]
    · exact fun q mem => same q (List.mem_cons_of_mem p (List.mem_append_left _ mem))
    · exact fun q mem => same q (List.mem_cons_of_mem p (List.mem_append_right _ mem))

theorem Stored.read_some (stored : f.Stored read) {p : Nat} (mem : p ∈ f.cells) :
    ∃ content, read p = some content := by
  induction f with
  | nil => cases mem
  | cons label children rest ihChildren ihRest =>
    obtain ⟨q, a⟩ := label
    obtain ⟨here, below, later⟩ := stored
    rw [cells_cons, List.mem_cons, List.mem_append] at mem
    rcases mem with same | inner | behind
    · exact ⟨_, same ▸ here⟩
    · exact ihChildren below inner
    · exact ihRest later behind

end

end Forest
