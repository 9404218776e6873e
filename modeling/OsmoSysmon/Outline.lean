import OsmoSysmon.Sections

/-! # The tree that the sections build

`Section.tree` is the tree of a section on its own, computed from its items without any
heap.  Running sections with distinct titles below a node adds exactly their trees
to its children, in order: each item works on its own section and nowhere else.
-/

namespace OsmoSysmon

open CText Talloc Loop Effect

def addChildren (values : List (CStr × CStr)) (f : Forest NodeInfo) : Forest NodeInfo :=
  values.foldl (fun f v => addChild v.1 (some v.2) f) f

/-- What an item does to the children of the section's node. -/
def Item.report : Item → Forest NodeInfo → Forest NodeInfo
  | .value name text, f => addChild name (some text) f
  | .group name idx values, f =>
    (addChild name none f).update (NodeInfo.isNamed name) fun info children =>
      ({ info with idx := idx.getD info.idx }, addChildren values children)
  | .atIdx idx values, f =>
    f.update (NodeInfo.hasIdx idx) fun info children => (info, addChildren values children)

def reportItems (items : List Item) (f : Forest NodeInfo) : Forest NodeInfo :=
  items.foldl (fun f item => item.report f) f

def Section.tree (sec : Section) : Forest NodeInfo :=
  .cons ⟨sec.title, 0, none⟩ (reportItems sec.items .nil) .nil

/-! ## Names -/

def names (f : Forest NodeInfo) : List CStr := f.roots.map NodeInfo.name

theorem names_append (f g : Forest NodeInfo) : names (f ++ g) = names f ++ names g := by
  rw [names, Forest.roots_append, List.map_append, names, names]

theorem any_isNamed (name : CStr) (f : Forest NodeInfo) :
    f.roots.any (NodeInfo.isNamed name) = true ↔ name ∈ names f := by
  simp only [names, List.any_eq_true, List.mem_map, NodeInfo.isNamed, beq_iff_eq]

theorem nodup_addChild {f : Forest NodeInfo} (distinct : (names f).Nodup) (name : CStr)
    (value : Option CStr) : (names (addChild name value f)).Nodup := by
  rw [addChild]
  by_cases taken : f.roots.any (NodeInfo.isNamed name) = true
  · rw [if_pos taken]
    exact distinct
  · rw [if_neg taken, names_append]
    rw [any_isNamed] at taken
    exact List.concat_eq_append ▸ distinct.concat taken

/-- A group with a new name gets a node of its own. -/
theorem report_group_new {f : Forest NodeInfo} {name : CStr} (new : name ∉ names f)
    (idx : Option Int32) (values : List (CStr × CStr)) :
    (Item.group name idx values).report f =
      f ++ .cons ⟨name, idx.getD 0, none⟩ (addChildren values .nil) .nil := by
  have untaken : f.roots.any (NodeInfo.isNamed name) = false := by
    rw [← Bool.not_eq_true, any_isNamed]
    exact new
  -- the node is added, and found again where it has been added
  rw [Item.report, addChild, untaken]
  rw [List.any_eq_false] at untaken
  exact Forest.update_first (fun b mem => by simpa using untaken b mem)
    (by simp [NodeInfo.isNamed]) _ _ _

theorem trees_groups {β : Type} {name : β → CStr} {idx : β → Option Int32}
    {values : β → List (CStr × CStr)} {cs : List β} {f : Forest NodeInfo}
    (distinct : (cs.map name).Nodup) (new : ∀ c ∈ cs, name c ∉ names f) :
    (reportItems (cs.map fun c => .group (name c) (idx c) (values c)) f).trees =
      f.trees ++ cs.map fun c => (⟨name c, (idx c).getD 0, none⟩, addChildren (values c) .nil) := by
  induction cs generalizing f with
  | nil => simp [reportItems]
  | cons c cs ih =>
    rw [List.map_cons, List.nodup_cons] at distinct
    rw [List.map_cons, reportItems, List.foldl_cons, ← reportItems,
      report_group_new (new c List.mem_cons_self), ih distinct.2]
    · simp [Forest.trees]
    · intro other mem
      rw [names_append, List.mem_append, not_or]
      refine ⟨new other (List.mem_cons_of_mem _ mem), ?_⟩
      intro same
      apply distinct.1
      rw [names, Forest.roots, List.map_cons, Forest.roots, List.map_nil, List.mem_singleton] at same
      exact List.mem_map.mpr ⟨other, mem, same⟩

theorem addChild_new {f : Forest NodeInfo} {name : CStr} (new : name ∉ names f)
    (value : Option CStr) : addChild name value f = f ++ .leaf ⟨name, 0, value⟩ := by
  rw [addChild, if_neg (mt (any_isNamed name f).mp new)]

/-- Values with different names get a node each. -/
theorem trees_addChildren {values : List (CStr × CStr)} {f : Forest NodeInfo}
    (distinct : (values.map Prod.fst).Nodup) (new : ∀ v ∈ values, v.1 ∉ names f) :
    (addChildren values f).trees = f.trees ++ values.map fun v => (⟨v.1, 0, some v.2⟩, .nil) := by
  induction values generalizing f with
  | nil => simp [addChildren]
  | cons v values ih =>
    rw [List.map_cons, List.nodup_cons] at distinct
    rw [addChildren, List.foldl_cons, ← addChildren, addChild_new (new v List.mem_cons_self),
      ih distinct.2]
    · rw [Forest.trees_append, List.append_assoc]
      rfl
    · intro other mem
      rw [names_append, List.mem_append, not_or]
      refine ⟨new other (List.mem_cons_of_mem _ mem), ?_⟩
      intro same
      apply distinct.1
      rw [names, Forest.roots_leaf, List.map_singleton, List.mem_singleton] at same
      exact List.mem_map.mpr ⟨other, mem, same⟩

/-! ## Working at one child -/

section

variable {s t : Nodes} {q p : Ptr} {info i i' : NodeInfo} {f g before c c' after : NodeForest}

theorem middle_eq (before c after : NodeForest) (label : Ptr × NodeInfo) :
    before ++ .cons label c .nil ++ after = before ++ .cons label c after := by
  rw [Forest.append_assoc, Forest.cons_append, Forest.nil_append]

theorem Holds.children (holds : Holds s (.cons (q, info) f .nil)) : Holds s f := by
  exact ⟨holds.stored.2.1, holds.top.2⟩

theorem Holds.part (holds : Holds s (before ++ f ++ after)) : Holds s f := by
  obtain ⟨stored, distinct⟩ := holds
  rw [Forest.stored_append, Forest.stored_append] at stored
  rw [Forest.cells_append, Forest.cells_append] at distinct
  exact ⟨stored.1.2, (List.nodup_append.mp (List.nodup_append.mp distinct).1).2.1⟩

theorem Holds.child (holds : Holds s (.cons (q, info) (before ++ .cons (p, i) c after) .nil)) :
    Holds s (.cons (p, i) c .nil) := by
  have inner := holds.children
  rw [← middle_eq] at inner
  exact inner.part

/-- What grows at a child grows at the node. -/
theorem Grows.child (grows : Grows s t (.cons (p, i) c .nil) (.cons (p, i') c' .nil))
    (holds : Holds s (.cons (q, info) (before ++ .cons (p, i) c after) .nil)) :
    Grows s t (.cons (q, info) (before ++ .cons (p, i) c after) .nil)
      (.cons (q, info) (before ++ .cons (p, i') c' after) .nil) := by
  apply Grows.inside _ holds
  have inner := holds.children
  rw [← middle_eq] at inner
  have around := grows.within inner
  rw [middle_eq, middle_eq] at around
  exact around

theorem grows_call (holds : Holds s f) (q : Ptr) : Grows s (s.call (some q)) f f where
  holds := ⟨holds.stored, holds.distinct⟩
  addresses := rfl
  fresh _ mem := .inl mem
  frame _ _ _ := rfl
  owners _ _ := rfl
  next := Nat.le_refl _
  ids := ⟨[], rfl, by simp⟩
  beneath _ _ _ beneath := beneath
  parents := ⟨[some q], rfl, by simp⟩

/-! ## Single calls -/

theorem valueNodeAdd_grows (holds : Holds s (.cons (q, info) f .nil)) (name : CStr)
    (value : Option CStr) :
    ∃ r g s', valueNodeAdd (some q) name value s = .ok (r, s') ∧
      Grows s s' (.cons (q, info) f .nil) (.cons (q, info) g .nil) ∧
      g.shape = addChild name value f.shape := by
  cases taken : f.shape.roots.any (NodeInfo.isNamed name) with
  | true =>
    obtain ⟨s', run, grows⟩ := valueNodeAdd_refused holds taken value
    exact ⟨none, f, s', run, grows, by rw [addChild, if_pos taken]⟩
  | false =>
    obtain ⟨n, s', run, grows⟩ := valueNodeAdd_accepted holds taken value
    refine ⟨some n, _, s', run, grows, ?_⟩
    rw [addChild, if_neg (by rw [taken]; exact Bool.false_ne_true), Forest.shape,
      Forest.map_append, Forest.map_leaf]

theorem addValues_grows (holds : Holds s (.cons (q, info) f .nil)) (values : List (CStr × CStr)) :
    ∃ g s', addValues (some q) values s = .ok ((), s') ∧
      Grows s s' (.cons (q, info) f .nil) (.cons (q, info) g .nil) ∧
      g.shape = addChildren values f.shape := by
  induction values generalizing s f with
  | nil => exact ⟨f, s, rfl, .refl holds, rfl⟩
  | cons v values ih =>
    obtain ⟨r, g, t, run, grows, shape⟩ := valueNodeAdd_grows holds v.1 (some v.2)
    obtain ⟨h, u, run', grows', shape'⟩ := ih grows.holds
    refine ⟨h, u, ?_, grows.trans grows', ?_⟩
    · rw [addValues, bind_ok run, run']
    · rw [shape', shape]
      rfl

theorem assignIdx_grows (holds : Holds s (.cons (p, i) c .nil)) (idx : Option Int32) :
    ∃ s', assignIdx p idx s = .ok ((), s') ∧
      Grows s s' (.cons (p, i) c .nil) (.cons (p, { i with idx := idx.getD i.idx }) c .nil) := by
  cases idx with
  | none => exact ⟨s, rfl, .refl holds⟩
  | some idx =>
    refine ⟨_, modifyNode_ok holds.cell _, ?_⟩
    constructor
    · refine ⟨⟨?_, holds.stored.2.1.frame ?_, trivial⟩, holds.distinct⟩
      · rw [view_eq_some]
        exact Heap.get?_set_self holds.cell _
      · intro r mem
        apply view_congr (Heap.get?_set_of_ne _)
        rintro rfl
        exact holds.top.1 mem
    · rfl
    · exact fun r mem => .inl mem
    · intro r _ outside
      apply Heap.get?_set_of_ne
      rintro rfl
      exact outside (by simp)
    · exact fun r _ => Heap.owners_set _ _ r _
    · exact Nat.le_refl _
    · exact ⟨[], Heap.ids_set _ _ _, by simp⟩
    · exact fun root _ _ beneath => beneath.set _ _
    · exact ⟨[], rfl, by simp⟩

theorem valueNodeFindOrAdd_grows (holds : Holds s (.cons (q, info) f .nil)) (name : CStr) :
    ∃ before p i c after s', valueNodeFindOrAdd (some q) name s = .ok (some p, s') ∧
      Grows s s' (.cons (q, info) f .nil)
        (.cons (q, info) (before ++ .cons (p, i) c after) .nil) ∧
      (before ++ .cons (p, i) c after).shape = addChild name none f.shape ∧
      i.isNamed name = true ∧ ∀ b ∈ before.roots, b.2.isNamed name = false := by
  have again := (grows_call holds q).trans (grows_call (grows_call holds q).holds q)
  have stored := holds.children.stored
  cases Forest.split_first (fun a : Ptr × NodeInfo => a.2.isNamed name) f with
  | inl absent =>
    have new : f.shape.roots.any (NodeInfo.isNamed name) = false := untaken_iff.mpr absent
    have missing := findNode_none (shallow_name name) stored absent
    have search := valueNodeFind_ok (s := s.call (some q)) holds.cell missing
    obtain ⟨n, u, run, grows⟩ := valueNodeAdd_accepted again.holds new none
    refine ⟨f, n, _, .nil, .nil, u, ?_, again.trans grows, ?_, by simp [NodeInfo.isNamed], absent⟩
    · rw [valueNodeFindOrAdd, called, bind_ok (modify_ok _ s), bind_ok search]
      exact run
    · rw [addChild, if_neg (by rw [new]; exact Bool.false_ne_true), Forest.shape,
        Forest.map_append]
      rfl
  | inr first =>
    obtain ⟨before, ⟨p, i⟩, c, after, rfl, named, skipped⟩ := first
    have found := findNode_first (shallow_name name) stored skipped named
    have search := valueNodeFind_ok (s := s.call (some q)) holds.cell found
    refine ⟨before, p, i, c, after, _, ?_, again, ?_, named, skipped⟩
    · rw [valueNodeFindOrAdd, called, bind_ok (modify_ok _ s), bind_ok search]
      rfl
    · have taken : (before ++ .cons (p, i) c after).shape.roots.any (NodeInfo.isNamed name) = true := by
        rw [List.any_eq_true]
        refine ⟨i, ?_, named⟩
        rw [Forest.shape, Forest.roots_map, Forest.roots_append, List.map_append, List.mem_append]
        exact .inr List.mem_cons_self
      rw [addChild, if_pos taken]

/-! ## Items -/

theorem skipped_shape {pick : NodeInfo → Bool} (skipped : ∀ b ∈ f.roots, pick b.2 = false) :
    ∀ b ∈ f.shape.roots, pick b = false := by
  rw [Forest.shape, Forest.roots_map, List.forall_mem_map]
  exact skipped

theorem shape_update {pick : NodeInfo → Bool} (skipped : ∀ b ∈ before.roots, pick b.2 = false)
    (found : pick i = true) {change : NodeInfo → Forest NodeInfo → NodeInfo × Forest NodeInfo}
    (changed : change i c.shape = (i', c'.shape)) :
    (before ++ .cons (p, i') c' after).shape =
      (before ++ .cons (p, i) c after).shape.update pick change := by
  have split : (before ++ .cons (p, i) c after).shape =
      before.shape ++ .cons i c.shape after.shape := by
    rw [Forest.shape, Forest.map_append]
    rfl
  rw [split, Forest.update_first (skipped_shape skipped) found, changed, Forest.shape, Forest.map_append]
  rfl

theorem runItem_grows (holds : Holds s (.cons (q, info) f .nil)) (item : Item) :
    ∃ g s', runItem (some q) item s = .ok ((), s') ∧
      Grows s s' (.cons (q, info) f .nil) (.cons (q, info) g .nil) ∧
      g.shape = item.report f.shape := by
  cases item with
  | value name text =>
    obtain ⟨r, g, t, run, grows, shape⟩ := valueNodeAdd_grows holds name (some text)
    refine ⟨g, t, ?_, grows, shape⟩
    rw [runItem, bind_ok run]
    rfl
  | group name idx values =>
    obtain ⟨before, p, i, c, after, t, run, grows, shape, named, skipped⟩ :=
      valueNodeFindOrAdd_grows holds name
    obtain ⟨u, run', grows'⟩ := assignIdx_grows grows.holds.child idx
    obtain ⟨c', v, run'', grows'', shape'⟩ := addValues_grows grows'.holds values
    -- what happens at the child happens at the section's node
    have inner := (grows'.trans grows'').child grows.holds
    refine ⟨_, v, ?_, grows.trans inner, ?_⟩
    · rw [runItem, bind_ok run]
      show (assignIdx p idx >>= _) t = _
      rw [bind_ok run', run'']
    · rw [Item.report, ← shape]
      exact shape_update skipped named (by rw [shape'])
  | atIdx idx values =>
    -- only the call itself shows if there is no such node
    have called := grows_call holds q
    have stored := holds.children.stored
    cases Forest.split_first (fun a : Ptr × NodeInfo => a.2.hasIdx idx) f with
    | inl absent =>
      have missing := findNode_none (shallow_idx idx) stored absent
      refine ⟨f, _, ?_, called, ?_⟩
      · rw [runItem, bind_ok (valueNodeFindByIdx_ok holds.cell missing)]
        rfl
      · rw [Item.report, Forest.update_of_none (skipped_shape absent)]
    | inr first =>
      obtain ⟨before, ⟨p, i⟩, c, after, rfl, has, skipped⟩ := first
      have found := findNode_first (shallow_idx idx) stored skipped has
      obtain ⟨c', t, run, grows, shape⟩ := addValues_grows called.holds.child values
      refine ⟨_, t, ?_, called.trans (grows.child called.holds), ?_⟩
      · rw [runItem, bind_ok (valueNodeFindByIdx_ok holds.cell found)]
        exact run
      · exact shape_update skipped has (by rw [shape])

theorem runItems_grows (holds : Holds s (.cons (q, info) f .nil)) (items : List Item) :
    ∃ g s', runItems (some q) items s = .ok ((), s') ∧
      Grows s s' (.cons (q, info) f .nil) (.cons (q, info) g .nil) ∧
      g.shape = reportItems items f.shape := by
  induction items generalizing s f with
  | nil => exact ⟨f, s, rfl, .refl holds, rfl⟩
  | cons item items ih =>
    obtain ⟨g, t, run, grows, shape⟩ := runItem_grows holds item
    obtain ⟨h, u, run', grows', shape'⟩ := ih grows.holds
    refine ⟨h, u, ?_, grows.trans grows', ?_⟩
    · rw [runItems, bind_ok run, run']
    · rw [shape', shape]
      rfl

/-! ## Sections -/

theorem runSection_grows (holds : Holds s (.cons (q, info) f .nil)) {sec : Section}
    (new : f.shape.roots.any (NodeInfo.isNamed sec.title) = false) :
    ∃ g s', runSection (some q) sec s = .ok ((), s') ∧
      Grows s s' (.cons (q, info) f .nil) (.cons (q, info) g .nil) ∧
      g.shape = f.shape ++ sec.tree := by
  obtain ⟨n, t, run, grows⟩ := valueNodeAdd_accepted holds new none
  have node : Holds t (.cons (q, info) (f ++ .cons (n, ⟨sec.title, 0, none⟩) .nil .nil) .nil) :=
    grows.holds
  obtain ⟨c, u, run', grows', shape⟩ := runItems_grows node.child sec.items
  refine ⟨_, u, ?_, grows.trans (grows'.child node), ?_⟩
  · rw [runSection, bind_ok run]
    simp only [Option.isNone_some, Bool.and_false, Bool.false_eq_true, if_false]
    exact run'
  · rw [Forest.shape, Forest.map_append, Section.tree]
    show f.shape ++ .cons _ c.shape .nil = _
    rw [shape]
    rfl

theorem runSections_grows (holds : Holds s (.cons (q, info) f .nil)) {secs : List Section}
    (distinct : (secs.map Section.title).Nodup)
    (new : ∀ sec ∈ secs, f.shape.roots.any (NodeInfo.isNamed sec.title) = false) :
    ∃ g s', runSections (some q) secs s = .ok ((), s') ∧
      Grows s s' (.cons (q, info) f .nil) (.cons (q, info) g .nil) ∧
      g.shape = f.shape ++ .concat (secs.map Section.tree) := by
  induction secs generalizing s f with
  | nil => exact ⟨f, s, rfl, .refl holds, (Forest.append_nil _).symm⟩
  | cons sec secs ih =>
    rw [List.map_cons, List.nodup_cons] at distinct
    obtain ⟨g, t, run, grows, shape⟩ := runSection_grows holds (new sec List.mem_cons_self)
    have later : ∀ other ∈ secs, g.shape.roots.any (NodeInfo.isNamed other.title) = false := by
      intro other mem
      -- a section only adds its own title to the names that are taken
      have differs : sec.title ≠ other.title := by
        intro same
        exact distinct.1 (List.mem_map.mpr ⟨other, mem, same.symm⟩)
      rw [shape, Forest.roots_append, List.any_append, new other (List.mem_cons_of_mem _ mem)]
      simpa [Section.tree, Forest.roots, NodeInfo.isNamed] using differs
    obtain ⟨h, u, run', grows', shape'⟩ := ih grows.holds distinct.2 later
    refine ⟨h, u, ?_, grows.trans grows', ?_⟩
    · rw [runSections, bind_ok run, run']
    · rw [shape', shape, List.map_cons, Forest.concat, Forest.append_assoc]

end

end OsmoSysmon
