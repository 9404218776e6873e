import OsmoSysmon.Cycle.Leak

/-! # What is displayed

`print_node` does not go below a node that has a value.  No poll function puts anything
there: a section consists either of values or of groups of values, so the display is
the whole tree.
-/

namespace OsmoSysmon

open CText Talloc Loop

/-! ## The form of the trees -/

/-- Nodes without children and with names of their own. -/
def Flat (f : Forest NodeInfo) : Prop := f.Each (fun _ children => children = .nil) ∧ (names f).Nodup

/-- Nodes without a value, with names of their own, above such lists. -/
def Grouped (f : Forest NodeInfo) : Prop :=
  f.Each (fun info children => info.value = none ∧ Flat children) ∧ (names f).Nodup

/-- A node with a value has no children, and siblings have different names. -/
def Displayable (info : NodeInfo) (children : Forest NodeInfo) : Prop :=
  (info.value ≠ none → children = .nil) ∧ (names children).Nodup

theorem each_addChild {P : NodeInfo → Forest NodeInfo → Prop} {f : Forest NodeInfo}
    (each : f.Each P) {name : CStr} {value : Option CStr} (new : P ⟨name, 0, value⟩ .nil) :
    (addChild name value f).Each P := by
  rw [addChild]
  split
  · exact each
  · exact Forest.each_append.mpr ⟨each, new, trivial⟩

theorem Flat.addChild {f : Forest NodeInfo} (flat : Flat f) (name : CStr) (value : Option CStr) :
    Flat (addChild name value f) :=
  ⟨each_addChild flat.1 rfl, nodup_addChild flat.2 name value⟩

theorem Flat.addChildren {f : Forest NodeInfo} (flat : Flat f) (values : List (CStr × CStr)) :
    Flat (addChildren values f) := by
  induction values generalizing f with
  | nil => exact flat
  | cons v values ih => exact ih (flat.addChild v.1 (some v.2))

theorem flat_nil : Flat .nil := ⟨trivial, List.nodup_nil⟩

/-! ## Sections -/

def Item.isValue : Item → Bool
  | .value _ _ => true
  | .group _ _ _ => false
  | .atIdx _ _ => false

/-- A section of values, or of groups. -/
def Section.Uniform (sec : Section) : Prop :=
  (∀ item ∈ sec.items, item.isValue = true) ∨ ∀ item ∈ sec.items, item.isValue = false

theorem Flat.report {f : Forest NodeInfo} (flat : Flat f) {item : Item}
    (isValue : item.isValue = true) : Flat (item.report f) := by
  cases item with
  | value name text => exact flat.addChild name (some text)
  | group | atIdx => cases isValue

theorem Grouped.report {f : Forest NodeInfo} (grouped : Grouped f) {item : Item}
    (notValue : item.isValue = false) : Grouped (item.report f) := by
  cases item with
  | value => cases notValue
  | group name idx values =>
    constructor
    · apply (each_addChild grouped.1 ⟨rfl, flat_nil⟩).update
      intro info children _ here
      exact ⟨here.1, here.2.addChildren values⟩
    · rw [Item.report, names, Forest.map_roots_update NodeInfo.name fun _ _ => rfl]
      exact nodup_addChild grouped.2 name none
  | atIdx idx values =>
    constructor
    · apply grouped.1.update
      intro info children _ here
      exact ⟨here.1, here.2.addChildren values⟩
    · rw [Item.report, names, Forest.map_roots_update NodeInfo.name fun _ _ => rfl]
      exact grouped.2

theorem Flat.every {f : Forest NodeInfo} (flat : Flat f) : f.Every Displayable := by
  apply Forest.every_of_each flat.1
  · rintro info children rfl
    exact ⟨fun _ => rfl, List.nodup_nil⟩
  · rintro info children rfl
    exact trivial

theorem Grouped.every {f : Forest NodeInfo} (grouped : Grouped f) : f.Every Displayable := by
  apply Forest.every_of_each grouped.1
  · intro info children here
    exact ⟨fun value => absurd here.1 value, here.2.2⟩
  · intro info children here
    exact here.2.every

theorem reportItems_keeps {I : Forest NodeInfo → Prop} {items : List Item}
    (keeps : ∀ item ∈ items, ∀ f, I f → I (item.report f)) {f : Forest NodeInfo} (start : I f) :
    I (reportItems items f) := by
  induction items generalizing f with
  | nil => exact start
  | cons item items ih =>
    have first := keeps item List.mem_cons_self f start
    exact ih (fun i mem => keeps i (List.mem_cons_of_mem _ mem)) first

/-- What a uniform section reports can be displayed. -/
theorem Section.Uniform.every {sec : Section} (uniform : sec.Uniform) :
    sec.tree.Every Displayable := by
  have below : (reportItems sec.items .nil).Every Displayable ∧
      (names (reportItems sec.items .nil)).Nodup := by
    cases uniform with
    | inl values =>
      have flat : Flat (reportItems sec.items .nil) :=
        reportItems_keeps (fun item mem _ here => here.report (values item mem)) flat_nil
      exact ⟨flat.every, flat.2⟩
    | inr groups =>
      have grouped : Grouped (reportItems sec.items .nil) :=
        reportItems_keeps (fun item mem _ here => here.report (groups item mem))
          ⟨trivial, List.nodup_nil⟩
      exact ⟨grouped.every, grouped.2⟩
  exact ⟨⟨fun value => absurd rfl value, below.2⟩, below.1, trivial⟩

theorem isValue_varItems {H : Type} (api : CtrlApi H) (sch : H) (vars : List CStr) :
    ∀ item ∈ varItems api sch vars, item.isValue = true := by
  induction vars generalizing sch with
  | nil => simp [varItems]
  | cons name names ih =>
    rw [varItems]
    split
    · simp
    · next sch' _ =>
      rw [List.forall_mem_cons]
      exact ⟨rfl, ih sch'⟩

theorem isValue_pingItems (infos : List PingInfo) :
    ∀ item ∈ pingItems infos, item.isValue = false := by
  induction infos with
  | nil => simp [pingItems]
  | cons info infos ih =>
    rw [pingItems]
    split
    · simp
    · simp [Item.isValue]
    · rw [List.forall_mem_cons]
      exact ⟨rfl, ih⟩

theorem isValue_netdevItems (netdevs : List CStr)
    (netlink : Option (List LinkMsg × List AddrMsg)) :
    ∀ item ∈ netdevItems netdevs netlink, item.isValue = false := by
  intro item mem
  cases netlink with
  | none => cases mem
  | some msgs =>
    obtain ⟨links, addrs⟩ := msgs
    rw [netdevItems, List.mem_append, List.mem_flatMap, List.mem_map] at mem
    rcases mem with ⟨msg, -, isLink⟩ | ⟨msg, -, rfl⟩
    · rw [linkItem, List.mem_map] at isLink
      obtain ⟨name, -, rfl⟩ := isLink
      rfl
    · rfl

theorem eq_of_mem_sectionIf {there : Bool} {sec sec' : Section}
    (mem : sec ∈ sectionIf there sec') : sec = sec' := by
  cases there with
  | true => exact List.mem_singleton.mp mem
  | false => cases mem

/-- No section mixes values with groups. -/
theorem sections_uniform {H : Type} (os : OsysmonState H) (probes : Probes H) :
    ∀ sec ∈ os.sections probes, sec.Uniform := by
  intro sec mem
  simp only [OsysmonState.sections, List.mem_append] at mem
  rcases mem with (((((openvpn | sysinfo) | ctrl) | netdev) | ping) | file) | shellcmd
  · cases eq_of_mem_sectionIf openvpn
    exact .inr (by simp [openvpnItem, Item.isValue])
  · cases eq_of_mem_sectionIf sysinfo
    refine .inl fun item isItem => ?_
    obtain ⟨v, -, rfl⟩ := List.mem_map.mp isItem
    rfl
  · obtain ⟨cc, -, rfl⟩ := List.mem_map.mp ctrl
    refine .inl ?_
    rw [ctrlSection, ctrlItems]
    split
    · simp
    · exact isValue_varItems _ _ _
  · cases eq_of_mem_sectionIf netdev
    exact .inr (isValue_netdevItems _ _)
  · cases eq_of_mem_sectionIf ping
    exact .inr (isValue_pingItems _)
  · cases eq_of_mem_sectionIf file
    exact .inl (by simp [Item.isValue])
  · cases eq_of_mem_sectionIf shellcmd
    exact .inl (by simp [Item.isValue])

/-! ## Lines -/

/-- The line for a node at a depth. -/
def outlineLine (node : Nat × NodeInfo) : CStr :=
  List.replicate (2 * node.1) 32 ++ node.2.name ++
    (node.2.value.map fun value => ascii ": " ++ value).getD []

/-- The lines that are printed for stored trees are their outline. -/
theorem printForest_ok {heap : Heap ValueNode} {g : NodeForest} (stored : g.Stored (view heap))
    (every : g.shape.Every Displayable) {fuel : Nat} (enough : g.depth ≤ fuel) (depth : Nat) :
    ∃ parts, (g.addresses.mapM fun p => printNode heap fuel p (2 * depth)) = .ok parts ∧
      parts.flatten = (g.shape.outline depth).map outlineLine := by
  induction g generalizing fuel depth with
  | nil => exact ⟨[], rfl, rfl⟩
  | cons label children rest ihChildren ihRest =>
    obtain ⟨p, info⟩ := label
    obtain ⟨here, below, later⟩ := stored
    obtain ⟨displayable, everyBelow, everyLater⟩ := every
    rw [Forest.depth] at enough
    obtain ⟨parts, printed, lines⟩ := ihRest later everyLater
      (Nat.le_trans (Nat.le_max_right _ _) enough) depth
    obtain ⟨fuel, rfl⟩ : ∃ k, fuel = k + 1 := ⟨fuel - 1, by omega⟩
    obtain ⟨inner, printedInner, linesInner⟩ := ihChildren below everyBelow
      (by omega : children.depth ≤ fuel) (depth + 1)
    -- two columns further to the right
    have printedBelow : (children.addresses.mapM fun p => printNode heap fuel p (2 * depth + 2)) =
        .ok inner := printedInner
    have cell := derefNode_ok (view_eq_some.mp here)
    have first : printNode heap (fuel + 1) p (2 * depth) =
        .ok (outlineLine (depth, info) :: (children.shape.outline (depth + 1)).map outlineLine) := by
      rw [printNode, ok_bind cell]
      cases value : info.value with
      | some text =>
        -- there is nothing below it
        have empty : children.shape = .nil := displayable.1 (by simp [value])
        simp [NodeInfo.node, value, outlineLine, empty, Forest.outline]
        rfl
      | none =>
        simp only [NodeInfo.node, value]
        rw [ok_bind printedBelow, ← linesInner]
        simp [outlineLine, value]
        rfl
    refine ⟨(outlineLine (depth, info) ::
      (children.shape.outline (depth + 1)).map outlineLine) :: parts, ?_, ?_⟩
    · rw [Forest.addresses_cons, List.mapM_cons, ok_bind first, ok_bind printed]
      rfl
    · rw [List.flatten_cons, lines]
      simp [Forest.map, Forest.outline]

/-- A stored tree is displayed as its outline. -/
theorem displayUpdate_outline {s : Nodes} {root : Ptr} {info : NodeInfo} {g : NodeForest}
    (holds : Holds s (.cons (root, info) g .nil))
    (every : (Forest.cons info g.shape .nil).Every Displayable) :
    displayUpdate (some root) s =
      .ok (((Forest.cons info g.shape .nil).outline 0).map outlineLine, s) := by
  obtain ⟨parts, printed, lines⟩ := printForest_ok holds.stored every holds.depth_le 0
  have single : ∃ part, printNode s.heap s.heap.next root 0 = .ok part ∧ parts = [part] := by
    cases first : printNode s.heap s.heap.next root 0 with
    | error fault =>
      rw [Forest.addresses_cons, List.mapM_cons, Nat.mul_zero, first] at printed
      cases printed
    | ok part =>
      rw [Forest.addresses_cons, List.mapM_cons, Nat.mul_zero, ok_bind first] at printed
      cases printed
      exact ⟨part, rfl, rfl⟩
  obtain ⟨part, first, rfl⟩ := single
  rw [displayUpdate, bind_ok (get_ok s)]
  simp only [List.flatten_singleton] at lines
  exact lift_ok (first.trans (congrArg _ lines)) s

/-- Of a cycle without a name clash the whole tree is displayed: no node with a value has
    children, siblings have different names, and the lines are the nodes of the tree in
    depth-first order, indented by twice their depth, each value with its name. -/
theorem cycle_display {H : Type} (os : OsysmonState H) (probes : Probes H) (s : Nodes)
    (distinct : os.rootNames.Nodup) :
    ∃ root ctrlClients t f lines,
      pollNodes os probes s = .ok ((some root, ctrlClients), t) ∧
      (∃ g, Holds t (.cons (root, rootInfo) g .nil) ∧ g.shape = f) ∧
      (Forest.cons rootInfo f .nil).Every Displayable ∧
      displayUpdate (some root) t = .ok (lines, t) ∧
      lines = ((Forest.cons rootInfo f .nil).outline 0).map outlineLine ∧
      ∀ info ∈ (Forest.cons rootInfo f .nil).labels, ∀ text, info.value = some text →
        ∃ indent, List.replicate indent 32 ++ info.name ++ (ascii ": " ++ text) ∈ lines := by
  obtain ⟨g, ctrlClients, t, run, grows, shape⟩ := pollNodes_grows os probes s distinct
  have below : g.shape.Every Displayable := by
    rw [shape]
    apply Forest.every_concat
    intro f mem
    obtain ⟨sec, isSection, rfl⟩ := List.mem_map.mp mem
    exact (sections_uniform os probes sec isSection).every
  have namesDistinct : (names g.shape).Nodup := by
    rw [shape, names, names_concat, titles_sections]
    exact distinct
  have every : (Forest.cons rootInfo g.shape .nil).Every Displayable :=
    ⟨⟨fun value => absurd rfl value, namesDistinct⟩, below, trivial⟩
  refine ⟨s.heap.next + 1, ctrlClients, t, g.shape, _, run, ⟨g, grows.holds, rfl⟩, every,
    displayUpdate_outline grows.holds every, rfl, ?_⟩
  intro info mem text value
  rw [← Forest.map_snd_outline _ 0, List.mem_map] at mem
  obtain ⟨⟨depth, node⟩, inOutline, rfl⟩ := mem
  refine ⟨2 * depth, List.mem_map.mpr ⟨_, inOutline, ?_⟩⟩
  rw [outlineLine, show node.value = some text from value]
  rfl

theorem cycle_display_oneFile :
    ∃ root ctrlClients t f lines,
      pollNodes oneFile quietProbes Nodes.empty = .ok ((some root, ctrlClients), t) ∧
      (∃ g, Holds t (.cons (root, rootInfo) g .nil) ∧ g.shape = f) ∧
      (Forest.cons rootInfo f .nil).Every Displayable ∧
      displayUpdate (some root) t = .ok (lines, t) ∧
      lines = ((Forest.cons rootInfo f .nil).outline 0).map outlineLine ∧
      ∀ info ∈ (Forest.cons rootInfo f .nil).labels, ∀ text, info.value = some text →
        ∃ indent, List.replicate indent 32 ++ info.name ++ (ascii ": " ++ text) ∈ lines :=
  cycle_display oneFile quietProbes Nodes.empty (by decide)

end OsmoSysmon
