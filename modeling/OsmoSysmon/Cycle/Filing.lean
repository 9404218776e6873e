import OsmoSysmon.Outline
import OsmoSysmon.Siblings

/-! # Where the values of a cycle are filed

A CTRL client and a section that have the same name get one node between them.  In a
cycle without such a clash every section and every client gets its own node below
the root and, below that, the tree it would get if it were polled alone.
-/

namespace OsmoSysmon

open CText Talloc Loop Effect

variable {H : Type}

def titleIf (there : Bool) (title : CStr) : List CStr := if there then [title] else []

namespace OsysmonState

/-- The heads of the sections polled before the CTRL clients that are not empty. -/
def earlyHeads (os : OsysmonState H) : List CStr :=
  titleIf (!os.openvpnClients.isEmpty) (ascii "OpenVPN") ++
    titleIf os.sysinfoEnabled (ascii "sysinfo")

/-- The heads of the sections polled after the CTRL clients that are not empty. -/
def lateHeads (os : OsysmonState H) : List CStr :=
  titleIf (!os.netdevs.isEmpty) (ascii "netdev") ++ titleIf (!os.pings.isEmpty) (ascii "ping") ++
    titleIf (!os.files.isEmpty) (ascii "file") ++
    titleIf (!os.shellcmds.isEmpty) (ascii "shellcmd")

def sectionHeads (os : OsysmonState H) : List CStr := os.earlyHeads ++ os.lateHeads

def clientNames (os : OsysmonState H) : List CStr := os.ctrlClients.map fun cc => cc.cfg.name

/-- The names directly below the root, in the order of polling. -/
def rootNames (os : OsysmonState H) : List CStr := os.earlyHeads ++ os.clientNames ++ os.lateHeads

def bare : OsysmonState H where
  openvpnClients := []
  sysinfoEnabled := false
  ctrlClients := []
  netdevs := []
  pingInit := 0
  pings := []
  files := []
  shellcmds := []
  ctrlNames := List.nodup_nil
  openvpnHosts := by simp
  pingHosts := by simp

/-- A configuration with nothing but this client. -/
def onlyClient (cc : CtrlClient H) : OsysmonState H :=
  { (bare : OsysmonState H) with ctrlClients := [cc], ctrlNames := List.nodup_singleton _ }

/-- The configuration taken apart into its sections and clients. -/
def parts (os : OsysmonState H) : List (OsysmonState H) :=
  [{ bare with openvpnClients := os.openvpnClients, openvpnHosts := os.openvpnHosts },
    { bare with sysinfoEnabled := os.sysinfoEnabled }] ++
  os.ctrlClients.map onlyClient ++
  [{ bare with netdevs := os.netdevs },
    { bare with pingInit := os.pingInit, pings := os.pings, pingHosts := os.pingHosts },
    { bare with files := os.files },
    { bare with shellcmds := os.shellcmds }]

end OsysmonState

/-- The tree below the root, as it is stored. -/
def Shows (s : Nodes) (root : Ptr) (f : Forest NodeInfo) : Prop :=
  ∃ info g, Holds s (.cons (root, info) g .nil) ∧ g.shape = f

/-- The polls of a cycle end with this tree below the root, and apart from the creation of
    the root no function has been called with a parent that is `NULL`. -/
def Builds (os : OsysmonState H) (probes : Probes H) (s : Nodes) (f : Forest NodeInfo) : Prop :=
  ∃ root ctrlClients t, pollNodes os probes s = .ok ((some root, ctrlClients), t) ∧
    Shows t root f ∧ ∃ calls, t.parents = calls ++ none :: s.parents ∧ none ∉ calls

/-- Each section and each client has its own node below the root, with the tree that it
    has when it is polled alone. -/
def WellFiled (os : OsysmonState H) (probes : Probes H) (s : Nodes) : Prop :=
  ∃ f fs, Builds os probes s f ∧ f.roots.map NodeInfo.name = os.rootNames ∧
    List.Forall₂ (fun part g => Builds part probes s g) os.parts fs ∧ f = .concat fs

/-- A program that adds a node and does below it what the items do. -/
theorem shows_section {α : Type} {s : Nodes} {q : Ptr} {info : NodeInfo} {f : NodeForest}
    (holds : Holds s (.cons (q, info) f .nil)) {title : CStr} (new : title ∉ names f.shape)
    {items : List Item} {k : Ptr → NodeM α}
    (same : ∀ n, SameEffect (k n) (runItems (some n) items)) :
    ∃ n t r u, valueNodeAdd (some q) title none s = .ok (some n, t) ∧ k n t = .ok (r, u) ∧
      Shows u q (f.shape ++ .cons ⟨title, 0, none⟩ (reportItems items .nil) .nil) := by
  have untaken : f.shape.roots.any (NodeInfo.isNamed title) = false := by
    rw [← Bool.not_eq_true, any_isNamed]
    exact new
  obtain ⟨n, t, run, grows⟩ := valueNodeAdd_accepted holds untaken none
  have node : Holds t (.cons (q, info) (f ++ .cons (n, ⟨title, 0, none⟩) .nil .nil) .nil) :=
    grows.holds
  obtain ⟨g, u, runItems, growsItems, shape⟩ := runItems_grows node.child items
  -- the program ends in the state in which its items end
  have ends := same n t
  rw [effect_of_ok runItems] at ends
  obtain ⟨r, run'⟩ := ok_of_effect ends
  refine ⟨n, t, r, u, run, run', info, _, (growsItems.child node).holds, ?_⟩
  rw [Forest.shape, Forest.map_append]
  show f.shape ++ .cons _ g.shape .nil = _
  rw [shape]
  rfl

/-! ## Names -/

theorem titles_sectionIf (there : Bool) (sec : Section) :
    (sectionIf there sec).map Section.title = titleIf there sec.title := by
  cases there <;> rfl

theorem titles_sections (os : OsysmonState H) (probes : Probes H) :
    (os.sections probes).map Section.title = os.rootNames := by
  simp only [OsysmonState.sections, List.map_append, openvpnSections, sysinfoSections,
    netdevSections, pingSections, fileSections, shellcmdSections, titles_sectionIf, List.map_map,
    List.isEmpty_map]
  simp only [OsysmonState.rootNames, OsysmonState.earlyHeads, OsysmonState.lateHeads,
    OsysmonState.clientNames, List.append_assoc]
  rfl

theorem titleIf_sublist (there : Bool) (title : CStr) : (titleIf there title).Sublist [title] := by
  cases there with
  | true => exact List.Sublist.refl _
  | false => exact List.nil_sublist _

/-- The heads of the sections differ from each other. -/
theorem sectionHeads_nodup (os : OsysmonState H) : os.sectionHeads.Nodup := by
  have all : ([ascii "OpenVPN"] ++ [ascii "sysinfo"] ++
      ([ascii "netdev"] ++ [ascii "ping"] ++ [ascii "file"] ++ [ascii "shellcmd"])).Nodup := by
    decide
  apply List.Nodup.sublist _ all
  apply ((titleIf_sublist _ _).append (titleIf_sublist _ _)).append
  exact (((titleIf_sublist _ _).append (titleIf_sublist _ _)).append (titleIf_sublist _ _)).append
    (titleIf_sublist _ _)

theorem rootNames_nodup_iff (os : OsysmonState H) :
    os.rootNames.Nodup ↔ ∀ cc ∈ os.ctrlClients, cc.cfg.name ∉ os.sectionHeads := by
  -- the order of polling does not matter for what occurs twice
  have shuffled : os.rootNames.Perm (os.clientNames ++ os.sectionHeads) := by
    rw [OsysmonState.rootNames, OsysmonState.sectionHeads, List.append_assoc]
    exact List.perm_append_comm_assoc _ _ _
  rw [shuffled.nodup_iff, List.nodup_append]
  constructor
  · rintro ⟨-, -, apart⟩ cc mem isHead
    exact apart cc.cfg.name (List.mem_map_of_mem mem) _ isHead rfl
  · intro apart
    refine ⟨os.ctrlNames, sectionHeads_nodup os, ?_⟩
    intro name isClient head isHead same
    obtain ⟨cc, mem, rfl⟩ := List.mem_map.mp isClient
    exact apart cc mem (same ▸ isHead)

/-! ## A cycle without a clash -/

/-- The polls return the root that they have created first. -/
theorem pollNodes_root {os : OsysmonState H} {probes : Probes H} {s t : Nodes} {root : Option Ptr}
    {ctrlClients : List (CtrlClient H)}
    (run : pollNodes os probes s = .ok ((root, ctrlClients), t)) :
    root = some (s.heap.next + 1) := by
  rw [pollNodes, bind_ok (valueNodeAdd_root _ _ s)] at run
  obtain ⟨_, _, -, run⟩ := bind_inv run
  obtain ⟨_, _, -, run⟩ := bind_inv run
  obtain ⟨_, _, -, run⟩ := bind_inv run
  obtain ⟨_, _, -, run⟩ := bind_inv run
  -- the ping hosts are polled only if their list has been set up
  by_cases ready : os.pingInit = 0
  · simp only [ready, if_true] at run
    obtain ⟨_, _, -, run⟩ := bind_inv run
    obtain ⟨_, _, -, run⟩ := bind_inv run
    obtain ⟨_, _, -, run⟩ := bind_inv run
    cases run
    rfl
  · simp only [ready, if_false] at run
    obtain ⟨_, _, -, run⟩ := bind_inv run
    obtain ⟨_, _, -, run⟩ := bind_inv run
    cases run
    rfl

def rootInfo : NodeInfo := ⟨ascii "root", 0, none⟩

theorem holds_root (s : Nodes) (parents : List (Option Ptr)) :
    Holds ⟨rootHeap s.heap (ascii "root") none, parents⟩
      (.cons (s.heap.next + 1, rootInfo) .nil .nil) := holds_rootHeap s _ _ parents

/-- Without a clash the polls add the trees of the sections to the root. -/
theorem pollNodes_grows (os : OsysmonState H) (probes : Probes H) (s : Nodes)
    (distinct : os.rootNames.Nodup) :
    ∃ g ctrlClients t,
      pollNodes os probes s = .ok ((some (s.heap.next + 1), ctrlClients), t) ∧
      Grows ⟨rootHeap s.heap (ascii "root") none, none :: s.parents⟩ t
        (.cons (s.heap.next + 1, rootInfo) .nil .nil)
        (.cons (s.heap.next + 1, rootInfo) g .nil) ∧
      g.shape = .concat ((os.sections probes).map Section.tree) := by
  rw [← titles_sections os probes] at distinct
  obtain ⟨g, t, run, grows, shape⟩ :=
    runSections_grows (holds_root s (none :: s.parents)) distinct (by simp [Forest.map, Forest.roots])
  have ends : effect (pollNodes os probes) s = .ok t := by
    rw [pollNodes_effect os probes s, effect, bind_ok (valueNodeAdd_root _ _ s), run]
  obtain ⟨⟨root, ctrlClients⟩, run'⟩ := ok_of_effect ends
  have isRoot := pollNodes_root run'
  subst isRoot
  refine ⟨g, ctrlClients, t, run', grows, ?_⟩
  rw [shape]
  rfl

theorem builds_of_distinct (os : OsysmonState H) (probes : Probes H) (s : Nodes)
    (distinct : os.rootNames.Nodup) :
    Builds os probes s (.concat ((os.sections probes).map Section.tree)) := by
  obtain ⟨g, ctrlClients, t, run, grows, shape⟩ := pollNodes_grows os probes s distinct
  obtain ⟨calls, isCalls, noNull⟩ := grows.parents
  exact ⟨_, ctrlClients, t, run, ⟨rootInfo, g, grows.holds, shape⟩, calls, isCalls, noNull⟩

/-! ## Parts -/

theorem sections_parts (os : OsysmonState H) (probes : Probes H) :
    os.parts.flatMap (OsysmonState.sections · probes) = os.sections probes := by
  have clients : (os.ctrlClients.map OsysmonState.onlyClient).flatMap
      (OsysmonState.sections · probes) = os.ctrlClients.map (ctrlSection probes.ctrl) := by
    rw [List.flatMap_map]
    exact List.flatMap_pure_eq_map _ _
  rw [OsysmonState.parts, List.flatMap_append, List.flatMap_append, clients]
  simp [OsysmonState.sections, OsysmonState.bare, openvpnSections, sysinfoSections,
    netdevSections, pingSections, fileSections, shellcmdSections, sectionIf]

/-- A part has either no client or no section. -/
theorem rootNames_part {os part : OsysmonState H} (mem : part ∈ os.parts) :
    part.rootNames.Nodup := by
  rw [rootNames_nodup_iff]
  intro cc isClient
  simp only [OsysmonState.parts, List.mem_append, List.mem_cons, List.mem_map, List.not_mem_nil,
    or_false] at mem
  -- only the part made of a client has a client, and it has no section
  rcases mem with ((rfl | rfl) | ⟨cc', -, rfl⟩) | rfl | rfl | rfl | rfl
  case inl.inr => exact List.not_mem_nil
  all_goals cases isClient

theorem parts_build (os : OsysmonState H) (probes : Probes H) (s : Nodes) :
    List.Forall₂ (fun part g => Builds part probes s g) os.parts
      (os.parts.map fun part => .concat ((part.sections probes).map Section.tree)) := by
  rw [List.forall₂_map_right_iff, List.forall₂_same]
  intro part mem
  exact builds_of_distinct part probes s (rootNames_part mem)

/-! ## A cycle with a clash -/

theorem map_nameAt_addresses {heap : Heap ValueNode} {g : NodeForest}
    (stored : g.Stored (view heap)) :
    g.addresses.map (nameAt heap) = (g.shape.roots.map NodeInfo.name).map some := by
  induction g with
  | nil => rfl
  | cons label children rest _ ih =>
    obtain ⟨p, info⟩ := label
    obtain ⟨here, -, later⟩ := stored
    have named : nameAt heap p = some info.name := by
      rw [nameAt, view_eq_some.mp here]
      rfl
    rw [Forest.addresses_cons, List.map_cons, named, ih later]
    rfl

/-- Whatever has been built, no name occurs twice below the root. -/
theorem Builds.names_nodup {os : OsysmonState H} {probes : Probes H} {s : Nodes}
    {f : Forest NodeInfo} (builds : Builds os probes s f) : (f.roots.map NodeInfo.name).Nodup := by
  obtain ⟨root, ctrlClients, t, run, ⟨info, g, holds, rfl⟩, -⟩ := builds
  have isRoot := pollNodes_root run
  cases isRoot
  -- before the cycle the root is not there
  have notYet : Siblings (s.heap.next + 1) s := by
    intro vn live
    exact absurd (Heap.lt_next_of_get? live) (by omega)
  have siblings := pollNodes_siblings os probes _ run notYet
  have distinct := (siblings _ holds.cell).2
  rw [NodeInfo.node, map_nameAt_addresses holds.children.stored] at distinct
  exact List.Nodup.of_map some distinct

theorem names_concat (secs : List Section) :
    (Forest.concat (secs.map Section.tree)).roots.map NodeInfo.name = secs.map Section.title := by
  induction secs with
  | nil => rfl
  | cons sec secs ih =>
    rw [List.map_cons, Forest.concat, Forest.roots_append, List.map_append, ih]
    rfl

/-- A cycle files everything where it belongs exactly when no CTRL client has the name of
    the head of a section that is not empty. -/
theorem cycle_wellFiled_iff (os : OsysmonState H) (probes : Probes H) (s : Nodes) :
    WellFiled os probes s ↔ ∀ cc ∈ os.ctrlClients, cc.cfg.name ∉ os.sectionHeads := by
  rw [← rootNames_nodup_iff]
  constructor
  · rintro ⟨f, fs, builds, names, -, -⟩
    rw [← names]
    exact builds.names_nodup
  · intro distinct
    refine ⟨_, _, builds_of_distinct os probes s distinct, ?_, parts_build os probes s, ?_⟩
    · rw [names_concat, titles_sections]
    · rw [← sections_parts os probes, Forest.concat_flatMap]

/-- A client and the section of a watched file, both called `file`. -/
def clientNamedFile : OsysmonState Unit :=
  { (OsysmonState.bare : OsysmonState Unit) with
    ctrlClients := [⟨hostCfgAlloc (ascii "file") (some (ascii "10.0.0.1")) 4249, none, []⟩]
    ctrlNames := List.nodup_singleton _
    files := [⟨ascii "motd", ascii "/etc/motd"⟩] }

/-- No connection to the client, and a file with one line. -/
def quietProbes : Probes Unit where
  ctrl := ⟨fun _ => none, fun sch _ => (none, sch)⟩
  sysinfo := none
  netlink := none
  ping _ := ⟨none, none, none, none, none, none⟩
  file _ := some (ascii "hello\n")
  shell _ := .output []

/-- The text of the file is filed below no node at all. -/
theorem cycle_misfiled :
    (∃ t, pollNodes clientNamedFile quietProbes Nodes.empty =
        .ok ((some 1, clientNamedFile.ctrlClients), t) ∧
      t.heap.get? 6 = some ⟨some (ascii "motd"), 0, some (ascii "hello"), []⟩ ∧
      t.heap.owners 6 = []) ∧
    ¬ WellFiled clientNamedFile quietProbes Nodes.empty := by
  constructor
  · exact ⟨_, rfl, rfl, rfl⟩
  · rintro ⟨f, fs, builds, names, -, -⟩
    have distinct := builds.names_nodup
    rw [names] at distinct
    revert distinct
    decide

end OsmoSysmon
