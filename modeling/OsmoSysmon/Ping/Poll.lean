import OsmoSysmon.Cycle.Netdev
import OsmoSysmon.Ping.Hosts

/-! # What is reported about the hosts

The loop of `osysmon_ping_poll` returns where the name or the address of a host cannot be
had, ahead of the other hosts and of the one `ping_send`.
-/

namespace OsmoSysmon

open CText Talloc Effect

/-- A host of the list, with what `ping_iterator_get_info` says about it. -/
structure PingHost where
  name : CStr
  info : PingInfo
  /-- The name as it was configured, if it can be had at all. -/
  username : ∀ text, info.username = some text → text = name

def PingHost.Available (host : PingHost) : Prop :=
  host.info.username.isSome = true ∧ host.info.address.isSome = true

def treeNamed (name : CStr) (f : Forest NodeInfo) : Option (NodeInfo × Forest NodeInfo) :=
  f.trees.find? fun tree => tree.1.isNamed name

/-- What is shown about a host below a node. -/
def hostReport (f : Forest NodeInfo) (host : CStr) : Option (NodeInfo × Forest NodeInfo) :=
  (treeNamed (ascii "ping") f).bind fun ping => treeNamed host ping.2

/-- The next pings are sent, and every available host is reported as it is when the other
    hosts are not there. -/
def PingsReported (hosts : List PingHost) (parent : Ptr) (s : Nodes) : Prop :=
  ∃ result t f, osysmonPingPoll (hosts.map PingHost.info) (some parent) s = .ok (result, t) ∧
    Shows t parent f ∧ (hosts ≠ [] → result = .sent) ∧
    ∀ host ∈ hosts, host.Available → ∃ result' t' f',
      osysmonPingPoll [host.info] (some parent) s = .ok (result', t') ∧ Shows t' parent f' ∧
        hostReport f host.name = hostReport f' host.name

/-! ## Sending -/

def PingInfo.known (info : PingInfo) : Bool := info.username.isSome && info.address.isSome

theorem PingHost.known_iff (host : PingHost) : host.info.known = true ↔ host.Available :=
  Bool.and_eq_true_iff

/-- The end of the loop is reached if no host is in the way. -/
theorem pollPingHosts_sent {vnPing : Ptr} {infos : List PingInfo} {s t : Nodes}
    {result : PingResult} (run : pollPingHosts vnPing infos s = .ok (result, t)) :
    result = .sent ↔ infos.all PingInfo.known = true := by
  induction infos generalizing s with
  | nil =>
    cases run
    exact ⟨fun _ => rfl, fun _ => rfl⟩
  | cons info infos ih =>
    rw [pollPingHosts] at run
    rw [List.all_cons, PingInfo.known]
    cases username : info.username with
    | none =>
      rw [username] at run
      cases run
      simp
    | some name =>
      rw [username] at run
      obtain ⟨found, u, search, run⟩ := Loop.bind_inv run
      obtain ⟨vnHost, rfl⟩ := valueNodeFindOrAdd_some search
      cases address : info.address with
      | none =>
        rw [address] at run
        cases run
        simp
      | some ip =>
        rw [address] at run
        obtain ⟨_, v, -, run⟩ := Loop.bind_inv run
        rw [ih run]
        simp

/-! ## The trees of the hosts -/

def PingInfo.values (info : PingInfo) : List (CStr × CStr) :=
  [(ascii "IP", info.address.getD [])] ++ addDrop info ++ addLatency info ++ addTtl info

def PingHost.tree (host : PingHost) : NodeInfo × Forest NodeInfo :=
  (⟨host.name, 0, none⟩, addChildren host.info.values .nil)

theorem pingItems_available {hosts : List PingHost}
    (available : ∀ host ∈ hosts, host.Available) :
    pingItems (hosts.map PingHost.info) =
      hosts.map fun host => .group host.name none host.info.values := by
  induction hosts with
  | nil => rfl
  | cons host hosts ih =>
    obtain ⟨named, addressed⟩ := available host List.mem_cons_self
    obtain ⟨name, isName⟩ := Option.isSome_iff_exists.mp named
    obtain ⟨ip, isAddress⟩ := Option.isSome_iff_exists.mp addressed
    rw [List.map_cons, List.map_cons, pingItems, isName, isAddress,
      ih fun other mem => available other (List.mem_cons_of_mem _ mem),
      host.username name isName, PingInfo.values, isAddress]
    rfl

/-- Hosts with different names get a node each. -/
theorem trees_pingItems {hosts : List PingHost} (available : ∀ host ∈ hosts, host.Available)
    (distinct : (hosts.map PingHost.name).Nodup) :
    (reportItems (pingItems (hosts.map PingHost.info)) .nil).trees = hosts.map PingHost.tree := by
  rw [pingItems_available available, trees_groups distinct fun _ _ => List.not_mem_nil]
  rfl

theorem find?_tree {hosts : List PingHost} (distinct : (hosts.map PingHost.name).Nodup)
    {host : PingHost} (mem : host ∈ hosts) :
    (hosts.map PingHost.tree).find? (fun tree => tree.1.isNamed host.name) = some host.tree := by
  induction hosts with
  | nil => cases mem
  | cons first hosts ih =>
    rw [List.map_cons, List.nodup_cons] at distinct
    rw [List.map_cons, List.find?_cons]
    cases mem with
    | head => simp [PingHost.tree, NodeInfo.isNamed]
    | tail _ later =>
      have differs : first.name ≠ host.name := by
        intro same
        exact distinct.1 (same ▸ List.mem_map_of_mem later)
      have skipped : first.tree.1.isNamed host.name = false := by
        simpa [PingHost.tree, NodeInfo.isNamed] using differs
      rw [skipped]
      exact ih distinct.2 later

section

variable {s : Nodes} {q : Ptr} {info : NodeInfo} {f : NodeForest} {hosts : List PingHost}

/-- The section is added behind what is there. -/
theorem osysmonPingPoll_adds (holds : Holds s (.cons (q, info) f .nil))
    (untaken : ascii "ping" ∉ names f.shape) (configured : hosts ≠ []) :
    ∃ result t, osysmonPingPoll (hosts.map PingHost.info) (some q) s = .ok (result, t) ∧
      (result = .sent ↔ ∀ host ∈ hosts, host.Available) ∧
      Shows t q (f.shape ++ .cons ⟨ascii "ping", 0, none⟩
        (reportItems (pingItems (hosts.map PingHost.info)) .nil) .nil) := by
  have notEmpty : (hosts.map PingHost.info).isEmpty = false := by
    cases hosts with
    | nil => exact absurd rfl configured
    | cons => rfl
  obtain ⟨n, t, result, u, run, loop, shows⟩ :=
    shows_section holds untaken fun n => pollPingHosts_effect n (hosts.map PingHost.info)
  refine ⟨result, u, ?_, ?_, shows⟩
  · rw [osysmonPingPoll, notEmpty]
    simp only [Bool.false_eq_true, if_false]
    rw [Loop.bind_ok run]
    exact loop
  · rw [pollPingHosts_sent loop, List.all_map, List.all_eq_true]
    exact forall₂_congr fun host _ => host.known_iff

theorem treeNamed_ping (untaken : ascii "ping" ∉ names f.shape) (g : Forest NodeInfo) :
    treeNamed (ascii "ping") (f.shape ++ .cons ⟨ascii "ping", 0, none⟩ g .nil) =
      some (⟨ascii "ping", 0, none⟩, g) := by
  have before : f.shape.trees.find? (fun tree => tree.1.isNamed (ascii "ping")) = none := by
    rw [List.find?_eq_none]
    intro tree mem named
    apply untaken
    rw [← any_isNamed, List.any_eq_true, ← Forest.map_fst_trees]
    exact ⟨tree.1, List.mem_map_of_mem mem, named⟩
  rw [treeNamed, Forest.trees_append, List.find?_append, before]
  rfl

/-- Where all hosts are available each has the node it has alone. -/
theorem hostReport_available (untaken : ascii "ping" ∉ names f.shape)
    (available : ∀ host ∈ hosts, host.Available) (distinct : (hosts.map PingHost.name).Nodup)
    {host : PingHost} (mem : host ∈ hosts) :
    hostReport (f.shape ++ .cons ⟨ascii "ping", 0, none⟩
      (reportItems (pingItems (hosts.map PingHost.info)) .nil) .nil) host.name =
        some host.tree := by
  rw [hostReport, treeNamed_ping untaken, Option.bind_some, treeNamed,
    trees_pingItems available distinct, find?_tree distinct mem]

/-- A child of that name stops the poll before the first host. -/
theorem osysmonPingPoll_refused (holds : Holds s (.cons (q, info) f .nil))
    (taken : ascii "ping" ∈ names f.shape) (configured : hosts ≠ []) :
    ∃ t, osysmonPingPoll (hosts.map PingHost.info) (some q) s = .ok (.noMemory, t) := by
  have notEmpty : (hosts.map PingHost.info).isEmpty = false := by
    cases hosts with
    | nil => exact absurd rfl configured
    | cons => rfl
  obtain ⟨t, run, -⟩ := valueNodeAdd_refused holds ((any_isNamed _ _).mpr taken) none
  refine ⟨t, ?_⟩
  rw [osysmonPingPoll, notEmpty]
  simp only [Bool.false_eq_true, if_false]
  rw [Loop.bind_ok run]
  rfl

/-- **A poll reports the hosts independently of each other and sends the next pings exactly
    when nothing else is named `ping` and no host lacks its name or its address.** -/
theorem osysmonPingPoll_iff (holds : Holds s (.cons (q, info) f .nil))
    (distinct : (hosts.map PingHost.name).Nodup) :
    PingsReported hosts q s ↔
      hosts = [] ∨ ascii "ping" ∉ names f.shape ∧ ∀ host ∈ hosts, host.Available := by
  by_cases configured : hosts = []
  · subst configured
    refine ⟨fun _ => .inl rfl, fun _ => ?_⟩
    exact ⟨.noHosts, s, f.shape, rfl, ⟨info, f, holds, rfl⟩, fun none => absurd rfl none,
      fun host mem => absurd mem List.not_mem_nil⟩
  · constructor
    · rintro ⟨result, t, -, run, -, sent, -⟩
      right
      by_cases taken : ascii "ping" ∈ names f.shape
      · obtain ⟨t', refused⟩ := osysmonPingPoll_refused holds taken configured
        rw [run, sent configured] at refused
        cases refused
      · obtain ⟨result', t', run', isSent, -⟩ := osysmonPingPoll_adds holds taken configured
        rw [run] at run'
        cases run'
        exact ⟨taken, isSent.mp (sent configured)⟩
    · rintro (none | ⟨untaken, available⟩)
      · exact absurd none configured
      obtain ⟨result, t, run, isSent, shows⟩ := osysmonPingPoll_adds holds untaken configured
      refine ⟨result, t, _, run, shows, fun _ => isSent.mpr available, ?_⟩
      intro host mem isAvailable
      have alone : ∀ other ∈ [host], other.Available := by simpa using isAvailable
      obtain ⟨result', t', run', -, shows'⟩ :=
        osysmonPingPoll_adds holds untaken (List.cons_ne_nil host [])
      refine ⟨result', t', _, run', shows', ?_⟩
      rw [hostReport_available untaken available distinct mem,
        hostReport_available untaken alone (List.nodup_singleton _) List.mem_cons_self]

end

/-- A host with an address, and nothing else known about it. -/
def plainHost (name : CStr) : PingHost where
  name := name
  info := ⟨some name, some (ascii "10.0.0.1"), none, none, none, none⟩
  username _ same := (Option.some.inj same).symm

/-- A host whose name does not fit the buffer. -/
def longHost : PingHost where
  name := List.replicate 128 97
  info := ⟨none, some (ascii "10.0.0.2"), none, none, none, none⟩
  username _ none := by cases none

theorem osysmonPingPoll_iff_two :
    PingsReported [plainHost (ascii "ggsn"), plainHost (ascii "sgsn")] 1 sectionNode := by
  apply (osysmonPingPoll_iff holds_sectionNode (by decide)).mpr
  right
  refine ⟨List.not_mem_nil, ?_⟩
  simp [PingHost.Available, plainHost]

/-- Behind a host that fails nothing is reported, and nothing is sent. -/
theorem osysmonPingPoll_suppressed :
    (∃ t f, osysmonPingPoll ([longHost, plainHost (ascii "ggsn")].map PingHost.info) (some 1)
        sectionNode = .ok (.invalid, t) ∧ Shows t 1 f ∧ hostReport f (ascii "ggsn") = none) ∧
    ¬ PingsReported [longHost, plainHost (ascii "ggsn")] 1 sectionNode := by
  have configured : [longHost, plainHost (ascii "ggsn")] ≠ [] := List.cons_ne_nil _ _
  obtain ⟨result, t, run, -, shows⟩ :=
    osysmonPingPoll_adds holds_sectionNode List.not_mem_nil configured
  have invalid : ∃ t, osysmonPingPoll ([longHost, plainHost (ascii "ggsn")].map PingHost.info)
      (some 1) sectionNode = .ok (.invalid, t) := ⟨_, rfl⟩
  obtain ⟨t', fails⟩ := invalid
  rw [fails] at run
  cases run
  refine ⟨⟨t, _, fails, shows, rfl⟩, ?_⟩
  rintro ⟨result', t', -, run', -, sent, -⟩
  rw [fails] at run'
  cases run'
  exact absurd (sent configured) (by decide)

end OsmoSysmon
