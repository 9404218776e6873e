import Mathlib.Data.List.Forall2
import OsmoSysmon.Cycle.Filing

/-! # Interfaces and their addresses

The address dump finds its interface by the index that the link dump has left in the
tree.  It adds every address under one name, and the tree takes a name once, so of the
addresses of an interface the first one stays.
-/

namespace OsmoSysmon

open CText Loop Effect

/-- What an address message says of its interface, if it is looked at. -/
def AddrMsg.inet (msg : AddrMsg) : Option (InAddr × UInt8) :=
  if msg.family = afInet then msg.address.map (·, msg.prefixlen) else none

/-- `"%s/%u"`. -/
def pairText (pair : InAddr × UInt8) : CStr :=
  decimal pair.1.a.toNat ++ ascii "." ++ decimal pair.1.b.toNat ++ ascii "." ++
    decimal pair.1.c.toNat ++ ascii "." ++ decimal pair.1.d.toNat ++ ascii "/" ++
    decimal pair.2.toNat

/-- The configured interfaces of a link dump, in its order. -/
def configuredLinks (netdevs : List CStr) (links : List LinkMsg) : List (CStr × LinkMsg) :=
  links.flatMap fun msg => (msg.ifname.filter (netdevs.contains ·)).toList.map (·, msg)

/-- The messages of an address dump for an interface. -/
def addrsOf (index : Int32) (addrs : List AddrMsg) : List AddrMsg :=
  addrs.filter fun msg => msg.index.toInt32 == index

/-- The values called `ip` below a node. -/
def ips (children : Forest NodeInfo) : List CStr :=
  (children.roots.filter (NodeInfo.isNamed (ascii "ip"))).filterMap NodeInfo.value

/-- The node of an interface shows its addresses: all of them, each once, and no other. -/
def Joined (addrs : List AddrMsg) (link : CStr × LinkMsg) (node : NodeInfo × Forest NodeInfo) :
    Prop :=
  node.1.name = link.1 ∧ (ips node.2).Nodup ∧
    ∀ text, text ∈ ips node.2 ↔
      ∃ msg ∈ addrsOf link.2.index addrs, msg.inet.map pairText = some text

/-! ## Texts of addresses -/

/-- A number ends where the digits end. -/
theorem decimal_append_inj {n m : Nat} {c d : UInt8} {s t : CStr} (stop : isdigit c = false)
    (stop' : isdigit d = false) (same : decimal n ++ c :: s = decimal m ++ d :: t) :
    n = m ∧ s = t := by
  have front : ∀ (k : Nat) (e : UInt8) (r : CStr), isdigit e = false →
      (decimal k ++ e :: r).takeWhile isdigit = decimal k := by
    intro k e r stops
    rw [List.takeWhile_append_of_pos fun _ mem => isdigit_of_mem_decimal mem]
    simp [stops]
  have digits : decimal n = decimal m := by
    rw [← front n c s stop, same, front m d t stop']
  have numbers : n = m := by rw [← digitsValue_decimal n, digits, digitsValue_decimal]
  subst numbers
  have rests := List.append_cancel_left same
  exact ⟨rfl, (List.cons.inj rests).2⟩

theorem pairText_inj {p q : InAddr × UInt8} (same : pairText p = pairText q) : p = q := by
  obtain ⟨⟨a, b, c, d⟩, len⟩ := p
  obtain ⟨⟨a', b', c', d'⟩, len'⟩ := q
  have dot : isdigit 46 = false := rfl
  have slash : isdigit 47 = false := rfl
  have ascii_dot : ascii "." = [46] := rfl
  have ascii_slash : ascii "/" = [47] := rfl
  simp only [pairText, ascii_dot, ascii_slash, List.append_assoc, List.cons_append,
    List.nil_append] at same
  -- number by number, from the front
  obtain ⟨a_eq, same⟩ := decimal_append_inj dot dot same
  obtain ⟨b_eq, same⟩ := decimal_append_inj dot dot same
  obtain ⟨c_eq, same⟩ := decimal_append_inj dot dot same
  obtain ⟨d_eq, same⟩ := decimal_append_inj slash slash same
  have len_eq : len.toNat = len'.toNat := by
    rw [← digitsValue_decimal len.toNat, same, digitsValue_decimal]
  simp only [UInt8.toNat_inj] at a_eq b_eq c_eq d_eq len_eq
  rw [a_eq, b_eq, c_eq, d_eq, len_eq]

theorem values_addrMsg (msg : AddrMsg) :
    msg.values = (msg.inet.map pairText).toList.map (ascii "ip", ·) := by
  rw [AddrMsg.values, AddrMsg.inet]
  split
  · cases msg.address <;> rfl
  · rfl

/-! ## The two dumps -/

theorem linkItems (netdevs : List CStr) (links : List LinkMsg) :
    links.flatMap (linkItem netdevs) = (configuredLinks netdevs links).map fun link =>
      Item.group link.1 (some link.2.index) link.2.values := by
  rw [configuredLinks, List.map_flatMap]
  apply List.flatMap_congr
  intro msg _
  rw [linkItem, List.map_map]
  rfl

/-- The node that the link dump makes for an interface. -/
def linkNodeOf (link : CStr × LinkMsg) : NodeInfo × Forest NodeInfo :=
  (⟨link.1, link.2.index, none⟩, addChildren link.2.values .nil)

/-- Interfaces with different names get a node each. -/
theorem trees_reportLinks {cs : List (CStr × LinkMsg)} {f : Forest NodeInfo}
    (distinct : (cs.map Prod.fst).Nodup) (new : ∀ link ∈ cs, link.1 ∉ names f) :
    (reportItems (cs.map fun link => .group link.1 (some link.2.index) link.2.values) f).trees =
      f.trees ++ cs.map linkNodeOf := trees_groups distinct new

/-- What the address dump adds to the node of an interface. -/
def withAddrs (addrs : List AddrMsg) (node : NodeInfo × Forest NodeInfo) :
    NodeInfo × Forest NodeInfo :=
  (node.1, addChildren ((addrsOf node.1.idx addrs).flatMap AddrMsg.values) node.2)

/-- Interfaces with different indices get their own addresses. -/
theorem trees_reportAddrs {f : Forest NodeInfo} (distinct : (f.roots.map NodeInfo.idx).Nodup)
    (addrs : List AddrMsg) :
    (reportItems (addrs.map addrItem) f).trees = f.trees.map (withAddrs addrs) := by
  induction addrs generalizing f with
  | nil =>
    have none : withAddrs [] = id := rfl
    rw [none, List.map_id]
    rfl
  | cons msg addrs ih =>
    have kept : ((addrItem msg).report f).roots.map NodeInfo.idx = f.roots.map NodeInfo.idx :=
      Forest.map_roots_update NodeInfo.idx fun _ _ => rfl
    rw [List.map_cons, reportItems, List.foldl_cons, ← reportItems, ih (kept ▸ distinct)]
    have first : ((addrItem msg).report f).trees = f.trees.map fun t =>
        if msg.index.toInt32 = t.1.idx then (t.1, addChildren msg.values t.2) else t :=
      Forest.trees_update distinct _ _
    rw [first, List.map_map]
    apply List.map_congr_left
    intro t _
    by_cases here : msg.index.toInt32 = t.1.idx
    · simp [withAddrs, addrsOf, here, addChildren]
    · simp [withAddrs, addrsOf, here]

/-! ## The addresses that stay -/

theorem names_addChild (name : CStr) (value : Option CStr) (f : Forest NodeInfo) :
    names (addChild name value f) ⊆ name :: names f := by
  rw [addChild]
  split
  · exact List.subset_cons_self name _
  · rw [names_append]
    intro other mem
    simpa [names, Forest.roots_leaf, or_comm] using mem

theorem names_addChildren (values : List (CStr × CStr)) (f : Forest NodeInfo) :
    names (addChildren values f) ⊆ values.map Prod.fst ++ names f := by
  induction values generalizing f with
  | nil => exact List.Subset.refl _
  | cons v values ih =>
    intro name mem
    rw [List.map_cons, List.cons_append, List.mem_cons, List.mem_append]
    cases List.mem_append.mp (ih (addChild v.1 (some v.2) f) mem) with
    | inl among => exact .inr (.inl among)
    | inr before =>
      have here := names_addChild v.1 (some v.2) f before
      rw [List.mem_cons] at here
      exact here.imp id .inr

/-- No address is there before the address dump. -/
theorem ip_not_mem_linkNodeOf (link : CStr × LinkMsg) : ascii "ip" ∉ names (linkNodeOf link).2 := by
  intro mem
  have among := names_addChildren link.2.values .nil mem
  have differ : ascii "hwaddr" ≠ ascii "ip" ∧ ascii "running" ≠ ascii "ip" ∧
      ascii "up" ≠ ascii "ip" := by decide
  simp only [LinkMsg.values, names, Forest.roots, List.map_nil, List.append_nil, List.map_append,
    List.map_cons, List.mem_append, List.mem_cons, List.not_mem_nil, or_false] at among
  rcases among with hwaddr | running | up
  · cases text : link.2.hwaddr with
    | none => simp [text] at hwaddr
    | some text' => simp [text, differ.1.symm] at hwaddr
  · exact differ.2.1 running.symm
  · exact differ.2.2 up.symm

theorem addChildren_taken {f : Forest NodeInfo} {name : CStr} (taken : name ∈ names f)
    (texts : List CStr) : addChildren (texts.map (name, ·)) f = f := by
  induction texts with
  | nil => rfl
  | cons text texts ih =>
    rw [List.map_cons, addChildren, List.foldl_cons, addChild, if_pos ((any_isNamed name f).mpr taken)]
    exact ih

/-- Of values with one name the first is added. -/
theorem ips_addChildren {f : Forest NodeInfo} (new : ascii "ip" ∉ names f) (texts : List CStr) :
    ips (addChildren (texts.map (ascii "ip", ·)) f) = texts.head?.toList := by
  have before : f.roots.filter (NodeInfo.isNamed (ascii "ip")) = [] := by
    rw [List.filter_eq_nil_iff]
    intro info mem named
    apply new
    rw [← any_isNamed, List.any_eq_true]
    exact ⟨info, mem, named⟩
  cases texts with
  | nil => simp [addChildren, ips, before]
  | cons text texts =>
    have untaken : ¬ f.roots.any (NodeInfo.isNamed (ascii "ip")) = true := by rwa [any_isNamed]
    have added : addChildren ((text :: texts).map (ascii "ip", ·)) f =
        f ++ .leaf ⟨ascii "ip", 0, some text⟩ := by
      rw [List.map_cons, addChildren, List.foldl_cons, ← addChildren]
      simp only [addChild, if_neg untaken]
      apply addChildren_taken
      simp [names]
    rw [added, ips, Forest.roots_append, List.filter_append, before]
    simp [NodeInfo.isNamed]

/-- The addresses in the messages for an interface. -/
def pairsOf (index : Int32) (addrs : List AddrMsg) : List (InAddr × UInt8) :=
  (addrsOf index addrs).filterMap AddrMsg.inet

theorem ips_withAddrs (addrs : List AddrMsg) (link : CStr × LinkMsg) :
    ips (withAddrs addrs (linkNodeOf link)).2 =
      ((pairsOf link.2.index addrs).map pairText).head?.toList := by
  have values : (addrsOf link.2.index addrs).flatMap AddrMsg.values =
      ((pairsOf link.2.index addrs).map pairText).map (ascii "ip", ·) := by
    rw [pairsOf]
    induction addrsOf link.2.index addrs with
    | nil => rfl
    | cons msg msgs ih =>
      rw [List.flatMap_cons, ih, values_addrMsg, List.filterMap_cons]
      cases msg.inet <;> rfl
  rw [withAddrs]
  show ips (addChildren ((addrsOf link.2.index addrs).flatMap AddrMsg.values) _) = _
  rw [values, ips_addChildren (ip_not_mem_linkNodeOf link)]

/-- The first address is all of them if they are all the same. -/
theorem joined_iff (addrs : List AddrMsg) (link : CStr × LinkMsg) :
    Joined addrs link (withAddrs addrs (linkNodeOf link)) ↔
      ∀ p ∈ pairsOf link.2.index addrs, ∀ r ∈ pairsOf link.2.index addrs, p = r := by
  have found (text : CStr) : (∃ msg ∈ addrsOf link.2.index addrs,
      msg.inet.map pairText = some text) ↔
      ∃ pair ∈ pairsOf link.2.index addrs, pairText pair = text := by
    simp only [pairsOf, List.mem_filterMap, Option.map_eq_some_iff]
    constructor
    · rintro ⟨msg, mem, pair, isPair, isText⟩
      exact ⟨pair, ⟨msg, mem, isPair⟩, isText⟩
    · rintro ⟨pair, ⟨msg, mem, isPair⟩, isText⟩
      exact ⟨msg, mem, pair, isPair, isText⟩
  simp only [Joined, ips_withAddrs, found]
  have isName : (withAddrs addrs (linkNodeOf link)).1.name = link.1 := rfl
  cases pairsOf link.2.index addrs with
  | nil => simp [isName]
  | cons first others =>
    simp only [List.map_cons, List.head?_cons, Option.toList_some, List.nodup_singleton, isName,
      List.mem_singleton, true_and]
    constructor
    · intro all p memP r memR
      rw [pairText_inj ((all (pairText p)).mpr ⟨p, memP, rfl⟩),
        pairText_inj ((all (pairText r)).mpr ⟨r, memR, rfl⟩)]
    · intro same text
      constructor
      · intro shown
        exact ⟨first, List.mem_cons_self, shown.symm⟩
      · rintro ⟨pair, mem, isText⟩
        rw [← isText, same pair mem first List.mem_cons_self]

theorem configuredLinks_names (netdevs : List CStr) (links : List LinkMsg) :
    ((configuredLinks netdevs links).map Prod.fst).Sublist (links.filterMap LinkMsg.ifname) := by
  rw [configuredLinks]
  induction links with
  | nil => exact List.Sublist.refl _
  | cons msg links ih =>
    rw [List.flatMap_cons, List.map_append, List.filterMap_cons]
    cases msg.ifname with
    | none => exact ih
    | some name =>
      cases configured : netdevs.contains name with
      | true =>
        rw [Option.filter_some_pos configured]
        exact ih.cons_cons name
      | false =>
        rw [Option.filter_some_neg configured]
        exact ih.cons name

theorem configuredLinks_indices (netdevs : List CStr) (links : List LinkMsg) :
    ((configuredLinks netdevs links).map fun link => link.2.index).Sublist
      (links.map LinkMsg.index) := by
  rw [configuredLinks]
  induction links with
  | nil => exact List.Sublist.refl _
  | cons msg links ih =>
    rw [List.flatMap_cons, List.map_append, List.map_cons]
    cases msg.ifname.filter (netdevs.contains ·) with
    | none => exact ih.cons msg.index
    | some name => exact ih.cons_cons msg.index

section

variable {s : Nodes} {q : Ptr} {info : NodeInfo} (netdevs : List CStr) {links : List LinkMsg}
  (addrs : List AddrMsg)

/-- The nodes that the two dumps leave. -/
theorem rtnlUpdate_trees (holds : Holds s (.cons (q, info) .nil .nil))
    (distinctNames : (links.filterMap LinkMsg.ifname).Nodup)
    (distinctIndices : (links.map LinkMsg.index).Nodup) :
    ∃ g t, (do
        rtnlUpdateLink netdevs (some q) links
        rtnlUpdateAddr (some q) addrs : NodeM Unit) s = .ok ((), t) ∧
      Holds t (.cons (q, info) g .nil) ∧
      g.shape.trees = (configuredLinks netdevs links).map fun link =>
        withAddrs addrs (linkNodeOf link) := by
  have same : SameEffect (do
      rtnlUpdateLink netdevs (some q) links
      rtnlUpdateAddr (some q) addrs)
      (runItems (some q) (links.flatMap (linkItem netdevs) ++ addrs.map addrItem)) := by
    rw [runItems_append]
    exact (rtnlUpdateLink_effect netdevs (some q) links).seq fun _ _ =>
      rtnlUpdateAddr_effect (some q) addrs
  obtain ⟨g, t, run, grows, shape⟩ :=
    runItems_grows holds (links.flatMap (linkItem netdevs) ++ addrs.map addrItem)
  have ends := same s
  rw [effect_of_ok run] at ends
  obtain ⟨_, run'⟩ := ok_of_effect ends
  refine ⟨g, t, run', grows.holds, ?_⟩
  -- the nodes, first as the link dump and then as the address dump leaves them
  have afterLinks := @trees_reportLinks (configuredLinks netdevs links) .nil
    (List.Nodup.sublist (configuredLinks_names netdevs links) distinctNames)
    (by simp [names, Forest.roots])
  have indices : ((reportItems (links.flatMap (linkItem netdevs)) .nil).roots.map
      NodeInfo.idx).Nodup := by
    rw [linkItems, ← Forest.map_fst_trees, afterLinks, List.map_map]
    have sub := List.Nodup.sublist (configuredLinks_indices netdevs links) distinctIndices
    simpa [Forest.trees, Function.comp_def, linkNodeOf] using sub
  have split : g.shape = reportItems (addrs.map addrItem)
      (reportItems (links.flatMap (linkItem netdevs)) .nil) :=
    shape.trans (List.foldl_append ..)
  rw [split, trees_reportAddrs indices, linkItems, afterLinks]
  simp [Forest.trees]

theorem forall₂_joined :
    List.Forall₂ (Joined addrs) (configuredLinks netdevs links)
      ((configuredLinks netdevs links).map fun link => withAddrs addrs (linkNodeOf link)) ↔
      ∀ link ∈ configuredLinks netdevs links, ∀ p ∈ pairsOf link.2.index addrs,
        ∀ r ∈ pairsOf link.2.index addrs, p = r := by
  rw [List.forall₂_map_right_iff, List.forall₂_same]
  exact forall₂_congr fun link _ => joined_iff addrs link

/-- After both dumps the configured interfaces of the link dump have a node each, with
    exactly the addresses of that interface, if and only if the messages for an interface
    all carry the same address. -/
theorem netdev_joined_iff (holds : Holds s (.cons (q, info) .nil .nil))
    (distinctNames : (links.filterMap LinkMsg.ifname).Nodup)
    (distinctIndices : (links.map LinkMsg.index).Nodup) :
    ∃ g t, (do
        rtnlUpdateLink netdevs (some q) links
        rtnlUpdateAddr (some q) addrs : NodeM Unit) s = .ok ((), t) ∧
      Holds t (.cons (q, info) g .nil) ∧
      (List.Forall₂ (Joined addrs) (configuredLinks netdevs links) g.shape.trees ↔
        ∀ link ∈ configuredLinks netdevs links, ∀ p ∈ pairsOf link.2.index addrs,
          ∀ r ∈ pairsOf link.2.index addrs, p = r) := by
  obtain ⟨g, t, run, grown, trees⟩ :=
    rtnlUpdate_trees netdevs addrs holds distinctNames distinctIndices
  refine ⟨g, t, run, grown, ?_⟩
  rw [trees]
  exact forall₂_joined netdevs addrs

end

/-- A root, to stand for the node of the section. -/
def sectionNode : Nodes := ⟨rootHeap Talloc.Heap.empty (ascii "root") none, [none]⟩

theorem holds_sectionNode : Holds sectionNode (.cons (1, rootInfo) .nil .nil) :=
  holds_root Nodes.empty [none]

def loopback : LinkMsg := ⟨1, 0x49, some (ascii "lo"), none⟩

def ethernet : LinkMsg := ⟨2, 0x41, some (ascii "eth0"), some [2, 0, 0, 0, 0, 1]⟩

def addrMsg (index : UInt32) (last : UInt8) : AddrMsg := ⟨index, afInet, 24, some ⟨10, 0, 0, last⟩⟩

def dumpedLinks : List LinkMsg := [loopback, ethernet]

theorem dumpedLinks_names : (dumpedLinks.filterMap LinkMsg.ifname).Nodup := by decide

theorem dumpedLinks_indices : (dumpedLinks.map LinkMsg.index).Nodup := by decide

theorem configuredLinks_ethernet :
    configuredLinks [ascii "eth0"] dumpedLinks = [(ascii "eth0", ethernet)] := rfl

theorem netdev_joined_single :
    ∃ g t, (do
        rtnlUpdateLink [ascii "eth0"] (some 1) dumpedLinks
        rtnlUpdateAddr (some 1) [addrMsg 2 7, addrMsg 1 1] : NodeM Unit) sectionNode =
          .ok ((), t) ∧
      Holds t (.cons (1, rootInfo) g .nil) ∧
      List.Forall₂ (Joined [addrMsg 2 7, addrMsg 1 1])
        (configuredLinks [ascii "eth0"] dumpedLinks) g.shape.trees := by
  obtain ⟨g, t, run, grown, joined⟩ := netdev_joined_iff [ascii "eth0"]
    [addrMsg 2 7, addrMsg 1 1] holds_sectionNode dumpedLinks_names dumpedLinks_indices
  refine ⟨g, t, run, grown, joined.mpr ?_⟩
  have one : pairsOf ethernet.index [addrMsg 2 7, addrMsg 1 1] = [(⟨10, 0, 0, 7⟩, 24)] := rfl
  simp [configuredLinks_ethernet, one]

/-- The second address of an interface is not shown. -/
theorem netdev_second_address :
    ∃ g t, (do
        rtnlUpdateLink [ascii "eth0"] (some 1) dumpedLinks
        rtnlUpdateAddr (some 1) [addrMsg 2 7, addrMsg 2 8] : NodeM Unit) sectionNode =
          .ok ((), t) ∧
      Holds t (.cons (1, rootInfo) g .nil) ∧
      ¬ List.Forall₂ (Joined [addrMsg 2 7, addrMsg 2 8])
        (configuredLinks [ascii "eth0"] dumpedLinks) g.shape.trees := by
  obtain ⟨g, t, run, grown, trees⟩ := rtnlUpdate_trees [ascii "eth0"]
    [addrMsg 2 7, addrMsg 2 8] holds_sectionNode dumpedLinks_names dumpedLinks_indices
  refine ⟨g, t, run, grown, ?_⟩
  have two : pairsOf ethernet.index [addrMsg 2 7, addrMsg 2 8] =
      [(⟨10, 0, 0, 7⟩, 24), (⟨10, 0, 0, 8⟩, 24)] := rfl
  rw [trees, forall₂_joined, configuredLinks_ethernet]
  intro same
  have equal := same _ List.mem_cons_self (⟨10, 0, 0, 7⟩, 24) (by simp [two]) (⟨10, 0, 0, 8⟩, 24)
    (by simp [two])
  simp at equal

end OsmoSysmon
