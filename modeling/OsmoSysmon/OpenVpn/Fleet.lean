import Mathlib.Algebra.Order.BigOperators.Group.List
import Mathlib.Algebra.Order.Ring.Nat
import Mathlib.Data.List.Perm.Subperm
import OsmoSysmon.OpenVpn.Callbacks

/-! # The OpenVPN clients of the daemon in memory

The list of clients with everything it needs memory for, while clients are added and removed
and callbacks of any of them run in any order.  What comes out is what a list of clients
without any memory gives; and after every step the clients, what they point to and the
messages that polls have lost are all there is.
-/

namespace OsmoSysmon

open CText Talloc Loop Registries

/-! ## Making a client -/

namespace VpnM

section

variable {h₀ h : Heap VpnCell} {new : List (List Ptr × VpnCell)}

theorem talloc_grown (grown : h₀.Grown h new) {i : Nat} {os : List Ptr} {b : VpnCell}
    (isOwner : new[i]? = some (os, b)) (inside : i = 0 ∨ h₀.next ∈ os) (cell : VpnCell) :
    ∃ h', talloc (some (h₀.next + i)) cell h = .ok (h₀.next + new.length, h') ∧
      h₀.Grown h' (new ++ [((h₀.next + i) :: os, cell)]) := by
  refine ⟨_, ?_, grown.alloc isOwner inside cell⟩
  rw [← grown.next]
  rfl

theorem store_grown (grown : h₀.Grown h new) {i : Nat} {os : List Ptr} {b : VpnCell}
    (isCell : new[i]? = some (os, b)) (inside : i = 0 ∨ h₀.next ∈ os) (value : VpnCell) :
    ∃ h', store (h₀.next + i) value h = .ok ((), h') ∧ h₀.Grown h' (new.set i (os, value)) :=
  ⟨_, store_ok (grown.get isCell) value, grown.set isCell inside value⟩

/-- The objects of a `host_cfg` that is the object number `k` of a block. -/
def cfgCells (n k : Ptr) (os : List Ptr) (name : CStr) (host : Option CStr) (port : UInt16) :
    List (List Ptr × VpnCell) :=
  (os, .hostCfg ⟨some (n + (k + 1)), host.map fun _ => n + (k + 2), port⟩) ::
    ((n + k) :: os, .str name) :: (host.map fun text => ((n + k) :: os, .str text)).toList

theorem hostCfgAlloc_grown (grown : h₀.Grown h new) {i : Nat} {os : List Ptr} {b : VpnCell}
    (isOwner : new[i]? = some (os, b)) (inside : i = 0 ∨ h₀.next ∈ os) (name : CStr)
    (host : Option CStr) (port : UInt16) :
    ∃ h', hostCfgAlloc (h₀.next + i) name host port h = .ok (h₀.next + new.length, h') ∧
      h₀.Grown h' (new ++ cfgCells h₀.next new.length ((h₀.next + i) :: os) name host port) := by
  have below : h₀.next ∈ (h₀.next + i) :: os := by
    rcases inside with rfl | inside
    · exact List.mem_cons_self
    · exact List.mem_cons_of_mem _ inside
  obtain ⟨h₁, alloc, grown₁⟩ := talloc_grown grown isOwner inside (.hostCfg ⟨none, none, 0⟩)
  obtain ⟨h₂, dupName, grown₂⟩ :=
    talloc_grown grown₁ List.getElem?_concat_length (.inr below) (.str name)
  rw [List.length_append, List.length_singleton] at dupName
  have runName : tallocStrdup (h₀.next + new.length) (some name) h₁ =
      .ok (some (h₀.next + (new.length + 1)), h₂) := bind_ok dupName _
  rw [hostCfgAlloc, bind_ok alloc, bind_ok runName]
  cases host with
  | none =>
    obtain ⟨h₃, stored, grown₃⟩ := store_grown grown₂ (i := new.length)
      (by rw [List.append_assoc, List.getElem?_append_right (Nat.le_refl _), Nat.sub_self]; rfl)
      (.inr below) (.hostCfg ⟨some (h₀.next + (new.length + 1)), none, port⟩)
    refine ⟨h₃, (bind_ok (pure_ok none h₂) _).trans (bind_ok stored _), ?_⟩
    rw [List.append_assoc, List.set_append_right _ _ (Nat.le_refl _), Nat.sub_self] at grown₃
    exact grown₃
  | some text =>
    obtain ⟨h₃, dupHost, grown₃⟩ := talloc_grown grown₂ (i := new.length)
      (by rw [List.append_assoc, List.getElem?_append_right (Nat.le_refl _), Nat.sub_self]; rfl)
      (.inr below) (.str text)
    rw [List.length_append, List.length_append, List.length_singleton, List.length_singleton] at dupHost
    have runHost : tallocStrdup (h₀.next + new.length) (some text) h₂ =
        .ok (some (h₀.next + (new.length + 2)), h₃) := bind_ok dupHost _
    obtain ⟨h₄, stored, grown₄⟩ := store_grown grown₃ (i := new.length)
      (by
        rw [List.append_assoc, List.append_assoc, List.getElem?_append_right (Nat.le_refl _),
          Nat.sub_self]
        rfl)
      (.inr below)
      (.hostCfg ⟨some (h₀.next + (new.length + 1)), some (h₀.next + (new.length + 2)), port⟩)
    refine ⟨h₄, (bind_ok runHost _).trans (bind_ok stored _), ?_⟩
    rw [List.append_assoc, List.append_assoc, List.set_append_right _ _ (Nat.le_refl _),
      Nat.sub_self] at grown₄
    exact grown₄

/-- The objects of a client that has just been made, but for the connection. -/
def newCells (n : Ptr) (name host : CStr) (port : UInt16) (mgmt : Option Ptr) :
    List (List Ptr × VpnCell) :=
  ([], .client ⟨some (n + 1), mgmt, some (n + 4), none, false⟩) ::
    cfgCells n 1 [n] name (some host) port ++
    cfgCells n 4 [n] (ascii "connecting to openvpn management socket") none 0

theorem clientMake_ok (chained : h₀.Chained) (name host : CStr) (port : UInt16) :
    ∃ h, clientMake name host port h₀ = .ok ((h₀.next, h₀.next + 1), h) ∧
      h₀.Grown h (newCells h₀.next name host port none) := by
  have grown₁ := Heap.Grown.start chained (.client ⟨none, none, none, none, false⟩)
  obtain ⟨h₂, makeCfg, grown₂⟩ :=
    hostCfgAlloc_grown grown₁ (i := 0) rfl (.inl rfl) name (some host) port
  obtain ⟨h₃, storeCfg, grown₃⟩ := store_grown grown₂ (i := 0) rfl (.inl rfl)
    (.client ⟨some (h₀.next + 1), none, none, none, false⟩)
  obtain ⟨h₄, makeRem, grown₄⟩ := hostCfgAlloc_grown grown₃ (i := 0) rfl (.inl rfl)
    (ascii "connecting to openvpn management socket") none 0
  obtain ⟨h₅, storeRem, grown₅⟩ := store_grown grown₄ (i := 0) rfl (.inl rfl)
    (.client ⟨some (h₀.next + 1), none, some (h₀.next + 4), none, false⟩)
  refine ⟨h₅, ?_, grown₅⟩
  have atClient₂ := loadClient_ok (grown₂.get (i := 0) rfl)
  have atClient₄ := loadClient_ok (grown₄.get (i := 0) rfl)
  have makeClient : talloc none (.client ⟨none, none, none, none, false⟩) h₀ =
      .ok (h₀.next, h₀.alloc none (.client ⟨none, none, none, none, false⟩)) := rfl
  rw [clientMake, bind_ok makeClient]
  refine (bind_ok makeCfg _).trans ?_
  refine (bind_ok atClient₂ _).trans ?_
  refine (bind_ok storeCfg _).trans ?_
  refine (bind_ok makeRem _).trans ?_
  refine (bind_ok atClient₄ _).trans ?_
  exact bind_ok storeRem _

/-- What `clientMake` has built, with the connection. -/
def connectedCells (n : Ptr) (name host : CStr) (port : UInt16) : List (List Ptr × VpnCell) :=
  newCells n name host port (some (n + 6)) ++ [([n + 1, n], .stream)]

theorem makeTcpClient_ok {name host : CStr} {port : UInt16}
    (grown : h₀.Grown h (newCells h₀.next name host port none)) :
    ∃ h' h'', makeTcpClient (h₀.next + 1) h = .ok (h₀.next + 6, h') ∧
      store h₀.next
        (.client ⟨some (h₀.next + 1), some (h₀.next + 6), some (h₀.next + 4), none, false⟩) h' =
          .ok ((), h'') ∧
      loadClient h₀.next h' = .ok (⟨some (h₀.next + 1), none, some (h₀.next + 4), none, false⟩, h') ∧
      h₀.Grown h'' (connectedCells h₀.next name host port) := by
  obtain ⟨h₁, alloc, grown₁⟩ := talloc_grown grown (i := 1) rfl (.inr List.mem_cons_self) .stream
  have atCfg := loadCfg_ok (grown₁.get (i := 1) rfl)
  have atHost := loadStr_some (grown₁.get (i := 3) rfl)
  obtain ⟨h₂, stored, grown₂⟩ := store_grown grown₁ (i := 0) rfl (.inl rfl)
    (.client ⟨some (h₀.next + 1), some (h₀.next + 6), some (h₀.next + 4), none, false⟩)
  refine ⟨h₁, h₂, ?_, stored, loadClient_ok (grown₁.get (i := 0) rfl), grown₂⟩
  rw [makeTcpClient, bind_ok alloc]
  refine (bind_ok atCfg _).trans ?_
  exact bind_ok (bind_ok atHost _) _

/-- The client that is given up is gone with everything it had. -/
theorem tallocFree_grown {c : List Ptr × VpnCell} (grown : h₀.Grown h new) (isRoot : new[0]? = some c)
    (top : c.1 = []) :
    tallocFree (some h₀.next) h = .ok ((), h.free h₀.next) ∧ (h.free h₀.next).Chained ∧
      h₀.Frame h₀.next (h.free h₀.next) ∧ (h.free h₀.next).cell? h₀.next = none := by
  obtain ⟨os, a⟩ := c
  have cell := (grown.cells 0).trans isRoot
  refine ⟨bind_ok (load_ok (grown.get isRoot)) _, grown.chained.free _,
    grown.frame.trans (Heap.frame_free grown.chained cell (.inl rfl)),
    h.cell?_free_self h₀.next⟩

theorem clientConnect_failed {name host : CStr} {port : UInt16} {setup : TcpSetup}
    (grown : h₀.Grown h (newCells h₀.next name host port none)) (failed : setup ≠ .opened)
    (vpns : List Ptr) :
    ∃ h', clientConnect h₀.next (h₀.next + 1) setup vpns h = .ok ((false, vpns), h') ∧
      h'.Chained ∧ h₀.Frame h₀.next h' ∧ h'.cell? h₀.next = none := by
  cases setup with
  | opened => exact absurd rfl failed
  | noClient =>
    obtain ⟨free, after⟩ := tallocFree_grown grown rfl rfl
    exact ⟨_, bind_ok free _, after⟩
  | notOpened =>
    obtain ⟨h₁, h₂, make, stored, atClient, grown₂⟩ := makeTcpClient_ok grown
    obtain ⟨free, after⟩ := tallocFree_grown grown₂ rfl rfl
    refine ⟨_, ?_, after⟩
    refine (bind_ok make _).trans ((bind_ok atClient _).trans ?_)
    exact (bind_ok stored _).trans (bind_ok free _)

theorem clientConnect_opened {name host : CStr} {port : UInt16}
    (grown : h₀.Grown h (newCells h₀.next name host port none)) (vpns : List Ptr) :
    ∃ h', clientConnect h₀.next (h₀.next + 1) .opened vpns h = .ok ((true, vpns ++ [h₀.next]), h') ∧
      h₀.Grown h' (connectedCells h₀.next name host port) := by
  obtain ⟨h₁, h₂, make, stored, atClient, grown₂⟩ := makeTcpClient_ok grown
  refine ⟨h₂, ?_, grown₂⟩
  exact (bind_ok make _).trans ((bind_ok atClient _).trans (bind_ok stored _))

end

end VpnM

/-- Where the parts of a new client are. -/
def newLayout (n : Ptr) (name host : CStr) : Layout where
  cfg := n + 1
  mgmt := n + 6
  rem := n + 4
  str
    | .cfgName => some (n + 2, name)
    | .cfgHost => some (n + 3, host)
    | .remName => some (n + 5, ascii "connecting to openvpn management socket")
    | .remHost => none
    | .tunIp => none

theorem held_new {h₀ h : Heap VpnCell} {name host : CStr} {port : UInt16}
    (grown : h₀.Grown h (VpnM.connectedCells h₀.next name host port)) :
    Held h h₀.next (newLayout h₀.next name host) (OsmoSysmon.openvpnClientCreate name host port) := by
  refine ⟨⟨⟨_, grown.cells 0⟩, ⟨_, grown.cells 1⟩, ⟨_, grown.cells 4⟩, grown.cells 6, ?_, ?_, ?_, ?_⟩,
    grown.get (i := 0) rfl, grown.get (i := 1) rfl, grown.get (i := 4) rfl, ?_⟩
  · intro s p text isStr
    cases s with
    | cfgName => cases isStr; exact grown.cells 2
    | cfgHost => cases isStr; exact grown.cells 3
    | remName => cases isStr; exact grown.cells 5
    | remHost => cases isStr
    | tunIp => cases isStr
  · simp [newLayout]
  · intro s t p x y isStr isStr'
    cases s <;> cases t <;> first | rfl | (cases isStr <;> simp [newLayout] at isStr')
  · intro q os a cell inBlock
    obtain ⟨i, rfl, isCell⟩ := grown.in_block cell inBlock
    match i with
    | 0 =>
      cases isCell
      cases inBlock
    | 1 => exact .inl rfl
    | 2 => exact .inr (.inr (.inr ⟨.cfgName, name, rfl⟩))
    | 3 => exact .inr (.inr (.inr ⟨.cfgHost, host, rfl⟩))
    | 4 => exact .inr (.inr (.inl rfl))
    | 5 => exact .inr (.inr (.inr ⟨.remName, _, rfl⟩))
    | 6 => exact .inr (.inl rfl)
    | _ + 7 => cases isCell
  · intro s
    cases s <;> rfl

/-! ## The clients together -/

/-- Memory holds these clients, each in a block of its own, the messages that are lost, and
    nothing else. -/
structure Fleet (h : Heap VpnCell) (fleet : List (Ptr × OpenvpnClient)) (lost : List Ptr) :
    Prop where
  chained : h.Chained
  distinct : (fleet.map Prod.fst).Nodup
  held : ∀ m ∈ fleet, ∃ l, Held h m.1 l m.2
  hosted : ∀ m ∈ fleet, m.2.cfg.remoteHost.isSome = true
  lostOnce : lost.Nodup
  stray : ∀ q ∈ lost, h.cell? q = some ([], .msgb)
  covered : ∀ q os a, h.cell? q = some (os, a) →
    (∃ p ∈ fleet.map Prod.fst, q = p ∨ p ∈ os) ∨ q ∈ lost

theorem fleet_empty : Fleet Heap.empty [] [] where
  chained := Heap.chained_empty
  distinct := List.nodup_nil
  held := fun _ mem => by cases mem
  hosted := fun _ mem => by cases mem
  lostOnce := List.nodup_nil
  stray := fun _ mem => by cases mem
  covered := fun q os a cell => by rw [Heap.cell?_empty] at cell; cases cell

/-- What is done in another block leaves a client alone. -/
theorem Held.frame {h h' : Heap VpnCell} {vpn root : Ptr} {l : Layout} {c : OpenvpnClient}
    (held : Held h vpn l c) (frame : h.Frame root h') (chained : h.Chained) (chained' : h'.Chained)
    (top : ∀ os b, h.cell? root = some (os, b) → os = [])
    (top' : ∀ os b, h'.cell? root = some (os, b) → os = []) (other : vpn ≠ root) :
    Held h' vpn l c := by
  obtain ⟨parts, atClient, atCfg, atRem, text⟩ := held
  obtain ⟨a, isClient⟩ := parts.client
  have kept {q : Ptr} {os : List Ptr} {b : VpnCell} (cell : h.cell? q = some (os, b))
      (inside : q = vpn ∨ vpn ∈ os) : h'.cell? q = some (os, b) := by
    obtain ⟨notRoot, notBelow⟩ := chained.outside isClient top other cell inside
    exact (frame q os b notRoot notBelow).mp cell
  have same {q : Ptr} {os : List Ptr} {b : VpnCell} (cell : h.cell? q = some (os, b))
      (inside : q = vpn ∨ vpn ∈ os) : h'.get? q = h.get? q := by
    rw [Heap.get?_of_cell cell, Heap.get?_of_cell (kept cell inside)]
  obtain ⟨b, isCfg⟩ := parts.cfg
  obtain ⟨d, isRem⟩ := parts.rem
  have below : l.cfg = vpn ∨ vpn ∈ [vpn] := .inr List.mem_cons_self
  have below' : l.rem = vpn ∨ vpn ∈ [vpn] := .inr List.mem_cons_self
  refine ⟨⟨⟨a, kept isClient (.inl rfl)⟩, ⟨b, kept isCfg below⟩, ⟨d, kept isRem below'⟩,
    kept parts.mgmt (.inr (by simp)), ?_, parts.cfg_ne_rem, parts.distinct, ?_⟩,
    (same isClient (.inl rfl)).trans atClient, (same isCfg below).trans atCfg,
    (same isRem below').trans atRem, text⟩
  · exact fun s p text isStr => kept (parts.str s p text isStr) (.inr (by simp))
  · intro q os b cell inBlock
    obtain ⟨notRoot, notBelow⟩ :=
      chained'.outside (kept isClient (.inl rfl)) top' other cell (.inr inBlock)
    exact parts.exact q os b ((frame q os b notRoot notBelow).mpr cell) inBlock

theorem Held.top {h : Heap VpnCell} {vpn : Ptr} {l : Layout} {c : OpenvpnClient}
    (held : Held h vpn l c) (os : List Ptr) (b : VpnCell) (cell : h.cell? vpn = some (os, b)) :
    os = [] := by
  obtain ⟨a, isClient⟩ := held.parts.client
  rw [isClient] at cell
  cases cell
  rfl

theorem top_of_none {h : Heap VpnCell} {vpn : Ptr} (gone : h.cell? vpn = none) (os : List Ptr)
    (b : VpnCell) (cell : h.cell? vpn = some (os, b)) : os = [] := by
  rw [gone] at cell
  cases cell

theorem cell_msgb (h : Heap VpnCell) : (h.alloc none .msgb).cell? h.next = some ([], .msgb) := by
  rw [Heap.cell?_alloc_top, if_pos rfl]

/-- A message of its own. -/
theorem Held.message {h : Heap VpnCell} {vpn : Ptr} {l : Layout} {c : OpenvpnClient}
    (held : Held h vpn l c) (chained : h.Chained) : Held (h.alloc none .msgb) vpn l c := by
  obtain ⟨a, isClient⟩ := held.parts.client
  refine held.frame (Heap.frame_alloc_top h .msgb) chained (chained.alloc_top .msgb)
    (top_of_none h.cell?_next) ?_ (Heap.ne_next_of_cell isClient)
  intro os b cell
  cases (cell_msgb h).symm.trans cell
  rfl

namespace Fleet

variable {h h' : Heap VpnCell} {ms : List (Ptr × OpenvpnClient)} {lost : List Ptr} {root : Ptr}

theorem others (fleet : Fleet h ms lost) (chained' : h'.Chained) (frame : h.Frame root h')
    (top : ∀ os b, h.cell? root = some (os, b) → os = [])
    (top' : ∀ os b, h'.cell? root = some (os, b) → os = []) {m : Ptr × OpenvpnClient}
    (mem : m ∈ ms) (other : m.1 ≠ root) : ∃ l, Held h' m.1 l m.2 := by
  obtain ⟨l, held⟩ := fleet.held m mem
  exact ⟨l, held.frame frame fleet.chained chained' top top' other⟩

theorem root_live (fleet : Fleet h ms lost) {m : Ptr × OpenvpnClient} (mem : m ∈ ms) :
    ∃ vpn, h.cell? m.1 = some ([], .client vpn) := by
  obtain ⟨l, held⟩ := fleet.held m mem
  obtain ⟨a, cell⟩ := held.parts.client
  have live := held.client
  rw [Heap.get?_of_cell cell] at live
  cases live
  exact ⟨_, cell⟩

/-- A lost message is no client. -/
theorem ne_of_lost (fleet : Fleet h ms lost) {m : Ptr × OpenvpnClient} (mem : m ∈ ms) {q : Ptr}
    (isLost : q ∈ lost) : q ≠ m.1 := by
  rintro rfl
  obtain ⟨vpn, cell⟩ := fleet.root_live mem
  cases (fleet.stray _ isLost).symm.trans cell

/-- A lost message stays where it is. -/
theorem stray_of_frame (fleet : Fleet h ms lost) (frame : h.Frame root h')
    (apart : ∀ q ∈ lost, q ≠ root) (q : Ptr) (isLost : q ∈ lost) :
    h'.cell? q = some ([], .msgb) :=
  (frame q [] .msgb (apart q isLost) List.not_mem_nil).mp (fleet.stray q isLost)

theorem apart {before after : List (Ptr × OpenvpnClient)} {m : Ptr × OpenvpnClient}
    (fleet : Fleet h (before ++ m :: after) lost) : ∀ m' ∈ before ++ after, m'.1 ≠ m.1 := by
  have distinct := fleet.distinct
  rw [List.map_append, List.map_cons, List.nodup_middle, List.nodup_cons, ← List.map_append]
    at distinct
  intro m' mem same
  exact distinct.1 (List.mem_map.mpr ⟨m', mem, same⟩)

/-- A callback of one client. -/
theorem replace {before after : List (Ptr × OpenvpnClient)} {vpn : Ptr} {c c' : OpenvpnClient}
    {l' : Layout} (fleet : Fleet h (before ++ (vpn, c) :: after) lost) (chained' : h'.Chained)
    (held' : Held h' vpn l' c') (frame : h.Frame vpn h') (sameCfg : c'.cfg = c.cfg) :
    Fleet h' (before ++ (vpn, c') :: after) lost := by
  have isMember : (vpn, c) ∈ before ++ (vpn, c) :: after := by simp
  obtain ⟨l, held⟩ := fleet.held (vpn, c) isMember
  have samePtrs : (before ++ (vpn, c') :: after).map Prod.fst =
      (before ++ (vpn, c) :: after).map Prod.fst := by simp
  have apart := fleet.apart
  have split {d : OpenvpnClient} {m : Ptr × OpenvpnClient} :
      m ∈ before ++ (vpn, d) :: after ↔ m = (vpn, d) ∨ m ∈ before ++ after := by
    rw [List.perm_middle.mem_iff, List.mem_cons]
  refine ⟨chained', samePtrs ▸ fleet.distinct, ?_, ?_, fleet.lostOnce,
    fleet.stray_of_frame frame fun q => fleet.ne_of_lost isMember, ?_⟩
  · intro m mem
    rcases split.mp mem with rfl | mem
    · exact ⟨l', held'⟩
    · exact fleet.others chained' frame held.top held'.top (split.mpr (.inr mem)) (apart m mem)
  · intro m mem
    rcases split.mp mem with rfl | mem
    · exact sameCfg ▸ fleet.hosted (vpn, c) isMember
    · exact fleet.hosted m (split.mpr (.inr mem))
  · intro q os a cell
    rw [samePtrs]
    by_cases here : q = vpn ∨ vpn ∈ os
    · exact .inl ⟨vpn, List.mem_map_of_mem isMember, here⟩
    · rw [not_or] at here
      exact fleet.covered q os a ((frame q os a here.1 here.2).mpr cell)

/-- Nothing that is there is at the next address. -/
theorem lost_ne_next (fleet : Fleet h ms lost) (q : Ptr) (isLost : q ∈ lost) : q ≠ h.next :=
  Heap.ne_next_of_cell (fleet.stray q isLost)

theorem ne_next (fleet : Fleet h ms lost) (m : Ptr × OpenvpnClient) (mem : m ∈ ms) :
    m.1 ≠ h.next := by
  obtain ⟨vpn, cell⟩ := fleet.root_live mem
  exact Heap.ne_next_of_cell cell

/-- A new client. -/
theorem add {c : OpenvpnClient} {l : Layout} (fleet : Fleet h ms lost) (chained' : h'.Chained)
    (held' : Held h' h.next l c) (frame : h.Frame h.next h')
    (hosted : c.cfg.remoteHost.isSome = true) : Fleet h' (ms ++ [(h.next, c)]) lost := by
  refine ⟨chained', ?_, ?_, ?_, fleet.lostOnce, fleet.stray_of_frame frame fleet.lost_ne_next, ?_⟩
  · rw [List.map_append, List.nodup_append]
    refine ⟨fleet.distinct, List.nodup_singleton _, ?_⟩
    intro p mem q new
    obtain ⟨m, isMember, rfl⟩ := List.mem_map.mp mem
    cases List.mem_singleton.mp new
    exact fleet.ne_next m isMember
  · intro m mem
    rcases List.mem_append.mp mem with mem | new
    · exact fleet.others chained' frame (top_of_none h.cell?_next) held'.top mem
        (fleet.ne_next m mem)
    · cases List.mem_singleton.mp new
      exact ⟨l, held'⟩
  · intro m mem
    rcases List.mem_append.mp mem with mem | new
    · exact fleet.hosted m mem
    · cases List.mem_singleton.mp new
      exact hosted
  · intro q os a cell
    by_cases here : q = h.next ∨ h.next ∈ os
    · exact .inl ⟨h.next, by simp, here⟩
    · rw [not_or] at here
      rcases fleet.covered q os a ((frame q os a here.1 here.2).mpr cell) with
        ⟨p, mem, inside⟩ | isLost
      · exact .inl ⟨p, by rw [List.map_append]; exact List.mem_append_left _ mem, inside⟩
      · exact .inr isLost

/-- A block that is gone. -/
theorem without {ms' : List (Ptr × OpenvpnClient)} (fleet : Fleet h ms lost)
    (chained' : h'.Chained) (frame : h.Frame root h')
    (top : ∀ os b, h.cell? root = some (os, b) → os = []) (gone : h'.cell? root = none)
    (sub : ms'.Sublist ms) (rest : ∀ m, m ∈ ms' ↔ m ∈ ms ∧ m.1 ≠ root)
    (apart : ∀ q ∈ lost, q ≠ root) : Fleet h' ms' lost := by
  refine ⟨chained', fleet.distinct.sublist (sub.map _), ?_, ?_, fleet.lostOnce,
    fleet.stray_of_frame frame apart, ?_⟩
  · intro m mem
    obtain ⟨mem, other⟩ := (rest m).mp mem
    exact fleet.others chained' frame top (top_of_none gone) mem other
  · exact fun m mem => fleet.hosted m ((rest m).mp mem).1
  · intro q os a cell
    have notRoot : q ≠ root := by
      rintro rfl
      rw [gone] at cell
      cases cell
    have notBelow : root ∉ os := by
      intro above
      obtain ⟨ps, b, isCell, -⟩ := chained'.above cell above
      rw [gone] at isCell
      cases isCell
    rcases fleet.covered q os a ((frame q os a notRoot notBelow).mpr cell) with
      ⟨p, mem, inside⟩ | isLost
    · obtain ⟨m, isMember, rfl⟩ := List.mem_map.mp mem
      refine .inl ⟨m.1, List.mem_map_of_mem ((rest m).mpr ⟨isMember, ?_⟩), inside⟩
      rintro rfl
      exact inside.elim notRoot notBelow
    · exact .inr isLost

/-- A message that has been allocated. -/
theorem message (fleet : Fleet h ms lost) : Fleet (h.alloc none .msgb) ms (lost ++ [h.next]) := by
  have frame := Heap.frame_alloc_top h VpnCell.msgb
  refine ⟨fleet.chained.alloc_top .msgb, fleet.distinct, ?_, fleet.hosted, ?_, ?_, ?_⟩
  · intro m mem
    obtain ⟨l, held⟩ := fleet.held m mem
    exact ⟨l, held.message fleet.chained⟩
  · rw [List.nodup_append]
    refine ⟨fleet.lostOnce, List.nodup_singleton _, fun q isLost p isNew => ?_⟩
    cases List.mem_singleton.mp isNew
    exact fleet.lost_ne_next q isLost
  · intro q isLost
    rcases List.mem_append.mp isLost with isLost | isNew
    · exact fleet.stray_of_frame frame fleet.lost_ne_next q isLost
    · cases List.mem_singleton.mp isNew
      exact cell_msgb h
  · intro q os a cell
    by_cases here : q = h.next
    · exact .inr (by simp [here])
    · rw [Heap.cell?_alloc_top, if_neg here] at cell
      exact (fleet.covered q os a cell).imp_right (List.mem_append_left _)

/-- A message that has been handed over is gone. -/
theorem sent (fleet : Fleet h ms lost) : Fleet ((h.alloc none .msgb).free h.next) ms lost := by
  have chained := fleet.chained.alloc_top .msgb
  have frame := (Heap.frame_alloc_top h VpnCell.msgb).trans
    (Heap.frame_free chained (cell_msgb h) (.inl rfl))
  refine fleet.without (chained.free _) frame (top_of_none h.cell?_next)
    (Heap.cell?_free_self _ _) (List.Sublist.refl ms) ?_ fleet.lost_ne_next
  exact fun m => ⟨fun mem => ⟨mem, fleet.ne_next m mem⟩, And.left⟩

end Fleet

/-! ## What can be reached -/

def slots : List Slot := [.cfgName, .cfgHost, .remName, .remHost, .tunIp]

theorem mem_slots (s : Slot) : s ∈ slots := by cases s <;> decide

/-- The objects of a client. -/
def Layout.objects (l : Layout) (vpn : Ptr) : List Ptr :=
  [vpn, l.cfg, l.mgmt, l.rem] ++ slots.filterMap l.ptr

theorem Layout.length_objects (l : Layout) (vpn : Ptr) : (l.objects vpn).length ≤ 9 := by
  rw [objects, List.length_append]
  exact Nat.add_le_add_left (List.length_filterMap_le l.ptr slots) 4

theorem Layout.mem_objects {l : Layout} {vpn q : Ptr} :
    q ∈ l.objects vpn ↔ q = vpn ∨ q = l.cfg ∨ q = l.mgmt ∨ q = l.rem ∨ ∃ s, l.ptr s = some q := by
  simp [objects, mem_slots]

theorem Layout.points_clientCell (l : Layout) (connected : Bool) (q : Ptr) :
    q ∈ (l.clientCell connected).points ↔
      q = l.cfg ∨ q = l.mgmt ∨ q = l.rem ∨ l.ptr .tunIp = some q := by
  simp [VpnCell.points, clientCell, eq_comm]

theorem Layout.points_cfgCell (l : Layout) (port : UInt16) (q : Ptr) :
    q ∈ (l.cfgCell port).points ↔ l.ptr .cfgName = some q ∨ l.ptr .cfgHost = some q := by
  simp [VpnCell.points, cfgCell]

theorem Layout.points_remCell (l : Layout) (port : UInt16) (q : Ptr) :
    q ∈ (l.remCell port).points ↔ l.ptr .remName = some q ∨ l.ptr .remHost = some q := by
  simp [VpnCell.points, remCell]

section

variable {h : Heap VpnCell} {vpn : Ptr} {l : Layout} {c : OpenvpnClient}

theorem Held.of_ptr (held : Held h vpn l c) {s : Slot} {q : Ptr} (isPtr : l.ptr s = some q) :
    ∃ text, h.cell? q = some ([l.ctx s, vpn], .str text) := by
  obtain ⟨⟨p, text⟩, isStr, rfl⟩ := Option.map_eq_some_iff.mp isPtr
  exact ⟨text, held.parts.str s p text isStr⟩

theorem Held.live (held : Held h vpn l c) {q : Ptr} (mem : q ∈ l.objects vpn) :
    (h.get? q).isSome = true := by
  rcases Layout.mem_objects.mp mem with rfl | rfl | rfl | rfl | ⟨s, isPtr⟩
  · rw [held.client]; rfl
  · rw [held.cfg]; rfl
  · rw [Heap.get?_of_cell held.parts.mgmt]; rfl
  · rw [held.rem]; rfl
  · obtain ⟨text, cell⟩ := held.of_ptr isPtr
    rw [Heap.get?_of_cell cell]; rfl

/-- The pointers in the objects of a client are to its objects. -/
theorem Held.points (held : Held h vpn l c) {p q : Ptr} {a : VpnCell} (mem : p ∈ l.objects vpn)
    (live : h.get? p = some a) (follow : q ∈ a.points) : q ∈ l.objects vpn := by
  rw [Layout.mem_objects]
  rcases Layout.mem_objects.mp mem with rfl | rfl | rfl | rfl | ⟨s, isPtr⟩
  · rw [held.client] at live
    cases live
    rcases (l.points_clientCell c.connected q).mp follow with isCfg | isMgmt | isRem | isPtr
    · exact .inr (.inl isCfg)
    · exact .inr (.inr (.inl isMgmt))
    · exact .inr (.inr (.inr (.inl isRem)))
    · exact .inr (.inr (.inr (.inr ⟨.tunIp, isPtr⟩)))
  · rw [held.cfg] at live
    cases live
    have isPtr := (l.points_cfgCell c.cfg.remotePort q).mp follow
    exact .inr (.inr (.inr (.inr (isPtr.elim (⟨.cfgName, ·⟩) (⟨.cfgHost, ·⟩)))))
  · rw [Heap.get?_of_cell held.parts.mgmt] at live
    cases live
    cases follow
  · rw [held.rem] at live
    cases live
    have isPtr := (l.points_remCell c.remCfg.remotePort q).mp follow
    exact .inr (.inr (.inr (.inr (isPtr.elim (⟨.remName, ·⟩) (⟨.remHost, ·⟩)))))
  · obtain ⟨text, cell⟩ := held.of_ptr isPtr
    rw [Heap.get?_of_cell cell] at live
    cases live
    cases follow

/-- Every object of a client can be reached from it. -/
theorem Held.reached (held : Held h vpn l c) {roots : List Ptr} (isRoot : vpn ∈ roots) {q : Ptr}
    (mem : q ∈ l.objects vpn) : Heap.Reach VpnCell.points roots h q := by
  have atClient : Heap.Reach VpnCell.points roots h vpn := .root isRoot
  have fromClient {p : Ptr}
      (isPointer : p = l.cfg ∨ p = l.mgmt ∨ p = l.rem ∨ l.ptr .tunIp = some p) :
      Heap.Reach VpnCell.points roots h p :=
    atClient.follow held.client ((l.points_clientCell c.connected p).mpr isPointer)
  have atCfg := fromClient (.inl rfl)
  have atRem := fromClient (.inr (.inr (.inl rfl)))
  rcases Layout.mem_objects.mp mem with rfl | rfl | rfl | rfl | ⟨s, isPtr⟩
  · exact atClient
  · exact atCfg
  · exact fromClient (.inr (.inl rfl))
  · exact atRem
  · cases s with
    | cfgName => exact atCfg.follow held.cfg ((l.points_cfgCell _ q).mpr (.inl isPtr))
    | cfgHost => exact atCfg.follow held.cfg ((l.points_cfgCell _ q).mpr (.inr isPtr))
    | remName => exact atRem.follow held.rem ((l.points_remCell _ q).mpr (.inl isPtr))
    | remHost => exact atRem.follow held.rem ((l.points_remCell _ q).mpr (.inr isPtr))
    | tunIp => exact fromClient (.inr (.inr (.inr isPtr)))

/-- What is in the block of a client is one of its objects. -/
theorem Held.in_block (held : Held h vpn l c) {q : Ptr} {os : List Ptr} {a : VpnCell}
    (cell : h.cell? q = some (os, a)) (inside : q = vpn ∨ vpn ∈ os) : q ∈ l.objects vpn := by
  rw [Layout.mem_objects]
  rcases inside with isClient | below
  · exact .inl isClient
  · rcases held.parts.exact q os a cell below with isCfg | isMgmt | isRem | ⟨s, text, isStr⟩
    · exact .inr (.inl isCfg)
    · exact .inr (.inr (.inl isMgmt))
    · exact .inr (.inr (.inr (.inl isRem)))
    · exact .inr (.inr (.inr (.inr ⟨s, by rw [Layout.ptr, isStr, Option.map_some]⟩)))

end

theorem cell_of_live {h : Heap VpnCell} {q : Ptr} (live : (h.get? q).isSome = true) :
    ∃ os a, h.cell? q = some (os, a) := by
  rw [Heap.get?_eq_cell?, Option.isSome_map, Option.isSome_iff_exists] at live
  obtain ⟨⟨os, a⟩, cell⟩ := live
  exact ⟨os, a, cell⟩

namespace Fleet

variable {h : Heap VpnCell} {ms : List (Ptr × OpenvpnClient)} {lost : List Ptr}

theorem objects_of_cell (fleet : Fleet h ms lost) {q : Ptr} (live : (h.get? q).isSome = true) :
    (∃ m ∈ ms, ∃ l, Held h m.1 l m.2 ∧ q ∈ l.objects m.1) ∨ q ∈ lost := by
  obtain ⟨os, a, cell⟩ := cell_of_live live
  rcases fleet.covered q os a cell with ⟨p, isPtr, inside⟩ | isLost
  · obtain ⟨m, mem, rfl⟩ := List.mem_map.mp isPtr
    obtain ⟨l, held⟩ := fleet.held m mem
    exact .inl ⟨m, mem, l, held, held.in_block cell inside⟩
  · exact .inr isLost

/-- Following pointers from the list does not lead out of the clients. -/
theorem objects_of_reach (fleet : Fleet h ms lost) {q : Ptr}
    (reach : Heap.Reach VpnCell.points (ms.map Prod.fst) h q) :
    ∃ m ∈ ms, ∃ l, Held h m.1 l m.2 ∧ q ∈ l.objects m.1 := by
  induction reach with
  | root isRoot =>
    obtain ⟨m, mem, rfl⟩ := List.mem_map.mp isRoot
    obtain ⟨l, held⟩ := fleet.held m mem
    exact ⟨m, mem, l, held, Layout.mem_objects.mpr (.inl rfl)⟩
  | follow _ live points ih =>
    obtain ⟨m, mem, l, held, isObject⟩ := ih
    exact ⟨m, mem, l, held, held.points isObject live points⟩

/-- What is allocated can be reached from the list, but for the messages that are lost. -/
theorem tidy (fleet : Fleet h ms lost) (q : Ptr) :
    (h.get? q).isSome = true ↔
      Heap.Reach VpnCell.points (ms.map Prod.fst) h q ∨ q ∈ lost := by
  constructor
  · intro live
    rcases fleet.objects_of_cell live with ⟨m, mem, l, held, isObject⟩ | isLost
    · exact .inl (held.reached (List.mem_map_of_mem mem) isObject)
    · exact .inr isLost
  · rintro (reach | isLost)
    · obtain ⟨m, -, l, held, mem⟩ := fleet.objects_of_reach reach
      exact held.live mem
    · rw [Heap.get?_of_cell (fleet.stray q isLost)]
      rfl

theorem lost_unreachable (fleet : Fleet h ms lost) {q : Ptr} (isLost : q ∈ lost) :
    h.get? q = some .msgb ∧ ¬ Heap.Reach VpnCell.points (ms.map Prod.fst) h q := by
  refine ⟨Heap.get?_of_cell (fleet.stray q isLost), fun reach => ?_⟩
  obtain ⟨m, mem, l, held, isObject⟩ := fleet.objects_of_reach reach
  have atTop := fleet.stray q isLost
  rcases Layout.mem_objects.mp isObject with isClient | rfl | rfl | rfl | ⟨s, isPtr⟩
  · exact fleet.ne_of_lost mem isLost isClient
  · obtain ⟨a, cell⟩ := held.parts.cfg
    cases atTop.symm.trans cell
  · cases atTop.symm.trans held.parts.mgmt
  · obtain ⟨a, cell⟩ := held.parts.rem
    cases atTop.symm.trans cell
  · obtain ⟨text, cell⟩ := held.of_ptr isPtr
    cases atTop.symm.trans cell

/-- A client needs nine objects at most. -/
theorem size_le (fleet : Fleet h ms lost) : h.size ≤ 9 * ms.length + lost.length := by
  choose layout held using fleet.held
  let objects := ms.attach.flatMap fun m => (layout m.1 m.2).objects m.1.1
  have inObjects : h.ids ⊆ objects ++ lost := by
    intro q mem
    obtain ⟨o, isObject, rfl⟩ := List.mem_map.mp mem
    have cell : h.cell? o.id = some (o.owners, o.value) := by
      rw [Heap.cell?, Heap.object?_of_mem isObject, Option.map_some]
    rcases fleet.covered _ _ _ cell with ⟨p, isPtr, inside⟩ | isLost
    · obtain ⟨m, member, rfl⟩ := List.mem_map.mp isPtr
      refine List.mem_append_left _ (List.mem_flatMap.mpr ⟨⟨m, member⟩, List.mem_attach ms _, ?_⟩)
      exact (held m member).in_block cell inside
    · exact List.mem_append_right _ isLost
  have few : objects.length ≤ ms.attach.length * 9 := by
    rw [List.length_flatMap]
    refine (List.sum_le_card_nsmul _ 9 ?_).trans_eq (by rw [List.length_map]; rfl)
    intro n mem
    obtain ⟨m, -, rfl⟩ := List.mem_map.mp mem
    exact Layout.length_objects _ _
  calc h.size = h.ids.length := (List.length_map _).symm
    _ ≤ (objects ++ lost).length := (h.distinct.subperm inObjects).length_le
    _ = objects.length + lost.length := List.length_append
    _ ≤ ms.attach.length * 9 + lost.length := Nat.add_le_add_right few _
    _ = 9 * ms.length + lost.length := by rw [List.length_attach, Nat.mul_comm]

end Fleet

/-! ## One input -/

/-- Whether `openvpn_client_find_or_make` stops at a client. -/
def OpenvpnClient.isAt (host : CStr) (port : UInt16) (c : OpenvpnClient) : Bool :=
  c.cfg.remoteHost == some host && c.cfg.remotePort == port

theorem findOrMake_ok {h : Heap VpnCell} (host : CStr) (port : UInt16)
    {ms : List (Ptr × OpenvpnClient)} (held : ∀ m ∈ ms, ∃ l, Held h m.1 l m.2)
    (hosted : ∀ m ∈ ms, m.2.cfg.remoteHost.isSome = true) :
    VpnM.findOrMake host port (ms.map Prod.fst) h =
      .ok ((ms.find? fun m => m.2.isAt host port).map Prod.fst, h) := by
  induction ms with
  | nil => rfl
  | cons m ms ih =>
    obtain ⟨l, here⟩ := held m List.mem_cons_self
    obtain ⟨configured, isHost⟩ := Option.isSome_iff_exists.mp (hosted m List.mem_cons_self)
    have isWanted : m.2.isAt host port = (host == configured && m.2.cfg.remotePort == port) := by
      rw [OpenvpnClient.isAt, isHost, BEq.comm (a := host)]
      rfl
    rw [List.map_cons, VpnM.findOrMake, bind_ok (VpnM.loadClient_ok here.client)]
    refine (bind_ok (pure_ok l.cfg h) _).trans ?_
    refine (bind_ok (VpnM.matchHost_ok here isHost host) _).trans ?_
    refine (bind_ok (VpnM.loadCfg_ok here.cfg) _).trans ?_
    rw [List.find?_cons, isWanted]
    cases host == configured && m.2.cfg.remotePort == port with
    | true => rfl
    | false =>
      exact ih (fun m mem => held m (List.mem_cons_of_mem _ mem))
        fun m mem => hosted m (List.mem_cons_of_mem _ mem)

/-- Closing the connection or not, the client is gone with all it had. -/
theorem clientDestroy_ok {h : Heap VpnCell} {vpn : Ptr} {l : Layout} {c : OpenvpnClient}
    (held : Held h vpn l c) (chained : h.Chained) (isOpen : Bool) (vpns : List Ptr) :
    ∃ h', VpnM.clientDestroy vpn isOpen vpns h = .ok (vpns.erase vpn, h') ∧ h'.Chained ∧
      h.Frame vpn h' ∧ h'.cell? vpn = none := by
  obtain ⟨h₁, l₁, c₁, close, sameMgmt, chained₁, held₁, frame₁⟩ : ∃ h₁ l₁ c₁,
      VpnM.streamClose vpn isOpen h = .ok ((), h₁) ∧ l₁.mgmt = l.mgmt ∧
        h₁.Chained ∧ Held h₁ vpn l₁ c₁ ∧ h.Frame vpn h₁ := by
    cases isOpen with
    | true =>
      obtain ⟨h₁, l₁, after⟩ := VpnM.disconnectCb_does vpn c h l chained held
      exact ⟨h₁, l₁, _, after⟩
    | false => exact ⟨h, l, c, rfl, rfl, chained, held, Heap.Frame.refl vpn h⟩
  have atMgmt := held₁.parts.mgmt
  rw [sameMgmt] at atMgmt
  obtain ⟨a, atClient⟩ := held₁.parts.client
  have freeMgmt : VpnM.tallocFree (some l.mgmt) h₁ = .ok ((), h₁.free l.mgmt) :=
    bind_ok (VpnM.load_ok (Heap.get?_of_cell atMgmt)) _
  have atClient₂ : (h₁.free l.mgmt).cell? vpn = some ([], a) := by
    refine Heap.cell_free atClient ?_ (List.not_mem_nil)
    rintro rfl
    rw [atClient] at atMgmt
    cases atMgmt
  have freeClient : VpnM.tallocFree (some vpn) (h₁.free l.mgmt) =
      .ok ((), (h₁.free l.mgmt).free vpn) :=
    bind_ok (VpnM.load_ok (Heap.get?_of_cell atClient₂)) _
  refine ⟨(h₁.free l.mgmt).free vpn, ?_, (chained₁.free _).free _, ?_, Heap.cell?_free_self _ vpn⟩
  · rw [VpnM.clientDestroy, bind_ok (VpnM.loadClient_ok held.client)]
    refine (bind_ok close _).trans ((bind_ok freeMgmt _).trans ?_)
    exact bind_ok freeClient _
  · exact frame₁.trans ((Heap.frame_free chained₁ atMgmt (.inr (by simp))).trans
      (Heap.frame_free (chained₁.free _) atClient₂ (.inl rfl)))

/-- What the input does when the clients are just a list. -/
def VpnInput.spec (input : VpnInput) (clients : List OpenvpnClient) :
    VpnOutput × List OpenvpnClient :=
  match input with
  | .add host port setup =>
    if clients.any (·.isAt host port) then (.result .success, clients)
    else if setup = .opened then
      (.result .success,
        clients ++ [OsmoSysmon.openvpnClientCreate (ascii "OpenVPN") host port])
    else (.result .warning, clients)
  | .remove host port _ =>
    if clients.any (·.isAt host port) then
      (.result .success, clients.eraseP (·.isAt host port))
    else (.result .warning, clients)
  | .callback i event => (.done, clients.modify i (event.apply ·))
  | .poll => (.reports (clients.filterMap OpenvpnClient.report?), clients)

/-- How many messages the input loses: a poll loses one for each client that has no
    connection. -/
def VpnInput.loses (input : VpnInput) (clients : List OpenvpnClient) : Nat :=
  match input with
  | .poll => clients.countP fun c => !c.connected
  | _ => 0

/-- What it does, and the messages counted that have been lost. -/
def VpnInput.specLost (input : VpnInput) (s : List OpenvpnClient × Nat) :
    VpnOutput × (List OpenvpnClient × Nat) :=
  ((input.spec s.1).1, (input.spec s.1).2, s.2 + input.loses s.1)

/-- Memory and list of the daemon are those of the clients. -/
def Represents (s : Heap VpnCell × List Ptr) (t : List OpenvpnClient × Nat) : Prop :=
  ∃ ms lost, Fleet s.1 ms lost ∧ s.2 = ms.map Prod.fst ∧ t = (ms.map Prod.snd, lost.length)

section

variable {h : Heap VpnCell} {ms : List (Ptr × OpenvpnClient)} {lost : List Ptr}

theorem any_isAt (ms : List (Ptr × OpenvpnClient)) (host : CStr) (port : UInt16) :
    (ms.map Prod.snd).any (·.isAt host port) = (ms.find? fun m => m.2.isAt host port).isSome := by
  rw [List.any_map, List.isSome_find?]
  rfl

/-- Memory follows the list of clients in what an input does. -/
def InStep (input : VpnInput) (h : Heap VpnCell) (ms : List (Ptr × OpenvpnClient))
    (lost : List Ptr) : Prop :=
  ∃ h' ms' lost' output, input.exec (ms.map Prod.fst) h = .ok ((output, ms'.map Prod.fst), h') ∧
    Fleet h' ms' lost' ∧ input.spec (ms.map Prod.snd) = (output, ms'.map Prod.snd) ∧
    lost'.length = lost.length + input.loses (ms.map Prod.snd)

theorem add_inStep (fleet : Fleet h ms lost) (host : CStr) (port : UInt16) (setup : TcpSetup) :
    InStep (.add host port setup) h ms lost := by
  have find := findOrMake_ok host port fleet.held fleet.hosted
  have known := any_isAt ms host port
  cases found : ms.find? fun m => m.2.isAt host port with
  | some m =>
    rw [found] at find known
    have create : VpnM.clientCreate (ascii "OpenVPN") host port setup (ms.map Prod.fst) h =
        .ok ((true, ms.map Prod.fst), h) := bind_ok find _
    exact ⟨h, ms, lost, .result .success, bind_ok create _, fleet, if_pos known, rfl⟩
  | none =>
    rw [found] at find known
    obtain ⟨h₁, make, grown₁⟩ := VpnM.clientMake_ok fleet.chained (ascii "OpenVPN") host port
    have new : (VpnInput.add host port setup).spec (ms.map Prod.snd) = _ :=
      if_neg (by rw [known]; exact Bool.false_ne_true)
    by_cases opened : setup = .opened
    · obtain ⟨h₂, connect, grown₂⟩ := VpnM.clientConnect_opened grown₁ (ms.map Prod.fst)
      have create : VpnM.clientCreate (ascii "OpenVPN") host port setup (ms.map Prod.fst) h =
          .ok ((true, ms.map Prod.fst ++ [h.next]), h₂) :=
        (bind_ok find _).trans ((bind_ok make _).trans (opened ▸ connect))
      refine ⟨h₂, ms ++ [(h.next, OsmoSysmon.openvpnClientCreate (ascii "OpenVPN") host port)],
        lost, .result .success, ?_, fleet.add grown₂.chained (held_new grown₂) grown₂.frame rfl,
        ?_, rfl⟩
      · rw [List.map_append]
        exact bind_ok create _
      · rw [List.map_append]
        exact new.trans (if_pos opened)
    · obtain ⟨h₂, connect, chained₂, frame₂, gone⟩ :=
        VpnM.clientConnect_failed grown₁ opened (ms.map Prod.fst)
      have create : VpnM.clientCreate (ascii "OpenVPN") host port setup (ms.map Prod.fst) h =
          .ok ((false, ms.map Prod.fst), h₂) :=
        (bind_ok find _).trans ((bind_ok make _).trans connect)
      refine ⟨h₂, ms, lost, .result .warning, bind_ok create _, ?_, new.trans (if_neg opened), rfl⟩
      refine fleet.without chained₂ frame₂ (top_of_none h.cell?_next) gone (List.Sublist.refl ms)
        ?_ fleet.lost_ne_next
      exact fun m => ⟨fun mem => ⟨mem, fleet.ne_next m mem⟩, And.left⟩

theorem remove_inStep (fleet : Fleet h ms lost) (host : CStr) (port : UInt16) (isOpen : Bool) :
    InStep (.remove host port isOpen) h ms lost := by
  have find := findOrMake_ok host port fleet.held fleet.hosted
  have known := any_isAt ms host port
  cases found : ms.find? fun m => m.2.isAt host port with
  | none =>
    rw [found] at find known
    exact ⟨h, ms, lost, .result .warning, bind_ok find _, fleet,
      if_neg (by rw [known]; exact Bool.false_ne_true), rfl⟩
  | some m =>
    rw [found] at find known
    obtain ⟨isWanted, before, after, rfl, skipped⟩ := List.find?_eq_some_iff_append.mp found
    have isMember : m ∈ before ++ m :: after := by simp
    obtain ⟨l, held⟩ := fleet.held m isMember
    obtain ⟨h', destroy, chained', frame, gone⟩ := clientDestroy_ok held fleet.chained isOpen
      ((before ++ m :: after).map Prod.fst)
    have erased : ((before ++ m :: after).map Prod.fst).erase m.1 = (before ++ after).map Prod.fst := by
      rw [List.map_append, List.map_cons, List.erase_append_right, List.erase_cons_head,
        List.map_append]
      intro mem
      obtain ⟨m', mem', same⟩ := List.mem_map.mp mem
      exact fleet.apart m' (List.mem_append_left after mem') same
    have erasedP : ((before ++ m :: after).map Prod.snd).eraseP (·.isAt host port) =
        (before ++ after).map Prod.snd := by
      rw [List.map_append, List.map_cons, List.eraseP_append_right, List.eraseP_cons_of_pos isWanted,
        List.map_append]
      intro c mem
      obtain ⟨m', mem', rfl⟩ := List.mem_map.mp mem
      simpa using skipped m' mem'
    refine ⟨h', before ++ after, lost, .result .success, ?_, ?_, ?_, rfl⟩
    · rw [← erased]
      exact (bind_ok find _).trans (bind_ok destroy _)
    · refine fleet.without chained' frame held.top gone
        ((List.sublist_cons_self m after).append_left before) (fun m' => ?_)
        fun q => fleet.ne_of_lost isMember
      rw [List.perm_middle.mem_iff, List.mem_cons]
      refine ⟨fun mem => ⟨.inr mem, fleet.apart m' mem⟩, fun ⟨mem, other⟩ => ?_⟩
      exact mem.resolve_left fun same => other (by rw [same])
    · rw [← erasedP]
      exact if_pos known

theorem callback_inStep (fleet : Fleet h ms lost) (i : Nat) (event : VpnCallback) :
    InStep (.callback i event) h ms lost := by
  cases found : ms[i]? with
  | none =>
    have missing : (ms.map Prod.fst)[i]? = none := by rw [List.getElem?_map, found]; rfl
    refine ⟨h, ms, lost, .done, ?_, fleet, ?_, rfl⟩
    · rw [VpnInput.exec, missing]
      rfl
    · rw [VpnInput.spec, List.modify_eq_self]
      rw [List.length_map]
      exact List.getElem?_eq_none_iff.mp found
  | some m =>
    obtain ⟨short, rfl⟩ := List.getElem?_eq_some_iff.mp found
    have split : ms = ms.take i ++ ms[i] :: ms.drop (i + 1) := by
      rw [List.getElem_cons_drop, List.take_append_drop]
    obtain ⟨l, held⟩ := fleet.held ms[i] (List.getElem_mem short)
    obtain ⟨h', l', run, -, chained', held', frame⟩ :=
      event.run_does ms[i].1 ms[i].2 h l fleet.chained held
    have fleet' : Fleet h (ms.take i ++ ms[i] :: ms.drop (i + 1)) lost := by
      rw [← split]
      exact fleet
    have isPtr : (ms.map Prod.fst)[i]? = some ms[i].1 := by rw [List.getElem?_map, found]; rfl
    have samePtrs : (ms.take i ++ (ms[i].1, event.apply ms[i].2) :: ms.drop (i + 1)).map Prod.fst =
        ms.map Prod.fst := by
      refine Eq.trans ?_ (congrArg (List.map Prod.fst) split).symm
      rw [List.map_append, List.map_cons, List.map_append, List.map_cons]
    refine ⟨h', ms.take i ++ (ms[i].1, event.apply ms[i].2) :: ms.drop (i + 1), lost, .done, ?_,
      fleet'.replace chained' held' frame (event.apply_cfg _), ?_, rfl⟩
    · rw [samePtrs, VpnInput.exec, isPtr]
      exact bind_ok run _
    · rw [VpnInput.spec, List.modify_eq_take_cons_drop (by rw [List.length_map]; exact short),
        List.getElem_map, List.map_append, List.map_cons, List.map_take, List.map_drop]

/-- The polls of some of the clients, one after the other. -/
theorem mapM_clientPoll (fleet : Fleet h ms lost) {polled : List (Ptr × OpenvpnClient)}
    (sub : ∀ m ∈ polled, m ∈ ms) :
    ∃ h' lost', (polled.map Prod.fst).mapM VpnM.clientPoll h =
        .ok ((polled.map Prod.snd).filterMap OpenvpnClient.report?, h') ∧ Fleet h' ms lost' ∧
      lost'.length = lost.length + (polled.map Prod.snd).countP fun c => !c.connected := by
  induction polled generalizing h lost with
  | nil => exact ⟨h, lost, rfl, fleet, rfl⟩
  | cons m polled ih =>
    have isMember := sub m List.mem_cons_self
    obtain ⟨l, here⟩ := fleet.held m isMember
    obtain ⟨configured, isHost⟩ := Option.isSome_iff_exists.mp (fleet.hosted m isMember)
    obtain ⟨report, isReport⟩ : ∃ report, m.2.report? = some report := by
      rw [OpenvpnClient.report?, makeAuthority, isHost]
      exact ⟨_, rfl⟩
    have poll := VpnM.clientPoll_ok here (here.message fleet.chained) isReport
    have later := fun m' mem => sub m' (List.mem_cons_of_mem m mem)
    -- the message is lost unless there is a connection
    obtain ⟨lost₁, fleet₁, count₁⟩ : ∃ lost₁, Fleet (VpnM.afterPoll m.2.connected h) ms lost₁ ∧
        lost₁.length = lost.length + if !m.2.connected then 1 else 0 := by
      cases m.2.connected with
      | true => exact ⟨lost, fleet.sent, rfl⟩
      | false => exact ⟨_, fleet.message, List.length_append⟩
    obtain ⟨h', lost', run, fleet', count'⟩ := ih fleet₁ later
    refine ⟨h', lost', ?_, fleet', ?_⟩
    · rw [List.map_cons, List.mapM_cons, bind_ok poll, bind_ok run, List.map_cons,
        List.filterMap_cons_some isReport]
      rfl
    · rw [count', count₁, List.map_cons, List.countP_cons]
      omega

theorem poll_inStep (fleet : Fleet h ms lost) : InStep .poll h ms lost := by
  obtain ⟨h', lost', run, fleet', more⟩ := mapM_clientPoll fleet fun _ mem => mem
  exact ⟨h', ms, lost', _, bind_ok run _, fleet', rfl, more⟩

end

theorem step_simulates : Simulation.Simulates Represents VpnInput.step VpnInput.specLost := by
  rintro input ⟨h, vpns⟩ _ ⟨ms, lost, fleet, isPtrs, rfl⟩
  obtain rfl : vpns = ms.map Prod.fst := isPtrs
  obtain ⟨h', ms', lost', output, run, fleet', isSpec, more⟩ : InStep input h ms lost := by
    cases input with
    | add host port setup => exact add_inStep fleet host port setup
    | remove host port isOpen => exact remove_inStep fleet host port isOpen
    | callback i event => exact callback_inStep fleet i event
    | poll => exact poll_inStep fleet
  rw [VpnInput.specLost, isSpec, ← more]
  exact ⟨(h', ms'.map Prod.fst), ok_bind run _, ms', lost', fleet', rfl, rfl⟩

/-- How many messages a run loses. -/
def losses : List VpnInput → List OpenvpnClient → Nat
  | [], _ => 0
  | input :: inputs, clients => input.loses clients + losses inputs (input.spec clients).2

/-- Counting changes nothing else. -/
theorem outputs_specLost (inputs : List VpnInput) (clients : List OpenvpnClient) (n : Nat) :
    Simulation.outputs VpnInput.specLost inputs (clients, n) =
        Simulation.outputs VpnInput.spec inputs clients ∧
      Simulation.final VpnInput.specLost inputs (clients, n) =
        (Simulation.final VpnInput.spec inputs clients, n + losses inputs clients) := by
  induction inputs generalizing clients n with
  | nil => exact ⟨rfl, rfl⟩
  | cons input inputs ih =>
    obtain ⟨sameOutputs, sameFinal⟩ := ih (input.spec clients).2 (n + input.loses clients)
    constructor
    · exact congrArg _ sameOutputs
    · rw [losses, ← Nat.add_assoc]
      exact sameFinal

/-- **Commands that add and remove clients, callbacks of any client and polls come in any
    order.  No step uses freed memory, and every output is that of a plain list of clients.
    Afterwards no pointer that can be reached from the list of clients dangles, and what is
    allocated can be reached from it, but for one message for each poll of a client without a
    connection; a client has nine objects at most.** -/
theorem openvpn_memory (inputs : List VpnInput) :
    ∃ h vpns, ∃ lost : List Ptr, Simulation.runs VpnInput.step inputs (Heap.empty, []) =
        .ok (Simulation.outputs VpnInput.spec inputs [], (h, vpns)) ∧
      vpns.length = (Simulation.final VpnInput.spec inputs []).length ∧
      (∀ p, (h.get? p).isSome = true ↔ Heap.Reach VpnCell.points vpns h p ∨ p ∈ lost) ∧
      (∀ p ∈ lost, h.get? p = some .msgb ∧ ¬ Heap.Reach VpnCell.points vpns h p) ∧
      lost.Nodup ∧ lost.length = losses inputs [] ∧ h.size ≤ 9 * vpns.length + lost.length := by
  have start : Represents (Heap.empty, []) ([], 0) := ⟨[], [], fleet_empty, rfl, rfl⟩
  obtain ⟨⟨h, vpns⟩, run, ms, lost, fleet, isPtrs, isFinal⟩ := step_simulates.runs inputs start
  obtain rfl : vpns = ms.map Prod.fst := isPtrs
  have memory : Fleet h ms lost := fleet
  obtain ⟨sameOutputs, sameFinal⟩ := outputs_specLost inputs [] 0
  rw [sameFinal, Prod.mk.injEq, Nat.zero_add] at isFinal
  rw [sameOutputs] at run
  refine ⟨h, _, lost, run, ?_, memory.tidy, fun p => memory.lost_unreachable, memory.lostOnce,
    isFinal.2.symm, ?_⟩
  · rw [isFinal.1, List.length_map, List.length_map]
  · rw [List.length_map]
    exact memory.size_le

end OsmoSysmon
