import OsmoSysmon.OpenVpn.Memory

/-! # The callbacks in memory

Each callback finds the client whole and leaves it whole, and has touched nothing outside
its block.  Only `disconnect_cb` passes through a state in between with dangling pointers:
it frees two strings before it clears the fields.
-/

namespace OsmoSysmon

open CText Talloc Loop

/-- Strings of a client have been freed or allocated; the structures are as before. -/
structure Rewires (vpn : Ptr) (l l' : Layout) (h h' : Heap VpnCell) : Prop where
  chained : h'.Chained
  parts : Parts h' vpn l'
  structs : ∀ q, l.IsStruct vpn q → h'.get? q = h.get? q
  frame : h.Frame vpn h'

section

variable {h : Heap VpnCell} {vpn : Ptr} {l : Layout} {c : OpenvpnClient}

theorem Rewires.refl (chained : h.Chained) (parts : Parts h vpn l) : Rewires vpn l l h h where
  chained := chained
  parts := parts
  structs _ _ := rfl
  frame := Heap.Frame.refl vpn h

theorem Rewires.trans {h' h'' : Heap VpnCell} {s : Slot} {v : Option (Ptr × CStr)} {l' : Layout}
    (first : Rewires vpn l (l.assign s v) h h') (second : Rewires vpn (l.assign s v) l' h' h'') :
    Rewires vpn l l' h h'' where
  chained := second.chained
  parts := second.parts
  structs q isStruct := (second.structs q isStruct).trans (first.structs q isStruct)
  frame := first.frame.trans second.frame

namespace VpnM

/-! ## Reading -/

theorem load_ok {q : Ptr} {a : VpnCell} (live : h.get? q = some a) : load q h = .ok (a, h) := by
  rw [load, bind_ok (get_ok h), live]
  rfl

theorem store_ok {q : Ptr} {a : VpnCell} (live : h.get? q = some a) (value : VpnCell) :
    store q value h = .ok ((), h.set q value) := by
  rw [store, bind_ok (load_ok live)]
  rfl

theorem loadClient_ok {v : VpnStruct} (live : h.get? vpn = some (.client v)) :
    loadClient vpn h = .ok (v, h) := by
  rw [loadClient, bind_ok (load_ok live)]
  rfl

theorem loadCfg_ok {q : Ptr} {v : CfgStruct} (live : h.get? q = some (.hostCfg v)) :
    loadCfg q h = .ok (v, h) := by
  rw [loadCfg, bind_ok (load_ok live)]
  rfl

theorem loadStr_some {q : Ptr} {text : CStr} (live : h.get? q = some (.str text)) :
    loadStr (some q) h = .ok (text, h) := by
  rw [loadStr]
  exact (bind_ok (pure_ok q h) _).trans (bind_ok (load_ok live) _)

theorem remCfg_ok (held : Held h vpn l c) : remCfg vpn h = .ok (l.rem, h) := by
  rw [remCfg, bind_ok (loadClient_ok held.client)]
  rfl

theorem exists_str (held : Held h vpn l c) {s : Slot} {text : CStr} (isText : s.text c = some text) :
    ∃ p, l.ptr s = some p ∧ loadStr (some p) h = .ok (text, h) := by
  have known := held.text s
  rw [isText, Option.map_eq_some_iff] at known
  obtain ⟨⟨p, text'⟩, isStr, rfl⟩ := known
  refine ⟨p, by rw [Layout.ptr, isStr, Option.map_some], ?_⟩
  exact loadStr_some (Heap.get?_of_cell (held.parts.str s p text' isStr))

theorem loadStr_ok (held : Held h vpn l c) {s : Slot} {text : CStr} (isText : s.text c = some text) :
    loadStr (l.ptr s) h = .ok (text, h) := by
  obtain ⟨p, isPtr, read⟩ := exists_str held isText
  rw [isPtr, read]

theorem ptr_eq_none (held : Held h vpn l c) {s : Slot} (isNull : s.text c = none) :
    l.ptr s = none := by
  have known := held.text s
  rw [isNull, Option.map_eq_none_iff] at known
  rw [Layout.ptr, known, Option.map_none]

/-! ## Strings -/

theorem tallocFree_rewires (chained : h.Chained) (parts : Parts h vpn l) (s : Slot) :
    ∃ h', tallocFree (l.ptr s) h = .ok ((), h') ∧ Rewires vpn l (l.assign s none) h h' := by
  cases isStr : l.str s with
  | none =>
    refine ⟨h, ?_, ?_⟩
    · rw [Layout.ptr, isStr]
      rfl
    · have same := l.assign_self s
      rw [isStr] at same
      rw [same]
      exact .refl chained parts
  | some v =>
    obtain ⟨p, text⟩ := v
    have isCell := parts.str s p text isStr
    have freed := parts.free chained isStr
    refine ⟨h.free p, ?_, chained.free p, freed.1, ?_, freed.2⟩
    · rw [Layout.ptr, isStr]
      exact bind_ok (load_ok (Heap.get?_of_cell isCell)) _
    · intro q isStruct
      obtain ⟨os, a, cell, -⟩ := parts.struct_cell isStruct
      rw [Heap.get?_of_cell cell]
      refine Heap.get?_of_cell (Heap.cell_free cell ?_ (parts.leaf chained isStr cell))
      rintro rfl
      exact parts.not_struct isCell isStruct

theorem tallocStrdup_rewires (chained : h.Chained) (parts : Parts h vpn l) {s : Slot}
    (isNull : l.str s = none) (text : CStr) :
    ∃ p h', tallocStrdup (l.ctx s) (some text) h = .ok (some p, h') ∧
      Rewires vpn l (l.assign s (some (p, text))) h h' := by
  obtain ⟨os, a, isOwner, -⟩ := parts.struct_cell (l.ctx_struct vpn s)
  have put := parts.alloc isNull text
  refine ⟨h.next, _, rfl, chained.alloc isOwner _, put.1, ?_, put.2⟩
  intro q isStruct
  obtain ⟨os, a, cell, -⟩ := parts.struct_cell isStruct
  exact Heap.get?_alloc_of_ne (Heap.ne_next_of_cell cell)

theorem tallocReplaceString_rewires (chained : h.Chained) (parts : Parts h vpn l) (s : Slot)
    (text : CStr) :
    ∃ p h', tallocReplaceString (l.ctx s) (l.ptr s) text h = .ok (some p, h') ∧
      Rewires vpn l (l.assign s (some (p, text))) h h' := by
  obtain ⟨h₁, free, dropped⟩ := tallocFree_rewires chained parts s
  obtain ⟨p, h₂, strdup, put⟩ :=
    tallocStrdup_rewires dropped.chained dropped.parts (l.str_assign_self s none) text
  rw [Layout.assign_assign] at put
  exact ⟨p, h₂, (bind_ok free _).trans strdup, dropped.trans put⟩

end VpnM

/-! ## Structures -/

section

variable {l' : Layout} {h' : Heap VpnCell}

/-- The client is whole once `rem_cfg` says what it should. -/
theorem Rewires.storeRem (rewires : Rewires vpn l l' h h') (held : Held h vpn l c)
    (c' : OpenvpnClient) (isCfg : l'.cfg = l.cfg) (isRem : l'.rem = l.rem)
    (client : l'.clientCell c'.connected = l.clientCell c.connected)
    (cfg : l'.cfgCell c'.cfg.remotePort = l.cfgCell c.cfg.remotePort)
    (text : ∀ s, (l'.str s).map Prod.snd = s.text c') :
    ∃ h'', VpnM.store l.rem (l'.remCell c'.remCfg.remotePort) h' = .ok ((), h'') ∧
      h''.Chained ∧ Held h'' vpn l' c' ∧ h.Frame vpn h'' := by
  have atClient := (rewires.structs vpn (.inl rfl)).trans held.client
  have atCfg := (rewires.structs l.cfg (.inr (.inl rfl))).trans held.cfg
  have atRem := (rewires.structs l.rem (.inr (.inr rfl))).trans held.rem
  have written := rewires.parts.set (.inr (.inr isRem.symm)) (l'.remCell c'.remCfg.remotePort)
  refine ⟨_, VpnM.store_ok atRem _, rewires.chained.set _ _, ⟨written.1, ?_, ?_, ?_, text⟩,
    rewires.frame.trans written.2⟩
  · rw [Heap.get?_set_of_ne held.parts.rem_ne_client.symm, atClient, client]
  · rw [isCfg, Heap.get?_set_of_ne held.parts.cfg_ne_rem, atCfg, cfg]
  · rw [isRem, Heap.get?_set_self atRem]

/-- And once the client itself does. -/
theorem Rewires.storeClient (rewires : Rewires vpn l l' h h') (held : Held h vpn l c)
    (c' : OpenvpnClient) (isCfg : l'.cfg = l.cfg) (isRem : l'.rem = l.rem)
    (cfg : l'.cfgCell c'.cfg.remotePort = l.cfgCell c.cfg.remotePort)
    (rem : l'.remCell c'.remCfg.remotePort = l.remCell c.remCfg.remotePort)
    (text : ∀ s, (l'.str s).map Prod.snd = s.text c') :
    ∃ h'', VpnM.store vpn (l'.clientCell c'.connected) h' = .ok ((), h'') ∧
      h''.Chained ∧ Held h'' vpn l' c' ∧ h.Frame vpn h'' := by
  have atClient := (rewires.structs vpn (.inl rfl)).trans held.client
  have atCfg := (rewires.structs l.cfg (.inr (.inl rfl))).trans held.cfg
  have atRem := (rewires.structs l.rem (.inr (.inr rfl))).trans held.rem
  have written := rewires.parts.set (.inl rfl) (l'.clientCell c'.connected)
  refine ⟨_, VpnM.store_ok atClient _, rewires.chained.set _ _, ⟨written.1, ?_, ?_, ?_, text⟩,
    rewires.frame.trans written.2⟩
  · rw [Heap.get?_set_self atClient]
  · rw [isCfg, Heap.get?_set_of_ne held.parts.cfg_ne_client, atCfg, cfg]
  · rw [isRem, Heap.get?_set_of_ne held.parts.rem_ne_client, atRem, rem]

end

theorem Slot.text_assign (held : Held h vpn l c) {c' : OpenvpnClient} {s : Slot}
    {v : Option (Ptr × CStr)} (here : v.map Prod.snd = s.text c')
    (others : ∀ t, t ≠ s → t.text c' = t.text c) (t : Slot) :
    ((l.assign s v).str t).map Prod.snd = t.text c' := by
  by_cases same : t = s
  · rw [same, Layout.str_assign_self, here]
  · rw [Layout.str_assign_of_ne l same, held.text t, others t same]

namespace VpnM

/-- `m` makes `c'` of the client `c`, without a fault and with the same connection, and does
    nothing outside its block. -/
def Does (vpn : Ptr) (m : VpnM Unit) (c c' : OpenvpnClient) : Prop :=
  ∀ h l, h.Chained → Held h vpn l c →
    ∃ h' l', m h = .ok ((), h') ∧ l'.mgmt = l.mgmt ∧ h'.Chained ∧ Held h' vpn l' c' ∧
      h.Frame vpn h'

theorem Does.nothing (vpn : Ptr) (c : OpenvpnClient) : Does vpn (pure ()) c c :=
  fun h l chained held => ⟨h, l, rfl, rfl, chained, held, Heap.Frame.refl vpn h⟩

theorem Does.bind {m k : VpnM Unit} {c c' c'' : OpenvpnClient} (first : Does vpn m c c')
    (second : Does vpn k c' c'') : Does vpn (m >>= fun _ => k) c c'' := by
  intro h l chained held
  obtain ⟨h₁, l₁, run₁, mgmt₁, chained₁, held₁, frame₁⟩ := first h l chained held
  obtain ⟨h₂, l₂, run₂, mgmt₂, chained₂, held₂, frame₂⟩ := second h₁ l₁ chained₁ held₁
  exact ⟨h₂, l₂, (bind_ok run₁ _).trans run₂, mgmt₂.trans mgmt₁, chained₂, held₂,
    frame₁.trans frame₂⟩

/-! ## What the functions do -/

theorem updateName_does (vpn : Ptr) (c : OpenvpnClient) (newName : CStr) :
    Does vpn (do updateName (← remCfg vpn) newName) c
      { c with remCfg := OsmoSysmon.updateName c.remCfg newName } := by
  intro h l chained held
  obtain ⟨p, h₁, replace, rewires⟩ :=
    tallocReplaceString_rewires chained held.parts .remName newName
  obtain ⟨h₂, store, after⟩ :=
    rewires.storeRem held { c with remCfg := OsmoSysmon.updateName c.remCfg newName }
      rfl rfl rfl rfl (Slot.text_assign held rfl fun t other => by
        cases t <;> first | rfl | exact absurd rfl other)
  refine ⟨h₂, l.assign .remName (some (p, newName)), ?_, rfl, after⟩
  rw [bind_ok (remCfg_ok held), updateName, bind_ok (loadCfg_ok held.rem)]
  exact (bind_ok replace _).trans store

theorem updateHost_does (vpn : Ptr) (c : OpenvpnClient) (newHost : CStr) :
    Does vpn (do updateHost (← remCfg vpn) newHost) c
      { c with remCfg := OsmoSysmon.updateHost c.remCfg newHost } := by
  intro h l chained held
  obtain ⟨p, h₁, replace, rewires⟩ :=
    tallocReplaceString_rewires chained held.parts .remHost newHost
  obtain ⟨h₂, store, after⟩ :=
    rewires.storeRem held { c with remCfg := OsmoSysmon.updateHost c.remCfg newHost }
      rfl rfl rfl rfl (Slot.text_assign held rfl fun t other => by
        cases t <;> first | rfl | exact absurd rfl other)
  refine ⟨h₂, l.assign .remHost (some (p, newHost)), ?_, rfl, after⟩
  rw [bind_ok (remCfg_ok held), updateHost, bind_ok (loadCfg_ok held.rem)]
  exact (bind_ok replace _).trans store

theorem connected_does (vpn : Ptr) (c : OpenvpnClient) (connected : Bool) :
    Does vpn (do
      let v ← loadClient vpn
      store vpn (.client { v with connected })) c { c with connected } := by
  intro h l chained held
  obtain ⟨h₁, store, after⟩ :=
    (Rewires.refl chained held.parts).storeClient held { c with connected } rfl rfl rfl rfl
      held.text
  refine ⟨h₁, l, ?_, rfl, after⟩
  rw [bind_ok (loadClient_ok held.client)]
  exact store

theorem storeToken_does (vpn : Ptr) (c : OpenvpnClient) (i : Nat) (tok : CStr) :
    Does vpn (storeToken vpn i tok) c (OsmoSysmon.storeToken c i tok) := by
  match i with
  | 0 => exact .nothing vpn c
  | 1 => exact updateName_does vpn c tok
  | 2 =>
    intro h l chained held
    obtain ⟨h₁, l₁, update, after⟩ := updateName_does vpn c
      ((c.remCfg.name ++ ascii " (" ++ tok ++ ascii ")").take (stateBufSize - 1)) h l chained held
    refine ⟨h₁, l₁, ?_, after⟩
    refine Eq.trans ?_ update
    refine (bind_ok (remCfg_ok held) _).trans ((bind_ok (loadCfg_ok held.rem) _).trans ?_)
    exact (bind_ok (loadStr_ok held (s := .remName) rfl) _)
  | 3 =>
    intro h l chained held
    obtain ⟨p, h₁, replace, rewires⟩ :=
      tallocReplaceString_rewires chained held.parts .tunIp tok
    obtain ⟨h₂, store, after⟩ :=
      rewires.storeClient held { c with tunIp := some tok } rfl rfl rfl rfl
        (Slot.text_assign held rfl fun t other => by
        cases t <;> first | rfl | exact absurd rfl other)
    refine ⟨h₂, l.assign .tunIp (some (p, tok)), ?_, rfl, after⟩
    refine (bind_ok (loadClient_ok held.client) _).trans ?_
    exact (bind_ok (pure_ok l.rem h) _).trans ((bind_ok replace _).trans store)
  | 4 => exact updateHost_does vpn c tok
  | 5 =>
    intro h l chained held
    obtain ⟨h₁, store, after⟩ :=
      (Rewires.refl chained held.parts).storeRem held
        { c with remCfg := { c.remCfg with remotePort := UInt16.ofInt (atoi tok) } }
        rfl rfl rfl rfl held.text
    refine ⟨h₁, l, ?_, rfl, after⟩
    refine (bind_ok (remCfg_ok held) _).trans ((bind_ok (loadCfg_ok held.rem) _).trans ?_)
    exact store
  | _ + 6 => exact .nothing vpn c

theorem parseTokens_does (vpn : Ptr) (c : OpenvpnClient) (saved : CStr) (left i : Nat) :
    Does vpn (parseTokens vpn saved left i) c (OsmoSysmon.parseTokens c saved left i) := by
  induction left generalizing c saved i with
  | zero => exact .nothing vpn c
  | succ left ih =>
    rw [parseTokens, OsmoSysmon.parseTokens]
    cases strtok comma saved with
    | none => exact .nothing vpn c
    | some found =>
      obtain ⟨tok, saved⟩ := found
      exact (storeToken_does vpn c i tok).bind (ih (OsmoSysmon.storeToken c i tok) saved (i + 1))

theorem parseState_does (m : List UInt8) (vpn : Ptr) (c : OpenvpnClient) :
    Does vpn (parseState m vpn) c (OsmoSysmon.parseState m c) := by
  cases m with
  | nil => exact .nothing vpn c
  | cons b bs =>
    rw [parseState, OsmoSysmon.parseState]
    split
    · exact parseTokens_does vpn c _ _ _
    · exact .nothing vpn c

theorem connectCb_does (vpn : Ptr) (c : OpenvpnClient) :
    Does vpn (connectCb vpn) c (OsmoSysmon.connectCb c) := by
  have both := (updateName_does vpn c (ascii "connected to openvpn management socket")).bind
    (connected_does vpn _ true)
  rw [bind_assoc] at both
  exact both

/-- What `disconnect_cb` does once the name has been replaced. -/
theorem disconnectCb_clears (vpn : Ptr) (c : OpenvpnClient) :
    Does vpn (do
      let v ← loadClient vpn
      store vpn (.client { v with connected := false })
      tallocFree v.tunIp
      let cfg ← loadCfg (← deref v.remCfg)
      tallocFree cfg.remoteHost
      let v ← loadClient vpn
      store vpn (.client { v with tunIp := none })
      let cfg ← remCfg vpn
      let cfg' ← loadCfg cfg
      store cfg (.hostCfg { cfg' with remoteHost := none })) c
      { c with
        remCfg := { c.remCfg with remoteHost := none }, tunIp := none, connected := false } := by
  intro h l chained held
  have atClient := loadClient_ok held.client
  obtain ⟨h₁, mark, chained₁, held₁, frame₁⟩ :=
    (Rewires.refl chained held.parts).storeClient held { c with connected := false }
      rfl rfl rfl rfl held.text
  -- the strings go, and the fields still point to them
  obtain ⟨h₂, freeIp, dropIp⟩ := tallocFree_rewires chained₁ held₁.parts .tunIp
  obtain ⟨h₃, freeHost, dropHost⟩ := tallocFree_rewires dropIp.chained dropIp.parts .remHost
  have drop := dropIp.trans dropHost
  have atClient₃ := (drop.structs vpn (.inl rfl)).trans held₁.client
  have atCfg₃ := (drop.structs l.cfg (.inr (.inl rfl))).trans held₁.cfg
  have atRem₂ := (dropIp.structs l.rem (.inr (.inr rfl))).trans held₁.rem
  have atRem₃ := (drop.structs l.rem (.inr (.inr rfl))).trans held₁.rem
  obtain ⟨l', isLayout⟩ : ∃ l', l' = (l.assign .tunIp none).assign .remHost none := ⟨_, rfl⟩
  rw [← isLayout] at drop
  have isCfg : l'.cfg = l.cfg := by rw [isLayout]; rfl
  have isRem : l'.rem = l.rem := by rw [isLayout]; rfl
  have sameCfg : l'.cfgCell c.cfg.remotePort = l.cfgCell c.cfg.remotePort := by rw [isLayout]; rfl
  -- the fields are cleared
  have apart := held.parts.rem_ne_client
  obtain ⟨h₄, isHeap₄⟩ : ∃ h₄, h₄ = h₃.set vpn (l'.clientCell false) := ⟨_, rfl⟩
  have atClient₄ : h₄.get? vpn = some (l'.clientCell false) := by
    rw [isHeap₄, Heap.get?_set_self atClient₃]
  have atCfg₄ : h₄.get? l.cfg = some (l.cfgCell c.cfg.remotePort) := by
    rw [isHeap₄, Heap.get?_set_of_ne held.parts.cfg_ne_client, atCfg₃]
  have atRem₄ : h₄.get? l.rem = some (l.remCell c.remCfg.remotePort) := by
    rw [isHeap₄, Heap.get?_set_of_ne apart, atRem₃]
  have clearIp := drop.parts.set (.inl rfl) (l'.clientCell false)
  rw [← isHeap₄] at clearIp
  have clearHost := clearIp.1.set (.inr (.inr rfl)) (l'.remCell c.remCfg.remotePort)
  rw [isRem] at clearHost
  have storeIp : store vpn (l'.clientCell false) h₃ = .ok ((), h₄) := by
    rw [store_ok atClient₃, isHeap₄]
  refine ⟨h₄.set l.rem (l'.remCell c.remCfg.remotePort), l', ?_, by rw [isLayout]; rfl,
    (isHeap₄ ▸ drop.chained.set _ _ : h₄.Chained).set _ _, ⟨clearHost.1, ?_, ?_, ?_, ?_⟩,
    frame₁.trans (drop.frame.trans (clearIp.2.trans clearHost.2))⟩
  · rw [bind_ok atClient]
    refine (bind_ok mark _).trans ((bind_ok freeIp _).trans ?_)
    refine (bind_ok (pure_ok l.rem h₂) _).trans ((bind_ok (loadCfg_ok atRem₂) _).trans ?_)
    refine (bind_ok freeHost _).trans ((bind_ok (loadClient_ok atClient₃) _).trans ?_)
    have getRem : remCfg vpn h₄ = .ok (l.rem, h₄) := by
      rw [remCfg, bind_ok (loadClient_ok atClient₄), isLayout]
      rfl
    have storeHost := store_ok atRem₄ (l'.remCell c.remCfg.remotePort)
    rw [isLayout] at storeIp storeHost
    refine (bind_ok storeIp _).trans ((bind_ok getRem _).trans ?_)
    refine (bind_ok (loadCfg_ok atRem₄) _).trans ?_
    rw [isLayout]
    exact storeHost
  · rw [Heap.get?_set_of_ne apart.symm, atClient₄]
  · rw [isCfg, Heap.get?_set_of_ne held.parts.cfg_ne_rem, atCfg₄, sameCfg]
  · rw [isRem, Heap.get?_set_self atRem₄]
  · intro s
    rw [isLayout]
    cases s with
    | cfgName => exact held.text .cfgName
    | cfgHost => exact held.text .cfgHost
    | remName => exact held.text .remName
    | remHost => rfl
    | tunIp => rfl

theorem disconnectCb_does (vpn : Ptr) (c : OpenvpnClient) :
    Does vpn (disconnectCb vpn) c (OsmoSysmon.disconnectCb c) := by
  have both := (updateName_does vpn c (ascii "disconnected from openvpn management socket")).bind
    (disconnectCb_clears vpn _)
  rw [bind_assoc] at both
  exact both

/-- A callback in memory does what it does to the client. -/
theorem readCb_does (received : Option (List UInt8)) (vpn : Ptr) (c : OpenvpnClient) :
    Does vpn (readCb received vpn) c (OsmoSysmon.readCb received c) := by
  match received with
  | none => exact disconnectCb_does vpn c
  | some [] => exact (disconnectCb_does vpn c).bind (parseState_does [] vpn _)
  | some (b :: bs) => exact parseState_does (b :: bs) vpn c

end VpnM

def VpnCallback.apply (c : OpenvpnClient) : VpnCallback → OpenvpnClient
  | .connect => connectCb c
  | .disconnect => disconnectCb c
  | .read received => readCb received c

theorem VpnCallback.run_does (event : VpnCallback) (vpn : Ptr) (c : OpenvpnClient) :
    VpnM.Does vpn (event.run vpn) c (event.apply c) := by
  cases event with
  | connect => exact VpnM.connectCb_does vpn c
  | disconnect => exact VpnM.disconnectCb_does vpn c
  | read received => exact VpnM.readCb_does received vpn c

theorem VpnCallback.apply_cfg (event : VpnCallback) (c : OpenvpnClient) :
    (event.apply c).cfg = c.cfg := by
  cases event with
  | connect => exact step_cfg c .connect
  | disconnect => exact step_cfg c .disconnect
  | read received => exact step_cfg c (.read received)

/-! ## Reading -/

def OpenvpnClient.report? (c : OpenvpnClient) : Option VpnReport :=
  (makeAuthority c.cfg).map fun node =>
    ⟨node, openvpnClientValues c, if c.connected then some (ascii "state\n") else none⟩

namespace VpnM

theorem loadStr?_ok (held : Held h vpn l c) (s : Slot) :
    loadStr? (l.ptr s) h = .ok (s.text c, h) := by
  cases isText : s.text c with
  | none =>
    rw [ptr_eq_none held isText]
    rfl
  | some text =>
    obtain ⟨p, isPtr, read⟩ := exists_str held isText
    rw [isPtr]
    exact bind_ok read _

/-- For either of the two `host_cfg`. -/
theorem makeAuthority_ok (held : Held h vpn l c) {q : Ptr} {name : Option Ptr} {s : Slot}
    {cfg : HostCfg} (live : h.get? q = some (.hostCfg ⟨name, l.ptr s, cfg.remotePort⟩))
    (isHost : s.text c = cfg.remoteHost) :
    makeAuthority q h = .ok (OsmoSysmon.makeAuthority cfg, h) := by
  rw [makeAuthority, bind_ok (loadCfg_ok live), OsmoSysmon.makeAuthority, ← isHost]
  cases isText : s.text c with
  | none =>
    rw [ptr_eq_none held isText]
    rfl
  | some text =>
    obtain ⟨p, isPtr, read⟩ := exists_str held isText
    rw [isPtr]
    exact bind_ok read _

/-- What a poll leaves: its message, unless there is a connection to send it on. -/
def afterPoll (connected : Bool) (h : Heap VpnCell) : Heap VpnCell :=
  if connected then (h.alloc none .msgb).free h.next else h.alloc none .msgb

theorem clientPoll_ok (held : Held h vpn l c) (held' : Held (h.alloc none .msgb) vpn l c)
    {report : VpnReport} (isReport : c.report? = some report) :
    clientPoll vpn h = .ok (report, afterPoll c.connected h) := by
  obtain ⟨node, isNode, rfl⟩ := Option.map_eq_some_iff.mp isReport
  have remote := makeAuthority_ok held held.rem rfl
  have authority := makeAuthority_ok held held.cfg rfl
  rw [isNode] at authority
  have alloc : talloc none .msgb h = .ok (h.next, h.alloc none .msgb) := rfl
  have status := loadStr?_ok held' .remName
  have tunnel := loadStr?_ok held' .tunIp
  have atMgmt := load_ok (Heap.get?_of_cell held'.parts.mgmt)
  have atMsg : (h.alloc none .msgb).get? h.next = some .msgb := by
    rw [Heap.get?_eq_cell?, Heap.cell?_alloc_top, if_pos rfl]
    rfl
  have free : tallocFree (some h.next) (h.alloc none .msgb) =
      .ok ((), (h.alloc none .msgb).free h.next) := bind_ok (load_ok atMsg) _
  rw [clientPoll, bind_ok (loadClient_ok held.client)]
  refine (bind_ok (pure_ok l.rem h) _).trans ((bind_ok remote _).trans ?_)
  refine (bind_ok (pure_ok l.cfg h) _).trans ((bind_ok authority _).trans ?_)
  refine (bind_ok alloc _).trans ?_
  refine (bind_ok (loadCfg_ok held'.rem) _).trans ((bind_ok status _).trans ?_)
  refine (bind_ok tunnel _).trans ?_
  cases c.connected with
  | true =>
    have send : streamSend (some l.mgmt) h.next (h.alloc none .msgb) =
        .ok ((), (h.alloc none .msgb).free h.next) :=
      (bind_ok (pure_ok l.mgmt _) _).trans ((bind_ok atMgmt _).trans free)
    exact bind_ok send _
  | false => rfl

theorem matchHost_ok (held : Held h vpn l c) {configured : CStr}
    (isHost : c.cfg.remoteHost = some configured) (host : CStr) :
    matchHost l.cfg host h = .ok (host == configured, h) := by
  have name := loadStr_ok held (s := .cfgName) rfl
  have remoteHost := loadStr_ok held (s := .cfgHost) isHost
  rw [matchHost, bind_ok (loadCfg_ok held.cfg)]
  exact (bind_ok name _).trans (bind_ok remoteHost _)

end VpnM

end

end OsmoSysmon
