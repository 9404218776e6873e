import Mathlib.Data.List.Forall2
import OsmoSysmon.Netlink.Dumps

/-! # Attributes of netlink messages

`data_cb` and `inet_data_cb` on what they are handed: a header and attributes, in any number
and any order.  `mnl_attr_parse` stores them by their types in a table on the stack, up to
the first that is rejected, and its result is not looked at.
-/

namespace OsmoSysmon

open CText Loop

/-- `struct nlattr`, with `mnl_attr_get_type` and its payload. -/
structure Nlattr where
  type : Nat
  payload : List UInt8
deriving DecidableEq, Repr

inductive MnlType where
  | binary
  | u32
  | string
deriving DecidableEq, Repr

/-- `IFLA_ADDRESS`, `IFLA_IFNAME`, `IFLA_MTU` and `IFA_ADDRESS`. -/
def iflaAddress : Nat := 1
def iflaIfname : Nat := 3
def iflaMtu : Nat := 4
def ifaAddress : Nat := 1

/-- The library, and the headers that the program has been compiled with. -/
structure Libmnl where
  iflaMax : Nat
  ifaMax : Nat
  /-- `mnl_attr_validate` does not fail. -/
  validate : MnlType → List UInt8 → Bool
  link : iflaMtu ≤ iflaMax
  addr : ifaAddress ≤ ifaMax

/-- `struct nlattr *tb[max + 1]`. -/
abbrev AttrTable := List (Option (List UInt8))

def emptyTable (max : Nat) : AttrTable := List.replicate (max + 1) none

/-- `tb[type] = attr`. -/
def storeAttr (attr : Nlattr) (tb : AttrTable) : Except Fault AttrTable :=
  if attr.type < tb.length then .ok (tb.set attr.type (some attr.payload)) else .error .overflow

def loadAttr (tb : AttrTable) (type : Nat) : Except Fault (Option (List UInt8)) :=
  match tb[type]? with
  | some attr => .ok attr
  | none => .error .overread

abbrev AttrCb := Nlattr → AttrTable → Except Fault (CbResult × AttrTable)

/-- The callbacks of `mnl_attr_parse`, with the types that they look at. -/
def attrCb (validate : MnlType → List UInt8 → Bool) (max : Nat) (checked : Nat → Option MnlType) :
    AttrCb := fun attr tb => do
  -- skip unsupported attribute in user-space
  if max < attr.type then return (.ok, tb)
  else if (checked attr.type).all (validate · attr.payload) then
    return (.ok, ← storeAttr attr tb)
  else return (.error, tb)

def ifChecked (type : Nat) : Option MnlType :=
  if type = iflaAddress then some .binary
  else if type = iflaMtu then some .u32
  else if type = iflaIfname then some .string
  else none

def inetChecked (type : Nat) : Option MnlType := if type = ifaAddress then some .binary else none

def ifAttrCb (mnl : Libmnl) : AttrCb := attrCb mnl.validate mnl.iflaMax ifChecked

def inetAttrCb (mnl : Libmnl) : AttrCb := attrCb mnl.validate mnl.ifaMax inetChecked

/-- Goes over the attributes until the callback does not return `MNL_CB_OK`. -/
def mnlAttrParse (cb : AttrCb) : List Nlattr → AttrTable → Except Fault (CbResult × AttrTable)
  | [], tb => return (.ok, tb)
  | attr :: attrs, tb => do
    let (ret, tb) ← cb attr tb
    if ret = .ok then mnlAttrParse cb attrs tb
    else return (ret, tb)

/-- The string that starts at the payload. -/
def mnlAttrGetStr (payload : List UInt8) : Except Fault CStr :=
  match cString? payload with
  | some text => .ok text
  | none => .error .overread

/-- `struct in_addr`. -/
def inAddr? : List UInt8 → Option InAddr
  | a :: b :: c :: d :: _ => some ⟨a, b, c, d⟩
  | _ => none

/-- `RTM_NEWLINK`. -/
structure NewLink where
  index : Int32
  flags : UInt32
  attrs : List Nlattr

/-- `RTM_NEWADDR`. -/
structure NewAddr where
  index : UInt32
  family : UInt8
  prefixlen : UInt8
  attrs : List Nlattr

namespace Libmnl

variable (mnl : Libmnl)

/-- `data_cb`; behind the table it is `OsmoSysmon.dataCb`. -/
def dataCb (netdevs : List CStr) (parent : Option Ptr) (msg : NewLink) : NodeM Unit := do
  let (_, tb) ← (mnlAttrParse (ifAttrCb mnl) msg.attrs (emptyTable mnl.iflaMax) :
    Except Fault (CbResult × AttrTable))
  match ← (loadAttr tb iflaIfname : Except Fault (Option (List UInt8))) with
  | none => return ()
  | some payload =>
    let name ← (mnlAttrGetStr payload : Except Fault CStr)
    let address ← (loadAttr tb iflaAddress : Except Fault (Option (List UInt8)))
    OsmoSysmon.dataCb netdevs parent ⟨msg.index, msg.flags, some name, address⟩

def inetDataCb (parent : Option Ptr) (msg : NewAddr) : NodeM Unit := do
  match ← valueNodeFindByIdx parent msg.index.toInt32 with
  | none => return ()
  | some vnIf =>
    if msg.family ≠ afInet then return ()
    else
      let (_, tb) ← (mnlAttrParse (inetAttrCb mnl) msg.attrs (emptyTable mnl.ifaMax) :
        Except Fault (CbResult × AttrTable))
      match ← (loadAttr tb ifaAddress : Except Fault (Option (List UInt8))) with
      | none => return ()
      | some payload =>
        match inAddr? payload with
        | none => throw .overread
        | some addr =>
          addValues (some vnIf)
            (AddrMsg.values ⟨msg.index, msg.family, msg.prefixlen, some addr⟩)

def rtnlUpdateLink (netdevs : List CStr) (vnNet : Option Ptr) : List NewLink → NodeM Unit
  | [] => pure ()
  | msg :: msgs => do
    mnl.dataCb netdevs vnNet msg
    rtnlUpdateLink netdevs vnNet msgs

def rtnlUpdateAddr (vnNet : Option Ptr) : List NewAddr → NodeM Unit
  | [] => pure ()
  | msg :: msgs => do
    mnl.inetDataCb vnNet msg
    rtnlUpdateAddr vnNet msgs

def osysmonRtnlPoll (netdevs : List CStr) (netlink : Option (List NewLink × List NewAddr))
    (parent : Option Ptr) : NodeM Int := do
  if netdevs.isEmpty then return 0
  else
    let vnNet ← valueNodeAdd parent (ascii "netdev") none
    match netlink with
    | none => return -1
    | some (links, addrs) => do
      mnl.rtnlUpdateLink netdevs vnNet links
      mnl.rtnlUpdateAddr vnNet addrs
      return 0

end Libmnl

/-! ## What is stored -/

/-- The payload of the last attribute of a type. -/
def lastAttr (type : Nat) : List Nlattr → Option (List UInt8)
  | [] => none
  | attr :: attrs => lastAttr type attrs <|> if attr.type = type then some attr.payload else none

/-- The attribute is not rejected. -/
def Nlattr.passes (validate : MnlType → List UInt8 → Bool) (max : Nat)
    (checked : Nat → Option MnlType) (attr : Nlattr) : Bool :=
  max < attr.type || (checked attr.type).all (validate · attr.payload)

section

variable {validate : MnlType → List UInt8 → Bool} {max : Nat} {checked : Nat → Option MnlType}

/-- Nothing is stored outside the table, and what comes behind a rejected attribute is not
    stored at all. -/
theorem mnlAttrParse_ok (attrs : List Nlattr) {tb : AttrTable} (size : tb.length = max + 1) :
    ∃ ret tb', mnlAttrParse (attrCb validate max checked) attrs tb = .ok (ret, tb') ∧
      tb'.length = max + 1 ∧ ∀ type ≤ max, tb'[type]? =
        some (lastAttr type (attrs.takeWhile (·.passes validate max checked)) <|> tb[type]?.join) := by
  induction attrs generalizing tb with
  | nil =>
    refine ⟨.ok, tb, rfl, size, ?_⟩
    intro type inside
    rw [List.getElem?_eq_getElem (by omega)]
    simp [lastAttr]
  | cons attr attrs ih =>
    rw [mnlAttrParse, List.takeWhile_cons, Nlattr.passes]
    by_cases unknown : max < attr.type
    · -- it is skipped
      obtain ⟨ret, tb', run, size', stored⟩ := ih size
      refine ⟨ret, tb', ?_, size', ?_⟩
      · rw [attrCb, if_pos unknown]
        exact run
      · intro type inside
        have other : attr.type ≠ type := by omega
        simp [stored type inside, unknown, lastAttr, other]
    · cases valid : (checked attr.type).all (validate · attr.payload) with
      | false =>
        refine ⟨.error, tb, ?_, size, ?_⟩
        · rw [attrCb, if_neg unknown, valid]
          rfl
        · intro type inside
          rw [List.getElem?_eq_getElem (by omega)]
          simp [unknown, lastAttr]
      | true =>
        have room : attr.type < tb.length := by omega
        have stores : storeAttr attr tb = .ok (tb.set attr.type (some attr.payload)) := if_pos room
        obtain ⟨ret, tb', run, size', stored⟩ :=
          @ih (tb.set attr.type (some attr.payload)) (by rw [List.length_set, size])
        refine ⟨ret, tb', ?_, size', ?_⟩
        · rw [attrCb, if_neg unknown, valid, stores]
          exact run
        · intro type inside
          rw [stored type inside]
          by_cases same : attr.type = type
          · subst same
            simp [lastAttr, room]
          · simp [lastAttr, same]

theorem mnlAttrParse_empty (attrs : List Nlattr) :
    ∃ ret tb, mnlAttrParse (attrCb validate max checked) attrs (emptyTable max) = .ok (ret, tb) ∧
      ∀ type ≤ max, loadAttr tb type =
        .ok (lastAttr type (attrs.takeWhile (·.passes validate max checked))) := by
  obtain ⟨ret, tb, run, size, stored⟩ :=
    @mnlAttrParse_ok validate max checked attrs (emptyTable max) (by simp [emptyTable])
  refine ⟨ret, tb, run, ?_⟩
  intro type inside
  have isEmpty : (emptyTable max)[type]?.join = none := by
    rw [emptyTable, List.getElem?_replicate]
    split <;> rfl
  rw [loadAttr, stored type inside]
  simp [isEmpty]

end

/-! ## Messages -/

namespace Libmnl

variable (mnl : Libmnl)

/-- The attributes of a link that are stored. -/
def linkAttrs (attrs : List Nlattr) : List Nlattr :=
  attrs.takeWhile (·.passes mnl.validate mnl.iflaMax ifChecked)

def addrAttrs (attrs : List Nlattr) : List Nlattr :=
  attrs.takeWhile (·.passes mnl.validate mnl.ifaMax inetChecked)

/-- The message without its attributes. -/
def linkMsg (msg : NewLink) : LinkMsg where
  index := msg.index
  flags := msg.flags
  ifname := (lastAttr iflaIfname (mnl.linkAttrs msg.attrs)).bind cString?
  address := lastAttr iflaAddress (mnl.linkAttrs msg.attrs)

def addrMsg (msg : NewAddr) : AddrMsg where
  index := msg.index
  family := msg.family
  prefixlen := msg.prefixlen
  address := (lastAttr ifaAddress (mnl.addrAttrs msg.attrs)).bind inAddr?

end Libmnl

/-- Names end in a NUL. -/
def NewLink.Terminated (msg : NewLink) : Prop :=
  ∀ attr ∈ msg.attrs, attr.type = iflaIfname → 0 ∈ attr.payload

/-- An IPv4 address is four bytes. -/
def NewAddr.Whole (msg : NewAddr) : Prop :=
  msg.family = afInet → ∀ attr ∈ msg.attrs, attr.type = ifaAddress → 4 ≤ attr.payload.length

theorem lastAttr_mem {type : Nat} {attrs : List Nlattr} {payload : List UInt8}
    (last : lastAttr type attrs = some payload) : ⟨type, payload⟩ ∈ attrs := by
  induction attrs with
  | nil => cases last
  | cons attr attrs ih =>
    rw [lastAttr] at last
    cases later : lastAttr type attrs with
    | some found =>
      rw [later] at last
      cases last
      exact List.mem_cons_of_mem _ (ih later)
    | none =>
      rw [later] at last
      by_cases same : attr.type = type
      · subst same
        simp at last
        subst last
        exact List.mem_cons_self
      · simp [same] at last

namespace Libmnl

variable (mnl : Libmnl)

theorem ifAttrCb_parsed (attrs : List Nlattr) :
    ∃ ret tb, mnlAttrParse (ifAttrCb mnl) attrs (emptyTable mnl.iflaMax) = .ok (ret, tb) ∧
      ∀ type ≤ mnl.iflaMax, loadAttr tb type = .ok (lastAttr type (mnl.linkAttrs attrs)) :=
  mnlAttrParse_empty attrs

theorem inetAttrCb_parsed (attrs : List Nlattr) :
    ∃ ret tb, mnlAttrParse (inetAttrCb mnl) attrs (emptyTable mnl.ifaMax) = .ok (ret, tb) ∧
      ∀ type ≤ mnl.ifaMax, loadAttr tb type = .ok (lastAttr type (mnl.addrAttrs attrs)) :=
  mnlAttrParse_empty attrs

theorem dataCb_eq (netdevs : List CStr) (parent : Option Ptr) {msg : NewLink}
    (terminated : msg.Terminated) :
    mnl.dataCb netdevs parent msg = OsmoSysmon.dataCb netdevs parent (mnl.linkMsg msg) := by
  obtain ⟨ret, tb, parsed, loads⟩ := mnl.ifAttrCb_parsed msg.attrs
  have ifname := loads iflaIfname (Nat.le_trans (by decide) mnl.link)
  have address := loads iflaAddress (Nat.le_trans (by decide) mnl.link)
  funext nodes
  rw [dataCb, bind_ok (lift_ok parsed nodes)]
  refine (bind_ok (lift_ok ifname nodes) _).trans ?_
  rw [linkMsg]
  cases last : lastAttr iflaIfname (mnl.linkAttrs msg.attrs) with
  | none => rfl
  | some payload =>
    have isNul := terminated _ ((List.takeWhile_sublist _).subset (lastAttr_mem last)) rfl
    have isText : cString? payload = some (payload.takeWhile (· ≠ 0)) := if_pos isNul
    have text : mnlAttrGetStr payload = .ok (payload.takeWhile (· ≠ 0)) := by
      rw [mnlAttrGetStr, isText]
    rw [Option.bind_some, isText]
    refine (bind_ok (lift_ok text nodes) _).trans ?_
    exact bind_ok (lift_ok address nodes) _

theorem inetDataCb_eq (parent : Option Ptr) {msg : NewAddr} (whole : msg.Whole) :
    mnl.inetDataCb parent msg = OsmoSysmon.inetDataCb parent (mnl.addrMsg msg) := by
  rw [inetDataCb, OsmoSysmon.inetDataCb]
  congr 1
  funext found
  cases found with
  | none => rfl
  | some vnIf =>
    dsimp only
    by_cases family : msg.family = afInet
    · obtain ⟨ret, tb, parsed, loads⟩ := mnl.inetAttrCb_parsed msg.attrs
      have address := loads ifaAddress mnl.addr
      funext nodes
      rw [if_neg (not_not_intro family), bind_ok (lift_ok parsed nodes)]
      refine (bind_ok (lift_ok address nodes) _).trans ?_
      rw [addrMsg]
      cases last : lastAttr ifaAddress (mnl.addrAttrs msg.attrs) with
      | none => simp [AddrMsg.values, family, addValues]
      | some payload =>
        have long := whole family _ ((List.takeWhile_sublist _).subset (lastAttr_mem last)) rfl
        match payload, long with
        | _ :: _ :: _ :: _ :: _, _ => rfl
    · rw [if_pos family]
      simp [AddrMsg.values, addrMsg, family, addValues]

/-! ## Polls -/

theorem rtnlUpdateLink_eq (netdevs : List CStr) (vnNet : Option Ptr) {links : List NewLink}
    (terminated : ∀ msg ∈ links, msg.Terminated) :
    mnl.rtnlUpdateLink netdevs vnNet links =
      OsmoSysmon.rtnlUpdateLink netdevs vnNet (links.map mnl.linkMsg) := by
  induction links with
  | nil => rfl
  | cons msg links ih =>
    rw [List.forall_mem_cons] at terminated
    rw [rtnlUpdateLink, mnl.dataCb_eq netdevs vnNet terminated.1, ih terminated.2]
    rfl

theorem rtnlUpdateAddr_eq (vnNet : Option Ptr) {addrs : List NewAddr}
    (whole : ∀ msg ∈ addrs, msg.Whole) :
    mnl.rtnlUpdateAddr vnNet addrs =
      OsmoSysmon.rtnlUpdateAddr vnNet (addrs.map mnl.addrMsg) := by
  induction addrs with
  | nil => rfl
  | cons msg addrs ih =>
    rw [List.forall_mem_cons] at whole
    rw [rtnlUpdateAddr, mnl.inetDataCb_eq vnNet whole.1, ih whole.2]
    rfl

theorem osysmonRtnlPoll_eq (netdevs : List CStr) {links : List NewLink} {addrs : List NewAddr}
    (terminated : ∀ msg ∈ links, msg.Terminated) (whole : ∀ msg ∈ addrs, msg.Whole)
    (parent : Option Ptr) :
    mnl.osysmonRtnlPoll netdevs (some (links, addrs)) parent =
      OsmoSysmon.osysmonRtnlPoll netdevs (some (links.map mnl.linkMsg, addrs.map mnl.addrMsg))
        parent := by
  have link := fun vnNet => mnl.rtnlUpdateLink_eq netdevs vnNet terminated
  have addr := fun vnNet => mnl.rtnlUpdateAddr_eq vnNet whole
  simp only [osysmonRtnlPoll, OsmoSysmon.osysmonRtnlPoll, link, addr]

end Libmnl

/-! ## Messages that say the same -/

theorem lastAttr_eq_some_iff {type : Nat} {attrs : List Nlattr} (once : (attrs.map Nlattr.type).Nodup)
    {payload : List UInt8} : lastAttr type attrs = some payload ↔ ⟨type, payload⟩ ∈ attrs := by
  refine ⟨lastAttr_mem, ?_⟩
  induction attrs with
  | nil => simp
  | cons attr attrs ih =>
    rw [List.map_cons, List.nodup_cons] at once
    intro isMem
    rw [lastAttr]
    rcases List.mem_cons.mp isMem with isHere | isLater
    · have absent : lastAttr type attrs = none := by
        rw [Option.eq_none_iff_forall_ne_some]
        intro other found
        refine once.1 (List.mem_map.mpr ⟨_, lastAttr_mem found, ?_⟩)
        rw [← isHere]
      rw [absent, ← isHere]
      simp
    · rw [ih once.2 isLater]
      rfl

/-- No attribute is rejected, and no type comes twice. -/
def Sound (validate : MnlType → List UInt8 → Bool) (max : Nat) (checked : Nat → Option MnlType)
    (attrs : List Nlattr) : Prop :=
  (∀ attr ∈ attrs, attr.passes validate max checked = true) ∧ (attrs.map Nlattr.type).Nodup

theorem lastAttr_congr {validate : MnlType → List UInt8 → Bool} {max : Nat}
    {checked : Nat → Option MnlType} {attrs attrs' : List Nlattr}
    (sound : Sound validate max checked attrs) (sound' : Sound validate max checked attrs')
    {type : Nat} (same : ∀ payload, ⟨type, payload⟩ ∈ attrs ↔ ⟨type, payload⟩ ∈ attrs') :
    lastAttr type (attrs.takeWhile (·.passes validate max checked)) =
      lastAttr type (attrs'.takeWhile (·.passes validate max checked)) := by
  rw [List.takeWhile_eq_self_iff.mpr sound.1, List.takeWhile_eq_self_iff.mpr sound'.1]
  apply Option.ext
  intro payload
  rw [lastAttr_eq_some_iff sound.2, lastAttr_eq_some_iff sound'.2, same]

namespace Libmnl

variable (mnl : Libmnl)

/-- The messages say the same about a link, in any order and with anything else besides. -/
structure SameLink (msg msg' : NewLink) : Prop where
  index : msg'.index = msg.index
  flags : msg'.flags = msg.flags
  sound : Sound mnl.validate mnl.iflaMax ifChecked msg.attrs
  sound' : Sound mnl.validate mnl.iflaMax ifChecked msg'.attrs
  ifname : ∀ payload, ⟨iflaIfname, payload⟩ ∈ msg.attrs ↔ ⟨iflaIfname, payload⟩ ∈ msg'.attrs
  address : ∀ payload, ⟨iflaAddress, payload⟩ ∈ msg.attrs ↔ ⟨iflaAddress, payload⟩ ∈ msg'.attrs

structure SameAddr (msg msg' : NewAddr) : Prop where
  index : msg'.index = msg.index
  family : msg'.family = msg.family
  prefixlen : msg'.prefixlen = msg.prefixlen
  sound : Sound mnl.validate mnl.ifaMax inetChecked msg.attrs
  sound' : Sound mnl.validate mnl.ifaMax inetChecked msg'.attrs
  address : ∀ payload, ⟨ifaAddress, payload⟩ ∈ msg.attrs ↔ ⟨ifaAddress, payload⟩ ∈ msg'.attrs

variable {mnl}

theorem SameLink.linkMsg {msg msg' : NewLink} (same : mnl.SameLink msg msg') :
    mnl.linkMsg msg' = mnl.linkMsg msg := by
  rw [Libmnl.linkMsg, Libmnl.linkMsg, linkAttrs, linkAttrs,
    lastAttr_congr same.sound same.sound' same.ifname,
    lastAttr_congr same.sound same.sound' same.address, same.index, same.flags]

theorem SameLink.terminated {msg msg' : NewLink} (same : mnl.SameLink msg msg')
    (terminated : msg.Terminated) : msg'.Terminated := by
  rintro ⟨type, payload⟩ isMem rfl
  exact terminated _ ((same.ifname payload).mpr isMem) rfl

theorem SameAddr.addrMsg {msg msg' : NewAddr} (same : mnl.SameAddr msg msg') :
    mnl.addrMsg msg' = mnl.addrMsg msg := by
  rw [Libmnl.addrMsg, Libmnl.addrMsg, addrAttrs, addrAttrs,
    lastAttr_congr same.sound same.sound' same.address, same.index, same.family, same.prefixlen]

theorem SameAddr.whole {msg msg' : NewAddr} (same : mnl.SameAddr msg msg') (whole : msg.Whole) :
    msg'.Whole := by
  rintro family ⟨type, payload⟩ isMem rfl
  exact whole (same.family ▸ family) _ ((same.address payload).mpr isMem) rfl

end Libmnl

theorem map_of_forall₂ {α β : Type} {R : α → α → Prop} {P : α → Prop} {f : α → β} {as bs : List α}
    (related : List.Forall₂ R as bs) (same : ∀ a b, R a b → f b = f a)
    (keeps : ∀ a b, R a b → P a → P b) (all : ∀ a ∈ as, P a) :
    bs.map f = as.map f ∧ ∀ b ∈ bs, P b := by
  induction related with
  | nil => simp
  | @cons a b as bs here _ ih =>
    rw [List.forall_mem_cons] at all
    obtain ⟨rest, later⟩ := ih all.2
    refine ⟨?_, List.forall_mem_cons.mpr ⟨keeps a b here all.1, later⟩⟩
    rw [List.map_cons, List.map_cons, same a b here, rest]

/-- **Of messages with terminated names and whole addresses, whatever else is in them, a poll makes
    what it makes of their last accepted names and addresses, without leaving its tables; the
    order of the attributes does not matter, nor do those that it does not ask for.** -/
theorem rtnl_attributes (mnl : Libmnl) (netdevs : List CStr) {links : List NewLink}
    {addrs : List NewAddr} (terminated : ∀ msg ∈ links, msg.Terminated)
    (whole : ∀ msg ∈ addrs, msg.Whole) (parent : Option Ptr) :
    mnl.osysmonRtnlPoll netdevs (some (links, addrs)) parent =
        osysmonRtnlPoll netdevs (some (links.map mnl.linkMsg, addrs.map mnl.addrMsg)) parent ∧
      ∀ links' addrs', List.Forall₂ mnl.SameLink links links' →
        List.Forall₂ mnl.SameAddr addrs addrs' →
        mnl.osysmonRtnlPoll netdevs (some (links', addrs')) parent =
          mnl.osysmonRtnlPoll netdevs (some (links, addrs)) parent := by
  refine ⟨mnl.osysmonRtnlPoll_eq netdevs terminated whole parent, ?_⟩
  intro links' addrs' sameLinks sameAddrs
  obtain ⟨linkMsgs, terminated'⟩ := map_of_forall₂ sameLinks (fun _ _ same => same.linkMsg)
    (fun _ _ same => same.terminated) terminated
  obtain ⟨addrMsgs, whole'⟩ := map_of_forall₂ sameAddrs (fun _ _ same => same.addrMsg)
    (fun _ _ same => same.whole) whole
  rw [mnl.osysmonRtnlPoll_eq netdevs terminated whole,
    mnl.osysmonRtnlPoll_eq netdevs terminated' whole', linkMsgs, addrMsgs]

/-- Integers have the room of an integer, and a string is not empty. -/
def plainMnl : Libmnl where
  iflaMax := 64
  ifaMax := 11
  validate
    | .u32, payload => payload.length == 4
    | .string, payload => payload != []
    | .binary, _ => true
  link := by decide
  addr := by decide

/-- An interface that is up, with its name and its address. -/
def linkOf (attrs : List Nlattr) : NewLink where
  index := 2
  flags := iffUp
  attrs := attrs

def ethName : Nlattr := ⟨iflaIfname, ascii "eth0" ++ [0]⟩

def ethAddress : Nlattr := ⟨iflaAddress, [2, 0, 0, 0, 0, 1]⟩

/-- The queue length, and a type that is not known. -/
def ethOther : List Nlattr := [⟨13, [232, 3, 0, 0]⟩, ⟨70, []⟩]

/-- An address of the interface. -/
def addrOf (attrs : List Nlattr) : NewAddr where
  index := 2
  family := afInet
  prefixlen := 24
  attrs := attrs

def ethInet : Nlattr := ⟨ifaAddress, [10, 0, 0, 7]⟩

/-- The label of the address. -/
def ethLabel : Nlattr := ⟨3, ascii "eth0" ++ [0]⟩

theorem rtnl_attributes_eth0 :
    plainMnl.osysmonRtnlPoll [ascii "eth0"] (some
        ([linkOf (ethOther ++ [ethName, ethAddress])], [addrOf [ethLabel, ethInet]])) (some 0) =
      osysmonRtnlPoll [ascii "eth0"]
        (some ([⟨2, iffUp, some (ascii "eth0"), some [2, 0, 0, 0, 0, 1]⟩],
          [⟨2, afInet, 24, some ⟨10, 0, 0, 7⟩⟩])) (some 0) ∧
    plainMnl.osysmonRtnlPoll [ascii "eth0"]
        (some ([linkOf [ethAddress, ethName]], [addrOf [ethInet]])) (some 0) =
      plainMnl.osysmonRtnlPoll [ascii "eth0"] (some
        ([linkOf (ethOther ++ [ethName, ethAddress])], [addrOf [ethLabel, ethInet]])) (some 0) := by
  have terminated : ∀ msg ∈ [linkOf (ethOther ++ [ethName, ethAddress])], msg.Terminated := by
    simp [NewLink.Terminated, linkOf, ethOther, ethName, ethAddress, iflaIfname, iflaAddress]
  have whole : ∀ msg ∈ [addrOf [ethLabel, ethInet]], msg.Whole := by
    simp [NewAddr.Whole, addrOf, ethLabel, ethInet, ifaAddress]
  obtain ⟨reads, same⟩ := rtnl_attributes plainMnl [ascii "eth0"] terminated whole (some 0)
  refine ⟨reads, same _ _ (.cons ?_ .nil) (.cons ?_ .nil)⟩
  · constructor
    · rfl
    · rfl
    · exact ⟨by decide, by decide⟩
    · exact ⟨by decide, by decide⟩
    · intro payload
      simp [linkOf, ethOther, ethName, ethAddress, iflaIfname, iflaAddress]
    · intro payload
      simp [linkOf, ethOther, ethName, ethAddress, iflaIfname, iflaAddress]
  · constructor
    · rfl
    · rfl
    · rfl
    · exact ⟨by decide, by decide⟩
    · exact ⟨by decide, by decide⟩
    · intro payload
      simp [addrOf, ethLabel, ethInet, ifaAddress]

end OsmoSysmon
