import OsmoSysmon.Cycle.Display
import OsmoSysmon.Cycle.Netdev
import OsmoSysmon.Lib.Outlines
import OsmoSysmon.Lib.Words
import OsmoSysmon.OpenVpn.Fields

/-! # What can be read off the display

A node is printed as its name, and as name and value with a colon and a blank between them
if it has a value.  Configured names are words.  If besides no published value has a newline
in it, every line is a node, and the name ends at the first blank.
-/

namespace OsmoSysmon

open CText Talloc

/-- The part of a node that is displayed. -/
def NodeInfo.plain (info : NodeInfo) : CStr × Option CStr := (info.name, info.value)

theorem solid_decimal (n : Nat) : Solid (decimal n) :=
  fun _ mem => isspace_of_isdigit (isdigit_of_mem_decimal mem)

/-- What is published about a node. -/
structure Legible (name : CStr) (value : Option CStr) : Prop where
  name : Solid name
  value : ∀ text, value = some text → OneLine text

/-- Values with their names. -/
def LegibleValues (values : List (CStr × CStr)) : Prop := ∀ v ∈ values, Solid v.1 ∧ OneLine v.2

def Item.Legible : Item → Prop
  | .value name text => Solid name ∧ OneLine text
  | .group name _ values => Solid name ∧ LegibleValues values
  | .atIdx _ values => LegibleValues values

structure Section.Legible (sec : Section) : Prop where
  title : Solid sec.title
  items : ∀ item ∈ sec.items, item.Legible

/-- Trees of legible nodes. -/
def AllLegible (f : Forest NodeInfo) : Prop :=
  f.Every fun info _ => OsmoSysmon.Legible info.name info.value

theorem AllLegible.addChild {f : Forest NodeInfo} (all : AllLegible f) {name : CStr}
    {value : Option CStr} (legible : OsmoSysmon.Legible name value) :
    AllLegible (addChild name value f) := by
  rw [OsmoSysmon.addChild]
  split
  · exact all
  · exact Forest.every_append.mpr ⟨all, legible, trivial, trivial⟩

theorem AllLegible.addChildren {f : Forest NodeInfo} (all : AllLegible f)
    {values : List (CStr × CStr)} (legible : LegibleValues values) :
    AllLegible (addChildren values f) := by
  induction values generalizing f with
  | nil => exact all
  | cons v values ih =>
    rw [LegibleValues, List.forall_mem_cons] at legible
    refine ih (all.addChild ⟨legible.1.1, ?_⟩) legible.2
    rintro _ ⟨⟩
    exact legible.1.2

theorem AllLegible.report {f : Forest NodeInfo} (all : AllLegible f) {item : Item}
    (legible : item.Legible) : AllLegible (item.report f) := by
  cases item with
  | value name text =>
    refine all.addChild ⟨legible.1, ?_⟩
    rintro _ ⟨⟩
    exact legible.2
  | group name idx values =>
    refine (all.addChild ⟨legible.1, by simp⟩ : AllLegible (OsmoSysmon.addChild name none f)).update ?_
    intro info children _ here below
    exact ⟨here, AllLegible.addChildren below legible.2⟩
  | atIdx idx values =>
    refine Forest.Every.update all ?_
    intro info children _ here below
    exact ⟨here, AllLegible.addChildren below legible⟩

theorem Section.Legible.tree {sec : Section} (legible : sec.Legible) : AllLegible sec.tree := by
  refine ⟨⟨legible.title, by simp⟩, ?_, trivial⟩
  refine reportItems_keeps (I := AllLegible) (fun item mem f all => ?_) trivial
  exact all.report (legible.items item mem)

/-! ## What is published -/

/-- What the callbacks have stored has no newline in it. -/
structure OpenvpnClient.OneLine (vpn : OpenvpnClient) : Prop where
  name : CText.OneLine vpn.remCfg.name
  remoteHost : ∀ host, vpn.remCfg.remoteHost = some host → CText.OneLine host
  tunIp : ∀ ip, vpn.tunIp = some ip → CText.OneLine ip

variable {H : Type}

/-- The names of a configuration are words. -/
structure OsysmonState.Worded (os : OsysmonState H) : Prop where
  openvpn : ∀ vpn ∈ os.openvpnClients, vpn.OneLine ∧
    ∀ host, vpn.cfg.remoteHost = some host → Solid host
  ctrl : ∀ cc ∈ os.ctrlClients, Solid cc.cfg.name ∧ ∀ name ∈ cc.getVars, Solid name
  netdevs : ∀ name ∈ os.netdevs, Solid name
  pings : ∀ host ∈ os.pings, Solid host
  files : ∀ file ∈ os.files, Solid file.name
  shellcmds : ∀ sh ∈ os.shellcmds, Solid sh.name

/-- What is published as it comes has no newline in it, and a host keeps the name under which
    it has been added. -/
structure Probes.OneLine (probes : Probes H) : Prop where
  loads : ∀ si, probes.sysinfo = some si → CText.OneLine si.loads
  ctrl : ∀ sch name value sch',
    probes.ctrl.query sch name = (some value, sch') → CText.OneLine value
  username : ∀ host name, (probes.ping host).username = some name → name = host
  address : ∀ host ip, (probes.ping host).address = some ip → CText.OneLine ip
  latency : ∀ host text, (probes.ping host).latency = some (some text) → CText.OneLine text
  shell : ∀ sh, CText.OneLine (shellText (probes.shell sh))

theorem legibleValues_cons {name value : CStr} {values : List (CStr × CStr)} (solid : Solid name)
    (oneLine : OneLine value) (rest : LegibleValues values) :
    LegibleValues ((name, value) :: values) :=
  List.forall_mem_cons.mpr ⟨⟨solid, oneLine⟩, rest⟩

theorem legibleValues_nil : LegibleValues [] := nofun

theorem LegibleValues.append {values more : List (CStr × CStr)} (first : LegibleValues values)
    (second : LegibleValues more) : LegibleValues (values ++ more) :=
  List.forall_mem_append.mpr ⟨first, second⟩

/-- A value that may be missing. -/
theorem legibleValues_toList {name : CStr} (solid : Solid name) {value : Option CStr}
    (oneLine : ∀ text, value = some text → OneLine text) :
    LegibleValues (value.map fun text => (name, text)).toList := by
  cases value with
  | none => exact legibleValues_nil
  | some text => exact legibleValues_cons solid (oneLine text rfl) legibleValues_nil

theorem OpenvpnClient.OneLine.values {vpn : OpenvpnClient} (oneLine : vpn.OneLine) :
    LegibleValues (openvpnClientValues vpn) := by
  have remote : ∀ text, makeAuthority vpn.remCfg = some text → CText.OneLine text := by
    intro text isText
    rw [makeAuthority] at isText
    split at isText
    · cases isText
    · next host isHost =>
      cases isText
      exact ((oneLine.remoteHost host isHost).append (by decide)).append (solid_decimal _).oneLine
  have status : LegibleValues [(ascii "status", vpn.remCfg.name)] :=
    legibleValues_cons (by decide) oneLine.name legibleValues_nil
  exact (status.append (legibleValues_toList (by decide) oneLine.tunIp)).append
    (legibleValues_toList (by decide) remote)

end OsmoSysmon
