import OsmoSysmon.Ctrl.Answers
import OsmoSysmon.Cycle.Legible

/-! # One node for each element

Two elements of a section with the same name would share a node, and of two values with the
same name the second would be dropped.  No configuration has such elements, so every section
but that of the interfaces has a node for each of its elements, in order, and below it each
value once.
-/

namespace OsmoSysmon

open CText

def Item.name : Item → CStr
  | .value name _ => name
  | .group name _ _ => name
  | .atIdx _ _ => []

/-- Values have names of their own. -/
def Item.Keyed : Item → Prop
  | .value _ _ => True
  | .group _ _ values => (values.map Prod.fst).Nodup
  | .atIdx _ _ => False

structure Section.Keyed (sec : Section) : Prop where
  items : ∀ item ∈ sec.items, item.Keyed
  names : (sec.items.map Item.name).Nodup

variable {H : Type}

/-- Different elements of a registry have different keys. -/
structure OsysmonState.Keyed (os : OsysmonState H) : Prop where
  openvpn : (os.openvpnClients.map fun vpn => makeAuthority vpn.cfg).Nodup
  vars : ∀ cc ∈ os.ctrlClients, cc.getVars.Nodup
  pings : os.pings.Nodup
  files : (os.files.map OsysmonFile.name).Nodup
  shellcmds : (os.shellcmds.map OsysmonShellcmd.name).Nodup

end OsmoSysmon
